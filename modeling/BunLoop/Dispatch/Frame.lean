import BunLoop.Dispatch

/-!
# What a dispatch does to the heap

Outside its admission test, a TCP dispatch changes the heap only by `DispatchEdit`s
(`dispatchSocket_shape`), and a dispatch of an open socket makes its calls on a live socket,
never on a closed one or NULL (`Call.Safe`).
-/

namespace BunLoop

open Function

/-- One change a dispatch makes to the heap outside its admission. -/
inductive DispatchEdit : Loop → Loop → Prop
  | pollChange {st : Loop} (s : Nat) (e : Events) (keeps : e.readable → (st.events s).readable) :
      DispatchEdit st (st.pollChange s e)
  | close {st : Loop} (s : Nat) : DispatchEdit st (st.socketClose s)
  | lastWriteFailed {st : Loop} (b : Bool) : DispatchEdit st { st with lastWriteFailed := b }

theorem DispatchEdit.lowPrio {a b : Loop} (h : DispatchEdit a b) :
    b.lowPrioBudget = a.lowPrioBudget ∧ b.lowPrioState = a.lowPrioState := by
  cases h with
  | close s => unfold Loop.socketClose; split_ifs <;> exact ⟨rfl, rfl⟩
  | _ => exact ⟨rfl, rfl⟩

theorem DispatchEdit.closed {a b : Loop} (h : DispatchEdit a b) {x : Nat}
    (hx : a.closed x = true) : b.closed x = true := by
  cases h with
  | close s =>
    rw [Loop.socketClose_closed]
    by_cases e : x = s
    · subst e; simp
    · simpa [update_noteq e] using hx
  | _ => exact hx

def DispatchEdits : Loop → Loop → Prop := Relation.ReflTransGen DispatchEdit

namespace DispatchEdits

theorem refl (st : Loop) : DispatchEdits st st := Relation.ReflTransGen.refl

theorem trans {a b c : Loop} (h : DispatchEdits a b) (h' : DispatchEdits b c) :
    DispatchEdits a c :=
  Relation.ReflTransGen.trans h h'

theorem single {a b : Loop} (h : DispatchEdit a b) : DispatchEdits a b :=
  Relation.ReflTransGen.single h

theorem closes (l : List Nat) : ∀ st : Loop, DispatchEdits st (l.foldl Loop.socketClose st) := by
  induction l with
  | nil => exact refl
  | cons x l ih => exact fun st => (single (.close x)).trans (ih _)

theorem lowPrio {a b : Loop} (h : DispatchEdits a b) :
    b.lowPrioBudget = a.lowPrioBudget ∧ b.lowPrioState = a.lowPrioState := by
  induction h with
  | refl => exact ⟨rfl, rfl⟩
  | tail _ e ih => exact ⟨e.lowPrio.1.trans ih.1, e.lowPrio.2.trans ih.2⟩

theorem closed {a b : Loop} (h : DispatchEdits a b) {x : Nat} (hx : a.closed x = true) :
    b.closed x = true := by
  induction h with
  | refl => exact hx
  | tail _ e ih => exact e.closed ih

theorem open_of_open {a b : Loop} (h : DispatchEdits a b) {x : Nat} (hx : b.closed x = false) :
    a.closed x = false :=
  Bool.eq_false_iff.mpr fun c => by simp [h.closed c] at hx

end DispatchEdits

/-- A call that needs a live socket gets one: only `us_socket_is_closed` and `us_socket_close`
may be made on a closed socket or on NULL. -/
def Call.Safe (c : Call) : Prop :=
  c.fn = .isClosed ∨ c.fn = .close ∨ (c.socket ≠ none ∧ c.closed = false)

theorem Call.safe_live {f : Fn} {x : Nat} {closed : Bool} (h : closed = false) :
    Call.Safe ⟨f, some x, closed⟩ :=
  .inr (.inr ⟨Option.some_ne_none x, h⟩)

namespace Dispatch

/-- `d'` follows `d` within a dispatch: the heap changed by edits, the admission untouched, the
callbacks' replies only consumed, and calls appended that satisfy `P`. -/
structure Follows (P : Call → Prop) (d d' : Dispatch) : Prop where
  edits : DispatchEdits d.loop d'.loop
  admitted : d'.admitted = d.admitted
  replies : ∀ fn, ∀ r ∈ d'.replies fn, r ∈ d.replies fn
  calls : ∃ l, d'.calls = d.calls ++ l ∧ ∀ c ∈ l, P c

variable {P : Call → Prop} {d d' d'' : Dispatch} {f : Fn} {s : Option Nat}

theorem Follows.refl (d : Dispatch) : Follows P d d :=
  ⟨.refl _, rfl, fun _ _ h => h, [], by simp, by simp⟩

theorem Follows.trans (h : Follows P d d') (h' : Follows P d' d'') : Follows P d d'' := by
  obtain ⟨l, hl, hP⟩ := h.calls
  obtain ⟨l', hl', hP'⟩ := h'.calls
  refine ⟨h.edits.trans h'.edits, h'.admitted.trans h.admitted,
    fun fn r hr => h.replies fn r (h'.replies fn r hr), l ++ l', by rw [hl', hl, List.append_assoc],
    fun c hc => ?_⟩
  rcases List.mem_append.mp hc with hc | hc
  exacts [hP c hc, hP' c hc]

theorem Follows.mono {Q : Call → Prop} (h : Follows P d d') (hPQ : ∀ c, P c → Q c) :
    Follows Q d d' :=
  let ⟨l, hl, hP⟩ := h.calls
  ⟨h.edits, h.admitted, h.replies, l, hl, fun c hc => hPQ c (hP c hc)⟩

theorem Follows.all (h : Follows P d d') {Q : Call → Prop} (hd : ∀ c ∈ d.calls, Q c)
    (hPQ : ∀ c, P c → Q c) : ∀ c ∈ d'.calls, Q c := by
  obtain ⟨l, hl, hP⟩ := h.calls
  intro c hc
  rw [hl] at hc
  rcases List.mem_append.mp hc with hc | hc
  exacts [hd c hc, hPQ c (hP c hc)]

theorem record_follows (h : P ⟨f, s, s.elim false d.loop.closed⟩) : Follows P d (d.record f s) :=
  ⟨.refl _, rfl, fun _ _ h => h, _, rfl, by simp [h]⟩

theorem isClosed_follows (h : P ⟨.isClosed, s, s.elim false d.loop.closed⟩) :
    Follows P d (d.isClosed s).1 :=
  record_follows h

theorem isShutDown_follows (h : P ⟨.isShutDown, s, s.elim false d.loop.closed⟩) :
    Follows P d (d.isShutDown s).1 :=
  record_follows h

theorem pollChange_follows {m : Events → Events} (hm : ∀ e, (m e).readable → e.readable)
    (h : P ⟨.pollChange, s, s.elim false d.loop.closed⟩) : Follows P d (d.pollChange s m) := by
  have recorded := record_follows (d := d) h
  cases s with
  | none => exact recorded
  | some x =>
    exact recorded.trans ⟨.single (.pollChange x _ (hm _)), rfl, fun _ _ h => h, [],
      (List.append_nil _).symm, by simp⟩

theorem close_follows (h : P ⟨.close, s, s.elim false d.loop.closed⟩) :
    Follows P d (d.close s) := by
  have recorded := record_follows (d := d) h
  cases s with
  | none => exact recorded
  | some x =>
    exact recorded.trans ⟨.single (.close x), rfl, fun _ _ h => h, [], (List.append_nil _).symm,
      by simp⟩

theorem callback_follows (h : P ⟨f, s, s.elim false d.loop.closed⟩) :
    Follows P d (d.callback f s).1 := by
  have recorded := record_follows (d := d) h
  dsimp only [callback]
  split
  · exact recorded
  · rename_i r rest hr
    refine recorded.trans ⟨(DispatchEdits.closes r.closes _).trans
      (.single (.lastWriteFailed _)), rfl, fun g x hx => ?_, [], by simp, by simp⟩
    by_cases e : g = f
    · subst e
      simp only [update_same] at hx
      show x ∈ (d.record g s).replies g
      rw [hr]
      exact List.mem_cons_of_mem _ hx
    · simpa [update_noteq e] using hx

theorem callback_returns (x : Nat) :
    (d.callback f (some x)).2 = some x ∨ (d.callback f (some x)).2 = none ∨
      ∃ r ∈ d.replies f, ∃ y, r.ret = .other y ∧ (d.callback f (some x)).2 = some y := by
  dsimp only [callback]
  split
  · exact .inl rfl
  · rename_i r rest hr
    cases hret : r.ret with
    | given => exact .inl rfl
    | null => exact .inr (.inl rfl)
    | other y => exact .inr (.inr ⟨r, by simp [record] at hr; simp [hr], y, hret, rfl⟩)

@[simp] theorem record_loop : (d.record f s).loop = d.loop := rfl
@[simp] theorem record_replies : (d.record f s).replies = d.replies := rfl

theorem pollChange_closed (m : Events → Events) : (d.pollChange s m).loop.closed = d.loop.closed :=
  by cases s <;> rfl

theorem isClosed_false {y : Nat} (h : d.isClosed (some y) = (d', false)) :
    d'.loop = d.loop ∧ d.loop.closed y = false := by
  simp only [isClosed, Option.elim, Prod.mk.injEq] at h
  exact ⟨by rw [← h.1]; rfl, h.2⟩

/-! ## The phases -/

theorem Follows.of_eq (h : Follows P d d') (e : d' = d'') : Follows P d d'' := e ▸ h

theorem writablePhase_follows (d : Dispatch) (s : Nat) (error : Int) (eof : Bool)
    (events : Events) (O : Prop) (hO : O → d.loop.closed s = false) :
    Follows (fun c => c.fn ≠ .recv ∧ (O → c.Safe)) d
      (writablePhase d s error eof events).dispatch := by
  unfold writablePhase
  split
  · have reset : Follows (fun c => c.fn ≠ .recv ∧ (O → c.Safe)) d
        { d with loop := { d.loop with lastWriteFailed := false } } :=
      ⟨.single (.lastWriteFailed false), rfl, fun _ _ h => h, [], by simp, by simp⟩
    have cb := reset.trans (callback_follows (f := .onWritable) (s := some s)
      ⟨by simp, fun o => Call.safe_live (hO o)⟩)
    dsimp only
    split
    · rename_i d₁ heq
      exact cb.of_eq (congrArg Prod.fst heq)
    · rename_i d₁ y heq
      have cl := (cb.of_eq (congrArg Prod.fst heq)).trans
        (isClosed_follows (d := d₁) (s := some y) ⟨by simp, fun _ => .inl rfl⟩)
      split
      · rename_i d₂ heq₂
        exact cl.of_eq (congrArg Prod.fst heq₂)
      · rename_i d₂ heq₂
        obtain ⟨same, live⟩ := isClosed_false heq₂
        have cl₂ := cl.of_eq (congrArg Prod.fst heq₂)
        have readable := pollChange_follows (P := fun c => c.fn ≠ .recv ∧ (O → c.Safe)) (d := d₂)
          (s := some y) (m := Events.onlyReadable)
          (fun _ h => h) ⟨by simp, fun _ => Call.safe_live (by rw [same]; exact live)⟩
        split
        · have sd := cl₂.trans (isShutDown_follows (d := d₂) (s := some y)
            ⟨by simp, fun _ => Call.safe_live (by rw [same]; exact live)⟩)
          split
          · rename_i d₃ heq₃
            have same₃ : d₃.loop = d₁.loop := (congrArg (·.1.loop) heq₃).symm.trans same
            exact (sd.of_eq (congrArg Prod.fst heq₃)).trans (pollChange_follows (s := some y)
              (m := Events.onlyReadable) (fun _ h => h)
              ⟨by simp, fun _ => Call.safe_live (by rw [same₃]; exact live)⟩)
          · rename_i d₃ heq₃
            exact sd.of_eq (congrArg Prod.fst heq₃)
        · exact cl₂.trans readable
  · exact Follows.refl d

/-- Past the writable phase the dispatch goes on with an open socket: the one dispatched, or one
`on_writable` returned. -/
theorem writablePhase_next {s : Nat} {error : Int} {eof eof' : Bool} {events : Events}
    {x : Option Nat} (h : writablePhase d s error eof events = .next d' x eof') :
    eof' = eof ∧ ∃ y, x = some y ∧ (d.loop.closed s = false → d'.loop.closed y = false) ∧
      (y = s ∨ ∃ r ∈ d.replies .onWritable, r.ret = .other y) := by
  unfold writablePhase at h
  split at h
  · dsimp only at h
    have ret := callback_returns (d := { d with loop := { d.loop with lastWriteFailed := false } })
      (f := .onWritable) s
    split at h
    · cases h
    · rename_i d₁ y heq
      rw [heq] at ret
      have hy : y = s ∨ ∃ r ∈ d.replies .onWritable, r.ret = .other y := by
        rcases ret with e | e | ⟨r, hr, z, hz, e⟩
        · exact .inl (Option.some_inj.mp e)
        · cases e
        · exact .inr ⟨r, hr, (Option.some_inj.mp e) ▸ hz⟩
      split at h
      · cases h
      · rename_i d₂ heq₂
        obtain ⟨same, closed⟩ := isClosed_false heq₂
        split at h
        · split at h <;>
          · rename_i d₃ heq₃
            have same₃ : d₃.loop = d₁.loop := (congrArg (·.1.loop) heq₃).symm.trans same
            injection h with h₁ h₂ h₃
            subst h₁ h₂ h₃
            exact ⟨rfl, y, rfl, fun _ => by simpa [pollChange_closed, same₃] using closed, hy⟩
        · injection h with h₁ h₂ h₃
          subst h₁ h₂ h₃
          exact ⟨rfl, y, rfl, fun _ => by rw [pollChange_closed, same]; exact closed, hy⟩
  · injection h with h₁ h₂ h₃
    subst h₁ h₂ h₃
    exact ⟨rfl, s, rfl, id, .inl rfl⟩

theorem receiveFd_follows (d : Dispatch) (s : Nat) (r : Recv) (O : Prop)
    (hO : O → d.loop.closed s = false) :
    Follows (fun c => O → c.Safe) d (receiveFd d s r).1 := by
  unfold receiveFd
  split
  · exact (callback_follows fun o => Call.safe_live (hO o)).trans
      (isClosed_follows fun _ => .inl rfl)
  · exact Follows.refl d

theorem receiveFd_open {s : Nat} {r : Recv} (h : d.loop.closed s = false)
    (go : (receiveFd d s r).2.2 = false) :
    ∃ y, (receiveFd d s r).2.1 = some y ∧ (receiveFd d s r).1.loop.closed y = false := by
  unfold receiveFd at go ⊢
  split
  · rename_i hc
    rw [if_pos hc] at go
    dsimp only at go ⊢
    cases hy : (d.callback .onFd (some s)).2 with
    | none => simp [isClosed, hy] at go
    | some y => exact ⟨y, rfl, by simpa [isClosed, hy] using go⟩
  · exact ⟨s, rfl, h⟩

theorem recvLoop_follows (R error : Int) (O : Prop) : ∀ (recvs : List Recv) (d : Dispatch)
    (s count : Nat) (eof : Bool), (O → d.loop.closed s = false) →
    Follows (fun c => O → c.Safe) d (recvLoop R error recvs d s count eof).dispatch
  | [], d, s, _, eof, hO => record_follows fun o => Call.safe_live (hO o)
  | r :: rs, d, s, count, eof, hO => by
    have fd := (record_follows (d := d) (f := .recv) (s := some s)
      fun o => Call.safe_live (hO o)).trans (receiveFd_follows _ s r O hO)
    have live := fun o => receiveFd_open (d := d.record .recv (some s)) (r := r) (hO o)
    simp only [recvLoop]
    split
    · rename_i d₁ s₁ heq
      exact fd.of_eq (congrArg Prod.fst heq)
    · rename_i d₁ s₁ heq
      rw [heq] at live
      have f₁ := fd.of_eq (congrArg Prod.fst heq)
      by_cases len : 0 < r.length
      · rw [if_pos len]
        have data := callback_follows (P := fun c => O → c.Safe) (d := d₁) (f := .onData)
          (s := s₁) fun o => by
            obtain ⟨y, rfl, hy⟩ := live o rfl
            exact Call.safe_live hy
        split
        · rename_i d₂ heq₂
          exact f₁.trans (data.of_eq (congrArg Prod.fst heq₂))
        · rename_i d₂ x heq₂
          have f₂ := f₁.trans (data.of_eq (congrArg Prod.fst heq₂))
          split
          · split
            · rename_i d₃ heq₃
              exact f₂.trans ((isClosed_follows fun _ => .inl rfl).of_eq (congrArg Prod.fst heq₃))
            · rename_i d₃ heq₃
              obtain ⟨same, open₃⟩ := isClosed_false heq₃
              have f₃ := f₂.trans
                ((isClosed_follows fun _ => .inl rfl).of_eq (congrArg Prod.fst heq₃))
              generalize count + (if error = 0 then 1 else 0) = count'
              split
              · exact f₃
              · exact f₃.trans (recvLoop_follows R error O rs d₃ x _ eof
                  fun _ => by rw [same]; exact open₃)
          · exact f₂
      · rw [if_neg len]
        split
        · exact f₁
        · split
          · exact f₁.trans (close_follows fun _ => .inr (.inl rfl))
          · exact f₁

theorem eofPhase_follows (d : Dispatch) (s : Option Nat) (eof : Bool) :
    Follows Call.Safe d (eofPhase d s eof).dispatch := by
  unfold eofPhase
  split
  · rename_i x
    have closedCheck := isClosed_follows (P := Call.Safe) (d := d) (s := some x) (.inl rfl)
    split
    · rename_i d₁ heq
      exact closedCheck.of_eq (congrArg Prod.fst heq)
    · rename_i d₁ heq
      obtain ⟨same, live⟩ := isClosed_false heq
      have sd := (closedCheck.of_eq (congrArg Prod.fst heq)).trans
        (isShutDown_follows (d := d₁) (s := some x) (Call.safe_live (by rw [same]; exact live)))
      split
      · rename_i d₂ heq₂
        show Follows _ d (d₂.close (some x))
        exact (sd.of_eq (congrArg Prod.fst heq₂)).trans (close_follows (.inr (.inl rfl)))
      · rename_i d₂ heq₂
        have same₂ : d₂.loop = d.loop := (congrArg (·.1.loop) heq₂).symm.trans same
        have f₂ := sd.of_eq (congrArg Prod.fst heq₂)
        split
        · exact (f₂.trans (pollChange_follows (m := Events.onlyWritable)
            (fun _ h => by simp at h) (Call.safe_live (by rw [same₂]; exact live)))).trans
            (callback_follows (Call.safe_live (by rw [pollChange_closed, same₂]; exact live)))
        · exact (f₂.trans (callback_follows (Call.safe_live (by rw [same₂]; exact live)))).trans
            (close_follows (.inr (.inl rfl)))
  · exact Follows.refl d

theorem errorPhase_follows (d : Dispatch) (s : Option Nat) (error : Int) :
    Follows Call.Safe d (errorPhase d s error) := by
  unfold errorPhase
  split
  · split
    · exact close_follows (.inr (.inl rfl))
    · exact Follows.refl d
  · exact Follows.refl d

theorem finishDispatch_follows (p : Phase) (error : Int) :
    Follows Call.Safe p.dispatch (finishDispatch p error) := by
  unfold finishDispatch
  split
  · exact Follows.refl _
  · rename_i d s eof
    have e := eofPhase_follows d s eof
    split <;> rename_i heq <;> rw [heq] at e
    · exact e
    · exact e.trans (errorPhase_follows _ _ error)

/-- The readable phase and what follows it, seen from the heap its admission test leaves: a
dispatch that parks calls nothing after the test but the poll change; when `O` holds only with the
socket open, it uses no socket it has not found open. -/
theorem readablePhase_finish (env : Env) (d : Dispatch) (s : Nat) (error : Int) (eof : Bool)
    (O : Prop) (hO : O → d.loop.closed s = false) :
    Follows (fun c => ((admission d.loop s env.lowPrio).2 = .parked → c.fn ≠ .recv) ∧
        (O → c.Safe))
      { d with loop := (admission d.loop s env.lowPrio).1
               admitted := some (s, (admission d.loop s env.lowPrio).2) }
      (finishDispatch (readablePhase env d s error eof) error) := by
  have kept := admission_closed d.loop s env.lowPrio
  dsimp only [readablePhase, record_loop]
  split
  · rename_i loop heq
    rw [heq] at kept ⊢
    have hl : O → loop.closed s = false := fun o => by
      simp only at kept
      rw [kept]
      exact hO o
    refine ⟨.refl _, rfl, fun _ _ h => h, [⟨.isLowPrio, some s, d.loop.closed s⟩,
      ⟨.pollChange, some s, loop.closed s⟩], by simp [finishDispatch, record], fun c hc => ?_⟩
    simp only [List.mem_cons, List.not_mem_nil, or_false] at hc
    rcases hc with rfl | rfl
    · exact ⟨by simp, fun o => Call.safe_live (hO o)⟩
    · exact ⟨by simp, fun o => Call.safe_live (hl o)⟩
  · rename_i loop a notParked heq
    rw [heq] at kept ⊢
    have start : Follows (fun c => (a = .parked → c.fn ≠ .recv) ∧ (O → c.Safe))
        { d with loop := loop, admitted := some (s, a) }
        { d.record .isLowPrio (some s) with loop := loop, admitted := some (s, a) } :=
      ⟨.refl _, rfl, fun _ _ h => h, [⟨.isLowPrio, some s, d.loop.closed s⟩], rfl,
        by simpa [Call.Safe] using hO⟩
    have recv := recvLoop_follows env.recvBufferLength error O env.recvs
      { d.record .isLowPrio (some s) with loop := loop, admitted := some (s, a) } s 0 eof
      fun o => by
        simp only at kept
        show loop.closed s = false
        rw [kept]
        exact hO o
    exact (start.trans (recv.mono fun _ h => ⟨fun p => absurd p notParked, h⟩)).trans
      ((finishDispatch_follows _ error).mono fun _ h => ⟨fun p => absurd p notParked, fun _ => h⟩)

end Dispatch

open Dispatch

/-- The two ways a TCP dispatch of `s` turns the heap `st` into the one it ends with; either way,
a dispatch of an open socket makes only safe calls. -/
inductive Shape (env : Env) (st : Loop) (s : Nat) (readable : Bool) (d : Dispatch) : Prop
  | edits (admitted : d.admitted = none) (edits : DispatchEdits st d.loop)
      (safe : st.closed s = false → ∀ c ∈ d.calls, c.Safe)
  /-- Edits, the admission test of the socket `x` the writable phase left open, and edits; a
  dispatch that parks `x` receives nothing. -/
  | admits (x : Nat) (mid : Loop) (readable : readable = true) (before : DispatchEdits st mid)
      (open_ : st.closed s = false → mid.closed x = false)
      (socket : x = s ∨ ∃ r ∈ env.replies .onWritable, r.ret = .other x)
      (admitted : d.admitted = some (x, (admission mid x env.lowPrio).2))
      (after : DispatchEdits (admission mid x env.lowPrio).1 d.loop)
      (parked : (admission mid x env.lowPrio).2 = .parked → ∀ c ∈ d.calls, c.fn ≠ .recv)
      (safe : st.closed s = false → ∀ c ∈ d.calls, c.Safe)

theorem dispatchSocket_shape (env : Env) (st : Loop) (s : Nat) (error : Int) (eof : Bool)
    (events : Events) :
    Shape env st s events.readable (dispatchSocket env st s error eof events) := by
  have w := writablePhase_follows ⟨st, [], env.replies, none⟩ s error eof events
    (st.closed s = false) id
  have none_ : ∀ {Q : Call → Prop}, ∀ c ∈ (⟨st, [], env.replies, none⟩ : Dispatch).calls, Q c :=
    fun c hc => absurd hc (List.not_mem_nil c)
  unfold dispatchSocket
  dsimp only
  split
  · rename_i d heq
    rw [heq] at w
    exact .edits w.admitted w.edits fun o => w.all none_ fun _ h => h.2 o
  · rename_i d x eof' heq
    rw [heq] at w
    change Follows _ _ d at w
    obtain ⟨-, y, hy, open_, socket⟩ := writablePhase_next heq
    obtain rfl := Option.some_inj.mp hy
    split
    · rename_i readable
      have f := readablePhase_finish env d x error eof' (st.closed s = false) open_
      exact .admits x d.loop readable w.edits open_ socket f.admitted f.edits
        (fun hp => f.all (w.all none_ fun _ h => h.1) fun _ h => h.1 hp)
        (fun o => f.all (w.all none_ fun _ h => h.2 o) fun _ h => h.2 o)
    · have f := finishDispatch_follows (.next d (some x) eof') error
      exact .edits (f.admitted.trans w.admitted) (w.edits.trans f.edits)
        fun o => f.all (w.all none_ fun _ h => h.2 o) fun _ h => h
  · rename_i d eof' heq
    rw [heq] at w
    have f := finishDispatch_follows (.next d none eof') error
    exact .edits (f.admitted.trans w.admitted) (w.edits.trans f.edits)
      fun o => f.all (w.all none_ fun _ h => h.2 o) fun _ h => h

/-- A dispatch of an open socket calls the user's callbacks, receives, tests for shut-down and
changes polls only on live sockets: only `us_socket_is_closed` and `us_socket_close` may get a
closed socket or NULL. -/
theorem dispatchSocket_calls_safe (env : Env) (st : Loop) (s : Nat) (error : Int) (eof : Bool)
    (events : Events) (open_ : st.closed s = false) :
    ∀ c ∈ (dispatchSocket env st s error eof events).calls, c.Safe := by
  cases dispatchSocket_shape env st s error eof events with
  | edits _ _ safe => exact safe open_
  | admits _ _ _ _ _ _ _ _ _ safe => exact safe open_

/-- Socket 1 at end of file, with an `on_end` that returns NULL: the NULL reaches only
`us_socket_close`. -/
theorem dispatchSocket_calls_safe_nullEnd :
    (Loop.init.linkSocket 0 1).closed 1 = false ∧
      ∀ c ∈ (dispatchSocket ⟨524288, [], fun f => if f = .onEnd then [⟨[], false, .null⟩] else [],
        false⟩ (Loop.init.linkSocket 0 1) 1 0 true ⟨false, false⟩).calls, c.Safe :=
  ⟨rfl, dispatchSocket_calls_safe _ _ 1 0 true _ rfl⟩

end BunLoop
