import BunLoop.Dispatch.Receive

/-!
# A dispatch closes its socket last

Every `us_socket_close` of the TCP branch is followed by a `return`, so a dispatch calls it at
most once, and as its last call (`dispatchSocket_closes_last`). The callbacks' closes are theirs.
-/

namespace BunLoop

namespace Dispatch

variable {d d' d'' : Dispatch} {f : Fn} {s : Option Nat}

/-- `d'`'s trace is `d`'s followed by calls none of which is `us_socket_close`. -/
def CloseFree (d d' : Dispatch) : Prop := ∃ l, d'.calls = d.calls ++ l ∧ ∀ c ∈ l, c.fn ≠ .close

theorem CloseFree.refl (d : Dispatch) : CloseFree d d := ⟨[], by simp, by simp⟩

theorem CloseFree.trans (h : CloseFree d d') (h' : CloseFree d' d'') : CloseFree d d'' := by
  obtain ⟨l, hl, hc⟩ := h
  obtain ⟨l', hl', hc'⟩ := h'
  refine ⟨l ++ l', by rw [hl', hl, List.append_assoc], fun c hm => ?_⟩
  rcases List.mem_append.mp hm with hm | hm
  exacts [hc c hm, hc' c hm]

theorem CloseFree.of_calls (h : d'.calls = d.calls) : CloseFree d d' := ⟨[], by simp [h], by simp⟩

theorem CloseFree.of_pair {β : Type} {p : Dispatch × β} {x : β} (h : CloseFree d p.1)
    (e : p = (d', x)) : CloseFree d d' := by
  subst e
  exact h

theorem CloseFree.of_calls' (h : CloseFree d d') (e : d''.calls = d'.calls) : CloseFree d d'' :=
  let ⟨l, hl, hc⟩ := h
  ⟨l, e.trans hl, hc⟩

theorem record_closeFree (hf : f ≠ .close) : CloseFree d (d.record f s) :=
  ⟨_, rfl, by simp [hf]⟩

theorem callback_closeFree (hf : f ≠ .close) : CloseFree d (d.callback f s).1 :=
  (record_closeFree hf).of_calls' callback_calls

theorem pollChange_calls (m : Events → Events) :
    (d.pollChange s m).calls = (d.record .pollChange s).calls := by
  cases s <;> rfl

theorem pollChange_closeFree (m : Events → Events) : CloseFree d (d.pollChange s m) :=
  (record_closeFree (f := .pollChange) nofun).of_calls' (pollChange_calls m)

/-- How a phase ends as far as closes go: going on without having closed, or returning with at
most one close, made last. -/
def Phase.ClosesLast (d : Dispatch) : Phase → Prop
  | .next d' _ _ => CloseFree d d'
  | .done d' => CloseFree d d' ∨ ∃ d₁ s, CloseFree d d₁ ∧ d' = d₁.close s

theorem Phase.ClosesLast.pre {p : Phase} (h : CloseFree d d') (hp : Phase.ClosesLast d' p) :
    Phase.ClosesLast d p := by
  cases p with
  | next d'' _ _ => exact h.trans hp
  | done d'' =>
    rcases hp with hp | ⟨d₁, s, h₁, rfl⟩
    exacts [.inl (h.trans hp), .inr ⟨d₁, s, h.trans h₁, rfl⟩]

/-! ## The phases -/

theorem writablePhase_closeFree (d : Dispatch) (s : Nat) (error : Int) (eof : Bool)
    (events : Events) : CloseFree d (writablePhase d s error eof events).dispatch := by
  unfold writablePhase
  split
  · have reset : CloseFree d { d with loop := { d.loop with lastWriteFailed := false } } :=
      .of_calls rfl
    have cb := reset.trans (callback_closeFree (f := .onWritable) (s := some s) nofun)
    dsimp only
    split
    · rename_i d₁ heq
      exact cb.of_pair heq
    · rename_i d₁ y heq
      have cl := (cb.of_pair heq).trans
        (record_closeFree (d := d₁) (f := .isClosed) (s := some y) nofun)
      split
      · rename_i d₂ heq₂
        exact cl.of_pair heq₂
      · rename_i d₂ heq₂
        have cl₂ := cl.of_pair heq₂
        split
        · have sd := cl₂.trans (record_closeFree (d := d₂) (f := .isShutDown) (s := some y) nofun)
          split
          · rename_i d₃ heq₃
            exact (sd.of_pair heq₃).trans
              (pollChange_closeFree (s := some y) Events.onlyReadable)
          · rename_i d₃ heq₃
            exact sd.of_pair heq₃
        · exact cl₂.trans (pollChange_closeFree (s := some y) Events.onlyReadable)
  · exact CloseFree.refl d

theorem receiveFd_closeFree (d : Dispatch) (s : Nat) (r : Recv) :
    CloseFree d (receiveFd d s r).1 := by
  unfold receiveFd
  split
  · exact (callback_closeFree (f := .onFd) (s := some s) nofun).trans
      (record_closeFree (f := .isClosed) nofun)
  · exact CloseFree.refl d

theorem recvLoop_closesLast (R error : Int) (recvs : List Recv) :
    ∀ (d : Dispatch) (s count : Nat) (eof : Bool),
      Phase.ClosesLast d (recvLoop R error recvs d s count eof) := by
  induction recvs with
  | nil => exact fun d s _ eof => record_closeFree (d := d) (s := some s) nofun
  | cons r rs ih =>
    intro d s count eof
    have fd := (record_closeFree (d := d) (f := .recv) (s := some s) nofun).trans
      (receiveFd_closeFree _ s r)
    simp only [recvLoop]
    split
    · rename_i d₁ s₁ heq
      exact fd.of_pair heq
    · rename_i d₁ s₁ heq
      have f₁ := fd.of_pair heq
      by_cases len : 0 < r.length
      · rw [if_pos len]
        have data := f₁.trans (callback_closeFree (d := d₁) (f := .onData) (s := s₁) nofun)
        split
        · rename_i d₂ heq₂
          exact data.of_pair heq₂
        · rename_i d₂ x heq₂
          have f₂ := data.of_pair heq₂
          split
          · have f₃ := f₂.trans (record_closeFree (d := d₂) (f := .isClosed) (s := some x) nofun)
            split
            · rename_i d₃ heq₃
              exact f₃.of_pair heq₃
            · rename_i d₃ heq₃
              have f₄ := f₃.of_pair heq₃
              generalize count + (if error = 0 then 1 else 0) = count'
              split
              · exact f₄
              · exact Phase.ClosesLast.pre f₄ (ih _ _ _ _)
          · exact f₂
      · rw [if_neg len]
        split
        · exact f₁
        · split
          · exact .inr ⟨d₁, s₁, f₁, rfl⟩
          · exact f₁

theorem readablePhase_closesLast (env : Env) (d : Dispatch) (s : Nat) (error : Int) (eof : Bool) :
    Phase.ClosesLast d (readablePhase env d s error eof) := by
  have low := record_closeFree (d := d) (f := .isLowPrio) (s := some s) nofun
  dsimp only [readablePhase]
  split
  · exact .inl (low.trans ((CloseFree.of_calls rfl).trans (record_closeFree nofun)))
  · exact Phase.ClosesLast.pre (low.trans (CloseFree.of_calls rfl))
      (recvLoop_closesLast _ _ _ _ _ _ _)

theorem eofPhase_closesLast (d : Dispatch) (s : Option Nat) (eof : Bool) :
    Phase.ClosesLast d (eofPhase d s eof) := by
  unfold eofPhase
  split
  · rename_i x
    have cl := record_closeFree (d := d) (f := .isClosed) (s := some x) nofun
    split
    · rename_i d₁ heq
      exact .inl (cl.of_pair heq)
    · rename_i d₁ heq
      have sd := (cl.of_pair heq).trans
        (record_closeFree (d := d₁) (f := .isShutDown) (s := some x) nofun)
      split
      · rename_i d₂ heq₂
        exact .inr ⟨d₂, some x, sd.of_pair heq₂, rfl⟩
      · rename_i d₂ heq₂
        have f₂ := sd.of_pair heq₂
        split
        · exact (f₂.trans (pollChange_closeFree _)).trans (callback_closeFree nofun)
        · split
          rename_i d₃ s₃ heq₃
          exact .inr ⟨d₃, s₃, (f₂.trans (callback_closeFree (f := .onEnd) nofun)).of_pair heq₃, rfl⟩
  · exact CloseFree.refl d

theorem finishDispatch_closesLast (p : Phase) (error : Int) (hp : Phase.ClosesLast d p) :
    CloseFree d (finishDispatch p error) ∨
      ∃ d₁ s, CloseFree d d₁ ∧ finishDispatch p error = d₁.close s := by
  cases p with
  | done d' => exact hp
  | next d' s eof =>
    have e := Phase.ClosesLast.pre hp (eofPhase_closesLast d' s eof)
    unfold finishDispatch
    dsimp only
    split
    · rename_i heq
      rw [heq] at e
      exact e
    · rename_i d₁ s₁ eof₁ heq
      rw [heq] at e
      unfold errorPhase
      split
      · split
        · exact .inr ⟨d₁, _, e, rfl⟩
        · exact .inl e
      · exact .inl e

end Dispatch

open Dispatch

/-- Whatever the receives return and whatever the callbacks do or hand back, a dispatch of a TCP
socket by `us_internal_dispatch_ready_poll` calls `us_socket_close` at most once, and as its last
call: its trace is a run of calls with no close, possibly followed by one close. -/
theorem dispatchSocket_closes_last (env : Env) (st : Loop) (s : Nat) (error : Int) (eof : Bool)
    (events : Events) :
    ∃ pre : List Call, (∀ c ∈ pre, c.fn ≠ .close) ∧
      ((dispatchSocket env st s error eof events).calls = pre ∨
        ∃ c, c.fn = .close ∧ (dispatchSocket env st s error eof events).calls = pre ++ [c]) := by
  have ends : CloseFree ⟨st, [], env.replies, none⟩ (dispatchSocket env st s error eof events) ∨
      ∃ d₁ s₁, CloseFree ⟨st, [], env.replies, none⟩ d₁ ∧
        dispatchSocket env st s error eof events = d₁.close s₁ := by
    have w := writablePhase_closeFree ⟨st, [], env.replies, none⟩ s error eof events
    unfold dispatchSocket
    dsimp only
    apply finishDispatch_closesLast
    split
    · rename_i d heq
      rw [heq] at w
      exact .inl w
    · rename_i d x eof' heq
      rw [heq] at w
      split
      · exact Phase.ClosesLast.pre w (readablePhase_closesLast env d x error eof')
      · exact w
    · rename_i d eof' heq
      rw [heq] at w
      exact w
  rcases ends with ⟨l, hl, hc⟩ | ⟨d₁, s₁, ⟨l, hl, hc⟩, e⟩
  · exact ⟨l, hc, .inl hl⟩
  · refine ⟨l, hc, .inr ⟨⟨.close, s₁, s₁.elim false d₁.loop.closed⟩, rfl, ?_⟩⟩
    rw [e, close_calls]
    exact congrArg (· ++ _) hl

/-- An end of file on a socket that does not allow half-open: `on_end`, then the close, last. -/
example : (dispatchSocket ⟨524288, [], fun _ => [], false⟩ (Loop.init.linkSocket 0 1) 1 0 true
    ⟨false, false⟩).calls.map (·.fn) = [.isClosed, .isShutDown, .onEnd, .close] := rfl

end BunLoop
