import BunLoop.Dispatch.Frame

/-!
# Where each open socket is

`Loop.Placed st L Q`: every open socket is either in the low-priority queue `Q`, parked, or in
its own context's list `L c`, and the lists hold nothing else. Each operation that moves a socket
between lists keeps it, with the lists it leaves given explicitly.
-/

namespace BunLoop

open Function

namespace Loop

variable {st : Loop} {L L' : Nat → List Nat} {Q : List Nat} {s x : Nat}

theorem Lists.congr {st' : Loop} (h : st.Lists L) (heads : st'.headSockets = st.headSockets)
    (agree : ∀ c, ∀ y ∈ L c, st'.sockets.next y = st.sockets.next y ∧
      st'.sockets.prev y = st.sockets.prev y) : st'.Lists L :=
  ⟨fun c => by rw [heads]; exact (h.holds c).congr (agree c), h.disjoint⟩

theorem Lists.same {st' : Loop} (h : st.Lists L) (sockets : st'.sockets = st.sockets)
    (heads : st'.headSockets = st.headSockets) : st'.Lists L :=
  h.congr heads fun _ _ _ => by rw [sockets]; exact ⟨rfl, rfl⟩

theorem Lists.head_mem (h : st.Lists L) {c n : Nat} (hn : st.headSockets c = some n) : n ∈ L c :=
  (h.holds c).head_mem hn

theorem Lists.mem_erase (h : st.Lists L) {c : Nat} (inL : s ∈ L c) (c' y : Nat) :
    y ∈ update L c ((L c).erase s) c' ↔ y ≠ s ∧ y ∈ L c' := by
  by_cases e : c' = c
  · subst e
    rw [update_same]
    exact (h.holds c').nodup.mem_erase_iff
  · rw [update_noteq e]
    exact ⟨fun hy => ⟨fun ys => h.disjoint _ _ e y hy (ys ▸ inL), hy⟩, And.right⟩

theorem mem_update_cons {c c' y : Nat} :
    y ∈ update L c (x :: L c) c' ↔ (c' = c ∧ y = x) ∨ y ∈ L c' := by
  by_cases e : c' = c
  · subst e; simp
  · simp [update_noteq e, e]

/-- Every open socket is in the queue `Q` or in its own context's list, and these lists hold
only open sockets, each where its `low_prio_state` says. -/
structure Placed (st : Loop) (L : Nat → List Nat) (Q : List Nat) : Prop where
  lists : st.Lists L
  queue : st.sockets.Holds st.lowPrioHead Q
  apart : ∀ c, ∀ y ∈ Q, y ∉ L c
  /-- A socket of a context's list is open, of that context, and not parked. -/
  listed : ∀ c, ∀ y ∈ L c, st.closed y = false ∧ st.context y = c ∧ st.lowPrioState y ≠ 1
  /-- A socket of the queue is open, parked, and not polled for readable. -/
  queued : ∀ y ∈ Q, st.closed y = false ∧ st.lowPrioState y = 1 ∧ (st.events y).readable = false
  covered : ∀ y, st.closed y = false → y ∈ Q ∨ y ∈ L (st.context y)

namespace Placed

theorem listed_of (h : st.Placed L Q) (open_ : st.closed s = false)
    (state : st.lowPrioState s ≠ 1) : s ∉ Q ∧ s ∈ L (st.context s) := by
  have notQ : s ∉ Q := fun hs => state (h.queued s hs).2.1
  exact ⟨notQ, (h.covered s open_).resolve_left notQ⟩

theorem queued_of (h : st.Placed L Q) (open_ : st.closed s = false)
    (state : st.lowPrioState s = 1) : s ∈ Q :=
  (h.covered s open_).resolve_right fun hs => (h.listed _ s hs).2.2 state

theorem not_parked (h : st.Placed L Q) (open_ : st.closed s = false)
    (polled : (st.events s).readable = true) : st.lowPrioState s ≠ 1 := fun state => by
  rw [(h.queued s (h.queued_of open_ state)).2.2] at polled
  cases polled

theorem not_mem_of_closed (h : st.Placed L Q) (closed : st.closed s = true) :
    s ∉ Q ∧ ∀ c, s ∉ L c :=
  ⟨fun hs => by simp [(h.queued s hs).1] at closed,
    fun c hs => by simp [(h.listed c s hs).1] at closed⟩

/-! ## The edits of a dispatch -/

theorem pollChange (h : st.Placed L Q) (e : Events)
    (keeps : e.readable → (st.events s).readable) : (st.pollChange s e).Placed L Q where
  lists := h.lists.same rfl rfl
  queue := h.queue
  apart := h.apart
  listed := h.listed
  queued y hy := by
    refine ⟨(h.queued y hy).1, (h.queued y hy).2.1, ?_⟩
    by_cases e' : y = s
    · subst e'
      simpa [Loop.pollChange, (h.queued y hy).2.2] using keeps
    · simpa [Loop.pollChange, update_noteq e'] using (h.queued y hy).2.2
  covered := h.covered

theorem detach (h : st.Placed L Q) (st₁ : Loop) (lists : st₁.Lists L')
    (queue : st₁.sockets.Holds st₁.lowPrioHead Q') (memL : ∀ c y, y ∈ L' c ↔ y ≠ s ∧ y ∈ L c)
    (memQ : ∀ y, y ∈ Q' ↔ y ≠ s ∧ y ∈ Q) (closed : st₁.closed = st.closed)
    (context : st₁.context = st.context) (state : st₁.lowPrioState = st.lowPrioState)
    (events : st₁.events = st.events) :
    Placed { st₁ with
      events := update st₁.events s ⟨false, false⟩
      closed := update st₁.closed s true
      sockets := { st₁.sockets with next := update st₁.sockets.next s st₁.closedHead }
      closedHead := some s } L' Q' := by
  have keep : ∀ y, y ≠ s → (update st₁.sockets.next s st₁.closedHead) y = st₁.sockets.next y :=
    fun y e => update_noteq e _ _
  refine ⟨lists.congr rfl fun c y hy => ⟨keep y ((memL c y).mp hy).1, rfl⟩,
    queue.congr fun y hy => ⟨keep y ((memQ y).mp hy).1, rfl⟩, fun c y hy hy' =>
    h.apart c y ((memQ y).mp hy).2 ((memL c y).mp hy').2, fun c y hy => ?_, fun y hy => ?_,
    fun y hy => ?_⟩
  · obtain ⟨ne, hy⟩ := (memL c y).mp hy
    simpa [update_noteq ne, closed, context, state] using h.listed c y hy
  · obtain ⟨ne, hy⟩ := (memQ y).mp hy
    simpa [update_noteq ne, closed, state, events] using h.queued y hy
  · by_cases ne : y = s
    · subst ne; simp at hy
    · simp only [update_noteq ne, closed, context] at hy ⊢
      rcases h.covered y hy with hq | hl
      · exact .inl ((memQ y).mpr ⟨ne, hq⟩)
      · exact .inr ((memL _ y).mpr ⟨ne, hl⟩)

/-- `us_socket_close` takes the socket out of the list it is in: the queue when it is parked,
its context's list otherwise. -/
theorem socketClose (h : st.Placed L Q) (s : Nat) :
    ∃ L' Q', (st.socketClose s).Placed L' Q' ∧ Q'.Sublist Q := by
  unfold Loop.socketClose
  split_ifs with hc hs
  · exact ⟨L, Q, h, .refl Q⟩
  · have open_ : st.closed s = false := by simpa using hc
    have inQ := h.queued_of open_ hs
    have nd := h.queue.nodup
    refine ⟨L, Q.erase s, detach h _ ?_ (st.sockets.unlink_holds h.queue inQ) (fun c y => ?_)
      (fun y => nd.mem_erase_iff) rfl rfl rfl rfl, List.erase_sublist _ _⟩
    · exact h.lists.congr rfl fun c y hy => st.sockets.unlink_agree h.queue inQ
        (.inr fun hq => h.apart c y hq hy)
    · exact ⟨fun hy => ⟨fun e => h.apart c s inQ (e ▸ hy), hy⟩, And.right⟩
  · have open_ : st.closed s = false := by simpa using hc
    obtain ⟨notQ, inL⟩ := h.listed_of open_ hs
    refine ⟨update L (st.context s) ((L (st.context s)).erase s), Q,
      detach h _ (unlinkSocket_lists h.lists inL) ?_ (fun c y => ?_)
        (fun y => ⟨fun hy => ⟨fun e => notQ (e ▸ hy), hy⟩, And.right⟩) rfl rfl rfl rfl,
      .refl Q⟩
    · exact h.queue.congr fun y hy => st.sockets.unlink_agree (h.lists.holds _) inL
        (.inr (h.apart _ y hy))
    · exact h.lists.mem_erase inL c y

theorem edit (h : st.Placed L Q) {st' : Loop} (e : DispatchEdit st st') :
    ∃ L' Q', st'.Placed L' Q' ∧ Q'.Sublist Q := by
  cases e with
  | pollChange s e keeps => exact ⟨L, Q, h.pollChange e keeps, .refl Q⟩
  | close s => exact h.socketClose s
  | lastWriteFailed b =>
    exact ⟨L, Q, ⟨h.lists.same rfl rfl, h.queue, h.apart, h.listed, h.queued, h.covered⟩,
      .refl Q⟩

theorem edits (h : st.Placed L Q) {st' : Loop} (e : DispatchEdits st st') :
    ∃ L' Q', st'.Placed L' Q' ∧ Q'.Sublist Q := by
  induction e with
  | refl => exact ⟨L, Q, h, .refl Q⟩
  | tail _ e ih =>
    obtain ⟨L₁, Q₁, h₁, sub₁⟩ := ih
    obtain ⟨L₂, Q₂, h₂, sub₂⟩ := h₁.edit e
    exact ⟨L₂, Q₂, h₂, sub₂.trans sub₁⟩

/-! ## The admission test -/

theorem park (h : st.Placed L Q) (open_ : st.closed s = false) (state : st.lowPrioState s ≠ 1) :
    (st.park s).Placed (update L (st.context s) ((L (st.context s)).erase s)) (s :: Q) := by
  obtain ⟨notQ, inL⟩ := h.listed_of open_ state
  have memL := h.lists.mem_erase inL
  have lists₁ : (((st.pollChange s (st.events s).onlyWritable).contextRef
      (st.context s)).unlinkSocket (st.context s) s).Lists
      (update L (st.context s) ((L (st.context s)).erase s)) :=
    unlinkSocket_lists (h.lists.same rfl rfl) inL
  have queue₁ : (st.sockets.unlink (st.headSockets (st.context s)) s).1.Holds st.lowPrioHead Q :=
    h.queue.congr fun y hy => st.sockets.unlink_agree (h.lists.holds _) inL
      (.inr (h.apart _ y hy))
  refine ⟨lists₁.congr rfl fun c y hy => Links.pushFront_agree ((memL c y).mp hy).1
      fun n hn e => h.apart c n (h.queue.head_mem hn) (e ▸ ((memL c y).mp hy).2),
    Links.pushFront_holds queue₁ notQ, fun c y hy hy' => ?_, fun c y hy => ?_, fun y hy => ?_,
    fun y hy => ?_⟩
  · rcases List.mem_cons.mp hy with rfl | hy
    · exact ((memL c y).mp hy').1 rfl
    · exact h.apart c y hy ((memL c y).mp hy').2
  · obtain ⟨ne, hy⟩ := (memL c y).mp hy
    obtain ⟨closed, context, state⟩ := h.listed c y hy
    exact ⟨closed, context, by rwa [park_lowPrioState_eq, update_noteq ne]⟩
  · rcases List.mem_cons.mp hy with rfl | hy
    · simp [park_lowPrioState_eq, park_events, open_]
    · have ne : y ≠ s := fun e => notQ (e ▸ hy)
      simpa [park_lowPrioState_eq, park_events, update_noteq ne] using h.queued y hy
  · by_cases ne : y = s
    · exact .inl (ne ▸ List.mem_cons_self _ _)
    · rcases h.covered y (by simpa using hy) with hq | hl
      · exact .inl (List.mem_cons_of_mem _ hq)
      · exact .inr ((memL _ y).mpr ⟨ne, by simpa using hl⟩)

theorem setLowPrioState (h : st.Placed L Q) (notQ : s ∉ Q) {v : Nat} (hv : v ≠ 1) :
    (st.setLowPrioState s v).Placed L Q where
  lists := h.lists.same rfl rfl
  queue := h.queue
  apart := h.apart
  listed c y hy := by
    obtain ⟨closed, context, state⟩ := h.listed c y hy
    refine ⟨closed, context, ?_⟩
    by_cases e : y = s
    · subst e; simpa [Loop.setLowPrioState] using hv
    · simpa [Loop.setLowPrioState, update_noteq e] using state
  queued y hy := by
    have ne : y ≠ s := fun e => notQ (e ▸ hy)
    simpa [Loop.setLowPrioState, update_noteq ne] using h.queued y hy
  covered := h.covered

theorem admissionTest (h : st.Placed L Q) (open_ : st.closed s = false)
    (state : st.lowPrioState s ≠ 1) (lowPrio : Bool) : ∃ L', (admission st s lowPrio).1.Placed L'
      (if (admission st s lowPrio).2 = .parked then s :: Q else Q) := by
  have notQ := (h.listed_of open_ state).1
  rcases admission_cases st s lowPrio with ⟨-, -, e⟩ | ⟨-, -, e⟩ | ⟨-, -, e⟩ | e <;> rw [e]
  · exact ⟨L, h.setLowPrioState notQ (by decide)⟩
  · exact ⟨L, ⟨h.lists.same rfl rfl, h.queue, h.apart, h.listed, h.queued, h.covered⟩⟩
  · exact ⟨_, h.park open_ state⟩
  · exact ⟨L, h⟩

/-! ## A new socket and the promotions -/

theorem acceptSocket (h : st.Placed L Q) (fresh : st.closed s = true) (c : Nat)
    (halfOpen : Bool) : (st.acceptSocket c halfOpen s).Placed (update L c (s :: L c)) Q := by
  obtain ⟨notQ, notL⟩ := h.not_mem_of_closed fresh
  have lists₁ : (st.acceptSocket c halfOpen s).Lists (update L c (s :: L c)) :=
    linkSocket_lists (h.lists.same rfl rfl) notL
  have ne : ∀ y ∈ Q, y ≠ s := fun y hy e => notQ (e ▸ hy)
  refine ⟨lists₁, h.queue.congr fun y hy => Links.pushFront_agree (ne y hy)
      fun n hn e => h.apart c y hy (e ▸ h.lists.head_mem hn), fun c' y hy hy' => ?_,
    fun c' y hy => ?_, fun y hy => ?_, fun y hy => ?_⟩
  · rcases mem_update_cons.mp hy' with ⟨-, rfl⟩ | hy'
    · exact ne y hy rfl
    · exact h.apart c' y hy hy'
  · rw [acceptSocket_closed, acceptSocket_context, acceptSocket_lowPrioState]
    rcases mem_update_cons.mp hy with ⟨rfl, rfl⟩ | hy
    · simp
    · have ne' : y ≠ s := fun e => notL c' (e ▸ hy)
      simpa [update_noteq ne'] using h.listed c' y hy
  · rw [acceptSocket_closed, acceptSocket_lowPrioState, acceptSocket_events]
    simpa [update_noteq (ne y hy)] using h.queued y hy
  · rw [acceptSocket_context]
    by_cases e : y = s
    · subst e
      rw [update_same]
      exact .inr (mem_update_cons.mpr (.inl ⟨rfl, rfl⟩))
    · rw [acceptSocket_closed, update_noteq e] at hy
      rw [update_noteq e]
      rcases h.covered y hy with hq | hl
      · exact .inl hq
      · exact .inr (mem_update_cons.mpr (.inr hl))

theorem promoteOne (h : st.Placed L Q) (head : st.lowPrioHead = some x) :
    ∃ Q₀, Q = x :: Q₀ ∧
      (st.promoteOne x).Placed (update L (st.context x) (x :: L (st.context x))) Q₀ := by
  obtain ⟨Q₀, rfl⟩ : ∃ Q₀, Q = x :: Q₀ := by
    have := h.queue.head_eq
    rw [head] at this
    cases Q with
    | nil => cases this
    | cons y Q₀ => exact ⟨Q₀, by rw [Option.some_inj.mp this]⟩
  have held : st.sockets.Holds (some x) (x :: Q₀) := head ▸ h.queue
  have nd := List.nodup_cons.mp held.nodup
  have notL : ∀ c, x ∉ L c := fun c => h.apart c x (List.mem_cons_self _ _)
  have lists₁ : Loop.Lists
      ({ st with sockets := (st.sockets.popFront x).1, lowPrioHead := (st.sockets.popFront x).2 }
        |>.linkSocket (st.context x) x) (update L (st.context x) (x :: L (st.context x))) :=
    linkSocket_lists
    (h.lists.congr rfl fun c y hy => Links.popFront_agree held
      fun hy' => h.apart c y hy' hy) notL
  have ne : ∀ y ∈ Q₀, y ≠ x := fun y hy e => nd.1 (e ▸ hy)
  have fields : ∀ y, y ≠ x → (st.promoteOne x).closed y = st.closed y ∧
      (st.promoteOne x).context y = st.context y ∧
      (st.promoteOne x).lowPrioState y = st.lowPrioState y ∧
      (st.promoteOne x).events y = st.events y := fun y e => by
    simp [promoteOne_context_eq, promoteOne_lowPrioState_eq, promoteOne_events, update_noteq e]
  refine ⟨Q₀, rfl, lists₁.same rfl rfl, (Links.popFront_holds held).congr fun y hy =>
      Links.pushFront_agree (ne y hy) fun n hn e => h.apart _ y (List.mem_cons_of_mem _ hy)
        (e ▸ h.lists.head_mem hn), fun c y hy hy' => ?_, fun c y hy => ?_, fun y hy => ?_,
    fun y hy => ?_⟩
  · rcases mem_update_cons.mp hy' with ⟨-, rfl⟩ | hy'
    · exact ne y hy rfl
    · exact h.apart c y (List.mem_cons_of_mem _ hy) hy'
  · rcases mem_update_cons.mp hy with ⟨rfl, rfl⟩ | hy
    · simp [promoteOne_context_eq, promoteOne_lowPrioState,
        (h.queued _ (List.mem_cons_self _ _)).1]
    · obtain ⟨c₁, c₂, c₃, -⟩ := fields y fun e => notL c (e ▸ hy)
      rw [c₁, c₂, c₃]
      exact h.listed c y hy
  · obtain ⟨c₁, -, c₃, c₄⟩ := fields y (ne y hy)
    rw [c₁, c₃, c₄]
    exact h.queued y (List.mem_cons_of_mem _ hy)
  · rw [promoteOne_context_eq]
    by_cases e : y = x
    · subst e; exact .inr (mem_update_cons.mpr (.inl ⟨rfl, rfl⟩))
    · rw [(fields y e).1] at hy
      rcases h.covered y hy with hq | hl
      · exact .inl ((List.mem_cons.mp hq).resolve_left e)
      · exact .inr (mem_update_cons.mpr (.inr hl))

theorem promoteLoop_take : ∀ (n : Nat) (st : Loop) (L : Nat → List Nat) (Q : List Nat),
    st.Placed L Q → (st.promoteLoop n).2 = Q.take (min n st.lowPrioBudget.toNat) ∧
      ∃ L', (st.promoteLoop n).1.Placed L' (Q.drop (min n st.lowPrioBudget.toNat)) := by
  intro n
  induction n with
  | zero => exact fun st L Q h => by rw [Nat.zero_min]; exact ⟨rfl, L, h⟩
  | succ n ih =>
    intro st L Q h
    by_cases pos : 0 < st.lowPrioBudget
    · cases hh : st.lowPrioHead with
      | none =>
        obtain rfl : Q = [] := by simpa [hh] using h.queue.head_eq.symm
        rw [Loop.promoteLoop_of_none hh]
        exact ⟨List.take_nil.symm, L, by rw [List.drop_nil]; exact h⟩
      | some x =>
        obtain ⟨Q₀, rfl, h₁⟩ := h.promoteOne hh
        obtain ⟨taken, L', h'⟩ := ih _ _ Q₀ h₁
        have count : min (n + 1) st.lowPrioBudget.toNat =
            min n (st.promoteOne x).lowPrioBudget.toNat + 1 := by
          rw [promoteOne_lowPrioBudget]
          omega
        rw [Loop.promoteLoop_of_some hh pos, count, List.take_succ_cons, List.drop_succ_cons]
        exact ⟨by rw [taken], L', h'⟩
    · rw [Loop.promoteLoop_of_not_pos pos, show min (n + 1) st.lowPrioBudget.toNat = 0 by omega]
      exact ⟨rfl, L, h⟩

/-- `us_internal_handle_low_priority_sockets` promotes exactly the first
`MAX_LOW_PRIO_SOCKETS_PER_LOOP_ITERATION` sockets of the queue, the latest parked first, or all of
them when fewer are queued. -/
theorem handleLowPrioritySockets_take (h : st.Placed L Q) :
    st.handleLowPrioritySockets.2 = Q.take 5 ∧
      ∃ L', st.handleLowPrioritySockets.1.Placed L' (Q.drop 5) :=
  promoteLoop_take 5 _ L Q ⟨h.lists.same rfl rfl, h.queue, h.apart, h.listed, h.queued, h.covered⟩

theorem handleLowPrioritySockets (h : st.Placed L Q) :
    ∃ L' Q', st.handleLowPrioritySockets.1.Placed L' Q' ∧ st.handleLowPrioritySockets.2 ++ Q' = Q :=
  have ⟨taken, L', h'⟩ := handleLowPrioritySockets_take h
  ⟨L', Q.drop 5, h', by rw [taken, List.take_append_drop]⟩

end Placed

end Loop

end BunLoop
