import BunLoop.Placement.Runs
import BunLoop.Sweep.Reentrancy

/-!
# The closed list and the post-hook

`Loop.ClosedList st live C`: the chain from `closed_head` is `C`, the closed sockets whose memory
is still allocated. Over the runs of `Tick Env.ReturnsUnparked`, where `on_writable` hands back
no other parked socket, the post-hook frees each closed socket once and never an open one
(`heapReachable_closed_list`), and the timer sweep fires only on open sockets of its context
(`heapReachable_sweep_fires_open`).
-/

namespace BunLoop

open Function Dispatch

/-! ## The post-hook's walk -/

/-- The walk of `us_internal_free_closed_sockets` from `s` along `next`: the sockets it hands to
`us_poll_free`, in order; `none` when `fuel` runs out first. -/
def freeWalk (next : Nat → Option Nat) : Nat → Option Nat → Option (List Nat)
  | _, none => some []
  | 0, some _ => none
  | fuel + 1, some s => (freeWalk next fuel (next s)).map (s :: ·)

/-- `us_internal_free_closed_sockets` on the TCP sockets: the sockets freed, in order, and the
loop with `closed_head` reset to NULL. -/
def Loop.freeClosedSockets (st : Loop) (fuel : Nat) : Option (Loop × List Nat) :=
  (freeWalk st.sockets.next fuel st.closedHead).map fun freed =>
    ({ st with closedHead := none }, freed)

section Walk

variable {next : Nat → Option Nat}

theorem freeWalk_path : ∀ (fuel : Nat) (p : Option Nat) (l : List Nat),
    freeWalk next fuel p = some l → Path next none p l
  | _, none, l, h => by
    simp only [freeWalk, Option.some_inj] at h
    exact h ▸ .nil
  | 0, some _, _, h => by simp [freeWalk] at h
  | n + 1, some s, _, h => by
    simp only [freeWalk, Option.map_eq_some'] at h
    obtain ⟨l', h', rfl⟩ := h
    exact .cons (freeWalk_path n _ _ h')

theorem freeWalk_of_path {p : Option Nat} {l : List Nat} (h : Path next none p l) :
    ∀ fuel, l.length ≤ fuel → freeWalk next fuel p = some l := by
  induction h with
  | nil => intro fuel _; cases fuel <;> rfl
  | cons _ ih =>
    intro fuel hl
    cases fuel with
    | zero => simp at hl
    | succ n => simp [freeWalk, ih n (by simpa using hl)]

end Walk

theorem Loop.freeClosedSockets_of_path {st : Loop} {C : List Nat}
    (h : Path st.sockets.next none st.closedHead C) :
    st.freeClosedSockets C.length = some ({ st with closedHead := none }, C) := by
  simp [Loop.freeClosedSockets, freeWalk_of_path h _ le_rfl]

example : ((Loop.oneSocket.socketClose 1).freeClosedSockets 1).map Prod.snd = some [1] := by
  decide

theorem Loop.freeClosedSockets_eq {st st' : Loop} {C freed : List Nat} {fuel : Nat}
    (h : Path st.sockets.next none st.closedHead C)
    (run : st.freeClosedSockets fuel = some (st', freed)) :
    st' = { st with closedHead := none } ∧ freed = C := by
  simp only [Loop.freeClosedSockets, Option.map_eq_some', Prod.mk.injEq] at run
  obtain ⟨l, walk, rfl, rfl⟩ := run
  exact ⟨rfl, (freeWalk_path _ _ _ walk).unique h⟩

/-! ## The closed list -/

/-- Following `next` from `closed_head` visits `C` and ends at NULL; `C` holds exactly the closed
sockets whose memory is allocated, and every open socket is allocated. -/
structure Loop.ClosedList (st : Loop) (live : Nat → Bool) (C : List Nat) : Prop where
  path : Path st.sockets.next none st.closedHead C
  mem : ∀ y, y ∈ C ↔ live y = true ∧ st.closed y = true
  live_of_open : ∀ y, st.closed y = false → live y = true

namespace Loop.ClosedList

variable {st st' : Loop} {live : Nat → Bool} {C : List Nat} {L : Nat → List Nat} {Q : List Nat}
  {s x : Nat}

theorem closed_of_mem (h : st.ClosedList live C) {y : Nat} (hy : y ∈ C) : st.closed y = true :=
  ((h.mem y).mp hy).2

theorem closed_of_dead (h : st.ClosedList live C) {y : Nat} (dead : live y = false) :
    st.closed y = true := by
  by_contra o
  simp [h.live_of_open y (by simpa using o)] at dead

theorem congr (h : st.ClosedList live C) (head : st'.closedHead = st.closedHead)
    (closed : st'.closed = st.closed)
    (agree : ∀ y, st.closed y = true → st'.sockets.next y = st.sockets.next y) :
    st'.ClosedList live C := by
  refine ⟨?_, closed ▸ h.mem, closed ▸ h.live_of_open⟩
  rw [head]
  exact h.path.congr fun y hy => agree y (h.closed_of_mem hy)

theorem detach (h : st.ClosedList live C) (open_ : st.closed s = false) (st₁ : Loop)
    (head : st₁.closedHead = st.closedHead) (closed : st₁.closed = st.closed)
    (agree : ∀ y, st.closed y = true → st₁.sockets.next y = st.sockets.next y) :
    ClosedList { st₁ with
      events := update st₁.events s ⟨false, false⟩
      closed := update st₁.closed s true
      sockets := { st₁.sockets with next := update st₁.sockets.next s st₁.closedHead }
      closedHead := some s } live (s :: C) := by
  have h₁ := h.congr head closed agree
  have ne : ∀ y ∈ C, y ≠ s := fun y hy e => by
    have := h₁.closed_of_mem hy
    rw [e, closed, open_] at this
    cases this
  refine ⟨.cons ?_, fun y => ?_, fun y hy => ?_⟩
  · dsimp only
    rw [update_same]
    exact h₁.path.congr fun y hy => update_noteq (ne y hy) _ _
  · by_cases e : y = s
    · subst e
      simp [h.live_of_open _ open_]
    · simp [update_noteq e, h₁.mem y, e]
  · by_cases e : y = s
    · subst e
      simp at hy
    · dsimp only at hy
      rw [update_noteq e] at hy
      exact h₁.live_of_open y hy

theorem socketClose (h : st.ClosedList live C) (p : st.Placed L Q) (s : Nat) :
    ∃ C', (st.socketClose s).ClosedList live C' := by
  unfold Loop.socketClose
  split_ifs with hc hs
  · exact ⟨C, h⟩
  · have open_ : st.closed s = false := by simpa using hc
    exact ⟨s :: C, h.detach open_ _ rfl rfl fun y hy =>
      (st.sockets.unlink_agree p.queue (p.queued_of open_ hs)
        (.inr (p.not_mem_of_closed hy).1)).1⟩
  · have open_ : st.closed s = false := by simpa using hc
    exact ⟨s :: C, h.detach open_ _ rfl rfl fun y hy =>
      (st.sockets.unlink_agree (p.lists.holds _) (p.listed_of open_ hs).2
        (.inr ((p.not_mem_of_closed hy).2 _))).1⟩

theorem edit (h : st.ClosedList live C) (p : st.Placed L Q) (e : DispatchEdit st st') :
    ∃ C', st'.ClosedList live C' := by
  cases e with
  | pollChange s e keeps => exact ⟨C, h.congr rfl rfl fun _ _ => rfl⟩
  | close s => exact h.socketClose p s
  | lastWriteFailed b => exact ⟨C, h.congr rfl rfl fun _ _ => rfl⟩

theorem edits (h : st.ClosedList live C) (p : st.Placed L Q) (e : DispatchEdits st st') :
    ∃ L' Q' C', st'.Placed L' Q' ∧ st'.ClosedList live C' := by
  induction e with
  | refl => exact ⟨L, Q, C, p, h⟩
  | tail _ e ih =>
    obtain ⟨L₁, Q₁, C₁, p₁, h₁⟩ := ih
    obtain ⟨L₂, Q₂, p₂, -⟩ := p₁.edit e
    obtain ⟨C₂, h₂⟩ := h₁.edit p₁ e
    exact ⟨L₂, Q₂, C₂, p₂, h₂⟩

theorem park (h : st.ClosedList live C) (p : st.Placed L Q) (open_ : st.closed s = false)
    (state : st.lowPrioState s ≠ 1) : (st.park s).ClosedList live C := by
  have inL := (p.listed_of open_ state).2
  refine h.congr rfl rfl fun y hy => ?_
  have ne : y ≠ s := fun e => by rw [e, open_] at hy; cases hy
  show ((st.sockets.unlink (st.headSockets (st.context s)) s).1.pushFront st.lowPrioHead s).next y
    = st.sockets.next y
  exact (Links.pushFront_agree ne fun n hn e => (p.not_mem_of_closed hy).1
      (e ▸ p.queue.head_mem hn)).1.trans
    (st.sockets.unlink_agree (p.lists.holds _) inL (.inr ((p.not_mem_of_closed hy).2 _))).1

theorem admissionTest (h : st.ClosedList live C) (p : st.Placed L Q)
    (open_ : st.closed s = false) (state : st.lowPrioState s ≠ 1) (lowPrio : Bool) :
    (admission st s lowPrio).1.ClosedList live C := by
  rcases admission_cases st s lowPrio with ⟨-, -, e⟩ | ⟨-, -, e⟩ | ⟨-, -, e⟩ | e <;> rw [e]
  · exact h.congr rfl rfl fun _ _ => rfl
  · exact h.congr rfl rfl fun _ _ => rfl
  · exact h.park p open_ state
  · exact h

theorem dispatch (h : st.ClosedList live C) (p : st.Placed L Q) (env : Env) (s : Nat)
    (error : Int) (eof : Bool) (events : Events) (open_ : st.closed s = false)
    (polled : events.readable = true → (st.events s).readable = true)
    (returns : env.ReturnsUnparked st s) :
    ∃ C', (dispatchSocket env st s error eof events).loop.ClosedList live C' := by
  cases dispatchSocket_shape env st s error eof events with
  | edits _ edits =>
    obtain ⟨-, -, C', -, h'⟩ := h.edits p edits
    exact ⟨C', h'⟩
  | admits x mid readable before stillOpen socket _ after _ =>
    have notParked := p.admitted_not_parked open_ polled returns readable before (stillOpen open_)
      socket
    obtain ⟨L₁, Q₁, C₁, p₁, h₁⟩ := h.edits p before
    obtain ⟨L₂, p₂⟩ := p₁.admissionTest (stillOpen open_) notParked env.lowPrio
    obtain ⟨-, -, C₃, -, h₃⟩ :=
      (h₁.admissionTest p₁ (stillOpen open_) notParked env.lowPrio).edits p₂ after
    exact ⟨C₃, h₃⟩

theorem acceptSocket (h : st.ClosedList live C) (p : st.Placed L Q) (dead : live s = false)
    (c : Nat) (halfOpen : Bool) :
    (st.acceptSocket c halfOpen s).ClosedList (update live s true) C := by
  have notC : s ∉ C := fun hs => by
    have := ((h.mem s).mp hs).1
    rw [dead] at this
    cases this
  have ne : ∀ y ∈ C, y ≠ s := fun y hy e => notC (e ▸ hy)
  refine ⟨h.path.congr fun y hy => ?_, fun y => ?_, fun y hy => ?_⟩
  · show (st.sockets.pushFront (st.headSockets c) s).next y = st.sockets.next y
    exact (Links.pushFront_agree (ne y hy) fun n hn e =>
      (p.not_mem_of_closed (h.closed_of_mem hy)).2 c (e ▸ p.lists.head_mem hn)).1
  · rw [acceptSocket_closed]
    by_cases e : y = s
    · subst e
      simp [notC]
    · simp [update_noteq e, h.mem y]
  · rw [acceptSocket_closed] at hy
    by_cases e : y = s
    · subst e
      simp
    · rw [update_noteq e] at hy ⊢
      exact h.live_of_open y hy

end Loop.ClosedList

/-- The addresses the accept loop takes: each connection, up to the one whose `on_open` closes
the listen socket. -/
def acceptedOf : List (Nat × Bool) → List Nat
  | [] => []
  | (s, listenClosed) :: conns => s :: if listenClosed then [] else acceptedOf conns

namespace Loop.ClosedList

variable {st : Loop} {live : Nat → Bool} {C : List Nat} {L : Nat → List Nat} {Q : List Nat}
  {x : Nat}

theorem accepted_live (live : Nat → Bool) (s : Nat) (l : List Nat) :
    (fun y => update live s true y || decide (y ∈ l)) = fun y => live y || decide (y ∈ s :: l) := by
  funext y
  by_cases e : y = s
  · subst e
    simp
  · simp [update_noteq e, e]

theorem acceptLoop (c : Nat) (halfOpen : Bool) : ∀ (conns : List (Nat × Bool)) (d : Dispatch)
    (L : Nat → List Nat) (Q : List Nat) (live : Nat → Bool) (C : List Nat), d.loop.Placed L Q →
    d.loop.ClosedList live C → (∀ p ∈ conns, live p.1 = false) → (conns.map Prod.fst).Nodup →
    ∃ L' Q' C', (BunLoop.acceptLoop c halfOpen conns d).loop.Placed L' Q' ∧
      (BunLoop.acceptLoop c halfOpen conns d).loop.ClosedList
        (fun y => live y || decide (y ∈ acceptedOf conns)) C'
  | [], d, L, Q, live, C, p, h, _, _ => ⟨L, Q, C, p, by simpa [acceptedOf] using h⟩
  | (s, listenClosed) :: conns, d, L, Q, live, C, p, h, fresh, distinct => by
    have dead := fresh (s, listenClosed) (List.mem_cons_self _ _)
    have opened := callback_follows (P := fun _ => True)
      (d := { d with loop := d.loop.acceptSocket c halfOpen s }) (f := .onOpen) (s := some s)
      trivial
    obtain ⟨L₁, Q₁, C₁, p₁, h₁⟩ := (h.acceptSocket p dead c halfOpen).edits
      (p.acceptSocket (h.closed_of_dead dead) c halfOpen) opened.edits
    simp only [BunLoop.acceptLoop]
    split
    · rename_i closed
      refine ⟨L₁, Q₁, C₁, p₁, ?_⟩
      rw [closed, acceptedOf, if_pos rfl, ← accepted_live]
      simpa using h₁
    · rename_i closed
      obtain ⟨notIn, distinct'⟩ := List.nodup_cons.mp distinct
      have fresh' : ∀ p ∈ conns, update live s true p.1 = false := fun p hp => by
        have ne : p.1 ≠ s := fun e => notIn (List.mem_map.mpr ⟨p, hp, e⟩)
        rw [update_noteq ne]
        exact fresh p (List.mem_cons_of_mem _ hp)
      obtain ⟨L₂, Q₂, C₂, p₂, h₂⟩ := acceptLoop c halfOpen conns _ L₁ Q₁ _ C₁ p₁ h₁ fresh'
        distinct'
      refine ⟨L₂, Q₂, C₂, p₂, ?_⟩
      rw [acceptedOf, if_neg closed, ← accepted_live]
      exact h₂

theorem promoteOne (h : st.ClosedList live C) (p : st.Placed L Q)
    (head : st.lowPrioHead = some x) : (st.promoteOne x).ClosedList live C := by
  obtain ⟨Q₀, rfl, -⟩ := p.promoteOne head
  have held : st.sockets.Holds (some x) (x :: Q₀) := head ▸ p.queue
  refine h.congr rfl rfl fun y hy => ?_
  obtain ⟨notQ, notL⟩ := p.not_mem_of_closed hy
  have ne : y ≠ x := fun e => notQ (e ▸ List.mem_cons_self _ _)
  show ((st.sockets.popFront x).1.pushFront (st.headSockets (st.context x)) x).next y = _
  exact (Links.pushFront_agree ne fun n hn e => notL _ (e ▸ p.lists.head_mem hn)).1.trans
    (Links.popFront_agree held notQ).1

theorem promoteLoop : ∀ (n : Nat) (st : Loop) (L : Nat → List Nat) (Q C : List Nat),
    st.Placed L Q → st.ClosedList live C → (st.promoteLoop n).1.ClosedList live C
  | 0, _, _, _, _, _, h => h
  | n + 1, st, L, Q, C, p, h => by
    unfold Loop.promoteLoop
    split
    · rename_i x head
      split
      · obtain ⟨Q₀, rfl, p₁⟩ := p.promoteOne head
        exact promoteLoop n _ _ Q₀ C p₁ (h.promoteOne p head)
      · exact h
    · exact h

theorem handleLowPrioritySockets (h : st.ClosedList live C) (p : st.Placed L Q) :
    st.handleLowPrioritySockets.1.ClosedList live C :=
  promoteLoop _ _ L Q C ⟨p.lists.same rfl rfl, p.queue, p.apart, p.listed, p.queued, p.covered⟩
    (h.congr rfl rfl fun _ _ => rfl)

theorem freed (h : st.ClosedList live C) :
    ClosedList { st with closedHead := none } (fun y => live y && !decide (y ∈ C)) [] := by
  refine ⟨.nil, fun y => ?_, fun y hy => ?_⟩
  · simp only [List.not_mem_nil, false_iff, Bool.and_eq_true, Bool.not_eq_true',
      decide_eq_false_iff_not, not_and, and_imp]
    exact fun hl hn hc => hn ((h.mem y).mpr ⟨hl, hc⟩)
  · have notC : y ∉ C := fun hy' => by
      have := h.closed_of_mem hy'
      simp_all
    simp [h.live_of_open y hy, notC]

end Loop.ClosedList

/-! ## Runs with the post-hook -/

/-- A run's heap, with the ghost allocation map: `live s` while socket `s`'s memory is
allocated. -/
structure Heap where
  world : World
  live : Nat → Bool

/-- One step of a run with post-hooks: the steps of `Step`, where the memory an accepted
connection gets is not allocated, and the post-hook, which frees what its walk hands to
`us_poll_free`. -/
inductive Tick (Returns : Env → Loop → Nat → Prop) : Heap → Heap → Prop
  | accept {h : Heap} (env : Env) (c : Nat) (halfOpen : Bool) (conns : List (Nat × Bool))
      (fresh : ∀ p ∈ conns, h.live p.1 = false) (distinct : (conns.map Prod.fst).Nodup) :
      Tick Returns h ⟨{ h.world with
          loop := (acceptLoop c halfOpen conns ⟨h.world.loop, [], env.replies, none⟩).loop },
        fun y => h.live y || decide (y ∈ acceptedOf conns)⟩
  | dispatch {h : Heap} (env : Env) (s : Nat) (error : Int) (eof : Bool) (events : Events)
      (open_ : h.world.loop.closed s = false)
      (polled : events.readable = true → (h.world.loop.events s).readable = true)
      (returns : Returns env h.world.loop s) :
      Tick Returns h
        ⟨h.world.afterDispatch (dispatchSocket env h.world.loop s error eof events), h.live⟩
  | promote {h : Heap} :
      Tick Returns h ⟨{ h.world with loop := h.world.loop.handleLowPrioritySockets.1 }, h.live⟩
  | close {h : Heap} (s : Nat) :
      Tick Returns h ⟨{ h.world with loop := h.world.loop.socketClose s }, h.live⟩
  | post {h : Heap} {st : Loop} {freed : List Nat} (fuel : Nat)
      (run : h.world.loop.freeClosedSockets fuel = some (st, freed)) :
      Tick Returns h ⟨{ h.world with loop := st }, fun y => h.live y && !decide (y ∈ freed)⟩

def HeapReachable (Returns : Env → Loop → Nat → Prop) (st : Loop) : Heap → Prop :=
  Relation.ReflTransGen (Tick Returns) ⟨World.init st, fun y => !st.closed y⟩

structure Heap.Inv (h : Heap) (L : Nat → List Nat) (Q C : List Nat) : Prop where
  world : h.world.Inv L Q
  closedList : h.world.loop.ClosedList h.live C

theorem Heap.Inv.tick {h h' : Heap} {L : Nat → List Nat} {Q C : List Nat} (i : h.Inv L Q C)
    (t : Tick Env.ReturnsUnparked h h') : ∃ L' Q' C', h'.Inv L' Q' C' := by
  cases t with
  | accept env c halfOpen conns fresh distinct =>
    obtain ⟨L', Q', w'⟩ := i.world.step (.accept env c halfOpen conns
      (fun p hp => i.closedList.closed_of_dead (fresh p hp)) distinct)
    obtain ⟨-, -, C', -, h'⟩ :=
      i.closedList.acceptLoop c halfOpen conns ⟨h.world.loop, [], env.replies, none⟩ L Q h.live C
        i.world.placed fresh distinct
    exact ⟨L', Q', C', w', h'⟩
  | dispatch env s error eof events open_ polled returns =>
    obtain ⟨L', Q', w'⟩ := i.world.step (.dispatch env s error eof events open_ polled returns)
    obtain ⟨C', h'⟩ :=
      i.closedList.dispatch i.world.placed env s error eof events open_ polled returns
    exact ⟨L', Q', C', w', by rwa [World.afterDispatch_loop]⟩
  | promote =>
    obtain ⟨L', Q', w'⟩ := i.world.step .promote
    exact ⟨L', Q', C, w', i.closedList.handleLowPrioritySockets i.world.placed⟩
  | close s =>
    obtain ⟨L', Q', w'⟩ := i.world.step (.close s)
    obtain ⟨C', h'⟩ := i.closedList.socketClose i.world.placed s
    exact ⟨L', Q', C', w', h'⟩
  | post fuel run =>
    obtain ⟨rfl, rfl⟩ := Loop.freeClosedSockets_eq i.closedList.path run
    have p := i.world.placed
    exact ⟨L, Q, [], i.world.sublist ⟨p.lists.same rfl rfl, p.queue, p.apart, p.listed, p.queued,
      p.covered⟩ (.refl Q), i.closedList.freed⟩

theorem HeapReachable.inv {st : Loop} {L₀ : Nat → List Nat} (start : Start st L₀)
    (empty : st.closedHead = none) {h : Heap} (reach : HeapReachable Env.ReturnsUnparked st h) :
    ∃ L Q C, h.Inv L Q C := by
  induction reach with
  | refl =>
    refine ⟨L₀, [], [], World.Inv.start start, ⟨?_, fun y => by simp [World.init],
      fun y (hy : st.closed y = false) => by simp [hy]⟩⟩
    show Path st.sockets.next none st.closedHead []
    rw [empty]
    exact .nil
  | tail _ t ih =>
    obtain ⟨L, Q, C, i⟩ := ih
    exact i.tick t

/-- Along every run with post-hooks where `on_writable` hands back no other parked socket, from a
start whose closed list is empty: the closed list is a NULL-terminated chain from `closed_head`
holding, each once, exactly the closed sockets whose memory is still allocated, and none of them
is in a context's list or the low-priority queue; every open socket is allocated; and the
post-hook's walk hands exactly the sockets of the chain to `us_poll_free`, in order, and empties
it. -/
theorem heapReachable_closed_list {st : Loop} {L₀ : Nat → List Nat} (start : Start st L₀)
    (empty : st.closedHead = none) {h : Heap} (reach : HeapReachable Env.ReturnsUnparked st h) :
    ∃ L Q C, h.world.loop.Lists L ∧ h.world.loop.sockets.Holds h.world.loop.lowPrioHead Q ∧
      Path h.world.loop.sockets.next none h.world.loop.closedHead C ∧ C.Nodup ∧
      (∀ y, y ∈ C ↔ h.live y = true ∧ h.world.loop.closed y = true) ∧
      (∀ y ∈ C, y ∉ Q ∧ ∀ c, y ∉ L c) ∧
      (∀ y, h.world.loop.closed y = false → h.live y = true) ∧
      h.world.loop.freeClosedSockets C.length =
        some ({ h.world.loop with closedHead := none }, C) := by
  obtain ⟨L, Q, C, i⟩ := reach.inv start empty
  exact ⟨L, Q, C, i.world.placed.lists, i.world.placed.queue, i.closedList.path,
    i.closedList.path.nodup, i.closedList.mem,
    fun y hy => i.world.placed.not_mem_of_closed (i.closedList.closed_of_mem hy),
    i.closedList.live_of_open, Loop.freeClosedSockets_of_path i.closedList.path⟩

def Heap.closedOne : Heap :=
  ⟨{ World.init Loop.oneSocket with loop := Loop.oneSocket.socketClose 1 },
    fun y => !Loop.oneSocket.closed y⟩

theorem heapReachable_closedOne :
    HeapReachable Env.ReturnsUnparked Loop.oneSocket Heap.closedOne :=
  .single (.close 1)

theorem heapReachable_closed_list_closedOne :
    Start Loop.oneSocket (update (fun _ => []) 0 [1]) ∧ Loop.oneSocket.closedHead = none ∧
      HeapReachable Env.ReturnsUnparked Loop.oneSocket Heap.closedOne ∧
      ∃ L Q C, Heap.closedOne.world.loop.Lists L ∧
        Heap.closedOne.world.loop.sockets.Holds Heap.closedOne.world.loop.lowPrioHead Q ∧
        Path Heap.closedOne.world.loop.sockets.next none Heap.closedOne.world.loop.closedHead C ∧
        C.Nodup ∧
        (∀ y, y ∈ C ↔ Heap.closedOne.live y = true ∧ Heap.closedOne.world.loop.closed y = true) ∧
        (∀ y ∈ C, y ∉ Q ∧ ∀ c, y ∉ L c) ∧
        (∀ y, Heap.closedOne.world.loop.closed y = false → Heap.closedOne.live y = true) ∧
        Heap.closedOne.world.loop.freeClosedSockets C.length =
          some ({ Heap.closedOne.world.loop with closedHead := none }, C) :=
  ⟨start_oneSocket, rfl, heapReachable_closedOne,
    heapReachable_closed_list start_oneSocket rfl heapReachable_closedOne⟩

/-! ## The timer sweep along a run -/

/-- The walk of a context calls its timeout callbacks only on sockets of the context's list as it
was when the walk began. -/
theorem sweepContext_fires_listed {cb : TimeoutCallbacks} (hcb : cb.Edits) (c : Nat) {st : Loop}
    {L : Nat → List Nat} (lists : st.Lists L) :
    ∃ st' fs, sweepContext cb c ((L c).length + 1) st = some (st', fs) ∧
      ∀ f ∈ fs, f.socket ∈ L c := by
  have ticked : (st.tick c).Lists L := ⟨lists.holds, lists.disjoint⟩
  obtain ⟨st', fs, run, -, -, good⟩ := sweepSockets_walk (c := c)
    (shortTicksOf ((st.tick c).globalTick c)) (longTicksOf ((st.tick c).globalTick c))
    hcb _ (st.tick c) L [] (L c) ticked rfl (Nat.lt_succ_self _)
  refine ⟨st', fs, ?_, fun f hf => (good f hf).1⟩
  rw [← run, sweepContext, (ticked.holds c).head_eq]

/-- Along every run with post-hooks where `on_writable` hands back no other parked socket, the
timer sweep of any context, whatever its timeout callbacks edit within `SweepEdits`, ends, and
calls them only on sockets that were, when it reached the context, open and allocated, of that
context, and not parked: a closed, freed or parked socket gets no timeout. -/
theorem heapReachable_sweep_fires_open {st : Loop} {L₀ : Nat → List Nat} (start : Start st L₀)
    (empty : st.closedHead = none) {h : Heap} (reach : HeapReachable Env.ReturnsUnparked st h)
    (cb : TimeoutCallbacks) (hcb : cb.Edits) (c : Nat) :
    ∃ n st' fs, sweepContext cb c n h.world.loop = some (st', fs) ∧ ∀ f ∈ fs,
      h.world.loop.closed f.socket = false ∧ h.live f.socket = true ∧
        h.world.loop.context f.socket = c ∧ h.world.loop.lowPrioState f.socket ≠ 1 := by
  obtain ⟨L, Q, C, i⟩ := reach.inv start empty
  obtain ⟨st', fs, run, listed⟩ := sweepContext_fires_listed hcb c i.world.placed.lists
  refine ⟨_, st', fs, run, fun f hf => ?_⟩
  obtain ⟨open_, context, state⟩ := i.world.placed.listed c f.socket (listed f hf)
  exact ⟨open_, i.closedList.live_of_open _ open_, context, state⟩

theorem heapReachable_sweep_fires_open_oneSocket :
    Start Loop.oneSocket (update (fun _ => []) 0 [1]) ∧ Loop.oneSocket.closedHead = none ∧
      HeapReachable Env.ReturnsUnparked Loop.oneSocket
        ⟨World.init Loop.oneSocket, fun y => !Loop.oneSocket.closed y⟩ ∧
      TimeoutCallbacks.Edits ⟨some fun st _ => st, none⟩ ∧
      ∃ n st' fs, sweepContext ⟨some fun st _ => st, none⟩ 0 n Loop.oneSocket = some (st', fs) ∧
        ∀ f ∈ fs, Loop.oneSocket.closed f.socket = false ∧
          (!Loop.oneSocket.closed f.socket) = true ∧ Loop.oneSocket.context f.socket = 0 ∧
          Loop.oneSocket.lowPrioState f.socket ≠ 1 :=
  have hcb : TimeoutCallbacks.Edits ⟨some fun st _ => st, none⟩ := by
    rintro g (hg | hg) st s L -
    · obtain rfl := Option.some_inj.mp hg
      exact Relation.ReflTransGen.refl
    · cases hg
  ⟨start_oneSocket, rfl, .refl, hcb,
    heapReachable_sweep_fires_open start_oneSocket rfl .refl _ hcb 0⟩

end BunLoop
