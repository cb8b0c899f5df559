import BunLoop.Placement

/-!
# The socket lists over every run

A run interleaves accept loops, dispatches, pre-hooks and closes (`Step`). In the code
`on_writable` may hand back any socket (`Step Env.ReturnsAny`); handing back the parked head of
the queue with no budget left parks it a second time and makes it its own successor
(`reachable_queue_cycle`). Over the runs where it hands back no other parked socket
(`Step Env.ReturnsUnparked`), each open socket is in exactly one list
(`reachable_sockets_placed`), and the pre-hook empties the queue five sockets per iteration
(`reachable_preHooks_promote`).
-/
namespace BunLoop

open Function Dispatch

/-! ## The accept loop -/

theorem Loop.Placed.acceptLoop (c : Nat) (halfOpen : Bool) : ∀ (conns : List (Nat × Bool))
    (d : Dispatch) (L : Nat → List Nat) (Q : List Nat), d.loop.Placed L Q →
    (∀ p ∈ conns, d.loop.closed p.1 = true) → (conns.map Prod.fst).Nodup →
    ∃ L' Q', (acceptLoop c halfOpen conns d).loop.Placed L' Q' ∧ Q'.Sublist Q
  | [], _, L, Q, h, _, _ => ⟨L, Q, h, .refl Q⟩
  | (s, listenClosed) :: conns, d, L, Q, h, fresh, distinct => by
    have opened := callback_follows (P := fun _ => True)
      (d := { d with loop := d.loop.acceptSocket c halfOpen s }) (f := .onOpen) (s := some s)
      trivial
    obtain ⟨L₁, Q₁, h₁, sub₁⟩ :=
      (h.acceptSocket (fresh (s, listenClosed) (List.mem_cons_self _ _)) c halfOpen).edits
        opened.edits
    simp only [BunLoop.acceptLoop]
    split
    · exact ⟨L₁, Q₁, h₁, sub₁⟩
    · obtain ⟨notIn, distinct'⟩ := List.nodup_cons.mp distinct
      have fresh' : ∀ p ∈ conns, (d.loop.acceptSocket c halfOpen s).closed p.1 = true :=
        fun p hp => by
          have ne : p.1 ≠ s := fun e => notIn (List.mem_map.mpr ⟨p, hp, e⟩)
          rw [Loop.acceptSocket_closed, update_noteq ne]
          exact fresh p (List.mem_cons_of_mem _ hp)
      obtain ⟨L₂, Q₂, h₂, sub₂⟩ := Loop.Placed.acceptLoop c halfOpen conns _ L₁ Q₁ h₁
        (fun p hp => opened.edits.closed (fresh' p hp)) distinct'
      exact ⟨L₂, Q₂, h₂, sub₂.trans sub₁⟩

/-! ## Runs -/

/-- The heap, with the ghost order of parks: the number of parks before each socket's last park,
and the parks so far. -/
structure World where
  loop : Loop
  parkedAt : Nat → Nat
  parks : Nat

/-- A heap to start from: every open socket linked in its own context's list, with
`low_prio_state` 0, and the low-priority queue empty. -/
structure Start (st : Loop) (L : Nat → List Nat) : Prop where
  lists : st.Lists L
  empty : st.lowPrioHead = none
  listed : ∀ c, ∀ s ∈ L c, st.closed s = false ∧ st.context s = c ∧ st.lowPrioState s = 0
  covered : ∀ s, st.closed s = false → s ∈ L (st.context s)

namespace World

def init (st : Loop) : World := ⟨st, fun _ => 0, 0⟩

/-- The world a dispatch leaves: its heap, and a stamp for the socket it parked. -/
def afterDispatch (w : World) (d : Dispatch) : World :=
  match d.admitted with
  | some (x, .parked) => ⟨d.loop, update w.parkedAt x w.parks, w.parks + 1⟩
  | _ => { w with loop := d.loop }

@[simp] theorem afterDispatch_loop (w : World) (d : Dispatch) :
    (w.afterDispatch d).loop = d.loop := by
  unfold afterDispatch
  split <;> rfl

end World

/-- What `on_writable` may hand back in place of its socket, in the code: anything. -/
def Env.ReturnsAny (_ : Env) (_ : Loop) (_ : Nat) : Prop := True

/-- In a dispatch of `s` from the heap `st`, `on_writable` hands back no other socket that is open
and parked (`low_prio_state` 1). -/
def Env.ReturnsUnparked (env : Env) (st : Loop) (s : Nat) : Prop :=
  ∀ r ∈ env.replies .onWritable, ∀ y, r.ret = .other y → y ≠ s → st.closed y = false →
    st.lowPrioState y ≠ 1

/-- One step of a run, where `Returns env st s` says what `on_writable` may hand back in a
dispatch of `s` from the heap `st`. -/
inductive Step (Returns : Env → Loop → Nat → Prop) : World → World → Prop
  /-- A listen socket's accept loop, on connections at addresses no open socket holds. -/
  | accept {w : World} (env : Env) (c : Nat) (halfOpen : Bool) (conns : List (Nat × Bool))
      (fresh : ∀ p ∈ conns, w.loop.closed p.1 = true) (distinct : (conns.map Prod.fst).Nodup) :
      Step Returns w
        { w with loop := (acceptLoop c halfOpen conns ⟨w.loop, [], env.replies, none⟩).loop }
  /-- The dispatch of an open TCP socket, reported readable only when its poll asks for it. -/
  | dispatch {w : World} (env : Env) (s : Nat) (error : Int) (eof : Bool) (events : Events)
      (open_ : w.loop.closed s = false)
      (polled : events.readable = true → (w.loop.events s).readable = true)
      (returns : Returns env w.loop s) :
      Step Returns w (w.afterDispatch (dispatchSocket env w.loop s error eof events))
  | promote {w : World} : Step Returns w { w with loop := w.loop.handleLowPrioritySockets.1 }
  | close {w : World} (s : Nat) : Step Returns w { w with loop := w.loop.socketClose s }

def Reachable (Returns : Env → Loop → Nat → Prop) (st : Loop) : World → Prop :=
  Relation.ReflTransGen (Step Returns) (World.init st)

/-- The socket a dispatch's admission tests is not parked: the dispatched socket polls for
readable, and any other is one `on_writable` handed back. -/
theorem Loop.Placed.admitted_not_parked {st mid : Loop} {L : Nat → List Nat} {Q : List Nat}
    {env : Env} {s x : Nat} {events : Events} (h : st.Placed L Q) (open_ : st.closed s = false)
    (polled : events.readable = true → (st.events s).readable = true)
    (returns : env.ReturnsUnparked st s) (readable : events.readable = true)
    (before : DispatchEdits st mid) (stillOpen : mid.closed x = false)
    (socket : x = s ∨ ∃ r ∈ env.replies .onWritable, r.ret = .other x) :
    mid.lowPrioState x ≠ 1 := by
  rw [before.lowPrio.2]
  by_cases e : x = s
  · subst e
    exact h.not_parked open_ (polled readable)
  · obtain ⟨r, hr, ret⟩ := socket.resolve_left e
    exact returns r hr x ret e (before.open_of_open stillOpen)

/-! ## The invariant -/

/-- The sockets are placed, and the queue runs from the latest park to the earliest. -/
structure World.Inv (w : World) (L : Nat → List Nat) (Q : List Nat) : Prop where
  placed : w.loop.Placed L Q
  order : Q.Pairwise fun a b => w.parkedAt b < w.parkedAt a
  stamped : ∀ y ∈ Q, w.parkedAt y < w.parks

namespace World.Inv

variable {w : World} {L : Nat → List Nat} {Q : List Nat}

theorem sublist (h : w.Inv L Q) {st : Loop} {L' : Nat → List Nat} {Q' : List Nat}
    (placed : st.Placed L' Q') (sub : Q'.Sublist Q) : World.Inv { w with loop := st } L' Q' :=
  ⟨placed, h.order.sublist sub, fun y hy => h.stamped y (sub.subset hy)⟩

theorem start {st : Loop} {L : Nat → List Nat} (h : Start st L) : (World.init st).Inv L [] := by
  have listed : ∀ c, ∀ s ∈ L c, st.closed s = false ∧ st.context s = c ∧ st.lowPrioState s ≠ 1 :=
    fun c s hs => by
      obtain ⟨closed, context, state⟩ := h.listed c s hs
      exact ⟨closed, context, by simp [state]⟩
  have queue : st.sockets.Holds st.lowPrioHead [] := by
    rw [h.empty]
    exact ⟨.nil, trivial⟩
  exact ⟨⟨h.lists, queue, fun _ _ hy => absurd hy (List.not_mem_nil _), listed,
    fun _ hy => absurd hy (List.not_mem_nil _), fun s hs => .inr (h.covered s hs)⟩, .nil,
    fun _ hy => absurd hy (List.not_mem_nil _)⟩

theorem park (h : w.Inv L Q) {st : Loop} {L' : Nat → List Nat} {x : Nat}
    (placed : st.Placed L' (x :: Q)) :
    World.Inv ⟨st, update w.parkedAt x w.parks, w.parks + 1⟩ L' (x :: Q) := by
  have notQ := (List.nodup_cons.mp placed.queue.nodup).1
  have keep : ∀ y ∈ Q, update w.parkedAt x w.parks y = w.parkedAt y := fun y hy =>
    update_noteq (fun (e : y = x) => notQ (e ▸ hy)) _ _
  refine ⟨placed, List.Pairwise.cons (fun y hy => ?_) ?_, fun y hy => ?_⟩ <;> dsimp only
  · rw [keep y hy, update_same]
    exact h.stamped y hy
  · exact h.order.imp_of_mem fun {a b} ha hb lt => by rwa [keep a ha, keep b hb]
  · rcases List.mem_cons.mp hy with rfl | hy
    · simp
    · rw [keep y hy]
      exact Nat.lt_succ_of_lt (h.stamped y hy)

theorem dispatch (h : w.Inv L Q) (env : Env) (s : Nat) (error : Int) (eof : Bool)
    (events : Events) (open_ : w.loop.closed s = false)
    (polled : events.readable = true → (w.loop.events s).readable = true)
    (returns : env.ReturnsUnparked w.loop s) :
    ∃ L' Q', (w.afterDispatch (dispatchSocket env w.loop s error eof events)).Inv L' Q' := by
  cases dispatchSocket_shape env w.loop s error eof events with
  | edits admitted edits =>
    obtain ⟨L', Q', placed, sub⟩ := h.placed.edits edits
    refine ⟨L', Q', ?_⟩
    rw [World.afterDispatch, admitted]
    exact h.sublist placed sub
  | admits x mid readable before stillOpen socket admitted after _ =>
    have notParked := h.placed.admitted_not_parked open_ polled returns readable before
      (stillOpen open_) socket
    obtain ⟨L₁, Q₁, placed₁, sub₁⟩ := h.placed.edits before
    obtain ⟨L₂, placed₂⟩ := placed₁.admissionTest (stillOpen open_) notParked env.lowPrio
    rw [World.afterDispatch, admitted]
    by_cases parked : (admission mid x env.lowPrio).2 = .parked
    · rw [parked]
      rw [if_pos parked] at placed₂
      obtain ⟨L₃, Q₃, placed₃, sub₃⟩ := placed₂.edits after
      have stamped := (h.sublist placed₁ sub₁).park placed₂
      exact ⟨L₃, Q₃, stamped.sublist placed₃ sub₃⟩
    · rw [if_neg parked] at placed₂
      obtain ⟨L₃, Q₃, placed₃, sub₃⟩ := placed₂.edits after
      refine ⟨L₃, Q₃, ?_⟩
      have inv := h.sublist placed₃ (sub₃.trans sub₁)
      split
      · rename_i e
        exact absurd (Prod.mk.inj (Option.some_inj.mp e)).2 parked
      · exact inv

theorem step (h : w.Inv L Q) {w' : World} (step : Step Env.ReturnsUnparked w w') :
    ∃ L' Q', w'.Inv L' Q' := by
  cases step with
  | accept env c halfOpen conns fresh distinct =>
    obtain ⟨L', Q', placed, sub⟩ :=
      h.placed.acceptLoop c halfOpen conns ⟨w.loop, [], env.replies, none⟩ L Q fresh distinct
    exact ⟨L', Q', h.sublist placed sub⟩
  | dispatch env s error eof events open_ polled returns =>
    exact h.dispatch env s error eof events open_ polled returns
  | promote =>
    obtain ⟨L', Q', placed, rest⟩ := h.placed.handleLowPrioritySockets
    exact ⟨L', Q', h.sublist placed (rest ▸ List.sublist_append_right _ _)⟩
  | close s =>
    obtain ⟨L', Q', placed, sub⟩ := h.placed.socketClose s
    exact ⟨L', Q', h.sublist placed sub⟩

end World.Inv

theorem Reachable.inv {st : Loop} {L₀ : Nat → List Nat} (start : Start st L₀) {w : World}
    (reach : Reachable Env.ReturnsUnparked st w) : ∃ L Q, w.Inv L Q := by
  induction reach with
  | refl => exact ⟨L₀, [], World.Inv.start start⟩
  | tail _ step ih =>
    obtain ⟨L, Q, inv⟩ := ih
    exact inv.step step

/-- Along every run from a start where `on_writable` hands back no other parked socket, each open
socket is in exactly one list: the low-priority queue
when its `low_prio_state` is 1, and then it does not poll for readable, or else its own context's
list. The lists hold only open sockets. The queue is a NULL-terminated list whose head has a NULL
`prev` and whose every node's successor points back at it, ordered from the latest park to the
earliest, and the pre-hook promotes its first sockets. -/
theorem reachable_sockets_placed {st : Loop} {L₀ : Nat → List Nat} (start : Start st L₀)
    {w : World} (reach : Reachable Env.ReturnsUnparked st w) :
    ∃ L Q, w.loop.Lists L ∧ w.loop.sockets.Holds w.loop.lowPrioHead Q ∧
      (∀ s, w.loop.closed s = false →
        (w.loop.lowPrioState s = 1 ↔ s ∈ Q) ∧
        (s ∈ Q → (w.loop.events s).readable = false ∧ ∀ c, s ∉ L c) ∧
        (s ∉ Q → ∀ c, s ∈ L c ↔ c = w.loop.context s)) ∧
      (∀ c, ∀ s ∈ L c, w.loop.closed s = false) ∧ (∀ s ∈ Q, w.loop.closed s = false) ∧
      Q.Nodup ∧ (∀ h, w.loop.lowPrioHead = some h → w.loop.sockets.prev h = none) ∧
      (∀ x ∈ Q, ∀ y, w.loop.sockets.next x = some y → w.loop.sockets.prev y = some x) ∧
      Q.Pairwise (fun a b => w.parkedAt b < w.parkedAt a) ∧
      w.loop.handleLowPrioritySockets.2 <+: Q := by
  obtain ⟨L, Q, ⟨placed, order, -⟩⟩ := reach.inv start
  obtain ⟨L', Q', -, promoted⟩ := placed.handleLowPrioritySockets
  refine ⟨L, Q, placed.lists, placed.queue, fun s open_ => ⟨⟨placed.queued_of open_,
      fun hs => (placed.queued s hs).2.1⟩, fun hs => ⟨(placed.queued s hs).2.2,
      fun c => placed.apart c s hs⟩, fun hs c => ⟨fun hc => (placed.listed c s hc).2.1.symm,
      fun e => e ▸ (placed.covered s open_).resolve_left hs⟩⟩,
    fun c s hs => (placed.listed c s hs).1, fun s hs => (placed.queued s hs).1,
    placed.queue.nodup, fun h hh => (hh ▸ placed.queue).head_prev,
    fun x hx y hy => placed.queue.prev_next hx hy, order, ⟨Q', promoted⟩⟩

/-- Socket 1, open and polled for readable, alone in context 0 of a fresh loop. -/
def Loop.oneSocket : Loop :=
  { Loop.init with closed := fun s => s != 1, events := fun _ => ⟨true, false⟩ }.linkSocket 0 1

theorem start_oneSocket : Start Loop.oneSocket (update (fun _ => []) 0 [1]) where
  lists := Loop.linkSocket_lists ⟨fun _ => ⟨.nil, trivial⟩,
    fun _ _ _ _ hy => absurd hy (List.not_mem_nil _)⟩ fun _ => List.not_mem_nil _
  empty := rfl
  listed c s hs := by
    by_cases e : c = 0
    · subst e
      obtain rfl : s = 1 := by simpa using hs
      exact ⟨rfl, rfl, rfl⟩
    · simp [update_noteq e] at hs
  covered s hs := by
    obtain rfl : s = 1 := by simpa [Loop.oneSocket, Loop.linkSocket] using hs
    decide

/-- `is_low_prio` says yes and no budget is left: the dispatch parks socket 1. -/
def World.parkedOne : World :=
  (World.init Loop.oneSocket).afterDispatch
    (dispatchSocket ⟨524288, [], fun _ => [], true⟩ Loop.oneSocket 1 0 false ⟨true, false⟩)

example : World.parkedOne.loop.lowPrioHead = some 1 ∧ World.parkedOne.loop.lowPrioState 1 = 1 ∧
    World.parkedOne.loop.headSockets 0 = none := ⟨rfl, rfl, rfl⟩

theorem reachable_parkedOne {Returns : Env → Loop → Nat → Prop}
    (returns : Returns ⟨524288, [], fun _ => [], true⟩ Loop.oneSocket 1) :
    Reachable Returns Loop.oneSocket World.parkedOne :=
  .single (.dispatch _ 1 0 false _ rfl (fun _ => rfl) returns)

theorem returnsUnparked_nil (recvBufferLength : Int) (recvs : List Recv) (lowPrio : Bool)
    (st : Loop) (s : Nat) :
    Env.ReturnsUnparked ⟨recvBufferLength, recvs, fun _ => [], lowPrio⟩ st s :=
  fun _ hr => absurd hr (List.not_mem_nil _)

theorem reachable_sockets_placed_parkedOne :
    Start Loop.oneSocket (update (fun _ => []) 0 [1]) ∧
      Reachable Env.ReturnsUnparked Loop.oneSocket World.parkedOne ∧
      ∃ L Q, World.parkedOne.loop.Lists L ∧
        World.parkedOne.loop.sockets.Holds World.parkedOne.loop.lowPrioHead Q ∧
        (∀ s, World.parkedOne.loop.closed s = false →
          (World.parkedOne.loop.lowPrioState s = 1 ↔ s ∈ Q) ∧
          (s ∈ Q → (World.parkedOne.loop.events s).readable = false ∧ ∀ c, s ∉ L c) ∧
          (s ∉ Q → ∀ c, s ∈ L c ↔ c = World.parkedOne.loop.context s)) ∧
        (∀ c, ∀ s ∈ L c, World.parkedOne.loop.closed s = false) ∧
        (∀ s ∈ Q, World.parkedOne.loop.closed s = false) ∧
        Q.Nodup ∧
        (∀ h, World.parkedOne.loop.lowPrioHead = some h →
          World.parkedOne.loop.sockets.prev h = none) ∧
        (∀ x ∈ Q, ∀ y, World.parkedOne.loop.sockets.next x = some y →
          World.parkedOne.loop.sockets.prev y = some x) ∧
        Q.Pairwise (fun a b => World.parkedOne.parkedAt b < World.parkedOne.parkedAt a) ∧
        World.parkedOne.loop.handleLowPrioritySockets.2 <+: Q :=
  ⟨start_oneSocket, reachable_parkedOne (returnsUnparked_nil _ _ _ _ _),
    reachable_sockets_placed start_oneSocket (reachable_parkedOne (returnsUnparked_nil _ _ _ _ _))⟩

/-! ## A socket parked twice -/

/-- A dispatch, readable and writable, whose `on_writable` hands back the socket at the head of
the queue, still parked, while `is_low_prio` says yes and no budget is left: the readable phase
parks that socket a second time, and `s->next = low_prio_head` makes it its own successor. -/
theorem dispatchSocket_parks_head_again (env : Env) (st : Loop) (s x : Nat) (eof : Bool)
    (reply : env.replies .onWritable = [⟨[], false, .other x⟩]) (lowPrio : env.lowPrio = true)
    (head : st.lowPrioHead = some x) (open_ : st.closed x = false) (state : st.lowPrioState x = 1)
    (budget : st.lowPrioBudget = 0) :
    (dispatchSocket env st s 0 eof ⟨true, true⟩).loop.lowPrioHead = some x ∧
      (dispatchSocket env st s 0 eof ⟨true, true⟩).loop.sockets.next x = some x := by
  simp [dispatchSocket, writablePhase, callback, record, reply, Dispatch.isClosed, open_,
    Dispatch.pollChange, readablePhase, admission, lowPrio, state, budget, finishDispatch,
    Loop.pollChange, Loop.park_next, head]

def World.acceptedTwo : World :=
  { World.parkedOne with
    loop := (acceptLoop 0 false [(2, false)] ⟨World.parkedOne.loop, [], fun _ => [], none⟩).loop }

def Env.returnsOne : Env :=
  ⟨524288, [], fun f => if f = .onWritable then [⟨[], false, .other 1⟩] else [], true⟩

/-- Socket 2 reported readable and writable, under `Env.returnsOne`, with no budget left. -/
def World.doubleParked : World :=
  World.acceptedTwo.afterDispatch
    (dispatchSocket Env.returnsOne World.acceptedTwo.loop 2 0 false ⟨true, true⟩)

theorem reachable_queue_cycle :
    Start Loop.oneSocket (update (fun _ => []) 0 [1]) ∧
      Reachable Env.ReturnsAny Loop.oneSocket World.doubleParked ∧
      World.doubleParked.loop.closed 1 = false ∧ World.doubleParked.loop.lowPrioHead = some 1 ∧
      World.doubleParked.loop.sockets.next 1 = some 1 ∧
      ∀ Q, ¬World.doubleParked.loop.sockets.Holds World.doubleParked.loop.lowPrioHead Q := by
  have accepted : Reachable Env.ReturnsAny Loop.oneSocket World.acceptedTwo :=
    (reachable_parkedOne trivial).tail
      (.accept ⟨524288, [], fun _ => [], false⟩ 0 false [(2, false)] (by decide) (by decide))
  obtain ⟨head, self⟩ := dispatchSocket_parks_head_again Env.returnsOne World.acceptedTwo.loop 2 1
    false rfl rfl rfl rfl rfl rfl
  rw [← World.afterDispatch_loop World.acceptedTwo] at head self
  refine ⟨start_oneSocket, accepted.tail (.dispatch Env.returnsOne 2 0 false ⟨true, true⟩ rfl
    (fun _ => rfl) trivial), rfl, head, self,
    fun Q hQ => Path.not_of_next_self self Q (head ▸ hQ.path)⟩

/-! ## The pre-hook without new parks -/

/-- `k` loop iterations in which nothing is parked: the pre-hook runs `k` times. Returns the loop
after them and the sockets they promoted, in order. -/
def Loop.preHooks : Nat → Loop → Loop × List Nat
  | 0, st => (st, [])
  | k + 1, st =>
    let (st', promoted) := st.handleLowPrioritySockets
    ((st'.preHooks k).1, promoted ++ (st'.preHooks k).2)

/-- `k` pre-hooks promote the first `5 * k` sockets of the queue and leave the rest queued. -/
theorem Loop.Placed.preHooks : ∀ (k : Nat) (st : Loop) (L : Nat → List Nat) (Q : List Nat),
    st.Placed L Q → (st.preHooks k).2 = Q.take (5 * k) ∧
      ∃ L', (st.preHooks k).1.Placed L' (Q.drop (5 * k))
  | 0, _, L, _, h => ⟨rfl, L, h⟩
  | k + 1, st, L, Q, h => by
    obtain ⟨taken, L₁, h₁⟩ := h.handleLowPrioritySockets_take
    obtain ⟨taken', L', h'⟩ := Loop.Placed.preHooks k _ L₁ _ h₁
    rw [List.drop_drop] at h'
    rw [show 5 * (k + 1) = 5 + 5 * k by omega, List.take_add]
    exact ⟨by rw [← taken, ← taken']; rfl, L', h'⟩

/-- From any state of any run, the pre-hook empties the low-priority queue five sockets per
iteration, the latest parked first, as long as nothing new is parked: the socket at position `i`
of the queue is promoted by the `(i / 5 + 1)`-th pre-hook and by none before it. -/
theorem reachable_preHooks_promote {st : Loop} {L₀ : Nat → List Nat} (start : Start st L₀)
    {w : World} (reach : Reachable Env.ReturnsUnparked st w) :
    ∃ Q, w.loop.sockets.Holds w.loop.lowPrioHead Q ∧
      (∀ k, (w.loop.preHooks k).2 = Q.take (5 * k) ∧
        ∃ L, (w.loop.preHooks k).1.Placed L (Q.drop (5 * k))) ∧
      ∀ i (hi : i < Q.length),
        Q[i] ∈ (w.loop.preHooks (i / 5 + 1)).2 ∧ Q[i] ∉ (w.loop.preHooks (i / 5)).2 := by
  obtain ⟨L, Q, ⟨placed, -, -⟩⟩ := reach.inv start
  have hooks := fun k => placed.preHooks k
  refine ⟨Q, placed.queue, hooks, fun i hi => ⟨?_, ?_⟩⟩
  · rw [(hooks _).1]
    exact List.mem_take_iff_getElem.mpr ⟨i, by omega, rfl⟩
  · rw [(hooks _).1]
    have later : Q[i] ∈ Q.drop (5 * (i / 5)) :=
      List.mem_drop_iff_getElem.mpr ⟨i - 5 * (i / 5), by omega,
        by simp only [Nat.add_sub_cancel' (Nat.mul_div_le i 5)]⟩
    exact fun earlier => List.disjoint_take_drop placed.queue.nodup le_rfl earlier later

theorem reachable_preHooks_promote_parkedOne :
    Start Loop.oneSocket (update (fun _ => []) 0 [1]) ∧
      Reachable Env.ReturnsUnparked Loop.oneSocket World.parkedOne ∧
      ∃ Q, World.parkedOne.loop.sockets.Holds World.parkedOne.loop.lowPrioHead Q ∧
        (∀ k, (World.parkedOne.loop.preHooks k).2 = Q.take (5 * k) ∧
          ∃ L, (World.parkedOne.loop.preHooks k).1.Placed L (Q.drop (5 * k))) ∧
        ∀ i (hi : i < Q.length),
          Q[i] ∈ (World.parkedOne.loop.preHooks (i / 5 + 1)).2 ∧
            Q[i] ∉ (World.parkedOne.loop.preHooks (i / 5)).2 :=
  ⟨start_oneSocket, reachable_parkedOne (returnsUnparked_nil _ _ _ _ _),
    reachable_preHooks_promote start_oneSocket
      (reachable_parkedOne (returnsUnparked_nil _ _ _ _ _))⟩

/-- The parked socket 1 comes back at the first pre-hook. -/
example : (World.parkedOne.loop.preHooks 1).2 = [1] := rfl

end BunLoop
