import BunLoop.ContextLists

/-!
# The low-priority queue

Past the iteration's budget, a readable low-priority socket is parked (`park`) at the head of the
loop's low-priority queue with `low_prio_state` 1; the pre-hook refills the budget and promotes
sockets from the head of the queue back into their contexts (`promoteOne`) with
`low_prio_state` 2, which the next admission test lets through once without budget.
-/

namespace BunLoop

open Function

def maxLowPrioSocketsPerLoopIteration : Int := 5

namespace Loop

def setLowPrioState (st : Loop) (s v : Nat) : Loop :=
  { st with lowPrioState := update st.lowPrioState s v }

/-- The parking branch of `us_internal_dispatch_ready_poll`. -/
def park (st : Loop) (s : Nat) : Loop :=
  let c := st.context s
  let st := (st.pollChange s (st.events s).onlyWritable).contextRef c
  let st := st.unlinkSocket c s
  let st := { st with sockets := st.sockets.pushFront st.lowPrioHead s, lowPrioHead := some s }
  st.setLowPrioState s 1

/-- One pass of the promotion loop on the queue's head `s`: take it off the queue, link it into
its context, poll for readable again, `low_prio_state = 2`, and `low_prio_budget--`. -/
def promoteOne (st : Loop) (s : Nat) : Loop :=
  let r := st.sockets.popFront s
  let st := { st with sockets := r.1, lowPrioHead := r.2 }
  let st := st.linkSocket (st.context s) s
  let st := (st.pollChange s (st.events s).withReadable).setLowPrioState s 2
  { st with lowPrioBudget := st.lowPrioBudget - 1 }

/-- The promotion loop `for (s = low_prio_head; s && low_prio_budget > 0; ...)`, given fuel for
the passes it may make; with the heap it returns the sockets it promoted, in order. -/
def promoteLoop : Nat → Loop → Loop × List Nat
  | 0, st => (st, [])
  | fuel + 1, st =>
    match st.lowPrioHead with
    | some s =>
      if 0 < st.lowPrioBudget then
        let r := promoteLoop fuel (st.promoteOne s)
        (r.1, s :: r.2)
      else (st, [])
    | none => (st, [])

/-- `us_internal_handle_low_priority_sockets`: refill the budget, then promote. The loop makes at
most `MAX_LOW_PRIO_SOCKETS_PER_LOOP_ITERATION` passes, each spending one unit of budget. -/
def handleLowPrioritySockets (st : Loop) : Loop × List Nat :=
  promoteLoop maxLowPrioSocketsPerLoopIteration.toNat
    { st with lowPrioBudget := maxLowPrioSocketsPerLoopIteration }

end Loop

/-- How the readable phase of a dispatch treated a socket: `is_low_prio` said no; delayed earlier
and promoted (`low_prio_state` 2 becomes 0, no budget spent); admitted by spending one unit of
`low_prio_budget`; or parked on the low-priority queue, and nothing is received. -/
inductive Admission
  | normal
  | promoted
  | budget
  | parked
  deriving DecidableEq, Repr

/-- The admission test of the readable phase, given the answer of `context->is_low_prio(s)`. -/
def admission (st : Loop) (s : Nat) (lowPrio : Bool) : Loop × Admission :=
  if lowPrio then
    if st.lowPrioState s = 2 then (st.setLowPrioState s 0, .promoted)
    else if 0 < st.lowPrioBudget then
      ({ st with lowPrioBudget := st.lowPrioBudget - 1 }, .budget)
    else (st.park s, .parked)
  else (st, .normal)

/-! ## The promotion loop -/

namespace Loop

variable {st : Loop} {s : Nat}

theorem promoteLoop_of_none (h : st.lowPrioHead = none) : ∀ n, promoteLoop n st = (st, [])
  | 0 => rfl
  | n + 1 => by simp [promoteLoop, h]

theorem promoteLoop_of_not_pos (budget : ¬0 < st.lowPrioBudget) : ∀ n, promoteLoop n st = (st, [])
  | 0 => rfl
  | n + 1 => by cases h : st.lowPrioHead <;> simp [promoteLoop, h, budget]

theorem promoteLoop_of_some (h : st.lowPrioHead = some s) (budget : 0 < st.lowPrioBudget)
    (n : Nat) :
    promoteLoop (n + 1) st =
      ((promoteLoop n (st.promoteOne s)).1, s :: (promoteLoop n (st.promoteOne s)).2) := by
  simp [promoteLoop, h, budget]

@[simp] theorem park_lowPrioHead : (st.park s).lowPrioHead = some s := rfl

theorem park_next : (st.park s).sockets.next s = st.lowPrioHead := by
  simp [park, setLowPrioState, Links.pushFront, pollChange, contextRef, unlinkSocket]

theorem promoteOne_lowPrioHead : (st.promoteOne s).lowPrioHead = st.sockets.next s :=
  Links.popFront_head _ _

@[simp] theorem promoteOne_closed : (st.promoteOne s).closed = st.closed := rfl
@[simp] theorem promoteOne_linkRef : (st.promoteOne s).linkRef = st.linkRef := rfl
@[simp] theorem park_closed : (st.park s).closed = st.closed := rfl

theorem promoteOne_context : (st.promoteOne s).context s = st.context s := by
  simp [promoteOne, linkSocket, setLowPrioState, pollChange]

@[simp] theorem promoteOne_lowPrioState : (st.promoteOne s).lowPrioState s = 2 := by
  simp [promoteOne, setLowPrioState]

/-- A socket parked on an empty queue is the one socket the next pre-hook promotes. -/
theorem handleLowPrioritySockets_park (empty : st.lowPrioHead = none) :
    (st.park s).handleLowPrioritySockets =
      ({ st.park s with lowPrioBudget := maxLowPrioSocketsPerLoopIteration }.promoteOne s,
        [s]) := by
  rw [handleLowPrioritySockets, show maxLowPrioSocketsPerLoopIteration.toNat = 4 + 1 from rfl,
    promoteLoop_of_some rfl (show (0 : Int) < 5 by decide),
    promoteLoop_of_none (by rw [promoteOne_lowPrioHead, ← empty]; exact park_next) 4]

end Loop

/-! ## What the admission test and the promotion loop spend -/

namespace Loop

variable {st : Loop} {s : Nat}

@[simp] theorem park_lowPrioBudget : (st.park s).lowPrioBudget = st.lowPrioBudget := rfl
@[simp] theorem promoteOne_lowPrioBudget :
    (st.promoteOne s).lowPrioBudget = st.lowPrioBudget - 1 := rfl

theorem park_lowPrioState_eq : (st.park s).lowPrioState = update st.lowPrioState s 1 := rfl
theorem park_events : (st.park s).events = update st.events s (st.events s).onlyWritable := rfl
theorem promoteOne_events :
    (st.promoteOne s).events = update st.events s (st.events s).withReadable := rfl
theorem promoteOne_context_eq : (st.promoteOne s).context = st.context := by
  simp [promoteOne, linkSocket, setLowPrioState, pollChange]
theorem promoteOne_lowPrioState_eq :
    (st.promoteOne s).lowPrioState = update st.lowPrioState s 2 := rfl

end Loop

/-- The four outcomes of the admission test, each with the heap it leaves. -/
theorem admission_cases (st : Loop) (s : Nat) (lowPrio : Bool) :
    (lowPrio = true ∧ st.lowPrioState s = 2 ∧
        admission st s lowPrio = (st.setLowPrioState s 0, .promoted)) ∨
      (st.lowPrioState s ≠ 2 ∧ 0 < st.lowPrioBudget ∧
        admission st s lowPrio = ({ st with lowPrioBudget := st.lowPrioBudget - 1 }, .budget)) ∨
      (lowPrio = true ∧ st.lowPrioState s ≠ 2 ∧ admission st s lowPrio = (st.park s, .parked)) ∨
      admission st s lowPrio = (st, .normal) := by
  unfold admission
  cases lowPrio
  · exact .inr (.inr (.inr rfl))
  · by_cases two : st.lowPrioState s = 2
    · exact .inl ⟨rfl, two, by simp [two]⟩
    · by_cases pos : 0 < st.lowPrioBudget
      · exact .inr (.inl ⟨two, pos, by simp [two, pos]⟩)
      · exact .inr (.inr (.inl ⟨rfl, two, by simp [two, pos]⟩))

theorem admission_closed (st : Loop) (s : Nat) (lowPrio : Bool) :
    (admission st s lowPrio).1.closed = st.closed := by
  rcases admission_cases st s lowPrio with ⟨-, -, h⟩ | ⟨-, -, h⟩ | ⟨-, -, h⟩ | h <;> rw [h] <;> rfl

namespace Loop

variable (st : Loop) (s : Nat)

@[simp] theorem park_context : (st.park s).context = st.context := rfl
@[simp] theorem park_linkRef : (st.park s).linkRef = st.linkRef := rfl

theorem park_refCount :
    (st.park s).refCount =
      update st.refCount (st.context s) (st.refCount (st.context s) + 1 - st.linkRef) := by
  simp [park, unlinkSocket, contextRef, pollChange, setLowPrioState]

theorem promoteOne_refCount :
    (st.promoteOne s).refCount =
      update st.refCount (st.context s) (st.refCount (st.context s) + st.linkRef) := by
  simp [promoteOne, linkSocket, pollChange, setLowPrioState]

theorem socketClose_refCount (open_ : st.closed s = false) (linked : st.lowPrioState s ≠ 1) :
    (st.socketClose s).refCount =
      update st.refCount (st.context s) (st.refCount (st.context s) - st.linkRef) := by
  simp [socketClose, open_, linked, unlinkSocket]

/-- Parking a socket and then promoting it, whatever the budget, leaves its context one reference
up, whatever amount linking and unlinking move the count by: nothing releases the reference taken
at parking. -/
theorem promoteOne_park_refCount (budget : Int) :
    ({ st.park s with lowPrioBudget := budget }.promoteOne s).refCount (st.context s) =
      st.refCount (st.context s) + 1 := by
  rw [promoteOne_refCount]
  simp [park_refCount]

end Loop

/-- A socket parked while the low-priority queue is empty, promoted at the next pre-hook and then
closed: the promotion leaves its context one reference above its count before parking, and the
close one above its count before the socket was linked (its count less `linkRef`), whatever amount
`linkRef` linking and unlinking move the count by. -/
theorem park_promote_close_refCount (st : Loop) (s : Nat) (empty : st.lowPrioHead = none)
    (open_ : st.closed s = false) :
    (st.park s).handleLowPrioritySockets.1.refCount (st.context s) =
        st.refCount (st.context s) + 1 ∧
      ((st.park s).handleLowPrioritySockets.1.socketClose s).refCount (st.context s) =
        st.refCount (st.context s) - st.linkRef + 1 := by
  rw [Loop.handleLowPrioritySockets_park empty]
  have cycle := Loop.promoteOne_park_refCount st s maxLowPrioSocketsPerLoopIteration
  refine ⟨cycle, ?_⟩
  rw [Loop.socketClose_refCount _ _ (by simpa using open_) (by simp), Loop.promoteOne_context,
    Loop.park_context, update_same, cycle, Loop.promoteOne_linkRef, Loop.park_linkRef]
  omega

/-- Socket 1 of context 0, linked once into a fresh loop: 1 reference after the cycle's promotion
(2) and after the close (1), where linking alone left 1 and the fresh loop had 0. -/
theorem park_promote_close_refCount_linked :
    (Loop.init.linkSocket 0 1).lowPrioHead = none ∧ (Loop.init.linkSocket 0 1).closed 1 = false ∧
      ((Loop.init.linkSocket 0 1).park 1).handleLowPrioritySockets.1.refCount 0 = 1 + 1 ∧
      (((Loop.init.linkSocket 0 1).park 1).handleLowPrioritySockets.1.socketClose 1).refCount 0 =
        1 - 1 + 1 :=
  ⟨rfl, rfl, park_promote_close_refCount (Loop.init.linkSocket 0 1) 1 rfl rfl⟩

end BunLoop
