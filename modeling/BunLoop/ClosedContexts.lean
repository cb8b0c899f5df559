import BunLoop.Placement.Closed
import BunLoop.LoopContexts

/-!
# The closed-context list and the post-hook

A destroyed context is unlinked from the loop's list and pushed on the closed-context list
through the same `next` field; `us_internal_free_closed_contexts` walks that list and frees it.
Along every run of creations, destructions and post-hooks, the walk ends and frees exactly the
destroyed contexts, each once (`contextReachable_closed_contexts`).
-/

namespace BunLoop

open Function

/-- Where a context's memory is: not allocated, in the loop's context list, or on the
closed-context list waiting for the post-hook. Ghost state: the code keeps no such field. -/
inductive ContextStatus
  | unallocated
  | linked
  | closed
  deriving DecidableEq, Repr

namespace Loop

/-- The contexts `us_internal_free_closed_contexts` hands to `us_free`, in order: the walk from
`closed_context_head` along `next`; `none` when `fuel` runs out first. -/
def closedContextsFreed (st : Loop) (fuel : Nat) : Option (List Nat) :=
  freeWalk st.contexts.next fuel st.closedContextHead

theorem contextFree_next (st : Loop) (c : Nat) :
    (st.contextFree c).contexts.next =
      update (st.loopUnlink c).contexts.next c st.closedContextHead :=
  rfl

end Loop

structure ContextHeap where
  loop : Loop
  status : Nat → ContextStatus

/-- One step of a run on the contexts: a context created at an address not allocated and linked
at the head of the loop (`us_internal_loop_link`), a linked context destroyed
(`Loop.contextFree`), or the post-hook (`us_internal_free_closed_contexts`), which frees what its
walk hands to `us_free`. -/
inductive ContextTick : ContextHeap → ContextHeap → Prop
  | create {h : ContextHeap} (c : Nat) (fresh : h.status c = .unallocated) :
      ContextTick h ⟨h.loop.loopLink c, update h.status c .linked⟩
  | free {h : ContextHeap} (c : Nat) (linked : h.status c = .linked) :
      ContextTick h ⟨h.loop.contextFree c, update h.status c .closed⟩
  | post {h : ContextHeap} {freed : List Nat} (fuel : Nat)
      (run : h.loop.closedContextsFreed fuel = some freed) :
      ContextTick h ⟨h.loop.freeClosedContexts,
        fun y => if y ∈ freed then .unallocated else h.status y⟩

def ContextReachable (st : Loop) : ContextHeap → Prop :=
  Relation.ReflTransGen ContextTick ⟨st, fun _ => .unallocated⟩

namespace ContextHeap

/-- The loop's list holds `l`, the chain from `closed_context_head` is `C`, and the two hold
exactly the linked and the destroyed contexts. -/
structure Inv (h : ContextHeap) (l C : List Nat) : Prop where
  list : h.loop.contexts.Holds h.loop.head l
  closedPath : Path h.loop.contexts.next none h.loop.closedContextHead C
  linked : ∀ y, y ∈ l ↔ h.status y = .linked
  closed : ∀ y, y ∈ C ↔ h.status y = .closed

variable {h : ContextHeap} {l C : List Nat}

theorem Inv.ne_of_closed (i : h.Inv l C) {x y : Nat} (hy : y ∈ C) (hx : x ∈ l) : y ≠ x := by
  rintro rfl
  have := ((i.linked y).mp hx).symm.trans ((i.closed y).mp hy)
  cases this

theorem Inv.create (i : h.Inv l C) (c : Nat) (fresh : h.status c = .unallocated) :
    Inv ⟨h.loop.loopLink c, update h.status c .linked⟩ (c :: l) C := by
  have notL : c ∉ l := fun hc => by simp [(i.linked c).mp hc] at fresh
  have notC : c ∉ C := fun hc => by simp [(i.closed c).mp hc] at fresh
  refine ⟨Loop.loopLink_holds i.list notL, i.closedPath.congr fun y hy =>
    (Links.pushFront_agree (ne_of_mem_of_not_mem hy notC) fun n hn =>
      i.ne_of_closed hy (i.list.head_mem hn)).1, fun y => ?_, fun y => ?_⟩
  · by_cases e : y = c
    · subst e
      simp
    · simp [update_noteq e, i.linked y, e]
  · by_cases e : y = c
    · subst e
      simp [notC]
    · simp [update_noteq e, i.closed y]

theorem Inv.free (i : h.Inv l C) (c : Nat) (linked : h.status c = .linked) :
    Inv ⟨h.loop.contextFree c, update h.status c .closed⟩ (l.erase c) (c :: C) := by
  have cl : c ∈ l := (i.linked c).mpr linked
  have notErase : c ∉ l.erase c := i.list.nodup.not_mem_erase
  refine ⟨(Loop.loopUnlink_holds i.list cl).congr fun y hy =>
      ⟨update_noteq (ne_of_mem_of_not_mem hy notErase) _ _, rfl⟩, .cons ?_, fun y => ?_,
    fun y => ?_⟩
  · show Path (h.loop.contextFree c).contexts.next none
      ((h.loop.contextFree c).contexts.next c) C
    rw [Loop.contextFree_next, update_same]
    exact i.closedPath.congr fun y hy => (update_noteq (i.ne_of_closed hy cl) _ _).trans
      (Links.unlink_agree i.list cl (.inr fun yl => i.ne_of_closed hy yl rfl)).1
  · by_cases e : y = c
    · subst e
      simp [notErase]
    · simp [update_noteq e, List.mem_erase_of_ne e, i.linked y]
  · by_cases e : y = c
    · subst e
      simp
    · simp [update_noteq e, i.closed y, e]

theorem Inv.post (i : h.Inv l C) {fuel : Nat} {freed : List Nat}
    (run : h.loop.closedContextsFreed fuel = some freed) :
    Inv ⟨h.loop.freeClosedContexts, fun y => if y ∈ freed then .unallocated else h.status y⟩
      l [] := by
  obtain rfl : freed = C := (freeWalk_path _ _ _ run).unique i.closedPath
  refine ⟨i.list, .nil, fun y => ?_, fun y => ?_⟩
  · dsimp only
    split_ifs with hy
    · simpa using fun yl => i.ne_of_closed hy yl rfl
    · exact i.linked y
  · dsimp only
    split_ifs with hy
    · simp
    · simpa using mt (i.closed y).mpr hy

theorem ContextTick.inv {h' : ContextHeap} (i : h.Inv l C) (t : ContextTick h h') :
    ∃ l' C', h'.Inv l' C' := by
  cases t with
  | create c fresh => exact ⟨_, _, i.create c fresh⟩
  | free c linked => exact ⟨_, _, i.free c linked⟩
  | post fuel run => exact ⟨_, _, i.post run⟩

end ContextHeap

theorem ContextReachable.inv {st : Loop} (empty : st.head = none)
    (emptyClosed : st.closedContextHead = none) {h : ContextHeap} (reach : ContextReachable st h) :
    ∃ l C, h.Inv l C := by
  induction reach with
  | refl =>
    refine ⟨[], [], ⟨⟨?_, trivial⟩, ?_, fun _ => by simp, fun _ => by simp⟩⟩
    · show Path st.contexts.next none st.head []
      rw [empty]
      exact .nil
    · show Path st.contexts.next none st.closedContextHead []
      rw [emptyClosed]
      exact .nil
  | tail _ t ih =>
    obtain ⟨l, C, i⟩ := ih
    exact ContextHeap.ContextTick.inv i t

/-- Along every run of context creations, destructions and post-hooks from a loop with no
context: the loop's list is NULL-terminated and doubly linked and holds exactly the linked
contexts; the chain from `closed_context_head` holds, each once, exactly the destroyed contexts
not yet freed; and the post-hook's walk, given as many steps as the chain is long, ends, and every
walk that ends frees exactly that chain. So `us_internal_free_closed_contexts` never frees a
context still in the loop's list, never frees one twice, and leaves none behind. -/
theorem contextReachable_closed_contexts {st : Loop} (empty : st.head = none)
    (emptyClosed : st.closedContextHead = none) {h : ContextHeap} (reach : ContextReachable st h) :
    ∃ l C, h.loop.contexts.Holds h.loop.head l ∧
      Path h.loop.contexts.next none h.loop.closedContextHead C ∧ C.Nodup ∧
      (∀ y, y ∈ l ↔ h.status y = .linked) ∧ (∀ y, y ∈ C ↔ h.status y = .closed) ∧
      h.loop.closedContextsFreed C.length = some C ∧
      ∀ fuel freed, h.loop.closedContextsFreed fuel = some freed → freed = C := by
  obtain ⟨l, C, i⟩ := reach.inv empty emptyClosed
  exact ⟨l, C, i.list, i.closedPath, i.closedPath.nodup, i.linked, i.closed,
    freeWalk_of_path i.closedPath _ le_rfl,
    fun _ _ run => (freeWalk_path _ _ _ run).unique i.closedPath⟩

def ContextHeap.createTwoFreeOne : ContextHeap :=
  ⟨((Loop.init.loopLink 1).loopLink 2).contextFree 1,
    update (update (update (fun _ => .unallocated) 1 .linked) 2 .linked) 1 .closed⟩

theorem contextReachable_createTwoFreeOne :
    ContextReachable Loop.init ContextHeap.createTwoFreeOne :=
  .tail (.tail (.single (.create 1 rfl)) (.create 2 rfl)) (.free 1 rfl)

theorem contextReachable_closed_contexts_createTwoFreeOne :
    Loop.init.head = none ∧ Loop.init.closedContextHead = none ∧
      ContextReachable Loop.init ContextHeap.createTwoFreeOne ∧
      ∃ l C, ContextHeap.createTwoFreeOne.loop.contexts.Holds
          ContextHeap.createTwoFreeOne.loop.head l ∧
        Path ContextHeap.createTwoFreeOne.loop.contexts.next none
          ContextHeap.createTwoFreeOne.loop.closedContextHead C ∧ C.Nodup ∧
        (∀ y, y ∈ l ↔ ContextHeap.createTwoFreeOne.status y = .linked) ∧
        (∀ y, y ∈ C ↔ ContextHeap.createTwoFreeOne.status y = .closed) ∧
        ContextHeap.createTwoFreeOne.loop.closedContextsFreed C.length = some C ∧
        ∀ fuel freed, ContextHeap.createTwoFreeOne.loop.closedContextsFreed fuel = some freed →
          freed = C :=
  ⟨rfl, rfl, contextReachable_createTwoFreeOne,
    contextReachable_closed_contexts rfl rfl contextReachable_createTwoFreeOne⟩

/-- Context 2 is left in the loop, and the walk frees context 1 alone, though 1's `next` was
2 while it was linked. -/
example : ContextHeap.createTwoFreeOne.loop.head = some 2 ∧
    ContextHeap.createTwoFreeOne.loop.closedContextsFreed 5 = some [1] := by
  decide

end BunLoop
