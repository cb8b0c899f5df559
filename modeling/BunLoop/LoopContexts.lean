import BunLoop.Loop

/-!
# The loop's context list

`us_internal_loop_link` and `us_internal_loop_unlink` are `pushFront` and `unlink` of `Links` on
the contexts' `next`/`prev` fields, so any run of them from an empty list keeps it finite,
acyclic and doubly linked (`loopContexts_doubly_linked`).
-/

namespace BunLoop

open Function

namespace Loop

def loopLink (st : Loop) (c : Nat) : Loop :=
  { st with contexts := st.contexts.pushFront st.head c, head := some c }

def loopUnlink (st : Loop) (c : Nat) : Loop :=
  let r := st.contexts.unlink st.head c
  { st with contexts := r.1, head := r.2 }

/-- Modelled from the spec: the destruction of a context (in `context.c`, not in the sources)
unlinks it from the loop and places it on the closed-context list, through its `next` field, to
be freed at the next post-hook. -/
def contextFree (st : Loop) (c : Nat) : Loop :=
  let st := st.loopUnlink c
  { st with
    contexts := { st.contexts with next := update st.contexts.next c st.closedContextHead }
    closedContextHead := some c }

def freeClosedContexts (st : Loop) : Loop := { st with closedContextHead := none }

end Loop

/-! ## Runs of links and unlinks -/

inductive ContextOp
  | link (c : Nat)
  | unlink (c : Nat)
  deriving DecidableEq, Repr

namespace ContextOp

/-- What the context list is meant to hold after the call: `link` prepends the context and
`unlink` erases it. -/
def apply (l : List Nat) : ContextOp → List Nat
  | link c => c :: l
  | unlink c => l.erase c

/-- The calls the code expects, from the contexts `l` on: `link` on a context not in the list,
`unlink` on one in it. -/
def Allowed : List Nat → List ContextOp → Prop
  | _, [] => True
  | l, link c :: ops => c ∉ l ∧ Allowed (c :: l) ops
  | l, unlink c :: ops => c ∈ l ∧ Allowed (l.erase c) ops

instance decidableAllowed : ∀ l ops, Decidable (Allowed l ops)
  | _, [] => isTrue trivial
  | l, link c :: ops =>
    have := decidableAllowed (c :: l) ops
    inferInstanceAs (Decidable (c ∉ l ∧ _))
  | l, unlink c :: ops =>
    have := decidableAllowed (l.erase c) ops
    inferInstanceAs (Decidable (c ∈ l ∧ _))

end ContextOp

namespace Loop

def contextOp (st : Loop) : ContextOp → Loop
  | .link c => st.loopLink c
  | .unlink c => st.loopUnlink c

variable {st : Loop} {l : List Nat} {c : Nat}

theorem loopLink_holds (h : st.contexts.Holds st.head l) (fresh : c ∉ l) :
    (st.loopLink c).contexts.Holds (st.loopLink c).head (c :: l) :=
  Links.pushFront_holds h fresh

theorem loopUnlink_holds (h : st.contexts.Holds st.head l) (mem : c ∈ l) :
    (st.loopUnlink c).contexts.Holds (st.loopUnlink c).head (l.erase c) :=
  Links.unlink_holds h mem

theorem runContextOps_holds : ∀ (ops : List ContextOp) (st : Loop) (l : List Nat),
    st.contexts.Holds st.head l → ContextOp.Allowed l ops →
    (ops.foldl contextOp st).contexts.Holds (ops.foldl contextOp st).head
      (ops.foldl ContextOp.apply l)
  | [], _, _, h, _ => h
  | .link _ :: ops, _, _, h, ⟨fresh, rest⟩ =>
    runContextOps_holds ops _ _ (loopLink_holds h fresh) rest
  | .unlink _ :: ops, _, _, h, ⟨mem, rest⟩ =>
    runContextOps_holds ops _ _ (loopUnlink_holds h mem) rest

end Loop

/-- From an empty context list, any run of `us_internal_loop_link` on contexts not in the list
and `us_internal_loop_unlink` on contexts in it leaves a list that is finite and acyclic (a path to
NULL through distinct contexts) and doubly linked (`head->prev == NULL`, `x->next->prev == x`,
`x->prev->next == x`), and that holds the contexts of the abstract list in which `link` prepends
and `unlink` erases, in its order. The contexts' stale `next` and `prev` are arbitrary. -/
theorem loopContexts_doubly_linked (st : Loop) (empty : st.head = none) (ops : List ContextOp)
    (allowed : ContextOp.Allowed [] ops) :
    (ops.foldl Loop.contextOp st).contexts.Holds (ops.foldl Loop.contextOp st).head
        (ops.foldl ContextOp.apply []) ∧
      (ops.foldl ContextOp.apply []).Nodup ∧
      (∀ h, (ops.foldl Loop.contextOp st).head = some h →
        (ops.foldl Loop.contextOp st).contexts.prev h = none) ∧
      (∀ x ∈ ops.foldl ContextOp.apply [], ∀ y,
        (ops.foldl Loop.contextOp st).contexts.next x = some y →
          (ops.foldl Loop.contextOp st).contexts.prev y = some x) ∧
      (∀ x ∈ ops.foldl ContextOp.apply [], ∀ y,
        (ops.foldl Loop.contextOp st).contexts.prev x = some y →
          (ops.foldl Loop.contextOp st).contexts.next y = some x) := by
  have h := Loop.runContextOps_holds ops st [] ⟨empty ▸ .nil, trivial⟩ allowed
  exact ⟨h, h.nodup, fun _ e => (e ▸ h).head_prev, fun _ hx _ => h.prev_next hx,
    fun _ hx _ => h.next_prev hx⟩


def linkThreeUnlinkMiddle : List ContextOp := [.link 1, .link 2, .link 3, .unlink 2]

theorem loopContexts_doubly_linked_unlinkMiddle :
    Loop.init.head = none ∧ ContextOp.Allowed [] linkThreeUnlinkMiddle ∧
      (linkThreeUnlinkMiddle.foldl Loop.contextOp Loop.init).contexts.Holds
          (linkThreeUnlinkMiddle.foldl Loop.contextOp Loop.init).head
          (linkThreeUnlinkMiddle.foldl ContextOp.apply []) ∧
        (linkThreeUnlinkMiddle.foldl ContextOp.apply []).Nodup ∧
        (∀ h, (linkThreeUnlinkMiddle.foldl Loop.contextOp Loop.init).head = some h →
          (linkThreeUnlinkMiddle.foldl Loop.contextOp Loop.init).contexts.prev h = none) ∧
        (∀ x ∈ linkThreeUnlinkMiddle.foldl ContextOp.apply [], ∀ y,
          (linkThreeUnlinkMiddle.foldl Loop.contextOp Loop.init).contexts.next x = some y →
            (linkThreeUnlinkMiddle.foldl Loop.contextOp Loop.init).contexts.prev y = some x) ∧
        (∀ x ∈ linkThreeUnlinkMiddle.foldl ContextOp.apply [], ∀ y,
          (linkThreeUnlinkMiddle.foldl Loop.contextOp Loop.init).contexts.prev x = some y →
            (linkThreeUnlinkMiddle.foldl Loop.contextOp Loop.init).contexts.next y = some x) :=
  ⟨rfl, by decide, loopContexts_doubly_linked Loop.init rfl _ (by decide)⟩

/-- The list left is 3, 1, and 3's `next` skips the unlinked 2. -/
example : linkThreeUnlinkMiddle.foldl ContextOp.apply [] = [3, 1] ∧
    (linkThreeUnlinkMiddle.foldl Loop.contextOp Loop.init).contexts.next 3 = some 1 ∧
    (linkThreeUnlinkMiddle.foldl Loop.contextOp Loop.init).contexts.prev 1 = some 3 :=
  ⟨rfl, rfl, rfl⟩

end BunLoop
