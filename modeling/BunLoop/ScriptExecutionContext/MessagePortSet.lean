import Mathlib.Data.List.Nodup

/-!
# The message ports of a context

`dispatchMessagePortEvents` walks a frozen copy of `m_messagePorts` and calls `dispatchMessages`
on each port of the copy still in the set and started; the listeners may create, destroy, start
or stop ports. Ports are named by address, as the loop tests them, so a port created at a
destroyed port's address is that address here (`dispatchPorts_frozen`).
-/

namespace BunLoop

open Function

/-- `m_messagePorts`, a `HashSet` of ports named by address, with each port's `started()`. -/
structure MessagePorts where
  ports : List Nat
  nodup : ports.Nodup
  started : Nat → Bool

/-- What a port's listeners do to the context's ports: create a port (`createdMessagePort`),
destroy one (`destroyedMessagePort`), or start or stop one (`MessagePort::start` and `close`,
outside the sources). -/
inductive PortOp
  | created (p : Nat)
  | destroyed (p : Nat)
  | setStarted (p : Nat) (b : Bool)
  deriving DecidableEq, Repr

namespace MessagePorts

def createdMessagePort (m : MessagePorts) (p : Nat) : MessagePorts :=
  if h : p ∈ m.ports then m else ⟨p :: m.ports, List.nodup_cons.mpr ⟨h, m.nodup⟩, m.started⟩

def destroyedMessagePort (m : MessagePorts) (p : Nat) : MessagePorts :=
  ⟨m.ports.erase p, m.nodup.erase p, m.started⟩

def apply (m : MessagePorts) : PortOp → MessagePorts
  | .created p => m.createdMessagePort p
  | .destroyed p => m.destroyedMessagePort p
  | .setStarted p b => { m with started := update m.started p b }

/-- `messagePort->dispatchMessages()`: the listeners of `p`, given the ports as they are, do the
operations `listeners m p`. -/
def dispatchMessages (listeners : MessagePorts → Nat → List PortOp) (m : MessagePorts) (p : Nat) :
    MessagePorts :=
  (listeners m p).foldl apply m

/-- The walk of `dispatchMessagePortEvents` over the frozen copy `copy`: each port of the copy
still in the set and started gets `dispatchMessages`. Returns the ports after the walk and the
ports dispatched, in order. -/
def dispatchPorts (listeners : MessagePorts → Nat → List PortOp) :
    List Nat → MessagePorts → MessagePorts × List Nat
  | [], m => (m, [])
  | p :: copy, m =>
    if p ∈ m.ports ∧ m.started p = true then
      let r := dispatchPorts listeners copy (m.dispatchMessages listeners p)
      (r.1, p :: r.2)
    else dispatchPorts listeners copy m

/-- The port walk of `dispatchMessagePortEvents`, over `copyToVector(m_messagePorts)` (here in
the order the set is listed). -/
def dispatchMessagePortEvents (listeners : MessagePorts → Nat → List PortOp) (m : MessagePorts) :
    MessagePorts × List Nat :=
  dispatchPorts listeners m.ports m

variable {listeners : MessagePorts → Nat → List PortOp} {p : Nat}

theorem apply_keeps {m : MessagePorts} {op : PortOp} (hd : op ≠ .destroyed p)
    (hs : op ≠ .setStarted p false) (h : p ∈ m.ports ∧ m.started p = true) :
    p ∈ (m.apply op).ports ∧ (m.apply op).started p = true := by
  cases op with
  | created q =>
    dsimp only [apply, createdMessagePort]
    split
    · exact h
    · exact ⟨List.mem_cons_of_mem _ h.1, h.2⟩
  | destroyed q =>
    have ne : p ≠ q := fun e => hd (e ▸ rfl)
    exact ⟨(List.mem_erase_of_ne ne).mpr h.1, h.2⟩
  | setStarted q b =>
    refine ⟨h.1, ?_⟩
    by_cases e : p = q
    · subst e
      cases b
      · exact absurd rfl hs
      · exact update_same _ _ _
    · exact (update_noteq e _ _).trans h.2

theorem dispatchMessages_keeps
    (never : ∀ m q, .destroyed p ∉ listeners m q ∧ .setStarted p false ∉ listeners m q)
    {m : MessagePorts} (q : Nat) (h : p ∈ m.ports ∧ m.started p = true) :
    p ∈ (m.dispatchMessages listeners q).ports ∧
      (m.dispatchMessages listeners q).started p = true := by
  have ops := never m q
  unfold dispatchMessages
  generalize listeners m q = l at ops
  induction l generalizing m with
  | nil => exact h
  | cons op l ih =>
    obtain ⟨hd, hs⟩ := ops
    rw [List.mem_cons, not_or] at hd hs
    exact ih (apply_keeps (Ne.symm hd.1) (Ne.symm hs.1) h) ⟨hd.2, hs.2⟩

theorem dispatchPorts_sublist (copy : List Nat) :
    ∀ m : MessagePorts, (dispatchPorts listeners copy m).2.Sublist copy := by
  induction copy with
  | nil => intro m; exact List.Sublist.slnil
  | cons q copy ih =>
    intro m
    unfold dispatchPorts
    split
    · exact (ih _).cons₂ q
    · exact (ih m).cons q

/-- A port of the copy that stays in the set and started whatever the listeners do is
dispatched. -/
theorem dispatchPorts_reaches
    (never : ∀ m q, .destroyed p ∉ listeners m q ∧ .setStarted p false ∉ listeners m q)
    (copy : List Nat) (hp : p ∈ copy) :
    ∀ m : MessagePorts, p ∈ m.ports ∧ m.started p = true →
      p ∈ (dispatchPorts listeners copy m).2 := by
  induction copy with
  | nil => cases hp
  | cons q copy ih =>
    intro m h
    unfold dispatchPorts
    by_cases e : p = q
    · subst e
      rw [if_pos h]
      exact List.mem_cons_self _ _
    have rest := (List.mem_cons.mp hp).resolve_left e
    split
    · exact List.mem_cons_of_mem _ (ih rest _ (dispatchMessages_keeps never q h))
    · exact ih rest m h

/-- Whatever the listeners do to the ports, and in whatever order the frozen copy lists the set,
the walk of `dispatchMessagePortEvents` calls `dispatchMessages` at most once per address, only at
addresses that held a port of the set when the walk began (a port created there after the old one
was destroyed may get that call; an address the walk's calls first gave a port gets none), and on
every port in the set and started at the start that no listener destroys or stops. -/
theorem dispatchPorts_frozen (listeners : MessagePorts → Nat → List PortOp) (m : MessagePorts)
    (copy : List Nat) (frozen : copy.Perm m.ports) :
    (dispatchPorts listeners copy m).2.Nodup ∧
      (∀ p ∈ (dispatchPorts listeners copy m).2, p ∈ m.ports) ∧
      ∀ p ∈ m.ports, m.started p = true →
        (∀ m' q, .destroyed p ∉ listeners m' q ∧ .setStarted p false ∉ listeners m' q) →
        p ∈ (dispatchPorts listeners copy m).2 := by
  have sub : (dispatchPorts listeners copy m).2.Sublist copy := dispatchPorts_sublist copy m
  refine ⟨sub.nodup (frozen.nodup_iff.mpr m.nodup), fun p hp => frozen.mem_iff.mp (sub.subset hp),
    fun p hp started never =>
      dispatchPorts_reaches never copy (frozen.mem_iff.mpr hp) m ⟨hp, started⟩⟩

end MessagePorts

def threePorts : MessagePorts := ⟨[1, 2, 3], by decide, fun _ => true⟩

/-- The listeners of port 1 destroy port 2 and create a started port 4; the others do nothing. -/
def destroyTwoCreateFour : MessagePorts → Nat → List PortOp
  | _, 1 => [.destroyed 2, .created 4, .setStarted 4 true]
  | _, _ => []

theorem dispatchPorts_frozen_destroyTwoCreateFour :
    [3, 1, 2].Perm threePorts.ports ∧
      ((MessagePorts.dispatchPorts destroyTwoCreateFour [3, 1, 2] threePorts).2.Nodup ∧
        (∀ p ∈ (MessagePorts.dispatchPorts destroyTwoCreateFour [3, 1, 2] threePorts).2,
          p ∈ threePorts.ports) ∧
        ∀ p ∈ threePorts.ports, threePorts.started p = true →
          (∀ m' q, .destroyed p ∉ destroyTwoCreateFour m' q ∧
            .setStarted p false ∉ destroyTwoCreateFour m' q) →
          p ∈ (MessagePorts.dispatchPorts destroyTwoCreateFour [3, 1, 2] threePorts).2) :=
  ⟨by decide, MessagePorts.dispatchPorts_frozen _ _ _ (by decide)⟩

/-- Port 2, destroyed by port 1's listeners, and port 4, created by them, are not dispatched. -/
example : (MessagePorts.dispatchPorts destroyTwoCreateFour [3, 1, 2] threePorts).2 = [3, 1] := by
  decide

end BunLoop
