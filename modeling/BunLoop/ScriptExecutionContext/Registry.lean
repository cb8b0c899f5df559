import Mathlib.Logic.Function.Basic
import Mathlib.Data.List.Nodup

/-!
# The registry of script execution contexts

Contexts register under their identifiers in `allScriptExecutionContextsMap()`, a WTF `HashMap`
whose `add` keeps the entry already there. `regenerateIdentifier` leaves the old entry behind
(`regenerateIdentifier_stale_entry`). Identifiers are drawn from the `unsigned` counter
`lastUniqueIdentifier` (`runCalls_drawn`), fresh for the first `2 ^ 31 - 3` draws
(`drawn_identifiers_fresh`) and repeated once it wraps (`lastUniqueIdentifier_wraps`).
-/

namespace BunLoop

open Function

def initialIdentifierInternal : UInt32 := 1

/-- `std::numeric_limits<int32_t>::max()`, which the constructor with an identifier reads as a
request for a fresh one. -/
def int32Max : UInt32 := 2147483647

/-- The map, the counter `lastUniqueIdentifier` (an `std::atomic<unsigned>`), each context's
`m_identifier`, and the contexts constructed and not yet destroyed. -/
structure Registry where
  map : UInt32 → Option Nat
  lastUniqueIdentifier : UInt32
  identifier : Nat → UInt32
  live : Nat → Bool

namespace Registry

def init : Registry := ⟨fun _ => none, initialIdentifierInternal, fun _ => 0, fun _ => false⟩

def generateIdentifier (r : Registry) : Registry × UInt32 :=
  ({ r with lastUniqueIdentifier := r.lastUniqueIdentifier + 1 }, r.lastUniqueIdentifier + 1)

/-- `addToContextsMap`: `HashMap::add(m_identifier, this)`, which leaves an entry already present
under the key. -/
def addToContextsMap (r : Registry) (c : Nat) : Registry :=
  match r.map (r.identifier c) with
  | some _ => r
  | none => { r with map := update r.map (r.identifier c) (some c) }

def removeFromContextsMap (r : Registry) (c : Nat) : Registry :=
  { r with map := update r.map (r.identifier c) none }

def create (r : Registry) (c : Nat) (id : UInt32) : Registry :=
  { r with identifier := update r.identifier c id, live := update r.live c true }.addToContextsMap c

/-- The constructor without an identifier, which takes `initialIdentifier()`. -/
def construct (r : Registry) (c : Nat) : Registry := r.create c initialIdentifierInternal

/-- The constructor with an identifier: `INT32_MAX` asks for `++lastUniqueIdentifier`. -/
def constructWithIdentifier (r : Registry) (c : Nat) (identifier : UInt32) : Registry :=
  if identifier = int32Max then
    let g := r.generateIdentifier
    g.1.create c g.2
  else r.create c identifier

def regenerateIdentifier (r : Registry) (c : Nat) : Registry :=
  let g := r.generateIdentifier
  { g.1 with identifier := update g.1.identifier c g.2 }.addToContextsMap c

/-- The destructor: the context is no longer alive (it touches no entry of the map). -/
def destroy (r : Registry) (c : Nat) : Registry := { r with live := update r.live c false }

/-- `getScriptExecutionContext`: identifier 0 is no context. -/
def getScriptExecutionContext (r : Registry) (identifier : UInt32) : Option Nat :=
  if identifier = 0 then none else r.map identifier

def getMainThreadScriptExecutionContext (r : Registry) : Option Nat := r.map 1

end Registry

/-- The main thread's context 0 regenerates its identifier: it is now registered twice, under 1
and 2. It removes itself (under 2) and is destroyed; the entry under 1 still leads to it, so
`getMainThreadScriptExecutionContext` (and `postTaskTo(1, ...)`) reach a destroyed context. -/
theorem regenerateIdentifier_stale_entry :
    ((Registry.init.construct 0).regenerateIdentifier 0).map 1 = some 0 ∧
      ((Registry.init.construct 0).regenerateIdentifier 0).map 2 = some 0 ∧
      ((Registry.init.construct 0).regenerateIdentifier 0).identifier 0 = 2 ∧
      (((Registry.init.construct 0).regenerateIdentifier 0).removeFromContextsMap 0
        |>.destroy 0).getMainThreadScriptExecutionContext = some 0 ∧
      (((Registry.init.construct 0).regenerateIdentifier 0).removeFromContextsMap 0
        |>.destroy 0).live 0 = false :=
  ⟨rfl, rfl, rfl, rfl, rfl⟩

/-! ## Drawing identifiers -/

inductive RegistryCall
  | construct (c : Nat)
  | constructWithIdentifier (c : Nat) (identifier : UInt32)
  | generateIdentifier
  | regenerateIdentifier (c : Nat)
  | removeFromContextsMap (c : Nat)
  | destroy (c : Nat)
  deriving DecidableEq, Repr

namespace Registry

@[simp] theorem addToContextsMap_lastUniqueIdentifier (r : Registry) (c : Nat) :
    (r.addToContextsMap c).lastUniqueIdentifier = r.lastUniqueIdentifier := by
  unfold addToContextsMap
  split <;> rfl

@[simp] theorem addToContextsMap_identifier (r : Registry) (c : Nat) :
    (r.addToContextsMap c).identifier = r.identifier := by
  unfold addToContextsMap
  split <;> rfl

/-- One call, and the identifier it draws from `lastUniqueIdentifier` if it draws one: the result
of `generateIdentifier`, or the new identifier of the context that `regenerateIdentifier` or the
constructor given `INT32_MAX` sets up. -/
def call (r : Registry) : RegistryCall → Registry × Option UInt32
  | .construct c => (r.construct c, none)
  | .constructWithIdentifier c identifier =>
    (r.constructWithIdentifier c identifier,
      if identifier = int32Max then some ((r.constructWithIdentifier c identifier).identifier c)
      else none)
  | .generateIdentifier => (r.generateIdentifier.1, some r.generateIdentifier.2)
  | .regenerateIdentifier c =>
    (r.regenerateIdentifier c, some ((r.regenerateIdentifier c).identifier c))
  | .removeFromContextsMap c => (r.removeFromContextsMap c, none)
  | .destroy c => (r.destroy c, none)

def runCalls (r : Registry) : List RegistryCall → Registry × List UInt32
  | [] => (r, [])
  | c :: cs => (((r.call c).1.runCalls cs).1, (r.call c).2.toList ++ ((r.call c).1.runCalls cs).2)

theorem call_draws (r : Registry) (c : RegistryCall) :
    ((r.call c).2 = none ∧ (r.call c).1.lastUniqueIdentifier = r.lastUniqueIdentifier) ∨
      ((r.call c).2 = some (r.lastUniqueIdentifier + 1) ∧
        (r.call c).1.lastUniqueIdentifier = r.lastUniqueIdentifier + 1) := by
  cases c with
  | constructWithIdentifier c identifier =>
    by_cases h : identifier = int32Max
    · exact .inr (by simp [call, constructWithIdentifier, h, create, generateIdentifier])
    · exact .inl (by simp [call, constructWithIdentifier, h, create])
  | generateIdentifier => exact .inr ⟨rfl, rfl⟩
  | regenerateIdentifier c => exact .inr (by simp [call, regenerateIdentifier, generateIdentifier])
  | construct => exact .inl (by simp [call, construct, create])
  | removeFromContextsMap => exact .inl ⟨rfl, rfl⟩
  | destroy => exact .inl ⟨rfl, rfl⟩

/-- A run draws the counter's next values in order, modulo `2 ^ 32`, and moves the counter on by
as many. -/
theorem runCalls_drawn : ∀ (cs : List RegistryCall) (r : Registry),
    (∀ i (h : i < (r.runCalls cs).2.length),
      ((r.runCalls cs).2[i]).toNat = (r.lastUniqueIdentifier.toNat + 1 + i) % 4294967296) ∧
    (r.runCalls cs).1.lastUniqueIdentifier.toNat =
      (r.lastUniqueIdentifier.toNat + (r.runCalls cs).2.length) % 4294967296
  | [], r => ⟨nofun, (Nat.mod_eq_of_lt r.lastUniqueIdentifier.toNat_lt_size).symm⟩
  | c :: cs, r => by
    obtain ⟨drawn, last⟩ := runCalls_drawn cs (r.call c).1
    have next :
        (r.lastUniqueIdentifier + 1).toNat = (r.lastUniqueIdentifier.toNat + 1) % 4294967296 :=
      BitVec.toNat_add _ _
    rcases call_draws r c with ⟨none_, same⟩ | ⟨some_, moved⟩
    · rw [same] at drawn last
      simp only [runCalls, none_, Option.toList_none, List.nil_append]
      exact ⟨drawn, last⟩
    · rw [moved, next] at drawn last
      simp only [runCalls, some_, Option.toList_some, List.singleton_append, List.length_cons]
      refine ⟨fun i h => ?_, by rw [last]; omega⟩
      cases i with
      | zero => exact next
      | succ i =>
        rw [List.getElem_cons_succ, drawn]
        omega

theorem runCalls_generateIdentifier_length : ∀ (n : Nat) (r : Registry),
    (r.runCalls (List.replicate n .generateIdentifier)).2.length = n
  | 0, _ => rfl
  | n + 1, r => by
    rw [List.replicate_succ]
    simp only [runCalls, call, Option.toList_some, List.singleton_append, List.length_cons]
    rw [runCalls_generateIdentifier_length n]

end Registry

/-- The counter is an `unsigned` that wraps. Of `2 ^ 32 + 1` calls of `generateIdentifier` from the
start, the `2 ^ 31 - 2`-th draws `INT32_MAX`, which the constructor reads as a request for a fresh
identifier; the `2 ^ 32 - 1`-th draws 0, which `getScriptExecutionContext` reads as no context;
the `2 ^ 32`-th draws `INITIAL_IDENTIFIER_INTERNAL`, the main thread's; and the last draws what the
first drew. -/
theorem lastUniqueIdentifier_wraps :
    (Registry.init.runCalls (List.replicate 4294967297 .generateIdentifier)).2[2147483645]? =
        some int32Max ∧
      (Registry.init.runCalls (List.replicate 4294967297 .generateIdentifier)).2[4294967294]? =
        some 0 ∧
      (Registry.init.runCalls (List.replicate 4294967297 .generateIdentifier)).2[4294967295]? =
        some initialIdentifierInternal ∧
      (Registry.init.runCalls (List.replicate 4294967297 .generateIdentifier)).2[4294967296]? =
        (Registry.init.runCalls (List.replicate 4294967297 .generateIdentifier)).2[0]? := by
  have len := Registry.runCalls_generateIdentifier_length 4294967297 Registry.init
  have drawn := (Registry.runCalls_drawn (List.replicate 4294967297 .generateIdentifier)
    Registry.init).1
  have draw : ∀ i (x : UInt32), i < 4294967297 → x.toNat = (2 + i) % 4294967296 →
      (Registry.init.runCalls (List.replicate 4294967297 .generateIdentifier)).2[i]? = some x :=
    fun i x h hx => by
      rw [List.getElem?_eq_getElem (h.trans_eq len.symm)]
      refine congrArg some (UInt32.toNat.inj ?_)
      rw [drawn i, hx]
      rfl
  refine ⟨draw _ _ (by decide) rfl, draw _ _ (by decide) rfl, draw _ _ (by decide) rfl, ?_⟩
  rw [draw 4294967296 2 (by decide) rfl, draw 0 2 (by decide) rfl]

/-- Until the counter reaches `INT32_MAX`, that is for at most `2 ^ 31 - 3` draws from the start,
whatever calls draw them, the `i`-th draw takes the counter's next value `2 + i`, the counter ends
at the last value drawn, and the identifiers drawn are distinct, and none is 0,
`INITIAL_IDENTIFIER_INTERNAL` or `INT32_MAX`. -/
theorem drawn_identifiers_fresh (cs : List RegistryCall)
    (few : (Registry.init.runCalls cs).2.length ≤ 2147483645) :
    (∀ i (h : i < (Registry.init.runCalls cs).2.length),
        ((Registry.init.runCalls cs).2[i]).toNat = 2 + i) ∧
      (Registry.init.runCalls cs).1.lastUniqueIdentifier.toNat =
        1 + (Registry.init.runCalls cs).2.length ∧
      (Registry.init.runCalls cs).2.Nodup ∧
      ∀ identifier ∈ (Registry.init.runCalls cs).2, identifier ≠ 0 ∧
        identifier ≠ initialIdentifierInternal ∧ identifier ≠ int32Max := by
  obtain ⟨drawn₀, last⟩ := Registry.runCalls_drawn cs Registry.init
  have drawn : ∀ i (h : i < (Registry.init.runCalls cs).2.length),
      ((Registry.init.runCalls cs).2[i]).toNat = 2 + i := fun i h => by
    rw [drawn₀ i h]
    exact Nat.mod_eq_of_lt (show 1 + 1 + i < 4294967296 by omega)
  have values : (Registry.init.runCalls cs).2.map UInt32.toNat =
      List.range' 2 (Registry.init.runCalls cs).2.length :=
    List.ext_getElem (by simp) fun i h₁ h₂ => by
      rw [List.getElem_map, drawn, List.getElem_range', Nat.one_mul]
  refine ⟨drawn, last.trans (Nat.mod_eq_of_lt (show 1 + _ < 4294967296 by omega)),
    List.Nodup.of_map UInt32.toNat (values ▸ List.nodup_range' _ _), fun x hx => ?_⟩
  obtain ⟨i, h, rfl⟩ := List.getElem_of_mem hx
  have ne : ∀ y : UInt32, 2 + i ≠ y.toNat → (Registry.init.runCalls cs).2[i] ≠ y :=
    fun y hy e => hy ((drawn i h).symm.trans (congrArg UInt32.toNat e))
  exact ⟨ne 0 (show 2 + i ≠ 0 by omega), ne _ (show 2 + i ≠ 1 by omega),
    ne _ (show 2 + i ≠ 2147483647 by omega)⟩

/-- A context constructed with `INT32_MAX`, a `generateIdentifier`, and a
`regenerateIdentifier` of the context. -/
def mixedCalls : List RegistryCall :=
  [.constructWithIdentifier 0 int32Max, .generateIdentifier, .regenerateIdentifier 0]

theorem drawn_identifiers_fresh_mixedCalls :
    (Registry.init.runCalls mixedCalls).2.length ≤ 2147483645 ∧
      (∀ i (h : i < (Registry.init.runCalls mixedCalls).2.length),
        ((Registry.init.runCalls mixedCalls).2[i]).toNat = 2 + i) ∧
      (Registry.init.runCalls mixedCalls).1.lastUniqueIdentifier.toNat =
        1 + (Registry.init.runCalls mixedCalls).2.length ∧
      (Registry.init.runCalls mixedCalls).2.Nodup ∧
      ∀ identifier ∈ (Registry.init.runCalls mixedCalls).2, identifier ≠ 0 ∧
        identifier ≠ initialIdentifierInternal ∧ identifier ≠ int32Max :=
  ⟨by decide, drawn_identifiers_fresh _ (by decide)⟩

/-- The three calls draw 2, 3 and 4. -/
example : (Registry.init.runCalls mixedCalls).2 = [2, 3, 4] := by decide

end BunLoop
