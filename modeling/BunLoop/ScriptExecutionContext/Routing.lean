import BunLoop.ScriptExecutionContext.Registry

/-!
# Routing tasks through the registry

`postTaskTo`, `ensureOnContextThread` and `ensureOnMainThread` look a context up in the map and
hand it a task, or drop it when no entry is found. Along a valid run without
`regenerateIdentifier`, every entry leads to a live context under its own identifier
(`routeTask_live`).
-/

namespace BunLoop

open Function

/-- What becomes of a task handed over by identifier: run at once on the calling thread, queued
on a context's loop, or dropped (the call returns false). -/
inductive Delivery
  | ran (c : Nat)
  | posted (c : Nat)
  | dropped
  deriving DecidableEq, Repr

def Delivery.context : Delivery → Option Nat
  | .ran c => some c
  | .posted c => some c
  | .dropped => none

namespace Registry

/-- `postTaskTo(identifier, task)`: the context under the identifier gets the task through
`postTaskConcurrently`. -/
def postTaskTo (r : Registry) (identifier : UInt32) : Delivery :=
  match r.map identifier with
  | some c => .posted c
  | none => .dropped

/-- `ensureOnContextThread(identifier, task)`: the context under the identifier runs the task at
once when the caller is on its thread (`isContextThread`), and gets it posted otherwise. -/
def ensureOnContextThread (r : Registry) (isContextThread : Nat → Bool) (identifier : UInt32) :
    Delivery :=
  match r.map identifier with
  | none => .dropped
  | some c => if isContextThread c then .ran c else .posted c

def ensureOnMainThread (r : Registry) : Delivery :=
  match r.getMainThreadScriptExecutionContext with
  | some c => .posted c
  | none => .dropped

/-! ## What each lookup reaches -/

@[simp] theorem postTaskTo_context (r : Registry) (identifier : UInt32) :
    (r.postTaskTo identifier).context = r.map identifier := by
  unfold postTaskTo
  cases r.map identifier <;> rfl

@[simp] theorem ensureOnContextThread_context (r : Registry) (isContextThread : Nat → Bool)
    (identifier : UInt32) :
    (r.ensureOnContextThread isContextThread identifier).context = r.map identifier := by
  unfold ensureOnContextThread
  cases r.map identifier with
  | none => rfl
  | some c => by_cases isContextThread c <;> simp [*, Delivery.context]

@[simp] theorem ensureOnMainThread_context (r : Registry) :
    r.ensureOnMainThread.context = r.map initialIdentifierInternal := by
  unfold ensureOnMainThread getMainThreadScriptExecutionContext initialIdentifierInternal
  cases r.map 1 <;> rfl

theorem getScriptExecutionContext_map {r : Registry} {identifier : UInt32} {c : Nat}
    (h : r.getScriptExecutionContext identifier = some c) : r.map identifier = some c := by
  unfold getScriptExecutionContext at h
  split at h
  · cases h
  · exact h

/-! ## Runs that keep the map routed -/

/-- A call made as the code expects: a constructor runs at an address where no context lives, and
the destructor finds no entry under its context's identifier, as it asserts. -/
def Valid (r : Registry) : RegistryCall → Prop
  | .construct c => r.live c = false
  | .constructWithIdentifier c _ => r.live c = false
  | .destroy c => r.map (r.identifier c) = none
  | .generateIdentifier => True
  | .regenerateIdentifier _ => True
  | .removeFromContextsMap _ => True

instance decidableValid (r : Registry) : ∀ c, Decidable (r.Valid c)
  | .construct c => inferInstanceAs (Decidable (r.live c = false))
  | .constructWithIdentifier c _ => inferInstanceAs (Decidable (r.live c = false))
  | .destroy c => inferInstanceAs (Decidable (r.map (r.identifier c) = none))
  | .generateIdentifier => isTrue trivial
  | .regenerateIdentifier _ => isTrue trivial
  | .removeFromContextsMap _ => isTrue trivial

def ValidRun : Registry → List RegistryCall → Prop
  | _, [] => True
  | r, c :: cs => r.Valid c ∧ ValidRun (r.call c).1 cs

instance decidableValidRun : ∀ r cs, Decidable (ValidRun r cs)
  | _, [] => isTrue trivial
  | r, c :: cs =>
    have := decidableValidRun (r.call c).1 cs
    inferInstanceAs (Decidable (r.Valid c ∧ _))

/-- Every entry of the map leads to a live context that holds the entry's identifier. -/
def Routed (r : Registry) : Prop :=
  ∀ identifier c, r.map identifier = some c → r.live c = true ∧ r.identifier c = identifier

variable {r : Registry} {c : Nat}

theorem routed_init : init.Routed := fun _ _ h => nomatch h

theorem Routed.addToContextsMap (h : r.Routed) (live : r.live c = true) :
    (r.addToContextsMap c).Routed := by
  unfold Registry.addToContextsMap
  split
  · exact h
  · intro identifier c' hc
    dsimp only at hc ⊢
    by_cases e : identifier = r.identifier c
    · subst e
      rw [update_same, Option.some_inj] at hc
      subst hc
      exact ⟨live, rfl⟩
    · rw [update_noteq e] at hc
      exact h identifier c' hc

theorem Routed.create (h : r.Routed) (fresh : r.live c = false) (id : UInt32) :
    (r.create c id).Routed := by
  refine Routed.addToContextsMap (fun identifier c' hc => ?_) (update_same _ _ _)
  obtain ⟨live, held⟩ := h identifier c' hc
  have ne : c' ≠ c := fun e => by rw [e, fresh] at live; cases live
  exact ⟨(update_noteq ne _ _).trans live, (update_noteq ne _ _).trans held⟩

theorem Routed.removeFromContextsMap (h : r.Routed) : (r.removeFromContextsMap c).Routed :=
  fun identifier c' hc => by
    by_cases e : identifier = r.identifier c
    · subst e
      simp [Registry.removeFromContextsMap] at hc
    · exact h identifier c' (by simpa [Registry.removeFromContextsMap, update_noteq e] using hc)

theorem Routed.destroy (h : r.Routed) (gone : r.map (r.identifier c) = none) :
    (r.destroy c).Routed := fun identifier c' (hc : r.map identifier = some c') => by
  obtain ⟨live, held⟩ := h identifier c' hc
  have ne : c' ≠ c := fun e => by subst e; rw [held, hc] at gone; cases gone
  exact ⟨(update_noteq ne _ _).trans live, held⟩

theorem Routed.call (h : r.Routed) {call : RegistryCall} (valid : r.Valid call)
    (notRegenerate : ∀ c, call ≠ .regenerateIdentifier c) : (r.call call).1.Routed := by
  cases call with
  | construct c => exact h.create valid _
  | constructWithIdentifier c identifier =>
    show (r.constructWithIdentifier c identifier).Routed
    unfold Registry.constructWithIdentifier
    split
    · exact Routed.create (r := r.generateIdentifier.1) h valid _
    · exact h.create valid _
  | generateIdentifier => exact h
  | regenerateIdentifier c => exact absurd rfl (notRegenerate c)
  | removeFromContextsMap c => exact h.removeFromContextsMap
  | destroy c => exact h.destroy valid

theorem Routed.runCalls : ∀ (cs : List RegistryCall) {r : Registry}, r.Routed →
    r.ValidRun cs → (∀ c, .regenerateIdentifier c ∉ cs) → (r.runCalls cs).1.Routed
  | [], _, h, _, _ => h
  | _ :: cs, _, h, ⟨valid, rest⟩, none_ =>
    Routed.runCalls cs (h.call valid fun c e => none_ c (e ▸ List.mem_cons_self _ _)) rest
      fun c hc => none_ c (List.mem_cons_of_mem _ hc)

end Registry

/-- Along a valid run of registry calls from the start that never calls `regenerateIdentifier`,
every entry of `allScriptExecutionContextsMap()` leads to a live context holding the entry's
identifier; so `postTaskTo`, `ensureOnContextThread` (on any thread), `ensureOnMainThread` and
`getScriptExecutionContext` hand a task, or a context, only to a live context, and only to the
one whose identifier was asked for. -/
theorem routeTask_live (cs : List RegistryCall) (valid : Registry.init.ValidRun cs)
    (noRegenerate : ∀ c, .regenerateIdentifier c ∉ cs) :
    (Registry.init.runCalls cs).1.Routed ∧
      (∀ identifier c, ((Registry.init.runCalls cs).1.postTaskTo identifier).context = some c →
        (Registry.init.runCalls cs).1.live c = true ∧
          (Registry.init.runCalls cs).1.identifier c = identifier) ∧
      (∀ isContextThread identifier c,
        ((Registry.init.runCalls cs).1.ensureOnContextThread isContextThread identifier).context =
          some c →
        (Registry.init.runCalls cs).1.live c = true ∧
          (Registry.init.runCalls cs).1.identifier c = identifier) ∧
      (∀ c, (Registry.init.runCalls cs).1.ensureOnMainThread.context = some c →
        (Registry.init.runCalls cs).1.live c = true ∧
          (Registry.init.runCalls cs).1.identifier c = initialIdentifierInternal) ∧
      (∀ identifier c, (Registry.init.runCalls cs).1.getScriptExecutionContext identifier = some c →
        (Registry.init.runCalls cs).1.live c = true ∧
          (Registry.init.runCalls cs).1.identifier c = identifier) := by
  have h := Registry.routed_init.runCalls cs valid noRegenerate
  refine ⟨h, fun identifier c hc => h identifier c ?_, fun onThread identifier c hc =>
    h identifier c ?_, fun c hc => h _ c ?_, fun identifier c hc =>
    h identifier c (Registry.getScriptExecutionContext_map hc)⟩ <;> simpa using hc

/-- The main thread's context, a context constructed with `INT32_MAX` that removes itself and is
destroyed, and a `generateIdentifier`. -/
def removeThenDestroy : List RegistryCall :=
  [.construct 0, .constructWithIdentifier 5 int32Max, .removeFromContextsMap 5, .destroy 5,
    .generateIdentifier]

theorem routeTask_live_removeThenDestroy :
    Registry.init.ValidRun removeThenDestroy ∧ (∀ c, .regenerateIdentifier c ∉ removeThenDestroy) ∧
      (Registry.init.runCalls removeThenDestroy).1.Routed ∧
      (∀ identifier c,
        ((Registry.init.runCalls removeThenDestroy).1.postTaskTo identifier).context = some c →
        (Registry.init.runCalls removeThenDestroy).1.live c = true ∧
          (Registry.init.runCalls removeThenDestroy).1.identifier c = identifier) ∧
      (∀ isContextThread identifier c,
        ((Registry.init.runCalls removeThenDestroy).1.ensureOnContextThread isContextThread
          identifier).context = some c →
        (Registry.init.runCalls removeThenDestroy).1.live c = true ∧
          (Registry.init.runCalls removeThenDestroy).1.identifier c = identifier) ∧
      (∀ c, (Registry.init.runCalls removeThenDestroy).1.ensureOnMainThread.context = some c →
        (Registry.init.runCalls removeThenDestroy).1.live c = true ∧
          (Registry.init.runCalls removeThenDestroy).1.identifier c = initialIdentifierInternal) ∧
      (∀ identifier c,
        (Registry.init.runCalls removeThenDestroy).1.getScriptExecutionContext identifier = some c →
        (Registry.init.runCalls removeThenDestroy).1.live c = true ∧
          (Registry.init.runCalls removeThenDestroy).1.identifier c = identifier) :=
  have none_ : ∀ c, .regenerateIdentifier c ∉ removeThenDestroy := fun c h => by
    simp [removeThenDestroy] at h
  ⟨by decide, none_, routeTask_live _ (by decide) none_⟩

/-- After the run, a task posted to identifier 2 is dropped; one posted to 1 reaches the main
thread's context. -/
example : (Registry.init.runCalls removeThenDestroy).1.postTaskTo 2 = .dropped ∧
    (Registry.init.runCalls removeThenDestroy).1.postTaskTo 1 = .posted 0 := by
  decide

end BunLoop
