import Mathlib.Logic.Relation
import Mathlib.Data.List.Nodup

/-!
# Processing message ports soon

`processMessageWithMessagePortsSoon` appends a completion handler and posts a
`dispatchMessagePortEvents` task unless one is on its way; the task takes the handlers appended
so far and calls them, and the destructor calls those no task took. The log records each append
and each call, and `Inv` holds of every reachable context (`messagePorts_dispatch_once`).
-/

namespace BunLoop

inductive Task
  | dispatchMessagePortEvents
  | other
  deriving DecidableEq, Repr

/-- Who calls a completion handler: the `n`-th dispatch task to start, or the destructor. -/
inductive Invoker
  | task (n : Nat)
  | destructor
  deriving DecidableEq, Repr

/-- The log of a run: `h` appended after `started` dispatch tasks had started, or `h` called. -/
inductive Event
  | appended (h started : Nat)
  | invoked (h : Nat) (invoker : Invoker)
  deriving DecidableEq, Repr

def Event.invokes (h : Nat) : Event → Bool
  | .invoked h' _ => h' == h
  | .appended _ _ => false

def callsOf (log : List Event) (h : Nat) : List Event := log.filter (Event.invokes h)

/-- The message-port part of a `ScriptExecutionContext`: the flag and the handler list of the
source, the tasks posted and not yet started, the handlers a started dispatch task has taken and
not yet called, and how many dispatch tasks have started. -/
structure ScriptExecutionContext where
  willProcessMessageWithMessagePortsSoon : Bool
  processMessageWithMessagePortsSoonHandlers : List Nat
  tasks : List Task
  running : Option (List Nat)
  started : Nat
  log : List Event

namespace ScriptExecutionContext

def init : ScriptExecutionContext := ⟨false, [], [], none, 0, []⟩

def processMessageWithMessagePortsSoon (ctx : ScriptExecutionContext) (h : Nat) :
    ScriptExecutionContext :=
  let ctx := { ctx with
    processMessageWithMessagePortsSoonHandlers :=
      ctx.processMessageWithMessagePortsSoonHandlers ++ [h] }
  if ctx.willProcessMessageWithMessagePortsSoon then ctx
  else { ctx with
    willProcessMessageWithMessagePortsSoon := true
    tasks := ctx.tasks ++ [Task.dispatchMessagePortEvents] }

/-- Ghost: the log records that `h` was appended after `started` dispatch tasks had started. -/
def logAppended (ctx : ScriptExecutionContext) (h started : Nat) : ScriptExecutionContext :=
  { ctx with log := ctx.log ++ [.appended h started] }

/-- `postTask` of some other task. -/
def postTask (ctx : ScriptExecutionContext) : ScriptExecutionContext :=
  { ctx with tasks := ctx.tasks ++ [Task.other] }

/-- The start of `dispatchMessagePortEvents`: clear the flag and take the handlers. -/
def dispatchMessagePortEvents (ctx : ScriptExecutionContext) : ScriptExecutionContext :=
  { ctx with
    willProcessMessageWithMessagePortsSoon := false
    processMessageWithMessagePortsSoonHandlers := []
    running := some ctx.processMessageWithMessagePortsSoonHandlers
    started := ctx.started + 1 }

def runTask (ctx : ScriptExecutionContext) : ScriptExecutionContext :=
  match ctx.tasks with
  | [] => ctx
  | .dispatchMessagePortEvents :: rest => { ctx with tasks := rest }.dispatchMessagePortEvents
  | .other :: rest => { ctx with tasks := rest }

/-- The running dispatch task calls the next handler it took, or returns. -/
def callCompletionHandler (ctx : ScriptExecutionContext) : ScriptExecutionContext :=
  match ctx.running with
  | some (h :: rest) =>
    { ctx with running := some rest, log := ctx.log ++ [Event.invoked h (.task ctx.started)] }
  | _ => { ctx with running := none }

def destroy (ctx : ScriptExecutionContext) : ScriptExecutionContext :=
  { ctx with
    processMessageWithMessagePortsSoonHandlers := []
    log := ctx.log ++ ctx.processMessageWithMessagePortsSoonHandlers.map (.invoked · .destructor) }

def Appended (ctx : ScriptExecutionContext) (h : Nat) : Prop := ∃ n, .appended h n ∈ ctx.log

/-- One step on the context thread: a call (with a handler not used before), logged as an
append, a post, the start of the next task while none runs, or the next step of a running
dispatch task. -/
inductive Step : ScriptExecutionContext → ScriptExecutionContext → Prop
  | process {ctx} (h : Nat) (fresh : ¬ctx.Appended h) :
      Step ctx ((ctx.processMessageWithMessagePortsSoon h).logAppended h ctx.started)
  | post {ctx} : Step ctx ctx.postTask
  | run {ctx} (idle : ctx.running = none) : Step ctx ctx.runTask
  | call {ctx} (busy : ctx.running ≠ none) : Step ctx ctx.callCompletionHandler

def Reachable (ctx : ScriptExecutionContext) : Prop := Relation.ReflTransGen Step init ctx

/-! ## The log -/

@[simp] theorem callsOf_append (l l' : List Event) (h : Nat) :
    callsOf (l ++ l') h = callsOf l h ++ callsOf l' h := List.filter_append _ _

@[simp] theorem callsOf_appended (h h' n : Nat) : callsOf [.appended h' n] h = [] := rfl

theorem callsOf_invoked (h h' : Nat) (i : Invoker) :
    callsOf [.invoked h' i] h = if h' = h then [.invoked h' i] else [] := by
  by_cases e : h' = h <;> simp [callsOf, Event.invokes, e]

variable {ctx : ScriptExecutionContext} {h : Nat}

/-- What holds of every reachable context. -/
structure Inv (ctx : ScriptExecutionContext) : Prop where
  /-- One dispatch task is queued when the flag is set, none otherwise. -/
  flag : ctx.tasks.count .dispatchMessagePortEvents =
    if ctx.willProcessMessageWithMessagePortsSoon then 1 else 0
  /-- Handlers wait only behind a queued dispatch task. -/
  waiting : ctx.processMessageWithMessagePortsSoonHandlers ≠ [] →
    ctx.willProcessMessageWithMessagePortsSoon = true
  nodup : ctx.processMessageWithMessagePortsSoonHandlers.Nodup
  /-- A waiting handler was appended since the last dispatch task started, and is not called. -/
  pending : ∀ h ∈ ctx.processMessageWithMessagePortsSoonHandlers,
    .appended h ctx.started ∈ ctx.log ∧ callsOf ctx.log h = []
  /-- What a running dispatch task has still to call was appended before it started. -/
  taken : ∀ batch, ctx.running = some batch → batch.Nodup ∧ 0 < ctx.started ∧
    ∀ h ∈ batch, .appended h (ctx.started - 1) ∈ ctx.log ∧ callsOf ctx.log h = []
  /-- Every other appended handler was called once, by the first dispatch task after it. -/
  called : ∀ h n, .appended h n ∈ ctx.log → h ∉ ctx.processMessageWithMessagePortsSoonHandlers →
    (∀ batch, ctx.running = some batch → h ∉ batch) →
    n < ctx.started ∧ callsOf ctx.log h = [.invoked h (.task (n + 1))]
  /-- Only appended handlers are called. -/
  appended : ∀ h, callsOf ctx.log h ≠ [] → ctx.Appended h
  /-- A handler is appended once. -/
  once : ∀ h n m, .appended h n ∈ ctx.log → .appended h m ∈ ctx.log → n = m

theorem init_inv : init.Inv where
  flag := rfl
  waiting h := (h rfl).elim
  nodup := List.nodup_nil
  pending _ h := (List.not_mem_nil _ h).elim
  taken _ h := Option.noConfusion h
  called _ _ h := (List.not_mem_nil _ h).elim
  appended _ h := (h rfl).elim
  once _ _ _ h := (List.not_mem_nil _ h).elim

/-! ## One step -/

section Fields

variable (ctx : ScriptExecutionContext) (h : Nat)

@[simp] theorem process_handlers :
    (ctx.processMessageWithMessagePortsSoon h).processMessageWithMessagePortsSoonHandlers =
      ctx.processMessageWithMessagePortsSoonHandlers ++ [h] := by
  dsimp only [processMessageWithMessagePortsSoon]; split <;> rfl

@[simp] theorem process_log : (ctx.processMessageWithMessagePortsSoon h).log = ctx.log := by
  dsimp only [processMessageWithMessagePortsSoon]; split <;> rfl

@[simp] theorem process_started :
    (ctx.processMessageWithMessagePortsSoon h).started = ctx.started := by
  dsimp only [processMessageWithMessagePortsSoon]; split <;> rfl

@[simp] theorem process_running :
    (ctx.processMessageWithMessagePortsSoon h).running = ctx.running := by
  dsimp only [processMessageWithMessagePortsSoon]; split <;> rfl

@[simp] theorem process_flag :
    (ctx.processMessageWithMessagePortsSoon h).willProcessMessageWithMessagePortsSoon = true := by
  dsimp only [processMessageWithMessagePortsSoon]; split <;> simp_all

theorem process_tasks :
    (ctx.processMessageWithMessagePortsSoon h).tasks =
      if ctx.willProcessMessageWithMessagePortsSoon then ctx.tasks
      else ctx.tasks ++ [.dispatchMessagePortEvents] := by
  dsimp only [processMessageWithMessagePortsSoon]; split <;> simp_all

variable (n : Nat)

@[simp] theorem logAppended_log : (ctx.logAppended h n).log = ctx.log ++ [.appended h n] := rfl
@[simp] theorem logAppended_handlers :
    (ctx.logAppended h n).processMessageWithMessagePortsSoonHandlers =
    ctx.processMessageWithMessagePortsSoonHandlers := rfl
@[simp] theorem logAppended_started : (ctx.logAppended h n).started = ctx.started := rfl
@[simp] theorem logAppended_running : (ctx.logAppended h n).running = ctx.running := rfl
@[simp] theorem logAppended_flag : (ctx.logAppended h n).willProcessMessageWithMessagePortsSoon =
    ctx.willProcessMessageWithMessagePortsSoon := rfl
@[simp] theorem logAppended_tasks : (ctx.logAppended h n).tasks = ctx.tasks := rfl

end Fields

theorem Inv.process (inv : ctx.Inv) (fresh : ¬ctx.Appended h) :
    ((ctx.processMessageWithMessagePortsSoon h).logAppended h ctx.started).Inv := by
  have unseen : callsOf ctx.log h = [] := by_contra fun hc => fresh (inv.appended h hc)
  have notWaiting : h ∉ ctx.processMessageWithMessagePortsSoonHandlers :=
    fun hm => fresh ⟨_, (inv.pending h hm).1⟩
  constructor
  · rw [logAppended_tasks, logAppended_flag, process_tasks, process_flag]
    cases hw : ctx.willProcessMessageWithMessagePortsSoon <;> simp [hw, inv.flag]
  · simp
  · simpa [List.nodup_append, notWaiting] using inv.nodup
  · intro x hx
    rw [logAppended_log, logAppended_started, process_log, process_started, callsOf_append,
      callsOf_appended, List.append_nil]
    simp only [logAppended_handlers, process_handlers, List.mem_append, List.mem_singleton] at hx
    rcases hx with hx | rfl
    · exact ⟨List.mem_append_left _ (inv.pending x hx).1, (inv.pending x hx).2⟩
    · exact ⟨List.mem_append_right _ (List.mem_singleton_self _), unseen⟩
  · intro batch hb
    rw [logAppended_running, process_running] at hb
    rw [logAppended_started, process_started, logAppended_log, process_log]
    obtain ⟨nd, pos, mem⟩ := inv.taken batch hb
    exact ⟨nd, pos, fun x hx => ⟨List.mem_append_left _ (mem x hx).1, by simp [(mem x hx).2]⟩⟩
  · intro x n hx waiting running
    simp only [logAppended_log, process_log, List.mem_append, List.mem_singleton,
      Event.appended.injEq] at hx
    rcases hx with hx | ⟨rfl, -⟩
    · simp only [logAppended_handlers, process_handlers, List.mem_append, not_or] at waiting
      simpa using inv.called x n hx waiting.1 (by simpa using running)
    · simp at waiting
  · intro x hx
    simp only [logAppended_log, process_log, callsOf_append, callsOf_appended,
      List.append_nil] at hx
    obtain ⟨n, hn⟩ := inv.appended x hx
    exact ⟨n, by simp [hn]⟩
  · intro x n m hn hm
    simp only [logAppended_log, process_log, List.mem_append, List.mem_singleton,
      Event.appended.injEq] at hn hm
    rcases hn with hn | ⟨rfl, rfl⟩ <;> rcases hm with hm | ⟨e, rfl⟩
    · exact inv.once x n m hn hm
    · exact (fresh ⟨n, e ▸ hn⟩).elim
    · exact (fresh ⟨m, hm⟩).elim
    · rfl

theorem Inv.post (inv : ctx.Inv) : ctx.postTask.Inv :=
  { inv with flag := by simp [postTask, List.count_append, inv.flag] }

theorem Inv.run (inv : ctx.Inv) (idle : ctx.running = none) : ctx.runTask.Inv := by
  unfold runTask
  split
  · exact inv
  · rename_i rest queued
    have flag := inv.flag
    rw [queued, List.count_cons_self] at flag
    refine ⟨?_, fun h => (h rfl).elim, List.nodup_nil, fun _ h => (List.not_mem_nil _ h).elim,
      ?_, ?_, inv.appended, inv.once⟩
    · split at flag <;> simp [dispatchMessagePortEvents] <;> omega
    · rintro batch ⟨⟩
      exact ⟨inv.nodup, Nat.succ_pos _, fun x hx => by simpa using inv.pending x hx⟩
    · intro x n hx _ running
      have := inv.called x n hx (running _ rfl) (by simp [idle])
      exact ⟨Nat.lt_succ_of_lt this.1, this.2⟩
  · rename_i rest queued
    exact { inv with flag := by simpa [queued] using inv.flag }

theorem Inv.call (inv : ctx.Inv) : ctx.callCompletionHandler.Inv := by
  unfold callCompletionHandler
  split
  · rename_i h rest running
    obtain ⟨nd, pos, mem⟩ := inv.taken _ running
    have fresh : h ∉ rest := (List.nodup_cons.mp nd).1
    have mine : .appended h (ctx.started - 1) ∈ ctx.log := (mem h (List.mem_cons_self _ _)).1
    have notWaiting : h ∉ ctx.processMessageWithMessagePortsSoonHandlers := fun hw =>
      absurd (inv.once h _ _ (inv.pending h hw).1 mine) (by omega)
    refine ⟨inv.flag, inv.waiting, inv.nodup, fun x hx => ?_, ?_, ?_, ?_, ?_⟩
    · have hne : h ≠ x := fun e => notWaiting (e ▸ hx)
      simpa [callsOf_invoked, hne] using inv.pending x hx
    · rintro batch ⟨⟩
      refine ⟨(List.nodup_cons.mp nd).2, pos, fun x hx => ?_⟩
      have hne : h ≠ x := fun e => fresh (e ▸ hx)
      simpa [callsOf_invoked, hne] using mem x (List.mem_cons_of_mem _ hx)
    · intro x n hx hw others
      simp only [List.mem_append, List.mem_singleton, reduceCtorEq, or_false] at hx
      by_cases e : x = h
      · subst e
        have hn : n = ctx.started - 1 := inv.once x _ _ hx mine
        simp only [callsOf_append, callsOf_invoked, if_true, (mem x (List.mem_cons_self _ _)).2]
        exact ⟨by omega, by rw [hn, Nat.sub_add_cancel pos]; rfl⟩
      · have out : x ∉ h :: rest := by simp [e, others _ rfl]
        have := inv.called x n hx hw fun b hb => (Option.some_inj.mp (running.symm.trans hb)) ▸ out
        simpa [callsOf_invoked, Ne.symm e] using this
    · intro x hx
      by_cases e : x = h
      · subst e
        exact ⟨_, List.mem_append_left _ mine⟩
      · have := inv.appended x (by simpa [callsOf_invoked, Ne.symm e] using hx)
        obtain ⟨n, hn⟩ := this
        exact ⟨n, List.mem_append_left _ hn⟩
    · intro x n m hn hm
      simp only [List.mem_append, List.mem_singleton, reduceCtorEq, or_false] at hn hm
      exact inv.once x n m hn hm
  · rename_i notCons
    refine { inv with taken := fun _ h => Option.noConfusion h, called := ?_ }
    intro x n hx hw _
    refine inv.called x n hx hw fun b hb => ?_
    cases b with
    | nil => exact List.not_mem_nil _
    | cons y rest => exact (notCons y rest hb).elim

theorem Step.inv {ctx ctx' : ScriptExecutionContext} (step : Step ctx ctx') (inv : ctx.Inv) :
    ctx'.Inv := by
  cases step with
  | process h fresh => exact inv.process fresh
  | post => exact inv.post
  | run idle => exact inv.run idle
  | call _ => exact inv.call

/-! ## Every run -/

theorem reachable_inv (reach : ctx.Reachable) : ctx.Inv := by
  induction reach with
  | refl => exact init_inv
  | tail _ step ih => exact step.inv ih

end ScriptExecutionContext

end BunLoop
