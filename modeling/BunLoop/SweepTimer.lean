import Mathlib.Data.List.Basic

/-!
# The sweep timer's reference count

`us_internal_enable_sweep_timer` and `us_internal_disable_sweep_timer` count in
`sweep_timer_count` and arm or disarm the sweep timer on the count's steps between 0 and 1
(`sweepTimer_refcount`). The count is a C `int`, counted here in `Int`, which is the C value
while it stays below `2 ^ 31`.
-/

namespace BunLoop

/-- The sweep timer's part of the loop data: `sweep_timer_count`, what `us_timer_set` last gave
`sweep_timer` (milliseconds to its first fire and between fires, 0 for a timer that does not
fire), and the `us_timer_set` calls so far. -/
structure SweepTimer where
  sweepTimerCount : Int
  setting : Nat × Nat
  sets : List (Nat × Nat)
  deriving DecidableEq, Repr

inductive SweepTimerCall
  | enable
  | disable
  deriving DecidableEq, Repr

namespace SweepTimer

def timerSet (t : SweepTimer) (ms repeatMs : Nat) : SweepTimer :=
  { t with setting := (ms, repeatMs), sets := t.sets ++ [(ms, repeatMs)] }

/-- The sweep timer and its count as `us_internal_loop_data_init` leaves them: the count at 0 and
the timer, from `us_create_timer`, not firing (modelled from the spec: "its sweep timer (initially
disabled)"). -/
def loopDataInit : SweepTimer := ⟨0, (0, 0), []⟩

/-- `us_internal_enable_sweep_timer`, for a granularity of `g` seconds
(`LIBUS_TIMEOUT_GRANULARITY`, defined outside the sources). -/
def enableSweepTimer (g : Nat) (t : SweepTimer) : SweepTimer :=
  let t := if t.sweepTimerCount = 0 then t.timerSet (g * 1000) (g * 1000) else t
  { t with sweepTimerCount := t.sweepTimerCount + 1 }

def disableSweepTimer (t : SweepTimer) : SweepTimer :=
  let t := { t with sweepTimerCount := t.sweepTimerCount - 1 }
  if t.sweepTimerCount = 0 then t.timerSet 0 0 else t

def call (g : Nat) (t : SweepTimer) : SweepTimerCall → SweepTimer
  | .enable => enableSweepTimer g t
  | .disable => disableSweepTimer t

def run (g : Nat) (calls : List SweepTimerCall) : SweepTimer := calls.foldl (call g) loopDataInit

variable {g : Nat} {t : SweepTimer}

theorem enableSweepTimer_eq :
    enableSweepTimer g t =
      { sweepTimerCount := t.sweepTimerCount + 1
        setting := if t.sweepTimerCount = 0 then (g * 1000, g * 1000) else t.setting
        sets := t.sets ++ if t.sweepTimerCount = 0 then [(g * 1000, g * 1000)] else [] } := by
  by_cases h : t.sweepTimerCount = 0 <;> simp [enableSweepTimer, timerSet, h]

theorem disableSweepTimer_eq :
    disableSweepTimer t =
      { sweepTimerCount := t.sweepTimerCount - 1
        setting := if t.sweepTimerCount = 1 then (0, 0) else t.setting
        sets := t.sets ++ if t.sweepTimerCount = 1 then [(0, 0)] else [] } := by
  by_cases h : t.sweepTimerCount = 1 <;> simp [disableSweepTimer, timerSet, h]
  omega

/-- What a balanced run keeps: the count is not negative, and the timer fires every `g` seconds
while the count is positive and not at all when it is 0. -/
def Counted (g : Nat) (t : SweepTimer) : Prop :=
  0 ≤ t.sweepTimerCount ∧
    t.setting = if 0 < t.sweepTimerCount then (g * 1000, g * 1000) else (0, 0)

theorem counted_loopDataInit : Counted g loopDataInit := ⟨Int.le_refl 0, rfl⟩

theorem call_counted (h : Counted g t) {c : SweepTimerCall}
    (allowed : c = .disable → 1 ≤ t.sweepTimerCount) :
    Counted g (call g t c) ∧
      (call g t c).sweepTimerCount = t.sweepTimerCount + if c = .enable then 1 else -1 := by
  obtain ⟨nonneg, setting⟩ := h
  cases c with
  | enable =>
    refine ⟨⟨by simp [call, enableSweepTimer_eq]; omega, ?_⟩, by simp [call, enableSweepTimer_eq]⟩
    by_cases zero : t.sweepTimerCount = 0
    · simp [call, enableSweepTimer_eq, zero]
    · simp only [call, enableSweepTimer_eq, if_neg zero, setting]
      rw [if_pos (by omega), if_pos (by omega)]
  | disable =>
    have one := allowed rfl
    refine ⟨⟨by simp [call, disableSweepTimer_eq]; omega, ?_⟩,
      by simp [call, disableSweepTimer_eq]; omega⟩
    by_cases last : t.sweepTimerCount = 1
    · simp [call, disableSweepTimer_eq, last]
    · simp only [call, disableSweepTimer_eq, if_neg last, setting]
      rw [if_pos (by omega), if_pos (by omega)]

theorem foldl_call_counted : ∀ (calls : List SweepTimerCall) (t : SweepTimer), Counted g t →
    (∀ k, ((calls.take k).count .disable : Int) ≤
      t.sweepTimerCount + (calls.take k).count .enable) →
    Counted g (calls.foldl (call g) t) ∧ (calls.foldl (call g) t).sweepTimerCount =
      t.sweepTimerCount + calls.count .enable - calls.count .disable := by
  intro calls
  induction calls with
  | nil => exact fun t h _ => ⟨h, by simp⟩
  | cons c calls ih =>
    intro t h balanced
    obtain ⟨step, moved⟩ := call_counted h (c := c) (by rintro rfl; simpa using balanced 1)
    obtain ⟨counted, count⟩ := ih _ step fun k => by
      have := balanced (k + 1)
      cases c <;> simp [moved] at this ⊢ <;> omega
    refine ⟨counted, ?_⟩
    rw [List.foldl_cons, count, moved]
    cases c <;> simp <;> omega

theorem run_counted {calls : List SweepTimerCall}
    (balanced : ∀ k, (calls.take k).count .disable ≤ (calls.take k).count .enable) :
    Counted g (run g calls) ∧
      (run g calls).sweepTimerCount = calls.count .enable - calls.count .disable := by
  have := foldl_call_counted (g := g) calls loopDataInit counted_loopDataInit fun k => by
    have := balanced k
    simp only [loopDataInit]
    omega
  simpa [run, loopDataInit] using this

end SweepTimer

open SweepTimer

/-- From `us_internal_loop_data_init`, along any sequence of `us_internal_enable_sweep_timer` and
`us_internal_disable_sweep_timer` calls in which no prefix has more disables than enables:
`sweep_timer_count` is the enables minus the disables, after the whole run and after each prefix,
so it stays within a C `int` exactly while fewer than `2 ^ 31` enables are outstanding; the sweep
timer fires every `LIBUS_TIMEOUT_GRANULARITY * 1000` ms when the count is positive and not at all
when it is 0; and a call makes a `us_timer_set` call exactly when it moves the count from 0 to 1,
arming the timer, or from 1 to 0, disarming it. -/
theorem sweepTimer_refcount (g : Nat) (calls : List SweepTimerCall)
    (balanced : ∀ k, (calls.take k).count .disable ≤ (calls.take k).count .enable) :
    (run g calls).sweepTimerCount = calls.count .enable - calls.count .disable ∧
      (∀ k, (run g (calls.take k)).sweepTimerCount =
        (calls.take k).count .enable - (calls.take k).count .disable) ∧
      ((∀ k, (run g (calls.take k)).sweepTimerCount < 2147483648) ↔
        ∀ k, ((calls.take k).count .enable : Int) - (calls.take k).count .disable < 2147483648) ∧
      (run g calls).setting =
        (if 0 < (run g calls).sweepTimerCount then (g * 1000, g * 1000) else (0, 0)) ∧
      ∀ k, k < calls.length →
        (run g (calls.take (k + 1))).sets = (run g (calls.take k)).sets ++
          if (run g (calls.take k)).sweepTimerCount = 0 ∧
              (run g (calls.take (k + 1))).sweepTimerCount = 1 then [(g * 1000, g * 1000)]
          else if (run g (calls.take k)).sweepTimerCount = 1 ∧
              (run g (calls.take (k + 1))).sweepTimerCount = 0 then [(0, 0)]
          else [] := by
  obtain ⟨⟨-, setting⟩, count⟩ := run_counted balanced
  have prefixes : ∀ k, Counted g (run g (calls.take k)) ∧ (run g (calls.take k)).sweepTimerCount =
      (calls.take k).count .enable - (calls.take k).count .disable := fun k =>
    run_counted fun j => by
      rw [List.take_take]
      exact balanced _
  refine ⟨count, fun k => (prefixes k).2, forall_congr' fun k => by rw [(prefixes k).2], setting,
    fun k hk => ?_⟩
  have nonneg := (prefixes k).1.1
  have next : run g (calls.take (k + 1)) = call g (run g (calls.take k)) calls[k] := by
    rw [run, run, List.take_succ, List.getElem?_eq_getElem hk, Option.toList_some,
      List.foldl_append]
    rfl
  rw [next]
  generalize run g (calls.take k) = t at nonneg ⊢
  cases calls[k] with
  | enable =>
    by_cases zero : t.sweepTimerCount = 0 <;> simp [call, enableSweepTimer_eq, zero]
    omega
  | disable =>
    by_cases last : t.sweepTimerCount = 1 <;> simp [call, disableSweepTimer_eq, last]
    omega

def armTwiceReleaseTwice : List SweepTimerCall := [.enable, .enable, .disable, .disable, .enable]

theorem sweepTimer_refcount_armTwiceReleaseTwice :
    (∀ k, (armTwiceReleaseTwice.take k).count .disable ≤
      (armTwiceReleaseTwice.take k).count .enable) ∧
    (run 4 armTwiceReleaseTwice).sweepTimerCount =
        armTwiceReleaseTwice.count .enable - armTwiceReleaseTwice.count .disable ∧
      (∀ k, (run 4 (armTwiceReleaseTwice.take k)).sweepTimerCount =
        (armTwiceReleaseTwice.take k).count .enable -
          (armTwiceReleaseTwice.take k).count .disable) ∧
      ((∀ k, (run 4 (armTwiceReleaseTwice.take k)).sweepTimerCount < 2147483648) ↔
        ∀ k, ((armTwiceReleaseTwice.take k).count .enable : Int) -
          (armTwiceReleaseTwice.take k).count .disable < 2147483648) ∧
      (run 4 armTwiceReleaseTwice).setting =
        (if 0 < (run 4 armTwiceReleaseTwice).sweepTimerCount then (4 * 1000, 4 * 1000)
          else (0, 0)) ∧
      ∀ k, k < armTwiceReleaseTwice.length →
        (run 4 (armTwiceReleaseTwice.take (k + 1))).sets =
          (run 4 (armTwiceReleaseTwice.take k)).sets ++
            if (run 4 (armTwiceReleaseTwice.take k)).sweepTimerCount = 0 ∧
                (run 4 (armTwiceReleaseTwice.take (k + 1))).sweepTimerCount = 1 then
              [(4 * 1000, 4 * 1000)]
            else if (run 4 (armTwiceReleaseTwice.take k)).sweepTimerCount = 1 ∧
                (run 4 (armTwiceReleaseTwice.take (k + 1))).sweepTimerCount = 0 then [(0, 0)]
            else [] :=
  have balanced : ∀ k, (armTwiceReleaseTwice.take k).count .disable ≤
      (armTwiceReleaseTwice.take k).count .enable
    | 0 | 1 | 2 | 3 | 4 => by decide
    | _ + 5 => by rw [List.take_of_length_le (by simp [armTwiceReleaseTwice])]; decide
  ⟨balanced, sweepTimer_refcount 4 _ balanced⟩

/-- The timer is set three times: armed, disarmed, armed again. -/
example : (run 4 armTwiceReleaseTwice).sets = [(4000, 4000), (0, 0), (4000, 4000)] := by decide

end BunLoop
