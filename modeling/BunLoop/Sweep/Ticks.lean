import BunLoop.Sweep

/-!
# The two timing wheels

A socket armed `k` short ticks ahead is met on the `k`-th sweep after, one armed `m` long ticks
ahead within the `15 m` sweeps after, and 255 never (`timeouts_fire_on_time`), as long as the
`unsigned` tick does not wrap. Its period `2 ^ 32` is no multiple of 240 or of `15 * 240`, so a
timeout armed across the wrap comes late (`globalTick_wrap_delays_timeouts`).
-/

namespace BunLoop

theorem UInt32.toNat_add_wrap (a b : UInt32) : (a + b).toNat = (a.toNat + b.toNat) % 4294967296 :=
  BitVec.toNat_add _ _

namespace Loop

def ticks (st : Loop) (c : Nat) : Nat → Loop
  | 0 => st
  | j + 1 => (st.ticks c j).tick c

variable {st : Loop} {c : Nat}

theorem tick_globalTick_self : (st.tick c).globalTick c = st.globalTick c + 1 := by
  simp [tick]

theorem ticks_globalTick (j : Nat) :
    ((st.ticks c j).globalTick c).toNat = ((st.globalTick c).toNat + j) % 4294967296 := by
  induction j with
  | zero => exact (Nat.mod_eq_of_lt (st.globalTick c).toNat_lt_size).symm
  | succ j ih =>
    rw [ticks, tick_globalTick_self, UInt32.toNat_add_wrap, ih]
    rw [Nat.mod_add_mod, Nat.add_assoc]
    rfl

end Loop

theorem toNat_toUInt8 {n : Nat} (h : n < 256) : n.toUInt8.toNat = n := by
  simp [Nat.toUInt8, UInt8.toNat, UInt8.ofNat]
  omega

theorem shortTicksOf_toNat (g : UInt32) : (shortTicksOf g).toNat = g.toNat % 240 := by
  simp only [shortTicksOf, UInt32.toUInt8, UInt32.toNat_mod, show UInt32.toNat 240 = 240 from rfl]
  exact toNat_toUInt8 (by omega)

theorem longTicksOf_toNat (g : UInt32) : (longTicksOf g).toNat = g.toNat / 15 % 240 := by
  simp only [longTicksOf, UInt32.toUInt8, UInt32.toNat_mod, UInt32.toNat_div,
    show UInt32.toNat 240 = 240 from rfl, show UInt32.toNat 15 = 15 from rfl]
  exact toNat_toUInt8 (by omega)

theorem ticks_globalTick_of_lt {st : Loop} {c j : Nat}
    (h : (st.globalTick c).toNat + j < 4294967296) :
    ((st.ticks c j).globalTick c).toNat = (st.globalTick c).toNat + j := by
  rw [Loop.ticks_globalTick, Nat.mod_eq_of_lt h]

theorem wheel_ne {q i m : Nat} (hi : i < m) (hm : m ≤ 239) :
    (q + i) % 240 ≠ (q % 240 + m) % 240 := by
  omega

theorem longWheel_ne {g j m : Nat} (hj : j < 15 * (g / 15 + m) - g) (hm : m ≤ 239) :
    (g + j) / 15 % 240 ≠ (g / 15 % 240 + m) % 240 := by
  rw [← Nat.add_sub_cancel' (Nat.div_le_div_right (Nat.le_add_right g j))]
  exact wheel_ne (by omega) hm

/-- The sweeps that follow a context's tick `g` meet a `timeout` armed at `(g % 240 + k) % 240`
first on the `k`-th of them, and a `long_timeout` armed at `((g / 15) % 240 + m) % 240` first
after `15 (m - 1) + 1` to `15 m` of them, unless the counter wraps in between; neither wheel ever
meets the disarmed value 255. -/
theorem timeouts_fire_on_time (st : Loop) (c : Nat) :
    (∀ k (t : UInt8), 1 ≤ k → k ≤ 239 → (st.globalTick c).toNat + k < 4294967296 →
      t.toNat = ((st.globalTick c).toNat % 240 + k) % 240 →
      shortTicksOf ((st.ticks c k).globalTick c) = t ∧
        ∀ j, 1 ≤ j → j < k → shortTicksOf ((st.ticks c j).globalTick c) ≠ t) ∧
    (∀ m (t : UInt8), 1 ≤ m → m ≤ 239 → (st.globalTick c).toNat + 15 * m < 4294967296 →
      t.toNat = ((st.globalTick c).toNat / 15 % 240 + m) % 240 →
      ∃ k, 15 * (m - 1) + 1 ≤ k ∧ k ≤ 15 * m ∧ longTicksOf ((st.ticks c k).globalTick c) = t ∧
        ∀ j, 1 ≤ j → j < k → longTicksOf ((st.ticks c j).globalTick c) ≠ t) ∧
    ∀ j, shortTicksOf ((st.ticks c j).globalTick c) ≠ 255 ∧
      longTicksOf ((st.ticks c j).globalTick c) ≠ 255 := by
  refine ⟨fun k t _ hk fits ht => ⟨UInt8.toNat.inj ?_, fun j _ hj e => ?_⟩,
    fun m t _ hm fits ht => ⟨15 * ((st.globalTick c).toNat / 15 + m) - (st.globalTick c).toNat,
      by omega, by omega, UInt8.toNat.inj ?_, fun j _ hj e => ?_⟩,
    fun j => ⟨fun e => ?_, fun e => ?_⟩⟩
  · rw [shortTicksOf_toNat, ticks_globalTick_of_lt fits, ht, Nat.mod_add_mod]
  · have := congrArg UInt8.toNat e
    rw [shortTicksOf_toNat, ticks_globalTick_of_lt (by omega), ht] at this
    exact wheel_ne hj hk this
  · rw [longTicksOf_toNat, ticks_globalTick_of_lt (by omega), ht, Nat.add_sub_cancel' (by omega),
      Nat.mul_div_cancel_left _ (by decide), Nat.mod_add_mod]
  · have := congrArg UInt8.toNat e
    rw [longTicksOf_toNat, ticks_globalTick_of_lt (by omega), ht] at this
    exact longWheel_ne hj hm this
  · have : _ = 255 := (shortTicksOf_toNat _).symm.trans (congrArg UInt8.toNat e)
    omega
  · have : _ = 255 := (longTicksOf_toNat _).symm.trans (congrArg UInt8.toNat e)
    omega

def tickHundred : Loop := { Loop.init with globalTick := fun _ => 100 }

/-- At tick 100, a `timeout` armed 5 short ticks ahead (at 105) is met on the 5th sweep and not
before, and a `long_timeout` armed one long tick ahead (at 7) within the next 15 sweeps. -/
theorem timeouts_fire_on_time_tickHundred :
    (shortTicksOf ((tickHundred.ticks 0 5).globalTick 0) = 105 ∧
      ∀ j, 1 ≤ j → j < 5 → shortTicksOf ((tickHundred.ticks 0 j).globalTick 0) ≠ 105) ∧
    ∃ k, 1 ≤ k ∧ k ≤ 15 ∧ longTicksOf ((tickHundred.ticks 0 k).globalTick 0) = 7 ∧
      ∀ j, 1 ≤ j → j < k → longTicksOf ((tickHundred.ticks 0 j).globalTick 0) ≠ 7 :=
  ⟨(timeouts_fire_on_time tickHundred 0).1 5 105 (by decide) (by decide) (by decide) (by decide),
    (timeouts_fire_on_time tickHundred 0).2.1 1 7 (by decide) (by decide) (by decide)
      (by decide)⟩

/-- One turn of each wheel: tick 239 is followed by 0, long tick 239 by 0. -/
example : shortTicksOf 239 = 239 ∧ shortTicksOf 240 = 0 ∧ longTicksOf 3599 = 239 ∧
    longTicksOf 3600 = 0 := by decide

/-- Where the counter sits at `UINT_MAX`, the next sweep computes tick 0. A timeout armed one short
tick ahead there, at `(15 + 1) % 240 = 16`, is met on the 17th sweep, not the first; one armed one
long tick ahead, at `(113 + 1) % 240 = 114`, is met on the 1711th sweep, not within 15. -/
theorem globalTick_wrap_delays_timeouts (st : Loop) (c : Nat)
    (wrap : st.globalTick c = 4294967295) :
    (shortTicksOf (st.globalTick c)).toNat = 15 ∧
      (∀ j, 1 ≤ j → j < 17 → shortTicksOf ((st.ticks c j).globalTick c) ≠ 16) ∧
      shortTicksOf ((st.ticks c 17).globalTick c) = 16 ∧
      (longTicksOf (st.globalTick c)).toNat = 113 ∧
      (∀ j, 1 ≤ j → j ≤ 1710 → longTicksOf ((st.ticks c j).globalTick c) ≠ 114) ∧
      longTicksOf ((st.ticks c 1711).globalTick c) = 114 := by
  have after : ∀ j, 1 ≤ j → j ≤ 4294967296 → ((st.ticks c j).globalTick c).toNat = j - 1 :=
    fun j h₁ h₂ => by
      rw [Loop.ticks_globalTick, wrap, show UInt32.toNat 4294967295 = 4294967295 from rfl,
        show 4294967295 + j = j - 1 + 4294967296 by omega, Nat.add_mod_right,
        Nat.mod_eq_of_lt (by omega)]
  have short : ∀ j, 1 ≤ j → j ≤ 4294967296 →
      (shortTicksOf ((st.ticks c j).globalTick c)).toNat = (j - 1) % 240 := fun j h₁ h₂ => by
    rw [shortTicksOf_toNat, after j h₁ h₂]
  have long : ∀ j, 1 ≤ j → j ≤ 4294967296 →
      (longTicksOf ((st.ticks c j).globalTick c)).toNat = (j - 1) / 15 % 240 := fun j h₁ h₂ => by
    rw [longTicksOf_toNat, after j h₁ h₂]
  refine ⟨by rw [wrap]; rfl, fun j h₁ h₂ e => ?_,
    UInt8.toNat.inj (short 17 (by decide) (by decide)), by rw [wrap]; rfl, fun j h₁ h₂ e => ?_,
    UInt8.toNat.inj (long 1711 (by decide) (by decide))⟩
  · have : _ = 16 := (short j h₁ (by omega)).symm.trans (congrArg UInt8.toNat e)
    omega
  · have : _ = 114 := (long j h₁ (by omega)).symm.trans (congrArg UInt8.toNat e)
    omega

def wrappedTick : Loop := { Loop.init with globalTick := fun _ => 4294967295 }

theorem globalTick_wrap_delays_timeouts_wrappedTick :
    wrappedTick.globalTick 0 = 4294967295 ∧
      (shortTicksOf (wrappedTick.globalTick 0)).toNat = 15 ∧
      (∀ j, 1 ≤ j → j < 17 → shortTicksOf ((wrappedTick.ticks 0 j).globalTick 0) ≠ 16) ∧
      shortTicksOf ((wrappedTick.ticks 0 17).globalTick 0) = 16 ∧
      (longTicksOf (wrappedTick.globalTick 0)).toNat = 113 ∧
      (∀ j, 1 ≤ j → j ≤ 1710 → longTicksOf ((wrappedTick.ticks 0 j).globalTick 0) ≠ 114) ∧
      longTicksOf ((wrappedTick.ticks 0 1711).globalTick 0) = 114 :=
  ⟨rfl, globalTick_wrap_delays_timeouts wrappedTick 0 rfl⟩

end BunLoop
