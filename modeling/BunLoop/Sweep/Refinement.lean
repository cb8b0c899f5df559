import BunLoop.Sweep

/-!
# The optimised walk is the plain loop

With callbacks that link and unlink no socket, the walk with its fast seek, slow path and
iterator bookkeeping calls what the plain loop over the list calls. The plain loop does not use
the context's iterator, so the callbacks are taken to write only timeout bytes and not to read
the iterator (`RewritesTimeouts`).
-/

namespace BunLoop

open Function

namespace Loop

def withIterator (st : Loop) (it : Nat → Option Nat) : Loop := { st with iterator := it }

def withTimeouts (st : Loop) (t lt : Nat → UInt8) : Loop :=
  { st with timeout := t, longTimeout := lt }

variable {st : Loop} {it : Nat → Option Nat} {c s : Nat} {v : UInt8} {p : Option Nat}

@[simp] theorem withIterator_timeout : (st.withIterator it).timeout = st.timeout := rfl
@[simp] theorem withIterator_longTimeout : (st.withIterator it).longTimeout = st.longTimeout := rfl
@[simp] theorem withIterator_sockets : (st.withIterator it).sockets = st.sockets := rfl
@[simp] theorem withIterator_iterator : (st.withIterator it).iterator = it := rfl
@[simp] theorem withIterator_self : st.withIterator st.iterator = st := rfl
@[simp] theorem withIterator_setIterator :
    (st.withIterator it).setIterator c p = st.withIterator (update it c p) := rfl
@[simp] theorem withIterator_setTimeout :
    (st.withIterator it).setTimeout s v = (st.setTimeout s v).withIterator it := rfl
@[simp] theorem withIterator_setLongTimeout :
    (st.withIterator it).setLongTimeout s v = (st.setLongTimeout s v).withIterator it := rfl
@[simp] theorem withIterator_withIterator {it' : Nat → Option Nat} :
    (st.withIterator it).withIterator it' = st.withIterator it' := rfl
@[simp] theorem withTimeouts_sockets {t lt : Nat → UInt8} :
    (st.withTimeouts t lt).sockets = st.sockets := rfl
@[simp] theorem withTimeouts_iterator {t lt : Nat → UInt8} :
    (st.withTimeouts t lt).iterator = st.iterator := rfl

end Loop

/-- The callback writes only `timeout` and `long_timeout` fields, and what it writes does not
depend on the contexts' sweep iterators. -/
def RewritesTimeouts (g : Loop → Nat → Loop) : Prop :=
  ∀ (st : Loop) (s : Nat) (it : Nat → Option Nat),
    g (st.withIterator it) s =
      (st.withTimeouts (g st s).timeout (g st s).longTimeout).withIterator it

def TimeoutCallbacks.RewritesTimeouts (cb : TimeoutCallbacks) : Prop :=
  (∀ g ∈ cb.onSocketTimeout, BunLoop.RewritesTimeouts g) ∧
    ∀ g ∈ cb.onSocketLongTimeout, BunLoop.RewritesTimeouts g

/-- The plain loop's work on one socket: if its timeout matches, set it to 255 and call
`on_socket_timeout(s)` unless it is NULL; then if its long timeout matches, set it to 255 and call
`on_socket_long_timeout(s)` unless it is NULL. Each call is recorded with the heap in which the
byte matched and the heap the callback is given. -/
def plainStep (cb : TimeoutCallbacks) (shortTicks longTicks : UInt8) (st : Loop) (s : Nat) :
    Loop × List Fired :=
  let r₁ : Loop × List Fired :=
    if shortTicks = st.timeout s then
      match cb.onSocketTimeout with
      | some onTimeout =>
        (onTimeout (st.setTimeout s 255) s, [⟨false, s, st, st.setTimeout s 255⟩])
      | none => (st.setTimeout s 255, [])
    else (st, [])
  let r₂ : Loop × List Fired :=
    if longTicks = r₁.1.longTimeout s then
      match cb.onSocketLongTimeout with
      | some onLongTimeout =>
        (onLongTimeout (r₁.1.setLongTimeout s 255) s,
          [⟨true, s, r₁.1, r₁.1.setLongTimeout s 255⟩])
      | none => (r₁.1.setLongTimeout s 255, [])
    else (r₁.1, [])
  (r₂.1, r₁.2 ++ r₂.2)

/-- Each call the plain loop makes is the walk's `fire`. -/
theorem plainStep_eq_fire (cb : TimeoutCallbacks) (sT lT : UInt8) (st : Loop) (s : Nat) :
    plainStep cb sT lT st s =
      let r₁ := if sT = st.timeout s then
          fire cb.onSocketTimeout false st (st.setTimeout s 255) s
        else (st, [])
      let r₂ := if lT = r₁.1.longTimeout s then
          fire cb.onSocketLongTimeout true r₁.1 (r₁.1.setLongTimeout s 255) s
        else (r₁.1, [])
      (r₂.1, r₁.2 ++ r₂.2) :=
  rfl

def plainSweep (cb : TimeoutCallbacks) (shortTicks longTicks : UInt8) :
    List Nat → Loop → Loop × List Fired
  | [], st => (st, [])
  | s :: l, st =>
    let r := plainStep cb shortTicks longTicks st s
    let w := plainSweep cb shortTicks longTicks l r.1
    (w.1, r.2 ++ w.2)

def plainSweepContext (cb : TimeoutCallbacks) (c : Nat) (l : List Nat) (st : Loop) :
    Loop × List Fired :=
  let st₁ := st.tick c
  plainSweep cb (shortTicksOf (st₁.globalTick c)) (longTicksOf (st₁.globalTick c)) l st₁

variable {cb : TimeoutCallbacks} {f : Option (Loop → Nat → Loop)} {long : Bool}
  {seen seen' given p : Loop} {s c : Nat} {it : Nat → Option Nat} {sT lT : UInt8}

theorem fire_eq_withTimeouts (hf : ∀ g ∈ f, RewritesTimeouts g) :
    ∃ t lt, (fire f long seen given s).1 = given.withTimeouts t lt := by
  cases f with
  | none => exact ⟨given.timeout, given.longTimeout, rfl⟩
  | some g =>
    have := hf g rfl given s given.iterator
    simp only [Loop.withIterator_self] at this
    exact ⟨_, _, this⟩

theorem fire_withIterator (hf : ∀ g ∈ f, RewritesTimeouts g) (P : Prop) [Decidable P]
    (long : Bool) (seen seen' given base : Loop) (it : Nat → Option Nat) (s : Nat) :
    let w := if P then fire f long seen (given.withIterator it) s else (base.withIterator it, [])
    let q := if P then fire f long seen' given s else (base, [])
    w.1 = q.1.withIterator it ∧ w.2.map Fired.key = q.2.map Fired.key := by
  by_cases hP : P
  · rw [if_pos hP, if_pos hP]
    cases f with
    | none => exact ⟨rfl, rfl⟩
    | some g =>
      have hg := hf g rfl given s
      have self := hg given.iterator
      simp only [Loop.withIterator_self] at self
      refine ⟨?_, rfl⟩
      show g (given.withIterator it) s = (g given s).withIterator it
      rw [hg]
      conv_rhs => rw [self]
      rfl
  · rw [if_neg hP, if_neg hP]
    exact ⟨rfl, rfl⟩

theorem plainStep_eq_withTimeouts (hcb : cb.RewritesTimeouts) (sT lT : UInt8) (p : Loop)
    (s : Nat) :
    ∃ t lt, (plainStep cb sT lT p s).1 = p.withTimeouts t lt := by
  have short : ∃ t lt, (if sT = p.timeout s then fire cb.onSocketTimeout false p
      (p.setTimeout s 255) s else (p, [])).1 = p.withTimeouts t lt := by
    split
    · exact fire_eq_withTimeouts hcb.1
    · exact ⟨p.timeout, p.longTimeout, rfl⟩
  obtain ⟨t, lt, h₁⟩ := short
  simp only [plainStep_eq_fire, h₁]
  split
  · exact fire_eq_withTimeouts hcb.2
  · exact ⟨t, lt, rfl⟩

theorem plainSweep_eq_withTimeouts (hcb : cb.RewritesTimeouts) (sT lT : UInt8) (l : List Nat)
    (p : Loop) :
    ∃ t lt, (plainSweep cb sT lT l p).1 = p.withTimeouts t lt := by
  induction l generalizing p with
  | nil => exact ⟨p.timeout, p.longTimeout, rfl⟩
  | cons s l ih =>
    obtain ⟨t, lt, h₁⟩ := plainStep_eq_withTimeouts hcb sT lT p s
    obtain ⟨t', lt', h₂⟩ := ih (plainStep cb sT lT p s).1
    refine ⟨t', lt', ?_⟩
    show (plainSweep cb sT lT l (plainStep cb sT lT p s).1).1 = _
    rw [h₂, h₁]
    rfl

theorem slowPath_withIterator (hcb : cb.RewritesTimeouts) (c : Nat) (sT lT : UInt8) (p : Loop)
    (it : Nat → Option Nat) (s : Nat) :
    let r := slowPath cb c sT lT (p.withIterator it) s
    r.1 = (plainStep cb sT lT p s).1.withIterator (update it c (some s)) ∧
      r.2.1.map Fired.key = (plainStep cb sT lT p s).2.map Fired.key ∧
      r.2.2 = p.sockets.next s := by
  obtain ⟨w₁, k₁⟩ := fire_withIterator hcb.1 (sT = p.timeout s) false
    (p.withIterator (update it c (some s))) p (p.setTimeout s 255) p (update it c (some s)) s
  obtain ⟨t, lt, step⟩ := plainStep_eq_withTimeouts hcb sT lT p s
  simp only [plainStep_eq_fire] at step
  generalize hq : (if sT = p.timeout s then fire cb.onSocketTimeout false p (p.setTimeout s 255) s
    else (p, [])) = q at w₁ k₁ step
  obtain ⟨w₂, k₂⟩ := fire_withIterator hcb.2 (lT = q.1.longTimeout s) true
    (q.1.withIterator (update it c (some s))) q.1 (q.1.setLongTimeout s 255) q.1
    (update it c (some s)) s
  simp only [slowPath, plainStep_eq_fire, Loop.withIterator_setIterator, Loop.withIterator_timeout,
    Loop.withIterator_setTimeout, hq, w₁, Loop.withIterator_iterator, update_same, true_and,
    Loop.withIterator_longTimeout, Loop.withIterator_setLongTimeout, w₂, List.map_append, k₁, k₂]
  simp [step]

theorem plainStep_miss (short : sT ≠ p.timeout s) (long : lT ≠ p.longTimeout s) :
    plainStep cb sT lT p s = (p, []) := by
  simp [plainStep_eq_fire, short, long]

/-- The simulation: from a walk heap that is a plain heap with other iterators, the walk from the
front of `l` ends in the plain loop's heap, with the context's iterator cleared, after calling the
same callbacks on the same sockets in the same order. -/
theorem sweepSockets_simulates (hcb : cb.RewritesTimeouts) (c : Nat) (sT lT : UInt8) :
    ∀ (l : List Nat) (p : Loop) (it : Nat → Option Nat) (fuel : Nat),
      Path p.sockets.next none l.head? l → l.length < fuel →
      ∃ fs, sweepSockets cb c sT lT fuel (p.withIterator it) l.head? =
          some ((plainSweep cb sT lT l p).1.withIterator (update it c none), fs) ∧
        fs.map Fired.key = (plainSweep cb sT lT l p).2.map Fired.key
  | [], p, it, fuel + 1, _, _ => ⟨[], rfl, rfl⟩
  | s :: l, p, it, fuel + 1, path, hfuel => by
    have hnext : p.sockets.next s = l.head? := by
      cases path with
      | cons h => exact h.start_eq_head
    have tail : Path p.sockets.next none l.head? l := by
      cases path with
      | cons h => exact hnext ▸ h
    have hlen : l.length < fuel := by simp only [List.length_cons] at hfuel; omega
    simp only [List.head?_cons, sweepSockets, Loop.withIterator_timeout,
      Loop.withIterator_longTimeout]
    split
    · obtain ⟨w, k, n⟩ := slowPath_withIterator hcb c sT lT p it s
      obtain ⟨t, lt, step⟩ := plainStep_eq_withTimeouts hcb sT lT p s
      obtain ⟨fs, run, keys⟩ := sweepSockets_simulates hcb c sT lT l (plainStep cb sT lT p s).1
        (update it c (some s)) fuel (by rw [step]; exact tail) hlen
      refine ⟨(slowPath cb c sT lT (p.withIterator it) s).2.1 ++ fs, ?_, ?_⟩
      · rw [w, n, hnext, run]
        simp [plainSweep, update_idem]
      · simp [plainSweep, k, keys]
    · rename_i due
      push_neg at due
      obtain ⟨fs, run, keys⟩ := sweepSockets_simulates hcb c sT lT l p it fuel tail hlen
      have miss : plainStep cb sT lT p s = (p, []) := plainStep_miss due.1 due.2
      refine ⟨fs, ?_, by simp [plainSweep, miss, keys]⟩
      rw [Loop.withIterator_sockets, hnext, run]
      simp [plainSweep, miss]

/-- The walk of one context in `us_internal_timer_sweep`, with callbacks that rewrite timeout
bytes but link and unlink no socket, calls the same callbacks on the same sockets in the same
order as the plain loop, and ends in the plain loop's heap with the context's iterator cleared. -/
theorem sweepContext_eq_plainSweepContext (cb : TimeoutCallbacks) (hcb : cb.RewritesTimeouts)
    (c : Nat) (st : Loop) (l : List Nat) (list : Path st.sockets.next none (st.headSockets c) l) :
    ∃ fs, sweepContext cb c (l.length + 1) st =
        some ((plainSweepContext cb c l st).1.setIterator c none, fs) ∧
      fs.map Fired.key = (plainSweepContext cb c l st).2.map Fired.key := by
  obtain ⟨t, lt, plain⟩ := plainSweep_eq_withTimeouts hcb (shortTicksOf ((st.tick c).globalTick c))
    (longTicksOf ((st.tick c).globalTick c)) l (st.tick c)
  obtain ⟨fs, run, keys⟩ := sweepSockets_simulates hcb c (shortTicksOf ((st.tick c).globalTick c))
    (longTicksOf ((st.tick c).globalTick c)) l (st.tick c) (st.tick c).iterator (l.length + 1)
    (list.start_eq_head ▸ list) (Nat.lt_succ_self _)
  refine ⟨fs, ?_, keys⟩
  simp only [sweepContext, plainSweepContext, Loop.withIterator_self] at run ⊢
  rw [show (st.tick c).headSockets c = l.head? from list.start_eq_head, run, plain]
  rfl

theorem sweepContext_eq_plainSweepContext_disarmNext :
    let cb : TimeoutCallbacks := ⟨some disarmNext, some disarmNext⟩
    let st := ((Loop.init.linkSocket 0 2).linkSocket 0 1).setTimeout 1 1
    cb.RewritesTimeouts ∧ Path st.sockets.next none (st.headSockets 0) [1, 2] ∧
      ∃ fs, sweepContext cb 0 ([1, 2].length + 1) st =
          some ((plainSweepContext cb 0 [1, 2] st).1.setIterator 0 none, fs) ∧
        fs.map Fired.key = (plainSweepContext cb 0 [1, 2] st).2.map Fired.key :=
  have hcb : TimeoutCallbacks.RewritesTimeouts ⟨some disarmNext, some disarmNext⟩ :=
    ⟨fun _ h => Option.some_inj.mp h ▸ fun _ _ _ => rfl,
      fun _ h => Option.some_inj.mp h ▸ fun _ _ _ => rfl⟩
  have list : Path (((Loop.init.linkSocket 0 2).linkSocket 0 1).setTimeout 1 1).sockets.next none
      ((((Loop.init.linkSocket 0 2).linkSocket 0 1).setTimeout 1 1).headSockets 0) [1, 2] :=
    .cons (.cons .nil)
  ⟨hcb, list, sweepContext_eq_plainSweepContext _ hcb 0 _ [1, 2] list⟩

end BunLoop
