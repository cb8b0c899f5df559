import BunLoop.LoopContexts
import BunLoop.Sweep.Reentrancy

/-!
# The outer walk of the sweep

`us_internal_loop_unlink` never moves `loop->data.iterator` on, so a timeout callback that
destroys the context the walk is at sends the walk into the closed-context list
(`timerSweep_follows_freed_context`). When the callbacks neither create nor destroy a context, the
walk ticks every context of the loop exactly once (`timerSweep_ticks_each_context`).
-/

namespace BunLoop

/-- Two contexts linked as `1 → 2`, context 3 already on the closed-context list, and one socket
of context 1 whose short timeout is due at the first tick. -/
def twoContexts : Loop :=
  let st := ({ Loop.init with closedContextHead := some 3 }.loopLink 2).loopLink 1
  ((st.linkSocket 1 10).setTimeout 10 1).setLongTimeout 10 255

/-- Context 1's `on_socket_timeout` destroys context 1; the other contexts have no callbacks. -/
def freeOnTimeout (c : Nat) : TimeoutCallbacks :=
  if c = 1 then ⟨some fun st _ => st.contextFree 1, none⟩ else ⟨none, none⟩

/-- Context 2 is linked from the start of the sweep to its end, yet its tick never advances, while
context 3, unlinked throughout, is ticked. -/
theorem timerSweep_follows_freed_context :
    twoContexts.contexts.Holds twoContexts.head [1, 2] ∧
    ∃ st' fs, timerSweep freeOnTimeout 8 twoContexts = some (st', fs) ∧
      st'.contexts.Holds st'.head [2] ∧ twoContexts.globalTick 2 = 0 ∧ st'.globalTick 2 = 0 ∧
      twoContexts.globalTick 3 = 0 ∧ st'.globalTick 3 = 1 :=
  ⟨⟨.cons (.cons .nil), rfl, rfl, trivial⟩, _, _, rfl, ⟨.cons .nil, rfl, trivial⟩,
    rfl, rfl, rfl, rfl⟩

/-! ## Callbacks that keep the contexts -/

namespace Loop

/-- `st'` has `st`'s context list, its head and every context's tick. -/
def SameContexts (st st' : Loop) : Prop :=
  st'.contexts = st.contexts ∧ st'.head = st.head ∧ st'.globalTick = st.globalTick

theorem SameContexts.refl (st : Loop) : st.SameContexts st := ⟨rfl, rfl, rfl⟩

theorem SameContexts.trans {st₁ st₂ st₃ : Loop} (h : st₁.SameContexts st₂)
    (h' : st₂.SameContexts st₃) : st₁.SameContexts st₃ :=
  ⟨h'.1.trans h.1, h'.2.1.trans h.2.1, h'.2.2.trans h.2.2⟩

end Loop

/-- Both callbacks neither create nor destroy a context, nor touch a context's tick. -/
def TimeoutCallbacks.KeepsContexts (cb : TimeoutCallbacks) : Prop :=
  ∀ g, (g ∈ cb.onSocketTimeout ∨ g ∈ cb.onSocketLongTimeout) →
    ∀ (st : Loop) (s : Nat), st.SameContexts (g st s)

variable {cb : TimeoutCallbacks} {c : Nat} {sT lT : UInt8}

theorem fireIf_sameContexts {f : Option (Loop → Nat → Loop)}
    (hf : ∀ g ∈ f, ∀ (st : Loop) (s : Nat), st.SameContexts (g st s)) (Q : Prop) [Decidable Q]
    (long : Bool) (base seen given : Loop) (s : Nat) (hgiven : base.SameContexts given) :
    base.SameContexts (if Q then fire f long seen given s else (base, [])).1 := by
  split
  · cases f with
    | none => exact hgiven
    | some g => exact hgiven.trans (hf g rfl given s)
  · exact .refl base

theorem slowPath_sameContexts (keeps : cb.KeepsContexts) (st : Loop) (s : Nat) :
    st.SameContexts (slowPath cb c sT lT st s).1 := by
  have setIterator : st.SameContexts (st.setIterator c (some s)) := ⟨rfl, rfl, rfl⟩
  have r₂ := setIterator.trans (fireIf_sameContexts (fun g hg => keeps g (.inl hg))
    (sT = (st.setIterator c (some s)).timeout s) false (st.setIterator c (some s))
    (st.setIterator c (some s)) ((st.setIterator c (some s)).setTimeout s 255) s ⟨rfl, rfl, rfl⟩)
  exact r₂.trans (fireIf_sameContexts (fun g hg => keeps g (.inr hg)) _ true _ _ _ s
    ⟨rfl, rfl, rfl⟩)

theorem sweepSockets_sameContexts (keeps : cb.KeepsContexts) :
    ∀ (fuel : Nat) (st : Loop) (p : Option Nat) {st' : Loop} {fs : List Fired},
      sweepSockets cb c sT lT fuel st p = some (st', fs) → st.SameContexts st'
  | 0, _, _, _, _, h => nomatch h
  | _ + 1, st, none, _, _, h => by
    obtain ⟨rfl, -⟩ := Prod.mk.inj (Option.some.inj h)
    exact ⟨rfl, rfl, rfl⟩
  | fuel + 1, st, some s, _, _, h => by
    simp only [sweepSockets] at h
    split at h
    · obtain ⟨⟨st₂, fs₂⟩, run, e⟩ := Option.map_eq_some'.mp h
      obtain ⟨rfl, -⟩ := Prod.mk.inj e
      exact (slowPath_sameContexts keeps st s).trans (sweepSockets_sameContexts keeps fuel _ _ run)
    · exact sweepSockets_sameContexts keeps fuel st _ h

theorem sweepSockets_lists (hcb : cb.Edits) :
    ∀ (fuel : Nat) (st : Loop) (L : Nat → List Nat) (P S : List Nat) {st' : Loop}
      {fs : List Fired}, st.Lists L → L c = P ++ S →
      sweepSockets cb c sT lT fuel st S.head? = some (st', fs) →
      (∃ L', st'.Lists L') ∧ st'.loopIterator = st.loopIterator
  | 0, _, _, _, _, _, _, _, _, h => nomatch h
  | _ + 1, st, L, _, [], _, _, lists, _, h => by
    obtain ⟨rfl, -⟩ := Prod.mk.inj (Option.some.inj h)
    exact ⟨⟨L, lists.setIterator⟩, rfl⟩
  | fuel + 1, st, L, P, s :: S, _, _, lists, hc, h => by
    simp only [List.head?_cons, sweepSockets] at h
    split at h
    · obtain ⟨⟨L', P', S', lists', hc', hnext, -⟩, it, -, -⟩ := slowPath_keeps sT lT hcb lists hc
      obtain ⟨⟨st₂, fs₂⟩, run, e⟩ := Option.map_eq_some'.mp h
      obtain ⟨rfl, -⟩ := Prod.mk.inj e
      rw [hnext] at run
      obtain ⟨lists₂, it₂⟩ := sweepSockets_lists hcb fuel _ L' P' S' lists' hc' run
      exact ⟨lists₂, it₂.trans it⟩
    · rw [Loop.Lists.next_eq lists hc] at h
      exact sweepSockets_lists hcb fuel st L (P ++ [s]) S lists (by simp [hc]) h

theorem sweepSockets_mono :
    ∀ {fuel fuel' : Nat} {st : Loop} {p : Option Nat} {r : Loop × List Fired}, fuel ≤ fuel' →
      sweepSockets cb c sT lT fuel st p = some r → sweepSockets cb c sT lT fuel' st p = some r
  | 0, _, _, _, _, _, h => nomatch h
  | _ + 1, 0, _, _, _, le, _ => absurd le (Nat.not_succ_le_zero _)
  | _ + 1, _ + 1, _, none, _, _, h => h
  | fuel + 1, fuel' + 1, st, some s, r, le, h => by
    simp only [sweepSockets] at h ⊢
    split at h
    · rw [if_pos ‹_›]
      obtain ⟨w, run, e⟩ := Option.map_eq_some'.mp h
      exact Option.map_eq_some'.mpr ⟨w, sweepSockets_mono (Nat.le_of_succ_le_succ le) run, e⟩
    · rw [if_neg ‹_›]
      exact sweepSockets_mono (Nat.le_of_succ_le_succ le) h

theorem sweepContext_step (hcb : cb.Edits) (keeps : cb.KeepsContexts) {st : Loop}
    {L : Nat → List Nat} (lists : st.Lists L) :
    ∃ st' fs L', sweepContext cb c ((L c).length + 1) st = some (st', fs) ∧ st'.Lists L' ∧
      st'.loopIterator = st.loopIterator ∧ st'.contexts = st.contexts ∧ st'.head = st.head ∧
      st'.globalTick = Function.update st.globalTick c (st.globalTick c + 1) ∧
      ∀ f ∈ fs,
        f.Due c (shortTicksOf (st.globalTick c + 1)) (longTicksOf (st.globalTick c + 1)) := by
  have ticked : (st.tick c).Lists L := ⟨lists.holds, lists.disjoint⟩
  have tick : (st.tick c).globalTick c = st.globalTick c + 1 := by simp [Loop.tick]
  obtain ⟨st', fs, run, -, -, good⟩ := sweepSockets_walk (c := c)
    (shortTicksOf ((st.tick c).globalTick c)) (longTicksOf ((st.tick c).globalTick c))
    hcb _ (st.tick c) L [] (L c) ticked rfl (Nat.lt_succ_self _)
  obtain ⟨⟨L', lists'⟩, it⟩ := sweepSockets_lists hcb _ (st.tick c) L [] (L c) ticked rfl run
  obtain ⟨contexts, head, ticks⟩ := sweepSockets_sameContexts keeps _ _ _ run
  refine ⟨st', fs, L', ?_, lists', it, contexts, head, ticks, fun f hf => tick ▸ (good f hf).2⟩
  rw [← run, sweepContext, (ticked.holds c).head_eq]

/-- The outer walk from the context at `loop->data.iterator`, along a chain `l` of distinct
contexts: with enough fuel it ends, ticks each context of `l` once and no other, and calls each
callback only as `Fired.Due` allows for some context of `l` at its new tick. -/
theorem sweepContexts_run {cb : Nat → TimeoutCallbacks} (hcb : ∀ c, (cb c).Edits)
    (keeps : ∀ c, (cb c).KeepsContexts) :
    ∀ (l : List Nat) (st : Loop) (L : Nat → List Nat), st.Lists L →
      Path st.contexts.next none st.loopIterator l → l.Nodup →
      ∃ n st' fs, (∀ m, n ≤ m → sweepContexts cb m st = some (st', fs)) ∧
        st'.contexts = st.contexts ∧ st'.head = st.head ∧
        (∀ x, st'.globalTick x = if x ∈ l then st.globalTick x + 1 else st.globalTick x) ∧
        ∀ f ∈ fs, ∃ c ∈ l,
          f.Due c (shortTicksOf (st.globalTick c + 1)) (longTicksOf (st.globalTick c + 1))
  | [], st, _, _, path, _ => by
    have none_ : st.loopIterator = none := path.start_eq_head
    refine ⟨1, st, [], fun m hm => ?_, rfl, rfl, fun x => by simp, by simp⟩
    obtain ⟨m, rfl⟩ := Nat.exists_eq_add_of_le' hm
    simp only [sweepContexts, none_]
  | c :: l, st, L, lists, path, nodup => by
    generalize e : st.loopIterator = p at path
    cases path with
    | cons tail => ?_
    obtain ⟨hc, hl⟩ := List.nodup_cons.mp nodup
    obtain ⟨st₂, fs₂, L₂, run, lists₂, it₂, contexts₂, head₂, ticks₂, due₂⟩ :=
      sweepContext_step (hcb c) (keeps c) lists
    have tail₂ : Path st₂.contexts.next none (st₂.contexts.next c) l := contexts₂ ▸ tail
    obtain ⟨n, st', fs, runs, contexts', head', ticks', due'⟩ :=
      sweepContexts_run hcb keeps l { st₂ with loopIterator := st₂.contexts.next c } L₂
        ⟨lists₂.holds, lists₂.disjoint⟩ tail₂ hl
    refine ⟨max ((L c).length + 1) n + 1, st', fs₂ ++ fs, fun m hm => ?_,
      contexts'.trans contexts₂, head'.trans head₂, fun x => ?_, fun f hf => ?_⟩
    · obtain ⟨m, rfl⟩ : ∃ k, m = k + 1 := ⟨m - 1, by omega⟩
      have run' : sweepContext (cb c) c m st = some (st₂, fs₂) := sweepSockets_mono (by omega) run
      simp only [sweepContexts, e, run', it₂, runs m (by omega), Option.map_some']
    · rw [ticks' x]
      show (if x ∈ l then st₂.globalTick x + 1 else st₂.globalTick x) = _
      rw [ticks₂]
      by_cases hx : x = c
      · subst hx
        simp [hc]
      · simp [Function.update_noteq hx, hx]
    · rcases List.mem_append.mp hf with hf | hf
      · exact ⟨c, List.mem_cons_self _ _, due₂ f hf⟩
      · obtain ⟨c', hc', due⟩ := due' f hf
        have same : st₂.globalTick c' = st.globalTick c' := by
          rw [ticks₂, Function.update_noteq (ne_of_mem_of_not_mem hc' hc)]
        exact ⟨c', List.mem_cons_of_mem _ hc', same ▸ due⟩

/-- When the timeout callbacks of every context make only `SweepEdits` (rewrite timeout bytes,
unlink and link sockets) and neither create nor destroy a context nor touch a tick, the whole of
`us_internal_timer_sweep` over a loop whose context list is sound: ends; leaves the context list
as it was; ticks each context of the loop exactly once, and no other context; and calls each
callback only on a socket of some context of the loop, whose byte it found due at that context's
new tick, after disarming that byte. -/
theorem timerSweep_ticks_each_context (cb : Nat → TimeoutCallbacks) (hcb : ∀ c, (cb c).Edits)
    (keeps : ∀ c, (cb c).KeepsContexts) (st : Loop) (L : Nat → List Nat) (lists : st.Lists L)
    (l : List Nat) (contexts : st.contexts.Holds st.head l) :
    ∃ n st' fs, timerSweep cb n st = some (st', fs) ∧ st'.contexts = st.contexts ∧
      st'.head = st.head ∧
      (∀ c, st'.globalTick c = if c ∈ l then st.globalTick c + 1 else st.globalTick c) ∧
      ∀ f ∈ fs, ∃ c ∈ l,
        f.Due c (shortTicksOf (st.globalTick c + 1)) (longTicksOf (st.globalTick c + 1)) := by
  obtain ⟨n, st', fs, run, rest⟩ := sweepContexts_run hcb keeps l
    { st with loopIterator := st.head } L ⟨lists.holds, lists.disjoint⟩ contexts.path contexts.nodup
  exact ⟨n, st', fs, run n le_rfl, rest⟩

def disarmNextAll (_ : Nat) : TimeoutCallbacks := ⟨some disarmNext, none⟩

theorem disarmNextAll_edits (c : Nat) : (disarmNextAll c).Edits := by
  rintro g (hg | hg) st s L -
  · obtain rfl : disarmNext = g := Option.some_inj.mp hg
    exact .single (.setTimeout (s + 1) 255)
  · cases hg

theorem disarmNextAll_keepsContexts (c : Nat) : (disarmNextAll c).KeepsContexts := by
  rintro g (hg | hg) st s
  · obtain rfl : disarmNext = g := Option.some_inj.mp hg
    exact ⟨rfl, rfl, rfl⟩
  · cases hg

theorem twoContexts_lists : twoContexts.Lists (Function.update (fun _ => []) 1 [10]) :=
  have empty : (({ Loop.init with closedContextHead := some 3 }.loopLink 2).loopLink 1).Lists
      fun _ => [] := ⟨fun _ => ⟨.nil, trivial⟩, fun _ _ _ _ h => (List.not_mem_nil _ h).elim⟩
  (Loop.linkSocket_lists empty fun _ => List.not_mem_nil _).setTimeout.setLongTimeout

theorem timerSweep_ticks_each_context_twoContexts :
    (∀ c, (disarmNextAll c).Edits) ∧ (∀ c, (disarmNextAll c).KeepsContexts) ∧
      twoContexts.Lists (Function.update (fun _ => []) 1 [10]) ∧
      twoContexts.contexts.Holds twoContexts.head [1, 2] ∧
      ∃ n st' fs, timerSweep disarmNextAll n twoContexts = some (st', fs) ∧
        st'.contexts = twoContexts.contexts ∧ st'.head = twoContexts.head ∧
        (∀ c, st'.globalTick c =
          if c ∈ [1, 2] then twoContexts.globalTick c + 1 else twoContexts.globalTick c) ∧
        ∀ f ∈ fs, ∃ c ∈ [1, 2], f.Due c (shortTicksOf (twoContexts.globalTick c + 1))
          (longTicksOf (twoContexts.globalTick c + 1)) :=
  have contexts : twoContexts.contexts.Holds twoContexts.head [1, 2] :=
    ⟨.cons (.cons .nil), rfl, rfl, trivial⟩
  ⟨disarmNextAll_edits, disarmNextAll_keepsContexts, twoContexts_lists, contexts,
    timerSweep_ticks_each_context _ disarmNextAll_edits disarmNextAll_keepsContexts _ _
      twoContexts_lists _ contexts⟩

/-- With callbacks that keep the contexts, contexts 1 and 2 are ticked and the closed context 3
is not, unlike under `freeOnTimeout`. -/
example : (timerSweep disarmNextAll 8 twoContexts).map
    (fun r => (r.1.globalTick 1, r.1.globalTick 2, r.1.globalTick 3)) = some (1, 1, 0) := by
  rfl

end BunLoop
