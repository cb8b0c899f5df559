import BunLoop.Sweep

/-!
# The walk under re-entrant callbacks

A timeout callback may make any finite sequence of `SweepEdit`s. The walk's position is a split
`P ++ S` of the context's list with the cursor at the front of `S`; no edit puts a socket back
into `S` (`SweepEdit.keeps`), so `S` only shrinks, which bounds the walk and keeps it from
meeting a socket twice (`sweepContext_reentrant`).
-/

namespace BunLoop

open Function

/-- One change a timeout callback may make to the heap. -/
inductive SweepEdit (st : Loop) : Loop → Prop
  | setTimeout (s : Nat) (v : UInt8) : SweepEdit st (st.setTimeout s v)
  | setLongTimeout (s : Nat) (v : UInt8) : SweepEdit st (st.setLongTimeout s v)
  /-- `us_internal_socket_context_unlink_socket` on a socket of the context's list. -/
  | unlink (c s : Nat) : st.InList c s → SweepEdit st (st.unlinkSocket c s)
  /-- `us_internal_socket_context_link_socket` on a socket that is in no context's list. -/
  | link (c s : Nat) : (∀ c', ¬st.InList c' s) → SweepEdit st (st.linkSocket c s)

def SweepEdits : Loop → Loop → Prop := Relation.ReflTransGen SweepEdit

/-- Both callbacks of the context only make `SweepEdits`, on every heap whose lists are sound. -/
def TimeoutCallbacks.Edits (cb : TimeoutCallbacks) : Prop :=
  ∀ g, (g ∈ cb.onSocketTimeout ∨ g ∈ cb.onSocketLongTimeout) →
    ∀ st s L, st.Lists L → SweepEdits st (g st s)

/-- A callback call the walk of context `c` may make: on a socket of `c`'s list whose byte the
walk found equal to the tick, on the heap where the walk has disarmed that byte. -/
def Fired.Due (f : Fired) (c : Nat) (shortTicks longTicks : UInt8) : Prop :=
  f.seen.InList c f.socket ∧
    if f.long then
      f.seen.longTimeout f.socket = longTicks ∧ f.given = f.seen.setLongTimeout f.socket 255
    else f.seen.timeout f.socket = shortTicks ∧ f.given = f.seen.setTimeout f.socket 255

variable {st st' : Loop} {L : Nat → List Nat} {c s : Nat} {P S : List Nat}

theorem Loop.Lists.next_eq (h : st.Lists L) (hc : L c = P ++ s :: S) :
    st.sockets.next s = S.head? :=
  Links.Holds.next_eq (hc ▸ h.holds c)

theorem SweepEdit.keeps (edit : SweepEdit st st') (h : st.Lists L) (hc : L c = P ++ S)
    (hi : st.iterator c = S.head?) :
    ∃ L' P' S', st'.Lists L' ∧ L' c = P' ++ S' ∧ st'.iterator c = S'.head? ∧ S'.Sublist S := by
  cases edit with
  | setTimeout s v => exact ⟨L, P, S, h.setTimeout, hc, hi, .refl S⟩
  | setLongTimeout s v => exact ⟨L, P, S, h.setLongTimeout, hc, hi, .refl S⟩
  | unlink c₀ x hx =>
    rw [h.inList_iff] at hx
    have lists := Loop.unlinkSocket_lists h hx
    by_cases hc₀ : c = c₀
    · subst hc₀
      have nodup : (P ++ S).Nodup := hc ▸ (h.holds c).nodup
      rw [hc] at hx
      by_cases hxP : x ∈ P
      · have hxS : x ∉ S := fun hxS => List.disjoint_of_nodup_append nodup hxP hxS
        refine ⟨_, P.erase x, S, lists, by simp [hc, List.erase_append_left _ hxP], ?_, .refl S⟩
        rw [Loop.unlinkSocket_iterator, if_neg, hi]
        rintro ⟨-, hix⟩
        exact hxS (List.mem_of_mem_head? (hi ▸ hix))
      · cases S with
        | nil => simp [hxP] at hx
        | cons y S₀ =>
          by_cases hxy : x = y
          · subst hxy
            refine ⟨_, P, S₀, lists, by simp [hc, List.erase_append_right _ hxP], ?_,
              List.sublist_cons_self _ _⟩
            rw [Loop.unlinkSocket_iterator, if_pos ⟨rfl, hi⟩]
            exact Loop.Lists.next_eq h hc
          · refine ⟨_, P, y :: S₀.erase x, lists, ?_, ?_, ?_⟩
            · have tail : (y :: S₀).erase x = y :: S₀.erase x :=
                List.erase_cons_tail (by rw [beq_iff_eq]; exact Ne.symm hxy)
              simp [hc, List.erase_append_right _ hxP, tail]
            · rw [Loop.unlinkSocket_iterator, if_neg (fun e => hxy (by simpa [hi] using e.2.symm)),
                hi]
              rfl
            · exact (List.erase_sublist _ _).cons_cons y
    · refine ⟨_, P, S, lists, by simp [update_noteq hc₀, hc], ?_, .refl S⟩
      rw [Loop.unlinkSocket_iterator, if_neg (fun e => hc₀ e.1), hi]
  | link c₀ x hx =>
    have fresh : ∀ c', x ∉ L c' := fun c' hx' => hx c' (h.inList_iff.mpr hx')
    refine ⟨_, if c₀ = c then x :: P else P, S, Loop.linkSocket_lists h fresh, ?_, hi, .refl S⟩
    by_cases hc₀ : c = c₀
    · subst hc₀; simp [hc]
    · simp [update_noteq hc₀, hc, Ne.symm hc₀]

theorem SweepEdit.loopIterator (edit : SweepEdit st st') : st'.loopIterator = st.loopIterator := by
  cases edit <;> rfl

theorem SweepEdits.loopIterator (edits : SweepEdits st st') :
    st'.loopIterator = st.loopIterator := by
  induction edits with
  | refl => rfl
  | tail _ edit ih => exact edit.loopIterator.trans ih

theorem SweepEdits.keeps (edits : SweepEdits st st') (h : st.Lists L) (hc : L c = P ++ S)
    (hi : st.iterator c = S.head?) :
    ∃ L' P' S', st'.Lists L' ∧ L' c = P' ++ S' ∧ st'.iterator c = S'.head? ∧ S'.Sublist S := by
  induction edits with
  | refl => exact ⟨L, P, S, h, hc, hi, .refl S⟩
  | tail _ edit ih =>
    obtain ⟨L₁, P₁, S₁, h₁, hc₁, hi₁, sub₁⟩ := ih
    obtain ⟨L₂, P₂, S₂, h₂, hc₂, hi₂, sub₂⟩ := edit.keeps h₁ hc₁ hi₁
    exact ⟨L₂, P₂, S₂, h₂, hc₂, hi₂, sub₂.trans sub₁⟩

variable {f : Option (Loop → Nat → Loop)} {base : Loop}

theorem fireIf_keeps (Q : Prop) [Decidable Q] (long : Bool) (seen given : Loop) (s : Nat)
    (hf : ∀ g ∈ f, ∀ st s L, st.Lists L → SweepEdits st (g st s))
    (h : base.Lists L) (hc : L c = P ++ S) (hi : base.iterator c = S.head?)
    (hgiven : given.Lists L ∧ given.iterator c = base.iterator c ∧
      given.loopIterator = base.loopIterator) :
    let r := if Q then fire f long seen given s else (base, [])
    (∃ L' P' S', r.1.Lists L' ∧ L' c = P' ++ S' ∧ r.1.iterator c = S'.head? ∧ S'.Sublist S) ∧
      r.1.loopIterator = base.loopIterator ∧ (r.2 = [] ∨ Q ∧ r.2 = [⟨long, s, seen, given⟩]) := by
  by_cases hQ : Q
  · rw [if_pos hQ]
    cases f with
    | none => exact ⟨⟨L, P, S, hgiven.1, hc, hgiven.2.1.trans hi, .refl S⟩, hgiven.2.2, .inl rfl⟩
    | some g =>
      have edits := hf g rfl given s L hgiven.1
      exact ⟨edits.keeps hgiven.1 hc (hgiven.2.1.trans hi), edits.loopIterator.trans hgiven.2.2,
        .inr ⟨hQ, rfl⟩⟩
  · rw [if_neg hQ]
    exact ⟨⟨L, P, S, h, hc, hi, .refl S⟩, rfl, .inl rfl⟩

variable {cb : TimeoutCallbacks} {sT lT : UInt8}

/-- The slow path at `s` keeps the walk's position and `loop->data.iterator`, and continues
behind `s`; it calls each callback at most once, on `s`, and only as `Fired.Due` allows. -/
theorem slowPath_keeps (sT lT : UInt8) (hcb : cb.Edits) (h : st.Lists L) (hc : L c = P ++ s :: S) :
    let r := slowPath cb c sT lT st s
    (∃ L' P' S', r.1.Lists L' ∧ L' c = P' ++ S' ∧ r.2.2 = S'.head? ∧ S'.Sublist S) ∧
      r.1.loopIterator = st.loopIterator ∧ (∀ f ∈ r.2.1, f.socket = s ∧ f.Due c sT lT) ∧
      (r.2.1.map Fired.long).Nodup := by
  have h₁ : (st.setIterator c (some s)).Lists L := h.setIterator
  have hi₁ : (st.setIterator c (some s)).iterator c = (s :: S).head? := by simp
  obtain ⟨⟨L₂, P₂, S₂, h₂, hc₂, hi₂, sub₂⟩, it₂, fired₂⟩ := fireIf_keeps
    (sT = (st.setIterator c (some s)).timeout s) false (st.setIterator c (some s))
    ((st.setIterator c (some s)).setTimeout s 255) s
    (fun g hg => hcb g (.inl hg)) h₁ hc hi₁ ⟨h₁.setTimeout, rfl, rfl⟩
  generalize hr₂ : (if sT = (st.setIterator c (some s)).timeout s then
    fire cb.onSocketTimeout false (st.setIterator c (some s))
      ((st.setIterator c (some s)).setTimeout s 255) s
    else (st.setIterator c (some s), [])) = r₂ at h₂ hi₂ it₂ fired₂
  obtain ⟨⟨L₃, P₃, S₃, h₃, hc₃, hi₃, sub₃⟩, it₃, fired₃⟩ := fireIf_keeps
    (r₂.1.iterator c = some s ∧ lT = r₂.1.longTimeout s) true r₂.1 (r₂.1.setLongTimeout s 255) s
    (fun g hg => hcb g (.inr hg)) h₂ hc₂ hi₂ ⟨h₂.setLongTimeout, rfl, rfl⟩
  generalize hr₃ : (if r₂.1.iterator c = some s ∧ lT = r₂.1.longTimeout s then
    fire cb.onSocketLongTimeout true r₂.1 (r₂.1.setLongTimeout s 255) s
    else (r₂.1, [])) = r₃ at h₃ hi₃ it₃ fired₃
  simp only [slowPath, hr₂, hr₃]
  have sub : S₃.Sublist (s :: S) := sub₃.trans sub₂
  refine ⟨?_, it₃.trans it₂, fun f hf => ?_, ?_⟩
  · rw [hi₃]
    by_cases front : some s = S₃.head?
    · obtain ⟨S₄, rfl⟩ : ∃ S₄, S₃ = s :: S₄ := by
        cases S₃ with
        | nil => simp at front
        | cons y S₄ => exact ⟨S₄, by simp_all⟩
      rw [if_pos front]
      exact ⟨L₃, P₃ ++ [s], S₄, h₃, by simp [hc₃], Loop.Lists.next_eq h₃ hc₃,
        List.cons_sublist_cons.mp sub⟩
    · rw [if_neg front]
      refine ⟨L₃, P₃, S₃, h₃, hc₃, rfl, ?_⟩
      rcases List.sublist_cons_iff.mp sub with sub | ⟨r, rfl, -⟩
      · exact sub
      · simp at front
  · rcases List.mem_append.mp hf with hf | hf
    · rcases fired₂ with e | ⟨due, e⟩
      · simp [e] at hf
      · rw [e, List.mem_singleton] at hf
        subst hf
        exact ⟨rfl, h₁.inList_iff.mpr (by rw [hc]; simp), due.symm, rfl⟩
    · rcases fired₃ with e | ⟨⟨front, due⟩, e⟩
      · simp [e] at hf
      · rw [e, List.mem_singleton] at hf
        subst hf
        refine ⟨rfl, h₂.inList_iff.mpr ?_, due.symm, rfl⟩
        rw [hc₂]
        exact List.mem_append_right _ (List.mem_of_mem_head? (hi₂ ▸ front))
  · rcases fired₂ with e₂ | ⟨-, e₂⟩ <;> rcases fired₃ with e₃ | ⟨-, e₃⟩ <;> simp [e₂, e₃]

/-- The walk from the front of `S` ends with fuel beyond the length of `S`, clears the iterator,
and calls each callback at most once per socket, only on sockets of `S`, as `Fired.Due` allows. -/
theorem sweepSockets_walk (sT lT : UInt8) (hcb : cb.Edits) :
    ∀ (fuel : Nat) (st : Loop) (L : Nat → List Nat) (P S : List Nat), st.Lists L →
      L c = P ++ S → S.length < fuel →
      ∃ st' fs, sweepSockets cb c sT lT fuel st S.head? = some (st', fs) ∧
        st'.iterator c = none ∧ (fs.map Fired.key).Nodup ∧
        ∀ f ∈ fs, f.socket ∈ S ∧ f.Due c sT lT := by
  intro fuel
  induction fuel with
  | zero => intro _ _ _ S _ _ hlen; exact absurd hlen (Nat.not_lt_zero _)
  | succ fuel ih =>
    rintro st L P (_ | ⟨s, S⟩) h hc hlen
    · exact ⟨st.setIterator c none, [], rfl, by simp, List.nodup_nil, by simp⟩
    have hsS : s ∉ S := by
      have := (h.holds c).nodup
      rw [hc] at this
      exact (List.nodup_cons.mp (List.nodup_append.mp this).2.1).1
    simp only [List.length_cons, Nat.add_lt_add_iff_right] at hlen
    simp only [List.head?_cons, sweepSockets]
    split
    · obtain ⟨⟨L', P', S', h', hc', hnext, sub⟩, -, due, longs⟩ :=
        slowPath_keeps sT lT hcb h hc
      obtain ⟨st', fs, run, it, keys, good⟩ := ih _ L' P' S' h' hc'
        (lt_of_le_of_lt sub.length_le hlen)
      refine ⟨st', _, by rw [hnext, run]; rfl, it, ?_, fun f hf => ?_⟩
      · rw [List.map_append, List.nodup_append]
        refine ⟨?_, keys, ?_⟩
        · refine List.Nodup.of_map Prod.fst ?_
          rwa [List.map_map, show Prod.fst ∘ Fired.key = Fired.long from rfl]
        · intro k hk hk'
          obtain ⟨f, hf, rfl⟩ := List.mem_map.mp hk
          obtain ⟨f', hf', e⟩ := List.mem_map.mp hk'
          have same : f.socket = f'.socket := (congrArg Prod.snd e).symm
          exact hsS ((due f hf).1 ▸ same ▸ sub.subset (good f' hf').1)
      · rcases List.mem_append.mp hf with hf | hf
        · exact ⟨(due f hf).1 ▸ List.mem_cons_self _ _, (due f hf).2⟩
        · exact ⟨List.mem_cons_of_mem _ (sub.subset (good f hf).1), (good f hf).2⟩
    · obtain ⟨st', fs, run, it, keys, good⟩ := ih st L (P ++ [s]) S h
        (by simp [hc]) hlen
      exact ⟨st', fs, by rw [Loop.Lists.next_eq h hc, run], it, keys,
        fun f hf => ⟨List.mem_cons_of_mem _ (good f hf).1, (good f hf).2⟩⟩

/-- The walk of a context in `us_internal_timer_sweep`, whatever its timeout callbacks do within
`SweepEdits`, ends (within one step per socket of the list), calls each callback at most once
per socket, calls it only on a socket of the context whose byte it found due and after disarming
that byte, and leaves `context->iterator` at 0. -/
theorem sweepContext_reentrant (cb : TimeoutCallbacks) (hcb : cb.Edits) (c : Nat) (st : Loop)
    (L : Nat → List Nat) (lists : st.Lists L) :
    ∃ st' fs, sweepContext cb c ((L c).length + 1) st = some (st', fs) ∧
      st'.iterator c = none ∧ (fs.map Fired.key).Nodup ∧
      ∀ f ∈ fs, f.Due c (shortTicksOf ((st.tick c).globalTick c))
        (longTicksOf ((st.tick c).globalTick c)) := by
  have ticked : (st.tick c).Lists L := ⟨lists.holds, lists.disjoint⟩
  obtain ⟨st', fs, run, it, keys, good⟩ := sweepSockets_walk (c := c)
    (shortTicksOf ((st.tick c).globalTick c)) (longTicksOf ((st.tick c).globalTick c))
    hcb _ (st.tick c) L [] (L c) ticked rfl (Nat.lt_succ_self _)
  refine ⟨st', fs, ?_, it, keys, fun f hf => (good f hf).2⟩
  rw [← run, sweepContext, (ticked.holds c).head_eq]

theorem sweepContext_reentrant_disarmNext :
    let cb : TimeoutCallbacks := ⟨some disarmNext, none⟩
    let L := update (fun _ => []) 0 [1]
    cb.Edits ∧ (Loop.init.linkSocket 0 1).Lists L ∧
      ∃ st' fs, sweepContext cb 0 ((L 0).length + 1) (Loop.init.linkSocket 0 1) = some (st', fs) ∧
        st'.iterator 0 = none ∧ (fs.map Fired.key).Nodup ∧
        ∀ f ∈ fs, f.Due 0 (shortTicksOf (((Loop.init.linkSocket 0 1).tick 0).globalTick 0))
          (longTicksOf (((Loop.init.linkSocket 0 1).tick 0).globalTick 0)) :=
  have hcb : TimeoutCallbacks.Edits ⟨some disarmNext, none⟩ := by
    rintro g (hg | hg) st s L -
    · obtain rfl : disarmNext = g := Option.some_inj.mp hg
      exact .single (.setTimeout (s + 1) 255)
    · cases hg
  have lists : (Loop.init.linkSocket 0 1).Lists (update (fun _ => []) 0 [1]) :=
    Loop.linkSocket_lists Loop.init_lists fun _ => List.not_mem_nil _
  ⟨hcb, lists, sweepContext_reentrant _ hcb 0 _ _ lists⟩

end BunLoop
