import BunLoop.Loop

/-!
# The contexts' socket lists

`Loop.Lists st L` relates the heap to an abstract list of sockets for every context: each
context's `head_sockets` roots a doubly-linked list holding exactly `L c`, and no socket is in the
lists of two contexts. `linkSocket` refines `cons` and `unlinkSocket` refines `erase` on that
abstraction (`linkSocket_lists`, `unlinkSocket_lists`); every other list of sockets is left alone.
-/

namespace BunLoop

open Function

namespace Loop

/-- Every context `c`'s socket list holds exactly `L c`, and the lists share no socket. -/
structure Lists (st : Loop) (L : Nat → List Nat) : Prop where
  holds : ∀ c, st.sockets.Holds (st.headSockets c) (L c)
  disjoint : ∀ c c', c ≠ c' → ∀ x ∈ L c, x ∉ L c'

/-- The socket `s` is in the socket list of the context `c`. -/
def InList (st : Loop) (c s : Nat) : Prop :=
  ∃ l, st.sockets.Holds (st.headSockets c) l ∧ s ∈ l

variable {st : Loop} {L : Nat → List Nat} {c c' s x : Nat}

theorem init_lists : Loop.init.Lists fun _ => [] :=
  ⟨fun _ => ⟨.nil, trivial⟩, fun _ _ _ _ h => (List.not_mem_nil _ h).elim⟩

theorem Lists.inList_iff (h : st.Lists L) : st.InList c s ↔ s ∈ L c :=
  ⟨fun ⟨_, hl, hs⟩ => (hl.unique (h.holds c)) ▸ hs, fun hs => ⟨L c, h.holds c, hs⟩⟩

theorem linkSocket_lists (h : st.Lists L) (hx : ∀ c, x ∉ L c) :
    (st.linkSocket c x).Lists (update L c (x :: L c)) := by
  constructor
  · intro c'
    by_cases hc : c' = c
    · subst hc
      simpa [linkSocket] using st.sockets.pushFront_holds (h.holds c') (hx c')
    · have head : ∀ n, st.headSockets c = some n → n ∈ L c := fun n hn => by
        rw [(h.holds c).head_eq] at hn
        exact List.mem_of_mem_head? hn
      simp only [linkSocket, update_noteq hc]
      refine (h.holds c').congr fun y hy => st.sockets.pushFront_agree ?_ ?_
      · exact fun e => hx c' (e ▸ hy)
      · exact fun n hn e => h.disjoint c' c hc y hy (e ▸ head n hn)
  · intro a b hab y hy hy'
    by_cases ha : a = c
    · subst ha
      rw [update_same] at hy
      rw [update_noteq (Ne.symm hab)] at hy'
      rcases List.mem_cons.mp hy with rfl | hy
      · exact hx b hy'
      · exact h.disjoint a b hab y hy hy'
    · rw [update_noteq ha] at hy
      by_cases hb : b = c
      · subst hb
        rw [update_same] at hy'
        rcases List.mem_cons.mp hy' with rfl | hy'
        · exact hx a hy
        · exact h.disjoint a b hab y hy hy'
      · rw [update_noteq hb] at hy'
        exact h.disjoint a b hab y hy hy'

theorem unlinkSocket_lists (h : st.Lists L) (hx : x ∈ L c) :
    (st.unlinkSocket c x).Lists (update L c ((L c).erase x)) := by
  constructor
  · intro c'
    by_cases hc : c' = c
    · subst hc
      simpa [unlinkSocket] using st.sockets.unlink_holds (h.holds c') hx
    · simp only [unlinkSocket, update_noteq hc]
      exact (h.holds c').congr fun y hy => st.sockets.unlink_agree (h.holds c) hx
        (.inr fun hy' => h.disjoint c' c hc y hy hy')
  · intro a b hab y hy hy'
    have sub : ∀ d, update L c ((L c).erase x) d ⊆ L d := fun d => by
      by_cases hd : d = c
      · subst hd; rw [update_same]; exact List.erase_subset _ _
      · rw [update_noteq hd]; exact fun _ h => h
    exact h.disjoint a b hab y (sub a hy) (sub b hy')

/-- Unlinking moves the context's iterator to the unlinked socket's successor, and only when it
held that socket. -/
theorem unlinkSocket_iterator :
    (st.unlinkSocket c x).iterator c' =
      if c' = c ∧ st.iterator c = some x then st.sockets.next x else st.iterator c' := by
  by_cases hc : c' = c
  · subst hc; by_cases hi : st.iterator c' = some x <;> simp [unlinkSocket, hi]
  · by_cases hi : st.iterator c = some x <;> simp [unlinkSocket, hi, hc, update_noteq hc]

@[simp] theorem linkSocket_iterator : (st.linkSocket c x).iterator = st.iterator := rfl
@[simp] theorem linkSocket_timeout : (st.linkSocket c x).timeout = st.timeout := rfl
@[simp] theorem linkSocket_longTimeout : (st.linkSocket c x).longTimeout = st.longTimeout := rfl
@[simp] theorem unlinkSocket_timeout : (st.unlinkSocket c x).timeout = st.timeout := rfl
@[simp] theorem unlinkSocket_longTimeout :
    (st.unlinkSocket c x).longTimeout = st.longTimeout := rfl

end Loop

end BunLoop
