import Mathlib.Logic.Function.Basic
import Mathlib.Data.List.Nodup

/-!
# Intrusive doubly-linked lists

`Links` is the `next`/`prev` pair of one kind of intrusive list, for every address. The code's
three list operations, `pushFront`, `unlink` and `popFront`, refine `cons`, `erase` and `tail`
on `Links.Holds`, and each writes only the nodes of its own list (`*_agree`), so lists over one
`Links` that share no node stay intact.
-/

namespace BunLoop

open Function

structure Links where
  next : Nat → Option Nat
  prev : Nat → Option Nat

/-- `Path next q p l`: following `next` from `p` visits exactly the nodes `l` and arrives at `q`. -/
inductive Path (next : Nat → Option Nat) (q : Option Nat) : Option Nat → List Nat → Prop
  | nil : Path next q q []
  | cons {x : Nat} {l : List Nat} : Path next q (next x) l → Path next q (some x) (x :: l)

/-- The `prev` field of every node of `l` points at the node before it, the first one's at `p`. -/
def Back (prev : Nat → Option Nat) : Option Nat → List Nat → Prop
  | _, [] => True
  | p, x :: l => prev x = p ∧ Back prev (some x) l

def lastOr : Option Nat → List Nat → Option Nat
  | p, [] => p
  | _, x :: l => lastOr (some x) l

/-- The list at `head` is NULL-terminated, doubly linked, and holds the nodes `l` in order. -/
structure Links.Holds (ln : Links) (head : Option Nat) (l : List Nat) : Prop where
  path : Path ln.next none head l
  back : Back ln.prev none l

variable {next next' prev prev' : Nat → Option Nat} {p q r : Option Nat} {x y : Nat}
  {l l' A B : List Nat}

theorem lastOr_mem (h : lastOr q A = some x) : x ∈ A ∨ q = some x := by
  induction A generalizing q with
  | nil => exact .inr h
  | cons a A ih => rcases ih h with hx | hx <;> simp_all

@[simp] theorem lastOr_concat : lastOr p (A ++ [x]) = some x := by
  induction A generalizing p with
  | nil => rfl
  | cons a A ih => exact ih

namespace Path

theorem start_eq (h : Path next q p (x :: l)) : p = some x := by
  cases h; rfl

theorem start_eq_head (h : Path next none p l) : p = l.head? := by
  cases h <;> rfl

theorem append (h₁ : Path next q p A) (h₂ : Path next r q B) : Path next r p (A ++ B) := by
  induction h₁ with
  | nil => exact h₂
  | cons _ ih => exact .cons ih

theorem of_append (h : Path next r p (A ++ B)) : ∃ q, Path next q p A ∧ Path next r q B := by
  induction A generalizing p with
  | nil => exact ⟨p, .nil, h⟩
  | cons a A ih =>
    cases h with
    | cons h =>
      obtain ⟨q, hA, hB⟩ := ih h
      exact ⟨q, .cons hA, hB⟩

theorem of_append_cons (h : Path next r p (A ++ x :: B)) : Path next r (some x) (x :: B) := by
  obtain ⟨q, -, hB⟩ := h.of_append
  exact hB.start_eq ▸ hB

theorem congr (h : Path next q p l) (agree : ∀ y ∈ l, next' y = next y) : Path next' q p l := by
  induction h with
  | nil => exact .nil
  | cons _ ih =>
    refine .cons ?_
    rw [agree _ (List.mem_cons_self _ _)]
    exact ih fun y hy => agree y (List.mem_cons_of_mem _ hy)

theorem unique (h : Path next none p l) (h' : Path next none p l') : l = l' := by
  induction h generalizing l' with
  | nil => cases h'; rfl
  | cons _ ih => cases h' with | cons h' => rw [ih h']

/-- A path to NULL visits no node twice: a finite list has no cycle. -/
theorem nodup (h : Path next none p l) : l.Nodup := by
  induction h with
  | nil => exact List.nodup_nil
  | @cons x l h ih =>
    refine List.nodup_cons.mpr ⟨fun hx => ?_, ih⟩
    obtain ⟨A, B, rfl⟩ := List.append_of_mem hx
    have same := (Path.cons h).unique h.of_append_cons
    have := congrArg List.length same
    simp only [List.length_cons, List.length_append] at this
    omega

/-- A node that is its own successor starts no NULL-terminated list. -/
theorem not_of_next_self (self : next x = some x) : ∀ l, ¬Path next none (some x) l
  | [], h => by cases h
  | _ :: l, h => by
    cases h with
    | cons h => exact not_of_next_self self l (self ▸ h)

end Path

namespace Back

theorem congr (h : Back prev p l) (agree : ∀ y ∈ l, prev' y = prev y) : Back prev' p l := by
  induction l generalizing p with
  | nil => trivial
  | cons x l ih =>
    exact ⟨(agree x (List.mem_cons_self _ _)).trans h.1,
      ih h.2 fun y hy => agree y (List.mem_cons_of_mem _ hy)⟩

theorem append_iff : Back prev p (A ++ B) ↔ Back prev p A ∧ Back prev (lastOr p A) B := by
  induction A generalizing p with
  | nil => simp [Back, lastOr]
  | cons a A ih =>
    show (prev a = p ∧ Back prev (some a) (A ++ B)) ↔ _
    rw [ih]
    simp only [Back, lastOr, and_assoc]

end Back

namespace Links

/-- Link `x` in front of the list at `head`: `x->next = head; x->prev = 0;` and, when the list
is not empty, `head->prev = x`. The caller stores `x` as the new head. -/
def pushFront (ln : Links) (head : Option Nat) (x : Nat) : Links where
  next := update ln.next x head
  prev := match head with
    | some h => update (update ln.prev x none) h (some x)
    | none => update ln.prev x none

/-- Unlink `x` from the list at `head`, as `us_internal_loop_unlink` does; returns the new head.
The unlinked node keeps its stale `next` and `prev`. -/
def unlink (ln : Links) (head : Option Nat) (x : Nat) : Links × Option Nat :=
  if head = some x then
    match ln.next x with
    | some n => ({ ln with prev := update ln.prev n none }, some n)
    | none => (ln, none)
  else
    let next := match ln.prev x with
      | some p => update ln.next p (ln.next x)
      | none => ln.next
    let prev := match ln.next x with
      | some n => update ln.prev n (ln.prev x)
      | none => ln.prev
    (⟨next, prev⟩, head)

/-- Take the head `x` off its list: `head = x->next; if (x->next) x->next->prev = 0;
x->next = 0;`. Returns the new head. -/
def popFront (ln : Links) (x : Nat) : Links × Option Nat :=
  let r := ln.unlink (some x) x
  ({ r.1 with next := update r.1.next x none }, r.2)

theorem popFront_head (ln : Links) (x : Nat) : (ln.popFront x).2 = ln.next x := by
  simp only [popFront, unlink, if_true]
  cases ln.next x <;> rfl

namespace Holds

variable {ln : Links} {head : Option Nat}

theorem nodup (h : ln.Holds head l) : l.Nodup := h.path.nodup

theorem unique (h : ln.Holds head l) (h' : ln.Holds head l') : l = l' := h.path.unique h'.path

theorem head_eq (h : ln.Holds head l) : head = l.head? := h.path.start_eq_head

theorem split (h : ln.Holds head l) (hx : x ∈ l) : ∃ A B, l = A ++ x :: B ∧ x ∉ A ∧ x ∉ B ∧
    ln.next x = B.head? ∧ ln.prev x = lastOr none A := by
  obtain ⟨A, B, rfl⟩ := List.append_of_mem hx
  obtain ⟨-, hxB, disjoint⟩ := List.nodup_append.mp h.nodup
  have hnext : ln.next x = B.head? := by
    cases h.path.of_append_cons with
    | cons hB => exact hB.start_eq_head
  exact ⟨A, B, rfl, fun hxA => disjoint hxA (List.mem_cons_self _ _),
    (List.nodup_cons.mp hxB).1, hnext, (Back.append_iff.mp h.back).2.1⟩

theorem next_eq (h : ln.Holds head (A ++ x :: B)) : ln.next x = B.head? := by
  cases h.path.of_append_cons with
  | cons tail => exact tail.start_eq_head

theorem congr {ln' : Links} (h : ln.Holds head l) (agree : ∀ y ∈ l, ln'.next y = ln.next y ∧
    ln'.prev y = ln.prev y) : ln'.Holds head l :=
  ⟨h.path.congr fun y hy => (agree y hy).1, h.back.congr fun y hy => (agree y hy).2⟩

theorem head_mem (h : ln.Holds head l) {n : Nat} (hn : head = some n) : n ∈ l := by
  rw [h.head_eq] at hn
  exact List.mem_of_mem_head? hn

theorem head_prev (h : ln.Holds (some x) l) : ln.prev x = none := by
  cases h.path with
  | cons _ => exact h.back.1

theorem prev_next (h : ln.Holds head l) (hx : x ∈ l) (hn : ln.next x = some y) :
    ln.prev y = some x := by
  obtain ⟨A, B, rfl, -, -, hnext, -⟩ := h.split hx
  cases B with
  | nil => cases hnext.symm.trans hn
  | cons b B =>
    obtain rfl : b = y := Option.some_inj.mp (hnext.symm.trans hn)
    have back := (Back.append_iff.mp h.back).2
    exact back.2.1

theorem next_prev (h : ln.Holds head l) (hx : x ∈ l) (hp : ln.prev x = some y) :
    ln.next y = some x := by
  obtain ⟨A, B, rfl, -, -, -, hprev⟩ := h.split hx
  rw [hp] at hprev
  rcases List.eq_nil_or_concat A with rfl | ⟨A₀, a, rfl⟩
  · cases hprev
  · rw [List.concat_eq_append, lastOr_concat] at hprev
    obtain rfl := Option.some_inj.mp hprev
    rw [List.concat_eq_append, List.append_assoc, List.singleton_append] at h
    exact h.next_eq

end Holds

variable {ln : Links} {head : Option Nat}

theorem pushFront_holds (h : ln.Holds head l) (hx : x ∉ l) :
    (ln.pushFront head x).Holds (some x) (x :: l) := by
  have keep : ∀ y ∈ l, y ≠ x := fun y hy e => hx (e ▸ hy)
  have self : (ln.pushFront head x).next x = head := by simp [pushFront]
  refine ⟨.cons ?_, ?_⟩
  · rw [self]
    exact h.path.congr fun y hy => by simp [pushFront, update_noteq (keep y hy)]
  · cases l with
    | nil =>
      rw [h.head_eq]
      simp [pushFront, Back]
    | cons n l =>
      obtain ⟨-, hl⟩ := h.back
      have hn : n ≠ x := keep n (List.mem_cons_self _ _)
      have hnl : n ∉ l := (List.nodup_cons.mp h.nodup).1
      rw [h.head_eq]
      refine ⟨by simp [pushFront, update_noteq hn.symm], by simp [pushFront], hl.congr ?_⟩
      intro y hy
      have hyn : y ≠ n := fun e => hnl (e ▸ hy)
      simp [pushFront, update_noteq hyn, update_noteq (keep y (List.mem_cons_of_mem _ hy))]

theorem pushFront_agree (hy : y ≠ x) (hh : ∀ n, head = some n → y ≠ n) :
    (ln.pushFront head x).next y = ln.next y ∧ (ln.pushFront head x).prev y = ln.prev y := by
  refine ⟨by simp [pushFront, update_noteq hy], ?_⟩
  cases head with
  | none => simp [pushFront, update_noteq hy]
  | some n => simp [pushFront, update_noteq hy, update_noteq (hh n rfl)]

theorem unlink_holds (h : ln.Holds head l) (hx : x ∈ l) :
    (ln.unlink head x).1.Holds (ln.unlink head x).2 (l.erase x) := by
  obtain ⟨A, B, rfl, hxA, -, hnext, hprev⟩ := h.split hx
  rw [List.erase_append_right _ hxA, List.erase_cons_head]
  have pathB : Path ln.next none B.head? B := by
    cases h.path.of_append_cons with
    | cons hB => exact hnext ▸ hB
  have backB : Back ln.prev (some x) B := (Back.append_iff.mp h.back).2.2
  rcases List.eq_nil_or_concat A with rfl | ⟨A₀, p, rfl⟩
  · have hhead : head = some x := h.head_eq
    cases B with
    | nil => simp only [unlink, hhead, if_true, hnext]; exact ⟨.nil, trivial⟩
    | cons n B =>
      have hnB : n ∉ B := (List.nodup_cons.mp (h.nodup.sublist (List.sublist_cons_self _ _))).1
      simp only [unlink, hhead, if_true, hnext, List.head?_cons, List.nil_append]
      refine ⟨pathB, by simp [Back], backB.2.congr fun y hy => ?_⟩
      simp [update_noteq (show y ≠ n from fun e => hnB (e ▸ hy))]
  · rw [List.concat_eq_append, lastOr_concat] at hprev
    rw [List.concat_eq_append] at hxA h
    rw [List.concat_eq_append, List.append_assoc, List.singleton_append]
    have hne : head ≠ some x := fun e => hxA <| List.mem_of_mem_head? <| by
      rwa [h.head_eq, List.head?_append_of_ne_nil _ (by simp)] at e
    have h' : ln.Holds head (A₀ ++ p :: x :: B) := by simpa using h
    have tail := (List.nodup_append.mp h'.nodup).2.1
    have disjoint := List.disjoint_of_nodup_append h'.nodup
    have pA₀ : ∀ y ∈ A₀, y ≠ p := fun y hy e =>
      disjoint hy (by rw [e]; exact List.mem_cons_self _ _)
    have pB : ∀ y ∈ B, y ≠ p := fun y hy e =>
      (List.nodup_cons.mp tail).1 (List.mem_cons_of_mem _ (e ▸ hy))
    obtain ⟨q, pathA₀, hq⟩ := h'.path.of_append
    obtain rfl : q = some p := hq.start_eq
    obtain ⟨backA₀, hpp, -, -⟩ := Back.append_iff.mp h'.back
    have pathPB : Path (update ln.next p B.head?) none (some p) (p :: B) :=
      .cons (by rw [update_same]; exact pathB.congr fun y hy => update_noteq (pB y hy) _ _)
    have path : Path (update ln.next p B.head?) none head (A₀ ++ p :: B) :=
      (pathA₀.congr fun y hy => update_noteq (pA₀ y hy) _ _).append pathPB
    cases B with
    | nil =>
      simp only [unlink, if_neg hne, hprev, hnext]
      exact ⟨path, Back.append_iff.mpr ⟨backA₀, hpp, trivial⟩⟩
    | cons n B =>
      have nA₀ : ∀ y ∈ A₀, y ≠ n := fun y hy e => disjoint hy (by rw [e]; simp)
      have nB : ∀ y ∈ B, y ≠ n := fun y hy e =>
        (List.nodup_cons.mp (tail.sublist ((List.sublist_cons_self _ _).trans
          (List.sublist_cons_self _ _)))).1 (e ▸ hy)
      simp only [unlink, if_neg hne, hprev, hnext, List.head?_cons]
      refine ⟨path, Back.append_iff.mpr ⟨backA₀.congr fun y hy => update_noteq (nA₀ y hy) _ _,
        ?_, update_same _ _ _, backB.2.congr fun y hy => update_noteq (nB y hy) _ _⟩⟩
      show update ln.prev n (some p) p = _
      rw [update_noteq (pB n (List.mem_cons_self _ _)).symm]
      exact hpp

/-- `unlink` writes only the fields of nodes of its list other than the one it unlinks. -/
theorem unlink_agree (h : ln.Holds head l) (hx : x ∈ l) (hy : y = x ∨ y ∉ l) :
    (ln.unlink head x).1.next y = ln.next y ∧ (ln.unlink head x).1.prev y = ln.prev y := by
  obtain ⟨A, B, rfl, hxA, hxB, hnext, hprev⟩ := h.split hx
  have written : ∀ n, (n ∈ A ∨ n ∈ B) → y ≠ n := by
    rintro n hn rfl
    rcases hy with rfl | hy
    · exact hn.elim hxA hxB
    · exact hy (by simp_all)
  have hn : ∀ n, ln.next x = some n → y ≠ n := fun n e =>
    written n (.inr (by cases B <;> simp_all))
  have hp : ∀ p, ln.prev x = some p → y ≠ p := fun p e =>
    written p (.inl ((lastOr_mem (hprev ▸ e)).resolve_right (by simp)))
  unfold unlink
  split
  · cases hnx : ln.next x with
    | none => simp
    | some n => simp [update_noteq (hn n hnx)]
  · constructor
    · cases hpx : ln.prev x with
      | none => simp
      | some p => simp [update_noteq (hp p hpx)]
    · cases hnx : ln.next x with
      | none => simp
      | some n => simp [update_noteq (hn n hnx)]

theorem popFront_holds (h : ln.Holds (some x) (x :: l)) :
    (ln.popFront x).1.Holds (ln.popFront x).2 l := by
  have nd := h.nodup
  have holds := unlink_holds h (List.mem_cons_self x l)
  rw [List.erase_cons_head] at holds
  exact holds.congr fun y hy =>
    ⟨update_noteq (fun e => (List.nodup_cons.mp nd).1 (by subst e; exact hy)) _ _, rfl⟩

theorem popFront_agree (h : ln.Holds (some x) (x :: l)) (hy : y ∉ x :: l) :
    (ln.popFront x).1.next y = ln.next y ∧ (ln.popFront x).1.prev y = ln.prev y := by
  obtain ⟨hnext, hprev⟩ := unlink_agree h (List.mem_cons_self x l) (.inr hy)
  exact ⟨(update_noteq (fun e => hy (by rw [e]; exact List.mem_cons_self x l)) _ _).trans hnext,
    hprev⟩

end Links

end BunLoop
