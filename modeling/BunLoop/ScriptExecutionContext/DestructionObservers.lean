import Mathlib.Data.List.Basic
import Mathlib.Data.List.Nodup

/-!
# Destruction observers

The destructor empties `m_destructionObservers` with `takeAny` and calls `contextDestroyed` on
each observer taken, which may destroy other observers. This is a release build: with
`ASSERT_ENABLED` a callback that destroys an observer stops at an assertion. Whatever `takeAny`
picks, the loop ends and notifies each observer at most once (`notifyAll_once`).
-/

namespace BunLoop

/-- `m_destructionObservers`, a `HashSet` of observers named by address. -/
structure DestructionObservers where
  members : List Nat
  nodup : members.Nodup

namespace DestructionObservers

def didCreateDestructionObserver (s : DestructionObservers) (o : Nat) : DestructionObservers :=
  if h : o ∈ s.members then s else ⟨o :: s.members, List.nodup_cons.mpr ⟨h, s.nodup⟩⟩

def willDestroyDestructionObserver (s : DestructionObservers) (o : Nat) : DestructionObservers :=
  ⟨s.members.erase o, s.nodup.erase o⟩

/-- `takeAny`: the member `pick` chooses, taken out of the set; `nullptr` on an empty set. -/
def takeAny (s : DestructionObservers) (pick : List Nat → Nat) :
    Option (Nat × DestructionObservers) :=
  match s.members with
  | [] => none
  | _ :: _ => some (pick s.members, s.willDestroyDestructionObserver (pick s.members))

/-- The destructor's loop: take a member, and `contextDestroyed` on it destroys the observers
`destroys o`, each removing itself. Returns the observers notified, in order; `none` when the fuel
runs out first. -/
def notifyAll (pick : List Nat → Nat) (destroys : Nat → List Nat) :
    Nat → DestructionObservers → Option (List Nat)
  | fuel, s =>
    match s.takeAny pick, fuel with
    | none, _ => some []
    | some _, 0 => none
    | some (o, s), fuel + 1 =>
      (notifyAll pick destroys fuel ((destroys o).foldl willDestroyDestructionObserver s)).map
        (o :: ·)

theorem takeAny_nil (pick : List Nat → Nat) {s : DestructionObservers} (h : s.members = []) :
    s.takeAny pick = none := by
  simp [takeAny, h]

theorem takeAny_cons (pick : List Nat → Nat) {s : DestructionObservers} (h : s.members ≠ []) :
    s.takeAny pick = some (pick s.members, s.willDestroyDestructionObserver (pick s.members)) := by
  unfold takeAny
  split
  · contradiction
  · rfl

@[simp] theorem willDestroyDestructionObserver_members (s : DestructionObservers) (o : Nat) :
    (s.willDestroyDestructionObserver o).members = s.members.erase o := rfl

theorem foldl_willDestroyDestructionObserver (ds : List Nat) :
    ∀ s : DestructionObservers,
      (ds.foldl willDestroyDestructionObserver s).members = s.members.diff ds := by
  induction ds with
  | nil => intro s; rfl
  | cons d ds ih =>
    intro s
    rw [List.foldl_cons, ih, willDestroyDestructionObserver_members, List.diff_cons]

section Loop

variable (pick : List Nat → Nat) (destroys : Nat → List Nat)

/-- What the loop promises over a set: every observer it notifies is a member, notified once;
every member is notified or destroyed by a callback that ran; and no callback that ran destroyed
an observer notified after it. -/
def Notified (s : DestructionObservers) (notified : List Nat) : Prop :=
  notified.Nodup ∧ (∀ o ∈ notified, o ∈ s.members) ∧
    (∀ o ∈ s.members, o ∈ notified ∨ ∃ o' ∈ notified, o ∈ destroys o') ∧
    notified.Pairwise fun a b => b ∉ destroys a

theorem notified_cons {s : DestructionObservers} {o : Nat} (ho : o ∈ s.members)
    {rest : DestructionObservers} (hrest : rest.members = (s.members.erase o).diff (destroys o))
    {notified : List Nat} (h : Notified destroys rest notified) :
    Notified destroys s (o :: notified) := by
  obtain ⟨nd, sub, all, order⟩ := h
  have memRest : ∀ x, x ∈ rest.members ↔ (x ≠ o ∧ x ∈ s.members) ∧ x ∉ destroys o := fun x => by
    rw [hrest, (s.nodup.erase o).mem_diff_iff, s.nodup.mem_erase_iff]
  refine ⟨List.nodup_cons.mpr ⟨fun hn => ((memRest o).mp (sub o hn)).1.1 rfl, nd⟩, ?_, ?_, ?_⟩
  · rintro x (_ | ⟨_, hx⟩)
    · exact ho
    · exact ((memRest x).mp (sub x hx)).1.2
  · intro x hx
    by_cases e : x = o
    · exact .inl (e ▸ List.mem_cons_self _ _)
    by_cases d : x ∈ destroys o
    · exact .inr ⟨o, List.mem_cons_self _ _, d⟩
    rcases all x ((memRest x).mpr ⟨⟨e, hx⟩, d⟩) with hn | ⟨o', ho', hd⟩
    · exact .inl (List.mem_cons_of_mem _ hn)
    · exact .inr ⟨o', List.mem_cons_of_mem _ ho', hd⟩
  · exact List.Pairwise.cons (fun b hb => ((memRest b).mp (sub b hb)).2) order

theorem notifyAll_notified (hpick : ∀ l : List Nat, l ≠ [] → pick l ∈ l) (fuel : Nat) :
    ∀ s : DestructionObservers, s.members.length ≤ fuel →
      ∃ notified, notifyAll pick destroys fuel s = some notified ∧
        Notified destroys s notified := by
  have empty : ∀ (s : DestructionObservers) (fuel : Nat), s.members = [] →
      ∃ notified, notifyAll pick destroys fuel s = some notified ∧
        Notified destroys s notified := fun s fuel e =>
    ⟨[], notifyAll.eq_1 pick destroys s fuel (takeAny_nil pick e), List.nodup_nil, nofun,
      by simp [e], .nil⟩
  induction fuel with
  | zero => exact fun s hs => empty s 0 (List.length_eq_zero.mp (Nat.le_zero.mp hs))
  | succ n ih =>
    intro s hs
    by_cases e : s.members = []
    · exact empty s _ e
    have ho : pick s.members ∈ s.members := hpick _ e
    have hrest := foldl_willDestroyDestructionObserver (destroys (pick s.members))
      (s.willDestroyDestructionObserver (pick s.members))
    rw [willDestroyDestructionObserver_members] at hrest
    have shorter : ((s.members.erase (pick s.members)).diff
        (destroys (pick s.members))).length ≤ n := by
      have := (List.diff_sublist (s.members.erase (pick s.members))
        (destroys (pick s.members))).length_le
      rw [List.length_erase_of_mem ho] at this
      omega
    obtain ⟨notified, run, h⟩ := ih _ (hrest ▸ shorter)
    refine ⟨pick s.members :: notified, ?_, notified_cons destroys ho hrest h⟩
    rw [notifyAll.eq_3 pick destroys s _ _ n (takeAny_cons pick e), run]
    rfl

end Loop

def threeObservers : DestructionObservers := ⟨[1, 2, 3], by decide⟩

/-- In a release build, the destructor's loop, whatever member `takeAny` returns and whatever
observers each `contextDestroyed` destroys: it ends within one pass per member, notifies each
observer at most once and only members of the set, notifies every member unless a callback that
ran before destroyed it, and never notifies an observer that an earlier callback destroyed. -/
theorem notifyAll_once (pick : List Nat → Nat) (hpick : ∀ l : List Nat, l ≠ [] → pick l ∈ l)
    (destroys : Nat → List Nat) (s : DestructionObservers) :
    ∃ notified, notifyAll pick destroys s.members.length s = some notified ∧ notified.Nodup ∧
      (∀ o ∈ notified, o ∈ s.members) ∧
      (∀ o ∈ s.members, o ∈ notified ∨ ∃ o' ∈ notified, o ∈ destroys o') ∧
      notified.Pairwise fun a b => b ∉ destroys a :=
  notifyAll_notified pick destroys hpick _ s le_rfl

theorem notifyAll_once_threeObservers :
    (∀ l : List Nat, l ≠ [] → l.headD 0 ∈ l) ∧
      ∃ notified, notifyAll (·.headD 0) (fun o => if o = 1 then [2] else [])
          threeObservers.members.length threeObservers = some notified ∧ notified.Nodup ∧
        (∀ o ∈ notified, o ∈ threeObservers.members) ∧
        (∀ o ∈ threeObservers.members,
          o ∈ notified ∨ ∃ o' ∈ notified, o ∈ (fun o => if o = 1 then [2] else []) o') ∧
        notified.Pairwise fun a b => b ∉ (fun o => if o = 1 then [2] else []) a :=
  have hpick : ∀ l : List Nat, l ≠ [] → l.headD 0 ∈ l := fun
    | [], h => absurd rfl h
    | _ :: _, _ => List.mem_cons_self _ _
  ⟨hpick, notifyAll_once _ hpick _ threeObservers⟩

/-- `takeAny` returning the first member, and the callback of observer 1 destroying observer 2. -/
example : notifyAll (·.headD 0) (fun o => if o = 1 then [2] else []) 3 threeObservers =
    some [1, 3] := by decide

end DestructionObservers

end BunLoop
