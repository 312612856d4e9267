import Mathlib.Algebra.BigOperators.Group.Finset.Basic
import Mathlib.Logic.Relation

/-!
Hierarchies, in which every element has at most one parent and lies one level
below it. What is under an element is listed once (`below`). A listing that
lists again what is under each element it comes to, and so on at every element
(`retraced`), comes to an element once for every choice among the elements
between: from level to level the number doubles (`count_retraced`).
-/
namespace WinMiniTools.Hierarchies
universe u

structure Hierarchy (α : Type u) where
  parent : α → Option α
  level : α → Nat
  lower : ∀ {a b}, parent b = some a → level b = level a + 1

variable {α : Type u}

/-- At any depth, but not the element itself. -/
def Hierarchy.Under (H : Hierarchy α) : α → α → Prop := Relation.TransGen (fun a b => H.parent b = some a)

/-- A hierarchy with a list of what is under each element. -/
structure Listed (α : Type u) extends Hierarchy α where
  below : α → List α
  once : ∀ a, (below a).Nodup
  mem_below : ∀ {a b}, b ∈ below a ↔ toHierarchy.Under a b

/-! ### Above and under -/

namespace Hierarchy
variable (H : Hierarchy α) {a b c w : α}

theorem under_level (under : H.Under a b) : H.level a < H.level b := by
  induction under with
  | single step => rw [H.lower step]; exact Nat.lt_succ_self _
  | tail _ step ih => rw [H.lower step]; exact Nat.lt_succ_of_lt ih

theorem not_under_self (a : α) : ¬ H.Under a a := fun under => Nat.lt_irrefl _ (H.under_level under)

/-- Of two elements that a third is under, one is under the other. -/
theorem under_total (first : H.Under a w) (second : H.Under b w) : a = b ∨ H.Under a b ∨ H.Under b a := by
  induction first with
  | single step =>
    rcases Relation.TransGen.tail'_iff.mp second with ⟨above, path, last⟩
    have same := Option.some.inj (step.symm.trans last)
    rcases Relation.reflTransGen_iff_eq_or_transGen.mp path with rfl | under
    · exact .inl same
    · exact .inr (.inr (same ▸ under))
  | tail path step ih =>
    rcases Relation.TransGen.tail'_iff.mp second with ⟨above, path', last⟩
    have same := Option.some.inj (step.symm.trans last)
    rcases Relation.reflTransGen_iff_eq_or_transGen.mp path' with rfl | under
    · exact .inr (.inl (same ▸ path))
    · exact ih (same ▸ under)

/-- What is under an element and leads to another one, is on the way through the
    child that leads there. -/
theorem on_the_way (child : H.parent c = some a) (path : c = w ∨ H.Under c w) {x : α} (under : H.Under a x)
    (leads : x = w ∨ H.Under x w) : x = c ∨ H.Under c x := by
  -- Nothing is between an element and its child.
  have notAbove : ¬ H.Under x c := by
    intro above
    have := H.under_level above
    have := H.under_level under
    have := H.lower child
    omega
  rcases path with rfl | path
  · exact .inl (leads.resolve_right notAbove)
  · rcases leads with rfl | leads
    · exact .inr path
    · rcases H.under_total leads path with same | above | here
      · exact .inl same
      · exact absurd above notAbove
      · exact .inr here

end Hierarchy

/-! ### Listing again and again -/

namespace Listed
variable (L : Listed α) {a b c w : α}

theorem below_shorter (member : b ∈ L.below a) : (L.below b).length < (L.below a).length := by
  have under := L.mem_below.mp member
  have nodup : (b :: L.below b).Nodup :=
    List.nodup_cons.mpr ⟨fun self => L.not_under_self b (L.mem_below.mp self), L.once b⟩
  have inside : b :: L.below b ⊆ L.below a := by
    intro x listed
    rcases List.mem_cons.mp listed with rfl | later
    · exact member
    · exact L.mem_below.mpr (under.trans (L.mem_below.mp later))
  exact (List.subperm_of_subset nodup inside).length_le

/-- What is under an element, each followed by what is retraced under it. -/
def retraced (L : Listed α) (a : α) : List α := (L.below a).flatMap (fun b => b :: L.retraced b)
termination_by (L.below a).length
decreasing_by
  rename_i member
  exact L.below_shorter member

theorem mem_retraced : b ∈ L.retraced a ↔ L.Under a b := by
  induction a using retraced.induct (L := L) with
  | case1 a ih =>
    rw [retraced, List.mem_flatMap]
    constructor
    · rintro ⟨x, listed, member⟩
      have under := L.mem_below.mp listed
      rcases List.mem_cons.mp member with rfl | later
      · exact under
      · exact under.trans ((ih x listed).mp later)
    · intro under
      exact ⟨b, L.mem_below.mpr under, List.mem_cons_self⟩

variable [DecidableEq α]

theorem count_eq_sum (a w : α) :
    (L.retraced a).count w = ∑ x ∈ (L.below a).toFinset, (x :: L.retraced x).count w := by
  rw [retraced, List.count_flatMap, List.sum_toFinset _ (L.once a)]
  rfl

/-- An element is come to again through each element above it. -/
theorem count_child (child : L.parent c = some a) (path : c = w ∨ L.Under c w) :
    (L.retraced a).count w = (c :: L.retraced c).count w + (L.retraced c).count w := by
  have under : L.Under a c := .single child
  have notSelf : c ∉ (L.below c).toFinset := by
    rw [List.mem_toFinset, L.mem_below]
    exact L.not_under_self c
  rw [count_eq_sum L a, count_eq_sum L c, ← Finset.sum_insert (f := fun x => (x :: L.retraced x).count w) notSelf]
  symm
  apply Finset.sum_subset
  · intro x member
    rcases Finset.mem_insert.mp member with rfl | later
    · exact List.mem_toFinset.mpr (L.mem_below.mpr under)
    · exact List.mem_toFinset.mpr (L.mem_below.mpr (under.trans (L.mem_below.mp (List.mem_toFinset.mp later))))
  · intro x listed apart
    rw [List.count_eq_zero]
    intro member
    have leads : x = w ∨ L.Under x w := by
      rcases List.mem_cons.mp member with same | later
      · exact .inl same.symm
      · exact .inr (L.mem_retraced.mp later)
    apply apart
    rcases L.on_the_way child path (L.mem_below.mp (List.mem_toFinset.mp listed)) leads with rfl | later
    · exact Finset.mem_insert_self _ _
    · exact Finset.mem_insert_of_mem (List.mem_toFinset.mpr (L.mem_below.mpr later))

/-- A child is come to once, and what is deeper twice as often as from the child. -/
theorem count_retraced (under : L.Under a w) : (L.retraced a).count w = 2 ^ (L.level w - L.level a - 1) := by
  have never : (L.retraced w).count w = 0 :=
    List.count_eq_zero.mpr (fun member => L.not_under_self w (L.mem_retraced.mp member))
  induction under using Relation.TransGen.head_induction_on with
  | single child =>
    rw [L.count_child child (.inl rfl), List.count_cons_self, never, L.lower child, Nat.add_sub_cancel_left]
    rfl
  | @head a c child path ih =>
    have other : c ≠ w := by
      rintro rfl
      exact L.not_under_self c path
    have deeper := L.under_level path
    have lower := L.lower child
    have levels : L.level w - L.level a - 1 = L.level w - L.level c - 1 + 1 := by omega
    rw [L.count_child child (.inr path), List.count_cons_of_ne other, ih, ← Nat.two_mul, levels, Nat.pow_succ']

end Listed
end WinMiniTools.Hierarchies
