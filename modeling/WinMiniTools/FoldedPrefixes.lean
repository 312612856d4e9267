import Mathlib.Data.List.Basic

/-!
Prefixes up to a folding of the letters, such as letter case. `Starts fold name
text` is decided by the first letters of the text (`starts_iff_take`), splits
the text (`starts_iff_append`), and orders the names that a text starts with by
their lengths (`starts_of_starts`).
-/
namespace WinMiniTools.FoldedPrefixes
universe u v

variable {α : Type u} {β : Type v} {fold : α → β} {name other text : List α}

/-- The text starts with the name, up to the folding. -/
def Starts (fold : α → β) (name text : List α) : Prop := name.map fold <+: text.map fold
instance [DecidableEq β] (fold : α → β) (name text : List α) : Decidable (Starts fold name text) :=
  inferInstanceAs (Decidable (_ <+: _))

theorem starts_iff_take : Starts fold name text ↔ (text.take name.length).map fold = name.map fold := by
  rw [Starts, List.prefix_iff_eq_take, List.length_map, List.map_take]
  exact eq_comm

theorem starts_iff_append :
    Starts fold name text ↔ ∃ head rest, text = head ++ rest ∧ head.map fold = name.map fold := by
  constructor
  · intro starts
    exact ⟨text.take name.length, text.drop name.length, (List.take_append_drop _ _).symm, starts_iff_take.mp starts⟩
  · rintro ⟨head, rest, rfl, same⟩
    rw [Starts, ← same, List.map_append]
    exact List.prefix_append _ _

theorem starts_append (name rest : List α) : Starts fold name (name ++ rest) :=
  starts_iff_append.mpr ⟨name, rest, rfl, rfl⟩

/-- Of two names that a text starts with, the longer one starts with the shorter. -/
theorem starts_of_starts (here : Starts fold name text) (there : Starts fold other text)
    (shorter : name.length ≤ other.length) : Starts fold name other :=
  List.prefix_of_prefix_length_le here there (by simpa using shorter)

end WinMiniTools.FoldedPrefixes
