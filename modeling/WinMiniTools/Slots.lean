import Mathlib.Data.List.Nodup

/-!
Tables with a fixed number of slots. A value is put into the first empty slot and
removed from the first slot that holds it. A value finds a slot as long as one is
empty (`put_isSome_iff`), the number of slots never changes, and the number of
slots in use follows the values put and removed (`put_used`, `remove_used`).
-/
namespace WinMiniTools.Slots
universe u

variable {α : Type u}

/-- The values in the table, in the order of the slots. -/
def values (table : List (Option α)) : List α := table.filterMap id
/-- The number of slots in use. -/
def used (table : List (Option α)) : Nat := (values table).length

/-- Puts a value into the first empty slot. -/
def put (a : α) : List (Option α) → Option (List (Option α))
  | [] => none
  | none :: table => some (some a :: table)
  | some b :: table => (put a table).map (some b :: ·)

/-- Empties the first slot that holds the value. -/
def remove [DecidableEq α] (a : α) : List (Option α) → Option (List (Option α))
  | [] => none
  | none :: table => (remove a table).map (none :: ·)
  | some b :: table => if b = a then some (none :: table) else (remove a table).map (some b :: ·)

@[simp] theorem values_nil : values ([] : List (Option α)) = [] := rfl
@[simp] theorem values_none (table : List (Option α)) : values (none :: table) = values table := rfl
@[simp] theorem values_some (a : α) (table : List (Option α)) : values (some a :: table) = a :: values table := rfl

theorem used_le (table : List (Option α)) : used table ≤ table.length := List.length_filterMap_le id table

/-! ### Putting -/

/-- A value finds a slot exactly if not all are in use. -/
theorem put_isSome_iff (a : α) (table : List (Option α)) : (put a table).isSome ↔ used table < table.length := by
  induction table with
  | nil => simp [put, used]
  | cons slot table ih =>
    cases slot with
    | none =>
      have := used_le table
      simp only [put, Option.isSome_some, used, values_none, List.length_cons, true_iff]
      rw [used] at this
      omega
    | some b =>
      simp only [put, Option.isSome_map, ih, used, values_some, List.length_cons]
      omega

theorem put_length {a : α} {table after : List (Option α)} (puts : put a table = some after) :
    after.length = table.length := by
  induction table generalizing after with
  | nil => cases puts
  | cons slot table ih =>
    cases slot with
    | none => cases puts; rfl
    | some b =>
      obtain ⟨rest, later, rfl⟩ := Option.map_eq_some_iff.mp puts
      simp [ih later]

/-- The values after putting one are those before and the one put. -/
theorem put_perm {a : α} {table after : List (Option α)} (puts : put a table = some after) :
    (values after).Perm (a :: values table) := by
  induction table generalizing after with
  | nil => cases puts
  | cons slot table ih =>
    cases slot with
    | none => cases puts; exact .refl _
    | some b =>
      obtain ⟨rest, later, rfl⟩ := Option.map_eq_some_iff.mp puts
      exact ((ih later).cons b).trans (.swap a b _)

theorem put_used {a : α} {table after : List (Option α)} (puts : put a table = some after) :
    used after = used table + 1 := by
  rw [used, (put_perm puts).length_eq, List.length_cons, used]

/-! ### Removing -/

variable [DecidableEq α]

theorem remove_isSome_iff (a : α) (table : List (Option α)) : (remove a table).isSome ↔ a ∈ values table := by
  induction table with
  | nil => simp [remove]
  | cons slot table ih =>
    cases slot with
    | none => simp [remove, ih]
    | some b =>
      by_cases same : b = a
      · simp [remove, same]
      · simp [remove, same, ih, Ne.symm same]

theorem remove_length {a : α} {table after : List (Option α)} (removes : remove a table = some after) :
    after.length = table.length := by
  induction table generalizing after with
  | nil => cases removes
  | cons slot table ih =>
    cases slot with
    | none =>
      obtain ⟨rest, later, rfl⟩ := Option.map_eq_some_iff.mp removes
      simp [ih later]
    | some b =>
      by_cases same : b = a
      · rw [remove, if_pos same] at removes
        cases removes
        rfl
      · rw [remove, if_neg same] at removes
        obtain ⟨rest, later, rfl⟩ := Option.map_eq_some_iff.mp removes
        simp [ih later]

/-- The values after removing one are the others. -/
theorem remove_values {a : α} {table after : List (Option α)} (removes : remove a table = some after) :
    values after = (values table).erase a := by
  induction table generalizing after with
  | nil => cases removes
  | cons slot table ih =>
    cases slot with
    | none =>
      obtain ⟨rest, later, rfl⟩ := Option.map_eq_some_iff.mp removes
      simp [ih later]
    | some b =>
      by_cases same : b = a
      · rw [remove, if_pos same] at removes
        cases removes
        simp [same]
      · rw [remove, if_neg same] at removes
        obtain ⟨rest, later, rfl⟩ := Option.map_eq_some_iff.mp removes
        simp [ih later, same]

theorem remove_used {a : α} {table after : List (Option α)} (removes : remove a table = some after) :
    used after + 1 = used table := by
  have member : a ∈ values table := (remove_isSome_iff a table).mp (by rw [removes]; rfl)
  have := List.length_pos_of_mem member
  rw [used, used, remove_values removes, List.length_erase_of_mem member]
  omega

/-- Among distinct values the one removed is gone, and the others stay. -/
theorem remove_mem {a b : α} {table after : List (Option α)} (distinct : (values table).Nodup)
    (removes : remove a table = some after) : b ∈ values after ↔ b ≠ a ∧ b ∈ values table := by
  rw [remove_values removes, distinct.mem_erase_iff]

/-- Removing the value put last restores the table. -/
theorem remove_put {a : α} {table after : List (Option α)} (fresh : a ∉ values table)
    (puts : put a table = some after) : remove a after = some table := by
  induction table generalizing after with
  | nil => cases puts
  | cons slot table ih =>
    cases slot with
    | none =>
      cases puts
      rw [remove, if_pos rfl]
    | some b =>
      obtain ⟨rest, later, rfl⟩ := Option.map_eq_some_iff.mp puts
      rw [values_some, List.mem_cons, not_or] at fresh
      rw [remove, if_neg (Ne.symm fresh.1), ih fresh.2 later]
      rfl

end WinMiniTools.Slots
