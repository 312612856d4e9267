import Mathlib.Data.List.Basic
import WinMiniTools.Loops

/-!
Lists that a system hands out one element a call, the first by its own call and
the others by calls for the next. A loop over such a list visits its elements
in order until one of them ends it, so its result is that of the first element
that does (`scan_result`); it visits every element where none does
(`scan_events`).
-/
namespace WinMiniTools.Cursors
open WinMiniTools.Loops
universe u v w

variable {α : Type u} {Event : Type v} {Result : Type w}

/-- The call for the next element: the element, and what is left behind it. -/
def next : List α → Option (α × List α)
  | [] => none
  | e :: left => some (e, left)

/-- The call for the first element, which starts over. -/
def first (entries : List α) : Option (α × List α) := next entries

/-- The loop that visits an element, then asks for the next; it ends with a
    result of a visit, or with the given one behind the last element. -/
def scan (visit : α → List Event × Option Result) (ended : Result) : Loop (Option (α × List α)) Event Result where
  body
    | none => ([], .inr ended)
    | some (e, left) =>
      match (visit e).2 with
      | some r => ((visit e).1, .inr r)
      | none => ((visit e).1, .inl (next left))
  weight
    | none => 0
    | some (_, left) => left.length + 1
  progress := by
    rintro (_ | ⟨e, left⟩) t goes
    · cases goes
    · dsimp only at goes
      split at goes
      · cases goes
      · cases goes
        cases left with
        | nil => exact Nat.zero_lt_succ _
        | cons e' left => exact Nat.lt_succ_self _

variable (visit : α → List Event × Option Result) (ended : Result)

theorem scan_ends : (scan visit ended).events none = [] ∧ (scan visit ended).result none = ended :=
  ⟨Loop.events_leave _ rfl, Loop.result_leave _ rfl⟩

theorem scan_leaves {e : α} {r : Result} (leaves : (visit e).2 = some r) (left : List α) :
    (scan visit ended).events (some (e, left)) = (visit e).1 ∧ (scan visit ended).result (some (e, left)) = r := by
  have body : (scan visit ended).body (some (e, left)) = ((visit e).1, .inr r) := by
    simp only [scan, leaves]
  exact ⟨Loop.events_leave _ body, Loop.result_leave _ body⟩

theorem scan_goes {e : α} (goes : (visit e).2 = none) (left : List α) :
    (scan visit ended).events (some (e, left)) = (visit e).1 ++ (scan visit ended).events (next left) ∧
      (scan visit ended).result (some (e, left)) = (scan visit ended).result (next left) := by
  have body : (scan visit ended).body (some (e, left)) = ((visit e).1, .inl (next left)) := by
    simp only [scan, goes]
  exact ⟨Loop.events_next _ body, Loop.result_next _ body⟩

/-- The first element that ends the loop gives its result. -/
theorem scan_result (entries : List α) :
    (scan visit ended).result (next entries) = (entries.findSome? (fun e => (visit e).2)).getD ended := by
  induction entries with
  | nil => exact (scan_ends visit ended).2
  | cons e left ih =>
    rw [List.findSome?_cons, next]
    cases leaves : (visit e).2 with
    | some r => exact (scan_leaves visit ended leaves left).2
    | none => rw [(scan_goes visit ended leaves left).2, ih]

/-- Where visits have no other result, the loop has it unless it visits all. -/
theorem scan_result_ne {entries : List α} {r : Result} (other : ended ≠ r)
    (only : ∀ e ∈ entries, ∀ r', (visit e).2 = some r' → r' = r) :
    (scan visit ended).result (next entries) ≠ r ↔ ∀ e ∈ entries, (visit e).2 = none := by
  rw [scan_result]
  constructor
  · intro never e member
    cases found : entries.findSome? (fun e => (visit e).2) with
    | none => exact List.findSome?_eq_none_iff.mp found e member
    | some r' =>
      obtain ⟨d, member', here⟩ := List.exists_of_findSome?_eq_some found
      rw [found, only d member' r' here] at never
      exact absurd rfl never
  · intro goes
    rw [List.findSome?_eq_none_iff.mpr goes]
    exact other

/-- Where no element ends the loop, all are visited. -/
theorem scan_events {entries : List α} (goes : ∀ e ∈ entries, (visit e).2 = none) :
    (scan visit ended).events (next entries) = entries.flatMap (fun e => (visit e).1) := by
  induction entries with
  | nil => exact (scan_ends visit ended).1
  | cons e left ih =>
    rw [next, (scan_goes visit ended (goes e List.mem_cons_self) left).1, List.flatMap_cons,
      ih (fun d member => goes d (List.mem_cons_of_mem e member))]

end WinMiniTools.Cursors
