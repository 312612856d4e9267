import Mathlib.Data.List.Nodup
import Mathlib.Data.List.TakeWhile

/-!
Successors in a list without repetitions. `onward h l` is the list from an
element on and `behind h l` what stands behind it; both are empty for an element
that is not in the list. An element stands behind another exactly when the pair
is a sublist (`mem_behind_iff`), so taking other elements out of the list, or
putting them in, does not change what stands behind what (`mem_behind_erase`).
-/
namespace WinMiniTools.Successors
universe u

variable {α : Type u} [DecidableEq α] {h w : α} {l : List α}

def onward (h : α) (l : List α) : List α := l.dropWhile (fun x => x ≠ h)
def behind (h : α) (l : List α) : List α := (onward h l).tail
/-- The next element of the list, if any. -/
def successor (h : α) (l : List α) : Option α := (behind h l).head?

theorem onward_of_mem (member : h ∈ l) : onward h l = h :: behind h l := by
  induction l with
  | nil => exact absurd member List.not_mem_nil
  | cons x l ih =>
    unfold behind onward
    by_cases here : x = h
    · simp [here]
    · have later : h ∈ l := (List.mem_cons.mp member).resolve_left (Ne.symm here)
      rw [List.dropWhile_cons_of_pos (by simpa using here)]
      exact ih later

theorem onward_of_not_mem (absent : h ∉ l) : onward h l = [] := by
  rw [onward, List.dropWhile_eq_nil_iff]
  intro x member
  have other : x ≠ h := by
    rintro rfl
    exact absent member
  simpa using other

theorem behind_of_not_mem (absent : h ∉ l) : behind h l = [] := by
  rw [behind, onward_of_not_mem absent, List.tail_nil]

theorem onward_suffix (h : α) (l : List α) : onward h l <:+ l := List.dropWhile_suffix _
theorem behind_suffix (h : α) (l : List α) : behind h l <:+ l := (List.tail_suffix _).trans (onward_suffix h l)

theorem onward_head (h : α) (l : List α) : onward h (h :: l) = h :: l := by
  simp [onward]

/-- Nothing stands behind itself. -/
theorem not_mem_behind (nodup : l.Nodup) (h : α) : h ∉ behind h l := by
  by_cases member : h ∈ l
  · have distinct : (onward h l).Nodup := nodup.sublist (onward_suffix h l).sublist
    rw [onward_of_mem member] at distinct
    exact (List.nodup_cons.mp distinct).1
  · rw [behind_of_not_mem member]
    exact List.not_mem_nil

/-- From the successor on, the list is what stands behind. -/
theorem onward_successor (nodup : l.Nodup) (h : α) :
    (successor h l = none ∧ behind h l = []) ∨ ∃ n, successor h l = some n ∧ onward n l = behind h l := by
  cases later : behind h l with
  | nil => exact .inl ⟨by rw [successor, later]; rfl, rfl⟩
  | cons n rest =>
    refine .inr ⟨n, by rw [successor, later]; rfl, ?_⟩
    obtain ⟨before, split⟩ : n :: rest <:+ l := later ▸ behind_suffix h l
    have fresh : ∀ x ∈ before, x ≠ n := by
      rw [← split] at nodup
      rintro x member rfl
      exact (List.nodup_append.mp nodup).2.2 x member x List.mem_cons_self rfl
    rw [← split, onward, List.dropWhile_append_of_pos (by simpa using fresh)]
    exact onward_head n rest

theorem mem_behind_iff (nodup : l.Nodup) : w ∈ behind h l ↔ [h, w].Sublist l := by
  induction l with
  | nil => simp [behind, onward]
  | cons x l ih =>
    obtain ⟨fresh, distinct⟩ := List.nodup_cons.mp nodup
    by_cases here : x = h
    · subst here
      rw [behind, onward_head, List.tail_cons, List.cons_sublist_cons, List.singleton_sublist]
    · have later : behind h (x :: l) = behind h l := by
        rw [behind, onward, List.dropWhile_cons_of_pos (by simpa using here)]
        rfl
      rw [later, ih distinct]
      constructor
      · exact fun pair => pair.cons x
      · intro pair
        rcases List.sublist_cons_iff.mp pair with pair | ⟨rest, split, _⟩
        · exact pair
        · exact absurd (List.cons.inj split).1.symm here

/-- Taking another element out does not change what stands behind what. -/
theorem mem_behind_erase (nodup : l.Nodup) {v : α} (notHand : v ≠ h) (notThis : v ≠ w) :
    w ∈ behind h (l.erase v) ↔ w ∈ behind h l := by
  rw [mem_behind_iff nodup, mem_behind_iff (nodup.erase v)]
  constructor
  · exact fun pair => pair.trans List.erase_sublist
  · intro pair
    have kept := pair.erase v
    rwa [List.erase_of_not_mem (by simp [notHand, notThis])] at kept

theorem mem_onward_iff : w ∈ onward h l ↔ h ∈ l ∧ (w = h ∨ w ∈ behind h l) := by
  by_cases member : h ∈ l
  · rw [onward_of_mem member, List.mem_cons]
    simp [member]
  · rw [onward_of_not_mem member]
    simp [member]

end WinMiniTools.Successors
