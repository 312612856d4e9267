import Mathlib.Data.List.DropRight

/-!
The last component of a path. `component` is what stands behind the last
separator, which may be nothing; `fileName` is the part of a path that
`PathFindFileName` of the shell library points to, which starts behind the last
separator that a component follows. They agree on every path that either of
them gives a name without separators (`fileName_eq_iff`).
-/
namespace WinMiniTools.PathComponents

def Separator (c : Char) : Prop := c = '\\' ∨ c = '/' ∨ c = ':'
instance (c : Char) : Decidable (Separator c) := inferInstanceAs (Decidable (_ ∨ _))

/-- What stands behind the last separator of a path. -/
def component (path : List Char) : List Char := path.rtakeWhile (fun c => ¬ Separator c)

/-- Behind the character a component starts. -/
def Opens (c : Char) (rest : List Char) : Prop :=
  Separator c ∧ rest ≠ [] ∧ rest.head? ≠ some '\\' ∧ rest.head? ≠ some '/'
instance (c : Char) (rest : List Char) : Decidable (Opens c rest) := inferInstanceAs (Decidable (_ ∧ _))

/-- The scan of a path with the file name found so far. -/
def fileNameFrom (last : List Char) : List Char → List Char
  | [] => last
  | c :: rest => if Opens c rest then fileNameFrom rest rest else fileNameFrom last rest

def fileName (path : List Char) : List Char := fileNameFrom path path

/-- The directory is empty or ends with a separator. -/
def Closed (dir : List Char) : Prop := ∀ last ∈ dir.getLast?, Separator last

variable {name path : List Char}

theorem component_of_split {dir : List Char} (closed : Closed dir) (plain : ∀ c ∈ name, ¬ Separator c) :
    component (dir ++ name) = name := by
  have whole : name.reverse.takeWhile (fun c => ¬ Separator c) = name.reverse := by
    rw [List.takeWhile_eq_self_iff]
    intro c member
    exact decide_eq_true (plain c (List.mem_reverse.mp member))
  rw [component, List.rtakeWhile, List.reverse_append, List.takeWhile_append, whole, if_pos rfl]
  have stop : dir.reverse.takeWhile (fun c => ¬ Separator c) = [] := by
    cases back : dir.reverse with
    | nil => rfl
    | cons c rest =>
      have last : Separator c := closed c (by rw [← List.head?_reverse, back]; rfl)
      simp [last]
  rw [stop, List.append_nil, List.reverse_reverse]

theorem component_split (path : List Char) :
    ∃ dir, path = dir ++ component path ∧ Closed dir ∧ ∀ c ∈ component path, ¬ Separator c := by
  refine ⟨path.rdropWhile (fun c => ¬ Separator c), List.rdropWhile_append_rtakeWhile.symm, ?_, ?_⟩
  · intro last member
    obtain ⟨nonempty, rfl⟩ := List.mem_getLast?_eq_getLast member
    have stays := List.rdropWhile_last_not (fun c => decide (¬ Separator c)) path nonempty
    simpa using stays
  · intro c member
    simpa using List.mem_rtakeWhile_imp member

/-- The scan leaves a name behind a separator, or the one it started with. -/
theorem fileNameFrom_split (last rest : List Char) (dir : List Char) (closed : Closed dir)
    (found : ∃ between, last = between ++ rest) :
    ∃ dir', dir ++ last = dir' ++ fileNameFrom last rest ∧ Closed dir' := by
  induction rest generalizing dir last with
  | nil => exact ⟨dir, rfl, closed⟩
  | cons c rest ih =>
    obtain ⟨between, rfl⟩ := found
    by_cases opens : Opens c rest
    · have behind : Closed (dir ++ (between ++ [c])) := by
        intro d member
        rw [← List.append_assoc, List.getLast?_concat, Option.mem_some_iff] at member
        exact member ▸ opens.1
      obtain ⟨dir', split, closed'⟩ := ih rest _ behind ⟨[], rfl⟩
      refine ⟨dir', ?_, closed'⟩
      rw [fileNameFrom, if_pos opens, ← split]
      simp
    · obtain ⟨dir', split, closed'⟩ := ih (between ++ c :: rest) dir closed ⟨between ++ [c], by simp⟩
      rw [fileNameFrom, if_neg opens]
      exact ⟨dir', split, closed'⟩

theorem fileName_split (path : List Char) : ∃ dir, path = dir ++ fileName path ∧ Closed dir :=
  fileNameFrom_split path path [] (by simp [Closed]) ⟨[], rfl⟩

theorem fileName_length_le (path : List Char) : (fileName path).length ≤ path.length := by
  obtain ⟨dir, split, _⟩ := fileName_split path
  have lengths := congrArg List.length split
  rw [List.length_append] at lengths
  omega

theorem fileNameFrom_plain (plain : ∀ c ∈ name, ¬ Separator c) (last : List Char) :
    fileNameFrom last name = last := by
  induction name with
  | nil => rfl
  | cons c rest ih =>
    have other : ¬ Opens c rest := fun opens => plain c (by simp) opens.1
    rw [fileNameFrom, if_neg other]
    exact ih (fun d member => plain d (by simp [member]))

theorem fileNameFrom_behind (plain : ∀ c ∈ name, ¬ Separator c) (some : name ≠ []) {s : Char}
    (separator : Separator s) (dir last : List Char) : fileNameFrom last (dir ++ s :: name) = name := by
  induction dir generalizing last with
  | nil =>
    have opens : Opens s name := by
      refine ⟨separator, some, ?_, ?_⟩
      · intro head
        exact plain _ (List.mem_of_head? head) (.inl rfl)
      · intro head
        exact plain _ (List.mem_of_head? head) (.inr (.inl rfl))
    rw [List.nil_append, fileNameFrom, if_pos opens, fileNameFrom_plain plain]
  | cons c dir ih =>
    rw [List.cons_append, fileNameFrom, ih, ih, ite_self]

/-- The file name is a given name exactly when the last component is. -/
theorem fileName_eq_iff (plain : ∀ c ∈ name, ¬ Separator c) (some : name ≠ []) :
    fileName path = name ↔ component path = name := by
  constructor
  · rintro rfl
    obtain ⟨dir, split, closed⟩ := fileName_split path
    have named := component_of_split closed plain
    rwa [← split] at named
  · intro named
    obtain ⟨dir, split, closed, _⟩ := component_split path
    rw [named] at split
    rcases List.eq_nil_or_concat dir with rfl | ⟨before, s, rfl⟩
    · rw [split, List.nil_append, fileName, fileNameFrom_plain plain]
    · have separator : Separator s := closed s (by simp)
      rw [split, List.concat_eq_append, List.append_assoc]
      exact fileNameFrom_behind plain some separator before _

end WinMiniTools.PathComponents
