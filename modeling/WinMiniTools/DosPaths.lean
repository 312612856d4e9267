import WinMiniTools.FoldedPrefixes
import WinMiniTools.Loops

/-!
From device paths to drive letters (`DosPathToNtPath`). The function walks the
buffer of drive strings, four characters a drive, and takes the first drive
whose device name starts the path, up to letter case. The walk is a search of
the list of drives (`driveLoop_eq`). It ends in three ways: a drive matches, a
query fails, or the drives are exhausted. A match need not end at a component of
the path (`true_names_file_iff`), and a failed query ends the search at once,
without a copy of the path (`translates_iff`).
-/
namespace WinMiniTools.DosPaths
open WinMiniTools.Loops WinMiniTools.FoldedPrefixes

/-- `GetLogicalDriveStrings`, as the letters of the drives, and `QueryDosDevice`
    for a buffer of a hundred characters; both may fail. -/
structure System where
  logicalDrives : Option (List Char)
  queryDosDevice : List Char → Option (List Char)
  alphabetic : ∀ letters, logicalDrives = some letters → ∀ c ∈ letters, c.isAlpha = true

/-- The drive strings of some letters, as they stand in `szDriveStr`. -/
def driveStrings (letters : List Char) : List Char :=
  letters.flatMap (fun c => [c, ':', '\\', '\x00']) ++ ['\x00']

/-- The character at an index, and the string that begins there. -/
def charAt (szDriveStr : List Char) (i : Nat) : Char := szDriveStr.getD i '\x00'
def stringAt (szDriveStr : List Char) (i : Nat) : List Char := (szDriveStr.drop i).takeWhile (fun c => c ≠ '\x00')

/-- Whether `lstrcmpi` and `_tcsnicmp` return zero. -/
def lstrcmpiZero (s t : List Char) : Bool := s.map Char.toLower = t.map Char.toLower
def tcsnicmpZero (s t : List Char) (n : Nat) : Bool := lstrcmpiZero (s.take n) (t.take n)

/-- The exits of the loop: its two returns, and its end. -/
inductive Exit where
  | found (szDrive : List Char) (cchDevName : Nat)
  | queryFails
  | exhausted
  deriving DecidableEq

/-- `for (i = 0; szDriveStr[i]; i += 4)`. -/
def driveLoop (queryDosDevice : List Char → Option (List Char)) (szDriveStr pszDosPath : List Char) :
    Loop Nat Empty Exit where
  body i :=
    if charAt szDriveStr i ≠ '\x00' then
      if lstrcmpiZero (stringAt szDriveStr i) ['A', ':', '\\'] ∨
          lstrcmpiZero (stringAt szDriveStr i) ['B', ':', '\\'] then
        ([], .inl (i + 4))
      else
        let szDrive := [charAt szDriveStr i, charAt szDriveStr (i + 1)]
        match queryDosDevice szDrive with
        | none => ([], .inr .queryFails)
        | some szDevName =>
          let cchDevName := szDevName.length
          if tcsnicmpZero pszDosPath szDevName cchDevName then ([], .inr (.found szDrive cchDevName))
          else ([], .inl (i + 4))
    else ([], .inr .exhausted)
  weight i := szDriveStr.length - i
  progress := by
    intro i t next
    have inside : i < szDriveStr.length ∧ t = i + 4 := by
      by_cases more : charAt szDriveStr i ≠ '\x00'
      · constructor
        · by_contra outside
          exact more (by simp [charAt, List.getElem?_eq_none (Nat.le_of_not_lt outside)])
        · rw [if_pos more] at next
          split at next
          · cases next; rfl
          · dsimp only at next
            split at next
            · cases next
            · split at next <;> cases next
              rfl
      · rw [if_neg more] at next
        cases next
    omega

/-- `DosPathToNtPath`: what it returns, and what `pszNtPath` points to then. No
    string is a null pointer. -/
def dosPathToNtPath (sys : System) (pszDosPath pszNtPath : Option (List Char)) : Bool × Option (List Char) :=
  match pszDosPath, pszNtPath with
  | some path, some before =>
    let exit : Exit :=
      match sys.logicalDrives with
      | none => .exhausted
      | some letters => (driveLoop sys.queryDosDevice (driveStrings letters) path).result 0
    match exit with
    | .found szDrive cchDevName => (true, some (szDrive ++ path.drop cchDevName))
    | .queryFails => (false, some before)
    | .exhausted => (false, some path)
  | _, _ => (false, pszNtPath)

/-! ### The search behind the loop -/

/-- `A:` and `B:`, which the loop passes over. -/
def Floppy (c : Char) : Prop := c.toLower = 'a' ∨ c.toLower = 'b'
instance (c : Char) : Decidable (Floppy c) := inferInstanceAs (Decidable (_ ∨ _))

/-- The exit that the loop takes at a drive, if any. -/
def exitAt (queryDosDevice : List Char → Option (List Char)) (path : List Char) (c : Char) : Option Exit :=
  if Floppy c then none
  else
    match queryDosDevice [c, ':'] with
    | none => some .queryFails
    | some device => if Starts Char.toLower device path then some (.found [c, ':'] device.length) else none

theorem charAt_append (passed : List Char) (c : Char) (rest : List Char) (k : Nat) :
    charAt (passed ++ c :: rest) (passed.length + k) = charAt (c :: rest) k := by
  simp [charAt, List.getD_eq_getElem?_getD, List.getElem?_append_right]

private theorem letter_visible {c : Char} (letter : c.isAlpha = true) : c ≠ '\x00' := by
  rintro rfl
  exact absurd letter (by decide)

theorem stringAt_append (passed : List Char) {c : Char} (letter : c.isAlpha = true) (rest : List Char) :
    stringAt (passed ++ c :: ':' :: '\\' :: '\x00' :: rest) passed.length = [c, ':', '\\'] := by
  simp [stringAt, letter_visible letter]

theorem floppy_iff (c : Char) :
    (lstrcmpiZero [c, ':', '\\'] ['A', ':', '\\'] ∨ lstrcmpiZero [c, ':', '\\'] ['B', ':', '\\']) ↔ Floppy c := by
  simp [lstrcmpiZero, Floppy]

theorem tcsnicmp_iff (path device : List Char) :
    tcsnicmpZero path device device.length = true ↔ Starts Char.toLower device path := by
  simp [tcsnicmpZero, lstrcmpiZero, starts_iff_take]

/-- At the string of a drive the loop takes the exit of that drive, or goes on. -/
theorem driveLoop_body (queryDosDevice : List Char → Option (List Char)) (path passed : List Char) {c : Char}
    (letter : c.isAlpha = true) (letters : List Char) :
    (driveLoop queryDosDevice (passed ++ driveStrings (c :: letters)) path).body passed.length =
      ([], match exitAt queryDosDevice path c with
        | none => .inl (passed.length + 4)
        | some exit => .inr exit) := by
  have more : charAt (passed ++ driveStrings (c :: letters)) passed.length = c := charAt_append passed c _ 0
  have colon : charAt (passed ++ driveStrings (c :: letters)) (passed.length + 1) = ':' := charAt_append passed c _ 1
  have text : stringAt (passed ++ driveStrings (c :: letters)) passed.length = [c, ':', '\\'] :=
    stringAt_append passed letter _
  have visible := letter_visible letter
  simp only [driveLoop, more, colon, text, visible, floppy_iff, exitAt, ne_eq, not_false_eq_true, ↓reduceIte]
  by_cases floppy : Floppy c
  · simp only [floppy, ↓reduceIte]
  · cases query : queryDosDevice [c, ':'] with
    | none => simp only [floppy, ↓reduceIte]
    | some device => by_cases starts : Starts Char.toLower device path <;> simp [floppy, tcsnicmp_iff, starts]

/-- The loop over the buffer searches the drives for the first with an exit. -/
theorem driveLoop_eq (queryDosDevice : List Char → Option (List Char)) (path passed : List Char) {letters : List Char}
    (alphabetic : ∀ c ∈ letters, c.isAlpha = true) :
    (driveLoop queryDosDevice (passed ++ driveStrings letters) path).result passed.length =
      (letters.findSome? (exitAt queryDosDevice path)).getD .exhausted := by
  induction letters generalizing passed with
  | nil =>
    have ends : charAt (passed ++ driveStrings []) passed.length = '\x00' := charAt_append passed '\x00' [] 0
    apply Loop.result_leave
    simp only [driveLoop, ends, ne_eq, not_true_eq_false, ↓reduceIte]
    rfl
  | cons c letters ih =>
    have body := driveLoop_body queryDosDevice path passed (alphabetic c List.mem_cons_self) letters
    rw [List.findSome?_cons]
    cases exit : exitAt queryDosDevice path c with
    | none =>
      have rest := ih (passed ++ [c, ':', '\\', '\x00']) (fun d member => alphabetic d (List.mem_cons_of_mem c member))
      have split : passed ++ driveStrings (c :: letters) = passed ++ [c, ':', '\\', '\x00'] ++ driveStrings letters := by
        simp [driveStrings]
      rw [exit] at body
      rw [Loop.result_next _ body, split, ← rest]
      simp
    | some found =>
      rw [exit] at body
      rw [Loop.result_leave _ body]
      rfl

/-! ### The three exits -/

/-- The drives listed: none when `GetLogicalDriveStrings` fails. -/
def System.drives (sys : System) : List Char := sys.logicalDrives.getD []

/-- The loop goes on after a drive. -/
def Passes (sys : System) (path : List Char) (c : Char) : Prop :=
  Floppy c ∨ ∃ device, sys.queryDosDevice [c, ':'] = some device ∧ ¬ Starts Char.toLower device path

/-- The loop comes to a drive. -/
def Reached (sys : System) (path : List Char) (c : Char) : Prop :=
  ¬ Floppy c ∧ ∃ earlier later, sys.drives = earlier ++ c :: later ∧ ∀ b ∈ earlier, Passes sys path b

/-- The device name of a drive that the loop comes to starts the path. -/
structure FirstMatch (sys : System) (path : List Char) (c : Char) (device : List Char) : Prop where
  reached : Reached sys path c
  answers : sys.queryDosDevice [c, ':'] = some device
  starts : Starts Char.toLower device path

theorem exitAt_none {sys : System} {path : List Char} {c : Char} :
    exitAt sys.queryDosDevice path c = none ↔ Passes sys path c := by
  rw [exitAt, Passes]
  by_cases floppy : Floppy c
  · simp [floppy]
  · cases query : sys.queryDosDevice [c, ':'] with
    | none => simp [floppy]
    | some device => simp [floppy]

theorem dosPath_eq (sys : System) (path before : List Char) :
    dosPathToNtPath sys (some path) (some before) =
      match sys.drives.findSome? (exitAt sys.queryDosDevice path) with
      | some (.found szDrive cchDevName) => (true, some (szDrive ++ path.drop cchDevName))
      | some .queryFails => (false, some before)
      | some .exhausted => (false, some path)
      | none => (false, some path) := by
  have exit : (match sys.logicalDrives with
      | none => Exit.exhausted
      | some letters => (driveLoop sys.queryDosDevice (driveStrings letters) path).result 0) =
      (sys.drives.findSome? (exitAt sys.queryDosDevice path)).getD .exhausted := by
    cases listed : sys.logicalDrives with
    | none => simp [System.drives, listed]
    | some letters =>
      simpa [System.drives, listed] using
        driveLoop_eq sys.queryDosDevice path [] (sys.alphabetic letters listed)
  rw [dosPathToNtPath, exit]
  cases sys.drives.findSome? (exitAt sys.queryDosDevice path) with
  | none => rfl
  | some exit => cases exit <;> rfl

/-- The exit of a drive that the loop comes to is the exit of the search. -/
theorem reached_exit {sys : System} {path : List Char} {c : Char} {exit : Exit} (reached : Reached sys path c)
    (here : exitAt sys.queryDosDevice path c = some exit) :
    sys.drives.findSome? (exitAt sys.queryDosDevice path) = some exit := by
  obtain ⟨_, earlier, later, listed, passes⟩ := reached
  refine List.findSome?_eq_some_iff.mpr ⟨earlier, c, later, listed, here, ?_⟩
  intro b member
  exact exitAt_none.mpr (passes b member)

theorem dosPath_match {sys : System} {path device : List Char} {c : Char} (first : FirstMatch sys path c device)
    (before : List Char) :
    dosPathToNtPath sys (some path) (some before) = (true, some ([c, ':'] ++ path.drop device.length)) := by
  have exit : exitAt sys.queryDosDevice path c = some (.found [c, ':'] device.length) := by
    simp only [exitAt, first.reached.1, first.answers, first.starts, ↓reduceIte]
  rw [dosPath_eq, reached_exit first.reached exit]

theorem dosPath_fails {sys : System} {path : List Char} {c : Char} (reached : Reached sys path c)
    (fails : sys.queryDosDevice [c, ':'] = none) (before : List Char) :
    dosPathToNtPath sys (some path) (some before) = (false, some before) := by
  have exit : exitAt sys.queryDosDevice path c = some .queryFails := by
    simp only [exitAt, reached.1, fails, ↓reduceIte]
  rw [dosPath_eq, reached_exit reached exit]

theorem dosPath_exhausted {sys : System} {path : List Char} (passes : ∀ c ∈ sys.drives, Passes sys path c)
    (before : List Char) : dosPathToNtPath sys (some path) (some before) = (false, some path) := by
  have none : sys.drives.findSome? (exitAt sys.queryDosDevice path) = none :=
    List.findSome?_eq_none_iff.mpr (fun c member => exitAt_none.mpr (passes c member))
  rw [dosPath_eq, none]

/-- The loop leaves by a match, by a failed query, or past the last drive. -/
theorem exit_cases (sys : System) (path : List Char) :
    (∃ c device, FirstMatch sys path c device) ∨
    (∃ c, Reached sys path c ∧ sys.queryDosDevice [c, ':'] = none) ∨ ∀ c ∈ sys.drives, Passes sys path c := by
  cases found : sys.drives.findSome? (exitAt sys.queryDosDevice path) with
  | none => exact .inr (.inr (fun c member => exitAt_none.mp (List.findSome?_eq_none_iff.mp found c member)))
  | some exit =>
    obtain ⟨earlier, c, later, listed, here, passes⟩ := List.findSome?_eq_some_iff.mp found
    have stops : ¬ Passes sys path c := fun passes => by simp [exitAt_none.mpr passes] at here
    have reached : Reached sys path c :=
      ⟨fun floppy => stops (.inl floppy), earlier, later, listed, fun b member => exitAt_none.mp (passes b member)⟩
    cases query : sys.queryDosDevice [c, ':'] with
    | none => exact .inr (.inl ⟨c, reached, query⟩)
    | some device =>
      refine .inl ⟨c, device, reached, query, ?_⟩
      by_contra other
      exact stops (.inr ⟨device, query, other⟩)

/-! ### The file of a translated path -/

/-- Nothing follows, or the next component does. -/
def EndsComponent (rest : List Char) : Prop := rest = [] ∨ rest.head? = some '\\'
instance (rest : List Char) : Decidable (EndsComponent rest) := inferInstanceAs (Decidable (_ ∨ _))

/-- The path under a drive that names the same file as a device path. -/
def SameFile (sys : System) (path out : List Char) : Prop :=
  ∃ c device head rest, c ∈ sys.drives ∧ ¬ Floppy c ∧ sys.queryDosDevice [c, ':'] = some device ∧
    path = head ++ rest ∧ head.map Char.toLower = device.map Char.toLower ∧ out = [c, ':'] ++ rest ∧ EndsComponent rest

/-- A path that the function translates is translated to the same file, exactly
    when the name of the first drive that matches ends with a component. -/
theorem true_names_file_iff (sys : System) (path : List Char) :
    (∀ before out, dosPathToNtPath sys (some path) (some before) = (true, some out) → SameFile sys path out) ↔
      ∀ c device, FirstMatch sys path c device → EndsComponent (path.drop device.length) := by
  constructor
  · intro names c device first
    obtain ⟨_, _, _, rest, _, _, _, _, _, same, ends⟩ := names [] _ (dosPath_match first [])
    have tail : path.drop device.length = rest := by
      simp only [List.cons_append, List.nil_append, List.cons.injEq] at same
      exact same.2.2
    rw [tail]
    exact ends
  · intro ends before out run
    obtain ⟨c, device, first⟩ | ⟨c, reached, fails⟩ | passes := exit_cases sys path
    · rw [dosPath_match first] at run
      obtain rfl := Option.some.inj (congrArg Prod.snd run)
      obtain ⟨floppy, earlier, later, listed, _⟩ := first.reached
      exact ⟨c, device, path.take device.length, path.drop device.length, by simp [listed], floppy, first.answers,
        (List.take_append_drop _ _).symm, starts_iff_take.mp first.starts, rfl, ends c device first⟩
    · rw [dosPath_fails reached fails] at run
      cases run
    · rw [dosPath_exhausted passes] at run
      cases run

/-- A system with drives `C:` and `D:`, by the device names of the two. -/
def twoDrives (c d : Option (List Char)) : System where
  logicalDrives := some ['C', 'D']
  queryDosDevice szDrive := if szDrive = ['C', ':'] then c else if szDrive = ['D', ':'] then d else none
  alphabetic := by
    intro letters listed c member
    obtain rfl := Option.some.inj listed
    rcases List.mem_cons.mp member with rfl | second
    · rfl
    · rw [List.mem_singleton.mp second]
      rfl

/-- With volumes 1 and 10, a file on volume 10 is translated to a file `0\x`
    on volume 1. -/
theorem volume_ten_on_volume_one :
    dosPathToNtPath (twoDrives (some "\\Device\\HarddiskVolume1".toList) (some "\\Device\\HarddiskVolume10".toList))
        (some "\\Device\\HarddiskVolume10\\x".toList) (some []) = (true, some "C:0\\x".toList) ∧
      ¬ SameFile (twoDrives (some "\\Device\\HarddiskVolume1".toList) (some "\\Device\\HarddiskVolume10".toList))
        "\\Device\\HarddiskVolume10\\x".toList "C:0\\x".toList := by
  constructor
  · have first : FirstMatch (twoDrives (some "\\Device\\HarddiskVolume1".toList)
        (some "\\Device\\HarddiskVolume10".toList)) "\\Device\\HarddiskVolume10\\x".toList 'C'
        "\\Device\\HarddiskVolume1".toList :=
      ⟨⟨by decide, [], ['D'], rfl, by simp⟩, rfl, by decide⟩
    rw [dosPath_match first]
    decide
  · rintro ⟨c, device, head, rest, _, _, _, _, _, same, ends⟩
    have tail : rest = "0\\x".toList := (congrArg (List.drop 2) same).symm.trans (by decide)
    rw [tail] at ends
    revert ends
    decide

/-! ### Failing queries -/

/-- A device path that names a drive and a component after it is translated, and
    a path that no drive matches is copied, whatever the buffer held before. -/
structure Translates (sys : System) (path : List Char) : Prop where
  named : ∀ c ∈ sys.drives, ¬ Floppy c → ∀ device r, sys.queryDosDevice [c, ':'] = some device →
    path = device ++ '\\' :: r → ∀ before,
      dosPathToNtPath sys (some path) (some before) = (true, some ([c, ':', '\\'] ++ r))
  other : (∀ c ∈ sys.drives, ¬ Floppy c → ∀ device, sys.queryDosDevice [c, ':'] = some device →
      ¬ Starts Char.toLower device path) →
    ∀ before, dosPathToNtPath sys (some path) (some before) = (false, some path)

theorem translates_of_reached {sys : System} {path : List Char}
    (reached : ∀ c ∈ sys.drives, ¬ Floppy c → ∀ device r, sys.queryDosDevice [c, ':'] = some device →
      path = device ++ '\\' :: r → Reached sys path c)
    (answer : (∀ c ∈ sys.drives, ¬ Floppy c → ∀ device, sys.queryDosDevice [c, ':'] = some device →
        ¬ Starts Char.toLower device path) →
      ∀ c ∈ sys.drives, ¬ Floppy c → (sys.queryDosDevice [c, ':']).isSome) : Translates sys path := by
  constructor
  · intro c listed floppy device r answers isPath before
    have starts : Starts Char.toLower device path := isPath ▸ starts_append device _
    rw [dosPath_match ⟨reached c listed floppy device r answers isPath, answers, starts⟩, isPath, List.drop_left]
    rfl
  · intro noMatch before
    apply dosPath_exhausted
    intro c listed
    by_cases floppy : Floppy c
    · exact .inl floppy
    · obtain ⟨device, answers⟩ := Option.isSome_iff_exists.mp (answer noMatch c listed floppy)
      exact .inr ⟨device, answers, noMatch c listed floppy device answers⟩

/-- Where every drive answers and no name starts with another, up to letter
    case, every path is translated. -/
theorem translates_of_all_answer {sys : System}
    (answer : ∀ c ∈ sys.drives, ¬ Floppy c → (sys.queryDosDevice [c, ':']).isSome)
    (free : ∀ c ∈ sys.drives, ∀ d ∈ sys.drives, ∀ x y, sys.queryDosDevice [c, ':'] = some x →
      sys.queryDosDevice [d, ':'] = some y → Starts Char.toLower x y → c = d) (path : List Char) :
    Translates sys path := by
  refine translates_of_reached ?_ (fun _ => answer)
  intro c listed floppy device r answers isPath
  have starts : Starts Char.toLower device path := isPath ▸ starts_append device _
  obtain ⟨earlier, later, split, first⟩ := List.eq_append_cons_of_mem listed
  refine ⟨floppy, earlier, later, split, ?_⟩
  intro b member
  have listed' : b ∈ sys.drives := split ▸ List.mem_append_left _ member
  by_cases floppy' : Floppy b
  · exact .inl floppy'
  · obtain ⟨name, answers'⟩ := Option.isSome_iff_exists.mp (answer b listed' floppy')
    refine .inr ⟨name, answers', fun starts' => ?_⟩
    have same : b = c := by
      rcases Nat.le_total name.length device.length with shorter | longer
      · exact free b listed' c listed name device answers' answers (starts_of_starts starts' starts shorter)
      · exact (free c listed b listed' device name answers answers' (starts_of_starts starts starts' longer)).symm
    exact first (same ▸ member)

/-- The function translates a path exactly when the loop comes to the drive that
    the path names, and all drives answer where no drive matches. -/
theorem translates_iff (sys : System) (path : List Char) :
    Translates sys path ↔
      (∀ c ∈ sys.drives, ¬ Floppy c → ∀ device r, sys.queryDosDevice [c, ':'] = some device →
        path = device ++ '\\' :: r → Reached sys path c) ∧
      ((∀ c ∈ sys.drives, ¬ Floppy c → ∀ device, sys.queryDosDevice [c, ':'] = some device →
          ¬ Starts Char.toLower device path) →
        ∀ c ∈ sys.drives, ¬ Floppy c → (sys.queryDosDevice [c, ':']).isSome) := by
  constructor
  · intro translates
    constructor
    · intro c listed floppy device r answers isPath
      have run := translates.named c listed floppy device r answers isPath []
      obtain ⟨d, name, first⟩ | ⟨d, reached, fails⟩ | passes := exit_cases sys path
      · rw [dosPath_match first] at run
        have same : d = c := by
          simp only [List.cons_append, Prod.mk.injEq, Option.some.injEq, List.cons.injEq] at run
          exact run.2.1
        rw [← same]
        exact first.reached
      · rw [dosPath_fails reached fails] at run
        cases run
      · rw [dosPath_exhausted passes] at run
        cases run
    · intro noMatch c listed floppy
      have run := translates.other noMatch ('\\' :: path)
      obtain ⟨d, name, first⟩ | ⟨d, reached, fails⟩ | passes := exit_cases sys path
      · rw [dosPath_match first] at run
        cases run
      · rw [dosPath_fails reached fails] at run
        simp at run
      · rcases passes c listed with isFloppy | ⟨device, answers, _⟩
        · exact absurd isFloppy floppy
        · rw [answers]; rfl
  · rintro ⟨reached, answer⟩
    exact translates_of_reached reached answer

/-- No name of a drive is a prefix of the name of another. -/
def PrefixFree (sys : System) : Prop :=
  ∀ c ∈ sys.drives, ∀ d ∈ sys.drives, c ≠ d → ∀ x y, sys.queryDosDevice [c, ':'] = some x →
    sys.queryDosDevice [d, ':'] = some y → ¬ x <+: y

/-- A drive that does not answer hides the drive after it. -/
theorem failing_drive_hides :
    PrefixFree (twoDrives none (some "\\Device\\HarddiskVolume2".toList)) ∧
      ¬ Translates (twoDrives none (some "\\Device\\HarddiskVolume2".toList))
        "\\Device\\HarddiskVolume2\\x".toList := by
  have only : ∀ c ∈ (twoDrives none (some "\\Device\\HarddiskVolume2".toList)).drives, ∀ x,
      (twoDrives none (some "\\Device\\HarddiskVolume2".toList)).queryDosDevice [c, ':'] = some x → c = 'D' := by
    intro c listed x answers
    rcases List.mem_cons.mp listed with rfl | inside
    · cases answers
    · exact List.mem_singleton.mp inside
  constructor
  · intro c listed d listed' other x y answers answers'
    exact absurd ((only c listed x answers).trans (only d listed' y answers').symm) other
  · intro translates
    have run := translates.named 'D' (by decide) (by decide) "\\Device\\HarddiskVolume2".toList "x".toList rfl
      (by decide) []
    rw [dosPath_fails ⟨by decide, [], ['D'], rfl, by simp⟩ rfl] at run
    cases run

end WinMiniTools.DosPaths
