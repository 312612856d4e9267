import WinMiniTools.Cursors
import WinMiniTools.DosPaths

/-!
Listing the original file names of all processes (`GetOriginalFileName`). For
each process of a snapshot the program asks for the path of its image and opens
the version resource of that file, whether or not it got a path. `Open` asserts
that the path is not empty, and this fails for the first process that cannot be
opened, or has no image, or stands behind a drive that does not answer
(`never_empty_iff`).
-/
namespace WinMiniTools.OriginalNames
open WinMiniTools.Cursors WinMiniTools.Loops WinMiniTools.DosPaths

/-! ### Version resources -/

/-- The version functions of the system: the size of a file's resource, whether
    it is loaded, and the two values that are queried from it. -/
structure VersionInfo where
  fileVersionInfoSize : List Char → Nat
  fileVersionInfo : List Char → Bool
  translation : List Char → Option (BitVec 32)
  originalFilename : List Char → BitVec 32 → Option (List Char)

/-- The object, with the file whose version data it holds. -/
structure CFileVersion where
  m_lpVersionData : Option (List Char)
  m_dwLangCharset : BitVec 32

def cFileVersion : CFileVersion where
  m_lpVersionData := none
  m_dwLangCharset := 0

/-- The assertions of `Open`, and that of `QueryValue`. -/
inductive Assertion where
  | moduleName
  | notOpen
  | isOpen
  deriving DecidableEq

/-- `Open`: the object, and what is returned. -/
def openVersion (v : VersionInfo) (cfv : CFileVersion) (lpszModuleName : List Char) :
    Except Assertion (CFileVersion × Bool) :=
  if ¬ 0 < lpszModuleName.length then .error .moduleName
  else if cfv.m_lpVersionData ≠ none then .error .notOpen
  else if v.fileVersionInfoSize lpszModuleName = 0 then .ok (cfv, false)
  else if v.fileVersionInfo lpszModuleName = false then .ok (cFileVersion, false)
  else
    match v.translation lpszModuleName with
    | none => .ok (cFileVersion, false)
    | some pTransTable =>
      -- `MAKELONG(HIWORD, LOWORD)`: the halves change places.
      .ok ({ m_lpVersionData := some lpszModuleName
             m_dwLangCharset := pTransTable.extractLsb' 0 16 ++ pTransTable.extractLsb' 16 16 }, true)

/-- `GetOriginalFilename`. -/
def getOriginalFilename (v : VersionInfo) (cfv : CFileVersion) : Except Assertion (List Char) :=
  match cfv.m_lpVersionData with
  | none => .error .isOpen
  | some file => .ok ((v.originalFilename file cfv.m_dwLangCharset).getD [])

/-! ### The processes -/

/-- A process of the snapshot, and what the system answers about it: whether it
    can be opened, its image, the drives at that time, and version resources. -/
structure Process where
  th32ProcessID : BitVec 32
  openProcess : Bool
  processImageFileName : Option { szImagePath : List Char // szImagePath ≠ [] }
  sys : System
  version : VersionInfo

/-- `GetProcessFullPath`, with the string that `pszFullPath` points to then. -/
def getProcessFullPath (p : Process) (pszFullPath : Option (List Char)) : Bool × Option (List Char) :=
  match pszFullPath with
  | none => (false, none)
  | some _ =>
    let emptied := some []
    if p.openProcess = false then (false, emptied)
    else
      match p.processImageFileName with
      | none => (false, emptied)
      | some szImagePath => dosPathToNtPath p.sys (some szImagePath.val) emptied

/-- The two lines that are printed of a process. -/
inductive Line where
  | error (processID : BitVec 32)
  | original (processID : BitVec 32) (originalFilename : List Char)
  deriving DecidableEq

inductive Ending where
  | returns
  | assertFails (assertion : Assertion)
  deriving DecidableEq

/-- `szProcessName` after the call of `GetProcessFullPath`, whatever it returns. -/
def szProcessName (p : Process) : List Char := ((getProcessFullPath p (some [])).2).getD []

/-- The body of the loop. -/
def visit (p : Process) : List Line × Option Ending :=
  match openVersion p.version cFileVersion (szProcessName p) with
  | .error assertion => ([], some (.assertFails assertion))
  | .ok (_, false) => ([.error p.th32ProcessID], none)
  | .ok (cfv, true) =>
    match getOriginalFilename p.version cfv with
    | .error assertion => ([], some (.assertFails assertion))
    | .ok text => ([.original p.th32ProcessID text], none)

/-- `main`: the lines printed, and how it ends. No processes are a snapshot that
    cannot be made. -/
def main (snapshot : Option (List Process)) : List Line × Ending :=
  match snapshot with
  | none => ([], .returns)
  | some processes =>
    ((scan visit .returns).events (first processes), (scan visit .returns).result (first processes))

/-! ### The paths -/

/-- The process is opened, it has an image, and every drive that the search for
    the image comes to answers. -/
def Named (p : Process) : Prop :=
  p.openProcess = true ∧ ∃ szImagePath, p.processImageFileName = some szImagePath ∧
    ∀ c, Reached p.sys szImagePath.val c → (p.sys.queryDosDevice [c, ':']).isSome

/-- A path is left in the buffer unless a query fails. -/
theorem dosPath_empty_iff (sys : System) {path : List Char} (nonempty : path ≠ []) :
    (dosPathToNtPath sys (some path) (some [])).2.getD [] = [] ↔
      ∃ c, Reached sys path c ∧ sys.queryDosDevice [c, ':'] = none := by
  constructor
  · intro empty
    obtain ⟨c, device, first⟩ | failing | passes := exit_cases sys path
    · rw [dosPath_match first] at empty
      cases empty
    · exact failing
    · rw [dosPath_exhausted passes] at empty
      exact absurd empty nonempty
  · rintro ⟨c, reached, fails⟩
    rw [dosPath_fails reached fails]
    rfl

theorem szProcessName_empty_iff (p : Process) : szProcessName p = [] ↔ ¬ Named p := by
  unfold szProcessName getProcessFullPath Named
  by_cases opened : p.openProcess = true
  · cases image : p.processImageFileName with
    | none => simp [opened]
    | some szImagePath =>
      simp only [opened, Bool.true_eq_false, ↓reduceIte, dosPath_empty_iff p.sys szImagePath.property,
        Option.some.injEq, exists_eq_left', true_and, not_forall, Option.not_isSome_iff_eq_none, exists_prop]
  · simp [opened]

/-- A process ends the loop by the assertion on its path, or not at all. -/
theorem visit_ends (p : Process) :
    (visit p).2 = if szProcessName p = [] then some (.assertFails .moduleName) else none := by
  by_cases empty : szProcessName p = []
  · simp [visit, openVersion, empty]
  · have long : 0 < (szProcessName p).length := List.length_pos_iff.mpr empty
    simp only [visit, openVersion, long, not_true_eq_false, ↓reduceIte, cFileVersion, ne_eq, empty]
    by_cases none : p.version.fileVersionInfoSize (szProcessName p) = 0
    · simp [none]
    · by_cases unloaded : p.version.fileVersionInfo (szProcessName p) = false
      · simp [none, unloaded]
      · cases queried : p.version.translation (szProcessName p) with
        | none => simp [none, unloaded]
        | some pTransTable => simp [none, unloaded, getOriginalFilename]

theorem visit_goes_iff (p : Process) : (visit p).2 = none ↔ Named p := by
  rw [visit_ends, ← not_not (a := Named p), ← szProcessName_empty_iff]
  by_cases empty : szProcessName p = [] <;> simp [empty]

/-- `Open` is never called with an empty path exactly when every process of the
    snapshot has a path. -/
theorem never_empty_iff (snapshot : Option (List Process)) :
    (main snapshot).2 ≠ .assertFails .moduleName ↔ ∀ p ∈ snapshot.getD [], Named p := by
  cases snapshot with
  | none => simp [main]
  | some processes =>
    have only : ∀ p ∈ processes, ∀ ending, (visit p).2 = some ending → ending = .assertFails .moduleName := by
      intro p _ ending ends
      rw [visit_ends] at ends
      split at ends
      · exact (Option.some.inj ends).symm
      · cases ends
    have never := scan_result_ne visit .returns (by decide) only
    simp only [visit_goes_iff] at never
    exact never

/-- A process that cannot be opened, such as the one with identifier 0. -/
def protectedProcess : Process where
  th32ProcessID := 0
  openProcess := false
  processImageFileName := none
  sys := twoDrives none none
  version :=
    { fileVersionInfoSize := fun _ => 0
      fileVersionInfo := fun _ => false
      translation := fun _ => none
      originalFilename := fun _ _ => none }

/-- The first process of the snapshot ends the program. -/
theorem protected_process_aborts :
    ¬ (main (some [protectedProcess])).2 ≠ .assertFails .moduleName := by
  decide

def Line.processID : Line → BitVec 32
  | .error processID => processID
  | .original processID _ => processID

theorem visit_line {p : Process} (named : Named p) : (visit p).1.map Line.processID = [p.th32ProcessID] := by
  have goes := (visit_goes_iff p).mpr named
  unfold visit at goes ⊢
  cases opened : openVersion p.version cFileVersion (szProcessName p) with
  | error assertion => simp [opened] at goes
  | ok returned =>
    obtain ⟨cfv, succeeds⟩ := returned
    cases succeeds with
    | false => rfl
    | true =>
      cases queried : getOriginalFilename p.version cfv with
      | error assertion => simp [opened, queried] at goes
      | ok text =>
        simp only [queried]
        rfl

/-- Where every process has a path, the program prints a line of each, in order. -/
theorem main_lines {processes : List Process} (named : ∀ p ∈ processes, Named p) :
    (main (some processes)).1.map Line.processID = processes.map Process.th32ProcessID := by
  have visited : (main (some processes)).1 = processes.flatMap (fun p => (visit p).1) :=
    scan_events visit .returns (fun p member => (visit_goes_iff p).mpr (named p member))
  rw [visited, List.map_flatMap, ← List.flatMap_pure_eq_map]
  exact List.flatMap_congr (fun p member => visit_line (named p member))

end WinMiniTools.OriginalNames
