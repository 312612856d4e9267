import WinMiniTools.Cursors

/-!
Looking up the name of a process by its identifier (`GetProcessName` in
`DbgLogWrite.hpp`). The entries of a process snapshot are fetched one by one.
The loop asks for the next entry before it looks at one, so the entry that
`Process32First` delivers is never looked at: a name is found for every
identifier but the first of the snapshot (`looks_up_iff`).
-/
namespace WinMiniTools.ProcessNames
open WinMiniTools.Cursors WinMiniTools.Loops

/-- What is used of a `PROCESSENTRY32`. -/
structure ProcessEntry32 where
  th32ProcessID : BitVec 32
  szExeFile : List Char
  deriving DecidableEq

/-- A snapshot has at least one process, and no identifier twice. -/
structure Snapshot where
  first : ProcessEntry32
  later : List ProcessEntry32
  distinct : ((first :: later).map ProcessEntry32.th32ProcessID).Nodup

def Snapshot.entries (snapshot : Snapshot) : List ProcessEntry32 := snapshot.first :: snapshot.later

/-- The test in the loop: the string that is copied, if any, is the result. -/
def examine (dwProcessID : BitVec 32) (pe32 : ProcessEntry32) : List Empty × Option (Bool × List Char) :=
  ([], if dwProcessID = pe32.th32ProcessID then some (true, pe32.szExeFile) else none)

/-- `GetProcessName`: what it returns, and the string that `lpProcess` points to
    then. No entries are a snapshot that cannot be made. -/
def getProcessName (entries : Option (List ProcessEntry32)) (lpProcess : List Char) (dwProcessID : BitVec 32) :
    Bool × List Char :=
  match entries with
  | none => (false, lpProcess)
  | some entries =>
    match first entries with
    | none => (false, lpProcess)
    | some (_, left) => (scan (examine dwProcessID) (false, lpProcess)).result (next left)

/-- The identifier is looked up: its entry is found if the snapshot has one, and
    nothing is written otherwise. -/
structure LooksUp (snapshot : Snapshot) (dwProcessID : BitVec 32) : Prop where
  found : ∀ e ∈ snapshot.entries, e.th32ProcessID = dwProcessID →
    ∀ lpProcess, getProcessName (some snapshot.entries) lpProcess dwProcessID = (true, e.szExeFile)
  missing : (∀ e ∈ snapshot.entries, e.th32ProcessID ≠ dwProcessID) →
    ∀ lpProcess, getProcessName (some snapshot.entries) lpProcess dwProcessID = (false, lpProcess)

/-- The search goes over the entries behind the first. -/
theorem getProcessName_eq (snapshot : Snapshot) (lpProcess : List Char) (dwProcessID : BitVec 32) :
    getProcessName (some snapshot.entries) lpProcess dwProcessID =
      (snapshot.later.findSome? (fun e => (examine dwProcessID e).2)).getD (false, lpProcess) :=
  scan_result (examine dwProcessID) (false, lpProcess) snapshot.later

theorem name_missing {snapshot : Snapshot} {dwProcessID : BitVec 32}
    (missing : ∀ e ∈ snapshot.later, e.th32ProcessID ≠ dwProcessID) (lpProcess : List Char) :
    getProcessName (some snapshot.entries) lpProcess dwProcessID = (false, lpProcess) := by
  have none : snapshot.later.findSome? (fun e => (examine dwProcessID e).2) = none := by
    rw [List.findSome?_eq_none_iff]
    intro e member
    exact if_neg (missing e member).symm
  rw [getProcessName_eq, none]
  rfl

theorem name_found {snapshot : Snapshot} {e : ProcessEntry32} (member : e ∈ snapshot.later) (lpProcess : List Char) :
    getProcessName (some snapshot.entries) lpProcess e.th32ProcessID = (true, e.szExeFile) := by
  obtain ⟨earlier, behind, split⟩ := List.append_of_mem member
  have found : snapshot.later.findSome? (fun d => (examine e.th32ProcessID d).2) = some (true, e.szExeFile) := by
    refine List.findSome?_eq_some_iff.mpr ⟨earlier, e, behind, split, if_pos rfl, ?_⟩
    intro d before
    have apart : d.th32ProcessID ≠ e.th32ProcessID := by
      have distinct := (List.nodup_cons.mp snapshot.distinct).2
      rw [split, List.map_append, List.nodup_append] at distinct
      exact distinct.2.2 _ (List.mem_map_of_mem before) _ (List.mem_map_of_mem List.mem_cons_self)
    exact if_neg apart.symm
  rw [getProcessName_eq, found]
  rfl

/-- Every identifier is looked up but the one of the first entry. -/
theorem looks_up_iff (snapshot : Snapshot) (dwProcessID : BitVec 32) :
    LooksUp snapshot dwProcessID ↔ dwProcessID ≠ snapshot.first.th32ProcessID := by
  have behind := (List.nodup_cons.mp snapshot.distinct).1
  constructor
  · rintro looksUp rfl
    have skipped : ∀ e ∈ snapshot.later, e.th32ProcessID ≠ snapshot.first.th32ProcessID :=
      fun e member same => behind (same ▸ List.mem_map_of_mem member)
    have found := looksUp.found snapshot.first List.mem_cons_self rfl []
    rw [name_missing skipped] at found
    cases found
  · intro other
    constructor
    · rintro e member rfl lpProcess
      rcases List.mem_cons.mp member with rfl | member
      · exact absurd rfl other
      · exact name_found member lpProcess
    · intro missing
      exact name_missing (fun e member => missing e (List.mem_cons_of_mem _ member))

/-- The first two processes of the system. -/
def idleAndSystem : Snapshot where
  first := ⟨0, "[System Process]".toList⟩
  later := [⟨4, "System".toList⟩]
  distinct := by decide

/-- The process with identifier 0 is in the snapshot, and is not found. -/
theorem idle_not_found : ¬ LooksUp idleAndSystem 0 := by
  intro looksUp
  have found := looksUp.found idleAndSystem.first List.mem_cons_self rfl []
  revert found
  decide

end WinMiniTools.ProcessNames
