import WinMiniTools.PathComponents
import WinMiniTools.PrintHooks

/-!
The processes that the DLL leaves alone. `IsNeedToHook` looks the file name of
the process up in a set of three names, and file names of the system do not
tell letter cases apart, while the set does. A process of one of these names is
never hooked, whatever callbacks come, exactly when its path spells the name as
the set does, in the part of the path that the buffer holds (`left_alone_iff`).
-/
namespace WinMiniTools.ExemptNames
open WinMiniTools.Machines WinMiniTools.PathComponents WinMiniTools.PrintHooks

/-- What `DllInit` inserts into `hashSetUnhookProc`. -/
def unhooked : List (List Char) := ["DebugView++.exe".toList, "explorer.exe".toList, "mhook_demo.exe".toList]

/-- The last component of the path is one of the names, in any letter case. -/
def Spared (upcase : Char → Char) (path : List Char) : Prop :=
  ∃ name ∈ unhooked, (component path).map upcase = name.map upcase

/-- A callback of the system, and what `Mhook_SetHook` would do then. -/
inductive Event where
  | dllMain (ul_reason_for_call : Reason) (outcomes : Outcomes)
  | cbtProc (nCode : Int) (outcomes : Outcomes)

def events (host : Host) : Machine Process Event where
  step
    | p, .dllMain ul_reason_for_call outcomes => some (dllMain host p ul_reason_for_call outcomes).1
    | p, .cbtProc nCode outcomes => some (gefApiCBTProc p nCode outcomes)

/-- Whatever happens after `DllInit`, the process needs no hook and no hook is set. -/
def NeverHooks (host : Host) : Prop :=
  ∀ happened p, (events host).run (dllInit host mapped).1 happened = some p → isNeedToHook p = false ∧ p.calls = []

/-- If the process has one of the names, it is never hooked. -/
def LeftAlone (upcase : Char → Char) (host : Host) : Prop := Spared upcase host.moduleFileName → NeverHooks host

/-- The set and the name are those of `DllInit`, and no hook has been set. -/
structure Settled (host : Host) (p : Process) : Prop where
  szApp : p.szApp = (host.pathFindFileName (host.moduleFileName.take 259)).take 259
  names : ∀ name, name ∈ p.hashSetUnhookProc ↔ name ∈ unhooked
  calls : p.calls = []

theorem settled_init (host : Host) {p : Process} (names : ∀ name ∈ p.hashSetUnhookProc, name ∈ unhooked)
    (calls : p.calls = []) : Settled host (dllInit host p).1 := by
  refine ⟨rfl, ?_, calls⟩
  intro name
  show name ∈ p.hashSetUnhookProc ++ unhooked ↔ _
  rw [List.mem_append]
  exact or_iff_right_of_imp (names name)

theorem settled_needs {host : Host} (exempt : Exempt host) {p : Process} (settled : Settled host p) :
    isNeedToHook p = false := by
  have found : p.szApp ∈ p.hashSetUnhookProc := by
    rw [settled.names, settled.szApp]
    exact exempt
  simp [isNeedToHook, found]

/-- `HookApi` returns before its calls, and the assignment sets the flag at most. -/
theorem settled_assign {host : Host} (exempt : Exempt host) {p : Process} (settled : Settled host p)
    (outcomes : Outcomes) : Settled host (assignHooked p outcomes) := by
  unfold assignHooked
  by_cases hooked : p.bHooked
  · rw [if_pos hooked]
    exact settled
  · have returns : hookApi p outcomes = (p, false) := by
      rw [hookApi, if_neg hooked, if_pos (settled_needs exempt settled)]
    rw [if_neg hooked, returns]
    exact ⟨settled.szApp, settled.names, settled.calls⟩

theorem settled_step {host : Host} (exempt : Exempt host) {p q : Process} {event : Event}
    (settled : Settled host p) (step : (events host).step p event = some q) : Settled host q := by
  cases event with
  | dllMain reason outcomes =>
    cases step
    cases reason with
    | processAttach =>
      have again : Settled host (dllInit host p).1 :=
        settled_init host (fun name member => (settled.names name).mp member) settled.calls
      show Settled host (dllMain host p .processAttach outcomes).1
      rw [dllMain, dllInit_returns, if_neg Bool.true_eq_false.mp]
      exact settled_assign exempt again outcomes
    | threadAttach => exact settled
    | threadDetach => exact settled
    | processDetach => exact ⟨settled.szApp, settled.names, settled.calls⟩
  | cbtProc nCode outcomes =>
    cases step
    show Settled host (gefApiCBTProc p nCode outcomes)
    unfold gefApiCBTProc
    by_cases other : nCode ≠ HCBT_CREATEWND ∧ nCode ≠ HCBT_ACTIVATE
    · rw [if_pos other]
      exact settled
    · rw [if_neg other]
      exact settled_assign exempt settled outcomes

theorem never_hooks_iff_exempt (host : Host) : NeverHooks host ↔ Exempt host := by
  constructor
  · intro never
    have first := (never [] _ rfl).1
    rw [needed_iff] at first
    simpa using first
  · intro exempt happened p ran
    have settled : Settled host p :=
      (events host).run_invariant (fun _ _ _ => settled_step exempt) (settled_init host (by simp [mapped]) rfl) ran
    exact ⟨settled_needs exempt settled, settled.calls⟩

theorem unhooked_plain : ∀ name ∈ unhooked, name ≠ [] ∧ ∀ c ∈ name, ¬ Separator c := by
  have checked : unhooked.all (fun name => name ≠ [] && name.all (fun c => ¬ Separator c)) = true := by decide +kernel
  intro name member
  obtain ⟨some, plain⟩ := Bool.and_eq_true_iff.mp (List.all_eq_true.mp checked name member)
  refine ⟨of_decide_eq_true some, ?_⟩
  intro c inside
  exact of_decide_eq_true (List.all_eq_true.mp plain c inside)

/-- The name in the buffers is one of the set exactly when the last component of
    what the first buffer holds is. -/
theorem exempt_iff {host : Host} (documented : ∀ path, host.pathFindFileName path = fileName path) :
    Exempt host ↔ component (host.moduleFileName.take 259) ∈ unhooked := by
  have short : (fileName (host.moduleFileName.take 259)).length ≤ 259 :=
    le_trans (fileName_length_le _) (List.length_take_le _ _)
  have exempt : Exempt host ↔ fileName (host.moduleFileName.take 259) ∈ unhooked := by
    rw [Exempt, documented, List.take_of_length_le short]
    rfl
  rw [exempt]
  constructor
  · intro named
    obtain ⟨some, plain⟩ := unhooked_plain _ named
    rwa [(fileName_eq_iff plain some).mp rfl]
  · intro named
    obtain ⟨some, plain⟩ := unhooked_plain _ named
    rwa [(fileName_eq_iff plain some).mpr rfl]

/-- A process that has one of the names, in whatever letter case, is left alone
    exactly when its path spells one, where the buffer ends at the latest. -/
theorem left_alone_iff (upcase : Char → Char) {host : Host}
    (documented : ∀ path, host.pathFindFileName path = fileName path) :
    LeftAlone upcase host ↔
      (Spared upcase host.moduleFileName → component (host.moduleFileName.take 259) ∈ unhooked) := by
  rw [LeftAlone, never_hooks_iff_exempt, exempt_iff documented]

/-- A process started from the given path. -/
def started (path : List Char) : Host where
  moduleFileName := path
  pathFindFileName := fileName

theorem left_alone_explorer :
    (∀ path, (started "C:\\Windows\\explorer.exe".toList).pathFindFileName path = fileName path) ∧
      LeftAlone Char.toUpper (started "C:\\Windows\\explorer.exe".toList) :=
  ⟨fun _ => rfl, (left_alone_iff Char.toUpper (fun _ => rfl)).mpr (fun _ => by decide)⟩

/-- The shell, started as `EXPLORER.EXE`, is hooked. -/
theorem upper_case_explorer_hooked : ¬ LeftAlone Char.toUpper (started "C:\\Windows\\EXPLORER.EXE".toList) := by
  intro alone
  have never := alone ⟨"explorer.exe".toList, by decide, by decide⟩
  have attach := (never [.dllMain .processAttach ⟨true, true⟩] _ rfl).2
  revert attach
  decide

end WinMiniTools.ExemptNames
