import WinMiniTools.Trampolines
import WinMiniTools.Machines

/-!
The DLL that keeps a process from printing (`mhook_demo_dll`). It hooks
`StartDocA` and `StartDocW` when it is attached, and again from its CBT procedure
as long as `bHooked` is false. `HookApi` returns true whatever `Mhook_SetHook`
returns, so `bHooked` tells that both hooks are installed only if both calls at
the attach succeed (`hooked_truthful_iff`).
-/
namespace WinMiniTools.PrintHooks
open WinMiniTools.Trampolines WinMiniTools.Machines

def HCBT_CREATEWND : Int := 3
def HCBT_ACTIVATE : Int := 5

inductive Fn where
  | StartDocA
  | StartDocW
  | GefStartDocA
  | GefStartDocW
  deriving DecidableEq

/-- What the DLL asks about the process: the path of its module, and the part of
    a path that `PathFindFileName` points to. -/
structure Host where
  moduleFileName : List Char
  pathFindFileName : List Char → List Char

/-- Whether `Mhook_SetHook` succeeds for either function, if it is called. -/
structure Outcomes where
  startDocA : Bool
  startDocW : Bool

/-- The variables of the DLL, the code of the process, and the calls of
    `Mhook_SetHook` so far, each with the pointer passed and the hook. -/
structure Process where
  bHooked : Bool
  szAppFullPath : List Char
  szApp : List Char
  hashSetUnhookProc : List (List Char)
  g_pfnStartDocA : Address Fn
  g_pfnStartDocW : Address Fn
  space : Space Fn
  calls : List (Address Fn × Fn)

/-- A process that has just mapped the DLL. -/
def mapped : Process where
  bHooked := false
  szAppFullPath := []
  szApp := []
  hashSetUnhookProc := []
  g_pfnStartDocA := .function .StartDocA
  g_pfnStartDocW := .function .StartDocW
  space := { entry := fun _ => .own, trampolines := [] }
  calls := []

/-- Both buffers hold `MAX_PATH` characters, the terminator included. -/
def dllInit (host : Host) (p : Process) : Process × Bool :=
  let szAppFullPath := host.moduleFileName.take 259
  ({ p with
      szAppFullPath := szAppFullPath
      szApp := (host.pathFindFileName szAppFullPath).take 259
      hashSetUnhookProc := p.hashSetUnhookProc ++
        ["DebugView++.exe".toList, "explorer.exe".toList, "mhook_demo.exe".toList] }, true)

def isNeedToHook (p : Process) : Bool := p.szApp ∉ p.hashSetUnhookProc

/-- `Mhook_SetHook`, which leaves everything as it is when it fails. -/
def mhook_SetHook (space : Space Fn) (pointer : Address Fn) (h : Fn) (succeeds : Bool) : Space Fn × Address Fn :=
  if succeeds then hook space pointer h else (space, pointer)

/-- The two calls of `HookApi`. -/
def hookStartDocA (p : Process) (succeeds : Bool) : Process :=
  let set := mhook_SetHook p.space p.g_pfnStartDocA .GefStartDocA succeeds
  { p with space := set.1, g_pfnStartDocA := set.2, calls := p.calls ++ [(p.g_pfnStartDocA, .GefStartDocA)] }
def hookStartDocW (p : Process) (succeeds : Bool) : Process :=
  let set := mhook_SetHook p.space p.g_pfnStartDocW .GefStartDocW succeeds
  { p with space := set.1, g_pfnStartDocW := set.2, calls := p.calls ++ [(p.g_pfnStartDocW, .GefStartDocW)] }

def hookApi (p : Process) (outcomes : Outcomes) : Process × Bool :=
  if p.bHooked then (p, true)
  else if isNeedToHook p = false then (p, false)
  else (hookStartDocW (hookStartDocA p outcomes.startDocA) outcomes.startDocW, true)

def unHookApi (p : Process) : Process :=
  let unhookA := unhook p.space p.g_pfnStartDocA
  let unhookW := unhook unhookA.1 p.g_pfnStartDocW
  { p with space := unhookW.1, g_pfnStartDocA := unhookA.2, g_pfnStartDocW := unhookW.2 }

/-- `bHooked = bHooked ? bHooked : HookApi()`. -/
def assignHooked (p : Process) (outcomes : Outcomes) : Process :=
  if p.bHooked then p
  else
    let called := hookApi p outcomes
    { called.1 with bHooked := called.2 }

inductive Reason where
  | processAttach
  | threadAttach
  | threadDetach
  | processDetach
  deriving DecidableEq

/-- `DllMain`: the process after it, and what it returns. -/
def dllMain (host : Host) (p : Process) (ul_reason_for_call : Reason) (outcomes : Outcomes) : Process × Bool :=
  match ul_reason_for_call with
  | .processAttach =>
    let init := dllInit host p
    if init.2 = false then (init.1, false) else (assignHooked init.1 outcomes, true)
  | .threadAttach => (p, true)
  | .threadDetach => (p, true)
  | .processDetach => (unHookApi p, true)

/-- `GefApiCBTProc`, up to the hooks after it. -/
def gefApiCBTProc (p : Process) (nCode : Int) (outcomes : Outcomes) : Process :=
  if nCode ≠ HCBT_CREATEWND ∧ nCode ≠ HCBT_ACTIVATE then p else assignHooked p outcomes

/-! ### The state after the attach -/

/-- The process after `DLL_PROCESS_ATTACH`. -/
def attached (host : Host) (outcomes : Outcomes) : Process := (dllMain host mapped .processAttach outcomes).1

/-- The process is one of those that are left alone. -/
def Exempt (host : Host) : Prop :=
  (host.pathFindFileName (host.moduleFileName.take 259)).take 259 ∈
    ["DebugView++.exe".toList, "explorer.exe".toList, "mhook_demo.exe".toList]
instance (host : Host) : Decidable (Exempt host) := inferInstanceAs (Decidable (_ ∈ _))

def StartDocAInstalled (p : Process) : Prop := Installed p.space .StartDocA .GefStartDocA .own p.g_pfnStartDocA
def StartDocWInstalled (p : Process) : Prop := Installed p.space .StartDocW .GefStartDocW .own p.g_pfnStartDocW

/-- Both functions are hooked by the DLL, or as it found them, and it has touched
    no other code. -/
structure Kept (p : Process) : Prop where
  startDocA : Tracked p.space .StartDocA .GefStartDocA .own p.g_pfnStartDocA
  startDocW : Tracked p.space .StartDocW .GefStartDocW .own p.g_pfnStartDocW
  others : ∀ a, a ≠ .function .StartDocA → a ≠ .function .StartDocW → p.space.entry a = .own

@[simp] theorem dllInit_returns (host : Host) (p : Process) : (dllInit host p).2 = true := rfl
@[simp] theorem dllInit_bHooked (host : Host) (p : Process) : (dllInit host p).1.bHooked = p.bHooked := rfl
theorem needed_iff (host : Host) : isNeedToHook (dllInit host mapped).1 = decide (¬ Exempt host) := rfl

theorem attached_exempt {host : Host} (exempt : Exempt host) (outcomes : Outcomes) :
    attached host outcomes = (dllInit host mapped).1 := by
  have notYet : mapped.bHooked = false := rfl
  have called : hookApi (dllInit host mapped).1 outcomes = ((dllInit host mapped).1, false) := by
    simp [hookApi, notYet, needed_iff, exempt]
  simp only [attached, dllMain, assignHooked, called, dllInit_returns, dllInit_bHooked, notYet, Bool.true_eq_false,
    Bool.false_eq_true, ↓reduceIte]
  rfl

theorem attached_needed {host : Host} (needed : ¬ Exempt host) (outcomes : Outcomes) :
    attached host outcomes =
      { hookStartDocW (hookStartDocA (dllInit host mapped).1 outcomes.startDocA) outcomes.startDocW with
        bHooked := true } := by
  have notYet : mapped.bHooked = false := rfl
  have called : hookApi (dllInit host mapped).1 outcomes =
      (hookStartDocW (hookStartDocA (dllInit host mapped).1 outcomes.startDocA) outcomes.startDocW, true) := by
    simp [hookApi, notYet, needed_iff, needed]
  simp only [attached, dllMain, assignHooked, called, dllInit_returns, dllInit_bHooked, notYet, Bool.true_eq_false,
    Bool.false_eq_true, ↓reduceIte]

/-! ### The two calls -/

theorem set_entry (space : Space Fn) {pointer a : Address Fn} (other : a ≠ pointer) (h : Fn) (succeeds : Bool) :
    (mhook_SetHook space pointer h succeeds).1.entry a = space.entry a := by
  cases succeeds with
  | false => rfl
  | true => exact hook_entry space other h

/-- A hook set on a function that the DLL has not touched. -/
theorem set_tracked {space : Space Fn} {f : Fn} (own : space.entry (.function f) = .own) (h : Fn) (succeeds : Bool) :
    Tracked (mhook_SetHook space (.function f) h succeeds).1 f h .own
      (mhook_SetHook space (.function f) h succeeds).2 := by
  cases succeeds with
  | false => exact .inr ⟨own, rfl⟩
  | true => exact .inl (own ▸ installed_of_hook space f h)

theorem set_keeps {space : Space Fn} {f h : Fn} {pointer : Address Fn} (tracked : Tracked space f h .own pointer)
    {target : Address Fn} (other : .function f ≠ target) (k : Fn) (succeeds : Bool) :
    Tracked (mhook_SetHook space target k succeeds).1 f h .own pointer := by
  cases succeeds with
  | false => exact tracked
  | true => exact tracked_hook tracked other k

theorem installed_iff {space : Space Fn} {f h : Fn} {pointer : Address Fn} (tracked : Tracked space f h .own pointer) :
    Installed space f h .own pointer ↔ space.entry (.function f) = .jump h := by
  constructor
  · exact fun installed => installed.entry
  · intro jumps
    rcases tracked with installed | ⟨own, _⟩
    · exact installed
    · rw [own] at jumps
      cases jumps

theorem set_jumps_iff {space : Space Fn} {f : Fn} (own : space.entry (.function f) = .own) (h : Fn) (succeeds : Bool) :
    (mhook_SetHook space (.function f) h succeeds).1.entry (.function f) = .jump h ↔ succeeds = true := by
  cases succeeds <;> simp [mhook_SetHook, hook, own]

/-- What the attach leaves in a process that is hooked. -/
structure Hooked (outcomes : Outcomes) (p : Process) : Prop where
  flag : p.bHooked = true
  calls : p.calls = [(.function .StartDocA, .GefStartDocA), (.function .StartDocW, .GefStartDocW)]
  kept : Kept p
  startDocA : StartDocAInstalled p ↔ outcomes.startDocA = true
  startDocW : StartDocWInstalled p ↔ outcomes.startDocW = true

theorem hooked_attached {host : Host} (needed : ¬ Exempt host) (outcomes : Outcomes) :
    Hooked outcomes (attached host outcomes) := by
  rw [attached_needed needed]
  -- The space after the first call.
  let first := (mhook_SetHook mapped.space (.function .StartDocA) .GefStartDocA outcomes.startDocA).1
  have untouched : first.entry (.function .StartDocW) = .own := set_entry mapped.space (by decide) _ _
  have own : mapped.space.entry (.function .StartDocA) = .own := rfl
  have apart : Address.function Fn.StartDocA ≠ .function .StartDocW := by decide
  have trackedA := set_keeps (set_tracked own .GefStartDocA outcomes.startDocA) apart .GefStartDocW outcomes.startDocW
  have trackedW := set_tracked untouched .GefStartDocW outcomes.startDocW
  refine ⟨rfl, rfl, ⟨trackedA, trackedW, ?_⟩, ?_, ?_⟩
  · intro a notA notW
    exact (set_entry first notW _ _).trans (set_entry mapped.space notA _ _)
  · refine (installed_iff trackedA).trans ?_
    rw [set_entry first apart]
    exact set_jumps_iff own .GefStartDocA outcomes.startDocA
  · exact (installed_iff trackedW).trans (set_jumps_iff untouched .GefStartDocW outcomes.startDocW)

/-- Detaching returns both pointers, and the code of the process. -/
theorem unHookApi_kept {p : Process} (kept : Kept p) :
    (unHookApi p).g_pfnStartDocA = .function .StartDocA ∧ (unHookApi p).g_pfnStartDocW = .function .StartDocW ∧
      (unHookApi p).space.entry = fun _ => .own := by
  have startDocW := tracked_unhook kept.startDocW kept.startDocA (by decide)
  obtain ⟨pointerA, entryA⟩ := unhook_tracked kept.startDocA
  obtain ⟨pointerW, entryW⟩ := unhook_tracked startDocW
  refine ⟨pointerA, pointerW, ?_⟩
  funext a
  rw [unHookApi, entryW, entryA]
  by_cases isW : a = .function .StartDocW
  · rw [isW, Function.update_self]
  · rw [Function.update_of_ne isW]
    by_cases isA : a = .function .StartDocA
    · rw [isA, Function.update_self]
    · rw [Function.update_of_ne isA]
      exact kept.others a isA isW

/-! ### Callbacks -/

/-- One call of the CBT procedure, and what `Mhook_SetHook` would do then. -/
structure Callback where
  nCode : Int
  outcomes : Outcomes

def callbacks : Machine Process Callback where
  step p callback := some (gefApiCBTProc p callback.nCode callback.outcomes)

def BothInstalled (p : Process) : Prop := StartDocAInstalled p ∧ StartDocWInstalled p

/-- After any callbacks `bHooked` is true only if both hooks are installed, and
    while they are not, the next callback for a new or activated window calls
    `Mhook_SetHook` again. -/
def Truthful (p : Process) : Prop :=
  ∀ calls q, callbacks.run p calls = some q →
    (q.bHooked = true → BothInstalled q) ∧
    (¬ BothInstalled q → ∀ nCode, nCode = HCBT_CREATEWND ∨ nCode = HCBT_ACTIVATE → ∀ outcomes,
      q.calls.length < (gefApiCBTProc q nCode outcomes).calls.length)

/-- With `bHooked` set, callbacks change nothing. -/
theorem callback_of_hooked {p : Process} (flag : p.bHooked = true) (nCode : Int) (outcomes : Outcomes) :
    gefApiCBTProc p nCode outcomes = p := by
  simp [gefApiCBTProc, assignHooked, flag]

theorem callbacks_of_hooked {p q : Process} (flag : p.bHooked = true) {calls : List Callback}
    (ran : callbacks.run p calls = some q) : q = p := by
  have same : p = q := by
    refine callbacks.run_invariant ?_ rfl ran
    rintro s callback t rfl step
    cases step
    exact (callback_of_hooked flag callback.nCode callback.outcomes).symm
  exact same.symm

/-- In a process that is not left alone, `bHooked` is truthful in every state
    exactly when both calls of `Mhook_SetHook` at the attach succeed. -/
theorem hooked_truthful_iff {host : Host} (needed : ¬ Exempt host) (outcomes : Outcomes) :
    Truthful (attached host outcomes) ↔ outcomes.startDocA = true ∧ outcomes.startDocW = true := by
  have hooked := hooked_attached needed outcomes
  constructor
  · intro truthful
    obtain ⟨startDocA, startDocW⟩ := (truthful [] _ rfl).1 hooked.flag
    exact ⟨hooked.startDocA.mp startDocA, hooked.startDocW.mp startDocW⟩
  · rintro ⟨startDocA, startDocW⟩ calls q ran
    have both : BothInstalled q := by
      rw [callbacks_of_hooked hooked.flag ran]
      exact ⟨hooked.startDocA.mpr startDocA, hooked.startDocW.mpr startDocW⟩
    exact ⟨fun _ => both, fun missing => absurd both missing⟩

/-- `notepad.exe`, as started from a path. -/
def notepad : Host where
  moduleFileName := "C:\\Windows\\notepad.exe".toList
  pathFindFileName path := (path.reverse.takeWhile (fun c => c ≠ '\\')).reverse

/-- `StartDocW` cannot be hooked at the attach: it is never tried again. -/
theorem second_hook_fails : ¬ Exempt notepad ∧ ¬ Truthful (attached notepad ⟨true, false⟩) := by
  have needed : ¬ Exempt notepad := by decide
  have hooked := hooked_attached needed ⟨true, false⟩
  refine ⟨needed, fun truthful => ?_⟩
  exact absurd (hooked.startDocW.mp ((truthful [] _ rfl).1 hooked.flag).2) (by decide)

theorem hooked_truthful_notepad :
    ¬ Exempt notepad ∧ Truthful (attached notepad ⟨true, true⟩) :=
  ⟨by decide, (hooked_truthful_iff (by decide) ⟨true, true⟩).mpr ⟨rfl, rfl⟩⟩

end WinMiniTools.PrintHooks
