import WinMiniTools.MhookRefines

/-!
The DLL that keeps a process from printing, on the bytes of the process. Its attach and
its detach do to the code what they do to entries and trampolines (`attach_mirrors`,
`unHookApi_mirrors`). A process that is left alone is not changed; in any other each
function that the attach could hook leads to the DLL, whatever callbacks come later,
and the detach leaves all code as it was before (`attach_blocks_printing`,
`detach_restores_code`).
-/
namespace WinMiniTools.PrintHookCode
open WinMiniTools.AddressSpaces WinMiniTools.Processors WinMiniTools.MhookJumps WinMiniTools.MhookAlloc
  WinMiniTools.Mhook WinMiniTools.MhookHooked WinMiniTools.MhookCalls WinMiniTools.MhookRuns WinMiniTools.MhookRefines
  WinMiniTools.Machines
open WinMiniTools.PrintHooks (Fn Host Outcomes Reason HCBT_CREATEWND HCBT_ACTIVATE Exempt Kept attached attached_needed
  attached_exempt mapped hooked_attached unHookApi_kept)
open WinMiniTools.Trampolines (Address unhook active)
universe u

variable {w : Nat}

/-- The process that the DLL is mapped into, the variables of the DLL, and what its calls
    of `Mhook_SetHook` returned so far. -/
structure Dll (w : Nat) where
  process : Process w
  bHooked : Bool
  szAppFullPath : List Char
  szApp : List Char
  hashSetUnhookProc : List (List Char)
  g_pfnStartDocA : BitVec w
  g_pfnStartDocW : BitVec w
  calls : List Bool

/-- Both buffers hold `MAX_PATH` characters, the terminator included. -/
def dllInit (host : Host) (d : Dll w) : Dll w × Bool :=
  let szAppFullPath := host.moduleFileName.take 259
  ({ d with
      szAppFullPath := szAppFullPath
      szApp := (host.pathFindFileName szAppFullPath).take 259
      hashSetUnhookProc := d.hashSetUnhookProc ++
        ["DebugView++.exe".toList, "explorer.exe".toList, "mhook_demo.exe".toList] }, true)

def isNeedToHook (d : Dll w) : Bool := !d.hashSetUnhookProc.contains d.szApp

section
variable (mode : Mode w) (disassembler : Disassembler w) (gefStartDocA gefStartDocW : BitVec w)

/-- The two calls of `Mhook_SetHook` in `HookApi`, what each of them meets, and the
    addresses of `GefStartDocA` and `GefStartDocW`. -/
def hookStartDocs (c c' : Circumstances w) (d : Dll w) : Option (Dll w) :=
  match mhook_SetHook mode disassembler c d.process d.g_pfnStartDocA gefStartDocA with
  | none => none
  | some (p, g_pfnStartDocA, startDocA) =>
    match mhook_SetHook mode disassembler c' p d.g_pfnStartDocW gefStartDocW with
    | none => none
    | some (q, g_pfnStartDocW, startDocW) =>
      some
        { d with
          process := q
          g_pfnStartDocA := g_pfnStartDocA
          g_pfnStartDocW := g_pfnStartDocW
          calls := d.calls ++ [startDocA, startDocW] }

def hookApi (c c' : Circumstances w) (d : Dll w) : Option (Dll w × Bool) :=
  if d.bHooked then some (d, true)
  else if isNeedToHook d = false then some (d, false)
  else (hookStartDocs mode disassembler gefStartDocA gefStartDocW c c' d).map (fun hooked => (hooked, true))

/-- The two calls of `UnHookApi`. -/
def unHookApi (c c' : Circumstances w) (d : Dll w) : Dll w :=
  let unhookA := mhook_Unhook mode c d.process d.g_pfnStartDocA
  let unhookW := mhook_Unhook mode c' unhookA.1 d.g_pfnStartDocW
  { d with process := unhookW.1, g_pfnStartDocA := unhookA.2.1, g_pfnStartDocW := unhookW.2.1 }

/-- `bHooked = bHooked ? bHooked : HookApi()`. -/
def assignHooked (c c' : Circumstances w) (d : Dll w) : Option (Dll w) :=
  if d.bHooked then some d
  else
    (hookApi mode disassembler gefStartDocA gefStartDocW c c' d).map (fun called => { called.1 with bHooked := called.2 })

/-- `DllMain`: the process after it, and what it returns. -/
def dllMain (host : Host) (c c' : Circumstances w) (d : Dll w) (ul_reason_for_call : Reason) : Option (Dll w × Bool) :=
  match ul_reason_for_call with
  | .processAttach =>
    let init := dllInit host d
    if init.2 = false then some (init.1, false)
    else (assignHooked mode disassembler gefStartDocA gefStartDocW c c' init.1).map (fun hooked => (hooked, true))
  | .threadAttach => some (d, true)
  | .threadDetach => some (d, true)
  | .processDetach => some (unHookApi mode c c' d, true)

/-- `GefApiCBTProc`, up to the hooks after it. -/
def gefApiCBTProc (c c' : Circumstances w) (d : Dll w) (nCode : Int) : Option (Dll w) :=
  if nCode ≠ HCBT_CREATEWND ∧ nCode ≠ HCBT_ACTIVATE then some d
  else assignHooked mode disassembler gefStartDocA gefStartDocW c c' d

/-- Calls of the CBT procedure, and what each of them meets. -/
def callbacks : Machine (Dll w) (Int × Circumstances w × Circumstances w) where
  step d
    | (nCode, c, c') => gefApiCBTProc mode disassembler gefStartDocA gefStartDocW c c' d nCode

end

/-- The pointer is the code of the trampoline; a pointer to a function is that of none. -/
def Leads (mode : Mode w) (blocks : List (BitVec w)) (ptr : BitVec w) : Address Fn → Prop
  | .function _ => ∀ t ∈ blocks, codeTrampoline mode t ≠ ptr
  | .trampoline n => (blocks[n]?).map (codeTrampoline mode) = some ptr

/-- The process has the code, and the DLL the variables, of the model by entries and
    trampolines. -/
structure Mirrors (mode : Mode w) (own : BitVec w → Prop) (base : Space w) (code : Fn → BitVec w)
    (model : PrintHooks.Process) (blocks : List (BitVec w)) (d : Dll w) : Prop where
  refines : Refines mode own base code model.space blocks d.process
  startDocA : Leads mode blocks d.g_pfnStartDocA model.g_pfnStartDocA
  startDocW : Leads mode blocks d.g_pfnStartDocW model.g_pfnStartDocW
  bHooked : d.bHooked = model.bHooked
  szApp : d.szApp = model.szApp
  hashSetUnhookProc : d.hashSetUnhookProc = model.hashSetUnhookProc

section
variable {mode : Mode w} {own : BitVec w → Prop} {base : Space w} {code : Fn → BitVec w} {s : Trampolines.Space Fn}
  {blocks : List (BitVec w)} {p q : Process w} {disassembler : Disassembler w}

theorem leads_append {ptr : BitVec w} {a : Address Fn} {later : List (BitVec w)} (leads : Leads mode blocks ptr a)
    (elsewhere : ∀ f, a = .function f → ∀ t ∈ later, codeTrampoline mode t ≠ ptr) : Leads mode (blocks ++ later) ptr a := by
  cases a with
  | function f =>
    intro t member
    rcases List.mem_append.mp member with before | after
    · exact leads t before
    · exact elsewhere f rfl t after
  | trampoline n =>
    obtain ⟨t, listed, same⟩ := Option.map_eq_some_iff.mp leads
    have inside := (List.getElem?_eq_some_iff.mp listed).1
    rw [Leads, List.getElem?_append_left inside, listed]
    exact congrArg some same

theorem points_of_leads (refines : Refines mode own base code s blocks p) {ptr : BitVec w} {a : Address Fn}
    (leads : Leads mode blocks ptr a) : Points mode blocks a ptr := by
  cases a with
  | function f =>
    intro n t listed
    exact ⟨fun same => absurd same (leads t (List.mem_of_getElem? listed)), nofun⟩
  | trampoline n => exact points_of_place refines leads

/-- One call of `Mhook_SetHook`, as the DLL makes it. -/
theorem set_mirrors {c : Circumstances w} {ptr hook ptr' : BitVec w} {f h : Fn} {done : Bool}
    (refines : Refines mode own base code s blocks p) (leads : Leads mode blocks ptr (.function f))
    (settable : Settable mode own disassembler code blocks p c ptr hook (.function f) h)
    (called : mhook_SetHook mode disassembler c p ptr hook = some (q, ptr', done)) :
    ∃ later, later = (if done then [ptr' - BitVec.ofNat w (layout mode).codeTrampoline] else []) ∧
      (∀ t ∈ later, c.mm.virtualAlloc t = true) ∧
      Refines mode own base code (PrintHooks.mhook_SetHook s (.function f) h done).1 (blocks ++ later) q ∧
      Leads mode (blocks ++ later) ptr' (PrintHooks.mhook_SetHook s (.function f) h done).2 ∧
      ∀ g, (PrintHooks.mhook_SetHook s (.function f) h done).2 = .function g → ptr' = ptr := by
  rcases refines_call refines settable called with ⟨rfl, rfl, refines'⟩ | ⟨rfl, given, placed, refines'⟩
  · refine ⟨[], rfl, nofun, ?_, ?_, fun _ _ => rfl⟩
    · rw [List.append_nil]
      exact refines'
    · rw [List.append_nil]
      exact leads
  · refine ⟨_, rfl, ?_, refines', placed, nofun⟩
    intro t member
    rw [List.mem_singleton.mp member]
    exact given

/-- One call of `Mhook_Unhook`, as the DLL makes it. -/
theorem unset_mirrors {c : Circumstances w} {ptr : BitVec w} {a : Address Fn}
    (refines : Refines mode own base code s blocks p) (leads : Leads mode blocks ptr a) (protects : c.protectsSystem = true) :
    Refines mode own base code (unhook s a).1 blocks (mhook_Unhook mode c p ptr).1 :=
  (refines_unhook refines (points_of_leads refines leads) protects).1

end

/-! ### The attach -/

/-- A process that has just mapped the DLL. -/
structure Mapped (d : Dll w) : Prop where
  hooks : d.process.hooks = noHooks
  bHooked : d.bHooked = false
  hashSetUnhookProc : d.hashSetUnhookProc = []
  calls : d.calls = []

/-- What the attach takes for granted where it hooks: each function is where its pointer
    leads to, and no trampoline is put where a function is. -/
structure Attachable (mode : Mode w) (own : BitVec w → Prop) (disassembler : Disassembler w) (code : Fn → BitVec w)
    (gefStartDocA gefStartDocW : BitVec w) (c c' : Circumstances w) (d : Dll w) : Prop where
  first : Settable mode own disassembler code [] d.process c d.g_pfnStartDocA gefStartDocA (.function .StartDocA)
    .GefStartDocA
  second : ∀ p ptr done, mhook_SetHook mode disassembler c d.process d.g_pfnStartDocA gefStartDocA = some (p, ptr, done) →
    Settable mode own disassembler code (if done then [ptr - BitVec.ofNat w (layout mode).codeTrampoline] else []) p c'
      d.g_pfnStartDocW gefStartDocW (.function .StartDocW) .GefStartDocW
  elsewhere : ∀ t, c.mm.virtualAlloc t = true ∨ c'.mm.virtualAlloc t = true →
    codeTrampoline mode t ≠ d.g_pfnStartDocA ∧ codeTrampoline mode t ≠ d.g_pfnStartDocW

section
variable {mode : Mode w} {own : BitVec w → Prop} {base : Space w} {code : Fn → BitVec w} {blocks : List (BitVec w)}
  {disassembler : Disassembler w} {c c' : Circumstances w} {gefStartDocA gefStartDocW : BitVec w} {d d' : Dll w}
  {host : Host}

theorem needed_iff (fresh : Mapped d) (host : Host) : isNeedToHook (dllInit host d).1 = decide (¬ Exempt host) := by
  simp [isNeedToHook, dllInit, fresh.hashSetUnhookProc, Exempt]

/-- The attach of a process that is left alone only notes its name. -/
theorem attach_exempt (fresh : Mapped d) (exempt : Exempt host) :
    dllMain mode disassembler gefStartDocA gefStartDocW host c c' d .processAttach = some ((dllInit host d).1, true) := by
  have notYet : (dllInit host d).1.bHooked = false := fresh.bHooked
  have unneeded : isNeedToHook (dllInit host d).1 = false := by simp [needed_iff fresh, exempt]
  have assigned : assignHooked mode disassembler gefStartDocA gefStartDocW c c' (dllInit host d).1 =
      some { (dllInit host d).1 with bHooked := false } := by
    simp [assignHooked, hookApi, notYet, unneeded]
  rw [← notYet] at assigned
  rw [dllMain, if_neg (by simp [dllInit]), assigned]
  rfl

/-- The attach of any other process makes both calls. -/
theorem attach_needed (fresh : Mapped d) (needed : ¬ Exempt host) :
    dllMain mode disassembler gefStartDocA gefStartDocW host c c' d .processAttach =
      (hookStartDocs mode disassembler gefStartDocA gefStartDocW c c' (dllInit host d).1).map
        (fun hooked => ({ hooked with bHooked := true }, true)) := by
  have notYet : (dllInit host d).1.bHooked = false := fresh.bHooked
  have asked : isNeedToHook (dllInit host d).1 = true := by simp [needed_iff fresh, needed]
  have assigned : assignHooked mode disassembler gefStartDocA gefStartDocW c c' (dllInit host d).1 =
      (hookStartDocs mode disassembler gefStartDocA gefStartDocW c c' (dllInit host d).1).map
        (fun hooked => { hooked with bHooked := true }) := by
    simp [assignHooked, hookApi, notYet, asked, Function.comp_def]
  rw [dllMain, if_neg (by simp [dllInit]), assigned, Option.map_map]
  rfl

/-- The two calls do to the code what they do to the entries, if they return the same. -/
theorem hookStartDocs_mirrors {model : PrintHooks.Process} (mirrors : Mirrors mode own base code model [] d)
    (startDocA : model.g_pfnStartDocA = .function .StartDocA) (startDocW : model.g_pfnStartDocW = .function .StartDocW)
    (attachable : Attachable mode own disassembler code gefStartDocA gefStartDocW c c' d)
    (called : hookStartDocs mode disassembler gefStartDocA gefStartDocW c c' d = some d') :
    ∃ outcomes : Outcomes, ∃ blocks, d'.calls = d.calls ++ [outcomes.startDocA, outcomes.startDocW] ∧
      Mirrors mode own base code
        (PrintHooks.hookStartDocW (PrintHooks.hookStartDocA model outcomes.startDocA) outcomes.startDocW) blocks d' := by
  obtain ⟨first, second, elsewhere⟩ := attachable
  obtain ⟨refines, leads, leads', bHooked, szApp, hashSetUnhookProc⟩ := mirrors
  rw [startDocA] at leads
  rw [startDocW] at leads'
  rw [hookStartDocs] at called
  cases callA : mhook_SetHook mode disassembler c d.process d.g_pfnStartDocA gefStartDocA with
  | none => simp [callA] at called
  | some doneA =>
    obtain ⟨p, ptrA, doneA⟩ := doneA
    simp only [callA] at called
    cases callW : mhook_SetHook mode disassembler c' p d.g_pfnStartDocW gefStartDocW with
    | none => simp [callW] at called
    | some doneW =>
      obtain ⟨q, ptrW, doneW⟩ := doneW
      simp only [callW, Option.some.injEq] at called
      obtain ⟨later, blocksA, givenA, refinesA, leadsA, sameA⟩ := set_mirrors refines leads first callA
      have settable := second p ptrA doneA callA
      rw [← blocksA] at settable
      have stays : Leads mode ([] ++ later) d.g_pfnStartDocW (.function Fn.StartDocW) :=
        leads_append leads' (fun _ _ t member => (elsewhere t (.inl (givenA t member))).2)
      obtain ⟨later', _, givenW, refinesW, leadsW, _⟩ := set_mirrors refinesA stays settable callW
      have apart : Leads mode ([] ++ later ++ later') ptrA
          (PrintHooks.mhook_SetHook model.space (.function .StartDocA) .GefStartDocA doneA).2 := by
        refine leads_append leadsA (fun g function t member => ?_)
        rw [sameA g function]
        exact (elsewhere t (.inr (givenW t member))).1
      refine ⟨⟨doneA, doneW⟩, [] ++ later ++ later', ?_, ?_⟩
      · rw [← called]
      · rw [← called, PrintHooks.hookStartDocW, PrintHooks.hookStartDocA]
        dsimp only
        rw [startDocA, startDocW]
        exact ⟨refinesW, apart, leadsW, bHooked, szApp, hashSetUnhookProc⟩

theorem mirrors_init (mode : Mode w) (own : BitVec w → Prop) (code : Fn → BitVec w) (fresh : Mapped d) (host : Host) :
    Mirrors mode own d.process.mem code (PrintHooks.dllInit host mapped).1 [] (dllInit host d).1 := by
  refine ⟨refines_start mode own code fresh.hooks, nofun, nofun, fresh.bHooked, rfl, ?_⟩
  rw [dllInit]
  dsimp only
  rw [fresh.hashSetUnhookProc]
  rfl

/-- The attach does to the process what it does to the model, if the calls of
    `Mhook_SetHook` return the same. -/
theorem attach_mirrors {done : Bool} (fresh : Mapped d)
    (attachable : ¬ Exempt host → Attachable mode own disassembler code gefStartDocA gefStartDocW c c' d)
    (called : dllMain mode disassembler gefStartDocA gefStartDocW host c c' d .processAttach = some (d', done)) :
    done = true ∧ ∃ outcomes blocks, Mirrors mode own d.process.mem code (attached host outcomes) blocks d' ∧
      (Exempt host → d'.process = d.process) ∧
      (¬ Exempt host → d'.calls = [outcomes.startDocA, outcomes.startDocW]) := by
  have init := mirrors_init mode own code fresh host
  by_cases exempt : Exempt host
  · rw [attach_exempt fresh exempt] at called
    cases called
    refine ⟨rfl, ⟨false, false⟩, [], ?_, fun _ => rfl, fun needed => absurd exempt needed⟩
    rwa [attached_exempt exempt]
  · rw [attach_needed fresh exempt] at called
    obtain ⟨hooked, both, same⟩ := Option.map_eq_some_iff.mp called
    cases same
    obtain ⟨first, second, elsewhere⟩ := attachable exempt
    obtain ⟨outcomes, blocks, calls, refines, leadsA, leadsW, _, szApp, hashSetUnhookProc⟩ :=
      hookStartDocs_mirrors init rfl rfl ⟨first, second, elsewhere⟩ both
    refine ⟨rfl, outcomes, blocks, ?_, fun exempt' => absurd exempt' exempt, fun _ => ?_⟩
    · rw [attached_needed exempt]
      exact ⟨refines, leadsA, leadsW, rfl, szApp, hashSetUnhookProc⟩
    · exact calls.trans (by rw [show (dllInit host d).1.calls = [] from fresh.calls, List.nil_append])

/-- Once the process was hooked, or found to be left alone, callbacks change nothing. -/
theorem callbacks_settled (settled : d.bHooked = true ∨ isNeedToHook d = false)
    (calls : List (Int × Circumstances w × Circumstances w)) :
    (callbacks mode disassembler gefStartDocA gefStartDocW).run d calls = some d := by
  induction calls with
  | nil => rfl
  | cons call rest ih =>
    obtain ⟨nCode, c, c'⟩ := call
    refine (Machine.run_cons_some _).mpr ⟨d, ?_, ih⟩
    have assigned : assignHooked mode disassembler gefStartDocA gefStartDocW c c' d = some d := by
      cases flag : d.bHooked with
      | true => simp [assignHooked, flag]
      | false =>
        rcases settled with hooked | unneeded
        · rw [flag] at hooked
          cases hooked
        · simp only [assignHooked, hookApi, flag, unneeded, Bool.false_eq_true, if_false, if_true, Option.map_some]
          rw [← flag]
    change gefApiCBTProc mode disassembler gefStartDocA gefStartDocW c c' d nCode = some d
    rw [gefApiCBTProc]
    split
    · rfl
    · exact assigned

/-- The attach leaves nothing for a callback to do. -/
theorem attached_settled {outcomes : Outcomes} (mirrors : Mirrors mode own base code (attached host outcomes) blocks d) :
    d.bHooked = true ∨ isNeedToHook d = false := by
  by_cases exempt : Exempt host
  · right
    rw [isNeedToHook, mirrors.szApp, mirrors.hashSetUnhookProc, attached_exempt exempt, Bool.not_eq_false']
    exact List.contains_iff_mem.mpr exempt
  · left
    rw [mirrors.bHooked]
    exact (hooked_attached exempt outcomes).flag

/-- Both functions are hooked by the DLL, or as it found them. -/
theorem kept_attached (host : Host) (outcomes : Outcomes) : Kept (attached host outcomes) := by
  by_cases exempt : Exempt host
  · rw [attached_exempt exempt]
    exact ⟨.inr ⟨rfl, rfl⟩, .inr ⟨rfl, rfl⟩, fun _ _ _ => rfl⟩
  · exact (hooked_attached exempt outcomes).kept

theorem unHookApi_mirrors {model : PrintHooks.Process} (mirrors : Mirrors mode own base code model blocks d)
    (protects : c.protectsSystem = true) (protects' : c'.protectsSystem = true) :
    Refines mode own base code (PrintHooks.unHookApi model).space blocks (unHookApi mode c c' d).process :=
  unset_mirrors (unset_mirrors mirrors.refines mirrors.startDocA protects) mirrors.startDocW protects'

end

/-! ### A process that prints -/

/-- Two functions, a page apart. -/
def gdiCode : Space 64 := fun x => if 0x7ff600002000 ≤ x ∧ x < 0x7ff600003000 then loadCode (x - 0x1000) else loadCode x

def gdiAddress : Fn → BitVec 64
  | .StartDocA => 0x7ff600001000
  | .StartDocW => 0x7ff600002000
  | .GefStartDocA => 0x10000000
  | .GefStartDocW => 0x10000100

def gdiOwn (x : BitVec 64) : Prop := Within 0x7ff600000000 0x3000 x

def gdiDll : Dll 64 where
  process := { loadProcess with mem := gdiCode }
  bHooked := false
  szAppFullPath := []
  szApp := []
  hashSetUnhookProc := []
  g_pfnStartDocA := 0x7ff600001000
  g_pfnStartDocW := 0x7ff600002000
  calls := []

/-- The memory after the first block is allocated. -/
def secondManager : MemoryManager 64 where
  virtualQuery a :=
    if before : 0x7ff580012000 ≤ a.toNat ∧ a.toNat < 0x7ff580020000 then
      some ⟨0x7ff580012000, 0xe000, true, before.1, before.2, by decide⟩
    else if inside : 0x7ff580020000 ≤ a.toNat ∧ a.toNat < 0x7ff580021000 then
      some ⟨0x7ff580020000, 0x1000, false, inside.1, inside.2, by decide⟩
    else if behind : 0x7ff580021000 ≤ a.toNat ∧ a.toNat < 0x7ff600000000 then
      some ⟨0x7ff580021000, 0x7ffdf000, true, behind.1, behind.2, by decide⟩
    else none
  virtualAlloc t := t = 0x7ff580030000
  dwAllocationGranularity := 0x10000

def secondCircumstances : Circumstances 64 := { loadCircumstances with mm := secondManager }

def gdiFirst : Option (Process 64 × BitVec 64 × Bool) :=
  mhook_SetHook .x64 loadDisassembler loadCircumstances gdiDll.process 0x7ff600001000 0x10000000

theorem gdi_first_settable : Settable .x64 gdiOwn loadDisassembler gdiAddress [] gdiDll.process loadCircumstances
    0x7ff600001000 0x10000000 (.function .StartDocA) .GefStartDocA := by
  intro f x system target
  have here : skipJumps .x64 gdiCode 1 0x7ff600001000 = some 0x7ff600001000 := by decide +kernel
  have there : skipJumps .x64 gdiCode 1 0x10000000 = some 0x10000000 := by decide +kernel
  cases here.symm.trans system
  cases there.symm.trans target
  have none : ∀ u, u ∉ live gdiDll.process.hooks := by
    rw [show gdiDll.process.hooks = noHooks from rfl, live_noHooks]
    exact fun u => List.not_mem_nil
  refine ⟨rfl, rfl, by decide, ⟨loadSkipped, load_sane (by decide +kernel) (by decide) (by decide) rfl ?_
    (fun t _ => none t), ?_⟩, ?_⟩
  · intro t given
    have same : t = 0x7ff580020000 := of_decide_eq_true given
    subst same
    exact apart_below (by decide) (by decide)
  · refine ⟨fun u member => absurd member (none u), fun u member => absurd member (none u),
      fun t _ u member => absurd member (none u), fun t _ u member => absurd member (none u), ?_⟩
    intro t given x within
    have same : t = 0x7ff580020000 := of_decide_eq_true given
    subst same
    exact apart_below (by decide) (by decide) x within
  · intro t given
    have same : t = 0x7ff580020000 := of_decide_eq_true given
    subst same
    exact ⟨List.not_mem_nil, fun g => by cases g <;> decide⟩

/-- The process after the first call. -/
theorem gdi_first {p : Process 64} {ptr : BitVec 64} {done : Bool} (called : gdiFirst = some (p, ptr, done)) :
    (ptr = 0x7ff580020038 ∧ done = true) ∧ live p.hooks = [0x7ff580020000] ∧
      pSystemFunctionOf p.mem 0x7ff580020000 = 0x7ff600001000 ∧
      cbOverwrittenCodeOf .x64 p.mem 0x7ff580020000 = 7 ∧ LoadsAt p.mem 0x7ff600002000 ∧
      skipJumps .x64 p.mem 1 0x7ff600002000 = some 0x7ff600002000 ∧
      skipJumps .x64 p.mem 1 0x10000100 = some 0x10000100 := by
  have facts : gdiFirst.all (fun done => (done.2.1 = 0x7ff580020038 ∧ done.2.2 = true) ∧
      live done.1.hooks = [0x7ff580020000] ∧ pSystemFunctionOf done.1.mem 0x7ff580020000 = 0x7ff600001000 ∧
      cbOverwrittenCodeOf .x64 done.1.mem 0x7ff580020000 = 7 ∧ LoadsAt done.1.mem 0x7ff600002000 ∧
      skipJumps .x64 done.1.mem 1 0x7ff600002000 = some 0x7ff600002000 ∧
      skipJumps .x64 done.1.mem 1 0x10000100 = some 0x10000100) = true := by decide +kernel
  rw [called] at facts
  exact of_decide_eq_true facts

theorem gdi_second_settable {p : Process 64} {ptr : BitVec 64} {done : Bool} (called : gdiFirst = some (p, ptr, done)) :
    Settable .x64 gdiOwn loadDisassembler gdiAddress
      (if done then [ptr - BitVec.ofNat 64 (layout .x64).codeTrampoline] else []) p secondCircumstances
      0x7ff600002000 0x10000100 (.function .StartDocW) .GefStartDocW := by
  obtain ⟨⟨rfl, rfl⟩, table, system, saved, loads, here, there⟩ := gdi_first called
  intro f x system' target
  cases here.symm.trans system'
  cases there.symm.trans target
  have one : ∀ u, u ∈ live p.hooks → u = 0x7ff580020000 := by
    rw [table]
    exact fun u => List.mem_singleton.mp
  have zone : ∀ x, Saved .x64 p.mem 0x7ff580020000 x ↔ Within 0x7ff600001000 7 x := by
    intro x
    rw [Saved, system, saved]
  refine ⟨rfl, rfl, by decide, ⟨loadSkipped, load_sane loads (by decide) (by decide) rfl ?_ ?_, ?_⟩, ?_⟩
  · intro t given
    have same : t = 0x7ff580030000 := of_decide_eq_true given
    subst same
    exact apart_below (by decide) (by decide)
  · intro t given
    have same : t = 0x7ff580030000 := of_decide_eq_true given
    subst same
    rw [table]
    decide
  · constructor
    · intro u member _ x within saved
      cases one u member
      exact apart_below (by decide) (by decide) x ((zone x).mp saved) within
    · intro u member
      cases one u member
      exact ⟨apart_below (by decide) (by decide), apart_below (by decide) (by decide)⟩
    · intro t given u member
      have same : t = 0x7ff580030000 := of_decide_eq_true given
      subst same
      cases one u member
      exact apart_symm (apart_below (by decide) (by decide))
    · intro t given u member x within saved
      have same : t = 0x7ff580030000 := of_decide_eq_true given
      subst same
      cases one u member
      exact apart_below (by decide) (by decide) x within ((zone x).mp saved)
    · intro t given x within
      have same : t = 0x7ff580030000 := of_decide_eq_true given
      subst same
      exact apart_below (by decide) (by decide) x within
  · intro t given
    have same : t = 0x7ff580030000 := of_decide_eq_true given
    subst same
    exact ⟨by decide, fun g => by cases g <;> decide⟩

theorem gdi_mapped : Mapped gdiDll := ⟨rfl, rfl, rfl, rfl⟩

theorem gdi_attachable : Attachable .x64 gdiOwn loadDisassembler gdiAddress 0x10000000 0x10000100 loadCircumstances
    secondCircumstances gdiDll := by
  refine ⟨gdi_first_settable, fun p ptr done called => gdi_second_settable called, ?_⟩
  rintro t (given | given)
  · have same : t = 0x7ff580020000 := of_decide_eq_true given
    subst same
    decide
  · have same : t = 0x7ff580030000 := of_decide_eq_true given
    subst same
    decide

theorem gdi_called : ∃ d', dllMain .x64 loadDisassembler 0x10000000 0x10000100 PrintHooks.notepad loadCircumstances
    secondCircumstances gdiDll .processAttach = some (d', true) ∧ d'.calls = [true, true] := by
  have done : (dllMain .x64 loadDisassembler 0x10000000 0x10000100 PrintHooks.notepad loadCircumstances
      secondCircumstances gdiDll .processAttach).map (fun done => (done.1.calls, done.2)) =
        some ([true, true], true) := by decide +kernel
  obtain ⟨⟨d', returned⟩, called, same⟩ := Option.map_eq_some_iff.mp done
  obtain ⟨calls, rfl⟩ := Prod.mk.inj same
  exact ⟨d', called, calls⟩

/-! ### From the attach to the detach -/

section
variable {mode : Mode w} {own : BitVec w → Prop} {code : Fn → BitVec w} {disassembler : Disassembler w}
  {c c' : Circumstances w} {gefStartDocA gefStartDocW : BitVec w} {d d' d'' : Dll w} {host : Host} {done : Bool}

/-- The attach leaves a process alone if it is one of those; in any other, each call that
    returns true leads its function to the DLL. Callbacks change nothing later. -/
theorem attach_blocks_printing {Data : Type u} (P : Processor w Data) (fresh : Mapped d)
    (attachable : ¬ Exempt host → Attachable P.mode own disassembler code gefStartDocA gefStartDocW c c' d)
    (called : dllMain P.mode disassembler gefStartDocA gefStartDocW host c c' d .processAttach = some (d', done)) :
    done = true ∧ (∀ calls, (callbacks P.mode disassembler gefStartDocA gefStartDocW).run d' calls = some d') ∧
      (Exempt host → d'.process = d.process) ∧
      (¬ Exempt host → ∃ startDocA startDocW, d'.calls = [startDocA, startDocW] ∧
        (startDocA = true → ∀ data, Reaches P d'.process.mem (code .StartDocA, data) (code .GefStartDocA, data)) ∧
        (startDocW = true → ∀ data, Reaches P d'.process.mem (code .StartDocW, data) (code .GefStartDocW, data))) ∧
      ∀ x, own x → (∀ t ∈ live d'.process.hooks, ¬ Saved P.mode d'.process.mem t x) →
        d'.process.mem x = d.process.mem x := by
  obtain ⟨returned, outcomes, blocks, mirrors, alone, calls⟩ := attach_mirrors fresh attachable called
  have refines := mirrors.refines
  have leads : ∀ f h, (attached host outcomes).space.entry (.function f) = .jump h →
      ∀ data, Reaches P d'.process.mem (code f, data) (code h, data) := by
    intro f h jumps data
    obtain ⟨t, member, system, target⟩ := entry_jump refines jumps
    rw [Option.some.inj system, target]
    exact inPlace_reaches P (refines.inv.inPlace t member) data
  refine ⟨returned, callbacks_settled (attached_settled mirrors), alone, fun needed => ?_, refines.inv.intact⟩
  have hooked := hooked_attached needed outcomes
  exact ⟨_, _, calls needed, fun yes => leads _ _ (hooked.startDocA.mpr yes).entry,
    fun yes => leads _ _ (hooked.startDocW.mpr yes).entry⟩

theorem attach_blocks_printing_gdi : ∃ d', dllMain .x64 loadDisassembler 0x10000000 0x10000100 PrintHooks.notepad
    loadCircumstances secondCircumstances gdiDll .processAttach = some (d', true) ∧
      (∀ calls, (callbacks .x64 loadDisassembler 0x10000000 0x10000100).run d' calls = some d') ∧
      (∀ data, Reaches loadProcessor d'.process.mem (0x7ff600001000, data) (0x10000000, data)) ∧
      (∀ data, Reaches loadProcessor d'.process.mem (0x7ff600002000, data) (0x10000100, data)) ∧
      ∀ x, gdiOwn x → (∀ t ∈ live d'.process.hooks, ¬ Saved .x64 d'.process.mem t x) → d'.process.mem x = gdiCode x := by
  obtain ⟨d', called, calls⟩ := gdi_called
  obtain ⟨-, callbacks, -, hooked, intact⟩ :=
    attach_blocks_printing loadProcessor gdi_mapped (fun _ => gdi_attachable) called
  obtain ⟨startDocA, startDocW, returned, leadsA, leadsW⟩ := hooked (by decide)
  rw [calls] at returned
  cases returned
  exact ⟨d', called, callbacks, leadsA rfl, leadsW rfl, intact⟩

/-- Whatever the attach could hook, and whatever callbacks came later, after the detach no
    hook is in place and every byte of the program is as it was before the attach. -/
theorem detach_restores_code (fresh : Mapped d)
    (attachable : ¬ Exempt host → Attachable mode own disassembler code gefStartDocA gefStartDocW c c' d)
    (called : dllMain mode disassembler gefStartDocA gefStartDocW host c c' d .processAttach = some (d', done))
    {calls : List (Int × Circumstances w × Circumstances w)}
    (ran : (callbacks mode disassembler gefStartDocA gefStartDocW).run d' calls = some d'')
    {k k' : Circumstances w} (protects : k.protectsSystem = true) (protects' : k'.protectsSystem = true) :
    ∃ q, dllMain mode disassembler gefStartDocA gefStartDocW host k k' d'' .processDetach = some (q, true) ∧
      live q.process.hooks = [] ∧ ∀ x, own x → q.process.mem x = d.process.mem x := by
  obtain ⟨_, outcomes, blocks, mirrors, _⟩ := attach_mirrors fresh attachable called
  cases (callbacks_settled (attached_settled mirrors) calls).symm.trans ran
  refine ⟨_, rfl, restored_of_own (unHookApi_mirrors mirrors protects protects') ?_⟩
  rw [(unHookApi_kept (kept_attached host outcomes)).2.2]
  exact fun _ => rfl

theorem detach_restores_code_gdi : ∃ d' q, dllMain .x64 loadDisassembler 0x10000000 0x10000100 PrintHooks.notepad
    loadCircumstances secondCircumstances gdiDll .processAttach = some (d', true) ∧
      dllMain .x64 loadDisassembler 0x10000000 0x10000100 PrintHooks.notepad loadCircumstances loadCircumstances d'
        .processDetach = some (q, true) ∧
      live q.process.hooks = [] ∧ ∀ x, gdiOwn x → q.process.mem x = gdiCode x := by
  obtain ⟨d', called, _⟩ := gdi_called
  have ran : (callbacks .x64 loadDisassembler 0x10000000 0x10000100).run d' [] = some d' := rfl
  obtain ⟨q, detached, restored⟩ := detach_restores_code gdi_mapped (fun _ => gdi_attachable) called ran
    (show loadCircumstances.protectsSystem = true from rfl) (show loadCircumstances.protectsSystem = true from rfl)
  exact ⟨d', q, called, detached, restored⟩

end

end WinMiniTools.PrintHookCode
