import WinMiniTools.ExemptNames
import WinMiniTools.Formats

/-!
The messages of a debug build (`DebugMsg.h`). `DP0`, `DP1` and `DP2` format into
a buffer of 256 characters, and a text that does not fit ends the process. While
none does, a debug build does what the functions of `PrintHooks` do
(`step_eq`); and every text fits exactly when the names that stand in
the texts are short: the file name of the process at its attach, the titles of
the foreground windows, and the path of the DLL (`never_ends_iff`).
-/
namespace WinMiniTools.DebugMessages
open WinMiniTools.Machines WinMiniTools.Formats WinMiniTools.PrintHooks WinMiniTools.ExemptNames WinMiniTools.Trampolines

/-! ### The macros -/

/-- Code of a debug build: what it hands to `OutputDebugString`, and its result
    unless the process ends in it. -/
structure Debug (α : Type) where
  output : List (List Char)
  result : Option α

instance : Monad Debug where
  pure a := { output := [], result := some a }
  bind m f :=
    match m.result with
    | none => { output := m.output, result := none }
    | some a => { output := m.output ++ (f a).output, result := (f a).result }

/-- `DP0`, `DP1` and `DP2`, by the number of arguments. -/
def dp (fmt : String) (args : List Arg) : Debug Unit :=
  match sprintf_s 256 fmt.toList args with
  | none => { output := [], result := none }
  | some sOut => { output := [sOut], result := some () }

@[simp] theorem result_pure {α : Type} (a : α) : (pure a : Debug α).result = some a := rfl

@[simp] theorem result_bind {α β : Type} (m : Debug α) (f : α → Debug β) :
    (m >>= f).result = m.result.bind (fun a => (f a).result) := by
  obtain ⟨output, result⟩ := m
  cases result <;> rfl

/-- A message fits when its plain characters and its arguments do. -/
theorem dp_result (fmt : String) (ks : List Conversion) (n : Nat) (args : List Arg)
    (formatted : conversions (pieces fmt.toList) = ks ∧ (plain (pieces fmt.toList)).length = n)
    (enough : ks.length ≤ args.length) :
    (dp fmt args).result = if n + (List.zipWith write ks args).flatten.length < 256 then some () else none := by
  obtain ⟨rfl, rfl⟩ := formatted
  have length := render_length enough
  rw [written] at length
  unfold dp sprintf_s
  rw [printf, length]
  split_ifs <;> rfl

/-! ### The DLL -/

inductive Platform where
  | win32
  | x64
  deriving DecidableEq

def Platform.pointerDigits : Platform → Nat
  | .win32 => 8
  | .x64 => 16

/-- What a debug build is built for, and where its code is. -/
structure Target where
  platform : Platform
  address : Address Fn → Nat

def Target.pointer (D : Target) (a : Address Fn) : Arg := .pointer D.platform.pointerDigits (D.address a)

/-- A `bool`, promoted to an `int`. -/
def flag (b : Bool) : Arg := .word (if b then 1 else 0)

def isNeedToHook (p : Process) : Debug Bool :=
  if p.hashSetUnhookProc.contains p.szApp then do
    dp "Not to hook [%s]" [.string p.szApp]
    return false
  else return true

def hookApi (D : Target) (p : Process) (outcomes : Outcomes) : Debug (Process × Bool) :=
  if p.bHooked then do
    dp "Already Hooked" []
    return (p, true)
  else do
    let needed ← isNeedToHook p
    if needed = false then return (p, false)
    else do
      dp "Hook begin" []
      dp "StartDocA original: %p, hooked: %p" [D.pointer p.g_pfnStartDocA, D.pointer (.function .GefStartDocA)]
      let p := hookStartDocA p outcomes.startDocA
      dp "StartDocW original: %p, hooked: %p" [D.pointer p.g_pfnStartDocW, D.pointer (.function .GefStartDocW)]
      let p := hookStartDocW p outcomes.startDocW
      dp "Hook end" []
      return (p, true)

def assignHooked (D : Target) (p : Process) (outcomes : Outcomes) : Debug Process :=
  if p.bHooked then return p
  else do
    let called ← hookApi D p outcomes
    return { called.1 with bHooked := called.2 }

def dllMain (D : Target) (host : Host) (p : Process) (ul_reason_for_call : Reason) (outcomes : Outcomes) :
    Debug (Process × Bool) :=
  match ul_reason_for_call with
  | .processAttach =>
    let init := dllInit host p
    if init.2 = false then return (init.1, false)
    else do
      dp "DLL_PROCESS_ATTACH szApp: %s bHooked: %d" [.string init.1.szApp, flag init.1.bHooked]
      let p ← assignHooked D init.1 outcomes
      return (p, true)
  | .threadAttach => return (p, true)
  | .threadDetach => return (p, true)
  | .processDetach => do
    dp "DLL_PROCESS_ATTACH " []
    return (unHookApi p, true)

def gefApiCBTProc (D : Target) (p : Process) (nCode : Int) (outcomes : Outcomes) : Debug Process :=
  if nCode ≠ HCBT_CREATEWND ∧ nCode ≠ HCBT_ACTIVATE then return p
  else do
    dp "GefApiCBTProc bHooked : %d" [flag p.bHooked]
    assignHooked D p outcomes

/-- What `GetWindowText` leaves of a title in `szWndText`. -/
def szWndText (title : List Char) : List Char := title.take 259

def isPermitPrint (title : List Char) : Debug Bool := do
  dp "IsPermitPrint szWndText[%s]" [.string (szWndText title)]
  return false

/-- A hook, by its name and what the original function would return. -/
def gefStartDoc (name : String) (original : Int) (title : List Char) : Debug Int := do
  dp name []
  let permitted ← isPermitPrint title
  return if permitted then original else 0

def gefStartDocA (original : Int) (title : List Char) : Debug Int := gefStartDoc "GefStartDocA" original title
def gefStartDocW (original : Int) (title : List Char) : Debug Int := gefStartDoc "GefStartDocW" original title

/-! ### The program -/

def Platform.dllName : Platform → List Char
  | .win32 => "mhook_demo_dll.dll".toList
  | .x64 => "mhook_demo_dll_x64.dll".toList

/-- What `SetHook` asks the system for. A failure has its last error. -/
structure Starter where
  moduleFileName : List Char
  pathRemoveFileSpec : List Char → List Char
  pathAppend : List Char → List Char → List Char
  loadLibrary : Except (BitVec 32) Unit
  getProcAddress : Except (BitVec 32) Unit
  setWindowsHookEx : Bool

/-- The path of the DLL beside the program, in a buffer of `MAX_PATH * 2`. -/
def Starter.lpApiHookPath (s : Starter) (platform : Platform) : List Char :=
  s.pathAppend (s.pathRemoveFileSpec (s.moduleFileName.take 519)) platform.dllName

def setHook (platform : Platform) (s : Starter) : Debug Bool := do
  dp "LoadLibrary  %s" [.string (s.lpApiHookPath platform)]
  match s.loadLibrary with
  | .error lastError => do
    dp "LoadLibrary fail, 0x%08x" [.word lastError]
    return false
  | .ok _ =>
    match s.getProcAddress with
    | .error lastError => do
      dp "GetProcAddress fail, 0x%08x" [.word lastError]
      return false
    | .ok _ =>
      if s.setWindowsHookEx = false then do
        dp "SetWindowsHookEx fail" []
        return false
      else return true

/-! ### One function after the other -/

/-- The names that are left alone are those of `DllInit`. -/
def Known (p : Process) : Prop := ∀ name ∈ p.hashSetUnhookProc, name ∈ unhooked

theorem known_init (host : Host) {p : Process} (known : Known p) : Known (dllInit host p).1 := by
  intro name member
  rcases List.mem_append.mp member with before | inserted
  · exact known name before
  · exact inserted

theorem unhooked_short : ∀ name ∈ unhooked, name.length ≤ 15 := by decide +kernel

theorem flag_length (b : Bool) : (write .decimal (flag b)).length = 1 := by
  cases b <;> decide

theorem pointers_fit (D : Target) (fmt : String) (a b : Address Fn)
    (formatted : conversions (pieces fmt.toList) = [.pointer, .pointer] ∧ (plain (pieces fmt.toList)).length = 30) :
    (dp fmt [D.pointer a, D.pointer b]).result = some () := by
  rw [dp_result fmt _ _ _ formatted (Nat.le_refl _)]
  apply if_pos
  simp only [List.zipWith, List.flatten_cons, List.flatten_nil, List.length_append, Target.pointer, write_pointer_length]
  cases D.platform <;> decide

/-- A message with one name in it. -/
theorem name_result (fmt : String) (n : Nat) (name : List Char)
    (formatted : conversions (pieces fmt.toList) = [.string] ∧ (plain (pieces fmt.toList)).length = n) :
    (dp fmt [.string name]).result = if n + name.length < 256 then some () else none := by
  rw [dp_result fmt _ _ _ formatted (Nat.le_refl _)]
  simp only [List.zipWith, List.flatten_cons, List.flatten_nil, List.append_nil, write_string]

/-- One of the names stands in the message, so it is short. -/
theorem isNeedToHook_result {p : Process} (known : Known p) :
    (isNeedToHook p).result = some (PrintHooks.isNeedToHook p) := by
  unfold isNeedToHook PrintHooks.isNeedToHook
  by_cases found : p.szApp ∈ p.hashSetUnhookProc
  · have short := unhooked_short _ (known _ found)
    have fits : 14 + p.szApp.length < 256 := by omega
    rw [if_pos (List.contains_iff_mem.mpr found), result_bind, name_result _ 14 p.szApp (by decide +kernel), if_pos fits]
    simp [found]
  · rw [if_neg (fun contained => found (List.contains_iff_mem.mp contained))]
    simp [found]

theorem hookApi_result (D : Target) {p : Process} (known : Known p) (outcomes : Outcomes) :
    (hookApi D p outcomes).result = some (PrintHooks.hookApi p outcomes) := by
  have already : (dp "Already Hooked" []).result = some () := by decide +kernel
  have begins : (dp "Hook begin" []).result = some () := by decide +kernel
  have ends : (dp "Hook end" []).result = some () := by decide +kernel
  have startDocA := pointers_fit D "StartDocA original: %p, hooked: %p" p.g_pfnStartDocA (.function .GefStartDocA)
    (by decide +kernel)
  have startDocW := pointers_fit D "StartDocW original: %p, hooked: %p"
    (hookStartDocA p outcomes.startDocA).g_pfnStartDocW (.function .GefStartDocW) (by decide +kernel)
  unfold hookApi PrintHooks.hookApi
  by_cases hooked : p.bHooked
  · simp only [hooked, ↓reduceIte, result_bind, already, Option.bind_some, result_pure]
  · rw [if_neg hooked, if_neg hooked, result_bind, isNeedToHook_result known, Option.bind_some]
    by_cases needed : PrintHooks.isNeedToHook p = false
    · simp only [needed, ↓reduceIte, result_pure]
    · rw [if_neg needed, if_neg needed]
      simp only [result_bind, begins, startDocA, startDocW, ends, Option.bind_some, result_pure]

theorem assignHooked_result (D : Target) {p : Process} (known : Known p) (outcomes : Outcomes) :
    (assignHooked D p outcomes).result = some (PrintHooks.assignHooked p outcomes) := by
  unfold assignHooked PrintHooks.assignHooked
  by_cases hooked : p.bHooked
  · simp only [hooked, ↓reduceIte, result_pure]
  · simp only [hooked, ↓reduceIte, Bool.false_eq_true, result_bind, hookApi_result D known, Option.bind_some,
      result_pure]

theorem gefApiCBTProc_result (D : Target) {p : Process} (known : Known p) (nCode : Int) (outcomes : Outcomes) :
    (gefApiCBTProc D p nCode outcomes).result = some (PrintHooks.gefApiCBTProc p nCode outcomes) := by
  have message : (dp "GefApiCBTProc bHooked : %d" [flag p.bHooked]).result = some () := by
    cases p.bHooked <;> decide +kernel
  unfold gefApiCBTProc PrintHooks.gefApiCBTProc
  by_cases other : nCode ≠ HCBT_CREATEWND ∧ nCode ≠ HCBT_ACTIVATE
  · rw [if_pos other, if_pos other, result_pure]
  · rw [if_neg other, if_neg other, result_bind, message, Option.bind_some, assignHooked_result D known]

/-- A title of more than 230 characters leaves no room for the others of its message. -/
theorem isPermitPrint_result (title : List Char) :
    (isPermitPrint title).result = if title.length ≤ 230 then some false else none := by
  rw [isPermitPrint, result_bind, name_result _ 25 (szWndText title) (by decide +kernel), szWndText, List.length_take]
  by_cases short : title.length ≤ 230
  · rw [if_pos short, if_pos (by omega)]
    rfl
  · rw [if_neg short, if_neg (by omega)]
    rfl

theorem gefStartDoc_result {name : String} (named : (dp name []).result = some ()) (original : Int)
    (title : List Char) :
    (gefStartDoc name original title).result = if title.length ≤ 230 then some 0 else none := by
  rw [gefStartDoc, result_bind, named, Option.bind_some, result_bind, isPermitPrint_result]
  split_ifs <;> rfl

/-- The file name of the process, as its buffer holds it. -/
def szApp (host : Host) : List Char := (host.pathFindFileName (host.moduleFileName.take 259)).take 259

theorem attachMessage_result (name : List Char) (hooked : Bool) :
    (dp "DLL_PROCESS_ATTACH szApp: %s bHooked: %d" [.string name, flag hooked]).result =
      if name.length ≤ 218 then some () else none := by
  rw [dp_result _ [.string, .decimal] 36 _ (by decide +kernel) (Nat.le_refl _)]
  simp only [List.zipWith, List.flatten_cons, List.flatten_nil, List.length_append, List.length_nil, write_string,
    flag_length]
  by_cases short : name.length ≤ 218
  · rw [if_pos short, if_pos (by omega)]
  · rw [if_neg short, if_neg (by omega)]

theorem dllMain_result (D : Target) (host : Host) {p : Process} (known : Known p) (reason : Reason)
    (outcomes : Outcomes) :
    (dllMain D host p reason outcomes).result =
      if reason = .processAttach → (szApp host).length ≤ 218 then some (PrintHooks.dllMain host p reason outcomes)
      else none := by
  cases reason with
  | processAttach =>
    have init := known_init host known
    have message := attachMessage_result (szApp host) p.bHooked
    show ((dp _ [.string (szApp host), flag p.bHooked]) >>= fun _ => _ : Debug _).result = _
    rw [result_bind, message]
    by_cases short : (szApp host).length ≤ 218
    · rw [if_pos short, if_pos (fun _ => short), Option.bind_some, result_bind, assignHooked_result D init]
      rfl
    · rw [if_neg short, if_neg (fun all => short (all rfl))]
      rfl
  | threadAttach => rw [if_pos (by intro same; cases same)]; rfl
  | threadDetach => rw [if_pos (by intro same; cases same)]; rfl
  | processDetach =>
    have message : (dp "DLL_PROCESS_ATTACH " []).result = some () := by decide +kernel
    rw [if_pos (by intro same; cases same), dllMain, result_bind, message]
    rfl

/-- The path of the DLL is in the first message of `SetHook`, and errors have eight digits. -/
theorem setHook_isSome (platform : Platform) (s : Starter) :
    (setHook platform s).result.isSome ↔ (s.lpApiHookPath platform).length ≤ 242 := by
  have failed (fmt : String) (w : BitVec 32)
      (formatted : conversions (pieces fmt.toList) = [.hex8] ∧ (plain (pieces fmt.toList)).length ≤ 23) :
      (dp fmt [.word w]).result = some () := by
    rw [dp_result fmt [.hex8] _ [.word w] ⟨formatted.1, rfl⟩ (Nat.le_refl _)]
    apply if_pos
    simp only [List.zipWith, List.flatten_cons, List.flatten_nil, List.append_nil, write_hex8_length]
    omega
  have load (w : BitVec 32) := failed "LoadLibrary fail, 0x%08x" w (by decide +kernel)
  have get (w : BitVec 32) := failed "GetProcAddress fail, 0x%08x" w (by decide +kernel)
  have set : (dp "SetWindowsHookEx fail" []).result = some () := by decide +kernel
  rw [setHook, result_bind, name_result _ 13 (s.lpApiHookPath platform) (by decide +kernel)]
  by_cases short : (s.lpApiHookPath platform).length ≤ 242
  · rw [if_pos (by omega), Option.bind_some]
    refine iff_of_true ?_ short
    cases s.loadLibrary with
    | error lastError => simp only [result_bind, load, Option.bind_some, result_pure, Option.isSome_some]
    | ok _ =>
      cases s.getProcAddress with
      | error lastError => simp only [result_bind, get, Option.bind_some, result_pure, Option.isSome_some]
      | ok _ =>
        cases s.setWindowsHookEx with
        | false => simp only [↓reduceIte, result_bind, set, Option.bind_some, result_pure, Option.isSome_some]
        | true => rfl
  · rw [if_neg (by omega)]
    exact iff_of_false Bool.false_ne_true short

/-! ### Whole runs -/

/-- A callback of the system or a call of a hooked function, with the title of the
    foreground window then. -/
inductive Event where
  | dllMain (ul_reason_for_call : Reason) (outcomes : Outcomes)
  | cbtProc (nCode : Int) (outcomes : Outcomes)
  | startDocA (original : Int) (title : List Char)
  | startDocW (original : Int) (title : List Char)

/-- The DLL in a process, as long as no message ends it. -/
def dll (D : Target) (host : Host) : Machine Process Event where
  step
    | p, .dllMain ul_reason_for_call outcomes => (dllMain D host p ul_reason_for_call outcomes).result.map Prod.fst
    | p, .cbtProc nCode outcomes => (gefApiCBTProc D p nCode outcomes).result
    | p, .startDocA original title => (gefStartDocA original title).result.map (fun _ => p)
    | p, .startDocW original title => (gefStartDocW original title).result.map (fun _ => p)

/-- The same event without messages. -/
def next (host : Host) (p : Process) : Event → Process
  | .dllMain ul_reason_for_call outcomes => (PrintHooks.dllMain host p ul_reason_for_call outcomes).1
  | .cbtProc nCode outcomes => PrintHooks.gefApiCBTProc p nCode outcomes
  | .startDocA _ _ => p
  | .startDocW _ _ => p

/-- The names in the messages of the event leave room for the rest. -/
def Short (host : Host) : Event → Prop
  | .dllMain ul_reason_for_call _ => ul_reason_for_call = .processAttach → (szApp host).length ≤ 218
  | .cbtProc _ _ => True
  | .startDocA _ title => title.length ≤ 230
  | .startDocW _ title => title.length ≤ 230

instance (host : Host) : ∀ event, Decidable (Short host event)
  | .dllMain ul_reason_for_call _ =>
    inferInstanceAs (Decidable (ul_reason_for_call = .processAttach → (szApp host).length ≤ 218))
  | .cbtProc _ _ => inferInstanceAs (Decidable True)
  | .startDocA _ title => inferInstanceAs (Decidable (title.length ≤ 230))
  | .startDocW _ title => inferInstanceAs (Decidable (title.length ≤ 230))

theorem known_assign {p : Process} (known : Known p) (outcomes : Outcomes) :
    Known (PrintHooks.assignHooked p outcomes) := by
  have same : (PrintHooks.assignHooked p outcomes).hashSetUnhookProc = p.hashSetUnhookProc := by
    unfold PrintHooks.assignHooked PrintHooks.hookApi
    split_ifs <;> rfl
  intro name member
  exact known name (same ▸ member)

theorem known_next (host : Host) {p : Process} (known : Known p) (event : Event) : Known (next host p event) := by
  cases event with
  | dllMain reason outcomes =>
    cases reason with
    | processAttach => exact known_assign (known_init host known) outcomes
    | threadAttach => exact known
    | threadDetach => exact known
    | processDetach => exact known
  | cbtProc nCode outcomes =>
    show Known (PrintHooks.gefApiCBTProc p nCode outcomes)
    unfold PrintHooks.gefApiCBTProc
    split_ifs
    · exact known
    · exact known_assign known outcomes
  | startDocA _ _ => exact known
  | startDocW _ _ => exact known

/-- An event does what it does without messages, or ends the process. -/
theorem step_eq (D : Target) (host : Host) {p : Process} (known : Known p) (event : Event) :
    (dll D host).step p event = if Short host event then some (next host p event) else none := by
  cases event with
  | dllMain reason outcomes =>
    show (dllMain D host p reason outcomes).result.map Prod.fst = _
    rw [dllMain_result D host known, apply_ite (Option.map Prod.fst)]
    rfl
  | cbtProc nCode outcomes => exact gefApiCBTProc_result D known nCode outcomes
  | startDocA original title =>
    have named : (dp "GefStartDocA" []).result = some () := by decide +kernel
    show (gefStartDocA original title).result.map (fun _ => p) = _
    rw [gefStartDocA, gefStartDoc_result named, apply_ite (Option.map (fun _ => p))]
    rfl
  | startDocW original title =>
    have named : (dp "GefStartDocW" []).result = some () := by decide +kernel
    show (gefStartDocW original title).result.map (fun _ => p) = _
    rw [gefStartDocW, gefStartDoc_result named, apply_ite (Option.map (fun _ => p))]
    rfl

theorem run_eq (D : Target) (host : Host) {p : Process} (known : Known p) (events : List Event) :
    (dll D host).run p events =
      if ∀ event ∈ events, Short host event then some (events.foldl (next host) p) else none := by
  induction events generalizing p with
  | nil => exact (if_pos (fun event member => absurd member List.not_mem_nil)).symm
  | cons event rest ih =>
    rw [Machine.run, step_eq D host known]
    by_cases short : Short host event
    · rw [if_pos short]
      show (dll D host).run (next host p event) rest = _
      rw [ih (known_next host known event)]
      simp only [List.forall_mem_cons, short, true_and, List.foldl_cons]
    · rw [if_neg short, if_neg (fun all => short (all event List.mem_cons_self))]

/-- No message ends the process that the DLL is in, nor the program that hooks. -/
structure NeverEnds (D : Target) (host : Host) (events : List Event) (s : Starter) : Prop where
  dll : ((dll D host).run mapped events).isSome
  program : (setHook D.platform s).result.isSome

/-- Every message fits exactly when the file name of an attached process has at
    most 218 characters, every title 230, and the path of the DLL 242. -/
theorem never_ends_iff (D : Target) (host : Host) (events : List Event) (s : Starter) :
    NeverEnds D host events s ↔
      (∀ event ∈ events, Short host event) ∧ (s.lpApiHookPath D.platform).length ≤ 242 := by
  have known : Known mapped := fun name member => absurd member List.not_mem_nil
  have ran : ((dll D host).run mapped events).isSome ↔ ∀ event ∈ events, Short host event := by
    rw [run_eq D host known]
    split_ifs with short
    · exact iff_of_true rfl short
    · exact iff_of_false Bool.false_ne_true short
  constructor
  · rintro ⟨never, program⟩
    exact ⟨ran.mp never, (setHook_isSome D.platform s).mp program⟩
  · rintro ⟨short, path⟩
    exact ⟨ran.mpr short, (setHook_isSome D.platform s).mpr path⟩

/-- The program in `C:\tools`, whose DLL can be loaded. -/
def tools : Starter where
  moduleFileName := "C:\\tools\\mhook_demo.exe".toList
  pathRemoveFileSpec := fun path => (path.reverse.dropWhile (fun c => c ≠ '\\')).tail.reverse
  pathAppend := fun path more => path ++ '\\' :: more
  loadLibrary := .ok ()
  getProcAddress := .ok ()
  setWindowsHookEx := true

/-- A document is printed while a window with a title of 240 characters is in front. -/
theorem long_title_ends : ¬ NeverEnds { platform := .win32, address := fun _ => 0 } notepad
    [.dllMain .processAttach ⟨true, true⟩, .startDocW 1 (List.replicate 240 'a')] tools := by
  rintro ⟨never, _⟩
  revert never
  decide +kernel

end WinMiniTools.DebugMessages
