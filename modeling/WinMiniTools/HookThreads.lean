import WinMiniTools.PrintHooks

/-!
The DLL of `PrintHooks` in a process with many threads. A callback is a sequence
of small steps, each one access to the shared variables or one call of the hook
library, and the steps of the threads interleave. After the attach no thread can
come to a call of `Mhook_SetHook` any more: either `bHooked` is set, or the
process is left alone (`thread_step`). So a run calls it at most once for each
function, and the detach leaves the process as it was (`hooks_once`).
-/
namespace WinMiniTools.HookThreads
open WinMiniTools.Trampolines WinMiniTools.Machines WinMiniTools.PrintHooks

/-- Where a thread is: outside, at the test of `nCode`, at the two reads of
    `bHooked` in the assignment, at the tests and the two calls of `HookApi`, or
    about to assign what the right-hand side came to. -/
inductive At where
  | outside
  | entered (nCode : Int)
  | reads
  | readsAgain
  | inHookApi
  | decides
  | setsStartDocA
  | setsStartDocW
  | assigns (value : Bool)
  deriving DecidableEq

inductive Phase where
  | mapped
  | attached
  | detached
  deriving DecidableEq

structure Dll where
  process : Process
  threads : Nat → At
  phase : Phase

/-- What happens to the DLL. A thread moves by one step, with what
    `Mhook_SetHook` does if the step is a call of it. -/
inductive Event where
  | attach (outcomes : Outcomes)
  | threadAttach
  | threadDetach
  | enters (thread : Nat) (nCode : Int)
  | moves (thread : Nat) (succeeds : Bool)
  | detach

/-- One step of `GefApiCBTProc`. -/
def threadStep (p : Process) (place : At) (succeeds : Bool) : Option (Process × At) :=
  match place with
  | .outside => none
  | .entered nCode => some (p, if nCode ≠ HCBT_CREATEWND ∧ nCode ≠ HCBT_ACTIVATE then .outside else .reads)
  | .reads => some (p, if p.bHooked then .readsAgain else .inHookApi)
  | .readsAgain => some (p, .assigns p.bHooked)
  | .inHookApi => some (p, if p.bHooked then .assigns true else .decides)
  | .decides => some (p, if isNeedToHook p = false then .assigns false else .setsStartDocA)
  | .setsStartDocA => some (hookStartDocA p succeeds, .setsStartDocW)
  | .setsStartDocW => some (hookStartDocW p succeeds, .assigns true)
  | .assigns value => some ({ p with bHooked := value }, .outside)

/-- `DllMain` for a reason that never comes to `Mhook_SetHook`. -/
def notify (host : Host) (s : Dll) (reason : Reason) : Process :=
  (dllMain host s.process reason { startDocA := false, startDocW := false }).1

def dll (host : Host) : Machine Dll Event where
  step s
    | .attach outcomes =>
      if s.phase = .mapped then
        some { s with process := (dllMain host s.process .processAttach outcomes).1, phase := .attached }
      else none
    | .threadAttach =>
      if s.phase = .attached then some { s with process := notify host s .threadAttach } else none
    | .threadDetach =>
      if s.phase = .attached then some { s with process := notify host s .threadDetach } else none
    | .enters thread nCode =>
      if s.phase = .attached ∧ s.threads thread = .outside then
        some { s with threads := Function.update s.threads thread (.entered nCode) }
      else none
    | .moves thread succeeds =>
      if s.phase = .attached then
        match threadStep s.process (s.threads thread) succeeds with
        | none => none
        | some (process, place) =>
          some { s with process := process, threads := Function.update s.threads thread place }
      else none
    | .detach =>
      if s.phase = .attached then some { s with process := notify host s .processDetach, phase := .detached } else none

def start : Dll where
  process := mapped
  threads _ := .outside
  phase := .mapped

/-! ### A thread on its own -/

/-- One thread, by what `Mhook_SetHook` would do at each step. -/
def alone : Machine (Process × At) Bool where
  step s succeeds := threadStep s.1 s.2 succeeds

theorem alone_callback (p : Process) (nCode : Int) (outcomes : Outcomes) :
    ∃ succeeds, alone.run (p, .entered nCode) succeeds = some (gefApiCBTProc p nCode outcomes, .outside) := by
  by_cases other : nCode ≠ HCBT_CREATEWND ∧ nCode ≠ HCBT_ACTIVATE
  · refine ⟨[false], ?_⟩
    simp [Machine.run, alone, threadStep, gefApiCBTProc, other]
  · cases flag : p.bHooked with
    | true =>
      have same : { p with bHooked := true } = p := by rw [← flag]
      refine ⟨[false, false, false, false], ?_⟩
      simp [Machine.run, alone, threadStep, gefApiCBTProc, assignHooked, other, flag, same]
    | false =>
      cases need : isNeedToHook p with
      | false =>
        refine ⟨[false, false, false, false, false], ?_⟩
        simp [Machine.run, alone, threadStep, gefApiCBTProc, assignHooked, hookApi, other, flag, need]
      | true =>
        refine ⟨[false, false, false, false, outcomes.startDocA, outcomes.startDocW, false], ?_⟩
        simp [Machine.run, alone, threadStep, gefApiCBTProc, assignHooked, hookApi, other, flag, need]

/-- The moves of one thread in the DLL are its moves on its own. -/
theorem alone_in_dll (host : Host) {s : Dll} (attached : s.phase = .attached) (thread : Nat) {succeeds : List Bool}
    {place next : At} {q : Process} (ran : alone.run (s.process, place) succeeds = some (q, next)) :
    (dll host).run { s with threads := Function.update s.threads thread place } (succeeds.map (.moves thread)) =
      some { s with process := q, threads := Function.update s.threads thread next } := by
  induction succeeds generalizing s place with
  | nil =>
    cases ran
    rfl
  | cons succeeds rest ih =>
    obtain ⟨⟨p, there⟩, step, later⟩ := alone.run_cons_some.mp ran
    have moved : threadStep s.process place succeeds = some (p, there) := step
    rw [List.map_cons, (dll host).run_cons_some]
    refine ⟨{ s with process := p, threads := Function.update s.threads thread there }, ?_, ?_⟩
    · simp [dll, attached, moved]
    · exact ih (s := { s with process := p }) attached later

/-- A callback that no other thread interrupts does what `gefApiCBTProc` says. -/
theorem solo_callback (host : Host) {s : Dll} (attached : s.phase = .attached) {thread : Nat}
    (outside : s.threads thread = .outside) (nCode : Int) (outcomes : Outcomes) :
    ∃ succeeds : List Bool, (dll host).run s (.enters thread nCode :: succeeds.map (.moves thread)) =
      some { s with process := gefApiCBTProc s.process nCode outcomes } := by
  obtain ⟨succeeds, ran⟩ := alone_callback s.process nCode outcomes
  refine ⟨succeeds, (dll host).run_cons_some.mpr ⟨_, ?_, alone_in_dll host attached thread ran |>.trans ?_⟩⟩
  · simp [dll, attached, outside]
  · rw [← outside, Function.update_eq_self]

/-! ### No call after the attach -/

/-- Where a thread can be after the attach, by the value of `bHooked`. -/
def Harmless (hooked : Bool) : At → Prop
  | .outside => True
  | .entered _ => True
  | .reads => True
  | .readsAgain => hooked = true
  | .inHookApi => hooked = false
  | .decides => hooked = false
  | .setsStartDocA => False
  | .setsStartDocW => False
  | .assigns value => value = hooked

/-- `bHooked` is set, or the process is left alone. -/
def Settled (p : Process) : Prop := p.bHooked = false → isNeedToHook p = false

theorem settled_attached (host : Host) (outcomes : Outcomes) : Settled (attached host outcomes) := by
  intro notHooked
  by_cases exempt : Exempt host
  · rw [attached_exempt exempt, needed_iff, decide_eq_false_iff_not]
    exact not_not_intro exempt
  · rw [(hooked_attached exempt outcomes).flag] at notHooked
    cases notHooked

/-- A step of a thread after the attach changes nothing in the process. -/
theorem thread_step {p q : Process} {place next : At} {succeeds : Bool} (settled : Settled p)
    (harmless : Harmless p.bHooked place) (step : threadStep p place succeeds = some (q, next)) :
    q = p ∧ Harmless p.bHooked next := by
  cases place with
  | outside => cases step
  | entered nCode =>
    cases step
    refine ⟨rfl, ?_⟩
    split <;> trivial
  | reads =>
    cases step
    refine ⟨rfl, ?_⟩
    cases flag : p.bHooked <;> simp [Harmless]
  | readsAgain =>
    cases step
    exact ⟨rfl, rfl⟩
  | inHookApi =>
    cases step
    have flag : p.bHooked = false := harmless
    simp [flag, Harmless]
  | decides =>
    cases step
    have flag : p.bHooked = false := harmless
    simp [settled flag, flag, Harmless]
  | setsStartDocA => exact absurd harmless id
  | setsStartDocW => exact absurd harmless id
  | assigns value =>
    cases step
    have flag : value = p.bHooked := harmless
    subst flag
    exact ⟨rfl, trivial⟩

/-- The process in the phases of a run. -/
inductive Reaches (host : Host) (s : Dll) : Prop where
  | mapped (phase : s.phase = .mapped) (process : s.process = mapped)
      (threads : ∀ thread, s.threads thread = .outside)
  | attached (outcomes : Outcomes) (phase : s.phase = .attached) (process : s.process = attached host outcomes)
      (threads : ∀ thread, Harmless s.process.bHooked (s.threads thread))
  | detached (outcomes : Outcomes) (phase : s.phase = .detached)
      (process : s.process = unHookApi (attached host outcomes))

theorem reaches_of_mapped {host : Host} {s : Dll} (inv : Reaches host s) (phase : s.phase = .mapped) :
    s.process = mapped ∧ ∀ thread, s.threads thread = .outside := by
  cases inv with
  | mapped _ process threads => exact ⟨process, threads⟩
  | attached _ other _ _ => rw [phase] at other; cases other
  | detached _ other _ => rw [phase] at other; cases other

theorem reaches_of_attached {host : Host} {s : Dll} (inv : Reaches host s) (phase : s.phase = .attached) :
    ∃ outcomes, s.process = attached host outcomes ∧ ∀ thread, Harmless s.process.bHooked (s.threads thread) := by
  cases inv with
  | mapped other _ _ => rw [phase] at other; cases other
  | attached outcomes _ process threads => exact ⟨outcomes, process, threads⟩
  | detached _ other _ => rw [phase] at other; cases other

theorem reaches_of_detached {host : Host} {s : Dll} (inv : Reaches host s) (phase : s.phase = .detached) :
    ∃ outcomes, s.process = unHookApi (attached host outcomes) := by
  cases inv with
  | mapped other _ _ => rw [phase] at other; cases other
  | attached _ other _ _ => rw [phase] at other; cases other
  | detached outcomes _ process => exact ⟨outcomes, process⟩

theorem harmless_update {hooked : Bool} {threads : Nat → At} (harmless : ∀ thread, Harmless hooked (threads thread))
    (moved : Nat) {place : At} (here : Harmless hooked place) (thread : Nat) :
    Harmless hooked (Function.update threads moved place thread) := by
  by_cases same : thread = moved
  · rw [same, Function.update_self]
    exact here
  · rw [Function.update_of_ne same]
    exact harmless thread

theorem reaches_step (host : Host) (s : Dll) (event : Event) (t : Dll) (inv : Reaches host s)
    (step : (dll host).step s event = some t) : Reaches host t := by
  cases event with
  | attach outcomes =>
    obtain ⟨phase, taken⟩ := Option.ite_none_right_eq_some.mp step
    cases taken
    obtain ⟨process, outside⟩ := reaches_of_mapped inv phase
    refine .attached outcomes rfl (by rw [process]; rfl) ?_
    intro thread
    rw [outside thread]
    trivial
  | threadAttach =>
    obtain ⟨_, taken⟩ := Option.ite_none_right_eq_some.mp step
    cases taken
    exact inv
  | threadDetach =>
    obtain ⟨_, taken⟩ := Option.ite_none_right_eq_some.mp step
    cases taken
    exact inv
  | enters thread nCode =>
    obtain ⟨⟨phase, _⟩, taken⟩ := Option.ite_none_right_eq_some.mp step
    cases taken
    obtain ⟨outcomes, process, harmless⟩ := reaches_of_attached inv phase
    exact .attached outcomes phase process (harmless_update harmless thread trivial)
  | moves thread succeeds =>
    obtain ⟨phase, taken⟩ := Option.ite_none_right_eq_some.mp step
    obtain ⟨outcomes, process, harmless⟩ := reaches_of_attached inv phase
    cases moved : threadStep s.process (s.threads thread) succeeds with
    | none =>
      rw [moved] at taken
      cases taken
    | some next =>
      obtain ⟨q, place⟩ := next
      have settled : Settled s.process := process ▸ settled_attached host outcomes
      obtain ⟨rfl, here⟩ := thread_step settled (harmless thread) moved
      rw [moved] at taken
      cases taken
      exact .attached outcomes phase process (harmless_update harmless thread here)
  | detach =>
    obtain ⟨phase, taken⟩ := Option.ite_none_right_eq_some.mp step
    cases taken
    obtain ⟨outcomes, process, _⟩ := reaches_of_attached inv phase
    exact .detached outcomes rfl (by rw [← process]; rfl)

theorem reaches_run {host : Host} {events : List Event} {s : Dll} (ran : (dll host).run start events = some s) :
    Reaches host s :=
  (dll host).run_invariant (reaches_step host) (.mapped rfl rfl (fun _ => rfl)) ran

/-- The calls of `Mhook_SetHook` for a hook. -/
def callsOf (h : Fn) (p : Process) : List (Address Fn × Fn) := p.calls.filter (fun call => call.2 = h)

/-- In every run from the attach to the detach, whatever succeeds and in whatever
    order the threads move: at most one call of `Mhook_SetHook` for either
    function, never on a trampoline, none in a process that is left alone; and
    after it the pointers and the code are as they were. -/
theorem hooks_once {host : Host} {events : List Event} {s : Dll} (ran : (dll host).run start events = some s)
    (ended : s.phase = .detached) :
    ((callsOf .GefStartDocA s.process).length ≤ 1 ∧ (callsOf .GefStartDocW s.process).length ≤ 1 ∧
      ∀ call ∈ s.process.calls, ∃ f, call.1 = .function f) ∧
    (Exempt host → s.process.calls = []) ∧
    s.process.g_pfnStartDocA = start.process.g_pfnStartDocA ∧
    s.process.g_pfnStartDocW = start.process.g_pfnStartDocW ∧
    s.process.space.entry = start.process.space.entry := by
  obtain ⟨outcomes, process⟩ := reaches_of_detached (reaches_run ran) ended
  have calls : s.process.calls = (attached host outcomes).calls := by rw [process]; rfl
  by_cases exempt : Exempt host
  · have none : s.process.calls = [] := by
      rw [calls, attached_exempt exempt]
      rfl
    refine ⟨⟨by simp [callsOf, none], by simp [callsOf, none], by simp [none]⟩, fun _ => none, ?_⟩
    rw [process, attached_exempt exempt]
    exact ⟨rfl, rfl, rfl⟩
  · have hooked := hooked_attached exempt outcomes
    have both := calls.trans hooked.calls
    obtain ⟨pointerA, pointerW, entry⟩ := unHookApi_kept hooked.kept
    refine ⟨⟨?_, ?_, ?_⟩, fun left => absurd left exempt, ?_⟩
    · simp [callsOf, both]
    · simp [callsOf, both]
    · intro call member
      rw [both] at member
      rcases List.mem_cons.mp member with rfl | second
      · exact ⟨_, rfl⟩
      · rw [List.mem_singleton.mp second]
        exact ⟨_, rfl⟩
    · rw [process]
      exact ⟨pointerA, pointerW, entry⟩

/-- Two threads enter the procedure at once, and one is still inside at the detach. -/
private def twoThreads : List Event :=
  [.attach ⟨true, false⟩, .enters 0 3, .threadAttach, .enters 1 5, .moves 0 true, .moves 1 true, .moves 1 true,
    .moves 0 true, .moves 0 true, .threadDetach, .moves 0 true, .detach]

theorem hooks_once_notepad :
    ∃ s, (dll notepad).run start twoThreads = some s ∧ s.phase = .detached ∧
      (callsOf .GefStartDocA s.process).length ≤ 1 ∧ (callsOf .GefStartDocW s.process).length ≤ 1 := by
  have enabled : (((dll notepad).run start twoThreads).map Dll.phase) = some .detached := by decide
  obtain ⟨s, ran, ended⟩ := Option.map_eq_some_iff.mp enabled
  obtain ⟨⟨startDocA, startDocW, _⟩, _⟩ := hooks_once ran ended
  exact ⟨s, ran, ended, startDocA, startDocW⟩

end WinMiniTools.HookThreads
