import WinMiniTools.MhookHooked

/-!
The calls of `mhook-lib`, from the pointers passed on. A call of `Mhook_SetHook` that
returns true makes the processor run the hook wherever the function is called
(`hooked_runs`), and what the pointer is set to behaves as the function did
(`trampoline_runs`); it returns true exactly if the function can be moved, the table
has room, memory is found in reach and both stretches can be written to, and
otherwise leaves everything as it was (`set_hook_succeeds_iff`). `Mhook_Unhook` then
puts back what was there, unless the jump is longer than what was saved
(`unhook_restores_iff`).
-/
namespace WinMiniTools.MhookCalls
open WinMiniTools.Words WinMiniTools.AddressSpaces WinMiniTools.Processors WinMiniTools.Loops WinMiniTools.MhookJumps
  WinMiniTools.MhookCode WinMiniTools.MhookAlloc WinMiniTools.Mhook WinMiniTools.MhookHooked WinMiniTools.Slots
universe u

variable {w : Nat} {Data : Type u} {mode : Mode w} {disassembler : Disassembler w} {c : Circumstances w}
  {p q : Process w} {ptr hook f h t : BitVec w} {r : Skipped}

theorem mhook_SetHook_found (system : skipJumps mode p.mem c.depth ptr = some f)
    (target : skipJumps mode p.mem c.depth hook = some h) :
    mhook_SetHook mode disassembler c p ptr hook = some (setHook mode disassembler c p ptr f h) := by
  rw [mhook_SetHook, system, target]

/-! ### A function on x64 -/

/-- `rax`, and the words that instructions load from memory. -/
structure Registers where
  rax : BitVec 64
  words : BitVec 64 → BitVec 64

/-- The first bytes of `mov rax, [rip+imm32]`. -/
def IsLoad (code : Space 64) (a : BitVec 64) : Prop :=
  code a = 0x48 ∧ code (a + 1#64) = 0x8b ∧ code (a + 2#64) = 0x05
instance (code : Space 64) (a : BitVec 64) : Decidable (IsLoad code a) := inferInstanceAs (Decidable (_ ∧ _))

theorem isLoad_plain {code : Space 64} {a : BitVec 64} (isLoad : IsLoad code a) : jump .x64 code a = none := by
  obtain ⟨first, second, -⟩ := isLoad
  simp [jump, first, second]

theorem isLoad_congr {code other : Space 64} {a b : BitVec 64}
    (same : ∀ i, i < 3 → other (b + BitVec.ofNat 64 i) = code (a + BitVec.ofNat 64 i)) (isLoad : IsLoad code a) :
    IsLoad other b := by
  obtain ⟨first, second, third⟩ := isLoad
  refine ⟨?_, ?_, ?_⟩
  · rw [← first]
    simpa using same 0 (by omega)
  · rw [← second]
    exact same 1 (by omega)
  · rw [← third]
    exact same 2 (by omega)

/-- A processor that knows this instruction only. -/
def loadProcessor : Processor 64 Registers where
  mode := .x64
  size code a := if IsLoad code a then some 7 else none
  exec bytes a d := { d with rax := d.words (a + 7#64 + (ofBytes 32 ((bytes.drop 3).take 4)).signExtend 64) }
  known := by
    intro code other a b n size same
    split at size
    · rename_i isLoad
      cases size
      have there : IsLoad other b := isLoad_congr (fun i below => (agree_of_read same (by omega)).symm) isLoad
      exact ⟨if_pos there, fun _ => isLoad_plain there⟩
    · cases size

/-- What the disassembler says of it. -/
def loadInstruction (mem : Space 64) (a : BitVec 64) : Instruction where
  length := 7
  type := .mov
  relative := true
  operandSize := 8
  displacement := (distance mem (a + 3#64)).toInt
  operands := [{ ipRel := false, rip := false }, { ipRel := true, rip := true }]
  positive := by omega
  bounded := by omega

def loadDisassembler : Disassembler 64 := fun mem a => if IsLoad mem a then some (loadInstruction mem a) else none

def loadCode : Space 64 := fun x =>
  if x = 0x7ff600001000 then 0x48 else if x = 0x7ff600001001 then 0x8b else if x = 0x7ff600001002 then 0x05
  else if x = 0x7ff600001003 then 0x00 else if x = 0x7ff600001004 then 0x10 else if x = 0x7ff600001005 then 0x00
  else if x = 0x7ff600001006 then 0x00 else 0xcc

/-- A process without hooks. -/
def loadProcess : Process 64 where
  mem := loadCode
  protection _ := PAGE_EXECUTE_READ
  hooks := noHooks
  threads := MhookThreads.running

/-- The two gigabytes below the function are free. -/
def loadManager : MemoryManager 64 where
  virtualQuery a :=
    if inside : 0x7ff580012000 ≤ a.toNat ∧ a.toNat < 0x7ff600000000 then
      some
        { baseAddress := 0x7ff580012000
          regionSize := 0x7ffee000
          memFree := true
          low := inside.1
          high := inside.2
          top := by decide }
    else none
  virtualAlloc t := t = 0x7ff580020000
  dwAllocationGranularity := 0x10000

def loadCircumstances : Circumstances 64 where
  depth := 1
  mm := loadManager
  env := MhookThreads.twoThreads
  protectsSystem := true
  protectsTrampoline := true

/-- What is skipped of the function. -/
def loadSkipped : Skipped where
  dwRet := 7
  pdata := { nLimitUp := 0x1000, nLimitDown := 0, rips := [{ dwOffset := 3, nDisplacement := 0x1000 }] }

/-- The instruction names what lies 4096 bytes behind it. -/
def LoadsAt (mem : Space 64) (a : BitVec 64) : Prop := IsLoad mem a ∧ distance mem (a + 3#64) = 0x1000#64
instance (mem : Space 64) (a : BitVec 64) : Decidable (LoadsAt mem a) := inferInstanceAs (Decidable (_ ∧ _))

theorem loadCode_loads : LoadsAt loadCode 0x7ff600001000 := by decide +kernel

section
variable {mem : Space 64} {a : BitVec 64}

theorem loadSkip_body (loads : LoadsAt mem a) : (skipLoop .x64 (loadDisassembler mem) a MHOOK_JMPSIZE).body start =
    ([(0, loadInstruction mem a)], .inl loadSkipped) := by
  have decoded : loadDisassembler mem (a + BitVec.ofNat 64 start.dwRet) = some (loadInstruction mem a) := by
    rw [show a + BitVec.ofNat 64 start.dwRet = a from BitVec.add_zero a]
    exact if_pos loads.1
  have named : (loadInstruction mem a).displacement = 0x1000 := by
    simp only [loadInstruction, loads.2]
    decide
  have first : ¬ MHOOK_JMPSIZE ≤ start.dwRet := by simp [start, MHOOK_JMPSIZE]
  have on : (loadInstruction mem a).type ∉ stops := by simp [loadInstruction, stops]
  have treated : treatment .x64 (loadInstruction mem a) = .processRip := rfl
  simp only [skipLoop]
  rw [skipBody, if_neg first, decoded]
  dsimp only
  rw [if_neg on, treated, named]
  rfl

theorem loadSkip_done (mem : Space 64) (a : BitVec 64) :
    (skipLoop .x64 (loadDisassembler mem) a MHOOK_JMPSIZE).body loadSkipped = ([], .inr loadSkipped) := by
  have enough : MHOOK_JMPSIZE ≤ loadSkipped.dwRet := by simp [loadSkipped, MHOOK_JMPSIZE]
  simp only [skipLoop]
  rw [skipBody, if_pos enough]

theorem loadSkip_result (loads : LoadsAt mem a) :
    disassembleAndSkip .x64 (loadDisassembler mem) a MHOOK_JMPSIZE = loadSkipped :=
  (Loop.result_next _ (loadSkip_body loads)).trans (Loop.result_leave _ (loadSkip_done mem a))

theorem loadSkip_events (loads : LoadsAt mem a) :
    (skipLoop .x64 (loadDisassembler mem) a MHOOK_JMPSIZE).events start = [(0, loadInstruction mem a)] := by
  rw [Loop.events_next _ (loadSkip_body loads), Loop.events_leave _ (loadSkip_done mem a)]
  rfl

theorem load_sane {c : Circumstances 64} {p : Process 64} (loads : LoadsAt p.mem a) (nonzero : a ≠ 0)
    (inside : a.toNat + 0x1000 < 2 ^ 64) (granularity : c.mm.dwAllocationGranularity = 0x10000)
    (free : ∀ t, c.mm.virtualAlloc t = true → Apart t (layout .x64).sizeof a 7)
    (fresh : ∀ t, c.mm.virtualAlloc t = true → t ∉ live p.hooks) :
    Sane .x64 loadDisassembler c p a loadSkipped := by
  refine ⟨loadSkip_result loads, nonzero, ?_, ?_, ?_, ?_, granularity, free, fresh⟩
  · simp only [loadSkipped]
    omega
  · intro v member _
    rw [loadSkip_events loads] at member
    cases List.mem_singleton.mp member
    exact Nat.le_refl _
  · simp only [loadSkipped]
    omega
  · simp only [loadSkipped]
    exact_mod_cast inside
end

theorem loadProcess_sane : Sane .x64 loadDisassembler loadCircumstances loadProcess 0x7ff600001000 loadSkipped := by
  refine load_sane loadCode_loads (by decide) (by decide) rfl ?_ ?_
  · intro t given
    have same : t = 0x7ff580020000 := of_decide_eq_true given
    subst same
    exact apart_below (by decide) (by decide)
  · intro t _
    rw [show loadProcess.hooks = noHooks from rfl, live_noHooks]
    exact List.not_mem_nil

/-- The hook is somewhere far away. -/
theorem loadProcess_hooks : ∃ q, mhook_SetHook .x64 loadDisassembler loadCircumstances loadProcess 0x7ff600001000 0x10000000 =
    some (q, 0x7ff580020038, true) := by
  have done : (mhook_SetHook .x64 loadDisassembler loadCircumstances loadProcess 0x7ff600001000 0x10000000).map
      (fun done => done.2) = some (0x7ff580020038, true) := by decide +kernel
  obtain ⟨⟨q, result⟩, called, rfl⟩ := Option.map_eq_some_iff.mp done
  exact ⟨q, called⟩

/-! ### Success and failure -/

/-- `Mhook_SetHook` returns true exactly if five bytes can be moved, fewer than 64
    hooks are in use, memory is found in reach, and the function and the trampoline
    can be made writable; the table then has one trampoline more. If it returns
    false, the pointer and the table are as they were, and so is all memory but the
    block that was given back. -/
theorem set_hook_succeeds_iff (system : skipJumps mode p.mem c.depth ptr = some f)
    (target : skipJumps mode p.mem c.depth hook = some h) (sound : Sound p.hooks)
    (fresh : ∀ t, c.mm.virtualAlloc t = true → t ∉ live p.hooks) (nonzero : f ≠ 0)
    (skipped : disassembleAndSkip mode (disassembler p.mem) f MHOOK_JMPSIZE = r) :
    ∃ q ptr' done, mhook_SetHook mode disassembler c p ptr hook = some (q, ptr', done) ∧
      (done = true ↔ MHOOK_JMPSIZE ≤ r.dwRet ∧ p.hooks.g_nHooksInUse < MHOOKS_MAX_SUPPORTED_HOOKS ∧
        (search mode c.mm f r.pdata.nLimitUp r.pdata.nLimitDown).isSome ∧ c.protectsSystem = true ∧
        c.protectsTrampoline = true) ∧
      (done = true → ∃ t, search mode c.mm f r.pdata.nLimitUp r.pdata.nLimitDown = some t ∧
        ptr' = codeTrampoline mode t ∧ Sound q.hooks ∧ (live q.hooks).Perm (t :: live p.hooks)) ∧
      (done = false → ptr' = ptr ∧ q.hooks = p.hooks ∧
        ∀ x, (∀ t, search mode c.mm f r.pdata.nLimitUp r.pdata.nLimitDown = some t → ¬ Within t (layout mode).sizeof x) →
          q.mem x = p.mem x) := by
  have cases := setHook_cases disassembler ptr h sound fresh nonzero skipped
  rw [mhook_SetHook_found system target]
  generalize setHook mode disassembler c p ptr f h = called at cases ⊢
  obtain ⟨q, ptr', done⟩ := called
  refine ⟨q, ptr', done, rfl, ?_⟩
  dsimp only at cases
  rcases cases with ⟨why, mem, hooks, result⟩ | ⟨t, found, unprotected, mem, hooks, result⟩ |
    ⟨enough, protects, protects', t, slots, found, puts, mem, hooks, result⟩
  · obtain ⟨rfl, rfl⟩ := Prod.mk.inj result
    refine ⟨⟨nofun, ?_⟩, nofun, fun _ => ⟨rfl, hooks, fun x _ => by rw [mem]⟩⟩
    rintro ⟨enough, room, found, -, -⟩
    rw [sound.counted] at room
    rcases why with short | full | none
    · omega
    · omega
    · rw [none] at found
      cases found
  · obtain ⟨rfl, rfl⟩ := Prod.mk.inj result
    refine ⟨⟨nofun, ?_⟩, nofun, fun _ => ⟨rfl, hooks, ?_⟩⟩
    · rintro ⟨-, -, -, protects, protects'⟩
      rw [protects, protects'] at unprotected
      cases unprotected
    · intro x outside
      rw [mem, cleared_outside (outside t found)]
  · obtain ⟨rfl, rfl⟩ := Prod.mk.inj result
    have room := (put_isSome_iff t p.hooks.g_pHooks).mp (by rw [puts]; rfl)
    rw [sound.slots, ← sound.counted] at room
    refine ⟨⟨fun _ => ⟨enough, room, by rw [found]; rfl, protects, protects'⟩, fun _ => rfl⟩, fun _ => ?_,
      nofun⟩
    rw [hooks]
    exact ⟨t, found, rfl, sound_put sound (fresh t (search_found found).1) puts, put_perm puts⟩

/-- A hook that is set while no other is. -/
theorem set_hook_succeeds_iff_load : ∃ q ptr' done,
    mhook_SetHook .x64 loadDisassembler loadCircumstances loadProcess 0x7ff600001000 0x10000000 = some (q, ptr', done) ∧
      (done = true ↔ 5 ≤ 7 ∧ 0 < 64 ∧ (search .x64 loadManager 0x7ff600001000 0x1000 0).isSome ∧ true = true ∧
        true = true) ∧
      (done = true → ∃ t, search .x64 loadManager 0x7ff600001000 0x1000 0 = some t ∧ ptr' = codeTrampoline .x64 t ∧
        Sound q.hooks ∧ (live q.hooks).Perm (t :: live noHooks)) ∧
      (done = false → ptr' = 0x7ff600001000 ∧ q.hooks = noHooks ∧
        ∀ x, (∀ t, search .x64 loadManager 0x7ff600001000 0x1000 0 = some t → ¬ Within t (layout .x64).sizeof x) →
          q.mem x = loadCode x) :=
  set_hook_succeeds_iff (c := loadCircumstances) (p := loadProcess) (h := 0x10000000) (by decide +kernel)
    (by decide +kernel) sound_noHooks loadProcess_sane.fresh (by decide) (loadSkip_result loadCode_loads)

/-! ### Memory in reach -/

theorem trampolineAlloc_found {mm : MemoryManager w} {hooks : HookTable w} {up down : Int}
    (given : (trampolineAlloc mode mm hooks f up down).2 = some t) : search mode mm f up down = some t := by
  rw [trampolineAlloc] at given
  split at given
  · cases found : search mode mm f up down with
    | none =>
      rw [found] at given
      cases given
    | some u =>
      rw [found] at given
      dsimp only at given
      split at given <;> exact given
  · cases given

/-- Whatever the system says of its memory, the block that is allocated lies in reach
    of the function and of everything that the code moved names, so each displacement
    noted still fits in 32 bits after the fix-up; the code is to name no address beyond
    the ends of the address space. -/
theorem displacements_fit {mm : MemoryManager 64} (granularity : mm.dwAllocationGranularity = 0x10000)
    (getInstruction : BitVec 64 → Option Instruction) {f t : BitVec 64} (hooks : HookTable 64)
    (low : 0 ≤ f.toNat + (disassembleAndSkip .x64 getInstruction f MHOOK_JMPSIZE).pdata.nLimitDown)
    (high : f.toNat + (disassembleAndSkip .x64 getInstruction f MHOOK_JMPSIZE).pdata.nLimitUp < 2 ^ 64)
    (given : (trampolineAlloc .x64 mm hooks f (disassembleAndSkip .x64 getInstruction f MHOOK_JMPSIZE).pdata.nLimitUp
      (disassembleAndSkip .x64 getInstruction f MHOOK_JMPSIZE).pdata.nLimitDown).2 = some t) :
    (f.toNat ≤ t.toNat + 0x7fff0000 ∧ t.toNat < f.toNat + 0x7ff90000) ∧
      ∀ rip ∈ (disassembleAndSkip .x64 getInstruction f MHOOK_JMPSIZE).pdata.rips,
        -2147483648 ≤ rip.nDisplacement - (codeTrampoline .x64 t - f).toInt ∧
          rip.nDisplacement - (codeTrampoline .x64 t - f).toInt < 2147483648 := by
  obtain ⟨-, down, up, rips, same, within⟩ := result_grows .x64 getInstruction f MHOOK_JMPSIZE start
  have bound := result_bound .x64 getInstruction f MHOOK_JMPSIZE start
  rw [← disassembleAndSkip] at down up same within bound
  generalize disassembleAndSkip .x64 getInstruction f MHOOK_JMPSIZE = r at *
  simp only [start, MHOOK_JMPSIZE] at down up bound same
  obtain ⟨behind, before, above, below⟩ := search_near granularity up down low high (trampolineAlloc_found given)
  have trampoline : (codeTrampoline .x64 t).toNat = t.toNat + 56 := toNat_offset (by simp only [layout]; omega)
  refine ⟨by omega, fun rip member => ?_⟩
  rw [same, List.nil_append] at member
  obtain ⟨-, last, limits⟩ := within rip member
  rw [toInt_sub_near (by omega) (by omega), trampoline]
  push_cast
  omega

theorem displacements_fit_load :
    ((0x7ff600001000 : BitVec 64).toNat ≤ (0x7ff580020000 : BitVec 64).toNat + 0x7fff0000 ∧
      (0x7ff580020000 : BitVec 64).toNat < (0x7ff600001000 : BitVec 64).toNat + 0x7ff90000) ∧
      ∀ rip ∈ (disassembleAndSkip .x64 (loadDisassembler loadCode) 0x7ff600001000 MHOOK_JMPSIZE).pdata.rips,
        -2147483648 ≤ rip.nDisplacement - (codeTrampoline .x64 0x7ff580020000 - 0x7ff600001000#64).toInt ∧
          rip.nDisplacement - (codeTrampoline .x64 0x7ff580020000 - 0x7ff600001000#64).toInt < 2147483648 :=
  displacements_fit (show loadManager.dwAllocationGranularity = 0x10000 from rfl) (loadDisassembler loadCode) noHooks (by decide +kernel) (by decide +kernel)
    (by decide +kernel)

/-! ### The hook and the trampoline -/

/-- After a call that returns true, the processor that arrives at the function goes on
    at the hook with the data that the caller passed, whatever the distance; only the
    five bytes of the jump, or fourteen for a hook on the edge, and the block allocated
    have changed. -/
theorem hooked_runs {P : Processor w Data} {ptr' : BitVec w} (system : skipJumps P.mode p.mem c.depth ptr = some f)
    (target : skipJumps P.mode p.mem c.depth hook = some h) (sound : Sound p.hooks)
    (sane : Sane P.mode disassembler c p f r)
    (wide : Edge f h → ∀ t, c.mm.virtualAlloc t = true → Apart t (layout P.mode).sizeof f 14)
    (called : mhook_SetHook P.mode disassembler c p ptr hook = some (q, ptr', true)) :
    (∀ d, Reaches P q.mem (f, d) (h, d)) ∧
      ∃ t, c.mm.virtualAlloc t = true ∧ ptr' = codeTrampoline P.mode t ∧
        ∀ x, ¬ Within t (layout P.mode).sizeof x → ¬ Within f 5 x → ¬ (Edge f h ∧ Within f 14 x) →
          q.mem x = p.mem x := by
  rw [mhook_SetHook_found system target] at called
  rcases setHook_spec ptr sane sound wide with
    ⟨result, _⟩ | ⟨t, slots, given, placed, puts, result, hooks, installed⟩
  · rw [Option.some.inj called] at result
    cases result
  · rw [Option.some.inj called] at result installed
    refine ⟨installed_runs installed, t, given, congrArg Prod.fst result, fun x outside short long => ?_⟩
    refine installed.frame x outside (fun here => ?_)
    exact (within_api placed here).elim short long

theorem hooked_runs_load : ∃ q,
    mhook_SetHook .x64 loadDisassembler loadCircumstances loadProcess 0x7ff600001000 0x10000000 =
        some (q, 0x7ff580020038, true) ∧
      (∀ d, Reaches loadProcessor q.mem (0x7ff600001000, d) (0x10000000, d)) ∧
      ∃ t, loadManager.virtualAlloc t = true ∧ 0x7ff580020038 = codeTrampoline .x64 t ∧
        ∀ x, ¬ Within t (layout .x64).sizeof x → ¬ Within 0x7ff600001000 5 x →
          ¬ (Edge 0x7ff600001000#64 0x10000000#64 ∧ Within 0x7ff600001000 14 x) → q.mem x = loadCode x := by
  obtain ⟨q, called⟩ := loadProcess_hooks
  exact ⟨q, called, hooked_runs (P := loadProcessor) (by decide +kernel) (by decide +kernel) sound_noHooks
    loadProcess_sane (fun edge => absurd edge (by decide)) called⟩

/-- The jump over a function takes more bytes than were saved, and changes one of
    them. -/
def Spills (mode : Mode w) (mem : Space w) (f target : BitVec w) (n : Nat) : Prop :=
  ∃ i b, n ≤ i ∧ (jumpCode mode f target)[i]? = some b ∧ b ≠ mem (f + BitVec.ofNat w i)

/-- The code written back after a hook was installed. -/
theorem restored_iff {before after : Space w} {n : Nat} (target : BitVec w) (few : n ≤ 19)
    (api : Contains after f (jumpCode mode f target))
    (frame : ∀ x, ¬ Within t (layout mode).sizeof x → ¬ Within f (jumpCode mode f target).length x → after x = before x)
    (apart : Apart t (layout mode).sizeof f (jumpCode mode f target).length) :
    (∀ x, ¬ Within t (layout mode).sizeof x → write after f (read before f n) x = before x) ↔
      ¬ Spills mode before f target n := by
  have room := mode.room
  have short := jumpCode_length_le mode f target
  constructor
  · rintro restored ⟨i, b, behind, jump, other⟩
    obtain ⟨inside, rfl⟩ := List.getElem?_eq_some_iff.mp jump
    have away : ¬ Within t (layout mode).sizeof (f + BitVec.ofNat w i) :=
      fun there => apart _ there (within_offset f inside)
    have unsaved : ¬ Within f n (f + BitVec.ofNat w i) := by
      rw [Within, sub_of_offset f (by omega)]
      omega
    have written := restored _ away
    rw [write_outside (by rwa [read_length]), ← read_getElem after f (by simpa using inside)] at written
    exact other (by rw [← written]; simp only [show read after f _ = jumpCode mode f target from api])
  · intro kept x away
    by_cases saved : Within f n x
    · obtain ⟨i, inside, rfl⟩ := offset_of_within saved
      rw [write_offset f (by rwa [read_length]) (by rw [read_length]; omega), read_getElem]
    · rw [write_outside (by rwa [read_length])]
      by_cases here : Within f (jumpCode mode f target).length x
      · obtain ⟨i, inside, rfl⟩ := offset_of_within here
        have behind : n ≤ i := by
          rw [Within, sub_of_offset f (by omega)] at saved
          omega
        have same : after (f + BitVec.ofNat w i) = (jumpCode mode f target)[i] := by
          rw [← read_getElem after f (by simpa using inside)]
          simp only [show read after f _ = jumpCode mode f target from api]
        rw [same]
        by_contra other
        exact kept ⟨i, _, behind, List.getElem?_eq_getElem inside, other⟩
      · exact frame x away here

/-- A hook on the edge is jumped to without the trampoline. -/
theorem apiTarget_edge (edge : Edge f h) : apiTarget mode f h t = h := by
  obtain ⟨near, _⟩ := edge
  have := f.isLt
  rw [apiTarget, if_neg]
  rw [far_iff mode]
  omega

/-- `Mhook_Unhook` after `Mhook_SetHook` returns the pointer to the function and the
    table to what it was, slot by slot. It restores all code, unless the hook lies on
    the edge and the long jump to it changed bytes behind those that were saved. -/
theorem unhook_restores_iff {ptr' : BitVec w} {c' : Circumstances w}
    (system : skipJumps mode p.mem c.depth ptr = some f) (target : skipJumps mode p.mem c.depth hook = some h)
    (sound : Sound p.hooks) (sane : Sane mode disassembler c p f r)
    (wide : Edge f h → ∀ t, c.mm.virtualAlloc t = true → Apart t (layout mode).sizeof f 14)
    (called : mhook_SetHook mode disassembler c p ptr hook = some (q, ptr', true))
    (protects : c'.protectsSystem = true) :
    (mhook_Unhook mode c' q ptr').2 = (f, true) ∧ (mhook_Unhook mode c' q ptr').1.hooks = p.hooks ∧
      ∃ t, c.mm.virtualAlloc t = true ∧ ptr' = codeTrampoline mode t ∧
        ((∀ x, ¬ Within t (layout mode).sizeof x → (mhook_Unhook mode c' q ptr').1.mem x = p.mem x) ↔
          ¬ (Edge f h ∧ Spills mode p.mem f h r.dwRet)) := by
  rw [mhook_SetHook_found system target] at called
  rcases setHook_spec ptr sane sound wide with
    ⟨result, _⟩ | ⟨t, slots, given, placed, puts, result, hooks, installed⟩
  · rw [Option.some.inj called] at result
    cases result
  · rw [Option.some.inj called] at result hooks installed
    obtain ⟨rfl, -⟩ := Prod.mk.inj result
    dsimp only at hooks installed
    have fresh := sane.fresh t given
    have member : t ∈ live q.hooks := by
      rw [hooks]
      exact (put_perm puts).mem_iff.mpr (List.mem_cons_self ..)
    obtain ⟨done, mem, free⟩ := unhook_live mode member protects
    have few := placed.few
    have untouched : Apart (codeUntouched mode t) r.dwRet f r.dwRet := by
      have fits := (layout_ordered mode).untouched
      simp only [MHOOKS_MAX_CODE_BYTES] at fits
      exact apart_part placed.apart (by omega)
    rw [installed.system] at done mem
    rw [installed.overwritten, restoreCode_eq untouched few, installed.untouched] at mem
    rw [hooks, free_put fresh puts] at free
    refine ⟨done, free, t, given, rfl, ?_⟩
    rw [mem, restored_iff (apiTarget mode f h t) few installed.api installed.frame (api_apart placed wide given)]
    refine not_congr ⟨?_, ?_⟩
    · intro spills
      by_cases edge : Edge f h
      · rw [apiTarget_edge edge] at spills
        exact ⟨edge, spills⟩
      · obtain ⟨i, b, behind, jump, -⟩ := spills
        have inside := (List.getElem?_eq_some_iff.mp jump).1
        have short := apiLength_short placed edge
        rw [apiLength] at short
        have := placed.enough
        omega
    · rintro ⟨edge, spills⟩
      rwa [apiTarget_edge edge]

/-- A hook on the edge of `mov rax, [rip+imm32]`, with seven bytes of fourteen saved. -/
theorem unhook_restores_iff_load : ∃ q,
    mhook_SetHook .x64 loadDisassembler loadCircumstances loadProcess 0x7ff600001000 0x7ff580011000 =
        some (q, 0x7ff580020038, true) ∧
      (mhook_Unhook .x64 loadCircumstances q 0x7ff580020038).2 = (0x7ff600001000, true) ∧
      (mhook_Unhook .x64 loadCircumstances q 0x7ff580020038).1.hooks = noHooks ∧
      ∃ t, loadManager.virtualAlloc t = true ∧ 0x7ff580020038 = codeTrampoline .x64 t ∧
        ¬ ∀ x, ¬ Within t (layout .x64).sizeof x →
          (mhook_Unhook .x64 loadCircumstances q 0x7ff580020038).1.mem x = loadCode x := by
  have done : (mhook_SetHook .x64 loadDisassembler loadCircumstances loadProcess 0x7ff600001000 0x7ff580011000).map
      (fun done => done.2) = some (0x7ff580020038, true) := by decide +kernel
  obtain ⟨⟨q, result⟩, called, rfl⟩ := Option.map_eq_some_iff.mp done
  have wide : ∀ t, loadManager.virtualAlloc t = true → Apart t (layout .x64).sizeof 0x7ff600001000 14 := by
    intro t given
    have same : t = 0x7ff580020000 := of_decide_eq_true given
    subst same
    exact apart_below (by decide) (by decide)
  have spills : Spills .x64 loadCode 0x7ff600001000 0x7ff580011000 7 :=
    ⟨7, 0x10, Nat.le_refl _, by decide +kernel, by decide +kernel⟩
  obtain ⟨result, hooks, t, given, leads, restored⟩ := unhook_restores_iff (h := 0x7ff580011000) (by decide +kernel)
    (by decide +kernel) sound_noHooks loadProcess_sane (fun _ => wide) called
    (show loadCircumstances.protectsSystem = true from rfl)
  exact ⟨q, called, result, hooks, t, given, leads, fun all => restored.mp all ⟨by decide, spills⟩⟩

/-! ### Pages -/

/-- All pages of a stretch have the protection of the first one. -/
def Uniform (protection : BitVec w → Nat) (a : BitVec w) (n : Nat) : Prop :=
  ∀ x, onPages a n x = true → protection x = protection a

theorem onPages_iff (a : BitVec w) (n : Nat) (x : BitVec w) :
    onPages a n x = true ↔ ∃ i, i < n ∧ (a + BitVec.ofNat w i).toNat / 4096 = x.toNat / 4096 := by
  simp [onPages]

theorem onPages_first {n : Nat} (some' : 0 < n) (a : BitVec w) : onPages a n a = true := by
  rw [onPages_iff]
  exact ⟨0, some', by simp⟩

/-- The protections after the code is set, if the trampoline has pages of its own. -/
theorem setCode_protection {n : Nat} (r : Skipped) (some' : 0 < n) (length : r.dwRet = n) (p : Process w)
    (apart : ∀ x, onPages t (layout mode).sizeof x = true → onPages f n x = false) (x : BitVec w) :
    (setCode mode c f h t r p).protection x =
      if onPages f n x then p.protection f
      else if c.protectsTrampoline = true ∧ onPages t (layout mode).sizeof x = true then p.protection t
      else p.protection x := by
  have positive : 0 < (layout mode).sizeof := by cases mode <;> simp [layout]
  have own := apart t (onPages_first positive t)
  subst length
  by_cases here : onPages f r.dwRet x = true
  · cases protects : c.protectsTrampoline <;> simp [setCode, virtualProtect, protects, here]
  · have here : onPages f r.dwRet x = false := by simpa using here
    cases protects : c.protectsTrampoline with
    | false => simp [setCode, virtualProtect, protects, here]
    | true =>
      simp only [setCode, virtualProtect, protects, here, own, if_true, Bool.false_eq_true, if_false, true_and]
      split <;> rfl

/-- A block of one protection keeps it. -/
theorem setCode_uniform {n : Nat} (r : Skipped) (some' : 0 < n) (length : r.dwRet = n) (p : Process w)
    (apart : ∀ x, onPages t (layout mode).sizeof x = true → onPages f n x = false)
    (uniform : Uniform p.protection t (layout mode).sizeof) (x : BitVec w) :
    (setCode mode c f h t r p).protection x = if onPages f n x then p.protection f else p.protection x := by
  rw [setCode_protection r some' length p apart]
  by_cases block : c.protectsTrampoline = true ∧ onPages t (layout mode).sizeof x = true
  · rw [if_pos block, uniform x block.2]
  · rw [if_neg block]

/-- The protections after a trampoline was used: its pages are given back if it is not
    kept. -/
theorem useTrampoline_protection {n : Nat} (ptr h : BitVec w) (some' : 0 < n) (length : r.dwRet = n) (p : Process w)
    (listed : t ∈ live p.hooks)
    (apart : ∀ x, onPages t (layout mode).sizeof x = true → onPages f n x = false) (x : BitVec w) :
    (useTrampoline mode c ptr f h r p t).1.protection x =
      if onPages t (layout mode).sizeof x then
        if (useTrampoline mode c ptr f h r p t).2.2 then PAGE_EXECUTE_READ else PAGE_NOACCESS
      else if c.protectsSystem = true ∧ onPages f n x = true then p.protection f else p.protection x := by
  have positive : 0 < (layout mode).sizeof := by cases mode <;> simp [layout]
  have first := onPages_first positive t
  have other : onPages t (layout mode).sizeof f = false := by
    by_contra block
    have none := apart f (by simpa using block)
    rw [onPages_first some' f] at none
    cases none
  obtain ⟨allocated, fresh⟩ : ∃ allocated : Process w, allocated =
      { p with
        mem := write p.mem t (List.replicate (layout mode).sizeof 0)
        protection := (virtualProtect p.protection t (layout mode).sizeof PAGE_EXECUTE_READ).1 } := ⟨_, rfl⟩
  obtain ⟨set, written⟩ : ∃ set, set = if c.protectsSystem then setCode mode c f h t r allocated else allocated := ⟨_, rfl⟩
  have hooks : set.hooks = p.hooks := by
    rw [written, fresh]
    split
    · exact setCode_hooks ..
    · rfl
  have given : ∀ x, allocated.protection x =
      if onPages t (layout mode).sizeof x then PAGE_EXECUTE_READ else p.protection x := by
    rw [fresh]
    exact fun x => rfl
  have uniform : Uniform allocated.protection t (layout mode).sizeof := by
    intro x block
    rw [given, given, if_pos block, if_pos first]
  have read : ∀ x, set.protection x =
      if onPages t (layout mode).sizeof x then PAGE_EXECUTE_READ
      else if c.protectsSystem = true ∧ onPages f n x = true then p.protection f else p.protection x := by
    intro x
    rw [written]
    by_cases protects : c.protectsSystem = true
    · rw [if_pos protects, setCode_uniform r some' length allocated apart uniform, given, given, other]
      by_cases block : onPages t (layout mode).sizeof x = true
      · simp [block, apart x block]
      · simp [block, protects]
    · rw [if_neg protects, given]
      simp [protects]
  have used : useTrampoline mode c ptr f h r p t =
      if pSystemFunctionOf set.mem t ≠ 0 then (set, codeTrampoline mode t, true)
      else (trampolineFree mode set t true, ptr, false) := by
    rw [written, fresh]
    rfl
  rw [used]
  by_cases kept : pSystemFunctionOf set.mem t ≠ 0
  · rw [if_pos kept]
    exact read x
  · rw [if_neg kept]
    dsimp only
    rw [trampolineFree_protection mode set t (by rwa [hooks]), virtualFree, read]
    split <;> simp_all

/-- What a call of `Mhook_SetHook` does to the protections. Where it got a trampoline,
    the pages of the block can be read and executed but not written to if it returns
    true, and are given back if it returns false. All other pages are as before, unless
    those of the function were of different protections and were made writable. -/
theorem protections_kept_iff (system : skipJumps mode p.mem c.depth ptr = some f)
    (target : skipJumps mode p.mem c.depth hook = some h) (sound : Sound p.hooks)
    (skipped : disassembleAndSkip mode (disassembler p.mem) f MHOOK_JMPSIZE = r)
    (pages : ∀ t, c.mm.virtualAlloc t = true → ∀ x, onPages t (layout mode).sizeof x = true → onPages f r.dwRet x = false) :
    ∃ q ptr' done, mhook_SetHook mode disassembler c p ptr hook = some (q, ptr', done) ∧
      (∀ t, 5 ≤ r.dwRet → (trampolineAlloc mode c.mm p.hooks f r.pdata.nLimitUp r.pdata.nLimitDown).2 = some t →
        (∀ x, onPages t (layout mode).sizeof x = true →
          q.protection x = if done then PAGE_EXECUTE_READ else PAGE_NOACCESS) ∧
        ((∀ x, onPages t (layout mode).sizeof x = false → q.protection x = p.protection x) ↔
          (c.protectsSystem = true → Uniform p.protection f r.dwRet))) ∧
      (r.dwRet < 5 ∨ (trampolineAlloc mode c.mm p.hooks f r.pdata.nLimitUp r.pdata.nLimitDown).2 = none →
        q.protection = p.protection) := by
  obtain ⟨q, ptr', done, called⟩ : ∃ q ptr' done, setHook mode disassembler c p ptr f h = (q, ptr', done) := ⟨_, _, _, rfl⟩
  refine ⟨q, ptr', done, by rw [mhook_SetHook_found system target, called], ?_⟩
  rw [setHook, skipped] at called
  by_cases enough : MHOOK_JMPSIZE ≤ r.dwRet
  · rw [if_pos enough] at called
    dsimp only at called
    simp only [MHOOK_JMPSIZE] at enough
    rcases trampolineAlloc_cases mode c.mm sound f r.pdata.nLimitUp r.pdata.nLimitDown with
      ⟨alloc, _⟩ | ⟨t, slots, found, puts, alloc⟩
    · rw [alloc] at called ⊢
      cases called
      exact ⟨fun t _ some' => (by cases some'), fun _ => rfl⟩
    · rw [alloc] at called ⊢
      have apart := pages t (search_found found).1
      have listed : t ∈ live { g_pHooks := slots, g_nHooksInUse := p.hooks.g_nHooksInUse + 1 } :=
        (put_perm puts).mem_iff.mpr List.mem_cons_self
      have read := useTrampoline_protection (c := c) ptr h (show 0 < r.dwRet by omega) rfl
        { p with
          threads := (MhookThreads.suspendOtherThreads c.env f r.dwRet p.threads).1
          hooks := { g_pHooks := slots, g_nHooksInUse := p.hooks.g_nHooksInUse + 1 } } listed apart
      obtain ⟨rfl, result⟩ := Prod.mk.inj called
      rw [congrArg Prod.snd result] at read
      refine ⟨fun t' _ same => ?_, fun no => ?_⟩
      · cases same
        refine ⟨fun x block => (read x).trans (if_pos block), ?_, ?_⟩
        · intro kept protects x here
          have away : ¬ onPages t (layout mode).sizeof x = true := by
            intro block
            rw [apart x block] at here
            cases here
          have same := (read x).symm.trans (kept x (by simpa using away))
          rw [if_neg away, if_pos ⟨protects, here⟩] at same
          exact same.symm
        · intro uniform x away
          refine (read x).trans ?_
          rw [if_neg (by simp [away])]
          split
          · rename_i both
            exact (uniform both.1 x both.2).symm
          · rfl
      · rcases no with short | none
        · omega
        · cases none
  · rw [if_neg enough] at called
    simp only [MHOOK_JMPSIZE] at enough
    cases called
    exact ⟨fun t more => absurd more (by omega), fun _ => rfl⟩

theorem protections_kept_iff_load : ∃ q ptr' done,
    mhook_SetHook .x64 loadDisassembler loadCircumstances loadProcess 0x7ff600001000 0x10000000 = some (q, ptr', done) ∧
      (∀ t, 5 ≤ 7 → (trampolineAlloc .x64 loadManager noHooks 0x7ff600001000 0x1000 0).2 = some t →
        (∀ x, onPages t (layout .x64).sizeof x = true → q.protection x = if done then PAGE_EXECUTE_READ else PAGE_NOACCESS) ∧
        ((∀ x, onPages t (layout .x64).sizeof x = false → q.protection x = PAGE_EXECUTE_READ) ↔
          (true = true → Uniform loadProcess.protection 0x7ff600001000 7))) ∧
      (7 < 5 ∨ (trampolineAlloc .x64 loadManager noHooks 0x7ff600001000 0x1000 0).2 = none →
        q.protection = loadProcess.protection) := by
  refine protections_kept_iff (c := loadCircumstances) (p := loadProcess) (h := 0x10000000) (by decide +kernel)
    (by decide +kernel) sound_noHooks (loadSkip_result loadCode_loads) ?_
  intro t given x block
  have same : t = 0x7ff580020000 := of_decide_eq_true given
  subst same
  obtain ⟨i, inside, page⟩ := (onPages_iff _ _ _).mp block
  rw [← Bool.not_eq_true, onPages_iff]
  rintro ⟨j, inside', page'⟩
  have here : (0x7ff580020000 : BitVec 64).toNat = 0x7ff580020000 := rfl
  have there : (0x7ff600001000 : BitVec 64).toNat = 0x7ff600001000 := rfl
  simp only [layout, loadSkipped] at inside inside'
  rw [toNat_offset (by omega)] at page page'
  omega

end WinMiniTools.MhookCalls
