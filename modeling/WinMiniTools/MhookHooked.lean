import WinMiniTools.Mhook

/-!
What `Mhook_SetHook` and `Mhook_Unhook` do to the code and to the table. A hook that is
set is installed in every detail, and one that is not set leaves the code, the table
and the pointer as they were (`setHook_spec`). The processor goes from a function
that is hooked to the hook (`installed_runs`), and from the trampoline on as it did
from the function (`installed_trampoline`).
-/
namespace WinMiniTools.MhookHooked
open WinMiniTools.Words WinMiniTools.AddressSpaces WinMiniTools.Processors WinMiniTools.MhookJumps
  WinMiniTools.MhookCode WinMiniTools.MhookAlloc WinMiniTools.Mhook WinMiniTools.Slots
open WinMiniTools.MhookThreads (suspendOtherThreads resumeOtherThreads)
universe u

variable {w : Nat} {Data : Type u} {mode : Mode w} {disassembler : Disassembler w} {c : Circumstances w}
  {p : Process w} {ptr f h t : BitVec w}

/-- The memory of a trampoline that was just allocated. -/
def cleared (mode : Mode w) (mem : Space w) (t : BitVec w) : Space w :=
  write mem t (List.replicate (layout mode).sizeof 0)

theorem cleared_outside {mem : Space w} {x : BitVec w} (outside : ¬ Within t (layout mode).sizeof x) :
    cleared mode mem t x = mem x :=
  write_outside (by rwa [List.length_replicate])

/-- A trampoline that nothing was written to has no system function. -/
theorem system_cleared (mode : Mode w) (mem : Space w) (t : BitVec w) : pSystemFunctionOf (cleared mode mem t) t = 0 := by
  obtain ⟨system, overwritten, hook, _, _, trampoline, untouched, whole⟩ := layout_ordered mode
  have := mode.room
  obtain ⟨more, size⟩ := Nat.exists_eq_add_of_le (show w / 8 ≤ (layout mode).sizeof by omega)
  have zeros : read (cleared mode mem t) t (layout mode).sizeof = List.replicate (layout mode).sizeof 0 := by
    have same : read (cleared mode mem t) t (List.replicate (layout mode).sizeof (0 : Byte)).length =
        List.replicate (layout mode).sizeof 0 := read_write (by rw [List.length_replicate]; omega)
    rwa [List.length_replicate] at same
  rw [size, read_add, List.replicate_add] at zeros
  have front := (List.append_inj zeros (by simp)).1
  rw [pSystemFunctionOf, load, front, ofBytes, List.map_replicate]
  simp

/-- The threads after a call that looks at `n` bytes from `f` on. -/
def after (c : Circumstances w) (p : Process w) (f : BitVec w) (n : Nat) : MhookThreads.State :=
  resumeOtherThreads (suspendOtherThreads c.env f n p.threads).1

theorem setCode_mem (r : Skipped) (p : Process w) : (setCode mode c f h t r p).mem =
    if c.protectsTrampoline then installCode mode f h t r p.mem else p.mem := by
  rw [setCode]
  split <;> rfl

theorem setCode_hooks (r : Skipped) (p : Process w) : (setCode mode c f h t r p).hooks = p.hooks := by
  rw [setCode]
  split <;> rfl

theorem setCode_threads (r : Skipped) (p : Process w) : (setCode mode c f h t r p).threads = p.threads := by
  rw [setCode]
  split <;> rfl

/-- A trampoline is given back, or has its code installed. -/
theorem useTrampoline_cases (mode : Mode w) (c : Circumstances w) (ptr h t : BitVec w) (nonzero : f ≠ 0) (r : Skipped)
    (p : Process w) :
    ((c.protectsSystem && c.protectsTrampoline) = false ∧
      (useTrampoline mode c ptr f h r p t).1.mem = cleared mode p.mem t ∧
      (useTrampoline mode c ptr f h r p t).1.hooks = emptySlot p.hooks t ∧
      (useTrampoline mode c ptr f h r p t).2 = (ptr, false)) ∨
    (c.protectsSystem = true ∧ c.protectsTrampoline = true ∧
      (useTrampoline mode c ptr f h r p t).1.mem = installCode mode f h t r (cleared mode p.mem t) ∧
      (useTrampoline mode c ptr f h r p t).1.hooks = p.hooks ∧
      (useTrampoline mode c ptr f h r p t).2 = (codeTrampoline mode t, true)) := by
  have empty := system_cleared mode p.mem t
  rw [cleared] at empty
  cases system : c.protectsSystem with
  | false =>
    left
    simp only [useTrampoline, system, Bool.false_eq_true, if_false, empty, ne_eq, not_true, trampolineFree_mem,
      trampolineFree_hooks]
    exact ⟨rfl, rfl, trivial, trivial⟩
  | true =>
    cases trampoline : c.protectsTrampoline with
    | false =>
      left
      simp only [useTrampoline, system, trampoline, setCode_mem, setCode_hooks, Bool.false_eq_true, if_true, if_false,
        empty, ne_eq, not_true, trampolineFree_mem, trampolineFree_hooks]
      exact ⟨rfl, rfl, trivial, trivial⟩
    | true =>
      right
      have installed : pSystemFunctionOf (installCode mode f h t r (cleared mode p.mem t)) t ≠ 0 := by
        rw [installCode, updateMembers_system]
        exact nonzero
      rw [cleared] at installed
      simp only [useTrampoline, system, trampoline, setCode_mem, setCode_hooks, if_true, installed, ne_eq,
        not_false_eq_true]
      exact ⟨trivial, trivial, rfl, trivial, trivial⟩

theorem useTrampoline_threads (r : Skipped) (p : Process w) :
    (useTrampoline mode c ptr f h r p t).1.threads = p.threads := by
  rw [useTrampoline]
  split
  · split
    · exact setCode_threads r _
    · exact (trampolineFree_threads ..).trans (setCode_threads r _)
  · split
    · rfl
    · exact trampolineFree_threads ..

/-- `Mhook_SetHook` gives up before it has a trampoline, or after it got one, or it
    installs the hook. -/
theorem setHook_cases (disassembler : Disassembler w) (ptr h : BitVec w) (sound : Sound p.hooks)
    (fresh : ∀ t, c.mm.virtualAlloc t = true → t ∉ live p.hooks) (nonzero : f ≠ 0) {r : Skipped}
    (skipped : disassembleAndSkip mode (disassembler p.mem) f MHOOK_JMPSIZE = r) :
    ((r.dwRet < MHOOK_JMPSIZE ∨ used p.hooks.g_pHooks = MHOOKS_MAX_SUPPORTED_HOOKS ∨
        search mode c.mm f r.pdata.nLimitUp r.pdata.nLimitDown = none) ∧
      (setHook mode disassembler c p ptr f h).1.mem = p.mem ∧ (setHook mode disassembler c p ptr f h).1.hooks = p.hooks ∧
      (setHook mode disassembler c p ptr f h).2 = (ptr, false)) ∨
    (∃ t, search mode c.mm f r.pdata.nLimitUp r.pdata.nLimitDown = some t ∧
      (c.protectsSystem && c.protectsTrampoline) = false ∧
      (setHook mode disassembler c p ptr f h).1.mem = cleared mode p.mem t ∧
      (setHook mode disassembler c p ptr f h).1.hooks = p.hooks ∧
      (setHook mode disassembler c p ptr f h).2 = (ptr, false)) ∨
    (MHOOK_JMPSIZE ≤ r.dwRet ∧ c.protectsSystem = true ∧ c.protectsTrampoline = true ∧
      ∃ t slots, search mode c.mm f r.pdata.nLimitUp r.pdata.nLimitDown = some t ∧
        put t p.hooks.g_pHooks = some slots ∧
        (setHook mode disassembler c p ptr f h).1.mem = installCode mode f h t r (cleared mode p.mem t) ∧
        (setHook mode disassembler c p ptr f h).1.hooks =
          { g_pHooks := slots, g_nHooksInUse := p.hooks.g_nHooksInUse + 1 } ∧
        (setHook mode disassembler c p ptr f h).2 = (codeTrampoline mode t, true)) := by
  rw [setHook, skipped]
  by_cases enough : MHOOK_JMPSIZE ≤ r.dwRet
  · rw [if_pos enough]
    dsimp only
    rcases trampolineAlloc_cases mode c.mm sound f r.pdata.nLimitUp r.pdata.nLimitDown with
      ⟨alloc, why⟩ | ⟨t, slots, found, puts, alloc⟩
    · rw [alloc]
      exact .inl ⟨.inr why, rfl, rfl, rfl⟩
    · rw [alloc]
      dsimp only
      rcases useTrampoline_cases mode c ptr h t nonzero r
        { p with
          threads := (suspendOtherThreads c.env f r.dwRet p.threads).1
          hooks := { g_pHooks := slots, g_nHooksInUse := p.hooks.g_nHooksInUse + 1 } } with
        ⟨unprotected, mem, hooks, result⟩ | ⟨system, trampoline, mem, hooks, result⟩
      · rw [free_put (fresh t (search_found found).1) puts] at hooks
        exact .inr (.inl ⟨t, found, unprotected, mem, hooks, result⟩)
      · exact .inr (.inr ⟨enough, system, trampoline, t, slots, found, puts, mem, hooks, result⟩)
  · rw [if_neg enough]
    exact .inl ⟨.inl (Nat.lt_of_not_le enough), rfl, rfl, rfl⟩

/-- What happens to the threads does not depend on what becomes of the hook. -/
theorem setHook_threads (disassembler : Disassembler w) (ptr h : BitVec w) {r : Skipped}
    (skipped : disassembleAndSkip mode (disassembler p.mem) f MHOOK_JMPSIZE = r) :
    (setHook mode disassembler c p ptr f h).1.threads =
      if MHOOK_JMPSIZE ≤ r.dwRet then after c p f r.dwRet else p.threads := by
  rw [setHook, skipped]
  split
  · dsimp only
    cases (trampolineAlloc mode c.mm p.hooks f r.pdata.nLimitUp r.pdata.nLimitDown).2 with
    | none => rfl
    | some t =>
      dsimp only
      rw [useTrampoline_threads]
      rfl
  · rfl

/-! ### A hook that is set -/

/-- What `Mhook_SetHook` takes for granted when it hooks the code at `f`: there is code
    and not the end of the address space behind it, its displacements are those of
    instructions with three bytes before them and name addresses, and memory that
    is allocated was free. -/
structure Sane (mode : Mode w) (disassembler : Disassembler w) (c : Circumstances w) (p : Process w) (f : BitVec w)
    (r : Skipped) : Prop where
  skipped : disassembleAndSkip mode (disassembler p.mem) f MHOOK_JMPSIZE = r
  nonzero : f ≠ 0
  inside : f.toNat + r.dwRet < 2 ^ w
  room : ∀ v ∈ (skipLoop mode (disassembler p.mem) f MHOOK_JMPSIZE).events start,
    treatment mode v.2 = .processRip → 7 ≤ v.2.length
  low : 0 ≤ f.toNat + r.pdata.nLimitDown
  high : f.toNat + r.pdata.nLimitUp < 2 ^ w
  granularity : c.mm.dwAllocationGranularity = 0x10000
  free : ∀ t, c.mm.virtualAlloc t = true → Apart t (layout mode).sizeof f r.dwRet
  fresh : ∀ t, c.mm.virtualAlloc t = true → t ∉ live p.hooks

theorem sane_grows {r : Skipped} (sane : Sane mode disassembler c p f r) : Grows start r := by
  have grows := result_grows mode (disassembler p.mem) f MHOOK_JMPSIZE start
  rwa [← disassembleAndSkip, sane.skipped] at grows

/-- The trampoline is placed within reach. -/
theorem sane_near {r : Skipped} (sane : Sane mode disassembler c p f r)
    (found : search mode c.mm f r.pdata.nLimitUp r.pdata.nLimitDown = some t) :
    Near f r.pdata.nLimitUp r.pdata.nLimitDown t :=
  have grows := sane_grows sane
  search_near sane.granularity grows.up grows.down sane.low sane.high found

theorem sane_placed {r : Skipped} (sane : Sane mode disassembler c p f r) (enough : MHOOK_JMPSIZE ≤ r.dwRet)
    (found : search mode c.mm f r.pdata.nLimitUp r.pdata.nLimitDown = some t) : Placed mode f t r.dwRet := by
  have grows := sane_grows sane
  have down : r.pdata.nLimitDown ≤ 0 := grows.down
  have up : 0 ≤ r.pdata.nLimitUp := grows.up
  have bound := result_bound mode (disassembler p.mem) f MHOOK_JMPSIZE start
  rw [← disassembleAndSkip, sane.skipped] at bound
  obtain ⟨behind, before, above, below⟩ := sane_near sane found
  refine ⟨enough, ?_, sane.free t (search_found found).1, by omega, by omega, below, sane.inside⟩
  simp only [start, MHOOK_JMPSIZE] at bound
  omega

/-- A distance of less than two gigabytes is the same with a sign. -/
theorem toInt_sub_near {a b : BitVec 64} (low : b.toNat ≤ a.toNat + 0x7fffffff) (high : a.toNat ≤ b.toNat + 0x7fffffff) :
    (a - b).toInt = a.toNat - b.toNat := by
  have := a.isLt
  have := b.isLt
  rw [BitVec.toInt_eq_toNat_cond, BitVec.toNat_sub]
  split <;> omega

/-- Every displacement noted can be changed to name the same address from the
    trampoline. -/
theorem sane_noted {r : Skipped} (sane : Sane mode disassembler c p f r) (enough : MHOOK_JMPSIZE ≤ r.dwRet)
    (found : search mode c.mm f r.pdata.nLimitUp r.pdata.nLimitDown = some t) :
    r.pdata.rips = [] ∨ w = 64 ∧ ∃ rip, r.pdata.rips = [rip] ∧ Fits f (codeTrampoline mode t) r rip := by
  have placed := sane_placed sane enough found
  obtain ⟨behind, before, above, below⟩ := sane_near sane found
  have five : MHOOK_JMPSIZE ≤ 7 := by simp [MHOOK_JMPSIZE]
  have noted := result_rips mode (disassembler p.mem) f five (s := start) rfl sane.room
  rw [← disassembleAndSkip, sane.skipped] at noted
  rcases noted with none | ⟨v, member, treated, length, one⟩
  · exact .inl none
  · right
    obtain ⟨-, below₀, above₀, later⟩ := sane_grows sane
    have down : r.pdata.nLimitDown ≤ 0 := below₀
    have up : 0 ≤ r.pdata.nLimitUp := above₀
    have room := sane.room v member treated
    have few := placed.few
    obtain ⟨rips, same, within⟩ := later
    rw [one] at same
    have limits := within _ (by rw [← List.nil_append rips]; exact same ▸ List.mem_singleton.mpr rfl)
    cases mode with
    | x86 => cases treated
    | x64 =>
      refine ⟨rfl, _, one, by dsimp only; omega, ?_⟩
      have trampoline : (codeTrampoline .x64 t).toNat = t.toNat + 56 := member_toNat placed (by simp [layout])
      dsimp only at limits ⊢
      rw [toInt_sub_near (by omega) (by omega), trampoline]
      push_cast
      omega

theorem apiLength_short {n : Nat} (placed : Placed mode f t n) (edge : ¬ Edge f h) : apiLength mode f h t = 5 :=
  jumpCode_length_short ((api_short_iff placed).mpr edge)

/-- The memory that was cleared for the trampoline does not matter. -/
theorem installed_cleared {r : Skipped} {mem after : Space w} (apart : Apart t (layout mode).sizeof f r.dwRet)
    (installed : Installed mode (cleared mode mem t) after f h t r) : Installed mode mem after f h t r := by
  have same : ∀ x, Within f r.dwRet x → cleared mode mem t x = mem x :=
    fun x within => cleared_outside (apart_symm apart x within)
  obtain ⟨api, stub, moved, back, untouched, system, hook, overwritten, frame⟩ := installed
  refine ⟨api, stub, ⟨?_, moved.fields⟩, back, untouched.trans (read_congr same), system, hook, overwritten, ?_⟩
  · intro i inside outside
    rw [moved.agree i inside outside, same _ (within_offset f inside)]
  · intro x away other
    rw [frame x away other, cleared_outside away]

/-- The jump over the function takes five bytes, or up to fourteen if the hook lies on
    the edge. -/
theorem within_api {n : Nat} (placed : Placed mode f t n) {x : BitVec w} (within : Within f (apiLength mode f h t) x) :
    Within f 5 x ∨ Edge f h ∧ Within f 14 x := by
  by_cases edge : Edge f h
  · exact .inr ⟨edge, within_mono (jumpCode_length_le _ _ _) within⟩
  · rw [apiLength_short placed edge] at within
    exact .inl within

/-- It stays in the code saved, unless the hook lies on the edge: then there has to be
    room for the long jump. -/
theorem api_apart {n : Nat} (placed : Placed mode f t n)
    (wide : Edge f h → ∀ t, c.mm.virtualAlloc t = true → Apart t (layout mode).sizeof f 14)
    (given : c.mm.virtualAlloc t = true) : Apart t (layout mode).sizeof f (apiLength mode f h t) := by
  intro x there here
  rcases within_api placed here with short | ⟨edge, long⟩
  · exact placed.apart x there (within_mono placed.enough short)
  · exact wide edge t given x there long

/-- `Mhook_SetHook` returns true exactly with the hook installed, and false with the
    code, the table and the pointer as they were. -/
theorem setHook_spec {r : Skipped} (ptr : BitVec w) (sane : Sane mode disassembler c p f r) (sound : Sound p.hooks)
    (wide : Edge f h → ∀ t, c.mm.virtualAlloc t = true → Apart t (layout mode).sizeof f 14) :
    ((setHook mode disassembler c p ptr f h).2 = (ptr, false) ∧
      (setHook mode disassembler c p ptr f h).1.hooks = p.hooks ∧
      ((setHook mode disassembler c p ptr f h).1.mem = p.mem ∨
        ∃ t, c.mm.virtualAlloc t = true ∧ (setHook mode disassembler c p ptr f h).1.mem = cleared mode p.mem t)) ∨
    ∃ t slots, c.mm.virtualAlloc t = true ∧ Placed mode f t r.dwRet ∧ put t p.hooks.g_pHooks = some slots ∧
      (setHook mode disassembler c p ptr f h).2 = (codeTrampoline mode t, true) ∧
      (setHook mode disassembler c p ptr f h).1.hooks =
        { g_pHooks := slots, g_nHooksInUse := p.hooks.g_nHooksInUse + 1 } ∧
      Installed mode p.mem (setHook mode disassembler c p ptr f h).1.mem f h t r := by
  rcases setHook_cases disassembler ptr h sound sane.fresh sane.nonzero sane.skipped with
    ⟨_, mem, hooks, result⟩ | ⟨t, found, _, mem, hooks, result⟩ |
    ⟨enough, _, _, t, slots, found, puts, mem, hooks, result⟩
  · exact .inl ⟨result, hooks, .inl mem⟩
  · exact .inl ⟨result, hooks, .inr ⟨t, (search_found found).1, mem⟩⟩
  · right
    have placed := sane_placed sane enough found
    have given := (search_found found).1
    have installed := installCode_installed placed (api_apart placed wide given) (sane_noted sane enough found)
      (cleared mode p.mem t)
    rw [← mem] at installed
    exact ⟨t, slots, given, placed, puts, result, hooks, installed_cleared placed.apart installed⟩

/-- `Mhook_Unhook` returns true with the code put back and the trampoline freed, and
    false with everything as it was. -/
theorem unhook_spec (mode : Mode w) (c : Circumstances w) (p : Process w) (ptr : BitVec w) :
    ((mhook_Unhook mode c p ptr).2 = (ptr, false) ∧ (mhook_Unhook mode c p ptr).1.mem = p.mem ∧
      (mhook_Unhook mode c p ptr).1.hooks = p.hooks) ∨
    ∃ t, t ∈ live p.hooks ∧ codeTrampoline mode t = ptr ∧ c.protectsSystem = true ∧
      (mhook_Unhook mode c p ptr).2 = (pSystemFunctionOf p.mem t, true) ∧
      (mhook_Unhook mode c p ptr).1.mem =
        restoreCode mode (pSystemFunctionOf p.mem t) t (cbOverwrittenCodeOf mode p.mem t) p.mem ∧
      (mhook_Unhook mode c p ptr).1.hooks = emptySlot p.hooks t := by
  rw [mhook_Unhook]
  cases found : trampolineGet mode p.hooks ptr with
  | none => exact .inl ⟨rfl, rfl, rfl⟩
  | some t =>
    obtain ⟨member, leads⟩ := (trampolineGet_eq_some mode).mp found
    cases system : c.protectsSystem with
    | false => exact .inl ⟨rfl, rfl, rfl⟩
    | true => exact .inr ⟨t, member, leads, rfl, rfl, trampolineFree_mem .., trampolineFree_hooks ..⟩

/-- A trampoline in use is unhooked if its function can be made writable. -/
theorem unhook_live (mode : Mode w) (member : t ∈ live p.hooks) (protects : c.protectsSystem = true) :
    (mhook_Unhook mode c p (codeTrampoline mode t)).2 = (pSystemFunctionOf p.mem t, true) ∧
      (mhook_Unhook mode c p (codeTrampoline mode t)).1.mem =
        restoreCode mode (pSystemFunctionOf p.mem t) t (cbOverwrittenCodeOf mode p.mem t) p.mem ∧
      (mhook_Unhook mode c p (codeTrampoline mode t)).1.hooks = emptySlot p.hooks t := by
  have found : trampolineGet mode p.hooks (codeTrampoline mode t) = some t :=
    (trampolineGet_eq_some mode).mpr ⟨member, rfl⟩
  rw [mhook_Unhook, found]
  simp only [protects, if_true]
  exact ⟨trivial, trampolineFree_mem .., trampolineFree_hooks ..⟩

theorem unhook_threads (mode : Mode w) (c : Circumstances w) (p : Process w) (ptr : BitVec w) :
    (mhook_Unhook mode c p ptr).1.threads =
      match trampolineGet mode p.hooks ptr with
      | none => p.threads
      | some t => after c p (pSystemFunctionOf p.mem t) (cbOverwrittenCodeOf mode p.mem t) := by
  rw [mhook_Unhook]
  cases trampolineGet mode p.hooks ptr with
  | none => rfl
  | some t =>
    dsimp only
    split
    · exact congrArg resumeOtherThreads (trampolineFree_threads ..)
    · rfl

/-! ### What the processor does -/

/-- Calls of the function arrive at the hook, with the data that the caller passed. -/
theorem installed_runs {P : Processor w Data} {r : Skipped} {before after : Space w}
    (installed : Installed P.mode before after f h t r) (d : Data) : Reaches P after (f, d) (h, d) := by
  rcases installed.stub with direct | ⟨far, stub⟩
  · have api := jumpCode_jumps installed.api
    rw [direct] at api
    exact reaches_jump P api d
  · have api := jumpCode_jumps installed.api
    rw [far] at api
    exact (reaches_jump P api d).trans (reaches_jump P (jumpCode_jumps stub) d)

end WinMiniTools.MhookHooked
