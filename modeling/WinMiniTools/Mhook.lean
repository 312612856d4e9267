import WinMiniTools.MhookAlloc
import WinMiniTools.MhookCode
import WinMiniTools.MhookThreads

/-!
`Mhook_SetHook` and `Mhook_Unhook`, byte by byte. A function is hooked by writing a
jump over its first instructions, which a trampoline keeps twice: as they were,
and moved, with a jump to the rest of the function behind them.
-/
namespace WinMiniTools.Mhook
open WinMiniTools.Words WinMiniTools.AddressSpaces WinMiniTools.Processors WinMiniTools.MhookJumps
  WinMiniTools.MhookCode WinMiniTools.MhookAlloc WinMiniTools.Slots
open WinMiniTools.MhookThreads (Environment suspendOtherThreads resumeOtherThreads)

variable {w : Nat}

/-- Free pages cannot be accessed. -/
def PAGE_NOACCESS : Nat := 0x01
def PAGE_EXECUTE_READ : Nat := 0x20
def PAGE_EXECUTE_READWRITE : Nat := 0x40

/-- The memory of the process, the protection of the page of each address, the
    table of hooks and the threads. -/
structure Process (w : Nat) where
  mem : Space w
  protection : BitVec w → Nat
  hooks : HookTable w
  threads : MhookThreads.State

/-- What a call meets: how deep the stack is, the memory manager, the threads of the
    system, and whether either of its first calls of `VirtualProtect` succeeds. -/
structure Circumstances (w : Nat) where
  depth : Nat
  mm : MemoryManager w
  env : Environment w
  protectsSystem : Bool
  protectsTrampoline : Bool

/-- The disassembler, which reads the memory from an address on. -/
abbrev Disassembler (w : Nat) := Space w → BitVec w → Option Instruction

/-! ### Pages -/

/-- Some page of the stretch is the page of `x`. -/
def onPages (a : BitVec w) (n : Nat) (x : BitVec w) : Bool :=
  (List.range n).any (fun i => (a + BitVec.ofNat w i).toNat / 4096 == x.toNat / 4096)

/-- `VirtualProtect` sets the protection of all pages of a stretch, and tells that of
    the first one before. -/
def virtualProtect (protection : BitVec w → Nat) (a : BitVec w) (n new : Nat) : (BitVec w → Nat) × Nat :=
  (fun x => if onPages a n x then new else protection x, protection a)

/-- `VirtualFree` with `MEM_RELEASE`, for a block of so many bytes: its pages are free again. -/
def virtualFree (protection : BitVec w → Nat) (a : BitVec w) (n : Nat) : BitVec w → Nat :=
  fun x => if onPages a n x then PAGE_NOACCESS else protection x

/-! ### Writing code -/

/-- Saves the original code, in the trampoline function and untouched. -/
def copyCode (mode : Mode w) (pSystemFunction pTrampoline : BitVec w) (dwInstructionLength : Nat) (mem : Space w) :
    Space w :=
  (List.range dwInstructionLength).foldl
    (fun mem i =>
      let b := mem (pSystemFunction + BitVec.ofNat w i)
      write (write mem (codeTrampoline mode pTrampoline + BitVec.ofNat w i) [b])
        (codeUntouched mode pTrampoline + BitVec.ofNat w i) [b])
    mem

/-- Creates the trampoline function: the original code, a jump to its continuation,
    and the fix-up. -/
def createTrampoline (mode : Mode w) (pSystemFunction pTrampoline : BitVec w) (skipped : Skipped) (mem : Space w) :
    Space w :=
  let mem := copyCode mode pSystemFunction pTrampoline skipped.dwRet mem
  let pbCode := codeTrampoline mode pTrampoline + BitVec.ofNat w skipped.dwRet
  let mem := (emitJump mode mem pbCode (pSystemFunction + BitVec.ofNat w skipped.dwRet)).1
  fixupIPRelativeAddressing mode mem (codeTrampoline mode pTrampoline) pSystemFunction skipped.pdata

/-- The distance of the hook from the function. -/
def dwDistance (pSystemFunction pHookFunction : BitVec w) : BitVec w :=
  if pHookFunction < pSystemFunction then pSystemFunction - pHookFunction else pHookFunction - pSystemFunction

/-- The jump over the function: by way of the trampoline if the hook is far away. -/
def updateApi (mode : Mode w) (pSystemFunction pHookFunction pTrampoline : BitVec w) (mem : Space w) : Space w :=
  if 0x7fff0000#w < dwDistance pSystemFunction pHookFunction then
    let mem := (emitJump mode mem (codeJumpToHookFunction mode pTrampoline) pHookFunction).1
    (emitJump mode mem pSystemFunction (codeJumpToHookFunction mode pTrampoline)).1
  else (emitJump mode mem pSystemFunction pHookFunction).1

/-- The data members of the trampoline. -/
def updateMembers (mode : Mode w) (pSystemFunction pHookFunction pTrampoline : BitVec w) (dwInstructionLength : Nat)
    (mem : Space w) : Space w :=
  let mem := write mem (pTrampoline + BitVec.ofNat w (layout mode).cbOverwrittenCode)
    (wordBytes 4 (BitVec.ofNat 32 dwInstructionLength))
  let mem := write mem pTrampoline (wordBytes (w / 8) pSystemFunction)
  write mem (pTrampoline + BitVec.ofNat w (layout mode).pHookFunction) (wordBytes (w / 8) pHookFunction)

/-- What `Mhook_SetHook` writes once both pieces of memory are writable. -/
def installCode (mode : Mode w) (pSystemFunction pHookFunction pTrampoline : BitVec w) (skipped : Skipped)
    (mem : Space w) : Space w :=
  let mem := createTrampoline mode pSystemFunction pTrampoline skipped mem
  let mem := updateApi mode pSystemFunction pHookFunction pTrampoline mem
  updateMembers mode pSystemFunction pHookFunction pTrampoline skipped.dwRet mem

/-- The members of a trampoline, as they stand in memory. -/
def pSystemFunctionOf (mem : Space w) (pTrampoline : BitVec w) : BitVec w := load w (w / 8) mem pTrampoline
def pHookFunctionOf (mode : Mode w) (mem : Space w) (pTrampoline : BitVec w) : BitVec w :=
  load w (w / 8) mem (pTrampoline + BitVec.ofNat w (layout mode).pHookFunction)
def cbOverwrittenCodeOf (mode : Mode w) (mem : Space w) (pTrampoline : BitVec w) : Nat :=
  (load 32 4 mem (pTrampoline + BitVec.ofNat w (layout mode).cbOverwrittenCode)).toNat

/-! ### The calls -/

/-- `TrampolineFree`: only a block that was never used is given back. -/
def trampolineFree (mode : Mode w) (p : Process w) (pTrampoline : BitVec w) (bNeverUsed : Bool) : Process w :=
  match remove pTrampoline p.hooks.g_pHooks with
  | none => p
  | some g_pHooks =>
    { p with
      hooks := { g_pHooks := g_pHooks, g_nHooksInUse := p.hooks.g_nHooksInUse - 1 }
      protection := if bNeverUsed then virtualFree p.protection pTrampoline (layout mode).sizeof else p.protection }

/-- The part of `Mhook_SetHook` between the two calls of `VirtualProtect` for the
    system function; `VirtualAlloc` has filled the trampoline with zeros. -/
def setCode (mode : Mode w) (c : Circumstances w) (pSystemFunction pHookFunction pTrampoline : BitVec w)
    (skipped : Skipped) (p : Process w) : Process w :=
  let system := virtualProtect p.protection pSystemFunction skipped.dwRet PAGE_EXECUTE_READWRITE
  let p := { p with protection := system.1 }
  let p :=
    if c.protectsTrampoline then
      let trampoline := virtualProtect p.protection pTrampoline (layout mode).sizeof PAGE_EXECUTE_READWRITE
      let p := { p with protection := trampoline.1 }
      let p := { p with mem := installCode mode pSystemFunction pHookFunction pTrampoline skipped p.mem }
      { p with protection := (virtualProtect p.protection pTrampoline (layout mode).sizeof trampoline.2).1 }
    else p
  { p with protection := (virtualProtect p.protection pSystemFunction skipped.dwRet system.2).1 }

/-- The part of `Mhook_SetHook` that has a trampoline: the process, the pointer and
    the result. -/
def useTrampoline (mode : Mode w) (c : Circumstances w) (ppSystemFunction pSystemFunction pHookFunction : BitVec w)
    (skipped : Skipped) (p : Process w) (pTrampoline : BitVec w) : Process w × BitVec w × Bool :=
  let p :=
    { p with
      mem := write p.mem pTrampoline (List.replicate (layout mode).sizeof 0)
      protection := (virtualProtect p.protection pTrampoline (layout mode).sizeof PAGE_EXECUTE_READ).1 }
  let p := if c.protectsSystem then setCode mode c pSystemFunction pHookFunction pTrampoline skipped p else p
  if pSystemFunctionOf p.mem pTrampoline ≠ 0 then (p, codeTrampoline mode pTrampoline, true)
  else (trampolineFree mode p pTrampoline true, ppSystemFunction, false)

/-- `Mhook_SetHook` after `SkipJumps`. -/
def setHook (mode : Mode w) (disassembler : Disassembler w) (c : Circumstances w) (p : Process w)
    (ppSystemFunction pSystemFunction pHookFunction : BitVec w) : Process w × BitVec w × Bool :=
  let skipped := disassembleAndSkip mode (disassembler p.mem) pSystemFunction MHOOK_JMPSIZE
  if MHOOK_JMPSIZE ≤ skipped.dwRet then
    let p := { p with threads := (suspendOtherThreads c.env pSystemFunction skipped.dwRet p.threads).1 }
    let alloc := trampolineAlloc mode c.mm p.hooks pSystemFunction skipped.pdata.nLimitUp skipped.pdata.nLimitDown
    let p := { p with hooks := alloc.1 }
    let done :=
      match alloc.2 with
      | none => (p, ppSystemFunction, false)
      | some pTrampoline =>
        useTrampoline mode c ppSystemFunction pSystemFunction pHookFunction skipped p pTrampoline
    ({ done.1 with threads := resumeOtherThreads done.1.threads }, done.2)
  else (p, ppSystemFunction, false)

/-- `Mhook_SetHook`, if the stack is deep enough for `SkipJumps`: the process, what
    the pointer is set to, and the result. -/
def mhook_SetHook (mode : Mode w) (disassembler : Disassembler w) (c : Circumstances w) (p : Process w)
    (ppSystemFunction pHookFunction : BitVec w) : Option (Process w × BitVec w × Bool) :=
  match skipJumps mode p.mem c.depth ppSystemFunction, skipJumps mode p.mem c.depth pHookFunction with
  | some pSystemFunction, some pHookFunction =>
    some (setHook mode disassembler c p ppSystemFunction pSystemFunction pHookFunction)
  | _, _ => none

/-- Puts the original code back. -/
def restoreCode (mode : Mode w) (pSystemFunction pTrampoline : BitVec w) (cbOverwrittenCode : Nat) (mem : Space w) :
    Space w :=
  (List.range cbOverwrittenCode).foldl
    (fun mem i =>
      write mem (pSystemFunction + BitVec.ofNat w i) [mem (codeUntouched mode pTrampoline + BitVec.ofNat w i)])
    mem

/-- `Mhook_Unhook`: the process, what the pointer is set to, and the result. -/
def mhook_Unhook (mode : Mode w) (c : Circumstances w) (p : Process w) (ppHookedFunction : BitVec w) :
    Process w × BitVec w × Bool :=
  match trampolineGet mode p.hooks ppHookedFunction with
  | none => (p, ppHookedFunction, false)
  | some pTrampoline =>
    let pSystemFunction := pSystemFunctionOf p.mem pTrampoline
    let cbOverwrittenCode := cbOverwrittenCodeOf mode p.mem pTrampoline
    let p := { p with threads := (suspendOtherThreads c.env pSystemFunction cbOverwrittenCode p.threads).1 }
    let done : Process w × BitVec w × Bool :=
      if c.protectsSystem then
        let system := virtualProtect p.protection pSystemFunction cbOverwrittenCode PAGE_EXECUTE_READWRITE
        let p := { p with protection := system.1 }
        let p := { p with mem := restoreCode mode pSystemFunction pTrampoline cbOverwrittenCode p.mem }
        let p := { p with protection := (virtualProtect p.protection pSystemFunction cbOverwrittenCode system.2).1 }
        (trampolineFree mode p pTrampoline false, pSystemFunction, true)
      else (p, ppHookedFunction, false)
    ({ done.1 with threads := resumeOtherThreads done.1.threads }, done.2)

section
variable (mode : Mode w) (p : Process w) (t : BitVec w) (bNeverUsed : Bool)

theorem trampolineFree_hooks : (trampolineFree mode p t bNeverUsed).hooks = emptySlot p.hooks t := by
  rw [trampolineFree, emptySlot]
  cases remove t p.hooks.g_pHooks <;> rfl

@[simp] theorem trampolineFree_mem : (trampolineFree mode p t bNeverUsed).mem = p.mem := by
  rw [trampolineFree]
  cases remove t p.hooks.g_pHooks <;> rfl

@[simp] theorem trampolineFree_threads : (trampolineFree mode p t bNeverUsed).threads = p.threads := by
  rw [trampolineFree]
  cases remove t p.hooks.g_pHooks <;> rfl

/-- The pages of a trampoline in use are given back. -/
theorem trampolineFree_protection (member : t ∈ live p.hooks) :
    (trampolineFree mode p t true).protection = virtualFree p.protection t (layout mode).sizeof := by
  obtain ⟨after, removes⟩ := Option.isSome_iff_exists.mp ((remove_isSome_iff t p.hooks.g_pHooks).mpr member)
  rw [trampolineFree, removes]
  rfl

end

/-! ### The jumps that a hook needs -/

/-- The trampoline is memory of its own, and in reach of the code saved. -/
structure Placed (mode : Mode w) (pSystemFunction pTrampoline : BitVec w) (n : Nat) : Prop where
  enough : 5 ≤ n
  few : n ≤ 19
  apart : Apart pTrampoline (layout mode).sizeof pSystemFunction n
  behind : pSystemFunction.toNat ≤ pTrampoline.toNat + 0x7fff0000
  before : pTrampoline.toNat < pSystemFunction.toNat + 0x7ff90000
  below : pTrampoline.toNat + 0x70000 ≤ 2 ^ w
  inside : pSystemFunction.toNat + n < 2 ^ w

/-- The hook lies just so far below the function that it counts as near, and yet the
    end of a short jump is too far away from it. -/
def Edge (pSystemFunction pHookFunction : BitVec w) : Prop :=
  pSystemFunction.toNat ≤ pHookFunction.toNat + 0x7fff0000 ∧
    pHookFunction.toNat + 0x7fff0000 < pSystemFunction.toNat + 5
instance (pSystemFunction pHookFunction : BitVec w) : Decidable (Edge pSystemFunction pHookFunction) :=
  inferInstanceAs (Decidable (_ ∧ _))

/-- Where the jump over the function leads. -/
def apiTarget (mode : Mode w) (pSystemFunction pHookFunction pTrampoline : BitVec w) : BitVec w :=
  if 0x7fff0000#w < dwDistance pSystemFunction pHookFunction then codeJumpToHookFunction mode pTrampoline
  else pHookFunction

theorem dwDistance_eq (f h : BitVec w) : dwDistance f h = cbDiff f h := rfl

theorem far_iff (mode : Mode w) (f h : BitVec w) :
    0x7fff0000#w < dwDistance f h ↔
      h.toNat + 0x7fff0000 < f.toNat ∨ f.toNat + 0x7fff0000 < h.toNat := by
  have short := short_iff mode f h
  rw [dwDistance_eq, ← BitVec.not_le, short]
  omega

section
variable {mode : Mode w} {f h t : BitVec w} {n : Nat}

theorem member_toNat (placed : Placed mode f t n) {k : Nat} (small : k ≤ 0x1000) :
    (t + BitVec.ofNat w k).toNat = t.toNat + k :=
  toNat_offset (by have := placed.below; omega)

/-- The jump back from the moved code is a short one. -/
theorem back_short (placed : Placed mode f t n) :
    cbDiff (codeTrampoline mode t + BitVec.ofNat w n + 5#w) (f + BitVec.ofNat w n) ≤ 0x7fff0000#w := by
  have ordered := layout_ordered mode
  obtain ⟨system, overwritten, hook, ahead, jump, trampoline, untouched, whole⟩ := ordered
  have few := placed.few
  rw [short_iff mode, codeTrampoline, BitVec.add_assoc, BitVec.add_assoc, ← BitVec.ofNat_add, ← BitVec.ofNat_add,
    member_toNat placed (by simp only [MHOOKS_MAX_CODE_BYTES] at *; omega), toNat_offset placed.inside]
  have := placed.behind
  have := placed.before
  simp only [MHOOKS_MAX_CODE_BYTES] at *
  omega

/-- The jump from the function to the trampoline is a short one. -/
theorem stub_short (placed : Placed mode f t n) :
    cbDiff (f + 5#w) (codeJumpToHookFunction mode t) ≤ 0x7fff0000#w := by
  have ordered := layout_ordered mode
  obtain ⟨system, overwritten, hook, ahead, jump, trampoline, untouched, whole⟩ := ordered
  have enough := placed.enough
  have inside := placed.inside
  rw [short_iff mode, codeJumpToHookFunction,
    member_toNat placed (by simp only [MHOOKS_MAX_CODE_BYTES] at *; omega), toNat_offset (by omega)]
  have := placed.behind
  have := placed.before
  simp only [MHOOKS_MAX_CODE_BYTES] at *
  omega

/-- The jump over the function takes five bytes, unless the hook lies on the edge. -/
theorem api_short_iff (placed : Placed mode f t n) :
    cbDiff (f + 5#w) (apiTarget mode f h t) ≤ 0x7fff0000#w ↔ ¬ Edge f h := by
  have enough := placed.enough
  have inside := placed.inside
  have far := far_iff mode f h
  rw [apiTarget]
  by_cases away : 0x7fff0000#w < dwDistance f h
  · rw [if_pos away]
    refine ⟨fun _ edge => ?_, fun _ => stub_short placed⟩
    obtain ⟨near, _⟩ := edge
    have := far.mp away
    omega
  · rw [if_neg away, short_iff mode, toNat_offset (by omega), Edge]
    rw [far] at away
    omega

/-! ### The copy -/

/-- Two members of a trampoline have no byte in common. -/
theorem members_apart (mode : Mode w) (t : BitVec w) {a k b m : Nat} (before : a + k ≤ b)
    (fits : b + m ≤ (layout mode).sizeof) : Apart (t + BitVec.ofNat w a) k (t + BitVec.ofNat w b) m := by
  have := (layout_ordered mode).whole
  have := mode.room
  exact apart_parts t before (by omega)

/-- Bytes written one by one to two places, from a third. -/
theorem copyCode_eq (placed : Placed mode f t n) (mem : Space w) :
    copyCode mode f t n mem =
      write (write mem (codeTrampoline mode t) (read mem f n)) (codeUntouched mode t) (read mem f n) := by
  have ordered := layout_ordered mode
  obtain ⟨-, -, -, -, -, trampoline, untouched, whole⟩ := ordered
  have few := placed.few
  have room := mode.room
  simp only [MHOOKS_MAX_CODE_BYTES] at trampoline untouched
  have copied : ∀ k, k ≤ n → copyCode mode f t k mem =
      write (write mem (codeTrampoline mode t) (read mem f k)) (codeUntouched mode t) (read mem f k) := by
    intro k
    induction k with
    | zero => simp [copyCode]
    | succ k ih =>
      intro le
      have apart := apart_symm placed.apart
      -- the code is read as it was, since the trampoline is elsewhere
      have source : copyCode mode f t k mem (f + BitVec.ofNat w k) = mem (f + BitVec.ofNat w k) := by
        have within : Within f n (f + BitVec.ofNat w k) := within_offset f (by omega)
        rw [ih (by omega), write_outside, write_outside]
        · rw [read_length]
          exact fun there => apart _ within (within_part (by omega) there)
        · rw [read_length]
          exact fun there => apart _ within (within_part (by omega) there)
      have next : copyCode mode f t (k + 1) mem =
          write (write (copyCode mode f t k mem) (codeTrampoline mode t + BitVec.ofNat w k)
            [mem (f + BitVec.ofNat w k)]) (codeUntouched mode t + BitVec.ofNat w k) [mem (f + BitVec.ofNat w k)] := by
        rw [← source]
        simp only [copyCode, List.range_succ, List.foldl_append, List.foldl_cons, List.foldl_nil]
      have bytes : read mem f (k + 1) = read mem f k ++ [mem (f + BitVec.ofNat w k)] := by
        rw [read_add, read_succ]
        rfl
      have crossed : Apart (codeUntouched mode t) (read mem f k).length (codeTrampoline mode t + BitVec.ofNat w k)
          [mem (f + BitVec.ofNat w k)].length := by
        rw [read_length, codeTrampoline, BitVec.add_assoc, ← BitVec.ofNat_add]
        exact apart_symm (members_apart mode t (by simp; omega) (by omega))
      have length : (read mem f k).length = k := read_length mem f k
      rw [next, ih (by omega), write_comm crossed, bytes]
      rw [write_append (by simp; omega), write_append (by simp; omega), length]
  exact copied n (Nat.le_refl n)

/-! ### What stays in place -/

/-- The code of a trampoline stands behind its other members. -/
theorem updateMembers_code (mode : Mode w) (f h t : BitVec w) (n : Nat) (mem : Space w) {a k : Nat}
    (behind : (layout mode).codeJumpToHookFunction ≤ a) (fits : a + k ≤ (layout mode).sizeof) :
    read (updateMembers mode f h t n mem) (t + BitVec.ofNat w a) k = read mem (t + BitVec.ofNat w a) k := by
  obtain ⟨system, overwritten, hook, ahead, jump, trampoline, untouched, whole⟩ := layout_ordered mode
  have first : Apart (t + BitVec.ofNat w a) k t (wordBytes (w / 8) f).length := by
    have apart := members_apart mode t (a := 0) (k := w / 8) (b := a) (m := k) (by omega) fits
    rw [BitVec.add_zero] at apart
    rw [wordBytes_length]
    exact apart_symm apart
  rw [updateMembers, read_write_apart, read_write_apart first, read_write_apart]
  · rw [wordBytes_length]
    exact apart_symm (members_apart mode t (by omega) fits)
  · rw [wordBytes_length]
    exact apart_symm (members_apart mode t (by omega) fits)

theorem updateMembers_outside (mode : Mode w) (f h t : BitVec w) (n : Nat) (mem : Space w) {x : BitVec w}
    (outside : ¬ Within t (layout mode).sizeof x) : updateMembers mode f h t n mem x = mem x := by
  obtain ⟨system, overwritten, hook, ahead, jump, trampoline, untouched, whole⟩ := layout_ordered mode
  simp only [MHOOKS_MAX_CODE_BYTES] at jump trampoline untouched
  rw [updateMembers, write_outside, write_outside, write_outside]
  · rw [wordBytes_length]
    exact fun here => outside (within_part (by omega) here)
  · rw [wordBytes_length]
    exact fun here => outside (within_mono (by omega) here)
  · rw [wordBytes_length]
    exact fun here => outside (within_part (by omega) here)

/-- The members are read back as they were written. -/
theorem updateMembers_system (mode : Mode w) (f h t : BitVec w) (n : Nat) (mem : Space w) :
    pSystemFunctionOf (updateMembers mode f h t n mem) t = f := by
  obtain ⟨system, overwritten, hook, ahead, jump, trampoline, untouched, whole⟩ := layout_ordered mode
  simp only [MHOOKS_MAX_CODE_BYTES] at jump trampoline untouched
  have := mode.room
  have apart := members_apart mode t (a := 0) (k := w / 8) (b := (layout mode).pHookFunction) (m := w / 8) (by omega)
    (by omega)
  rw [BitVec.add_zero] at apart
  rw [pSystemFunctionOf, updateMembers, load_write_apart (by rwa [wordBytes_length]),
    load_write_word f mode.whole (by omega)]

theorem updateMembers_hook (mode : Mode w) (f h t : BitVec w) (n : Nat) (mem : Space w) :
    pHookFunctionOf mode (updateMembers mode f h t n mem) t = h := by
  have := mode.room
  have := mode.short
  rw [pHookFunctionOf, updateMembers, load_write_word h mode.whole (by omega)]

theorem updateMembers_overwritten (mode : Mode w) (f h t : BitVec w) {n : Nat} (small : n < 2 ^ 32) (mem : Space w) :
    cbOverwrittenCodeOf mode (updateMembers mode f h t n mem) t = n := by
  obtain ⟨system, overwritten, hook, ahead, jump, trampoline, untouched, whole⟩ := layout_ordered mode
  simp only [MHOOKS_MAX_CODE_BYTES] at jump trampoline untouched
  have := mode.room
  have first : Apart (t + BitVec.ofNat w (layout mode).cbOverwrittenCode) 4 t (wordBytes (w / 8) f).length := by
    have apart := members_apart mode t (a := 0) (k := w / 8) (b := (layout mode).cbOverwrittenCode) (m := 4) (by omega)
      (by omega)
    rw [BitVec.add_zero] at apart
    rw [wordBytes_length]
    exact apart_symm apart
  have second : Apart (t + BitVec.ofNat w (layout mode).cbOverwrittenCode) 4
      (t + BitVec.ofNat w (layout mode).pHookFunction) (wordBytes (w / 8) h).length := by
    rw [wordBytes_length]
    exact members_apart mode t (by omega) (by omega)
  rw [cbOverwrittenCodeOf, updateMembers, load_write_apart second, load_write_apart first,
    load_write_word _ (by omega) (by omega), BitVec.toNat_ofNat, Nat.mod_eq_of_lt small]

/-- The bytes that the jump over the function takes. -/
def apiLength (mode : Mode w) (f h t : BitVec w) : Nat := (jumpCode mode f (apiTarget mode f h t)).length

/-- The jump to the hook in the trampoline, if there is one, and the jump over the
    function. -/
theorem updateApi_eq (mode : Mode w) (f h t : BitVec w) (mem : Space w) :
    ∃ stub : List Byte, stub.length ≤ 14 ∧
      (0x7fff0000#w < dwDistance f h → stub = jumpCode mode (codeJumpToHookFunction mode t) h) ∧
      updateApi mode f h t mem =
        write (write mem (codeJumpToHookFunction mode t) stub) f (jumpCode mode f (apiTarget mode f h t)) := by
  rw [updateApi, apiTarget]
  by_cases far : 0x7fff0000#w < dwDistance f h
  · rw [if_pos far, if_pos far]
    exact ⟨_, jumpCode_length_le _ _ _, fun _ => rfl, rfl⟩
  · rw [if_neg far, if_neg far]
    refine ⟨[], by simp, fun yes => absurd yes far, ?_⟩
    rw [write_nil]
    rfl

theorem updateApi_code (apart : Apart t (layout mode).sizeof f (apiLength mode f h t)) (mem : Space w) {a k : Nat}
    (behind : (layout mode).codeTrampoline ≤ a) (fits : a + k ≤ (layout mode).sizeof) :
    read (updateApi mode f h t mem) (t + BitVec.ofNat w a) k = read mem (t + BitVec.ofNat w a) k := by
  obtain ⟨-, -, -, -, jump, -, -, -⟩ := layout_ordered mode
  simp only [MHOOKS_MAX_CODE_BYTES] at jump
  obtain ⟨stub, length, _, update⟩ := updateApi_eq mode f h t mem
  rw [update, read_write_apart, read_write_apart]
  · exact apart_symm (members_apart mode t (by omega) fits)
  · exact apart_part apart fits

theorem updateApi_outside (mode : Mode w) (f h t : BitVec w) (mem : Space w) {x : BitVec w}
    (outside : ¬ Within t (layout mode).sizeof x) (other : ¬ Within f (apiLength mode f h t) x) :
    updateApi mode f h t mem x = mem x := by
  obtain ⟨-, -, -, -, jump, trampoline, untouched, -⟩ := layout_ordered mode
  simp only [MHOOKS_MAX_CODE_BYTES] at jump trampoline untouched
  obtain ⟨stub, length, _, update⟩ := updateApi_eq mode f h t mem
  rw [update, write_outside other, write_outside]
  exact fun here => outside (within_part (by omega) here)

/-! ### What is installed -/

/-- A function `f` hooked with `h` by the trampoline at `t`: the jumps lead to the hook,
    the code moved leads on to the rest of the function, and what is needed to put
    the code back is kept. -/
structure Installed (mode : Mode w) (before after : Space w) (f h t : BitVec w) (r : Skipped) : Prop where
  api : Contains after f (jumpCode mode f (apiTarget mode f h t))
  stub : apiTarget mode f h t = h ∨ apiTarget mode f h t = codeJumpToHookFunction mode t ∧
    Contains after (codeJumpToHookFunction mode t) (jumpCode mode (codeJumpToHookFunction mode t) h)
  moved : Moved before f after (codeTrampoline mode t) r
  back : Contains after (codeTrampoline mode t + BitVec.ofNat w r.dwRet)
    (jumpCode mode (codeTrampoline mode t + BitVec.ofNat w r.dwRet) (f + BitVec.ofNat w r.dwRet))
  untouched : read after (codeUntouched mode t) r.dwRet = read before f r.dwRet
  system : pSystemFunctionOf after t = f
  hook : pHookFunctionOf mode after t = h
  overwritten : cbOverwrittenCodeOf mode after t = r.dwRet
  frame : ∀ x, ¬ Within t (layout mode).sizeof x → ¬ Within f (apiLength mode f h t) x → after x = before x

theorem contains_read {mem other : Space w} {a : BitVec w} {bytes : List Byte} (contains : Contains mem a bytes)
    (same : read other a bytes.length = read mem a bytes.length) : Contains other a bytes :=
  same.trans contains

/-- Code that was moved stays moved as long as it is not written to. -/
theorem moved_congr {code mem other : Space w} {a b : BitVec w} {r : Skipped} (moved : Moved code a mem b r)
    (room : ∀ rip ∈ r.pdata.rips, rip.dwOffset + 4 ≤ r.dwRet) (same : read other b r.dwRet = read mem b r.dwRet) :
    Moved code a other b r := by
  constructor
  · intro i inside outside
    rw [agree_of_read same inside]
    exact moved.agree i inside outside
  · intro rip member
    have fits := room rip member
    have field : read other (b + BitVec.ofNat w rip.dwOffset) 4 = read mem (b + BitVec.ofNat w rip.dwOffset) 4 := by
      apply List.map_congr_left
      intro i below
      have := List.mem_range.mp below
      rw [BitVec.add_assoc, ← BitVec.ofNat_add]
      exact agree_of_read same (by omega)
    rw [distance, load_congr field]
    exact moved.fields rip member

/-- The trampoline function: the code moved, the jump back behind it, and the code
    untouched. -/
theorem createTrampoline_spec {r : Skipped} (placed : Placed mode f t r.dwRet)
    (noted : r.pdata.rips = [] ∨
      w = 64 ∧ ∃ rip, r.pdata.rips = [rip] ∧ Fits f (codeTrampoline mode t) r rip) (mem : Space w) :
    Moved mem f (createTrampoline mode f t r mem) (codeTrampoline mode t) r ∧
      Contains (createTrampoline mode f t r mem) (codeTrampoline mode t + BitVec.ofNat w r.dwRet)
        (jumpCode mode (codeTrampoline mode t + BitVec.ofNat w r.dwRet) (f + BitVec.ofNat w r.dwRet)) ∧
      read (createTrampoline mode f t r mem) (codeUntouched mode t) r.dwRet = read mem f r.dwRet ∧
      ∀ x, ¬ Within t (layout mode).sizeof x → createTrampoline mode f t r mem x = mem x := by
  obtain ⟨-, -, -, -, -, trampoline, untouched, whole⟩ := layout_ordered mode
  simp only [MHOOKS_MAX_CODE_BYTES] at trampoline untouched
  have few := placed.few
  have room := mode.room
  have saved := read_length mem f r.dwRet
  have five : (jumpCode mode (codeTrampoline mode t + BitVec.ofNat w r.dwRet) (f + BitVec.ofNat w r.dwRet)).length = 5 :=
    jumpCode_length_short (back_short placed)
  obtain ⟨m₁, copy⟩ : ∃ m₁, m₁ = copyCode mode f t r.dwRet mem := ⟨_, rfl⟩
  obtain ⟨m₂, back⟩ : ∃ m₂, m₂ = (emitJump mode m₁ (codeTrampoline mode t + BitVec.ofNat w r.dwRet)
      (f + BitVec.ofNat w r.dwRet)).1 := ⟨_, rfl⟩
  have created : createTrampoline mode f t r mem =
      fixupIPRelativeAddressing mode m₂ (codeTrampoline mode t) f r.pdata := by
    rw [back, copy]
    rfl
  rw [copyCode_eq placed] at copy
  have behind : codeTrampoline mode t + BitVec.ofNat w r.dwRet =
      t + BitVec.ofNat w ((layout mode).codeTrampoline + r.dwRet) := by
    rw [codeTrampoline, BitVec.add_assoc, ← BitVec.ofNat_add]
  have jumped : Contains m₂ (codeTrampoline mode t + BitVec.ofNat w r.dwRet)
      (jumpCode mode (codeTrampoline mode t + BitVec.ofNat w r.dwRet) (f + BitVec.ofNat w r.dwRet)) := by
    rw [back]
    exact emitJump_contains _ _ _ _
  have copied : read m₂ (codeTrampoline mode t) r.dwRet = read mem f r.dwRet := by
    rw [back, emitJump, read_write_apart, copy, read_write_apart]
    · have same : read (write mem (codeTrampoline mode t) (read mem f r.dwRet)) (codeTrampoline mode t)
          (read mem f r.dwRet).length = read mem f r.dwRet := read_write (by omega)
      rwa [saved] at same
    · rw [saved]
      exact members_apart mode t (by omega) (by omega)
    · rw [five, behind]
      exact members_apart mode t (by omega) (by omega)
  have kept : read m₂ (codeUntouched mode t) r.dwRet = read mem f r.dwRet := by
    rw [back, emitJump, read_write_apart, copy]
    · have same : read (write (write mem (codeTrampoline mode t) (read mem f r.dwRet)) (codeUntouched mode t)
          (read mem f r.dwRet)) (codeUntouched mode t) (read mem f r.dwRet).length = read mem f r.dwRet :=
        read_write (by omega)
      rwa [saved] at same
    · rw [five, behind]
      exact apart_symm (members_apart mode t (by omega) (by omega))
  obtain ⟨moved, elsewhere⟩ := fixup_moved mode (by omega) copied noted
  rw [created]
  refine ⟨moved, contains_read jumped (read_congr fun x within => elsewhere x ?_),
    (read_congr fun x within => elsewhere x ?_).trans kept, ?_⟩
  · rw [five, behind] at within
    exact apart_symm (members_apart mode t (Nat.le_refl _) (by omega)) x within
  · exact apart_symm (members_apart mode t (by omega) (by omega)) x within
  · intro x outside
    have apart₁ : ¬ Within (codeTrampoline mode t) r.dwRet x := fun here => outside (within_part (by omega) here)
    have apart₂ : ¬ Within (codeUntouched mode t) r.dwRet x := fun here => outside (within_part (by omega) here)
    rw [elsewhere x apart₁, back, emitJump_outside, copy, write_outside (by rwa [saved]), write_outside (by rwa [saved])]
    rw [five, behind]
    exact fun here => outside (within_part (by omega) here)

/-- What `Mhook_SetHook` writes installs the hook, if the jump over the function does
    not reach into the trampoline. -/
theorem installCode_installed {r : Skipped} (placed : Placed mode f t r.dwRet)
    (apart : Apart t (layout mode).sizeof f (apiLength mode f h t))
    (noted : r.pdata.rips = [] ∨
      w = 64 ∧ ∃ rip, r.pdata.rips = [rip] ∧ Fits f (codeTrampoline mode t) r rip) (mem : Space w) :
    Installed mode mem (installCode mode f h t r mem) f h t r := by
  obtain ⟨-, -, -, -, jump, trampoline, untouched, whole⟩ := layout_ordered mode
  simp only [MHOOKS_MAX_CODE_BYTES] at jump trampoline untouched
  have few := placed.few
  have room := mode.room
  obtain ⟨moved, back, kept, outside⟩ := createTrampoline_spec placed noted mem
  obtain ⟨stub, length, far, update⟩ := updateApi_eq mode f h t (createTrampoline mode f t r mem)
  -- nothing is written behind the trampoline function any more
  have code : ∀ a k, (layout mode).codeTrampoline ≤ a → a + k ≤ (layout mode).sizeof →
      read (installCode mode f h t r mem) (t + BitVec.ofNat w a) k =
        read (createTrampoline mode f t r mem) (t + BitVec.ofNat w a) k := by
    intro a k behind fits
    rw [installCode, updateMembers_code mode f h t _ _ (by omega) fits, updateApi_code apart _ behind fits]
  have elsewhere : ∀ x, ¬ Within t (layout mode).sizeof x →
      installCode mode f h t r mem x = updateApi mode f h t (createTrampoline mode f t r mem) x :=
    fun x away => updateMembers_outside mode f h t _ _ away
  constructor
  · -- the jump over the function is not in the trampoline
    have short := jumpCode_length_le mode f (apiTarget mode f h t)
    have written : Contains (updateApi mode f h t (createTrampoline mode f t r mem)) f
        (jumpCode mode f (apiTarget mode f h t)) := by
      rw [update]
      exact contains_write (by omega)
    refine contains_read written (read_congr fun x within => elsewhere x ?_)
    exact apart_symm apart x within
  · by_cases away : 0x7fff0000#w < dwDistance f h
    · right
      have target : apiTarget mode f h t = codeJumpToHookFunction mode t := by rw [apiTarget, if_pos away]
      refine ⟨target, ?_⟩
      rw [← far away]
      have written : Contains (updateApi mode f h t (createTrampoline mode f t r mem)) (codeJumpToHookFunction mode t)
          stub := by
        rw [update, contains_write_apart]
        · exact contains_write (by omega)
        · exact apart_part apart (by omega)
      exact contains_read written (updateMembers_code mode f h t _ _ (Nat.le_refl _) (by omega))
    · left
      rw [apiTarget, if_neg away]
  · refine moved_congr moved ?_ (code _ _ (Nat.le_refl _) (by omega))
    intro rip member
    rcases noted with none | ⟨_, one, rips, fits⟩
    · rw [none] at member
      cases member
    · rw [rips] at member
      cases List.mem_singleton.mp member
      exact fits.1
  · refine contains_read back ?_
    rw [jumpCode_length_short (back_short placed), codeTrampoline, BitVec.add_assoc, ← BitVec.ofNat_add]
    exact code _ _ (by omega) (by omega)
  · exact (code _ _ (by omega) (by omega)).trans kept
  · exact updateMembers_system mode f h t _ _
  · exact updateMembers_hook mode f h t _ _
  · exact updateMembers_overwritten mode f h t (by omega) _
  · intro x away other
    rw [elsewhere x away, updateApi_outside mode f h t _ away other, outside x away]

/-- The bytes put back are those kept in the trampoline. -/
theorem restoreCode_eq (apart : Apart (codeUntouched mode t) n f n) (few : n ≤ 19) (mem : Space w) :
    restoreCode mode f t n mem = write mem f (read mem (codeUntouched mode t) n) := by
  have room := mode.room
  have restored : ∀ k, k ≤ n → restoreCode mode f t k mem = write mem f (read mem (codeUntouched mode t) k) := by
    intro k
    induction k with
    | zero => simp [restoreCode]
    | succ k ih =>
      intro le
      -- the bytes kept are read as they were, since the function is elsewhere
      have source : restoreCode mode f t k mem (codeUntouched mode t + BitVec.ofNat w k) =
          mem (codeUntouched mode t + BitVec.ofNat w k) := by
        rw [ih (by omega), write_outside]
        rw [read_length]
        exact fun there => apart _ (within_offset _ (by omega)) (within_mono (by omega) there)
      have next : restoreCode mode f t (k + 1) mem =
          write (restoreCode mode f t k mem) (f + BitVec.ofNat w k) [mem (codeUntouched mode t + BitVec.ofNat w k)] := by
        rw [← source]
        simp only [restoreCode, List.range_succ, List.foldl_append, List.foldl_cons, List.foldl_nil]
      have bytes : read mem (codeUntouched mode t) (k + 1) =
          read mem (codeUntouched mode t) k ++ [mem (codeUntouched mode t + BitVec.ofNat w k)] := by
        rw [read_add, read_succ]
        rfl
      rw [next, ih (by omega), bytes, write_append (by simp; omega), read_length]
  exact restored n (Nat.le_refl n)

end

end WinMiniTools.Mhook
