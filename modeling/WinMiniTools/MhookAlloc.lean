import WinMiniTools.MhookJumps
import WinMiniTools.Loops
import WinMiniTools.Slots

/-!
Where `mhook-lib` puts its trampolines. `TrampolineAlloc` looks for free memory
between two bounds, which leave the function and everything its moved code names
within two gigabytes of the trampoline (`search_near`). A table of 64 slots holds
the trampolines in use, and `g_nHooksInUse` counts them (`Sound`).
-/
namespace WinMiniTools.MhookAlloc
open WinMiniTools.AddressSpaces WinMiniTools.Processors WinMiniTools.Loops WinMiniTools.Slots

variable {w : Nat}

/-- What `VirtualQuery` says of an address: the region that it lies in, which ends
    below the last address, and whether it is free. -/
structure Region (w : Nat) (a : BitVec w) where
  baseAddress : BitVec w
  regionSize : Nat
  memFree : Bool
  low : baseAddress.toNat ≤ a.toNat
  high : a.toNat < baseAddress.toNat + regionSize
  top : baseAddress.toNat + regionSize < 2 ^ w

/-- The memory manager: what it says of an address, and whether it gives the memory
    asked for there. -/
structure MemoryManager (w : Nat) where
  virtualQuery : (a : BitVec w) → Option (Region w a)
  virtualAlloc : BitVec w → Bool
  dwAllocationGranularity : Nat

/-- Where the members of `MHOOKS_TRAMPOLINE` stand, behind `pSystemFunction`, and how
    many bytes it has. -/
structure Layout where
  cbOverwrittenCode : Nat
  pHookFunction : Nat
  codeJumpToHookFunction : Nat
  codeTrampoline : Nat
  codeUntouched : Nat
  sizeof : Nat

def MHOOKS_MAX_CODE_BYTES : Nat := 32

def layout : {w : Nat} → Mode w → Layout
  | _, .x86 =>
    { cbOverwrittenCode := 4, pHookFunction := 8, codeJumpToHookFunction := 12, codeTrampoline := 44,
      codeUntouched := 76, sizeof := 108 }
  | _, .x64 =>
    { cbOverwrittenCode := 8, pHookFunction := 16, codeJumpToHookFunction := 24, codeTrampoline := 56,
      codeUntouched := 88, sizeof := 120 }

/-- The members stand one behind the other. -/
structure Ordered (l : Layout) (w : Nat) : Prop where
  system : w / 8 ≤ l.cbOverwrittenCode
  overwritten : l.cbOverwrittenCode + 4 ≤ l.pHookFunction
  hook : l.pHookFunction + w / 8 ≤ l.codeJumpToHookFunction
  ahead : 12 ≤ l.codeJumpToHookFunction
  jump : l.codeJumpToHookFunction + MHOOKS_MAX_CODE_BYTES ≤ l.codeTrampoline
  trampoline : l.codeTrampoline + MHOOKS_MAX_CODE_BYTES ≤ l.codeUntouched
  untouched : l.codeUntouched + MHOOKS_MAX_CODE_BYTES ≤ l.sizeof
  whole : l.sizeof ≤ 120

theorem layout_ordered (mode : Mode w) : Ordered (layout mode) w := by
  cases mode <;> constructor <;> simp [layout, MHOOKS_MAX_CODE_BYTES]

/-- The bounds of the search; the constants are truncated to the width of a pointer. -/
def pLower (pSystemFunction : BitVec w) (nLimitUp : Int) : BitVec w :=
  let pLower := pSystemFunction + BitVec.ofInt w nLimitUp
  if pLower < BitVec.ofNat w 0x80000000 then BitVec.ofNat w 1 else pLower - BitVec.ofNat w 0x7fff0000
def pUpper (pSystemFunction : BitVec w) (nLimitDown : Int) : BitVec w :=
  let pUpper := pSystemFunction + BitVec.ofInt w nLimitDown
  if pUpper < BitVec.ofNat w 0xffffffff80000000 then pUpper + BitVec.ofNat w 0x7ff80000
  else BitVec.ofNat w 0xfffffffffff80000

/-- The address, rounded up to the granularity. -/
def alignUp (granularity : Nat) (pbAlloc : BitVec w) : BitVec w :=
  BitVec.ofNat w ((pbAlloc + BitVec.ofNat w (granularity - 1)).toNat / granularity * granularity)

/-- One block of the search. -/
def searchBody (mode : Mode w) (mm : MemoryManager w) (pUpper pbAlloc : BitVec w) :
    List Empty × (BitVec w ⊕ Option (BitVec w)) :=
  if pbAlloc < pUpper then
    match mm.virtualQuery pbAlloc with
    | none => ([], .inr none)
    | some mbi =>
      let next := mbi.baseAddress + BitVec.ofNat w mbi.regionSize
      if mbi.memFree ∧ (layout mode).sizeof ≤ mbi.regionSize ∧ mm.dwAllocationGranularity ≤ mbi.regionSize then
        let pbAlloc := alignUp mm.dwAllocationGranularity pbAlloc
        if mm.virtualAlloc pbAlloc then ([], .inr (some pbAlloc)) else ([], .inl next)
      else ([], .inl next)
  else ([], .inr none)

theorem next_toNat {a : BitVec w} (mbi : Region w a) :
    (mbi.baseAddress + BitVec.ofNat w mbi.regionSize).toNat = mbi.baseAddress.toNat + mbi.regionSize :=
  toNat_offset mbi.top

/-- The search moves up, through one region after the other. -/
theorem searchBody_cases (mode : Mode w) (mm : MemoryManager w) (pUpper pbAlloc : BitVec w) :
    searchBody mode mm pUpper pbAlloc = ([], .inr none) ∨
    (pbAlloc.toNat < pUpper.toNat ∧ mm.virtualAlloc (alignUp mm.dwAllocationGranularity pbAlloc) = true ∧
      searchBody mode mm pUpper pbAlloc = ([], .inr (some (alignUp mm.dwAllocationGranularity pbAlloc)))) ∨
    (∃ next, pbAlloc.toNat < next.toNat ∧ searchBody mode mm pUpper pbAlloc = ([], .inl next)) := by
  rw [searchBody]
  by_cases below : pbAlloc < pUpper
  · rw [if_pos below]
    cases mm.virtualQuery pbAlloc with
    | none => exact .inl rfl
    | some mbi =>
      have up : pbAlloc.toNat < (mbi.baseAddress + BitVec.ofNat w mbi.regionSize).toNat := by
        rw [next_toNat]
        exact mbi.high
      dsimp only
      by_cases large : mbi.memFree ∧ (layout mode).sizeof ≤ mbi.regionSize ∧
          mm.dwAllocationGranularity ≤ mbi.regionSize
      · rw [if_pos large]
        by_cases given : mm.virtualAlloc (alignUp mm.dwAllocationGranularity pbAlloc) = true
        · rw [if_pos given]
          exact .inr (.inl ⟨BitVec.lt_def.mp below, given, rfl⟩)
        · rw [if_neg given]
          exact .inr (.inr ⟨_, up, rfl⟩)
      · rw [if_neg large]
        exact .inr (.inr ⟨_, up, rfl⟩)
  · rw [if_neg below]
    exact .inl rfl

def searchLoop (mode : Mode w) (mm : MemoryManager w) (pUpper : BitVec w) :
    Loop (BitVec w) Empty (Option (BitVec w)) where
  body := searchBody mode mm pUpper
  weight pbAlloc := 2 ^ w - pbAlloc.toNat
  progress s t next := by
    have := s.isLt
    rcases searchBody_cases mode mm pUpper s with body | ⟨_, _, body⟩ | ⟨t', up, body⟩
    · rw [body] at next
      cases next
    · rw [body] at next
      cases next
    · rw [body] at next
      cases next
      omega

/-- The memory that the search finds for a trampoline. -/
def search (mode : Mode w) (mm : MemoryManager w) (pSystemFunction : BitVec w) (nLimitUp nLimitDown : Int) :
    Option (BitVec w) :=
  (searchLoop mode mm (pUpper pSystemFunction nLimitDown)).result (pLower pSystemFunction nLimitUp)

/-! ### The window -/

/-- What the search finds is a rounded address that it looked at. -/
theorem search_found {mode : Mode w} {mm : MemoryManager w} {upper pbAlloc t : BitVec w}
    (found : (searchLoop mode mm upper).result pbAlloc = some t) :
    mm.virtualAlloc t = true ∧
      ∃ a, pbAlloc.toNat ≤ a.toNat ∧ a.toNat < upper.toNat ∧ t = alignUp mm.dwAllocationGranularity a := by
  induction pbAlloc using (searchLoop mode mm upper).induct with
  | step pbAlloc ih =>
    rcases searchBody_cases mode mm upper pbAlloc with body | ⟨below, given, body⟩ | ⟨next, up, body⟩
    · rw [Loop.result_leave _ body] at found
      cases found
    · rw [Loop.result_leave _ body] at found
      cases found
      exact ⟨given, pbAlloc, Nat.le_refl _, below, rfl⟩
    · rw [Loop.result_next _ body] at found
      obtain ⟨given, a, low, high, rfl⟩ := ih _ _ body found
      exact ⟨given, a, by omega, high, rfl⟩

theorem alignUp_toNat {a : BitVec w} (fits : a.toNat + 0xffff < 2 ^ w) :
    (alignUp 0x10000 a).toNat = (a.toNat + 0xffff) / 0x10000 * 0x10000 := by
  rw [alignUp, toNat_offset fits, BitVec.toNat_ofNat, Nat.mod_eq_of_lt]
  omega

theorem pLower_toNat (mode : Mode w) {f : BitVec w} {up : Int} (low : 0 ≤ f.toNat + up) (high : f.toNat + up < 2 ^ w) :
    f.toNat + up < 0x80000000 ∧ (pLower f up).toNat = 1 ∨
      0x80000000 ≤ f.toNat + up ∧ ((pLower f up).toNat : Int) = f.toNat + up - 0x7fff0000 := by
  have room := mode.room
  have named := toNat_signed_offset low high
  have two : (BitVec.ofNat w 0x80000000).toNat = 0x80000000 := by
    rw [BitVec.toNat_ofNat, Nat.mod_eq_of_lt (by omega)]
  have gap : (BitVec.ofNat w 0x7fff0000).toNat = 0x7fff0000 := by
    rw [BitVec.toNat_ofNat, Nat.mod_eq_of_lt (by omega)]
  rw [pLower]
  by_cases small : f + BitVec.ofInt w up < BitVec.ofNat w 0x80000000
  · rw [if_pos small, BitVec.toNat_ofNat, Nat.mod_eq_of_lt (by omega)]
    rw [BitVec.lt_def, two] at small
    exact .inl ⟨by omega, rfl⟩
  · rw [if_neg small]
    rw [BitVec.lt_def, two] at small
    rw [BitVec.toNat_sub_of_le (BitVec.le_def.mpr (by omega)), gap]
    right
    omega

theorem pUpper_toNat (mode : Mode w) {f : BitVec w} {down : Int} (low : 0 ≤ f.toNat + down)
    (high : f.toNat + down < 2 ^ w) :
    ((pUpper f down).toNat : Int) ≤ f.toNat + down + 0x7ff80000 ∧ (pUpper f down).toNat + 0x80000 ≤ 2 ^ w := by
  have room := mode.room
  have named := toNat_signed_offset low high
  have two : (BitVec.ofNat w 0xffffffff80000000).toNat = 2 ^ w - 0x80000000 := by
    cases mode <;> rfl
  have last : (BitVec.ofNat w 0xfffffffffff80000).toNat = 2 ^ w - 0x80000 := by
    cases mode <;> rfl
  rw [pUpper]
  by_cases small : f + BitVec.ofInt w down < BitVec.ofNat w 0xffffffff80000000
  · rw [if_pos small]
    rw [BitVec.lt_def, two] at small
    rw [toNat_offset (by omega)]
    omega
  · rw [if_neg small, last]
    rw [BitVec.lt_def, two] at small
    omega

/-- The trampoline is in reach of the function and of what its code names. -/
structure Near (f : BitVec w) (up down : Int) (t : BitVec w) : Prop where
  behind : (f.toNat + up : Int) ≤ t.toNat + 0x7fff0000
  before : (t.toNat : Int) < f.toNat + down + 0x7ff90000
  above : 0x10000 ≤ t.toNat
  below : t.toNat + 0x70000 ≤ 2 ^ w

/-- Whatever the memory manager says, the trampoline found is in reach, as long as
    the code names nothing beyond the ends of the address space. -/
theorem search_near {mode : Mode w} {mm : MemoryManager w} (granularity : mm.dwAllocationGranularity = 0x10000)
    {f t : BitVec w} {up down : Int} (positive : 0 ≤ up) (negative : down ≤ 0) (low : 0 ≤ f.toNat + down)
    (high : f.toNat + up < 2 ^ w) (found : search mode mm f up down = some t) : Near f up down t := by
  obtain ⟨_, a, from', to', rfl⟩ := search_found found
  obtain ⟨reach, last⟩ := pUpper_toNat mode low (by omega)
  rw [granularity]
  have aligned := alignUp_toNat (a := a) (by omega)
  rcases pLower_toNat mode (by omega) high with ⟨small, lower⟩ | ⟨large, lower⟩
  · constructor <;> omega
  · constructor <;> omega

/-! ### The table -/

def MHOOKS_MAX_SUPPORTED_HOOKS : Nat := 64

/-- The trampolines in use, by their addresses, and the count that the library keeps
    of them. -/
structure HookTable (w : Nat) where
  g_pHooks : List (Option (BitVec w))
  g_nHooksInUse : Nat

/-- The code of a trampoline: the jump to the hook, the code that stands in for the
    function, and the code of the function before it was hooked. -/
def codeJumpToHookFunction (mode : Mode w) (pTrampoline : BitVec w) : BitVec w :=
  pTrampoline + BitVec.ofNat w (layout mode).codeJumpToHookFunction
def codeTrampoline (mode : Mode w) (pTrampoline : BitVec w) : BitVec w :=
  pTrampoline + BitVec.ofNat w (layout mode).codeTrampoline
def codeUntouched (mode : Mode w) (pTrampoline : BitVec w) : BitVec w :=
  pTrampoline + BitVec.ofNat w (layout mode).codeUntouched

def trampolineAlloc (mode : Mode w) (mm : MemoryManager w) (hooks : HookTable w) (pSystemFunction : BitVec w)
    (nLimitUp nLimitDown : Int) : HookTable w × Option (BitVec w) :=
  if hooks.g_nHooksInUse < MHOOKS_MAX_SUPPORTED_HOOKS then
    match search mode mm pSystemFunction nLimitUp nLimitDown with
    | none => (hooks, none)
    | some pTrampoline =>
      match put pTrampoline hooks.g_pHooks with
      | none => (hooks, some pTrampoline)
      | some g_pHooks => ({ g_pHooks := g_pHooks, g_nHooksInUse := hooks.g_nHooksInUse + 1 }, some pTrampoline)
  else (hooks, none)

def trampolineGet (mode : Mode w) (hooks : HookTable w) (pHookedFunction : BitVec w) : Option (BitVec w) :=
  (values hooks.g_pHooks).find? (fun pTrampoline => codeTrampoline mode pTrampoline = pHookedFunction)

/-- The table after `TrampolineFree`. -/
def emptySlot (hooks : HookTable w) (pTrampoline : BitVec w) : HookTable w :=
  match remove pTrampoline hooks.g_pHooks with
  | none => hooks
  | some g_pHooks => { g_pHooks := g_pHooks, g_nHooksInUse := hooks.g_nHooksInUse - 1 }

/-- There are 64 slots, no trampoline has two of them, and the count is right. -/
structure Sound (hooks : HookTable w) : Prop where
  slots : hooks.g_pHooks.length = MHOOKS_MAX_SUPPORTED_HOOKS
  distinct : (values hooks.g_pHooks).Nodup
  counted : hooks.g_nHooksInUse = used hooks.g_pHooks

/-- The trampolines in use. -/
def live (hooks : HookTable w) : List (BitVec w) := values hooks.g_pHooks

/-- An empty table. -/
def noHooks : HookTable w := { g_pHooks := List.replicate MHOOKS_MAX_SUPPORTED_HOOKS none, g_nHooksInUse := 0 }

theorem live_noHooks : live (noHooks : HookTable w) = [] := by
  simp [live, noHooks, values]

theorem sound_noHooks : Sound (noHooks : HookTable w) := by
  constructor
  · simp [noHooks]
  · rw [← live, live_noHooks]
    exact .nil
  · rw [used, ← live, live_noHooks]
    rfl

theorem codeTrampoline_inj (mode : Mode w) {t u : BitVec w} : codeTrampoline mode t = codeTrampoline mode u ↔ t = u :=
  BitVec.add_left_inj _

/-- A trampoline is found by the code that stands in for its function. -/
theorem trampolineGet_eq_some (mode : Mode w) {hooks : HookTable w} {pHookedFunction t : BitVec w} :
    trampolineGet mode hooks pHookedFunction = some t ↔ t ∈ live hooks ∧ codeTrampoline mode t = pHookedFunction := by
  rw [trampolineGet]
  constructor
  · intro found
    exact ⟨List.mem_of_find?_eq_some found, by simpa using List.find?_some found⟩
  · rintro ⟨member, rfl⟩
    cases found : (values hooks.g_pHooks).find?
        (fun pTrampoline => codeTrampoline mode pTrampoline = codeTrampoline mode t) with
    | none =>
      have := List.find?_eq_none.mp found t member
      simp at this
    | some u =>
      have same : codeTrampoline mode u = codeTrampoline mode t := by simpa using List.find?_some found
      rw [(codeTrampoline_inj mode).mp same]

/-- `TrampolineAlloc` fails and changes nothing, or takes a slot for memory that the
    search found. -/
theorem trampolineAlloc_cases (mode : Mode w) (mm : MemoryManager w) {hooks : HookTable w} (sound : Sound hooks)
    (f : BitVec w) (up down : Int) :
    (trampolineAlloc mode mm hooks f up down = (hooks, none) ∧
      (used hooks.g_pHooks = MHOOKS_MAX_SUPPORTED_HOOKS ∨ search mode mm f up down = none)) ∨
    ∃ t after, search mode mm f up down = some t ∧ put t hooks.g_pHooks = some after ∧
      trampolineAlloc mode mm hooks f up down =
        ({ g_pHooks := after, g_nHooksInUse := hooks.g_nHooksInUse + 1 }, some t) := by
  have most := used_le hooks.g_pHooks
  have slots := sound.slots
  rw [trampolineAlloc]
  by_cases room : hooks.g_nHooksInUse < MHOOKS_MAX_SUPPORTED_HOOKS
  · rw [if_pos room]
    cases found : search mode mm f up down with
    | none => exact .inl ⟨rfl, .inr rfl⟩
    | some t =>
      have empty : (put t hooks.g_pHooks).isSome := by
        rw [put_isSome_iff, slots, ← sound.counted]
        exact room
      obtain ⟨after, puts⟩ := Option.isSome_iff_exists.mp empty
      refine .inr ⟨t, after, rfl, puts, ?_⟩
      dsimp only
      rw [puts]
  · rw [if_neg room]
    rw [sound.counted] at room
    exact .inl ⟨rfl, .inl (by omega)⟩

/-- A trampoline that is not in use yet keeps the table sound. -/
theorem sound_put {hooks : HookTable w} (sound : Sound hooks) {t : BitVec w} (fresh : t ∉ live hooks)
    {after : List (Option (BitVec w))} (puts : put t hooks.g_pHooks = some after) :
    Sound { g_pHooks := after, g_nHooksInUse := hooks.g_nHooksInUse + 1 } := by
  constructor
  · exact (put_length puts).trans sound.slots
  · exact (put_perm puts).nodup_iff.mpr (List.nodup_cons.mpr ⟨fresh, sound.distinct⟩)
  · rw [put_used puts, sound.counted]

theorem emptySlot_eq {hooks : HookTable w} {t : BitVec w} (member : t ∈ live hooks) :
    ∃ after, remove t hooks.g_pHooks = some after ∧
      emptySlot hooks t = { g_pHooks := after, g_nHooksInUse := hooks.g_nHooksInUse - 1 } := by
  obtain ⟨after, removes⟩ := Option.isSome_iff_exists.mp ((remove_isSome_iff t hooks.g_pHooks).mpr member)
  exact ⟨after, removes, by rw [emptySlot, removes]⟩

/-- Freeing a trampoline in use empties its slot and keeps the table sound. -/
theorem sound_free {hooks : HookTable w} (sound : Sound hooks) {t : BitVec w} (member : t ∈ live hooks) :
    Sound (emptySlot hooks t) ∧ ∀ u, u ∈ live (emptySlot hooks t) ↔ u ≠ t ∧ u ∈ live hooks := by
  obtain ⟨after, removes, free⟩ := emptySlot_eq member
  rw [free]
  refine ⟨⟨?_, ?_, ?_⟩, ?_⟩
  · exact (remove_length removes).trans sound.slots
  · have erased : values after = (values hooks.g_pHooks).erase t := remove_values removes
    dsimp only
    rw [erased]
    exact sound.distinct.erase t
  · have := remove_used removes
    dsimp only
    rw [sound.counted]
    omega
  · intro u
    exact remove_mem sound.distinct removes

/-- A trampoline that was just put into the table and is freed again leaves the table
    as it was, slot by slot. -/
theorem free_put {hooks : HookTable w} {t : BitVec w} (fresh : t ∉ live hooks)
    {after : List (Option (BitVec w))} (puts : put t hooks.g_pHooks = some after) :
    emptySlot { g_pHooks := after, g_nHooksInUse := hooks.g_nHooksInUse + 1 } t = hooks := by
  have back : remove t after = some hooks.g_pHooks := remove_put fresh puts
  simp [emptySlot, back]

end WinMiniTools.MhookAlloc
