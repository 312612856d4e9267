import WinMiniTools.MhookRuns
import WinMiniTools.PrintHooks

/-!
Hooks by trampolines, and the bytes behind them. A process refines a space of entries
and trampolines when every entry that jumps is the code of a hook in place, and every
trampoline in use has its members in memory (`Refines`). `Mhook_SetHook` and
`Mhook_Unhook` do to the bytes what `hook` and `unhook` do to the space (`refines_set`,
`refines_unhook`), so what is shown of the space holds of the process after any number
of calls.
-/
namespace WinMiniTools.MhookRefines
open WinMiniTools.AddressSpaces WinMiniTools.Processors WinMiniTools.MhookJumps WinMiniTools.MhookCode
  WinMiniTools.MhookAlloc WinMiniTools.Mhook WinMiniTools.MhookHooked WinMiniTools.MhookCalls WinMiniTools.MhookRuns
  WinMiniTools.Slots WinMiniTools.Machines
open WinMiniTools.Trampolines (Address hook unhook active hook_entry)
universe u v

variable {w : Nat} {Fn : Type v}

/-- Where the code stands that a pointer leads to: functions have their addresses, and
    a trampoline has its code in the block allocated for it. -/
def place (mode : Mode w) (code : Fn → BitVec w) (blocks : List (BitVec w)) : Address Fn → Option (BitVec w)
  | .function f => some (code f)
  | .trampoline n => (blocks[n]?).map (codeTrampoline mode)

/-- The process has the entries and the trampolines of the space, the trampolines in
    blocks that are listed in order of allocation. -/
structure Refines (mode : Mode w) (own : BitVec w → Prop) (base : Space w) (code : Fn → BitVec w)
    (s : Trampolines.Space Fn) (blocks : List (BitVec w)) (p : Process w) : Prop where
  inv : Inv mode own base p
  count : s.trampolines.length = blocks.length
  distinct : blocks.Nodup
  elsewhere : ∀ t ∈ blocks, ∀ f, codeTrampoline mode t ≠ code f
  listed : ∀ t ∈ live p.hooks, t ∈ blocks
  inUse : ∀ n t, blocks[n]? = some t → (t ∈ live p.hooks ↔ (active s (.trampoline n)).isSome)
  members : ∀ n t tr, blocks[n]? = some t → active s (.trampoline n) = some tr →
    place mode code blocks tr.system = some (pSystemFunctionOf p.mem t) ∧ code tr.hook = pHookFunctionOf mode p.mem t ∧
      s.entry tr.system = .jump tr.hook ∧ tr.untouched = .own
  entries : ∀ a h, s.entry a = .jump h →
    ∃ n tr, active s (.trampoline n) = some tr ∧ tr.system = a ∧ tr.hook = h

/-- The pointer is the code of the trampoline, if the address is one, and else that of
    none. -/
def Points (mode : Mode w) (blocks : List (BitVec w)) (a : Address Fn) (ptr : BitVec w) : Prop :=
  ∀ n t, blocks[n]? = some t → (codeTrampoline mode t = ptr ↔ a = .trampoline n)

section
variable {mode : Mode w} {own : BitVec w → Prop} {base : Space w} {code : Fn → BitVec w} {s : Trampolines.Space Fn}
  {blocks : List (BitVec w)} {p : Process w}

/-- An entry that jumps is the code of a hook in place. -/
theorem entry_jump (refines : Refines mode own base code s blocks p) {a : Address Fn} {h : Fn}
    (jumps : s.entry a = .jump h) : ∃ t ∈ live p.hooks,
      place mode code blocks a = some (pSystemFunctionOf p.mem t) ∧ code h = pHookFunctionOf mode p.mem t := by
  obtain ⟨n, tr, used, rfl, rfl⟩ := refines.entries a h jumps
  have inside : n < blocks.length := by
    rw [← refines.count]
    by_contra outside
    rw [active, List.getElem?_eq_none (by omega)] at used
    cases used
  have listed := List.getElem?_eq_getElem inside
  obtain ⟨system, hook, -, -⟩ := refines.members n _ tr listed used
  exact ⟨_, (refines.inUse n _ listed).mpr (by rw [used]; rfl), system, hook⟩

/-- Where `SkipJumps` stops nothing is hooked. -/
theorem entry_own (refines : Refines mode own base code s blocks p) {depth : Nat} {a : Address Fn} {ptr f : BitVec w}
    (found : skipJumps mode p.mem depth ptr = some f) (placed : place mode code blocks a = some f) :
    s.entry a = .own := by
  cases entry : s.entry a with
  | own => rfl
  | jump h =>
    obtain ⟨t, member, system, _⟩ := entry_jump refines entry
    rw [placed] at system
    exact absurd (Option.some.inj system).symm (hooked_once refines.inv found t member)

/-- A trampoline in use is one of those listed. -/
theorem active_listed (refines : Refines mode own base code s blocks p) {n : Nat} {tr : Trampolines.Trampoline Fn}
    (used : active s (.trampoline n) = some tr) : ∃ t, blocks[n]? = some t ∧ t ∈ live p.hooks := by
  have inside : n < blocks.length := by
    rw [← refines.count]
    by_contra outside
    rw [active, List.getElem?_eq_none (by omega)] at used
    cases used
  have listed := List.getElem?_eq_getElem inside
  exact ⟨_, listed, (refines.inUse n _ listed).mpr (by rw [used]; rfl)⟩

theorem place_append {a : Address Fn} {x : BitVec w} (placed : place mode code blocks a = some x) (t : BitVec w) :
    place mode code (blocks ++ [t]) a = some x := by
  cases a with
  | function f => exact placed
  | trampoline n =>
    obtain ⟨u, listed, same⟩ := Option.map_eq_some_iff.mp placed
    have inside := (List.getElem?_eq_some_iff.mp listed).1
    rw [place, List.getElem?_append_left inside, listed]
    exact congrArg some same

/-- A call that leaves the table and the trampolines in use as they are. -/
theorem refines_agree {q : Process w} (refines : Refines mode own base code s blocks p) (inv : Inv mode own base q)
    (hooks : q.hooks = p.hooks) (agrees : ∀ t ∈ live p.hooks, Agrees mode p.mem q.mem t) :
    Refines mode own base code s blocks q := by
  refine ⟨inv, refines.count, refines.distinct, refines.elsewhere, ?_, ?_, ?_, refines.entries⟩
  · rw [hooks]
    exact refines.listed
  · rw [hooks]
    exact refines.inUse
  · intro n t tr listed used
    have member := (refines.inUse n t listed).mpr (by rw [used]; rfl)
    rw [agrees_system (agrees t member), agrees_hook (agrees t member)]
    exact refines.members n t tr listed used

/-- With nothing hooked in the space, nothing is hooked in the process. -/
theorem restored_of_own (refines : Refines mode own base code s blocks p) (untouched : ∀ a, s.entry a = .own) :
    live p.hooks = [] ∧ ∀ x, own x → p.mem x = base x := by
  have none : ∀ t, t ∉ live p.hooks := by
    intro t member
    obtain ⟨n, inside, rfl⟩ := List.getElem_of_mem (refines.listed t member)
    have listed := List.getElem?_eq_getElem inside
    obtain ⟨tr, used⟩ := Option.isSome_iff_exists.mp ((refines.inUse n _ listed).mp member)
    obtain ⟨_, _, jumps, _⟩ := refines.members n _ tr listed used
    rw [untouched] at jumps
    cases jumps
  exact ⟨List.eq_nil_iff_forall_not_mem.mpr none,
    fun x mine => refines.inv.intact x mine (fun t member => absurd member (none t))⟩

/-- Blocks have one place each. -/
theorem points_of_place (refines : Refines mode own base code s blocks p) {n : Nat} {x : BitVec w}
    (placed : place mode code blocks (.trampoline n) = some x) : Points mode blocks (.trampoline n : Address Fn) x := by
  obtain ⟨t, listed, rfl⟩ := Option.map_eq_some_iff.mp placed
  intro m u listed'
  rw [codeTrampoline_inj mode]
  constructor
  · intro same
    subst same
    have inside := (List.getElem?_eq_some_iff.mp listed').1
    rw [(List.getElem?_inj inside refines.distinct).mp (listed'.trans listed.symm)]
  · intro same
    cases same
    exact Option.some.inj (listed'.symm.trans listed)

/-- A process in which nothing is hooked. -/
theorem refines_start (mode : Mode w) (own : BitVec w → Prop) (code : Fn → BitVec w) (hooks : p.hooks = noHooks) :
    Refines mode own p.mem code { entry := fun _ => .own, trampolines := [] } [] p := by
  have none : ∀ t, t ∉ live p.hooks := by
    intro t
    rw [hooks, live_noHooks]
    exact List.not_mem_nil
  exact ⟨inv_start mode own hooks, rfl, .nil, nofun, fun t member => absurd member (none t), nofun, nofun, nofun⟩

end

/-! ### Setting a hook -/

section
variable [DecidableEq Fn] {mode : Mode w} {own : BitVec w → Prop} {base : Space w} {code : Fn → BitVec w}
  {s : Trampolines.Space Fn} {blocks : List (BitVec w)} {p : Process w}

theorem active_hook_old {a : Address Fn} {n : Nat} (inside : n < s.trampolines.length) (h : Fn) :
    active (hook s a h).1 (.trampoline n) = active s (.trampoline n) := by
  simp only [active, hook, List.getElem?_append_left inside]

theorem active_hook_new (s : Trampolines.Space Fn) (a : Address Fn) (h : Fn) :
    active (hook s a h).1 (.trampoline s.trampolines.length) =
      some { system := a, hook := h, untouched := s.entry a } := by
  simp [active, hook]

/-- A call of `Mhook_SetHook` that succeeds sets the hook in the space, and the pointer
    to the new trampoline; one that fails changes neither. -/
theorem refines_set {disassembler : Disassembler w} {c : Circumstances w} {f : BitVec w} {r : Skipped} {a : Address Fn}
    {h : Fn} (refines : Refines mode own base code s blocks p) (ptr : BitVec w)
    (sane : Sane mode disassembler c p f r) (fitting : Fitting mode own c p f r.dwRet)
    (once : ∀ u ∈ live p.hooks, pSystemFunctionOf p.mem u ≠ f) (edge : ¬ Edge f (code h))
    (placed : place mode code blocks a = some f) (untouched : s.entry a = .own)
    (new : ∀ t, c.mm.virtualAlloc t = true → t ∉ blocks ∧ ∀ g, codeTrampoline mode t ≠ code g) :
    ((setHook mode disassembler c p ptr f (code h)).2 = (ptr, false) ∧
      Refines mode own base code s blocks (setHook mode disassembler c p ptr f (code h)).1) ∨
    ∃ t x, c.mm.virtualAlloc t = true ∧ (setHook mode disassembler c p ptr f (code h)).2 = (x, true) ∧
      place mode code (blocks ++ [t]) (hook s a h).2 = some x ∧
      Refines mode own base code (hook s a h).1 (blocks ++ [t]) (setHook mode disassembler c p ptr f (code h)).1 := by
  have inv := inv_setHook refines.inv ptr sane fitting once edge
  have agrees := setHook_agrees ptr refines.inv.sound sane fitting edge
  rcases setHook_spec ptr sane refines.inv.sound (fun far => absurd far edge) with
    ⟨result, hooks, _⟩ | ⟨t, slots, given, _, puts, result, hooks, installed⟩
  · exact .inl ⟨result, refines_agree refines inv hooks agrees⟩
  right
  generalize setHook mode disassembler c p ptr f (code h) = done at *
  obtain ⟨fresh, elsewhere⟩ := new t given
  have table : ∀ u, u ∈ live done.1.hooks ↔ u = t ∨ u ∈ live p.hooks := by
    intro u
    rw [hooks]
    exact (put_perm puts).mem_iff.trans List.mem_cons
  -- the trampolines in use before, and the new one
  have old : ∀ n u, (blocks ++ [t])[n]? = some u → n < blocks.length ∧ blocks[n]? = some u ∨ n = blocks.length ∧ u = t := by
    intro n u listed
    by_cases inside : n < blocks.length
    · rw [List.getElem?_append_left inside] at listed
      exact .inl ⟨inside, listed⟩
    · have last := (List.getElem?_eq_some_iff.mp listed).1
      rw [List.length_append, List.length_singleton] at last
      have same : n = blocks.length := by omega
      subst same
      simp only [List.getElem?_concat_length, Option.some.injEq] at listed
      exact .inr ⟨rfl, listed.symm⟩
  refine ⟨t, codeTrampoline mode t, given, result, ?_, inv, ?_, ?_, ?_, ?_, ?_, ?_, ?_⟩
  · simp [hook, place, refines.count]
  · simp [hook, refines.count]
  · exact List.nodup_append.mpr ⟨refines.distinct, List.nodup_singleton t, by
      intro u member v last same
      rw [List.mem_singleton.mp last] at same
      exact fresh (same ▸ member)⟩
  · intro u member g
    rcases List.mem_append.mp member with before | last
    · exact refines.elsewhere u before g
    · rw [List.mem_singleton.mp last]
      exact elsewhere g
  · intro u member
    rcases (table u).mp member with rfl | before
    · exact List.mem_append_right _ (List.mem_singleton.mpr rfl)
    · exact List.mem_append_left _ (refines.listed u before)
  · intro n u listed
    rcases old n u listed with ⟨inside, before⟩ | ⟨rfl, rfl⟩
    · rw [active_hook_old (by rwa [refines.count]), ← refines.inUse n u before, table]
      refine ⟨?_, .inr⟩
      rintro (rfl | member)
      · exact absurd (List.mem_of_getElem? before) fresh
      · exact member
    · rw [← refines.count, active_hook_new]
      exact ⟨fun _ => rfl, fun _ => (table u).mpr (.inl rfl)⟩
  · intro n u tr listed used
    rcases old n u listed with ⟨inside, before⟩ | ⟨rfl, rfl⟩
    · rw [active_hook_old (by rwa [refines.count])] at used
      have member := (refines.inUse n u before).mpr (by rw [used]; rfl)
      obtain ⟨system, hooked, jumps, kept⟩ := refines.members n u tr before used
      rw [agrees_system (agrees u member), agrees_hook (agrees u member)]
      refine ⟨place_append system t, hooked, ?_, kept⟩
      rw [hook_entry s (fun same => ?_), jumps]
      rw [same, untouched] at jumps
      cases jumps
    · rw [← refines.count, active_hook_new] at used
      cases used
      rw [installed.system, installed.hook]
      exact ⟨place_append placed u, rfl, by simp [hook], untouched⟩
  · intro b k jumps
    by_cases here : b = a
    · subst here
      have same : k = h := by simpa [hook] using jumps.symm
      exact ⟨_, _, active_hook_new s b h, rfl, same.symm⟩
    · rw [hook_entry s here] at jumps
      obtain ⟨n, tr, used, system, hooked⟩ := refines.entries b k jumps
      have inside : n < s.trampolines.length := by
        by_contra outside
        rw [active, List.getElem?_eq_none (by omega)] at used
        cases used
      exact ⟨n, tr, (active_hook_old inside h).trans used, system, hooked⟩

/-! ### Taking a hook away -/

theorem active_unhook {n : Nat} {tr : Trampolines.Trampoline Fn}
    (used : active s (.trampoline n) = some tr) (m : Nat) :
    active (unhook s (.trampoline n)).1 (.trampoline m) = if m = n then none else active s (.trampoline m) := by
  rw [unhook, used]
  simp only [active, Trampolines.free]
  by_cases same : m = n
  · subst same
    rw [if_pos rfl, List.getElem?_set_self']
    cases s.trampolines[m]? <;> rfl
  · rw [if_neg same, List.getElem?_set_ne (Ne.symm same)]

/-- `Mhook_Unhook` takes the hook away in the space, and sets the pointer to what it led
    to before; for other pointers it does nothing. -/
theorem refines_unhook {c : Circumstances w} {a : Address Fn} {ptr : BitVec w}
    (refines : Refines mode own base code s blocks p) (points : Points mode blocks a ptr)
    (protects : c.protectsSystem = true) :
    Refines mode own base code (unhook s a).1 blocks (mhook_Unhook mode c p ptr).1 ∧
      ((active s a = none ∧ (unhook s a).2 = a ∧ (mhook_Unhook mode c p ptr).2 = (ptr, false)) ∨
        (active s a ≠ none ∧
          ∃ x, (mhook_Unhook mode c p ptr).2 = (x, true) ∧ place mode code blocks (unhook s a).2 = some x)) := by
  have inv := inv_unhook refines.inv c ptr
  cases used : active s a with
  | none =>
    have same : unhook s a = (s, a) := by rw [unhook, used]
    rcases unhook_spec mode c p ptr with ⟨result, mem, hooks⟩ | ⟨t, member, leads, _⟩
    · rw [same, result]
      refine ⟨refines_agree refines inv hooks (fun u _ => ?_), .inl ⟨rfl, rfl, rfl⟩⟩
      rw [mem]
      exact ⟨fun x _ => rfl, fun x _ => rfl⟩
    · -- a trampoline in use is active
      obtain ⟨n, inside, listed⟩ := List.getElem_of_mem (refines.listed t member)
      have here : blocks[n]? = some t := by rw [List.getElem?_eq_getElem inside, listed]
      have active := (refines.inUse n t here).mp member
      rw [(points n t here).mp leads] at used
      rw [used] at active
      cases active
  | some tr =>
    cases a with
    | function f => cases used
    | trampoline n =>
      obtain ⟨t, listed, member⟩ := active_listed refines used
      have leads := (points n t listed).mpr rfl
      subst leads
      obtain ⟨result, mem, hooks⟩ := unhook_live mode member protects
      have agrees := unhook_agrees refines.inv member mem
      obtain ⟨system, -, -, untouched⟩ := refines.members n t tr listed used
      have back : unhook s (.trampoline n) =
          ({ entry := Function.update s.entry tr.system tr.untouched, trampolines := s.trampolines.set n none },
            tr.system) := by
        rw [unhook, used]
        rfl
      have left : ∀ u, u ∈ live (mhook_Unhook mode c p (codeTrampoline mode t)).1.hooks ↔ u ≠ t ∧ u ∈ live p.hooks := by
        rw [hooks]
        exact (sound_free refines.inv.sound member).2
      have others : ∀ m tr', active s (.trampoline m) = some tr' → m ≠ n → tr'.system ≠ tr.system := by
        intro m tr' used' different same
        obtain ⟨u, listed', member'⟩ := active_listed refines used'
        obtain ⟨system', -⟩ := refines.members m u tr' listed' used'
        rw [same, system] at system'
        refine systems_apart refines.inv member' member (fun equal => different ?_) (Option.some.inj system').symm
        subst equal
        exact (List.getElem?_inj (List.getElem?_eq_some_iff.mp listed').1 refines.distinct).mp (listed'.trans listed.symm)
      refine ⟨⟨inv, ?_, refines.distinct, refines.elsewhere, ?_, ?_, ?_, ?_⟩, 
        .inr ⟨Option.some_ne_none _, _, result, by rw [back]; exact system⟩⟩
      · rw [back]
        simp [refines.count]
      · exact fun u here => refines.listed u ((left u).mp here).2
      · intro m u listed'
        rw [left, active_unhook used m, refines.inUse m u listed']
        by_cases same : m = n
        · subst same
          rw [if_pos rfl]
          simp [Option.some.inj (listed'.symm.trans listed)]
        · rw [if_neg same]
          refine ⟨fun both => both.2, fun active => ⟨fun equal => same ?_, active⟩⟩
          subst equal
          exact (List.getElem?_inj (List.getElem?_eq_some_iff.mp listed').1 refines.distinct).mp
            (listed'.trans listed.symm)
      · intro m u tr' listed' used'
        rw [active_unhook used m] at used'
        by_cases same : m = n
        · rw [if_pos same] at used'
          cases used'
        · rw [if_neg same] at used'
          have member' := (refines.inUse m u listed').mpr (by rw [used']; rfl)
          rw [agrees_system (agrees u member'), agrees_hook (agrees u member'), back]
          obtain ⟨system', hook', jumps, untouched'⟩ := refines.members m u tr' listed' used'
          refine ⟨system', hook', ?_, untouched'⟩
          dsimp only
          rw [Function.update_of_ne (others m tr' used' same), jumps]
      · intro b h jumps
        rw [back] at jumps
        dsimp only at jumps
        by_cases here : b = tr.system
        · rw [here, Function.update_self, untouched] at jumps
          cases jumps
        · rw [Function.update_of_ne here] at jumps
          obtain ⟨m, tr', used', rfl, rfl⟩ := refines.entries b h jumps
          refine ⟨m, tr', ?_, rfl, rfl⟩
          rw [active_unhook used m, if_neg, used']
          rintro rfl
          cases used'.symm.trans used
          exact here rfl

end

/-! ### Any number of calls -/

/-- A call, and what its pointers lead to. -/
inductive Request (w : Nat) (Fn : Type v) where
  | set (c : Circumstances w) (ptr hook : BitVec w) (a : Address Fn) (h : Fn)
  | unset (c : Circumstances w) (ptr : BitVec w) (a : Address Fn)

/-- A space, the blocks of its trampolines, and a process. -/
abbrev Pair (w : Nat) (Fn : Type v) := Trampolines.Space Fn × List (BitVec w) × Process w

section
variable [DecidableEq Fn]

/-- Every call is one of the library, and in the space what it returns true for. -/
def both (mode : Mode w) (disassembler : Disassembler w) : Machine (Pair w Fn) (Request w Fn) where
  step
    | (s, blocks, p), .set c ptr hook' a h =>
      (mhook_SetHook mode disassembler c p ptr hook').map (fun done =>
        if done.2.2 then
          ((hook s a h).1, blocks ++ [done.2.1 - BitVec.ofNat w (layout mode).codeTrampoline], done.1)
        else (s, blocks, done.1))
    | (s, blocks, p), .unset c ptr a =>
      some (if c.protectsSystem then (unhook s a).1 else s, blocks, (mhook_Unhook mode c p ptr).1)

/-- A hook is set for the code that the pointer leads to, under the conditions that a run
    needs, and memory is allocated where none was before. -/
def Settable (mode : Mode w) (own : BitVec w → Prop) (disassembler : Disassembler w) (code : Fn → BitVec w)
    (blocks : List (BitVec w)) (p : Process w) (c : Circumstances w) (ptr hook : BitVec w) (a : Address Fn) (h : Fn) :
    Prop :=
  ∀ f x, skipJumps mode p.mem c.depth ptr = some f → skipJumps mode p.mem c.depth hook = some x →
    place mode code blocks a = some f ∧ code h = x ∧ ¬ Edge f x ∧
      (∃ r, Sane mode disassembler c p f r ∧ Fitting mode own c p f r.dwRet) ∧
      ∀ t, c.mm.virtualAlloc t = true → t ∉ blocks ∧ ∀ g, codeTrampoline mode t ≠ code g

def Corresponds (mode : Mode w) (own : BitVec w → Prop) (disassembler : Disassembler w) (code : Fn → BitVec w) :
    Pair w Fn → Request w Fn → Pair w Fn → Prop
  | (_, blocks, p), .set c ptr hook a h, _ => Settable mode own disassembler code blocks p c ptr hook a h
  | (_, blocks, _), .unset _ ptr a, _ => Points mode blocks a ptr

variable {mode : Mode w} {own : BitVec w → Prop} {base : Space w} {code : Fn → BitVec w} {s t : Trampolines.Space Fn}
  {blocks later : List (BitVec w)} {p q : Process w} {disassembler : Disassembler w}

/-- One call of `Mhook_SetHook`, from the pointers passed on. -/
theorem refines_call {c : Circumstances w} {ptr hook' ptr' : BitVec w} {a : Address Fn} {h : Fn} {done : Bool}
    (refines : Refines mode own base code s blocks p)
    (settable : Settable mode own disassembler code blocks p c ptr hook' a h)
    (called : mhook_SetHook mode disassembler c p ptr hook' = some (q, ptr', done)) :
    (done = false ∧ ptr' = ptr ∧ Refines mode own base code s blocks q) ∨
      (done = true ∧ c.mm.virtualAlloc (ptr' - BitVec.ofNat w (layout mode).codeTrampoline) = true ∧
        place mode code (blocks ++ [ptr' - BitVec.ofNat w (layout mode).codeTrampoline]) (hook s a h).2 = some ptr' ∧
        Refines mode own base code (hook s a h).1
          (blocks ++ [ptr' - BitVec.ofNat w (layout mode).codeTrampoline]) q) := by
  rw [mhook_SetHook] at called
  cases system : skipJumps mode p.mem c.depth ptr with
  | none => simp [system] at called
  | some f =>
    cases target : skipJumps mode p.mem c.depth hook' with
    | none => simp [system, target] at called
    | some x =>
      simp only [system, target, Option.some.injEq] at called
      obtain ⟨placed, rfl, edge, ⟨r, sane, fitting⟩, new⟩ := settable f x system target
      rcases refines_set refines ptr sane fitting (hooked_once refines.inv system) edge placed (entry_own refines system placed) new with
        ⟨result, refines'⟩ | ⟨t, y, given, result, placed', refines'⟩
      · rw [called] at result refines'
        obtain ⟨rfl, rfl⟩ := Prod.mk.inj result
        exact .inl ⟨rfl, rfl, refines'⟩
      · rw [called] at result refines'
        obtain ⟨rfl, rfl⟩ := Prod.mk.inj result
        have block : ptr' - BitVec.ofNat w (layout mode).codeTrampoline = t := by
          have leads : codeTrampoline mode t = ptr' := by
            simpa [hook, place, refines.count] using placed'
          rw [← leads, codeTrampoline, BitVec.add_sub_cancel]
        rw [block]
        exact .inr ⟨rfl, given, placed', refines'⟩

theorem refines_step (x : Pair w Fn) (request : Request w Fn) (y : Pair w Fn)
    (refines : Refines mode own base code x.1 x.2.1 x.2.2) (here : Corresponds mode own disassembler code x request y)
    (step : (both mode disassembler).step x request = some y) : Refines mode own base code y.1 y.2.1 y.2.2 := by
  obtain ⟨s, blocks, p⟩ := x
  cases request with
  | unset c ptr a =>
    cases step
    cases protects : c.protectsSystem with
    | true => exact (refines_unhook refines here protects).1
    | false =>
      refine refines_agree refines (inv_unhook refines.inv c ptr) ?_ (fun u _ => ?_)
      · rcases unhook_spec mode c p ptr with ⟨_, _, hooks⟩ | ⟨u, _, _, yes, _⟩
        · exact hooks
        · rw [protects] at yes
          cases yes
      · rcases unhook_spec mode c p ptr with ⟨_, mem, _⟩ | ⟨u, _, _, yes, _⟩
        · dsimp only
          rw [mem]
          exact ⟨fun x _ => rfl, fun x _ => rfl⟩
        · rw [protects] at yes
          cases yes
  | set c ptr hook' a h =>
    obtain ⟨⟨q, ptr', done⟩, called, rfl⟩ := Option.map_eq_some_iff.mp step
    rcases refines_call refines here called with ⟨rfl, _, refines'⟩ | ⟨rfl, _, _, refines'⟩
    · exact refines'
    · exact refines'

theorem refines_run {requests : List (Request w Fn)} (hooks : p.hooks = noHooks)
    (corresponds : (both mode disassembler).Steps (Corresponds mode own disassembler code)
      ({ entry := fun _ => .own, trampolines := [] }, [], p) requests)
    (ran : (both mode disassembler).run ({ entry := fun _ => .own, trampolines := [] }, [], p) requests =
      some (s, blocks, q)) : Refines mode own p.mem code s blocks q :=
  Machine.run_steps _ refines_step (refines_start mode own code hooks) corresponds ran

/-- After any number of calls every entry that jumps in the space makes the processor run
    the hook, and once every entry is the function's own again, so is all code of the
    process. Another call of `Mhook_Unhook` returns true exactly if the pointer leads to
    a trampoline of the space that is in use, and sets it to the code that the space
    says. -/
theorem refined_run {Data : Type u} (P : Processor w Data) {requests : List (Request w Fn)} (hooks : p.hooks = noHooks)
    (corresponds : (both P.mode disassembler).Steps (Corresponds P.mode own disassembler code)
      ({ entry := fun _ => .own, trampolines := [] }, [], p) requests)
    (ran : (both P.mode disassembler).run ({ entry := fun _ => .own, trampolines := [] }, [], p) requests =
      some (s, blocks, q)) :
    (∀ a h, s.entry a = .jump h →
        ∃ x, place P.mode code blocks a = some x ∧ ∀ d, Reaches P q.mem (x, d) (code h, d)) ∧
      ((∀ a, s.entry a = .own) → live q.hooks = [] ∧ ∀ x, own x → q.mem x = p.mem x) ∧
      ∀ c a ptr, Points P.mode blocks a ptr → c.protectsSystem = true →
        ((mhook_Unhook P.mode c q ptr).2.2 = true ↔ active s a ≠ none) ∧
        (active s a ≠ none → place P.mode code blocks (unhook s a).2 = some (mhook_Unhook P.mode c q ptr).2.1) := by
  have refines := refines_run hooks corresponds ran
  refine ⟨?_, restored_of_own refines, ?_⟩
  · intro a h jumps
    obtain ⟨t, member, system, target⟩ := entry_jump refines jumps
    refine ⟨_, system, fun d => ?_⟩
    rw [target]
    exact inPlace_reaches P (refines.inv.inPlace t member) d
  · intro c a ptr points protects
    rcases refines_unhook refines points protects with ⟨_, ⟨none, _, result⟩ | ⟨used, x, result, placed⟩⟩
    · rw [none, result]
      exact ⟨⟨nofun, fun some' => absurd rfl some'⟩, fun some' => absurd rfl some'⟩
    · rw [result]
      exact ⟨⟨fun _ => used, fun _ => rfl⟩, fun _ => placed⟩

end

/-- A program of one function, and its hook. -/
def loadAddress : Bool → BitVec 64
  | false => 0x7ff600001000
  | true => 0x10000000

/-- The function is hooked, and the hook is taken away by the pointer to the trampoline. -/
def loadRequests : List (Request 64 Bool) :=
  [.set loadCircumstances 0x7ff600001000 0x10000000 (.function false) true,
    .unset loadCircumstances 0x7ff580020038 (.trampoline 0)]

theorem loadSettable :
    Settable .x64 loadOwn loadDisassembler loadAddress [] loadProcess loadCircumstances 0x7ff600001000 0x10000000
      (.function false) true := by
  intro f x system target
  have here : skipJumps .x64 loadCode 1 0x7ff600001000 = some 0x7ff600001000 := by decide +kernel
  have there : skipJumps .x64 loadCode 1 0x10000000 = some 0x10000000 := by decide +kernel
  cases here.symm.trans system
  cases there.symm.trans target
  refine ⟨rfl, rfl, by decide, ⟨loadSkipped, loadProcess_sane, loadCall_fitting⟩, ?_⟩
  intro t given
  have same : t = 0x7ff580020000 := of_decide_eq_true given
  subst same
  exact ⟨List.not_mem_nil, by decide⟩

theorem refined_run_load : ∃ s blocks q,
    (both .x64 loadDisassembler).run ({ entry := fun _ => .own, trampolines := [] }, [], loadProcess) loadRequests =
        some (s, blocks, q) ∧
      (∀ a h, s.entry a = .jump h →
        ∃ x, place .x64 loadAddress blocks a = some x ∧ ∀ d, Reaches loadProcessor q.mem (x, d) (loadAddress h, d)) ∧
      ((∀ a, s.entry a = .own) → live q.hooks = [] ∧ ∀ x, loadOwn x → q.mem x = loadProcess.mem x) ∧
      ∀ c a ptr, Points .x64 blocks a ptr → c.protectsSystem = true →
        ((mhook_Unhook .x64 c q ptr).2.2 = true ↔ active s a ≠ none) ∧
        (active s a ≠ none → place .x64 loadAddress blocks (unhook s a).2 = some (mhook_Unhook .x64 c q ptr).2.1) := by
  obtain ⟨q, called⟩ := loadProcess_hooks
  have first : (both .x64 loadDisassembler).step ({ entry := fun _ => .own, trampolines := [] }, [], loadProcess)
      (.set loadCircumstances 0x7ff600001000 0x10000000 (.function false) true) =
        some ((hook { entry := fun _ => .own, trampolines := [] } (.function false) true).1, [0x7ff580020000], q) := by
    have block : (0x7ff580020038 : BitVec 64) - BitVec.ofNat 64 (layout .x64).codeTrampoline = 0x7ff580020000 := by decide
    simp only [both, called, Option.map_some, if_true, List.nil_append, block]
  have points : Points .x64 [0x7ff580020000] (.trampoline 0 : Address Bool) 0x7ff580020038 := by
    intro n t listed
    cases n with
    | zero =>
      cases listed
      decide
    | succ n => cases listed
  have ran : (both .x64 loadDisassembler).run ({ entry := fun _ => .own, trampolines := [] }, [], loadProcess)
      loadRequests =
        some ((unhook (hook { entry := fun _ => .own, trampolines := [] } (.function false) true).1 (.trampoline 0)).1,
          [0x7ff580020000], (mhook_Unhook .x64 loadCircumstances q 0x7ff580020038).1) :=
    (Machine.run_cons_some _).mpr ⟨_, first, rfl⟩
  have steps : (both .x64 loadDisassembler).Steps (Corresponds .x64 loadOwn loadDisassembler loadAddress)
      ({ entry := fun _ => .own, trampolines := [] }, [], loadProcess) loadRequests :=
    (Machine.steps_cons _ _ first _).mpr ⟨loadSettable, (Machine.steps_cons _ _ rfl _).mpr ⟨points, trivial⟩⟩
  exact ⟨_, _, _, ran, refined_run loadProcessor rfl steps ran⟩

end WinMiniTools.MhookRefines
