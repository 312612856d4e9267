import WinMiniTools.MhookCalls
import WinMiniTools.Machines

/-!
Runs of `mhook-lib`: any number of calls of `Mhook_SetHook` and `Mhook_Unhook`, in
any order, each meeting what it may. As long as different functions have no byte of
the code moved in common, no function is hooked twice (`hooked_once`), every
function that is hooked leads to its hook after every call, every byte that is in
none of them is as it was before the first call, and so is all code once every hook
is taken away again.
-/
namespace WinMiniTools.MhookRuns
open WinMiniTools.Words WinMiniTools.AddressSpaces WinMiniTools.Processors WinMiniTools.MhookJumps
  WinMiniTools.MhookCode WinMiniTools.MhookAlloc WinMiniTools.Mhook WinMiniTools.MhookHooked WinMiniTools.MhookCalls
  WinMiniTools.Slots
  WinMiniTools.Machines
open WinMiniTools.MhookThreads (Idle isOther resume_suspend)
universe u

variable {w : Nat}

/-- A call, what it meets, and the pointers passed. -/
inductive Call (w : Nat) where
  | setHook (c : Circumstances w) (ptr hook : BitVec w)
  | unhook (c : Circumstances w) (ptr : BitVec w)

/-- One call after the other; a call does not return when the stack runs out. -/
def library (mode : Mode w) (disassembler : Disassembler w) : Machine (Process w) (Call w) where
  step p
    | .setHook c ptr hook => (mhook_SetHook mode disassembler c p ptr hook).map (fun done => done.1)
    | .unhook c ptr => some (mhook_Unhook mode c p ptr).1

/-- What a trampoline keeps apart from the code moved: its members with the jump to
    the hook, and the code untouched. -/
structure Keeps (mode : Mode w) (t f : BitVec w) (n : Nat) : Prop where
  members : Apart t (layout mode).codeTrampoline f n
  untouched : Apart (codeUntouched mode t) MHOOKS_MAX_CODE_BYTES f n

/-- The hook of a trampoline is in place. -/
structure InPlace (mode : Mode w) (mem : Space w) (t : BitVec w) : Prop where
  enough : 5 ≤ cbOverwrittenCodeOf mode mem t
  few : cbOverwrittenCodeOf mode mem t ≤ 19
  leads : ∃ target, (jumpCode mode (pSystemFunctionOf mem t) target).length = 5 ∧
    Contains mem (pSystemFunctionOf mem t) (jumpCode mode (pSystemFunctionOf mem t) target) ∧
    (target = pHookFunctionOf mode mem t ∨ target = codeJumpToHookFunction mode t ∧
      Contains mem (codeJumpToHookFunction mode t)
        (jumpCode mode (codeJumpToHookFunction mode t) (pHookFunctionOf mode mem t)))

/-- The code saved by a trampoline. -/
def Saved (mode : Mode w) (mem : Space w) (t x : BitVec w) : Prop :=
  Within (pSystemFunctionOf mem t) (cbOverwrittenCodeOf mode mem t) x

/-- The hooks in place, and the memory behind them: `own` are the addresses of the
    program, and `base` what it had there before the first call. -/
structure Inv (mode : Mode w) (own : BitVec w → Prop) (base : Space w) (p : Process w) : Prop where
  sound : Sound p.hooks
  inPlace : ∀ t ∈ live p.hooks, InPlace mode p.mem t
  keeps : ∀ t ∈ live p.hooks, ∀ u ∈ live p.hooks,
    Keeps mode u (pSystemFunctionOf p.mem t) (cbOverwrittenCodeOf mode p.mem t)
  zones : ∀ t ∈ live p.hooks, ∀ u ∈ live p.hooks, t ≠ u → ∀ x, Saved mode p.mem t x → ¬ Saved mode p.mem u x
  intact : ∀ x, own x → (∀ t ∈ live p.hooks, ¬ Saved mode p.mem t x) → p.mem x = base x
  kept : ∀ t ∈ live p.hooks, ∀ i, i < cbOverwrittenCodeOf mode p.mem t →
    own (pSystemFunctionOf p.mem t + BitVec.ofNat w i) →
    p.mem (codeUntouched mode t + BitVec.ofNat w i) = base (pSystemFunctionOf p.mem t + BitVec.ofNat w i)

/-- What the calls of a run take for granted: a function has no byte in common with the
    other ones that are hooked already or with what their trampolines keep, and memory
    that is allocated is neither the program's nor in use. -/
structure Fitting (mode : Mode w) (own : BitVec w → Prop) (c : Circumstances w) (p : Process w) (f : BitVec w) (n : Nat) :
    Prop where
  zones : ∀ u ∈ live p.hooks, pSystemFunctionOf p.mem u ≠ f → ∀ x, Within f n x → ¬ Saved mode p.mem u x
  keeps : ∀ u ∈ live p.hooks, Keeps mode u f n
  blocks : ∀ t, c.mm.virtualAlloc t = true → ∀ u ∈ live p.hooks, Apart t (layout mode).sizeof u (layout mode).sizeof
  code : ∀ t, c.mm.virtualAlloc t = true → ∀ u ∈ live p.hooks, ∀ x, Within t (layout mode).sizeof x →
    ¬ Saved mode p.mem u x
  free : ∀ t, c.mm.virtualAlloc t = true → ∀ x, Within t (layout mode).sizeof x → ¬ own x

def Allowed (mode : Mode w) (own : BitVec w → Prop) (disassembler : Disassembler w) (p : Process w) :
    Call w → Process w → Prop
  | .setHook c ptr hook, _ => ∀ f h, skipJumps mode p.mem c.depth ptr = some f →
      skipJumps mode p.mem c.depth hook = some h → ¬ Edge f h ∧
        ∃ r, Sane mode disassembler c p f r ∧ Fitting mode own c p f r.dwRet
  | .unhook _ _, _ => True

/-! ### What a trampoline keeps -/

section
variable {mode : Mode w} {mem other : Space w} {t : BitVec w}

/-- Two memories have the same in the members of a trampoline and in its code
    untouched. -/
structure Agrees (mode : Mode w) (mem other : Space w) (t : BitVec w) : Prop where
  members : ∀ x, Within t (layout mode).codeTrampoline x → other x = mem x
  untouched : ∀ x, Within (codeUntouched mode t) MHOOKS_MAX_CODE_BYTES x → other x = mem x

theorem agrees_system (agrees : Agrees mode mem other t) : pSystemFunctionOf other t = pSystemFunctionOf mem t := by
  obtain ⟨system, overwritten, hook, ahead, jump, -⟩ := layout_ordered mode
  refine load_congr (read_congr fun x within => agrees.members x (within_mono ?_ within))
  omega

theorem agrees_hook (agrees : Agrees mode mem other t) : pHookFunctionOf mode other t = pHookFunctionOf mode mem t := by
  obtain ⟨system, overwritten, hook, ahead, jump, -⟩ := layout_ordered mode
  refine load_congr (read_congr fun x within => agrees.members x (within_part ?_ within))
  omega

theorem agrees_overwritten (agrees : Agrees mode mem other t) :
    cbOverwrittenCodeOf mode other t = cbOverwrittenCodeOf mode mem t := by
  obtain ⟨system, overwritten, hook, ahead, jump, -⟩ := layout_ordered mode
  rw [cbOverwrittenCodeOf, cbOverwrittenCodeOf]
  congr 1
  refine load_congr (read_congr fun x within => agrees.members x (within_part ?_ within))
  omega

theorem agrees_saved (agrees : Agrees mode mem other t) (x : BitVec w) : Saved mode other t x ↔ Saved mode mem t x := by
  rw [Saved, agrees_system agrees, agrees_overwritten agrees, Saved]

/-- A hook stays in place as long as its trampoline and the code it saved are not
    written to. -/
theorem agrees_inPlace (agrees : Agrees mode mem other t) (code : ∀ x, Saved mode mem t x → other x = mem x)
    (inPlace : InPlace mode mem t) : InPlace mode other t := by
  obtain ⟨-, -, -, -, jump, -⟩ := layout_ordered mode
  simp only [MHOOKS_MAX_CODE_BYTES] at jump
  obtain ⟨enough, few, target, length, api, stub⟩ := inPlace
  constructor
  · rwa [agrees_overwritten agrees]
  · rwa [agrees_overwritten agrees]
  · rw [agrees_system agrees, agrees_hook agrees]
    refine ⟨target, length, contains_read api (read_congr fun x within => code x ?_), ?_⟩
    · rw [length] at within
      exact within_mono enough within
    · rcases stub with direct | ⟨far, stub⟩
      · exact .inl direct
      · refine .inr ⟨far, contains_read stub (read_congr fun x within => agrees.members x (within_part ?_ within))⟩
        have := jumpCode_length_le mode (codeJumpToHookFunction mode t) (pHookFunctionOf mode mem t)
        omega

/-- Memories that differ only elsewhere agree. -/
theorem agrees_of_frame {u f : BitVec w} {n : Nat} (blocks : Apart t (layout mode).sizeof u (layout mode).sizeof)
    (keeps : Keeps mode u f n)
    (frame : ∀ x, ¬ Within t (layout mode).sizeof x → ¬ Within f n x → other x = mem x) : Agrees mode mem other u := by
  obtain ⟨-, -, -, -, -, trampoline, untouched, -⟩ := layout_ordered mode
  constructor
  · intro x within
    have inside : Within u (layout mode).sizeof x := within_mono (by omega) within
    exact frame x (fun there => blocks x there inside) (keeps.members x within)
  · intro x within
    have inside : Within u (layout mode).sizeof x := within_part (by omega) within
    exact frame x (fun there => blocks x there inside) (keeps.untouched x within)

end

/-! ### One call -/

section
variable {mode : Mode w} {own : BitVec w → Prop} {base : Space w} {p q : Process w} {c : Circumstances w}
  {t f h : BitVec w}

theorem codeUntouched_offset (mode : Mode w) (t : BitVec w) {i n : Nat} (inside : i < n) (few : n ≤ 19) :
    Within (codeUntouched mode t) MHOOKS_MAX_CODE_BYTES (codeUntouched mode t + BitVec.ofNat w i) :=
  within_offset _ (by simp only [MHOOKS_MAX_CODE_BYTES]; omega)

theorem keeps_of_apart {n : Nat} (apart : Apart t (layout mode).sizeof f n) : Keeps mode t f n := by
  obtain ⟨-, -, -, -, -, trampoline, untouched, -⟩ := layout_ordered mode
  exact ⟨apart_mono apart (by omega) (Nat.le_refl n), apart_part apart untouched⟩

/-- A call that does not touch the table, the trampolines or the program keeps the
    invariant. -/
theorem inv_agree (inv : Inv mode own base p) (hooks : q.hooks = p.hooks)
    (agrees : ∀ u ∈ live p.hooks, Agrees mode p.mem q.mem u)
    (code : ∀ u ∈ live p.hooks, ∀ x, Saved mode p.mem u x → q.mem x = p.mem x)
    (program : ∀ x, own x → q.mem x = p.mem x) : Inv mode own base q := by
  have saved : ∀ u ∈ live p.hooks, ∀ x, Saved mode q.mem u x ↔ Saved mode p.mem u x :=
    fun u member => agrees_saved (agrees u member)
  constructor
  · rw [hooks]
    exact inv.sound
  · rw [hooks]
    exact fun u member => agrees_inPlace (agrees u member) (code u member) (inv.inPlace u member)
  · rw [hooks]
    intro u member v member'
    rw [agrees_system (agrees u member), agrees_overwritten (agrees u member)]
    exact inv.keeps u member v member'
  · rw [hooks]
    intro u member v member' different x here there
    exact inv.zones u member v member' different x ((saved u member x).mp here) ((saved v member' x).mp there)
  · rw [hooks]
    intro x mine outside
    rw [program x mine]
    exact inv.intact x mine (fun u member here => outside u member ((saved u member x).mpr here))
  · rw [hooks]
    intro u member i inside mine
    have few := (inv.inPlace u member).few
    rw [agrees_overwritten (agrees u member)] at inside
    rw [agrees_system (agrees u member)] at mine ⊢
    rw [(agrees u member).untouched _ (codeUntouched_offset mode u inside few)]
    exact inv.kept u member i inside mine

/-- No function is hooked twice: `SkipJumps` does not stop at the jump to a hook. -/
theorem hooked_once (inv : Inv mode own base p) {depth : Nat} {ptr : BitVec w}
    (system : skipJumps mode p.mem depth ptr = some f) : ∀ u ∈ live p.hooks, pSystemFunctionOf p.mem u ≠ f := by
  rintro u member rfl
  obtain ⟨target, _, api, _⟩ := (inv.inPlace u member).leads
  have jumps := jumpCode_jumps api
  have stops := skipJumps_stops system
  rw [skipPrologue_of_jump jumps, jumps] at stops
  cases stops

/-- Hooks in place have different functions. -/
theorem systems_apart (inv : Inv mode own base p) {t u : BitVec w} (here : t ∈ live p.hooks) (there : u ∈ live p.hooks)
    (different : t ≠ u) : pSystemFunctionOf p.mem t ≠ pSystemFunctionOf p.mem u := by
  intro same
  have enough := (inv.inPlace t here).enough
  have enough' := (inv.inPlace u there).enough
  have first : Saved mode p.mem t (pSystemFunctionOf p.mem t) := by
    rw [Saved, Within, BitVec.sub_self, BitVec.toNat_zero]
    omega
  refine inv.zones t here u there different _ first ?_
  rw [Saved, same, Within, BitVec.sub_self, BitVec.toNat_zero]
  omega

/-- A trampoline that was allocated and given back keeps the invariant. -/
theorem inv_cleared (inv : Inv mode own base p) {n : Nat} (fitting : Fitting mode own c p f n)
    (given : c.mm.virtualAlloc t = true) (hooks : q.hooks = p.hooks) (mem : q.mem = cleared mode p.mem t) :
    Inv mode own base q := by
  have frame : ∀ x, ¬ Within t (layout mode).sizeof x → ¬ Within f n x → q.mem x = p.mem x := by
    intro x outside _
    rw [mem, cleared_outside outside]
  refine inv_agree inv hooks (fun u member => agrees_of_frame (fitting.blocks t given u member)
    (fitting.keeps u member) frame) ?_ ?_
  · intro u member x saved
    rw [mem, cleared_outside (fun there => fitting.code t given u member x there saved)]
  · intro x mine
    rw [mem, cleared_outside (fun there => fitting.free t given x there mine)]

/-- A hook that is installed keeps the invariant. -/
theorem inv_installed (inv : Inv mode own base p) {r : Skipped} (fitting : Fitting mode own c p f r.dwRet)
    (once : ∀ u ∈ live p.hooks, pSystemFunctionOf p.mem u ≠ f) (given : c.mm.virtualAlloc t = true) (fresh : t ∉ live p.hooks) (placed : Placed mode f t r.dwRet)
    (edge : ¬ Edge f h) {slots : List (Option (BitVec w))} (puts : put t p.hooks.g_pHooks = some slots)
    (hooks : q.hooks = { g_pHooks := slots, g_nHooksInUse := p.hooks.g_nHooksInUse + 1 })
    (installed : Installed mode p.mem q.mem f h t r) : Inv mode own base q := by
  have short := apiLength_short placed edge
  have enough := placed.enough
  have few := placed.few
  have frame : ∀ x, ¬ Within t (layout mode).sizeof x → ¬ Within f r.dwRet x → q.mem x = p.mem x := by
    intro x outside other
    refine installed.frame x outside (fun within => other ?_)
    rw [short] at within
    exact within_mono enough within
  have zones : ∀ u ∈ live p.hooks, ∀ x, Within f r.dwRet x → ¬ Saved mode p.mem u x :=
    fun u member => fitting.zones u member (once u member)
  have agrees : ∀ u ∈ live p.hooks, Agrees mode p.mem q.mem u :=
    fun u member => agrees_of_frame (fitting.blocks t given u member) (fitting.keeps u member) frame
  have code : ∀ u ∈ live p.hooks, ∀ x, Saved mode p.mem u x → q.mem x = p.mem x :=
    fun u member x saved => frame x (fun there => fitting.code t given u member x there saved)
      (fun here => zones u member x here saved)
  have saved : ∀ u ∈ live p.hooks, ∀ x, Saved mode q.mem u x ↔ Saved mode p.mem u x :=
    fun u member => agrees_saved (agrees u member)
  have new : ∀ x, Saved mode q.mem t x ↔ Within f r.dwRet x := by
    intro x
    rw [Saved, installed.system, installed.overwritten]
  have members : ∀ u, u ∈ live q.hooks ↔ u = t ∨ u ∈ live p.hooks := by
    intro u
    rw [hooks]
    exact (put_perm puts).mem_iff.trans List.mem_cons
  constructor
  · rw [hooks]
    exact sound_put inv.sound fresh puts
  · intro u member
    rcases (members u).mp member with rfl | old
    · refine ⟨by rw [installed.overwritten]; exact enough, by rw [installed.overwritten]; exact few, ?_⟩
      rw [installed.system, installed.hook]
      exact ⟨_, short, installed.api, installed.stub⟩
    · exact agrees_inPlace (agrees u old) (code u old) (inv.inPlace u old)
  · intro u member v member'
    rcases (members u).mp member with rfl | old
    · rw [installed.system, installed.overwritten]
      rcases (members v).mp member' with rfl | old'
      · exact keeps_of_apart placed.apart
      · exact fitting.keeps v old'
    · rw [agrees_system (agrees u old), agrees_overwritten (agrees u old)]
      rcases (members v).mp member' with rfl | old'
      · exact keeps_of_apart (fitting.code v given u old)
      · exact inv.keeps u old v old'
  · intro u member v member' different x here there
    rcases (members u).mp member with rfl | old
    · rcases (members v).mp member' with rfl | old'
      · exact different rfl
      · exact zones v old' x ((new x).mp here) ((saved v old' x).mp there)
    · rcases (members v).mp member' with rfl | old'
      · exact zones u old x ((new x).mp there) ((saved u old x).mp here)
      · exact inv.zones u old v old' different x ((saved u old x).mp here) ((saved v old' x).mp there)
  · intro x mine outside
    rw [frame x (fun here => fitting.free t given x here mine)
      (fun here => outside t ((members t).mpr (.inl rfl)) ((new x).mpr here))]
    exact inv.intact x mine
      (fun u old here => outside u ((members u).mpr (.inr old)) ((saved u old x).mpr here))
  · intro u member i inside mine
    rcases (members u).mp member with rfl | old
    · rw [installed.overwritten] at inside
      rw [installed.system] at mine ⊢
      rw [agree_of_read installed.untouched inside]
      exact inv.intact _ mine (fun v old here => zones v old _ (within_offset f inside) here)
    · rw [agrees_overwritten (agrees u old)] at inside
      rw [agrees_system (agrees u old)] at mine ⊢
      rw [(agrees u old).untouched _ (codeUntouched_offset mode u inside (inv.inPlace u old).few)]
      exact inv.kept u old i inside mine

/-- Setting a hook does not touch the trampolines in use. -/
theorem setHook_agrees {disassembler : Disassembler w} {r : Skipped} (ptr : BitVec w) (sound : Sound p.hooks)
    (sane : Sane mode disassembler c p f r) (fitting : Fitting mode own c p f r.dwRet) (edge : ¬ Edge f h) :
    ∀ u ∈ live p.hooks, Agrees mode p.mem (setHook mode disassembler c p ptr f h).1.mem u := by
  intro u member
  rcases setHook_spec ptr sane sound (fun far => absurd far edge) with
    ⟨_, _, mem | ⟨t, given, mem⟩⟩ | ⟨t, slots, given, placed, _, _, _, installed⟩
  · rw [mem]
    exact ⟨fun x _ => rfl, fun x _ => rfl⟩
  · rw [mem]
    exact agrees_of_frame (fitting.blocks t given u member) (fitting.keeps u member)
      (fun x outside _ => cleared_outside outside)
  · refine agrees_of_frame (fitting.blocks t given u member) (fitting.keeps u member) ?_
    intro x outside other
    refine installed.frame x outside (fun within => other ?_)
    rw [apiLength_short placed edge] at within
    exact within_mono placed.enough within

/-- A call of `Mhook_SetHook` keeps the invariant, whatever it meets. -/
theorem inv_setHook (inv : Inv mode own base p) {disassembler : Disassembler w} {r : Skipped} (ptr : BitVec w)
    (sane : Sane mode disassembler c p f r) (fitting : Fitting mode own c p f r.dwRet)
    (once : ∀ u ∈ live p.hooks, pSystemFunctionOf p.mem u ≠ f) (edge : ¬ Edge f h) :
    Inv mode own base (setHook mode disassembler c p ptr f h).1 := by
  rcases setHook_spec ptr sane inv.sound (fun far => absurd far edge) with
    ⟨_, hooks, mem | ⟨t, given, mem⟩⟩ | ⟨t, slots, given, placed, puts, _, hooks, installed⟩
  · refine inv_agree inv hooks (fun u _ => ⟨fun x _ => ?_, fun x _ => ?_⟩) (fun u _ x _ => ?_) (fun x _ => ?_) <;>
      rw [mem]
  · exact inv_cleared inv fitting given hooks mem
  · exact inv_installed inv fitting once given (sane.fresh t given) placed edge puts hooks installed

/-- Nothing changes but the code put back, which is what its trampoline kept. -/
theorem unhook_code (inv : Inv mode own base p) (member : t ∈ live p.hooks)
    (mem : q.mem = restoreCode mode (pSystemFunctionOf p.mem t) t (cbOverwrittenCodeOf mode p.mem t) p.mem) :
    (∀ x, ¬ Saved mode p.mem t x → q.mem x = p.mem x) ∧
      ∀ i, i < cbOverwrittenCodeOf mode p.mem t →
        q.mem (pSystemFunctionOf p.mem t + BitVec.ofNat w i) = p.mem (codeUntouched mode t + BitVec.ofNat w i) := by
  have few := (inv.inPlace t member).few
  have apart : Apart (codeUntouched mode t) (cbOverwrittenCodeOf mode p.mem t) (pSystemFunctionOf p.mem t)
      (cbOverwrittenCodeOf mode p.mem t) :=
    apart_mono (inv.keeps t member t member).untouched (by simp only [MHOOKS_MAX_CODE_BYTES]; omega) (Nat.le_refl _)
  have room := mode.room
  rw [restoreCode_eq apart few] at mem
  constructor
  · intro x outside
    rw [mem, write_outside]
    rwa [read_length]
  · intro i inside
    rw [mem, write_offset _ (by rwa [read_length]) (by rw [read_length]; omega), read_getElem]

/-- Taking away one hook does not touch the trampolines of any. -/
theorem unhook_agrees (inv : Inv mode own base p) (member : t ∈ live p.hooks)
    (mem : q.mem = restoreCode mode (pSystemFunctionOf p.mem t) t (cbOverwrittenCodeOf mode p.mem t) p.mem) :
    ∀ u ∈ live p.hooks, Agrees mode p.mem q.mem u := by
  have frame := (unhook_code inv member mem).1
  exact fun u old => ⟨fun x within => frame x ((inv.keeps t member u old).members x within),
    fun x within => frame x ((inv.keeps t member u old).untouched x within)⟩

/-- The code put back is the code of the program. -/
theorem inv_unhook (inv : Inv mode own base p) (c : Circumstances w) (ptr : BitVec w) :
    Inv mode own base (mhook_Unhook mode c p ptr).1 := by
  rcases unhook_spec mode c p ptr with ⟨_, mem, hooks⟩ | ⟨t, member, _, _, _, mem, hooks⟩
  · refine inv_agree inv hooks (fun u _ => ⟨fun x _ => ?_, fun x _ => ?_⟩) (fun u _ x _ => ?_) (fun x _ => ?_) <;>
      rw [mem]
  · obtain ⟨frame, back⟩ := unhook_code inv member mem
    have agrees := unhook_agrees inv member mem
    obtain ⟨sound, others⟩ := sound_free inv.sound member
    have live' : ∀ u, u ∈ live (mhook_Unhook mode c p ptr).1.hooks → u ≠ t ∧ u ∈ live p.hooks := by
      intro u
      rw [hooks]
      exact (others u).mp
    have saved : ∀ u ∈ live p.hooks, ∀ x, Saved mode (mhook_Unhook mode c p ptr).1.mem u x ↔ Saved mode p.mem u x :=
      fun u old => agrees_saved (agrees u old)
    constructor
    · rw [hooks]
      exact sound
    · intro u in'
      obtain ⟨different, old⟩ := live' u in'
      exact agrees_inPlace (agrees u old) (fun x here => frame x (inv.zones u old t member different x here))
        (inv.inPlace u old)
    · intro u in' v in''
      rw [agrees_system (agrees u (live' u in').2), agrees_overwritten (agrees u (live' u in').2)]
      exact inv.keeps u (live' u in').2 v (live' v in'').2
    · intro u in' v in'' different x here there
      have old := (live' u in').2
      have old' := (live' v in'').2
      exact inv.zones u old v old' different x ((saved u old x).mp here) ((saved v old' x).mp there)
    · intro x mine outside
      by_cases here : Saved mode p.mem t x
      · obtain ⟨i, inside, rfl⟩ := offset_of_within here
        rw [back i inside]
        exact inv.kept t member i inside mine
      · rw [frame x here]
        refine inv.intact x mine (fun u old there => ?_)
        by_cases same : u = t
        · rw [same] at there
          exact here there
        · refine outside u ?_ ((saved u old x).mpr there)
          rw [hooks]
          exact (others u).mpr ⟨same, old⟩
    · intro u in' i inside mine
      have old := (live' u in').2
      rw [agrees_overwritten (agrees u old)] at inside
      rw [agrees_system (agrees u old)] at mine ⊢
      rw [(agrees u old).untouched _ (codeUntouched_offset mode u inside (inv.inPlace u old).few)]
      exact inv.kept u old i inside mine

/-- The processor goes from a function that is hooked to its hook. -/
theorem inPlace_reaches {Data : Type u} (P : Processor w Data) {mem : Space w} (inPlace : InPlace P.mode mem t) (d : Data) :
    Reaches P mem (pSystemFunctionOf mem t, d) (pHookFunctionOf P.mode mem t, d) := by
  obtain ⟨target, -, api, direct | ⟨far, stub⟩⟩ := inPlace.leads
  · rw [direct] at api
    exact reaches_jump P (jumpCode_jumps api) d
  · rw [far] at api
    exact (reaches_jump P (jumpCode_jumps api) d).trans (reaches_jump P (jumpCode_jumps stub) d)

/-- What is left in the table after a trampoline was taken out. -/
theorem unhook_left (inv : Inv mode own base p) {ptr : BitVec w} (protects : c.protectsSystem = true)
    (member : t ∈ live (mhook_Unhook mode c p ptr).1.hooks) : t ∈ live p.hooks ∧ codeTrampoline mode t ≠ ptr := by
  by_cases known : ∃ u ∈ live p.hooks, codeTrampoline mode u = ptr
  · obtain ⟨u, old, rfl⟩ := known
    obtain ⟨-, -, hooks⟩ := unhook_live mode old protects
    rw [hooks] at member
    obtain ⟨different, here⟩ := ((sound_free inv.sound old).2 t).mp member
    exact ⟨here, fun same => different ((codeTrampoline_inj mode).mp same)⟩
  · have here : t ∈ live p.hooks := by
      rcases unhook_spec mode c p ptr with ⟨_, _, hooks⟩ | ⟨u, old, leads, _⟩
      · rwa [hooks] at member
      · exact absurd ⟨u, old, leads⟩ known
    exact ⟨here, fun same => known ⟨t, here, same⟩⟩

end

/-! ### Any number of calls -/

/-- The code of a program with one function. -/
def loadOwn (x : BitVec 64) : Prop := Within 0x7ff600000000 0x2000 x

def loadCall : Call 64 := .setHook loadCircumstances 0x7ff600001000 0x10000000

theorem loadCall_run : ∃ q, (library .x64 loadDisassembler).run loadProcess [loadCall] = some q ∧
    live q.hooks = [0x7ff580020000] := by
  have table : ((library .x64 loadDisassembler).run loadProcess [loadCall]).map (fun q => live q.hooks) =
      some [0x7ff580020000] := by decide +kernel
  exact Option.map_eq_some_iff.mp table

theorem loadCall_fitting : Fitting .x64 loadOwn loadCircumstances loadProcess 0x7ff600001000 7 := by
  have none : ∀ u, u ∉ live loadProcess.hooks := by
    rw [show loadProcess.hooks = noHooks from rfl, live_noHooks]
    exact fun u => List.not_mem_nil
  refine ⟨fun u member => absurd member (none u), fun u member => absurd member (none u),
    fun t _ u member => absurd member (none u), fun t _ u member => absurd member (none u), ?_⟩
  intro t given x within
  have same : t = 0x7ff580020000 := of_decide_eq_true given
  subst same
  exact apart_below (by decide) (by decide) x within

theorem loadCall_allowed :
    (library .x64 loadDisassembler).Steps (Allowed .x64 loadOwn loadDisassembler) loadProcess [loadCall] := by
  obtain ⟨q, ran, _⟩ := loadCall_run
  obtain ⟨next, step, _⟩ := (Machine.run_cons_some _).mp ran
  refine (Machine.steps_cons _ _ step []).mpr ⟨?_, trivial⟩
  intro f h system target
  have here : skipJumps .x64 loadCode 1 0x7ff600001000 = some 0x7ff600001000 := by decide +kernel
  have there : skipJumps .x64 loadCode 1 0x10000000 = some 0x10000000 := by decide +kernel
  cases here.symm.trans system
  cases there.symm.trans target
  exact ⟨by decide, loadSkipped, loadProcess_sane, loadCall_fitting⟩

section
variable {mode : Mode w} {own : BitVec w → Prop} {p q : Process w} {disassembler : Disassembler w}
  {calls : List (Call w)}

theorem inv_step {base : Space w} {call : Call w} (inv : Inv mode own base p)
    (allowed : Allowed mode own disassembler p call q) (step : (library mode disassembler).step p call = some q) :
    Inv mode own base q := by
  cases call with
  | unhook c ptr =>
    cases step
    exact inv_unhook inv c ptr
  | setHook c ptr hook =>
    obtain ⟨done, called, rfl⟩ := Option.map_eq_some_iff.mp step
    rw [mhook_SetHook] at called
    cases system : skipJumps mode p.mem c.depth ptr with
    | none => simp [system] at called
    | some f =>
      cases target : skipJumps mode p.mem c.depth hook with
      | none => simp [system, target] at called
      | some h =>
        simp only [system, target, Option.some.injEq] at called
        obtain ⟨edge, r, sane, fitting⟩ := allowed f h system target
        rw [← called]
        exact inv_setHook inv ptr sane fitting (hooked_once inv system) edge

/-- A process in which nothing is hooked yet. -/
theorem inv_start (mode : Mode w) (own : BitVec w → Prop) (hooks : p.hooks = noHooks) : Inv mode own p.mem p := by
  have none : ∀ t, t ∉ live p.hooks := by
    intro t
    rw [hooks, live_noHooks]
    exact List.not_mem_nil
  refine ⟨?_, fun t member => absurd member (none t), fun t member => absurd member (none t),
    fun t member => absurd member (none t), fun x _ _ => rfl, fun t member => absurd member (none t)⟩
  rw [hooks]
  exact sound_noHooks

theorem inv_run (hooks : p.hooks = noHooks)
    (allowed : (library mode disassembler).Steps (Allowed mode own disassembler) p calls)
    (ran : (library mode disassembler).run p calls = some q) : Inv mode own p.mem q :=
  (library mode disassembler).run_steps (fun _ _ _ inv here step => inv_step inv here step) (inv_start mode own hooks)
    allowed ran

/-- After any number of calls every function that is hooked leads to its hook, none of
    them is hooked twice, so no two hooks changed the same byte, and there are as many
    as `g_nHooksInUse` says, at most 64. Every byte of the program that is in none of them is as it was before
    the first call. -/
theorem hooks_in_place {Data : Type u} (P : Processor w Data) (hooks : p.hooks = noHooks)
    (allowed : (library P.mode disassembler).Steps (Allowed P.mode own disassembler) p calls)
    (ran : (library P.mode disassembler).run p calls = some q) :
    (∀ t ∈ live q.hooks, ∀ d,
        Reaches P q.mem (pSystemFunctionOf q.mem t, d) (pHookFunctionOf P.mode q.mem t, d)) ∧
      (∀ t ∈ live q.hooks, ∀ u ∈ live q.hooks, t ≠ u → pSystemFunctionOf q.mem t ≠ pSystemFunctionOf q.mem u ∧
        ∀ x, Saved P.mode q.mem t x → ¬ Saved P.mode q.mem u x) ∧
      q.hooks.g_nHooksInUse = (live q.hooks).length ∧ (live q.hooks).length ≤ MHOOKS_MAX_SUPPORTED_HOOKS ∧
      ∀ x, own x → (∀ t ∈ live q.hooks, ¬ Saved P.mode q.mem t x) → q.mem x = p.mem x := by
  have inv := inv_run hooks allowed ran
  refine ⟨fun t member d => inPlace_reaches P (inv.inPlace t member) d, fun t here u there different =>
    ⟨systems_apart inv here there different, inv.zones t here u there different⟩, inv.sound.counted, ?_, inv.intact⟩
  rw [← inv.sound.slots]
  exact used_le q.hooks.g_pHooks

theorem hooks_in_place_load : ∃ q, (library .x64 loadDisassembler).run loadProcess [loadCall] = some q ∧
    (∀ t ∈ live q.hooks, ∀ d,
        Reaches loadProcessor q.mem (pSystemFunctionOf q.mem t, d) (pHookFunctionOf .x64 q.mem t, d)) ∧
      (∀ t ∈ live q.hooks, ∀ u ∈ live q.hooks, t ≠ u → pSystemFunctionOf q.mem t ≠ pSystemFunctionOf q.mem u ∧
        ∀ x, Saved .x64 q.mem t x → ¬ Saved .x64 q.mem u x) ∧
      q.hooks.g_nHooksInUse = (live q.hooks).length ∧ (live q.hooks).length ≤ MHOOKS_MAX_SUPPORTED_HOOKS ∧
      ∀ x, loadOwn x → (∀ t ∈ live q.hooks, ¬ Saved .x64 q.mem t x) → q.mem x = loadProcess.mem x := by
  obtain ⟨q, ran, _⟩ := loadCall_run
  exact ⟨q, ran, hooks_in_place loadProcessor rfl loadCall_allowed ran⟩

/-- Taking away hooks always succeeds, and leaves those that were not taken away. -/
theorem unhooks_run (disassembler : Disassembler w) {base : Space w} {unhooks : List (Call w)} (inv : Inv mode own base q)
    (only : ∀ call ∈ unhooks, ∃ c ptr, call = .unhook c ptr ∧ c.protectsSystem = true) :
    ∃ q', (library mode disassembler).run q unhooks = some q' ∧ Inv mode own base q' ∧
      ∀ t ∈ live q'.hooks, t ∈ live q.hooks ∧ ∀ c, Call.unhook c (codeTrampoline mode t) ∉ unhooks := by
  induction unhooks generalizing q with
  | nil => exact ⟨q, rfl, inv, fun t member => ⟨member, fun c => List.not_mem_nil⟩⟩
  | cons call rest ih =>
    obtain ⟨c, ptr, rfl, protects⟩ := only call (List.mem_cons_self ..)
    obtain ⟨q', ran, inv', left⟩ := ih (inv_unhook inv c ptr) (fun call member => only call (List.mem_cons_of_mem _ member))
    refine ⟨q', (Machine.run_cons_some _).mpr ⟨_, rfl, ran⟩, inv', ?_⟩
    intro t member
    obtain ⟨member', others⟩ := left t member
    obtain ⟨old, different⟩ := unhook_left inv protects member'
    refine ⟨old, fun c' here => ?_⟩
    rcases List.mem_cons.mp here with same | later
    · cases same
      exact different rfl
    · exact others c' later

/-- Whatever was hooked, and in whatever order the hooks are taken away: once all of
    them are, every byte of the program is as it was before the first call. -/
theorem code_restored (hooks : p.hooks = noHooks)
    (allowed : (library mode disassembler).Steps (Allowed mode own disassembler) p calls)
    (ran : (library mode disassembler).run p calls = some q) {unhooks : List (Call w)}
    (only : ∀ call ∈ unhooks, ∃ c ptr, call = .unhook c ptr ∧ c.protectsSystem = true)
    (every : ∀ t ∈ live q.hooks, ∃ c, Call.unhook c (codeTrampoline mode t) ∈ unhooks) :
    ∃ q', (library mode disassembler).run q unhooks = some q' ∧ live q'.hooks = [] ∧ ∀ x, own x → q'.mem x = p.mem x := by
  obtain ⟨q', ran', inv, left⟩ := unhooks_run disassembler (inv_run hooks allowed ran) only
  have none : ∀ t, t ∉ live q'.hooks := by
    intro t member
    obtain ⟨old, not⟩ := left t member
    obtain ⟨c, unhook⟩ := every t old
    exact not c unhook
  exact ⟨q', ran', List.eq_nil_iff_forall_not_mem.mpr none,
    fun x mine => inv.intact x mine (fun t member => absurd member (none t))⟩

theorem code_restored_load : ∃ q q', (library .x64 loadDisassembler).run loadProcess [loadCall] = some q ∧
    (library .x64 loadDisassembler).run q [.unhook loadCircumstances 0x7ff580020038] = some q' ∧ live q'.hooks = [] ∧
      ∀ x, loadOwn x → q'.mem x = loadProcess.mem x := by
  obtain ⟨q, ran, table⟩ := loadCall_run
  have only : ∀ call ∈ [Call.unhook loadCircumstances 0x7ff580020038], ∃ c ptr, call = .unhook c ptr ∧
      c.protectsSystem = true := by simp [loadCircumstances]
  obtain ⟨q', restored⟩ := code_restored rfl loadCall_allowed ran only (by
    rw [table]
    intro t member
    cases List.mem_singleton.mp member
    exact ⟨loadCircumstances, List.mem_singleton.mpr rfl⟩)
  exact ⟨q, q', ran, restored⟩

/-! ### The threads of the process -/

/-- What a call meets. -/
def Call.circumstances : Call w → Circumstances w
  | .setHook c _ _ => c
  | .unhook c _ => c

/-- The threads are those from before, or were suspended and resumed once. -/
theorem step_threads {call : Call w} (step : (library mode disassembler).step p call = some q) :
    q.threads = p.threads ∨ ∃ f n, q.threads = after call.circumstances p f n := by
  cases call with
  | unhook c ptr =>
    cases step
    rw [unhook_threads]
    cases trampolineGet mode p.hooks ptr with
    | none => exact .inl rfl
    | some t => exact .inr ⟨_, _, rfl⟩
  | setHook c ptr hook =>
    obtain ⟨done, called, rfl⟩ := Option.map_eq_some_iff.mp step
    rw [mhook_SetHook] at called
    cases system : skipJumps mode p.mem c.depth ptr with
    | none => simp [system] at called
    | some f =>
      cases target : skipJumps mode p.mem c.depth hook with
      | none => simp [system, target] at called
      | some h =>
        simp only [system, target, Option.some.injEq] at called
        rw [← called, setHook_threads disassembler ptr h rfl]
        split
        · exact .inr ⟨_, _, rfl⟩
        · exact .inl rfl

/-- The threads of the system can all be suspended again. -/
def Call.Steady (call : Call w) : Prop :=
  ∀ snapshot, call.circumstances.env.snapshot = some snapshot → ∀ te ∈ snapshot,
    isOther call.circumstances.env te → MhookThreads.Steady te

/-- After any number of calls, whatever they return and whatever the system answers,
    no handle is left open, the priority is as it was, and no thread is suspended
    more often than before; all threads are as before, if those that were resumed
    to get them out of the code could be suspended again. -/
theorem threads_resumed (idle : Idle p.threads) (ran : (library mode disassembler).run p calls = some q) :
    Idle q.threads ∧ q.threads.priority = p.threads.priority ∧
      (∀ id, (q.threads.threads id).handles = (p.threads.threads id).handles ∧
        (q.threads.threads id).suspendCount ≤ (p.threads.threads id).suspendCount) ∧
      ((∀ call ∈ calls, call.Steady) → q.threads = p.threads) := by
  induction calls generalizing p with
  | nil =>
    cases ran
    exact ⟨idle, rfl, fun id => ⟨rfl, Nat.le_refl _⟩, fun _ => rfl⟩
  | cons call rest ih =>
    obtain ⟨next, step, later⟩ := (Machine.run_cons_some _).mp ran
    rcases step_threads step with same | ⟨f, n, threads⟩
    · obtain ⟨idle', priority, each, steady⟩ := ih (by rwa [same]) later
      rw [same] at priority each steady
      exact ⟨idle', priority, each, fun all => steady (fun call member => all call (List.mem_cons_of_mem _ member))⟩
    · obtain ⟨idle₁, priority₁, each₁, steady₁⟩ := resume_suspend call.circumstances.env f n idle
      change Idle (after call.circumstances p f n) at idle₁
      obtain ⟨idle', priority, each, steady⟩ := ih (by rwa [threads]) later
      rw [threads] at priority each steady
      refine ⟨idle', priority.trans priority₁, fun id => ⟨(each id).1.trans (each₁ id).1, (each id).2.trans (each₁ id).2⟩,
        fun all => ?_⟩
      exact (steady (fun call member => all call (List.mem_cons_of_mem _ member))).trans
        (steady₁ (all call (List.mem_cons_self ..)))

theorem threads_resumed_load : ∃ q, (library .x64 loadDisassembler).run loadProcess [loadCall] = some q ∧
    Idle q.threads ∧ q.threads.priority = 0 ∧
      (∀ id, (q.threads.threads id).handles = 0 ∧ (q.threads.threads id).suspendCount ≤ 0) ∧
      ((∀ call ∈ [loadCall], call.Steady) → q.threads = MhookThreads.running) := by
  obtain ⟨q, ran, _⟩ := loadCall_run
  exact ⟨q, ran, threads_resumed (p := loadProcess) ⟨rfl, rfl⟩ ran⟩

end

end WinMiniTools.MhookRuns
