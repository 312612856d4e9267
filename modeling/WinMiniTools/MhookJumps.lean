import WinMiniTools.Processors

/-!
Jumps of `mhook-lib`. `EmitJump` writes a jump to any address from any address,
in 32-bit and in 64-bit mode (`emitJump_jumps`), and touches the bytes it returns
the end of and no others. `SkipJumps` follows jumps the way the processor takes
them (`skips_to_code`), so it goes through every emitted jump
(`emitted_jump_taken`) and stops at code that does not jump.
-/
namespace WinMiniTools.MhookJumps
open WinMiniTools.Words WinMiniTools.AddressSpaces WinMiniTools.Processors
universe u

variable {w : Nat} {Data : Type u}

/-- The hot patch point and the collapsed stack frame, which are skipped on x86. -/
def skipPrologue : {w : Nat} → Mode w → Space w → BitVec w → BitVec w
  | _, .x86, mem, pbCode =>
    let pbCode := if mem pbCode = 0x8b ∧ mem (pbCode + 1) = 0xff then pbCode + 2 else pbCode
    if mem pbCode = 0x55 ∧ mem (pbCode + 1) = 0x8b ∧ mem (pbCode + 2) = 0xec ∧ mem (pbCode + 3) = 0x5d then
      pbCode + 4
    else pbCode
  | _, .x64, _, pbCode => pbCode

/-- Where `SkipJumps` goes on, if it does. -/
def skipTarget : {w : Nat} → Mode w → Space w → BitVec w → Option (BitVec w)
  | _, .x86, mem, pbCode =>
    if mem pbCode = 0xff ∧ mem (pbCode + 1) = 0x25 then some (load 32 4 mem (load 32 4 mem (pbCode + 2)))
    else if mem pbCode = 0xe9 then some (pbCode + 5 + (load 32 4 mem (pbCode + 1)).signExtend 32)
    else if mem pbCode = 0xeb then some (pbCode + 2 + (mem (pbCode + 1)).signExtend 32)
    else none
  | _, .x64, mem, pbCode =>
    if mem pbCode = 0xff ∧ mem (pbCode + 1) = 0x25 then
      some (load 64 8 mem (pbCode + 6 + (load 32 4 mem (pbCode + 2)).signExtend 64))
    else if mem pbCode = 0x48 ∧ mem (pbCode + 1) = 0xff ∧ mem (pbCode + 2) = 0x25 then
      some (load 64 8 mem (pbCode + 7 + (load 32 4 mem (pbCode + 3)).signExtend 64))
    else if mem pbCode = 0xe9 then some (pbCode + 5 + (load 32 4 mem (pbCode + 1)).signExtend 64)
    else if mem pbCode = 0xeb then some (pbCode + 2 + (mem (pbCode + 1)).signExtend 64)
    else none

/-- `SkipJumps`, on a stack that has room for `depth` calls of it. -/
def skipJumps (mode : Mode w) (mem : Space w) : Nat → BitVec w → Option (BitVec w)
  | 0, _ => none
  | depth + 1, pbOrgCode =>
    match skipTarget mode mem (skipPrologue mode mem pbOrgCode) with
    | some pbTarget => skipJumps mode mem depth pbTarget
    | none => some pbOrgCode

/-- The distance of two addresses, whichever comes first. -/
def cbDiff (pbJumpFrom pbJumpTo : BitVec w) : BitVec w :=
  if pbJumpTo < pbJumpFrom then pbJumpFrom - pbJumpTo else pbJumpTo - pbJumpFrom

/-- The word behind `0xff 0x25` that makes the jump look for its target just
    behind the instruction. -/
def behind : {w : Nat} → Mode w → BitVec w → BitVec 32
  | _, .x86, pbCode => pbCode + 6
  | _, .x64, _ => 0

/-- The code of `EmitJump`. -/
def jumpCode (mode : Mode w) (pbCode pbJumpTo : BitVec w) : List Byte :=
  let pbJumpFrom := pbCode + 5#w
  if cbDiff pbJumpFrom pbJumpTo ≤ 0x7fff0000#w then 0xe9 :: wordBytes 4 ((pbJumpTo - pbJumpFrom).setWidth 32)
  else [0xff, 0x25] ++ wordBytes 4 (behind mode pbCode) ++ wordBytes (w / 8) pbJumpTo

/-- `EmitJump`: the memory, and the address behind the jump. -/
def emitJump (mode : Mode w) (mem : Space w) (pbCode pbJumpTo : BitVec w) : Space w × BitVec w :=
  (write mem pbCode (jumpCode mode pbCode pbJumpTo), pbCode + BitVec.ofNat w (jumpCode mode pbCode pbJumpTo).length)

/-! ### The emitted jump -/

theorem cbDiff_toNat (a b : BitVec w) : (cbDiff a b).toNat = (a.toNat - b.toNat) + (b.toNat - a.toNat) := by
  rw [cbDiff]
  split
  · rename_i lt
    have lt : b.toNat < a.toNat := BitVec.lt_def.mp lt
    rw [BitVec.toNat_sub_of_le (BitVec.le_def.mpr (by omega))]
    omega
  · rename_i ge
    have le : a.toNat ≤ b.toNat := Nat.le_of_not_lt (fun lt => ge (BitVec.lt_def.mpr lt))
    rw [BitVec.toNat_sub_of_le (BitVec.le_def.mpr le)]
    omega

/-- The short form is chosen for addresses at most `0x7fff0000` bytes apart. -/
theorem short_iff (mode : Mode w) (a b : BitVec w) :
    cbDiff a b ≤ 0x7fff0000#w ↔ a.toNat ≤ b.toNat + 0x7fff0000 ∧ b.toNat ≤ a.toNat + 0x7fff0000 := by
  have room := mode.room
  rw [BitVec.le_def, cbDiff_toNat, BitVec.toNat_ofNat, Nat.mod_eq_of_lt (by omega)]
  omega

theorem jumpCode_short {mode : Mode w} {pbCode pbJumpTo : BitVec w}
    (short : cbDiff (pbCode + 5#w) pbJumpTo ≤ 0x7fff0000#w) :
    jumpCode mode pbCode pbJumpTo = 0xe9 :: wordBytes 4 ((pbJumpTo - (pbCode + 5#w)).setWidth 32) := by
  rw [jumpCode]
  exact if_pos short

theorem jumpCode_long {mode : Mode w} {pbCode pbJumpTo : BitVec w}
    (long : ¬ cbDiff (pbCode + 5#w) pbJumpTo ≤ 0x7fff0000#w) :
    jumpCode mode pbCode pbJumpTo =
      [0xff, 0x25] ++ wordBytes 4 (behind mode pbCode) ++ wordBytes (w / 8) pbJumpTo := by
  rw [jumpCode]
  exact if_neg long

theorem jumpCode_length_short {mode : Mode w} {pbCode pbJumpTo : BitVec w}
    (short : cbDiff (pbCode + 5#w) pbJumpTo ≤ 0x7fff0000#w) : (jumpCode mode pbCode pbJumpTo).length = 5 := by
  simp [jumpCode_short short]

/-- The long form: the pointer behind it makes the difference between the modes. -/
theorem jumpCode_length_long {mode : Mode w} {pbCode pbJumpTo : BitVec w}
    (long : ¬ cbDiff (pbCode + 5#w) pbJumpTo ≤ 0x7fff0000#w) :
    (jumpCode mode pbCode pbJumpTo).length = 6 + w / 8 := by
  simp only [jumpCode_long long, List.length_append, List.length_cons, List.length_nil, wordBytes_length]

theorem jumpCode_length_le (mode : Mode w) (pbCode pbJumpTo : BitVec w) :
    (jumpCode mode pbCode pbJumpTo).length ≤ 14 := by
  by_cases short : cbDiff (pbCode + 5#w) pbJumpTo ≤ 0x7fff0000#w
  · rw [jumpCode_length_short short]
    omega
  · rw [jumpCode_length_long short]
    cases mode <;> omega

theorem emitJump_contains (mode : Mode w) (mem : Space w) (pbCode pbJumpTo : BitVec w) :
    Contains (emitJump mode mem pbCode pbJumpTo).1 pbCode (jumpCode mode pbCode pbJumpTo) := by
  have := mode.room
  have := jumpCode_length_le mode pbCode pbJumpTo
  exact contains_write (by omega)

/-- The word behind the opcode of the long form names the place of the target. -/
theorem place_behind (mode : Mode w) {mem : Space w} {pbCode : BitVec w}
    (word : load 32 4 mem (pbCode + 2#w) = behind mode pbCode) : place mode mem (pbCode + 2#w) = pbCode + 6#w := by
  cases mode with
  | x86 => exact word
  | x64 => simp [place, distance, word, behind, BitVec.add_assoc]

/-- The processor that arrives at the code of a jump to `pbJumpTo` goes there. -/
theorem jumpCode_jumps {mode : Mode w} {mem : Space w} {pbCode pbJumpTo : BitVec w}
    (contains : Contains mem pbCode (jumpCode mode pbCode pbJumpTo)) : jump mode mem pbCode = some pbJumpTo := by
  by_cases short : cbDiff (pbCode + 5#w) pbJumpTo ≤ 0x7fff0000#w
  · obtain ⟨down, up⟩ := (short_iff mode _ _).mp short
    rw [jumpCode_short short, contains_cons] at contains
    obtain ⟨opcode, word⟩ := contains
    rw [jump_near opcode, distance, load_of_contains (by omega) word, near_target mode (by omega) (by omega)]
  · rw [jumpCode_long short, contains_append, contains_append, contains_cons, contains_cons] at contains
    obtain ⟨⟨⟨opcode, extension, _⟩, word⟩, target⟩ := contains
    have named := place_behind mode (load_of_contains (by omega) word)
    simp only [List.length_append, List.length_cons, List.length_nil, wordBytes_length] at target
    rw [jump_indirect opcode extension, named, pointer, load_of_contains mode.whole target]

/-- The jump that `EmitJump` writes takes the processor to its target, in either
    mode and over any distance. -/
theorem emitJump_jumps (mode : Mode w) (mem : Space w) (pbCode pbJumpTo : BitVec w) :
    jump mode (emitJump mode mem pbCode pbJumpTo).1 pbCode = some pbJumpTo :=
  jumpCode_jumps (emitJump_contains mode mem pbCode pbJumpTo)

theorem emitJump_outside {mode : Mode w} {mem : Space w} {pbCode pbJumpTo x : BitVec w}
    (outside : ¬ Within pbCode (jumpCode mode pbCode pbJumpTo).length x) :
    (emitJump mode mem pbCode pbJumpTo).1 x = mem x :=
  write_outside outside

/-! ### Skipping jumps -/

/-- `SkipJumps` goes where the processor would jump. -/
theorem skipTarget_jump (mode : Mode w) (mem : Space w) (pbCode : BitVec w) :
    skipTarget mode mem pbCode = jump mode mem pbCode := by
  by_cases near : mem pbCode = 0xe9#8
  · cases mode <;> simp [skipTarget, jump, near, distance]
  by_cases short : mem pbCode = 0xeb#8
  · cases mode <;> simp [skipTarget, jump, short]
  cases mode with
  | x86 => simp [skipTarget, jump, near, short, pointer, place]
  | x64 => simp [skipTarget, jump, near, short, pointer, place, distance, BitVec.add_assoc]

theorem skipJumps_succ (mode : Mode w) (mem : Space w) (depth : Nat) (pbCode : BitVec w) :
    skipJumps mode mem (depth + 1) pbCode =
      match jump mode mem (skipPrologue mode mem pbCode) with
      | some pbTarget => skipJumps mode mem depth pbTarget
      | none => some pbCode := by
  rw [skipJumps, skipTarget_jump]

/-- A jump does not begin with a prologue. -/
theorem skipPrologue_of_jump {mode : Mode w} {mem : Space w} {pbCode pbTarget : BitVec w}
    (jumps : jump mode mem pbCode = some pbTarget) : skipPrologue mode mem pbCode = pbCode := by
  cases mode with
  | x64 => rfl
  | x86 =>
    have other : mem pbCode ≠ 0x8b#8 ∧ mem pbCode ≠ 0x55#8 := by
      constructor <;> intro same <;> simp [jump, same] at jumps
    simp [skipPrologue, other]

/-- `SkipJumps` goes through the jumps that `EmitJump` writes: a function that is
    hooked leads to the hook. -/
theorem skipJumps_of_jump {mode : Mode w} {mem : Space w} {pbCode pbTarget : BitVec w}
    (jumps : jump mode mem pbCode = some pbTarget) (depth : Nat) :
    skipJumps mode mem (depth + 1) pbCode = skipJumps mode mem depth pbTarget := by
  rw [skipJumps_succ, skipPrologue_of_jump jumps, jumps]

/-- However far apart the two addresses are, the processor that arrives at what
    `EmitJump` wrote goes on at the target with the data that it has, and so does
    `SkipJumps`. The jump takes five bytes if the target is in reach of them, and an
    address more than six if it is not; the address returned is the one behind it,
    and no other byte changes. -/
theorem emitted_jump_taken (p : Processor w Data) (mem : Space w) (pbCode pbJumpTo : BitVec w) :
    let emitted := emitJump p.mode mem pbCode pbJumpTo
    (∀ d, Reaches p emitted.1 (pbCode, d) (pbJumpTo, d)) ∧
      (∀ depth, skipJumps p.mode emitted.1 (depth + 1) pbCode = skipJumps p.mode emitted.1 depth pbJumpTo) ∧
      ∃ n, emitted.2 = pbCode + BitVec.ofNat w n ∧
        (n = if (pbCode + 5#w).toNat ≤ pbJumpTo.toNat + 0x7fff0000 ∧
            pbJumpTo.toNat ≤ (pbCode + 5#w).toNat + 0x7fff0000 then 5 else 6 + w / 8) ∧
        ∀ x, ¬ Within pbCode n x → emitted.1 x = mem x := by
  have jumps := emitJump_jumps p.mode mem pbCode pbJumpTo
  refine ⟨fun d => reaches_jump p jumps d, skipJumps_of_jump jumps, _, rfl, ?_, fun x => emitJump_outside⟩
  by_cases short : cbDiff (pbCode + 5#w) pbJumpTo ≤ 0x7fff0000#w
  · rw [jumpCode_length_short short, if_pos ((short_iff p.mode _ _).mp short)]
  · rw [jumpCode_length_long short, if_neg (fun near => short ((short_iff p.mode _ _).mpr near))]

/-- `SkipJumps` stops at code that does not jump. -/
theorem skipJumps_stops {mode : Mode w} {mem : Space w} {depth : Nat} {pbCode pbFound : BitVec w}
    (found : skipJumps mode mem depth pbCode = some pbFound) :
    jump mode mem (skipPrologue mode mem pbFound) = none := by
  induction depth generalizing pbCode with
  | zero => cases found
  | succ depth ih =>
    rw [skipJumps_succ] at found
    cases jumps : jump mode mem (skipPrologue mode mem pbCode) with
    | some pbTarget =>
      rw [jumps] at found
      exact ih found
    | none =>
      rw [jumps] at found
      cases found
      exact jumps

/-- What the code skipped on x86 does: nothing, but for the stack below its
    pointer, where the collapsed frame leaves what it pushed (`below`). -/
structure Prologues (p : Processor w Data) (below : Data → Data) : Prop where
  hotPatch : ∀ code a, code a = 0x8b → code (a + 1#w) = 0xff →
    p.size code a = some 2 ∧ ∀ b d, p.exec [0x8b, 0xff] b d = d
  push : ∀ code a, code a = 0x55 → p.size code a = some 1
  frame : ∀ code a, code a = 0x8b → code (a + 1#w) = 0xec → p.size code a = some 2
  pop : ∀ code a, code a = 0x5d → p.size code a = some 1
  collapsed : ∀ a b c d, p.exec [0x5d] c (p.exec [0x8b, 0xec] b (p.exec [0x55] a d)) = below d

theorem no_jump (mode : Mode w) {code : Space w} {a : BitVec w} (other : code a ∉ [0xe9, 0xeb, 0xff, 0x48]) :
    jump mode code a = none := by
  simp only [List.mem_cons, List.not_mem_nil, or_false, not_or] at other
  obtain ⟨near, short, indirect, rex⟩ := other
  rw [jump, if_neg near, if_neg short, if_neg (fun both => indirect both.1), if_neg (fun all => rex all.2.1)]

theorem hotPatch_reaches {p : Processor w Data} {below : Data → Data} (prologues : Prologues p below)
    {code : Space w} {a : BitVec w} (first : code a = 0x8b) (second : code (a + 1#w) = 0xff) (d : Data) :
    Reaches p code (a, d) (a + 2#w, d) := by
  obtain ⟨size, nothing⟩ := prologues.hotPatch code a first second
  have plain : jump p.mode code a = none := no_jump p.mode (by rw [first]; decide)
  have bytes : read code a 2 = [0x8b, 0xff] := by
    rw [read_succ, read_succ, first, second]
    rfl
  have step := step_plain p plain size d
  rw [bytes, nothing] at step
  exact .single step

theorem collapsed_reaches {p : Processor w Data} {below : Data → Data} (prologues : Prologues p below)
    {code : Space w} {a : BitVec w} (first : code a = 0x55) (second : code (a + 1#w) = 0x8b)
    (third : code (a + 2#w) = 0xec) (fourth : code (a + 3#w) = 0x5d) (d : Data) :
    Reaches p code (a, d) (a + 4#w, below d) := by
  have second' : a + 1#w + 1#w = a + 2#w := by rw [BitVec.add_assoc, ← BitVec.ofNat_add]
  have third' : a + 1#w + 2#w = a + 3#w := by rw [BitVec.add_assoc, ← BitVec.ofNat_add]
  have fourth' : a + 3#w + 1#w = a + 4#w := by rw [BitVec.add_assoc, ← BitVec.ofNat_add]
  have bytes : read code a 1 = [0x55] := by
    rw [read_succ, first]
    rfl
  have bytes' : read code (a + 1#w) 2 = [0x8b, 0xec] := by
    rw [read_succ, read_succ, second, second', third]
    rfl
  have bytes'' : read code (a + 3#w) 1 = [0x5d] := by
    rw [read_succ, fourth]
    rfl
  have push := step_plain p (no_jump p.mode (by rw [first]; decide)) (prologues.push code a first) d
  have frame := step_plain p (no_jump p.mode (by rw [second]; decide))
    (prologues.frame code (a + 1#w) second (by rw [second', third])) (p.exec [0x55] a d)
  have pop := step_plain p (no_jump p.mode (by rw [fourth]; decide)) (prologues.pop code (a + 3#w) fourth)
    (p.exec [0x8b, 0xec] (a + 1#w) (p.exec [0x55] a d))
  rw [bytes] at push
  rw [bytes', third'] at frame
  rw [bytes'', fourth', prologues.collapsed] at pop
  exact .tail (.tail (.single push) frame) pop

/-- The data is as it was, or as the collapsed frame leaves it. -/
def Kept (below : Data → Data) (d d' : Data) : Prop := d' = d ∨ d' = below d

theorem kept_trans {below : Data → Data} (again : ∀ d, below (below d) = below d) {d e f : Data}
    (first : Kept below d e) (second : Kept below e f) : Kept below d f := by
  rcases first with rfl | rfl
  · exact second
  · rcases second with rfl | rfl
    · exact .inr rfl
    · exact .inr (again d)

theorem skipPrologue_reaches {p : Processor w Data} {below : Data → Data} (prologues : w = 32 → Prologues p below)
    (code : Space w) (a : BitVec w) (d : Data) :
    ∃ d', Kept below d d' ∧ Reaches p code (a, d) (skipPrologue p.mode code a, d') := by
  obtain ⟨mode, size, exec, known⟩ := p
  cases mode with
  | x64 => exact ⟨d, .inl rfl, .refl⟩
  | x86 =>
    have prologues := prologues rfl
    have patched : ∃ b, b = (if code a = 0x8b ∧ code (a + 1) = 0xff then a + 2 else a) ∧
        Reaches ⟨.x86, size, exec, known⟩ code (a, d) (b, d) := by
      refine ⟨_, rfl, ?_⟩
      split
      · rename_i both
        exact hotPatch_reaches prologues both.1 both.2 d
      · exact .refl
    obtain ⟨b, same, reaches⟩ := patched
    simp only [skipPrologue, ← same]
    split
    · rename_i all
      exact ⟨below d, .inr rfl, reaches.trans (collapsed_reaches prologues all.1 all.2.1 all.2.2.1 all.2.2.2 d)⟩
    · exact ⟨d, .inl rfl, reaches⟩

/-- `SkipJumps` follows the processor: from the pointer it gets to the code found,
    with the data as it was, but for the stack below its pointer on x86. -/
theorem skipJumps_reaches {p : Processor w Data} {below : Data → Data} (again : ∀ d, below (below d) = below d)
    (prologues : w = 32 → Prologues p below)
    {code : Space w} {depth : Nat} {pbCode pbFound : BitVec w}
    (found : skipJumps p.mode code depth pbCode = some pbFound) (d : Data) :
    ∃ d', Kept below d d' ∧ Reaches p code (pbCode, d) (pbFound, d') := by
  induction depth generalizing pbCode d with
  | zero => cases found
  | succ depth ih =>
    rw [skipJumps_succ] at found
    cases jumps : jump p.mode code (skipPrologue p.mode code pbCode) with
    | none =>
      rw [jumps] at found
      cases found
      exact ⟨d, .inl rfl, .refl⟩
    | some pbTarget =>
      rw [jumps] at found
      obtain ⟨d₁, kept, prologue⟩ := skipPrologue_reaches prologues code pbCode d
      obtain ⟨d₂, kept', later⟩ := ih found d₁
      have jumped := reaches_jump p jumps d₁
      exact ⟨d₂, kept_trans again kept kept', (prologue.trans jumped).trans later⟩

theorem skipJumps_more {mode : Mode w} {mem : Space w} {depth more : Nat} (le : depth ≤ more) {pbCode pbFound : BitVec w}
    (found : skipJumps mode mem depth pbCode = some pbFound) : skipJumps mode mem more pbCode = some pbFound := by
  induction depth generalizing more pbCode with
  | zero => cases found
  | succ depth ih =>
    obtain ⟨more, rfl⟩ := Nat.exists_eq_add_one_of_ne_zero (Nat.ne_of_gt (Nat.lt_of_lt_of_le (Nat.succ_pos _) le))
    rw [skipJumps_succ] at found ⊢
    cases jumps : jump mode mem (skipPrologue mode mem pbCode) with
    | none =>
      rw [jumps] at found
      exact found
    | some pbTarget =>
      rw [jumps] at found
      exact ih (by omega) found

/-- What `SkipJumps` returns is code that does not jump, which the processor reaches
    from the pointer with the data as it was, but for the stack below its pointer on
    x86; a deeper stack makes no difference. -/
theorem skips_to_code {p : Processor w Data} {below : Data → Data} (again : ∀ d, below (below d) = below d)
    (prologues : w = 32 → Prologues p below) {code : Space w} {depth : Nat} {pbCode pbFound : BitVec w}
    (found : skipJumps p.mode code depth pbCode = some pbFound) :
    (∀ d, ∃ d', Kept below d d' ∧ Reaches p code (pbCode, d) (pbFound, d')) ∧
      jump p.mode code (skipPrologue p.mode code pbFound) = none ∧
      ∀ more, depth ≤ more → skipJumps p.mode code more pbCode = some pbFound :=
  ⟨skipJumps_reaches again prologues found, skipJumps_stops found, fun _ le => skipJumps_more le found⟩

/-- The registers and the stack that the prologues work on. -/
structure Frame where
  ebp : BitVec 32
  esp : BitVec 32
  stack : BitVec 32 → BitVec 32

def Frame.push (d : Frame) : Frame :=
  { d with esp := d.esp - 4#32, stack := Function.update d.stack (d.esp - 4#32) d.ebp }
def Frame.pop (d : Frame) : Frame := { d with ebp := d.stack d.esp, esp := d.esp + 4#32 }

/-- The instructions of the prologues: `mov edi, edi`, `push ebp`, `mov ebp, esp` and
    `pop ebp`. -/
def prologueSize (code : Space 32) (a : BitVec 32) : Option Nat :=
  if code a = 0x55 ∨ code a = 0x5d then some 1
  else if code a = 0x8b ∧ (code (a + 1#32) = 0xff ∨ code (a + 1#32) = 0xec) then some 2
  else none

def prologueExec (bytes : List Byte) (d : Frame) : Frame :=
  if bytes = [0x55] then d.push
  else if bytes = [0x8b, 0xec] then { d with ebp := d.esp }
  else if bytes = [0x5d] then d.pop
  else d

theorem prologueSize_plain {code : Space 32} {a : BitVec 32} {n : Nat} (size : prologueSize code a = some n) :
    jump .x86 code a = none := by
  rw [prologueSize] at size
  split at size
  · rename_i one
    rcases one with push | pop
    · exact no_jump .x86 (by rw [push]; decide)
    · exact no_jump .x86 (by rw [pop]; decide)
  · split at size
    · rename_i two
      exact no_jump .x86 (by rw [two.1]; decide)
    · cases size

/-- The size depends on the bytes of the instruction only. -/
theorem prologueSize_known {code other : Space 32} {a b : BitVec 32} {n : Nat} (size : prologueSize code a = some n)
    (same : read code a n = read other b n) : prologueSize other b = some n := by
  rw [prologueSize] at size ⊢
  split at size
  · rename_i one
    cases size
    have first : code a = other b := by simpa [read_succ] using same
    rw [if_pos (by rwa [← first])]
  · rename_i more
    split at size
    · rename_i two
      cases size
      have both : code a = other b ∧ code (a + 1#32) = other (b + 1#32) := by simpa [read_succ] using same
      rw [if_neg (by rwa [← both.1]), if_pos (by rwa [← both.1, ← both.2])]
    · cases size

/-- A processor for code on x86 that consists of prologues. -/
def prologueProcessor : Processor 32 Frame where
  mode := .x86
  size := prologueSize
  exec bytes _ d := prologueExec bytes d
  known size same :=
    have size' := prologueSize_known size same
    ⟨size', fun _ => prologueSize_plain size'⟩

/-- What a collapsed frame leaves below the stack pointer. -/
def Frame.below (d : Frame) : Frame := { d with stack := Function.update d.stack (d.esp - 4#32) d.ebp }

theorem prologueProcessor_prologues : Prologues prologueProcessor Frame.below := by
  constructor
  · intro code a first second
    exact ⟨by simp [prologueProcessor, prologueSize, first, second], fun b d => by simp [prologueProcessor, prologueExec]⟩
  · intro code a first
    simp [prologueProcessor, prologueSize, first]
  · intro code a first second
    simp [prologueProcessor, prologueSize, first, second]
  · intro code a first
    simp [prologueProcessor, prologueSize, first]
  · intro a b c d
    change Frame.pop { d.push with ebp := d.push.esp } = d.below
    simp only [Frame.pop, Frame.push, Frame.below, Function.update_self, BitVec.sub_add_cancel]

/-- An entry of an import table, a near jump and a collapsed frame with a short jump
    behind it. -/
def jumpTable : Space 32 := fun x =>
  if x = 0x401000 then 0xff else if x = 0x401001 then 0x25 else if x = 0x401003 then 0x20 else if x = 0x401004 then 0x40
  else if x = 0x402001 then 0x30 else if x = 0x402002 then 0x40
  else if x = 0x403000 then 0xe9 else if x = 0x403001 then 0xfb
  else if x = 0x403100 then 0x55 else if x = 0x403101 then 0x8b else if x = 0x403102 then 0xec
  else if x = 0x403103 then 0x5d else if x = 0x403104 then 0xeb else if x = 0x403105 then 0x0a
  else if x = 0x403110 then 0x8b else if x = 0x403111 then 0xff else 0

theorem skips_to_code_table :
    (∀ d, ∃ d', Kept Frame.below d d' ∧ Reaches prologueProcessor jumpTable (0x401000, d) (0x403110, d')) ∧
      jump .x86 jumpTable (skipPrologue .x86 jumpTable 0x403110) = none ∧
      ∀ more, 4 ≤ more → skipJumps .x86 jumpTable more 0x401000 = some 0x403110 :=
  skips_to_code (p := prologueProcessor) (by simp [Frame.below]) (fun _ => prologueProcessor_prologues)
    (by decide +kernel)

end WinMiniTools.MhookJumps
