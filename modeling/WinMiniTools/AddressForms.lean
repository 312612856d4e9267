import WinMiniTools.Words

/-!
The operands that an x86 processor finds with a mode, a register field, and, behind
them, a byte of scale, index and base and a displacement. `encode` lays a form out.
Whatever the fields and the bytes are, they are the encoding of one form, which
`decode` finds (`at_iff`).
-/
namespace WinMiniTools.AddressForms
open WinMiniTools.Words

/-- A displacement, in the size in which it is stored. -/
inductive Displacement where
  | none
  | short (d : BitVec 8)
  | long (d : BitVec 32)
  deriving DecidableEq

def Displacement.value : Displacement → Int
  | .none => 0
  | .short d => d.toInt
  | .long d => d.toInt

def Displacement.bytes : Displacement → List Byte
  | .none => []
  | .short d => [d]
  | .long d => store32 d

/-- The mode that says how many bytes there are. -/
def Displacement.mode : Displacement → BitVec 2
  | .none => 0#2
  | .short _ => 1#2
  | .long _ => 2#2

/-- The bits of a register's number that stand in the fields, and the one of the extension. -/
def low (r : BitVec 4) : BitVec 3 := r.extractLsb' 0 3
def high (r : BitVec 4) : BitVec 1 := r.extractLsb' 3 1

/-- The index that stands for no index. -/
def NO_INDEX : BitVec 4 := 4#4

/-- An operand. Fields that would mean something else have no form. -/
inductive Form where
  | register (rm : BitVec 4)
  | flat (d : BitVec 32)
  | based (base : BitVec 4) (d : Displacement) (plain : low base ≠ 4#3) (displaced : low base = 5#3 → d ≠ .none)
  | scaled (base : BitVec 4) (d : Displacement) (index : BitVec 4) (scale : BitVec 2)
      (displaced : low base = 5#3 → d ≠ .none)
  | unbased (d : BitVec 32) (index : BitVec 4) (scale : BitVec 2)
  deriving DecidableEq

/-- What an operand is encoded in. An extension that the processor does not look at is `none`. -/
structure Encoding where
  x : Option (BitVec 1)
  b : Option (BitVec 1)
  mode : BitVec 2
  rm : BitVec 3
  tail : List Byte
  deriving DecidableEq

/-- The byte of scale, index and base. -/
def scaleIndexBase (scale : BitVec 2) (index base : BitVec 3) : Byte := scale ++ index ++ base
def scaleOf (sib : Byte) : BitVec 2 := sib.extractLsb' 6 2
def indexOf (sib : Byte) : BitVec 3 := sib.extractLsb' 3 3
def baseOf (sib : Byte) : BitVec 3 := sib.extractLsb' 0 3

def encode : Form → Encoding
  | .register rm => { x := none, b := some (high rm), mode := 3#2, rm := low rm, tail := [] }
  | .flat d => { x := none, b := none, mode := 0#2, rm := 5#3, tail := store32 d }
  | .based base d _ _ => { x := none, b := some (high base), mode := d.mode, rm := low base, tail := d.bytes }
  | .scaled base d index scale _ =>
    { x := some (high index)
      b := some (high base)
      mode := d.mode
      rm := 4#3
      tail := scaleIndexBase scale (low index) (low base) :: d.bytes }
  | .unbased d index scale =>
    { x := some (high index)
      b := none
      mode := 0#2
      rm := 4#3
      tail := scaleIndexBase scale (low index) 5#3 :: store32 d }

/-- The extensions and the fields of an instruction. -/
structure Fields where
  x : BitVec 1
  b : BitVec 1
  mode : BitVec 2
  rm : BitVec 3

/-- The fields are those of the encoding, and its bytes stand in the code. -/
structure Encoding.At (e : Encoding) (f : Fields) (code : Memory) (a : Nat) : Prop where
  x : ∀ x ∈ e.x, x = f.x
  b : ∀ b ∈ e.b, b = f.b
  mode : e.mode = f.mode
  rm : e.rm = f.rm
  tail : Holds code a e.tail

/-- The displacement that a mode asks for. -/
def displacement (mode : BitVec 2) (code : Memory) (a : Nat) : Displacement :=
  if mode = 1#2 then .short (code a) else if mode = 2#2 then .long (load32 code a) else .none

/-! ### Bits -/

@[simp] theorem low_append (b : BitVec 1) (rm : BitVec 3) : low (b ++ rm) = rm := by
  revert b rm
  decide

@[simp] theorem high_append (b : BitVec 1) (rm : BitVec 3) : high (b ++ rm) = b := by
  revert b rm
  decide

@[simp] theorem high_low (r : BitVec 4) : high r ++ low r = r := by
  revert r
  decide

@[simp] theorem scaleOf_byte (scale : BitVec 2) (index base : BitVec 3) :
    scaleOf (scaleIndexBase scale index base) = scale := by
  revert scale index base
  decide

@[simp] theorem indexOf_byte (scale : BitVec 2) (index base : BitVec 3) :
    indexOf (scaleIndexBase scale index base) = index := by
  revert scale index base
  decide

@[simp] theorem baseOf_byte (scale : BitVec 2) (index base : BitVec 3) :
    baseOf (scaleIndexBase scale index base) = base := by
  revert scale index base
  decide

@[simp] theorem byte_fields (sib : Byte) : scaleIndexBase (scaleOf sib) (indexOf sib) (baseOf sib) = sib := by
  revert sib
  decide +kernel

/-! ### Decoding -/

/-- Fields that do not stand for an address without a base have a displacement where one is needed. -/
theorem displacement_some {mode : BitVec 2} {rm : BitVec 3} (b : BitVec 1) (code : Memory) (a : Nat)
    (memory : mode ≠ 3#2) (flat : ¬ (mode = 0#2 ∧ rm = 5#3)) :
    low (b ++ rm) = 5#3 → displacement mode code a ≠ .none := by
  intro five
  rw [low_append] at five
  have cases : ∀ m : BitVec 2, m ≠ 3#2 → m ≠ 0#2 → m = 1#2 ∨ m = 2#2 := by decide
  rcases cases mode memory (fun zero => flat ⟨zero, five⟩) with rfl | rfl <;> simp [displacement]

/-- The form that the fields and the bytes are the encoding of. -/
def decode (f : Fields) (code : Memory) (a : Nat) : Form :=
  if memory : f.mode = 3#2 then .register (f.b ++ f.rm)
  else if extended : f.rm = 4#3 then
    let sib := code a
    if flat : f.mode = 0#2 ∧ baseOf sib = 5#3 then .unbased (load32 code (a + 1)) (f.x ++ indexOf sib) (scaleOf sib)
    else
      .scaled (f.b ++ baseOf sib) (displacement f.mode code (a + 1)) (f.x ++ indexOf sib) (scaleOf sib)
        (displacement_some f.b code (a + 1) memory flat)
  else if flat : f.mode = 0#2 ∧ f.rm = 5#3 then .flat (load32 code a)
  else
    .based (f.b ++ f.rm) (displacement f.mode code a) (by rwa [low_append])
      (displacement_some f.b code a memory flat)

theorem holds_load32 {code : Memory} {a : Nat} {d : BitVec 32} : Holds code a (store32 d) ↔ load32 code a = d := by
  constructor
  · exact load_store32
  · rintro rfl
    obtain ⟨fourth, third, second, first⟩ := bytes_join32 (code (a + 3)) (code (a + 2)) (code (a + 1)) (code a)
    simp [store32, load32, fourth, third, second, first, Nat.add_assoc]

/-- A displacement stands where its bytes do, under its mode. -/
theorem displacement_iff {mode : BitVec 2} {code : Memory} {a : Nat} {d : Displacement} (memory : mode ≠ 3#2) :
    d.mode = mode ∧ Holds code a d.bytes ↔ displacement mode code a = d := by
  constructor
  · rintro ⟨rfl, holds⟩
    cases d with
    | none => rfl
    | short d =>
      have first : code a = d := by simpa [Displacement.bytes] using holds
      simp [displacement, Displacement.mode, first]
    | long d =>
      have word : load32 code a = d := holds_load32.mp holds
      simp [displacement, Displacement.mode, word]
  · rintro rfl
    have cases : ∀ m : BitVec 2, m ≠ 3#2 → m = 0#2 ∨ m = 1#2 ∨ m = 2#2 := by decide
    rcases cases mode memory with rfl | rfl | rfl
    · simp [displacement, Displacement.mode, Displacement.bytes]
    · simp [displacement, Displacement.mode, Displacement.bytes]
    · simp [displacement, Displacement.mode, Displacement.bytes, holds_load32]

theorem mode_memory (d : Displacement) : d.mode ≠ 3#2 := by
  cases d <;> simp [Displacement.mode]

/-- Where a form needs a displacement, its mode says so. -/
theorem mode_displaced {base : BitVec 4} {d : Displacement} (displaced : low base = 5#3 → d ≠ .none) :
    ¬ (d.mode = 0#2 ∧ low base = 5#3) := by
  rintro ⟨zero, five⟩
  cases d with
  | none => exact displaced five rfl
  | short d => simp [Displacement.mode] at zero
  | long d => simp [Displacement.mode] at zero

/-- Whatever the fields and the bytes are, they are the encoding of one form. -/
theorem at_iff (form : Form) (f : Fields) (code : Memory) (a : Nat) : (encode form).At f code a ↔ decode f code a = form := by
  obtain ⟨x, b, mode, rm⟩ := f
  constructor
  · rintro ⟨sameX, sameB, sameMode, sameRm, tail⟩
    cases form with
    | register r =>
      dsimp only [encode] at sameB sameMode sameRm
      obtain rfl := sameB _ rfl
      subst sameMode sameRm
      simp [decode]
    | flat d =>
      dsimp only [encode] at sameMode sameRm tail
      subst sameMode sameRm
      simp [decode, holds_load32.mp tail]
    | based base d plain displaced =>
      dsimp only [encode] at sameB sameMode sameRm tail
      obtain rfl := sameB _ rfl
      subst sameMode sameRm
      have there := (displacement_iff (mode_memory d)).mp ⟨rfl, tail⟩
      simp [decode, mode_memory d, plain, mode_displaced displaced, there]
    | scaled base d index scale displaced =>
      dsimp only [encode] at sameX sameB sameMode sameRm tail
      obtain rfl := sameX _ rfl
      obtain rfl := sameB _ rfl
      subst sameMode sameRm
      obtain ⟨sib, tail⟩ := (holds_cons _ _ _ _).mp tail
      have there := (displacement_iff (mode_memory d)).mp ⟨rfl, tail⟩
      simp [decode, mode_memory d, sib, mode_displaced displaced, there]
    | unbased d index scale =>
      dsimp only [encode] at sameX sameMode sameRm tail
      obtain rfl := sameX _ rfl
      subst sameMode sameRm
      obtain ⟨sib, tail⟩ := (holds_cons _ _ _ _).mp tail
      simp [decode, sib, holds_load32.mp tail]
  · rintro rfl
    by_cases memory : mode = 3#2
    · subst memory
      exact ⟨by simp [encode, decode], by simp [encode, decode], by simp [encode, decode], by simp [encode, decode],
        by simp [encode, decode]⟩
    by_cases extended : rm = 4#3
    · subst extended
      by_cases flat : mode = 0#2 ∧ baseOf (code a) = 5#3
      · obtain ⟨rfl, five⟩ := flat
        have form : decode ⟨x, b, 0#2, 4#3⟩ code a =
            .unbased (load32 code (a + 1)) (x ++ indexOf (code a)) (scaleOf (code a)) := by
          simp [decode, five]
        rw [form]
        exact ⟨by simp [encode], by simp [encode], rfl, rfl, by simp [encode, holds_load32, ← five]⟩
      · obtain ⟨same, holds⟩ := (displacement_iff memory).mpr (rfl : displacement mode code (a + 1) = _)
        have form : decode ⟨x, b, mode, 4#3⟩ code a =
            .scaled (b ++ baseOf (code a)) (displacement mode code (a + 1)) (x ++ indexOf (code a))
              (scaleOf (code a)) (displacement_some b code (a + 1) memory flat) := by
          simp [decode, memory, flat]
        rw [form]
        exact ⟨by simp [encode], by simp [encode], same, rfl, by simp [encode, holds]⟩
    · by_cases flat : mode = 0#2 ∧ rm = 5#3
      · obtain ⟨rfl, rfl⟩ := flat
        have form : decode ⟨x, b, 0#2, 5#3⟩ code a = .flat (load32 code a) := by simp [decode]
        rw [form]
        exact ⟨by simp [encode], by simp [encode], rfl, rfl, by simp [encode, holds_load32]⟩
      · obtain ⟨same, holds⟩ := (displacement_iff memory).mpr (rfl : displacement mode code a = _)
        have form : decode ⟨x, b, mode, rm⟩ code a =
            .based (b ++ rm) (displacement mode code a) (by rwa [low_append])
              (displacement_some b code a memory flat) := by
          simp [decode, memory, extended, flat]
        rw [form]
        exact ⟨by simp [encode], by simp [encode], same, by simp [encode], holds⟩

end WinMiniTools.AddressForms
