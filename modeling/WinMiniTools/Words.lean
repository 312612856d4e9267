import Mathlib.Data.Nat.Bitwise
import Mathlib.Data.List.Basic
import Mathlib.Tactic.Ring

/-!
Bytes, words and byte memories of a little-endian machine. A word is loaded
least significant byte first (`load16`, `load32`) and written to a wire most
significant byte first (`big16`, `big32`); exchanging the bytes of a loaded word
(`swap16`, `swap32`) recovers the word a wire carries (`swap_load_big16`,
`swap_load_big32`). `Holds` places a list of bytes in a memory.
-/
namespace WinMiniTools.Words

abbrev Byte := BitVec 8
/-- The bytes behind a pointer, by their distance from it. -/
abbrev Memory := Nat → Byte

/-! ### The bytes of a word -/

/-- The byte of a word with the given significance, the least first. -/
def byteAt {n : Nat} (w : BitVec n) (i : Nat) : Byte := w.extractLsb' (8 * i) 8
/-- The words with the given bytes, the most significant first. -/
def join16 (a b : Byte) : BitVec 16 := a ++ b
def join32 (a b c d : Byte) : BitVec 32 := a ++ b ++ c ++ d

theorem byteAt_toNat {n : Nat} (w : BitVec n) (i : Nat) : (byteAt w i).toNat = w.toNat / 256 ^ i % 256 := by
  simp [byteAt, Nat.shiftRight_eq_div_pow, pow_mul]

private theorem append_byte_toNat {n : Nat} (w : BitVec n) (b : Byte) : (w ++ b).toNat = 256 * w.toNat + b.toNat := by
  rw [BitVec.toNat_append, Nat.shiftLeft_eq, Nat.mul_comm, ← Nat.two_pow_add_eq_or_of_lt b.isLt]

theorem join16_toNat (a b : Byte) : (join16 a b).toNat = 256 * a.toNat + b.toNat := append_byte_toNat a b

theorem join32_toNat (a b c d : Byte) :
    (join32 a b c d).toNat = 256 * (256 * (256 * a.toNat + b.toNat) + c.toNat) + d.toNat := by
  simp only [join32]
  rw [append_byte_toNat (a ++ b ++ c) d, append_byte_toNat (a ++ b) c, append_byte_toNat]

/-- A word is the join of its bytes. -/
theorem join16_bytes (w : BitVec 16) : join16 (byteAt w 1) (byteAt w 0) = w := by
  apply BitVec.eq_of_toNat_eq
  have := w.isLt
  simp only [join16_toNat, byteAt_toNat]
  omega

theorem join32_bytes (w : BitVec 32) : join32 (byteAt w 3) (byteAt w 2) (byteAt w 1) (byteAt w 0) = w := by
  apply BitVec.eq_of_toNat_eq
  have := w.isLt
  simp only [join32_toNat, byteAt_toNat]
  omega

/-- The bytes of a join. -/
theorem bytes_join16 (a b : Byte) : byteAt (join16 a b) 1 = a ∧ byteAt (join16 a b) 0 = b := by
  have := a.isLt
  have := b.isLt
  constructor <;> apply BitVec.eq_of_toNat_eq <;> rw [byteAt_toNat, join16_toNat] <;> omega

theorem bytes_join32 (a b c d : Byte) :
    byteAt (join32 a b c d) 3 = a ∧ byteAt (join32 a b c d) 2 = b ∧
      byteAt (join32 a b c d) 1 = c ∧ byteAt (join32 a b c d) 0 = d := by
  have := a.isLt
  have := b.isLt
  have := c.isLt
  have := d.isLt
  refine ⟨?_, ?_, ?_, ?_⟩ <;> apply BitVec.eq_of_toNat_eq <;> rw [byteAt_toNat, join32_toNat] <;> omega

/-! ### Exchanging byte orders -/

/-- The word with its bytes in the opposite order. -/
def swap16 (w : BitVec 16) : BitVec 16 := join16 (byteAt w 0) (byteAt w 1)
def swap32 (w : BitVec 32) : BitVec 32 := join32 (byteAt w 0) (byteAt w 1) (byteAt w 2) (byteAt w 3)

theorem swap16_join (a b : Byte) : swap16 (join16 a b) = join16 b a := by
  obtain ⟨first, second⟩ := bytes_join16 a b
  rw [swap16, first, second]

theorem swap32_join (a b c d : Byte) : swap32 (join32 a b c d) = join32 d c b a := by
  obtain ⟨first, second, third, fourth⟩ := bytes_join32 a b c d
  rw [swap32, first, second, third, fourth]

@[simp] theorem swap16_swap16 (w : BitVec 16) : swap16 (swap16 w) = w := by
  rw [swap16.eq_def w, swap16_join, join16_bytes]

@[simp] theorem swap32_swap32 (w : BitVec 32) : swap32 (swap32 w) = w := by
  rw [swap32.eq_def w, swap32_join, join32_bytes]

/-- Bytewise conjunction does not depend on the byte order. -/
theorem swap32_and (v w : BitVec 32) : swap32 (v &&& w) = swap32 v &&& swap32 w := by
  apply BitVec.eq_of_getLsbD_eq
  intro i inside
  simp only [swap32, join32, byteAt]
  grind

theorem swap32_not (w : BitVec 32) : swap32 (~~~w) = ~~~swap32 w := by
  apply BitVec.eq_of_getLsbD_eq
  intro i inside
  simp only [swap32, join32, byteAt]
  grind

/-! ### Memories -/

/-- Loads of a little-endian machine. -/
def load16 (mem : Memory) (a : Nat) : BitVec 16 := join16 (mem (a + 1)) (mem a)
def load32 (mem : Memory) (a : Nat) : BitVec 32 := join32 (mem (a + 3)) (mem (a + 2)) (mem (a + 1)) (mem a)
/-- Stores of a little-endian machine, as the bytes they write. -/
def store16 (w : BitVec 16) : List Byte := [byteAt w 0, byteAt w 1]
def store32 (w : BitVec 32) : List Byte := [byteAt w 0, byteAt w 1, byteAt w 2, byteAt w 3]
@[simp] theorem store16_length (w : BitVec 16) : (store16 w).length = 2 := rfl
@[simp] theorem store32_length (w : BitVec 32) : (store32 w).length = 4 := rfl
/-- The bytes of a word on a wire, the most significant first. -/
def big16 (w : BitVec 16) : List Byte := [byteAt w 1, byteAt w 0]
def big32 (w : BitVec 32) : List Byte := [byteAt w 3, byteAt w 2, byteAt w 1, byteAt w 0]

/-- An exchanged word is stored in the order of a wire. -/
theorem store16_swap16 (w : BitVec 16) : store16 (swap16 w) = big16 w := by
  obtain ⟨first, second⟩ := bytes_join16 (byteAt w 0) (byteAt w 1)
  rw [store16, swap16, first, second, big16]

theorem store32_swap32 (w : BitVec 32) : store32 (swap32 w) = big32 w := by
  obtain ⟨first, second, third, fourth⟩ := bytes_join32 (byteAt w 0) (byteAt w 1) (byteAt w 2) (byteAt w 3)
  rw [store32, swap32, first, second, third, fourth, big32]

/-- A load depends on the bytes of its word only. -/
theorem load16_congr {mem other : Memory} {a : Nat} (agree : ∀ i, i < 2 → mem (a + i) = other (a + i)) :
    load16 mem a = load16 other a := by
  have first : mem a = other a := agree 0 (by omega)
  rw [load16, load16, first, agree 1 (by omega)]

theorem load32_congr {mem other : Memory} {a : Nat} (agree : ∀ i, i < 4 → mem (a + i) = other (a + i)) :
    load32 mem a = load32 other a := by
  have first : mem a = other a := agree 0 (by omega)
  rw [load32, load32, first, agree 1 (by omega), agree 2 (by omega), agree 3 (by omega)]

/-- The memory holds the bytes from the address on. -/
def Holds (mem : Memory) (a : Nat) (bytes : List Byte) : Prop :=
  ∀ i (inside : i < bytes.length), mem (a + i) = bytes[i]

@[simp] theorem holds_nil (mem : Memory) (a : Nat) : Holds mem a [] := by
  intro i inside
  simp at inside

@[simp] theorem holds_cons (mem : Memory) (a : Nat) (b : Byte) (bytes : List Byte) :
    Holds mem a (b :: bytes) ↔ mem a = b ∧ Holds mem (a + 1) bytes := by
  constructor
  · intro holds
    refine ⟨holds 0 (by simp), ?_⟩
    intro i inside
    rw [Nat.add_right_comm]
    exact holds (i + 1) (by simpa using inside)
  · rintro ⟨first, later⟩ i inside
    cases i with
    | zero => exact first
    | succ i =>
      have := later i (by simpa using inside)
      rw [Nat.add_right_comm] at this
      exact this

theorem holds_append (mem : Memory) (xs ys : List Byte) (a : Nat) :
    Holds mem a (xs ++ ys) ↔ Holds mem a xs ∧ Holds mem (a + xs.length) ys := by
  induction xs generalizing a with
  | nil => simp
  | cons x xs ih =>
    simp only [List.cons_append, holds_cons, ih, List.length_cons, and_assoc, Nat.add_right_comm _ 1,
      ← Nat.add_assoc]

/-- A word stored by the machine is loaded back, and a word of a wire is the
    exchanged load. -/
theorem load_store32 {mem : Memory} {a : Nat} {w : BitVec 32} (holds : Holds mem a (store32 w)) : load32 mem a = w := by
  simp only [store32, holds_cons, Nat.add_assoc] at holds
  obtain ⟨first, second, third, fourth, _⟩ := holds
  rw [load32, first, second, third, fourth, join32_bytes]

theorem load_store16 {mem : Memory} {a : Nat} {w : BitVec 16} (holds : Holds mem a (store16 w)) : load16 mem a = w := by
  simp only [store16, holds_cons] at holds
  obtain ⟨first, second, _⟩ := holds
  rw [load16, first, second, join16_bytes]

theorem swap_load_big16 {mem : Memory} {a : Nat} {w : BitVec 16} (holds : Holds mem a (big16 w)) :
    swap16 (load16 mem a) = w := by
  simp only [big16, holds_cons] at holds
  obtain ⟨first, second, _⟩ := holds
  rw [load16, swap16_join, first, second, join16_bytes]

theorem swap_load_big32 {mem : Memory} {a : Nat} {w : BitVec 32} (holds : Holds mem a (big32 w)) :
    swap32 (load32 mem a) = w := by
  simp only [big32, holds_cons, Nat.add_assoc] at holds
  obtain ⟨first, second, third, fourth, _⟩ := holds
  rw [load32, swap32_join, first, second, third, fourth, join32_bytes]

/-- The bytes of a stretch of memory. -/
def window (mem : Memory) (a n : Nat) : List Byte := (List.range n).map (fun i => mem (a + i))

@[simp] theorem window_length (mem : Memory) (a n : Nat) : (window mem a n).length = n := by
  simp [window]

/-- A stretch of memory is the list of bytes that the memory holds there. -/
theorem window_eq_iff {mem : Memory} {a n : Nat} {bytes : List Byte} :
    window mem a n = bytes ↔ Holds mem a bytes ∧ bytes.length = n := by
  constructor
  · rintro rfl
    refine ⟨?_, window_length mem a n⟩
    intro i inside
    simp [window]
  · rintro ⟨holds, rfl⟩
    apply List.ext_getElem (by simp)
    intro i _ inside
    simp only [window, List.getElem_map, List.getElem_range]
    exact holds i inside

/-- A buffer with the given bytes, and what lies beyond it. -/
def buffer (bytes : List Byte) (beyond : Memory) : Memory := fun i => (bytes[i]?).getD (beyond i)

theorem holds_buffer (bytes : List Byte) (beyond : Memory) : Holds (buffer bytes beyond) 0 bytes := by
  intro i inside
  simp [buffer, inside]

end WinMiniTools.Words
