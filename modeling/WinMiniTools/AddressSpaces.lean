import WinMiniTools.Words
import Mathlib.Data.Nat.Digits.Defs
import Mathlib.Tactic.Positivity

/-!
Address spaces: a byte at every address of a machine, where addresses wrap
around. A stretch of memory is given by its first address and its length
(`Within`). Writing a list of bytes changes its stretch and nothing else
(`write_within`, `write_outside`), stretches without a common address do not see
each other's writes (`read_write_apart`), and writing back what was read changes
nothing (`write_read`). Words are stored least significant byte first and loaded
back (`load_write_word`).
-/
namespace WinMiniTools.AddressSpaces
open WinMiniTools.Words

/-- The byte at each address. -/
abbrev Space (w : Nat) := BitVec w → Byte

variable {w : Nat}

/-- The address is one of the `n` from `a` on. -/
def Within (a : BitVec w) (n : Nat) (x : BitVec w) : Prop := (x - a).toNat < n
instance (a : BitVec w) (n : Nat) (x : BitVec w) : Decidable (Within a n x) := inferInstanceAs (Decidable (_ < _))

/-- Two stretches have no address in common. -/
def Apart (a : BitVec w) (n : Nat) (b : BitVec w) (m : Nat) : Prop := ∀ x, Within a n x → ¬ Within b m x

/-- Writes the bytes from `a` on. -/
def write (mem : Space w) (a : BitVec w) (bytes : List Byte) : Space w :=
  fun x => (bytes[(x - a).toNat]?).getD (mem x)

/-- The `n` bytes from `a` on. -/
def read (mem : Space w) (a : BitVec w) (n : Nat) : List Byte := (List.range n).map (fun i => mem (a + BitVec.ofNat w i))

/-! ### Stretches -/

theorem toNat_offset {a : BitVec w} {i : Nat} (fits : a.toNat + i < 2 ^ w) :
    (a + BitVec.ofNat w i).toNat = a.toNat + i := by
  rw [BitVec.toNat_add, BitVec.toNat_ofNat, Nat.mod_eq_of_lt (show i < 2 ^ w by omega), Nat.mod_eq_of_lt fits]

/-- A signed offset that does not wrap around. -/
theorem toNat_signed_offset {a : BitVec w} {x : Int} (low : 0 ≤ a.toNat + x) (high : a.toNat + x < 2 ^ w) :
    ((a + BitVec.ofInt w x).toNat : Int) = a.toNat + x := by
  have whole : a + BitVec.ofInt w x = BitVec.ofInt w (a.toNat + x) := by
    rw [BitVec.ofInt_add, BitVec.ofInt_natCast, BitVec.ofNat_toNat, BitVec.setWidth_eq]
  rw [whole, BitVec.toNat_ofInt, Int.toNat_of_nonneg (Int.emod_nonneg _ (by positivity))]
  exact Int.emod_eq_of_lt low (by push_cast; exact high)

theorem within_offset {n i : Nat} (a : BitVec w) (inside : i < n) : Within a n (a + BitVec.ofNat w i) := by
  have back : a + BitVec.ofNat w i - a = BitVec.ofNat w i := by rw [BitVec.add_comm, BitVec.add_sub_cancel]
  rw [Within, back, BitVec.toNat_ofNat]
  exact Nat.lt_of_le_of_lt (Nat.mod_le _ _) inside

theorem offset_of_within {n : Nat} {a x : BitVec w} (within : Within a n x) :
    ∃ i, i < n ∧ x = a + BitVec.ofNat w i := by
  refine ⟨(x - a).toNat, within, ?_⟩
  rw [BitVec.ofNat_toNat, BitVec.setWidth_eq, BitVec.add_comm, BitVec.sub_add_cancel]

theorem within_mono {n m : Nat} {a x : BitVec w} (le : n ≤ m) (within : Within a n x) : Within a m x :=
  Nat.lt_of_lt_of_le within le

/-- A part of a stretch lies in it. -/
theorem within_part {n m k : Nat} {a x : BitVec w} (fits : k + m ≤ n)
    (within : Within (a + BitVec.ofNat w k) m x) : Within a n x := by
  obtain ⟨i, inside, rfl⟩ := offset_of_within within
  rw [BitVec.add_assoc, ← BitVec.ofNat_add]
  exact within_offset a (by omega)

theorem apart_symm {n m : Nat} {a b : BitVec w} (apart : Apart a n b m) : Apart b m a n :=
  fun x there here => apart x here there

theorem apart_part {n m n' k : Nat} {a b : BitVec w} (apart : Apart a n b m) (fits : k + n' ≤ n) :
    Apart (a + BitVec.ofNat w k) n' b m :=
  fun x within => apart x (within_part fits within)

theorem apart_mono {n m n' m' : Nat} {a b : BitVec w} (apart : Apart a n b m) (le : n' ≤ n) (le' : m' ≤ m) :
    Apart a n' b m' :=
  fun x here there => apart x (within_mono le here) (within_mono le' there)

/-- Parts of one stretch, the first before the second. -/
theorem apart_parts {k n l m : Nat} (a : BitVec w) (before : k + n ≤ l) (fits : l + m ≤ 2 ^ w) :
    Apart (a + BitVec.ofNat w k) n (a + BitVec.ofNat w l) m := by
  intro x here there
  obtain ⟨i, inside, rfl⟩ := offset_of_within here
  obtain ⟨j, inside', same⟩ := offset_of_within there
  rw [BitVec.add_assoc, BitVec.add_assoc, ← BitVec.ofNat_add, ← BitVec.ofNat_add] at same
  have equal := congrArg BitVec.toNat ((BitVec.add_right_inj a).mp same)
  rw [BitVec.toNat_ofNat, BitVec.toNat_ofNat, Nat.mod_eq_of_lt (by omega), Nat.mod_eq_of_lt (by omega)] at equal
  omega

/-- A stretch that ends where another begins, or before. -/
theorem apart_below {n m : Nat} {a b : BitVec w} (before : a.toNat + n ≤ b.toNat) (fits : b.toNat + m ≤ 2 ^ w) :
    Apart a n b m := by
  intro x here there
  obtain ⟨i, inside, rfl⟩ := offset_of_within here
  obtain ⟨j, inside', same⟩ := offset_of_within there
  have equal := congrArg BitVec.toNat same
  rw [toNat_offset (by omega), toNat_offset (by omega)] at equal
  omega

theorem within_part_iff {n k i : Nat} (a : BitVec w) (fits : k + n ≤ 2 ^ w) (inside : i < 2 ^ w) :
    Within (a + BitVec.ofNat w k) n (a + BitVec.ofNat w i) ↔ k ≤ i ∧ i < k + n := by
  constructor
  · intro within
    obtain ⟨j, below, same⟩ := offset_of_within within
    rw [BitVec.add_assoc, ← BitVec.ofNat_add] at same
    have equal := congrArg BitVec.toNat ((BitVec.add_right_inj a).mp same)
    rw [BitVec.toNat_ofNat, BitVec.toNat_ofNat, Nat.mod_eq_of_lt inside, Nat.mod_eq_of_lt (by omega)] at equal
    omega
  · rintro ⟨low, high⟩
    obtain ⟨j, rfl⟩ := Nat.exists_eq_add_of_le low
    rw [BitVec.ofNat_add, ← BitVec.add_assoc]
    exact within_offset _ (by omega)

/-! ### Writes and reads -/

theorem sub_of_offset (a : BitVec w) {i : Nat} (inside : i < 2 ^ w) : (a + BitVec.ofNat w i - a).toNat = i := by
  rw [BitVec.add_comm, BitVec.add_sub_cancel, BitVec.toNat_ofNat, Nat.mod_eq_of_lt inside]

/-- Inside its stretch a write does not depend on what was there. -/
theorem write_within {mem other : Space w} {a x : BitVec w} {bytes : List Byte} (within : Within a bytes.length x) :
    write mem a bytes x = write other a bytes x := by
  rw [write, write, List.getElem?_eq_getElem (show (x - a).toNat < bytes.length from within)]
  rfl

theorem write_outside {mem : Space w} {a x : BitVec w} {bytes : List Byte} (outside : ¬ Within a bytes.length x) :
    write mem a bytes x = mem x := by
  rw [write, List.getElem?_eq_none (Nat.le_of_not_lt outside)]
  rfl

theorem write_offset {mem : Space w} {bytes : List Byte} {i : Nat} (a : BitVec w) (inside : i < bytes.length)
    (fits : bytes.length ≤ 2 ^ w) : write mem a bytes (a + BitVec.ofNat w i) = bytes[i] := by
  rw [write, sub_of_offset a (by omega), List.getElem?_eq_getElem inside]
  rfl

@[simp] theorem write_nil (mem : Space w) (a : BitVec w) : write mem a [] = mem := by
  funext x
  simp [write]

@[simp] theorem read_zero (mem : Space w) (a : BitVec w) : read mem a 0 = [] := rfl

@[simp] theorem read_length (mem : Space w) (a : BitVec w) (n : Nat) : (read mem a n).length = n := by
  simp [read]

theorem read_getElem (mem : Space w) (a : BitVec w) {n i : Nat} (inside : i < (read mem a n).length) :
    (read mem a n)[i] = mem (a + BitVec.ofNat w i) := by
  simp [read]

theorem read_add (mem : Space w) (a : BitVec w) (n m : Nat) :
    read mem a (n + m) = read mem a n ++ read mem (a + BitVec.ofNat w n) m := by
  simp only [read, List.range_add, List.map_append, List.map_map, BitVec.ofNat_add, BitVec.add_assoc,
    Function.comp_def]

theorem read_succ (mem : Space w) (a : BitVec w) (n : Nat) : read mem a (n + 1) = mem a :: read mem (a + 1#w) n := by
  rw [Nat.add_comm, read_add]
  simp [read, BitVec.add_zero]

/-- A stretch that two memories agree on is read the same. -/
theorem read_congr {mem other : Space w} {a : BitVec w} {n : Nat}
    (agree : ∀ x, Within a n x → mem x = other x) : read mem a n = read other a n := by
  apply List.map_congr_left
  intro i member
  exact agree _ (within_offset a (List.mem_range.mp member))

theorem agree_of_read {mem other : Space w} {a b : BitVec w} {n i : Nat} (same : read mem a n = read other b n)
    (inside : i < n) : mem (a + BitVec.ofNat w i) = other (b + BitVec.ofNat w i) := by
  have here := read_getElem mem a (n := n) (i := i) (by simpa using inside)
  have there := read_getElem other b (n := n) (i := i) (by simpa using inside)
  rw [← here, ← there]
  simp only [same]

theorem read_write {mem : Space w} {a : BitVec w} {bytes : List Byte} (fits : bytes.length ≤ 2 ^ w) :
    read (write mem a bytes) a bytes.length = bytes := by
  apply List.ext_getElem (by simp)
  intro i inside inside'
  rw [read_getElem, write_offset a inside' fits]

theorem read_write_apart {mem : Space w} {a b : BitVec w} {n : Nat} {bytes : List Byte}
    (apart : Apart a n b bytes.length) : read (write mem b bytes) a n = read mem a n :=
  read_congr (fun x within => write_outside (apart x within))

/-- Writing back what was read changes nothing. -/
theorem write_read (mem : Space w) (a : BitVec w) (n : Nat) : write mem a (read mem a n) = mem := by
  funext x
  by_cases within : (x - a).toNat < n
  · have inside : (x - a).toNat < (read mem a n).length := by rwa [read_length]
    rw [write, List.getElem?_eq_getElem inside, read_getElem mem a inside, BitVec.ofNat_toNat, BitVec.setWidth_eq,
      BitVec.add_comm, BitVec.sub_add_cancel]
    rfl
  · exact write_outside (by rwa [read_length])

theorem write_comm {mem : Space w} {a b : BitVec w} {xs ys : List Byte} (apart : Apart a xs.length b ys.length) :
    write (write mem a xs) b ys = write (write mem b ys) a xs := by
  funext x
  by_cases here : Within a xs.length x
  · rw [write_outside (apart x here)]
    exact write_within here
  · rw [write_outside here]
    by_cases there : Within b ys.length x
    · exact write_within there
    · rw [write_outside there, write_outside there, write_outside here]

/-- Memories are equal that hold the same outside a stretch and in it. -/
theorem eq_of_read {mem other : Space w} {a : BitVec w} {n : Nat} (same : read mem a n = read other a n)
    (agree : ∀ x, ¬ Within a n x → mem x = other x) : mem = other := by
  funext x
  by_cases within : Within a n x
  · obtain ⟨i, inside, rfl⟩ := offset_of_within within
    exact agree_of_read same inside
  · exact agree x within

/-- Bytes written one after the other. -/
theorem write_append {mem : Space w} {a : BitVec w} {xs ys : List Byte} (fits : xs.length + ys.length ≤ 2 ^ w) :
    write mem a (xs ++ ys) = write (write mem a xs) (a + BitVec.ofNat w xs.length) ys := by
  have parts : Apart a xs.length (a + BitVec.ofNat w xs.length) ys.length := by
    simpa using apart_parts a (k := 0) (n := xs.length) (l := xs.length) (m := ys.length) (by omega) fits
  apply eq_of_read (a := a) (n := (xs ++ ys).length)
  · rw [read_write (by simpa using fits), List.length_append, read_add, read_write_apart parts,
      read_write (by omega), read_write (by omega)]
  · intro x outside
    have first : ¬ Within a xs.length x := fun here => outside (within_mono (by simp) here)
    have second : ¬ Within (a + BitVec.ofNat w xs.length) ys.length x :=
      fun here => outside (within_part (by simp) here)
    rw [write_outside outside, write_outside second, write_outside first]

/-! ### Contents -/

/-- The memory has the bytes from `a` on. -/
def Contains (mem : Space w) (a : BitVec w) (bytes : List Byte) : Prop := read mem a bytes.length = bytes

theorem contains_cons (mem : Space w) (a : BitVec w) (b : Byte) (bytes : List Byte) :
    Contains mem a (b :: bytes) ↔ mem a = b ∧ Contains mem (a + 1#w) bytes := by
  rw [Contains, List.length_cons, read_succ, List.cons.injEq, Contains]

theorem contains_append (mem : Space w) (a : BitVec w) (xs ys : List Byte) :
    Contains mem a (xs ++ ys) ↔ Contains mem a xs ∧ Contains mem (a + BitVec.ofNat w xs.length) ys := by
  rw [Contains, List.length_append, read_add]
  constructor
  · intro same
    exact List.append_inj same (by simp)
  · rintro ⟨front, back⟩
    rw [front, back]

theorem contains_write {mem : Space w} {a : BitVec w} {bytes : List Byte} (fits : bytes.length ≤ 2 ^ w) :
    Contains (write mem a bytes) a bytes :=
  read_write fits

/-- A write elsewhere does not touch the contents. -/
theorem contains_write_apart {mem : Space w} {a b : BitVec w} {xs ys : List Byte}
    (apart : Apart a xs.length b ys.length) : Contains (write mem b ys) a xs ↔ Contains mem a xs := by
  rw [Contains, read_write_apart apart, Contains]

/-! ### Words -/

/-- The `n` bytes of a word, the least significant first. -/
def wordBytes {m : Nat} (n : Nat) (x : BitVec m) : List Byte := (List.range n).map (byteAt x)
/-- The word with the given bytes, the least significant first. -/
def ofBytes (m : Nat) (bytes : List Byte) : BitVec m := BitVec.ofNat m (Nat.ofDigits 256 (bytes.map BitVec.toNat))
/-- The word of `n` bytes at an address. -/
def load (m n : Nat) (mem : Space w) (a : BitVec w) : BitVec m := ofBytes m (read mem a n)

@[simp] theorem wordBytes_length {m : Nat} (n : Nat) (x : BitVec m) : (wordBytes n x).length = n := by
  simp [wordBytes]

theorem ofDigits_wordBytes {m : Nat} (n : Nat) (x : BitVec m) :
    Nat.ofDigits 256 ((wordBytes n x).map BitVec.toNat) = x.toNat % 256 ^ n := by
  induction n with
  | zero => simp [wordBytes, Nat.mod_one]
  | succ n ih =>
    rw [wordBytes] at ih ⊢
    rw [List.range_succ, List.map_append, List.map_append, Nat.ofDigits_append, ih, Nat.mod_pow_succ]
    simp [byteAt_toNat]

/-- A word is made of its bytes. -/
theorem ofBytes_wordBytes {m n : Nat} (x : BitVec m) (fits : m ≤ 8 * n) : ofBytes m (wordBytes n x) = x := by
  apply BitVec.eq_of_toNat_eq
  have power : 256 ^ n = 2 ^ (8 * n) := (pow_mul 2 8 n).symm
  have le : 2 ^ m ≤ 2 ^ (8 * n) := Nat.pow_le_pow_right (by omega) fits
  rw [ofBytes, ofDigits_wordBytes, BitVec.toNat_ofNat, power, Nat.mod_eq_of_lt (Nat.lt_of_lt_of_le x.isLt le),
    Nat.mod_eq_of_lt x.isLt]

theorem load_of_contains {m n : Nat} {mem : Space w} {a : BitVec w} {x : BitVec m} (fits : m ≤ 8 * n)
    (contains : Contains mem a (wordBytes n x)) : load m n mem a = x := by
  rw [Contains, wordBytes_length] at contains
  rw [load, contains, ofBytes_wordBytes x fits]

theorem load_write_word {m n : Nat} {mem : Space w} {a : BitVec w} (x : BitVec m) (fits : m ≤ 8 * n)
    (inside : n ≤ 2 ^ w) : load m n (write mem a (wordBytes n x)) a = x :=
  load_of_contains fits (contains_write (by simpa using inside))

theorem load_congr {m n : Nat} {mem other : Space w} {a b : BitVec w} (same : read mem a n = read other b n) :
    load m n mem a = load m n other b := by
  rw [load, load, same]

theorem load_write_apart {m n : Nat} {mem : Space w} {a b : BitVec w} {bytes : List Byte}
    (apart : Apart a n b bytes.length) : load m n (write mem b bytes) a = load m n mem a :=
  load_congr (read_write_apart apart)

end WinMiniTools.AddressSpaces
