import WinMiniTools.Words

/-!
Dotted quads: the four bytes of a stored address, the least significant first,
written in decimal and separated by dots. Reading a written address gives the
address back (`read_write`).
-/
namespace WinMiniTools.DottedQuads
open WinMiniTools.Words

/-- The decimal digits of a byte, without leading zeros. -/
def octetText (n : Nat) : List Char :=
  let digit (d : Nat) : Char := Char.ofNat (48 + d)
  if n < 10 then [digit n]
  else if n < 100 then [digit (n / 10), digit (n % 10)]
  else [digit (n / 100), digit (n / 10 % 10), digit (n % 10)]

/-- The byte that one to three decimal digits write. -/
def octetValue (text : List Char) : Option Nat :=
  let value := text.foldl (fun n c => 10 * n + (c.toNat - 48)) 0
  if text ≠ [] ∧ text.length ≤ 3 ∧ text.all Char.isDigit ∧ value < 256 then some value else none

theorem octet_text : ∀ n : Fin 256, octetValue (octetText n) = some n.val ∧ '.' ∉ octetText n ∧
    1 ≤ (octetText n).length ∧ (octetText n).length ≤ 3 := by
  decide +kernel

/-- The text of an address. -/
def write (a : BitVec 32) : List Char :=
  ['.'].intercalate [octetText (byteAt a 0).toNat, octetText (byteAt a 1).toNat, octetText (byteAt a 2).toNat,
    octetText (byteAt a 3).toNat]

/-- The address that a text writes, and all ones for any other text. -/
def read (text : List Char) : BitVec 32 :=
  match (text.splitOn '.').map octetValue with
  | [some a, some b, some c, some d] =>
    join32 (BitVec.ofNat 8 d) (BitVec.ofNat 8 c) (BitVec.ofNat 8 b) (BitVec.ofNat 8 a)
  | _ => BitVec.allOnes 32

private theorem octet_byte (b : Byte) : octetValue (octetText b.toNat) = some b.toNat ∧ '.' ∉ octetText b.toNat ∧
    1 ≤ (octetText b.toNat).length ∧ (octetText b.toNat).length ≤ 3 :=
  octet_text ⟨b.toNat, b.isLt⟩

theorem read_write (a : BitVec 32) : read (write a) = a := by
  have split : (write a).splitOn '.' = [octetText (byteAt a 0).toNat, octetText (byteAt a 1).toNat,
      octetText (byteAt a 2).toNat, octetText (byteAt a 3).toNat] := by
    apply List.splitOn_intercalate
    · simp [(octet_byte _).2.1]
    · simp
  rw [read, split]
  simp only [List.map_cons, List.map_nil, (octet_byte _).1, BitVec.ofNat_toNat, BitVec.setWidth_eq, join32_bytes]

theorem write_length (a : BitVec 32) : 7 ≤ (write a).length ∧ (write a).length ≤ 15 := by
  have first := (octet_byte (byteAt a 0)).2.2
  have second := (octet_byte (byteAt a 1)).2.2
  have third := (octet_byte (byteAt a 2)).2.2
  have fourth := (octet_byte (byteAt a 3)).2.2
  simp only [write, List.intercalate_cons_cons, List.intercalate_singleton, List.length_append, List.length_singleton]
  omega

/-- A written address is digits and periods. -/
theorem write_chars (a : BitVec 32) : ∀ c ∈ write a, c = '.' ∨ c.isDigit = true := by
  have octet : ∀ b : Byte, ∀ c ∈ octetText b.toNat, c.isDigit = true := by
    have all : ∀ n : Fin 256, (octetText n).all Char.isDigit = true := by decide +kernel
    exact fun b => List.all_eq_true.mp (all ⟨b.toNat, b.isLt⟩)
  intro c member
  simp only [write, List.intercalate_cons_cons, List.intercalate_singleton, List.mem_append,
    List.mem_singleton, or_assoc] at member
  rcases member with first | dot | second | dot | third | dot | fourth
  · exact .inr (octet _ c first)
  · exact .inl dot
  · exact .inr (octet _ c second)
  · exact .inl dot
  · exact .inr (octet _ c third)
  · exact .inl dot
  · exact .inr (octet _ c fourth)

end WinMiniTools.DottedQuads
