import Mathlib.Data.List.TakeWhile

/-!
Integers in decimal, as `printf` writes them for `%d`. A written integer is read
back from the front of a text, whatever follows that is no digit (`read_write`).
-/
namespace WinMiniTools.Decimals

def write (z : Int) : List Char := if z < 0 then '-' :: Nat.toDigits 10 z.natAbs else Nat.toDigits 10 z.natAbs

/-- The number that the digits at the front of a text write, and the rest. -/
def readNat (text : List Char) : Option (Nat × List Char) :=
  if text.takeWhile Char.isDigit = [] then none
  else some (Nat.ofDigitChars 10 (text.takeWhile Char.isDigit) 0, text.dropWhile Char.isDigit)

/-- The integer at the front of a text, and the rest. -/
def read : List Char → Option (Int × List Char)
  | [] => none
  | c :: rest =>
    if c = '-' then (readNat rest).map (fun r => (-(r.1 : Int), r.2))
    else (readNat (c :: rest)).map (fun r => ((r.1 : Int), r.2))

/-- No digit follows. -/
def Ends (rest : List Char) : Prop := ∀ c ∈ rest.head?, c.isDigit = false

theorem ends_nil : Ends [] := fun c member => absurd member (by simp)
theorem ends_cons {c : Char} (other : c.isDigit = false) (rest : List Char) : Ends (c :: rest) := by
  intro d member
  rw [List.head?_cons, Option.mem_some_iff] at member
  exact member ▸ other

theorem digits (n : Nat) : ∀ c ∈ Nat.toDigits 10 n, c.isDigit = true :=
  fun _ member => Nat.isDigit_of_mem_toDigits (by decide) (by decide) member

theorem readNat_write (n : Nat) {rest : List Char} (ends : Ends rest) :
    readNat (Nat.toDigits 10 n ++ rest) = some (n, rest) := by
  have stop : rest.takeWhile Char.isDigit = [] ∧ rest.dropWhile Char.isDigit = rest := by
    cases rest with
    | nil => exact ⟨rfl, rfl⟩
    | cons c rest => simp [ends c rfl]
  rw [readNat, List.takeWhile_append_of_pos (digits n), List.dropWhile_append_of_pos (digits n), stop.1, stop.2,
    List.append_nil, if_neg Nat.toDigits_ne_nil, Nat.ofDigitChars_ten_toDigits]

theorem read_write (z : Int) {rest : List Char} (ends : Ends rest) : read (write z ++ rest) = some (z, rest) := by
  unfold write
  by_cases negative : z < 0
  · rw [if_pos negative, List.cons_append, read, if_pos rfl, readNat_write _ ends]
    simp only [Option.map_some, Option.some.injEq, Prod.mk.injEq, and_true]
    omega
  · rw [if_neg negative]
    obtain ⟨c, digits', split⟩ := List.exists_cons_of_ne_nil (Nat.toDigits_ne_nil (n := z.natAbs) (b := 10))
    have digit : c.isDigit = true := digits z.natAbs c (by simp [split])
    have unsigned : c ≠ '-' := by
      rintro rfl
      exact absurd digit (by decide)
    have value := readNat_write z.natAbs ends
    rw [split, List.cons_append] at value ⊢
    rw [read, if_neg unsigned, value]
    simp only [Option.map_some, Option.some.injEq, Prod.mk.injEq, and_true]
    omega

/-- A written integer is a sign and digits. -/
theorem write_chars {z : Int} {c : Char} (member : c ∈ write z) : c = '-' ∨ c.isDigit = true := by
  unfold write at member
  by_cases negative : z < 0
  · rw [if_pos negative] at member
    rcases List.mem_cons.mp member with sign | digit
    · exact .inl sign
    · exact .inr (digits _ c digit)
  · rw [if_neg negative] at member
    exact .inr (digits _ c member)

end WinMiniTools.Decimals
