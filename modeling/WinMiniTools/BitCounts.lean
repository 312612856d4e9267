import Mathlib.Data.Nat.Digits.Lemmas
import WinMiniTools.Words

/-!
Counting the ones among the bits of a number. The count of a word is the sum of
the counts of its bytes, so it does not depend on the byte order
(`ones_swap32`), and a block of low bits counts its length (`ones_low`). A
number is at least a block of as many ones as it has (`two_pow_ones_le`).
-/
namespace WinMiniTools.BitCounts
open WinMiniTools.Words

/-- The number of ones in the binary writing of a number. -/
def ones (n : Nat) : Nat := (Nat.digits 2 n).sum

@[simp] theorem ones_zero : ones 0 = 0 := by simp [ones]

theorem ones_half (n : Nat) : ones n = n % 2 + ones (n / 2) := by
  rcases Nat.eq_zero_or_pos n with rfl | positive
  · simp
  · rw [ones, Nat.digits_def' (by omega) positive, List.sum_cons, ones]

/-- The ones of two numbers that stand side by side. -/
theorem ones_append (k a b : Nat) (small : a < 2 ^ k) : ones (2 ^ k * b + a) = ones b + ones a := by
  induction k generalizing a with
  | zero =>
    have none : a = 0 := by simpa using small
    simp [none]
  | succ k ih =>
    have half : a / 2 < 2 ^ k := by
      rw [Nat.pow_succ] at small
      omega
    have shift : 2 ^ (k + 1) * b + a = 2 * (2 ^ k * b) + a := by ring
    have parity : (2 ^ (k + 1) * b + a) % 2 = a % 2 := by rw [shift, Nat.mul_add_mod]
    have halves : (2 ^ (k + 1) * b + a) / 2 = 2 ^ k * b + a / 2 := by
      rw [shift, Nat.mul_add_div (by omega)]
    calc ones (2 ^ (k + 1) * b + a) = a % 2 + ones (2 ^ k * b + a / 2) := by rw [ones_half, parity, halves]
      _ = ones b + (a % 2 + ones (a / 2)) := by rw [ih (a / 2) half]; omega
      _ = ones b + ones a := by rw [← ones_half a]

theorem ones_join32 (a b c d : Byte) :
    ones (join32 a b c d).toNat = ones a.toNat + ones b.toNat + ones c.toNat + ones d.toNat := by
  have shape : (join32 a b c d).toNat =
      2 ^ 8 * (2 ^ 8 * (2 ^ 8 * a.toNat + b.toNat) + c.toNat) + d.toNat := by
    rw [join32_toNat]
    norm_num
  rw [shape, ones_append 8 _ _ d.isLt, ones_append 8 _ _ c.isLt, ones_append 8 _ _ b.isLt]

theorem ones_swap32 (w : BitVec 32) : ones (swap32 w).toNat = ones w.toNat := by
  conv_rhs => rw [← join32_bytes w]
  rw [swap32, ones_join32, ones_join32]
  omega

/-- A block of low bits counts its length. -/
theorem ones_low (k : Nat) : ones (2 ^ k - 1) = k := by
  induction k with
  | zero => simp
  | succ k ih =>
    have positive : 0 < 2 ^ k := Nat.two_pow_pos k
    rw [ones_half, Nat.pow_succ, show (2 ^ k * 2 - 1) % 2 = 1 by omega, show (2 ^ k * 2 - 1) / 2 = 2 ^ k - 1 by omega, ih]
    omega

/-- The ones are the positions below any bound of the number where a one stands. -/
theorem ones_positions (k n : Nat) (small : n < 2 ^ k) : ones n = (List.range k).countP (fun i => n.testBit i) := by
  induction k generalizing n with
  | zero =>
    have none : n = 0 := by simpa using small
    simp [none]
  | succ k ih =>
    have half : n / 2 < 2 ^ k := by
      rw [Nat.pow_succ] at small
      omega
    rw [ones_half, ih (n / 2) half, List.range_succ_eq_map, List.countP_cons, List.countP_map]
    have later : ((fun i => n.testBit i) ∘ Nat.succ) = fun i => (n / 2).testBit i := by
      funext i
      exact Nat.testBit_succ n i
    have first : (if n.testBit 0 = true then 1 else 0) = n % 2 := by
      rw [Nat.testBit_zero]
      rcases Nat.mod_two_eq_zero_or_one n with even | odd <;> simp [*]
    rw [later, first, Nat.add_comm]

/-- A number with some ones is at least the block of as many low ones. -/
theorem two_pow_ones_le (n : Nat) : 2 ^ ones n ≤ n + 1 := by
  induction n using Nat.strong_induction_on with
  | _ n ih =>
    rcases Nat.eq_zero_or_pos n with rfl | positive
    · simp
    · have half := ih (n / 2) (by omega)
      rw [ones_half]
      rcases Nat.mod_two_eq_zero_or_one n with even | odd
      · rw [even, Nat.zero_add]
        omega
      · rw [odd, Nat.add_comm, Nat.pow_succ]
        omega

end WinMiniTools.BitCounts
