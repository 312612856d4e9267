import Mathlib.Data.List.Infix
import WinMiniTools.Words

/-!
Streams of the Microsoft C runtime. A binary stream delivers the bytes of its
file. A text stream ends at the first byte 0x1A and delivers a line feed for a
carriage return with a line feed after it. So it delivers the bytes of a file
exactly when there is none of both in the file (`text_eq_iff`); otherwise it
delivers fewer (`text_length`).
-/
namespace WinMiniTools.TextStreams
open WinMiniTools.Words

def cr : Byte := 0x0D
def lf : Byte := 0x0A
/-- Control-Z. -/
def eof : Byte := 0x1A

/-- What a text stream delivers of the bytes of a file. -/
def text : List Byte → List Byte
  | [] => []
  | b :: rest =>
    if b = eof then []
    -- The line feed that stays is the first of `rest`.
    else if b = cr ∧ rest.head? = some lf then text rest
    else b :: text rest

inductive Mode where
  | text
  | binary

/-- What a stream delivers. -/
def delivered : Mode → List Byte → List Byte
  | .text, file => text file
  | .binary, file => file

/-- No byte ends the stream early, and no line end is of two bytes. -/
def Plain (file : List Byte) : Prop := eof ∉ file ∧ ¬ [cr, lf] <:+: file

instance (file : List Byte) : Decidable (Plain file) := inferInstanceAs (Decidable (_ ∧ _))

theorem plain_cons (b : Byte) (rest : List Byte) :
    Plain (b :: rest) ↔ b ≠ eof ∧ ¬ (b = cr ∧ rest.head? = some lf) ∧ Plain rest := by
  have pair : [cr, lf] <+: b :: rest ↔ b = cr ∧ rest.head? = some lf := by
    cases rest with
    | nil => simp [List.cons_prefix_cons]
    | cons c rest => simp [List.cons_prefix_cons, eq_comm]
  simp only [Plain, List.mem_cons, not_or, List.infix_cons_iff, pair, ne_comm (a := eof)]
  tauto

/-- A text stream delivers at most the bytes of the file, and fewer of them where
    it does not deliver them all. -/
theorem text_length (file : List Byte) :
    (text file).length ≤ file.length ∧ ((text file).length = file.length ↔ Plain file) := by
  induction file with
  | nil => simp [text, Plain]
  | cons b rest ih =>
    obtain ⟨short, exactly⟩ := ih
    rw [plain_cons, text, List.length_cons]
    by_cases ends : b = eof
    · rw [if_pos ends]
      simp [ends]
    · rw [if_neg ends]
      by_cases line : b = cr ∧ rest.head? = some lf
      · rw [if_pos line]
        refine ⟨by omega, ?_⟩
        constructor
        · intro same
          omega
        · rintro ⟨_, other, _⟩
          exact absurd line other
      · rw [if_neg line, List.length_cons, Nat.add_right_cancel_iff, exactly]
        refine ⟨by omega, ?_⟩
        constructor
        · intro plain
          exact ⟨ends, line, plain⟩
        · rintro ⟨_, _, plain⟩
          exact plain

theorem text_eq_iff (file : List Byte) : text file = file ↔ Plain file := by
  constructor
  · intro same
    exact (text_length file).2.mp (congrArg List.length same)
  · intro plain
    induction file with
    | nil => rfl
    | cons b rest ih =>
      obtain ⟨ends, line, later⟩ := (plain_cons b rest).mp plain
      rw [text, if_neg ends, if_neg line, ih later]

end WinMiniTools.TextStreams
