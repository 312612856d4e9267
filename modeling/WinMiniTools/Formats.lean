import WinMiniTools.Decimals

/-!
Texts by `printf`. A format is read as pieces, each a plain character or a
conversion, and a conversion writes the next argument. `%d` takes a word as a
number with a sign, `%08x` as one without. A written text is as long as its
plain characters and its arguments together (`render_length`), and
`sprintf_s` writes it into a buffer only with room for a terminator after it.
-/
namespace WinMiniTools.Formats

inductive Conversion where
  | decimal
  | hex8
  | string
  | pointer
  deriving DecidableEq

inductive Piece where
  | plain (c : Char)
  | converts (k : Conversion)
  deriving DecidableEq

/-- An argument; a pointer with the digits that the target prints of one. -/
inductive Arg where
  | word (w : BitVec 32)
  | string (s : List Char)
  | pointer (digits : Nat) (address : Nat)

/-- The pieces of a format. Of the conversions of the standard these four are
    read, and any other percent sign is plain. -/
def pieces : List Char → List Piece
  | [] => []
  | '%' :: 'd' :: rest => .converts .decimal :: pieces rest
  | '%' :: '0' :: '8' :: 'x' :: rest => .converts .hex8 :: pieces rest
  | '%' :: 's' :: rest => .converts .string :: pieces rest
  | '%' :: 'p' :: rest => .converts .pointer :: pieces rest
  | c :: rest => .plain c :: pieces rest

/-- The last hexadecimal digits of a number, the most significant first. -/
def hex : Nat → Nat → List Char
  | 0, _ => []
  | n + 1, value => hex n (value / 16) ++ [Nat.digitChar (value % 16)]

/-- What a conversion writes. An argument of another kind is undefined. -/
def write : Conversion → Arg → List Char
  | .decimal, .word w => Decimals.write w.toInt
  | .hex8, .word w => hex 8 w.toNat
  | .string, .string s => s
  | .pointer, .pointer digits address => (hex digits address).map Char.toUpper
  | _, _ => []

def render : List Piece → List Arg → List Char
  | [], _ => []
  | .plain c :: ps, args => c :: render ps args
  | .converts k :: ps, arg :: args => write k arg ++ render ps args
  | .converts _ :: _, [] => []

def printf (format : List Char) (args : List Arg) : List Char := render (pieces format) args

/-- The text, unless the buffer is too small for it: then the handler of invalid
    parameters is called. -/
def sprintf_s (sizeOfBuffer : Nat) (format : List Char) (args : List Arg) : Option (List Char) :=
  if (printf format args).length < sizeOfBuffer then some (printf format args) else none

/-! ### The parts of a text -/

def Piece.conversion? : Piece → Option Conversion
  | .plain _ => none
  | .converts k => some k
def Piece.char? : Piece → Option Char
  | .plain c => some c
  | .converts _ => none

def conversions (ps : List Piece) : List Conversion := ps.filterMap Piece.conversion?
def plain (ps : List Piece) : List Char := ps.filterMap Piece.char?

/-- What the conversions write, one for each argument. -/
def written (ps : List Piece) (args : List Arg) : List (List Char) := List.zipWith write (conversions ps) args

theorem written_converts (k : Conversion) (ps : List Piece) (arg : Arg) (args : List Arg) :
    written (.converts k :: ps) (arg :: args) = write k arg :: written ps args := rfl

theorem render_plain (text : List Char) (ps : List Piece) (args : List Arg) :
    render (text.map .plain ++ ps) args = text ++ render ps args := by
  induction text with
  | nil => rfl
  | cons c text ih => rw [List.map_cons, List.cons_append, render, ih, List.cons_append]

theorem render_length {ps : List Piece} {args : List Arg} (enough : (conversions ps).length ≤ args.length) :
    (render ps args).length = (plain ps).length + (written ps args).flatten.length := by
  induction ps generalizing args with
  | nil => rfl
  | cons p ps ih =>
    cases p with
    | plain c =>
      have text : plain (.plain c :: ps) = c :: plain ps := rfl
      have rest : written (.plain c :: ps) args = written ps args := rfl
      rw [render, List.length_cons, ih enough, text, rest, List.length_cons]
      omega
    | converts k =>
      cases args with
      | nil => exact absurd enough (Nat.not_succ_le_zero _)
      | cons arg args =>
        have text : plain (.converts k :: ps) = plain ps := rfl
        rw [render, List.length_append, ih (Nat.le_of_succ_le_succ enough), text, written_converts, List.flatten_cons,
          List.length_append]
        omega

/-- The characters of a text are plain, or a conversion has written them. -/
theorem mem_render {ps : List Piece} {args : List Arg} {c : Char} (member : c ∈ render ps args) :
    c ∈ plain ps ∨ ∃ k, ∃ arg ∈ args, c ∈ write k arg := by
  induction ps generalizing args with
  | nil => cases member
  | cons p ps ih =>
    cases p with
    | plain d =>
      rcases List.mem_cons.mp member with rfl | later
      · exact .inl List.mem_cons_self
      · rcases ih later with unchanged | converted
        · exact .inl (List.mem_cons_of_mem _ unchanged)
        · exact .inr converted
    | converts k =>
      cases args with
      | nil => cases member
      | cons arg args =>
        rcases List.mem_append.mp member with here | later
        · exact .inr ⟨k, arg, List.mem_cons_self, here⟩
        · rcases ih later with unchanged | ⟨k', arg', among, inside⟩
          · exact .inl unchanged
          · exact .inr ⟨k', arg', List.mem_cons_of_mem _ among, inside⟩

/-- A format that goes on writes the rest behind. -/
theorem render_append (front : List Piece) {args : List Arg} (enough : (conversions front).length ≤ args.length)
    (back : List Piece) :
    render (front ++ back) args = render front args ++ render back (args.drop (conversions front).length) := by
  induction front generalizing args with
  | nil => rfl
  | cons p front ih =>
    cases p with
    | plain c => exact congrArg (List.cons c) (ih enough)
    | converts k =>
      cases args with
      | nil => exact absurd enough (Nat.not_succ_le_zero _)
      | cons arg args =>
        rw [List.cons_append, render, render, ih (Nat.le_of_succ_le_succ enough), List.append_assoc]
        rfl

/-! ### Digits -/

@[simp] theorem hex_length (n value : Nat) : (hex n value).length = n := by
  induction n generalizing value with
  | zero => rfl
  | succ n ih => rw [hex, List.length_append, ih, List.length_singleton]

theorem hex_chars {n value : Nat} {c : Char} (member : c ∈ hex n value) : c ∈ "0123456789abcdef".toList := by
  have each : ∀ digit < 16, Nat.digitChar digit ∈ "0123456789abcdef".toList := by decide
  induction n generalizing value with
  | zero => cases member
  | succ n ih =>
    rcases List.mem_append.mp member with earlier | last
    · exact ih earlier
    · rw [List.mem_singleton.mp last]
      exact each _ (Nat.mod_lt _ (by decide))

@[simp] theorem write_hex8_length (w : BitVec 32) : (write .hex8 (.word w)).length = 8 := hex_length 8 _
@[simp] theorem write_string (s : List Char) : write .string (.string s) = s := rfl
@[simp] theorem write_pointer_length (digits address : Nat) :
    (write .pointer (.pointer digits address)).length = digits := by
  rw [write, List.length_map, hex_length]

end WinMiniTools.Formats
