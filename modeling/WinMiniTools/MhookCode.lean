import WinMiniTools.Processors
import WinMiniTools.Loops

/-!
The code that `mhook-lib` moves into a trampoline. `DisassembleAndSkip` takes whole
instructions from the entry of a function until the jump to the hook has room,
and stops at branches, calls and returns. On x64 it notes the instructions that
name data by its distance from themselves, and `FixupIPRelativeAddressing`
rewrites the distances, so that the moved code does what the code of the function
does (`skipped_copied`, `fixup_moved`).
-/
namespace WinMiniTools.MhookCode
open WinMiniTools.Words WinMiniTools.AddressSpaces WinMiniTools.Processors WinMiniTools.Loops
universe u

/-- The types of instructions that the library asks for. -/
inductive ITYPE where
  | ret
  | branch
  | branchcc
  | call
  | callcc
  | loopcc
  | mov
  | lea
  | other
  deriving DecidableEq

/-- An operand: whether it is relative to the instruction pointer, and to `rip`. -/
structure Operand where
  ipRel : Bool
  rip : Bool

/-- What the library reads of an instruction; the disassembler refuses to return one of
    no bytes or of more than 15. -/
structure Instruction where
  length : Nat
  type : ITYPE
  relative : Bool
  operandSize : Nat
  displacement : Int
  operands : List Operand
  positive : 0 < length
  bounded : length ≤ 15

/-- `MHOOKS_RIPINFO` and `MHOOKS_PATCHDATA`; `nRipCnt` is the length of `rips`. -/
structure RipInfo where
  dwOffset : Nat
  nDisplacement : Int

structure PatchData where
  nLimitUp : Int
  nLimitDown : Int
  rips : List RipInfo

def MHOOKS_MAX_RIPS : Nat := 4
def MHOOK_JMPSIZE : Nat := 5

/-- The operand is there, and relative to the instruction pointer. -/
def Instruction.ipRel (pins : Instruction) (i : Nat) : Bool := (pins.operands[i]?).any (fun o => o.ipRel)
def Instruction.rip (pins : Instruction) (i : Nat) : Bool := (pins.operands[i]?).any (fun o => o.ipRel && o.rip)

/-- A `mov` or `lea` of 64 bits with two operands, the given one relative to `rip`. -/
def Instruction.supported (pins : Instruction) (i : Nat) : Bool :=
  (pins.type == .mov || pins.type == .lea) && pins.relative && pins.operandSize == 8 && pins.operands.length == 2 &&
    pins.rip i

/-- What is done with an instruction that is no branch. -/
inductive Treatment where
  | plain
  | processRip
  | unsupported
  deriving DecidableEq

/-- Only on x64 the operands are looked at. -/
def treatment : {w : Nat} → Mode w → Instruction → Treatment
  | _, .x86, _ => .plain
  | _, .x64, pins =>
    if pins.supported 1 then .processRip
    else if pins.supported 0 then .processRip
    else if pins.ipRel 0 then .unsupported
    else if pins.ipRel 1 then .unsupported
    else if pins.ipRel 2 then .unsupported
    else .plain

/-- The types at which disassembly stops. -/
def stops : List ITYPE := [.ret, .branch, .branchcc, .call, .callcc]

/-- `dwRet`, and what `pdata` points to. -/
structure Skipped where
  dwRet : Nat
  pdata : PatchData

/-- The limits, widened by a displacement from the start of the function. -/
def PatchData.widen (pdata : PatchData) (nAdjustedDisplacement : Int) : PatchData :=
  { pdata with
    nLimitDown := if nAdjustedDisplacement < pdata.nLimitDown then nAdjustedDisplacement else pdata.nLimitDown
    nLimitUp := if nAdjustedDisplacement > pdata.nLimitUp then nAdjustedDisplacement else pdata.nLimitUp }

def PatchData.addRip (pdata : PatchData) (rip : RipInfo) : PatchData := { pdata with rips := pdata.rips ++ [rip] }

variable {w : Nat} {Data : Type u}

/-- One instruction of the loop of `DisassembleAndSkip`. -/
def skipBody (mode : Mode w) (getInstruction : BitVec w → Option Instruction) (pFunction : BitVec w) (dwMinLen : Nat)
    (s : Skipped) : List (Nat × Instruction) × (Skipped ⊕ Skipped) :=
  if dwMinLen ≤ s.dwRet then ([], .inr s)
  else
    match getInstruction (pFunction + BitVec.ofNat w s.dwRet) with
    | none => ([], .inr s)
    | some pins =>
      if pins.type ∈ stops then ([], .inr s)
      else
        match treatment mode pins with
        | .unsupported => ([], .inr s)
        | .plain => ([(s.dwRet, pins)], .inl { s with dwRet := s.dwRet + pins.length })
        | .processRip =>
          let pdata := s.pdata.widen (pins.displacement + s.dwRet)
          if pdata.rips.length < MHOOKS_MAX_RIPS then
            ([(s.dwRet, pins)],
              .inl
                { dwRet := s.dwRet + pins.length
                  pdata := pdata.addRip { dwOffset := s.dwRet + 3, nDisplacement := pins.displacement } })
          else ([], .inr { s with pdata := pdata })

/-- The loop, with the instructions skipped and their offsets as its events. -/
def skipLoop (mode : Mode w) (getInstruction : BitVec w → Option Instruction) (pFunction : BitVec w) (dwMinLen : Nat) :
    Loop Skipped (Nat × Instruction) Skipped where
  body := skipBody mode getInstruction pFunction dwMinLen
  weight s := dwMinLen - s.dwRet
  progress s t next := by
    rw [skipBody] at next
    split at next
    · cases next
    · split at next
      · cases next
      · rename_i pins _
        have := pins.positive
        split at next
        · cases next
        · split at next
          · cases next
          · cases next
            dsimp only
            omega
          · dsimp only at next
            split at next
            · cases next
              dsimp only
              omega
            · cases next

/-- Nothing skipped yet. -/
def start : Skipped := { dwRet := 0, pdata := { nLimitUp := 0, nLimitDown := 0, rips := [] } }

/-- `DisassembleAndSkip`: the length, and the patch data. -/
def disassembleAndSkip (mode : Mode w) (getInstruction : BitVec w → Option Instruction) (pFunction : BitVec w)
    (dwMinLen : Nat) : Skipped :=
  (skipLoop mode getInstruction pFunction dwMinLen).result start

/-- `FixupIPRelativeAddressing`, which does nothing on x86. -/
def fixupIPRelativeAddressing : {w : Nat} → Mode w → Space w → BitVec w → BitVec w → PatchData → Space w
  | _, .x86, mem, _, _, _ => mem
  | _, .x64, mem, pbNew, pbOriginal, pdata =>
    let diff := (pbNew - pbOriginal).toInt
    pdata.rips.foldl
      (fun mem rip =>
        write mem (pbNew + BitVec.ofNat 64 rip.dwOffset) (wordBytes 4 (BitVec.ofInt 32 (rip.nDisplacement - diff))))
      mem

/-! ### What is skipped -/

section
variable (mode : Mode w) (getInstruction : BitVec w → Option Instruction) (pFunction : BitVec w) (dwMinLen : Nat)

/-- The loop is left with at most wider limits, or one instruction further on. -/
theorem skipBody_cases (s : Skipped) :
    (∃ pdata : PatchData, skipBody mode getInstruction pFunction dwMinLen s = ([], .inr { s with pdata := pdata }) ∧
      pdata.rips = s.pdata.rips ∧ pdata.nLimitDown ≤ s.pdata.nLimitDown ∧ s.pdata.nLimitUp ≤ pdata.nLimitUp) ∨
    (∃ pins, getInstruction (pFunction + BitVec.ofNat w s.dwRet) = some pins ∧ pins.type ∉ stops ∧
      treatment mode pins = .plain ∧
      skipBody mode getInstruction pFunction dwMinLen s =
        ([(s.dwRet, pins)], .inl { s with dwRet := s.dwRet + pins.length })) ∨
    (∃ pins, getInstruction (pFunction + BitVec.ofNat w s.dwRet) = some pins ∧ pins.type ∉ stops ∧
      treatment mode pins = .processRip ∧
      skipBody mode getInstruction pFunction dwMinLen s =
        ([(s.dwRet, pins)],
          .inl
            { dwRet := s.dwRet + pins.length
              pdata := (s.pdata.widen (pins.displacement + s.dwRet)).addRip
                { dwOffset := s.dwRet + 3, nDisplacement := pins.displacement } })) := by
  have same : ∃ pdata : PatchData, (([], .inr s) : List (Nat × Instruction) × (Skipped ⊕ Skipped)) =
      ([], .inr { s with pdata := pdata }) ∧
      pdata.rips = s.pdata.rips ∧ pdata.nLimitDown ≤ s.pdata.nLimitDown ∧ s.pdata.nLimitUp ≤ pdata.nLimitUp :=
    ⟨s.pdata, rfl, rfl, Int.le_refl _, Int.le_refl _⟩
  rw [skipBody]
  by_cases enough : dwMinLen ≤ s.dwRet
  · rw [if_pos enough]
    exact .inl same
  rw [if_neg enough]
  cases decoded : getInstruction (pFunction + BitVec.ofNat w s.dwRet) with
  | none => exact .inl same
  | some pins =>
    dsimp only
    by_cases stop : pins.type ∈ stops
    · rw [if_pos stop]
      exact .inl same
    rw [if_neg stop]
    cases treated : treatment mode pins with
    | unsupported => exact .inl same
    | plain => exact .inr (.inl ⟨pins, rfl, stop, treated, rfl⟩)
    | processRip =>
      dsimp only
      by_cases room : (s.pdata.widen (pins.displacement + s.dwRet)).rips.length < MHOOKS_MAX_RIPS
      · rw [if_pos room]
        exact .inr (.inr ⟨pins, rfl, stop, treated, rfl⟩)
      · rw [if_neg room]
        refine .inl ⟨_, rfl, rfl, ?_, ?_⟩
        · simp only [PatchData.widen]
          split <;> omega
        · simp only [PatchData.widen]
          split <;> omega

/-- An instruction that does not stop the loop, while there is room for its patch data. -/
theorem skipBody_on {s : Skipped} {pins : Instruction}
    (decoded : getInstruction (pFunction + BitVec.ofNat w s.dwRet) = some pins) (on : pins.type ∉ stops)
    (more : s.dwRet < dwMinLen) (room : s.pdata.rips.length < MHOOKS_MAX_RIPS) :
    skipBody mode getInstruction pFunction dwMinLen s =
      match treatment mode pins with
      | .unsupported => ([], .inr s)
      | .plain => ([(s.dwRet, pins)], .inl { s with dwRet := s.dwRet + pins.length })
      | .processRip =>
        ([(s.dwRet, pins)],
          .inl
            { dwRet := s.dwRet + pins.length
              pdata := (s.pdata.widen (pins.displacement + s.dwRet)).addRip
                { dwOffset := s.dwRet + 3, nDisplacement := pins.displacement } }) := by
  rw [skipBody, if_neg (Nat.not_le_of_lt more), decoded]
  dsimp only
  rw [if_neg on]
  cases treatment mode pins with
  | unsupported | plain => rfl
  | processRip =>
    have free : (s.pdata.widen (pins.displacement + s.dwRet)).rips.length < MHOOKS_MAX_RIPS := room
    dsimp only
    rw [if_pos free]

/-- What the rest of the loop adds: bytes, and patch data behind what is skipped
    already, each displacement within the limits. -/
structure Grows (s r : Skipped) : Prop where
  further : s.dwRet ≤ r.dwRet
  down : r.pdata.nLimitDown ≤ s.pdata.nLimitDown
  up : s.pdata.nLimitUp ≤ r.pdata.nLimitUp
  rips : ∃ later, r.pdata.rips = s.pdata.rips ++ later ∧ ∀ rip ∈ later,
    s.dwRet + 3 ≤ rip.dwOffset ∧ rip.dwOffset ≤ r.dwRet + 2 ∧
      r.pdata.nLimitDown ≤ rip.nDisplacement + (rip.dwOffset - 3 : Nat) ∧
      rip.nDisplacement + (rip.dwOffset - 3 : Nat) ≤ r.pdata.nLimitUp

/-- The last instruction begins before the length asked for is reached. -/
theorem result_bound (s : Skipped) :
    ((skipLoop mode getInstruction pFunction dwMinLen).result s).dwRet ≤ max s.dwRet (dwMinLen + 14) := by
  induction s using (skipLoop mode getInstruction pFunction dwMinLen).induct with
  | step s ih =>
    by_cases enough : dwMinLen ≤ s.dwRet
    · have body : (skipLoop mode getInstruction pFunction dwMinLen).body s = ([], .inr s) := if_pos enough
      rw [Loop.result_leave _ body]
      exact Nat.le_max_left _ _
    · rcases skipBody_cases mode getInstruction pFunction dwMinLen s with
        ⟨pdata, body, _⟩ | ⟨pins, _, _, _, body⟩ | ⟨pins, _, _, _, body⟩
      · rw [Loop.result_leave _ body]
        exact Nat.le_max_left _ _
      · have bound := ih _ _ body
        have := pins.bounded
        rw [Loop.result_next _ body]
        dsimp only at bound
        omega
      · have bound := ih _ _ body
        have := pins.bounded
        rw [Loop.result_next _ body]
        dsimp only at bound
        omega

theorem result_grows (s : Skipped) : Grows s ((skipLoop mode getInstruction pFunction dwMinLen).result s) := by
  induction s using (skipLoop mode getInstruction pFunction dwMinLen).induct with
  | step s ih =>
    rcases skipBody_cases mode getInstruction pFunction dwMinLen s with
      ⟨pdata, body, rips, down, up⟩ | ⟨pins, _, _, _, body⟩ | ⟨pins, _, _, _, body⟩
    · rw [Loop.result_leave _ body]
      exact ⟨Nat.le_refl _, down, up, [], by simp [rips], by simp⟩
    · rw [Loop.result_next _ body]
      obtain ⟨further, down, up, later, rips, within⟩ := ih _ _ body
      refine ⟨by dsimp only at further; omega, down, up, later, rips, ?_⟩
      intro rip member
      obtain ⟨behind, limits⟩ := within rip member
      exact ⟨by dsimp only at behind; omega, limits⟩
    · rw [Loop.result_next _ body]
      obtain ⟨further, down, up, later, rips, within⟩ := ih _ _ body
      have positive := pins.positive
      have widenedDown : (s.pdata.widen (pins.displacement + s.dwRet)).nLimitDown ≤ s.pdata.nLimitDown ∧
          (s.pdata.widen (pins.displacement + s.dwRet)).nLimitDown ≤ pins.displacement + s.dwRet := by
        simp only [PatchData.widen]
        split <;> omega
      have widenedUp : s.pdata.nLimitUp ≤ (s.pdata.widen (pins.displacement + s.dwRet)).nLimitUp ∧
          pins.displacement + s.dwRet ≤ (s.pdata.widen (pins.displacement + s.dwRet)).nLimitUp := by
        simp only [PatchData.widen]
        split <;> omega
      generalize (skipLoop mode getInstruction pFunction dwMinLen).result _ = r at further down up rips within ⊢
      dsimp only [PatchData.addRip] at further down up rips
      refine ⟨by omega, by omega, by omega, _, by rw [rips]; exact List.append_assoc _ _ _, ?_⟩
      intro rip member
      rcases List.mem_append.mp member with here | there
      · cases List.mem_singleton.mp here
        dsimp only
        omega
      · obtain ⟨behind, limits⟩ := within rip there
        exact ⟨by dsimp only at behind; omega, limits⟩
end

/-- Why nothing more is skipped before the length asked for is reached. -/
def Stopped (mode : Mode w) (getInstruction : BitVec w → Option Instruction) (pFunction : BitVec w) (r : Skipped) : Prop :=
  getInstruction (pFunction + BitVec.ofNat w r.dwRet) = none ∨
    ∃ pins, getInstruction (pFunction + BitVec.ofNat w r.dwRet) = some pins ∧
      (pins.type ∈ stops ∨ treatment mode pins = .unsupported ∨
        treatment mode pins = .processRip ∧ MHOOKS_MAX_RIPS ≤ r.pdata.rips.length)

/-- The instructions stand one behind the other, from one offset to another, each
    decoded at its own. -/
inductive Consecutive (getInstruction : BitVec w → Option Instruction) (pFunction : BitVec w) :
    Nat → List (Nat × Instruction) → Nat → Prop
  | nil (n : Nat) : Consecutive getInstruction pFunction n [] n
  | cons {n m : Nat} {pins : Instruction} {later : List (Nat × Instruction)}
      (decoded : getInstruction (pFunction + BitVec.ofNat w n) = some pins)
      (rest : Consecutive getInstruction pFunction (n + pins.length) later m) :
      Consecutive getInstruction pFunction n ((n, pins) :: later) m

section
variable (mode : Mode w) (getInstruction : BitVec w → Option Instruction) (pFunction : BitVec w) (dwMinLen : Nat)

theorem skipBody_leaves {s r : Skipped} {skipped : List (Nat × Instruction)}
    (body : skipBody mode getInstruction pFunction dwMinLen s = (skipped, .inr r)) :
    skipped = [] ∧ (dwMinLen ≤ r.dwRet ∨ Stopped mode getInstruction pFunction r) ∧ r.dwRet = s.dwRet := by
  rw [skipBody] at body
  by_cases enough : dwMinLen ≤ s.dwRet
  · rw [if_pos enough] at body
    cases body
    exact ⟨rfl, .inl enough, rfl⟩
  rw [if_neg enough] at body
  cases decoded : getInstruction (pFunction + BitVec.ofNat w s.dwRet) with
  | none =>
    rw [decoded] at body
    cases body
    exact ⟨rfl, .inr (.inl decoded), rfl⟩
  | some pins =>
    rw [decoded] at body
    dsimp only at body
    by_cases stop : pins.type ∈ stops
    · rw [if_pos stop] at body
      cases body
      exact ⟨rfl, .inr (.inr ⟨pins, decoded, .inl stop⟩), rfl⟩
    rw [if_neg stop] at body
    cases treated : treatment mode pins with
    | unsupported =>
      rw [treated] at body
      cases body
      exact ⟨rfl, .inr (.inr ⟨pins, decoded, .inr (.inl treated)⟩), rfl⟩
    | plain =>
      rw [treated] at body
      cases body
    | processRip =>
      rw [treated] at body
      dsimp only at body
      by_cases room : (s.pdata.widen (pins.displacement + s.dwRet)).rips.length < MHOOKS_MAX_RIPS
      · rw [if_pos room] at body
        cases body
      · rw [if_neg room] at body
        cases body
        exact ⟨rfl, .inr (.inr ⟨pins, decoded, .inr (.inr ⟨treated, Nat.le_of_not_lt room⟩)⟩), rfl⟩

theorem result_consecutive (s : Skipped) :
    Consecutive getInstruction pFunction s.dwRet ((skipLoop mode getInstruction pFunction dwMinLen).events s)
        ((skipLoop mode getInstruction pFunction dwMinLen).result s).dwRet ∧
      (dwMinLen ≤ ((skipLoop mode getInstruction pFunction dwMinLen).result s).dwRet ∨
        Stopped mode getInstruction pFunction ((skipLoop mode getInstruction pFunction dwMinLen).result s)) ∧
      ∀ v ∈ (skipLoop mode getInstruction pFunction dwMinLen).events s, v.1 < dwMinLen ∧ v.2.type ∉ stops := by
  induction s using (skipLoop mode getInstruction pFunction dwMinLen).induct with
  | step s ih =>
    cases body : (skipLoop mode getInstruction pFunction dwMinLen).body s with
    | mk skipped outcome =>
      cases outcome with
      | inr r =>
        obtain ⟨rfl, why, same⟩ := skipBody_leaves mode getInstruction pFunction dwMinLen body
        rw [Loop.events_leave _ body, Loop.result_leave _ body, same]
        exact ⟨.nil _, by rwa [← same], by simp⟩
      | inl t =>
        have short : ¬ dwMinLen ≤ s.dwRet := by
          intro enough
          have left : (skipLoop mode getInstruction pFunction dwMinLen).body s = ([], .inr s) := if_pos enough
          rw [left] at body
          cases body
        obtain ⟨consecutive, why, early⟩ := ih _ _ body
        rw [Loop.events_next _ body, Loop.result_next _ body]
        have one : ∃ pins, skipped = [(s.dwRet, pins)] ∧ pins.type ∉ stops ∧ t.dwRet = s.dwRet + pins.length ∧
            getInstruction (pFunction + BitVec.ofNat w s.dwRet) = some pins := by
          rcases skipBody_cases mode getInstruction pFunction dwMinLen s with
            ⟨pdata, left, _⟩ | ⟨pins, decoded, on, _, next⟩ | ⟨pins, decoded, on, _, next⟩
          · cases left.symm.trans body
          · cases next.symm.trans body
            exact ⟨pins, rfl, on, rfl, decoded⟩
          · cases next.symm.trans body
            exact ⟨pins, rfl, on, rfl, decoded⟩
        obtain ⟨pins, rfl, on, further, decoded⟩ := one
        rw [further] at consecutive
        refine ⟨.cons decoded consecutive, why, ?_⟩
        intro v member
        rcases List.mem_cons.mp member with rfl | later
        · exact ⟨by omega, on⟩
        · exact early v later
end

/-- `DisassembleAndSkip` skips whole instructions, one behind the other, none of them a
    branch, a call or a return; the last one begins before the length asked for, so at
    most 14 bytes more are skipped; it skips less only in front of something that it
    cannot move. The limits cover what every displacement noted names, from the start
    of the function. -/
theorem skips_whole_instructions (mode : Mode w) (getInstruction : BitVec w → Option Instruction) (pFunction : BitVec w)
    (dwMinLen : Nat) :
    let r := disassembleAndSkip mode getInstruction pFunction dwMinLen
    let skipped := (skipLoop mode getInstruction pFunction dwMinLen).events start
    Consecutive getInstruction pFunction 0 skipped r.dwRet ∧ (∀ v ∈ skipped, v.1 < dwMinLen ∧ v.2.type ∉ stops) ∧
      r.dwRet ≤ dwMinLen + 14 ∧ (dwMinLen ≤ r.dwRet ∨ Stopped mode getInstruction pFunction r) ∧
      ∀ rip ∈ r.pdata.rips, r.pdata.nLimitDown ≤ rip.nDisplacement + (rip.dwOffset - 3 : Nat) ∧
        rip.nDisplacement + (rip.dwOffset - 3 : Nat) ≤ r.pdata.nLimitUp := by
  obtain ⟨consecutive, why, early⟩ := result_consecutive mode getInstruction pFunction dwMinLen start
  have bound := result_bound mode getInstruction pFunction dwMinLen start
  obtain ⟨rips, same, within⟩ := (result_grows mode getInstruction pFunction dwMinLen start).rips
  refine ⟨consecutive, early, ?_, why, ?_⟩
  · simp only [start] at bound
    rw [disassembleAndSkip, start]
    omega
  · intro rip member
    rw [disassembleAndSkip, same] at member
    exact (within rip (by simpa [start] using member)).2.2

/-! ### Moved code -/

/-- `other` has at `b` the code that `code` has at `a`, each displacement noted
    changed to name the same address. -/
structure Moved (code : Space w) (a : BitVec w) (other : Space w) (b : BitVec w) (r : Skipped) : Prop where
  agree : ∀ i, i < r.dwRet → (∀ rip ∈ r.pdata.rips, i < rip.dwOffset ∨ rip.dwOffset + 4 ≤ i) →
    other (b + BitVec.ofNat w i) = code (a + BitVec.ofNat w i)
  fields : ∀ rip ∈ r.pdata.rips,
    b + distance other (b + BitVec.ofNat w rip.dwOffset) = a + BitVec.ofInt w rip.nDisplacement

section
variable {p : Processor w Data} {getInstruction : Space w → BitVec w → Option Instruction} {code other : Space w}
  {a b : BitVec w}

/-- The displacement noted is that of one instruction, the last. -/
theorem result_rips (mode : Mode w) (getInstruction : BitVec w → Option Instruction) (pFunction : BitVec w)
    {dwMinLen : Nat} (short : dwMinLen ≤ 7) {s : Skipped} (unnoted : s.pdata.rips = [])
    (room : ∀ v ∈ (skipLoop mode getInstruction pFunction dwMinLen).events s, treatment mode v.2 = .processRip →
      7 ≤ v.2.length) :
    ((skipLoop mode getInstruction pFunction dwMinLen).result s).pdata.rips = [] ∨
      ∃ v ∈ (skipLoop mode getInstruction pFunction dwMinLen).events s, treatment mode v.2 = .processRip ∧
        ((skipLoop mode getInstruction pFunction dwMinLen).result s).dwRet = v.1 + v.2.length ∧
        ((skipLoop mode getInstruction pFunction dwMinLen).result s).pdata.rips =
          [{ dwOffset := v.1 + 3, nDisplacement := v.2.displacement }] := by
  induction s using (skipLoop mode getInstruction pFunction dwMinLen).induct with
  | step s ih =>
    rcases skipBody_cases mode getInstruction pFunction dwMinLen s with
      ⟨pdata, body, rips, _⟩ | ⟨pins, _, _, _, body⟩ | ⟨pins, _, _, treated, body⟩
    · rw [Loop.result_leave _ body]
      exact .inl (rips.trans unnoted)
    · rw [Loop.events_next _ body] at room ⊢
      rw [Loop.result_next _ body]
      rcases ih _ _ body unnoted (fun v member => room v (List.mem_append_right _ member)) with
        none | ⟨v, member, treated, one⟩
      · exact .inl none
      · exact .inr ⟨v, List.mem_append_right _ member, treated, one⟩
    · rw [Loop.events_next _ body] at room ⊢
      rw [Loop.result_next _ body]
      have first : (s.dwRet, pins) ∈ [(s.dwRet, pins)] := List.mem_singleton.mpr rfl
      have long : 7 ≤ pins.length := room (s.dwRet, pins) (List.mem_append_left _ first) treated
      have done : (skipLoop mode getInstruction pFunction dwMinLen).body
          { dwRet := s.dwRet + pins.length
            pdata := (s.pdata.widen (pins.displacement + s.dwRet)).addRip
              { dwOffset := s.dwRet + 3, nDisplacement := pins.displacement } } = ([], .inr _) :=
        if_pos (by dsimp only; omega)
      rw [Loop.result_leave _ done]
      have rips : (s.pdata.widen (pins.displacement + s.dwRet)).rips = [] := unnoted
      exact .inr ⟨(s.dwRet, pins), List.mem_append_left _ first, treated, rfl, by simp [PatchData.addRip, rips]⟩

/-! ### The fix-up -/

theorem signExtend_ofInt {x : Int} (low : -2147483648 ≤ x) (high : x < 2147483648) :
    (BitVec.ofInt 32 x).signExtend 64 = BitVec.ofInt 64 x := by
  apply BitVec.eq_of_toInt_eq
  rw [BitVec.toInt_signExtend_of_le (by omega), BitVec.toInt_ofInt, BitVec.toInt_ofInt, Int.bmod_eq_of_le,
    Int.bmod_eq_of_le]
  all_goals omega

/-- A displacement that stays within 32 bits names the same address after the
    fix-up. -/
theorem fixup_names {a b : BitVec 64} {x : Int} (low : -2147483648 ≤ x - (b - a).toInt)
    (high : x - (b - a).toInt < 2147483648) :
    b + (BitVec.ofInt 32 (x - (b - a).toInt)).signExtend 64 = a + BitVec.ofInt 64 x := by
  rw [signExtend_ofInt low high, Int.sub_eq_add_neg, BitVec.ofInt_add, BitVec.ofInt_neg, BitVec.ofInt_toInt]
  grind

/-- The displacement noted fits in the code and in 32 bits, as seen from `b`. -/
def Fits (a b : BitVec w) (r : Skipped) (rip : RipInfo) : Prop :=
  rip.dwOffset + 4 ≤ r.dwRet ∧ -2147483648 ≤ rip.nDisplacement - (b - a).toInt ∧
    rip.nDisplacement - (b - a).toInt < 2147483648

/-- `FixupIPRelativeAddressing` moves the code that was copied, and touches nothing
    outside of it. -/
theorem fixup_moved (mode : Mode w) {mem : Space w} {r : Skipped} (small : r.dwRet ≤ 2 ^ 32)
    (copy : read mem b r.dwRet = read code a r.dwRet)
    (noted : r.pdata.rips = [] ∨ w = 64 ∧ ∃ rip, r.pdata.rips = [rip] ∧ Fits a b r rip) :
    Moved code a (fixupIPRelativeAddressing mode mem b a r.pdata) b r ∧
      ∀ x, ¬ Within b r.dwRet x → fixupIPRelativeAddressing mode mem b a r.pdata x = mem x := by
  have room := mode.room
  have copied : ∀ i, i < r.dwRet → mem (b + BitVec.ofNat w i) = code (a + BitVec.ofNat w i) :=
    fun i inside => agree_of_read copy inside
  rcases noted with none | ⟨rfl, rip, one, inside, low, high⟩
  · have nothing : fixupIPRelativeAddressing mode mem b a r.pdata = mem := by
      cases mode <;> simp [fixupIPRelativeAddressing, none]
    rw [nothing]
    exact ⟨⟨fun i inside _ => copied i inside, by simp [none]⟩, fun _ _ => rfl⟩
  · have fixed : fixupIPRelativeAddressing mode mem b a r.pdata =
        write mem (b + BitVec.ofNat 64 rip.dwOffset)
          (wordBytes 4 (BitVec.ofInt 32 (rip.nDisplacement - (b - a).toInt))) := by
      cases mode
      simp [fixupIPRelativeAddressing, one]
    rw [fixed]
    refine ⟨⟨?_, ?_⟩, ?_⟩
    · intro i below outside
      have apart := outside rip (by simp [one])
      rw [write_outside, copied i below]
      rw [wordBytes_length, within_part_iff b (by omega) (by omega)]
      omega
    · intro rip' member
      rw [one] at member
      cases List.mem_singleton.mp member
      rw [distance, load_write_word _ (by omega) (by omega), fixup_names low high]
    · intro x outside
      refine write_outside (fun within => outside ?_)
      rw [wordBytes_length] at within
      exact within_part inside within

end

end WinMiniTools.MhookCode
