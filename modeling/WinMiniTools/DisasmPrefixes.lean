import WinMiniTools.DisasmAddresses
import WinMiniTools.Loops

/-!
The prefixes of an instruction, as `X86_GetInstruction` (`disasm_x86.c`) reads them:
the loop over the legacy prefixes, with the REX prefixes that it skips, and the REX
prefix in front of the opcode. An assertion that fails is the outcome `fails`, and
`goto abort` the outcome `aborts`.
-/
namespace WinMiniTools.DisasmPrefixes
open WinMiniTools.Words WinMiniTools.AddressForms WinMiniTools.DisasmAddresses WinMiniTools.Loops
open WinMiniTools.MhookCode (treatment skipBody stops)

/-- The opcodes that `X86_Opcodes_1` has as prefixes, `PREFIX_SEGMENT_OVERRIDE_ES` and so on. -/
inductive Prefix where
  | segmentOverride (segment : Segment)
  | operandSize
  | addressSize
  | lock
  | repne
  | rep
  deriving DecidableEq

def Prefix.byte : Prefix → Byte
  | .segmentOverride .es => 0x26
  | .segmentOverride .cs => 0x2e
  | .segmentOverride .ss => 0x36
  | .segmentOverride .ds => 0x3e
  | .segmentOverride .fs => 0x64
  | .segmentOverride .gs => 0x65
  | .operandSize => 0x66
  | .addressSize => 0x67
  | .lock => 0xf0
  | .repne => 0xf2
  | .rep => 0xf3

def allPrefixes : List Prefix :=
  [.segmentOverride .es, .segmentOverride .cs, .segmentOverride .ss, .segmentOverride .ds, .segmentOverride .fs,
    .segmentOverride .gs, .operandSize, .addressSize, .lock, .repne, .rep]

/-- `X86_PREFIX`. -/
def prefixOf (opcode : Byte) : Option Prefix := allPrefixes.find? (fun p => p.byte = opcode)

def REX_PREFIX_START : Byte := 0x40
def REX_PREFIX_END : Byte := 0x4f

def isRex (arch : ArchitectureType) (opcode : Byte) : Bool :=
  arch = .x64 ∧ REX_PREFIX_START ≤ opcode ∧ opcode ≤ REX_PREFIX_END

def X86_MAX_INSTRUCTION_LEN : Nat := 15
def X86_MAX_PREFIX_LENGTH : Nat := 4
def AMD64_MAX_PREFIX_LENGTH : Nat := 5

/-- What the prefixes set. `PrefixCount` is the length of `prefixes`, and the length is also
    how far the address has come. -/
structure Prefixed where
  length : Nat
  prefixes : List Byte
  anomalyOccurred : Bool
  sse_Prefix : Option Prefix
  repeated : Bool
  hasRepeatWhileEqualPrefix : Bool
  hasRepeatWhileNotEqualPrefix : Bool
  hasOperandSizePrefix : Bool
  operandSize : Nat
  hasAddressSizePrefix : Bool
  addressSize : Nat
  hasSegmentOverridePrefix : Bool
  segment : Segment
  hasLockPrefix : Bool
  rex_b : Byte
  rex : Rex

/-- What the loop and the statements behind it come to. -/
inductive Outcome where
  | fails
  | aborts (s : Prefixed)
  | found (opcode : Byte) (s : Prefixed)

def defaultOperandSize : ArchitectureType → Nat
  | .x64 | .x86 => 4
  | .x86_16 => 2

def defaultAddressSize : ArchitectureType → Nat
  | .x64 => 8
  | .x86 => 4
  | .x86_16 => 2

/-- `X86_InitInstruction`. -/
def x86InitInstruction (arch : ArchitectureType) : Prefixed where
  length := 0
  prefixes := []
  anomalyOccurred := false
  sse_Prefix := none
  repeated := false
  hasRepeatWhileEqualPrefix := false
  hasRepeatWhileNotEqualPrefix := false
  hasOperandSizePrefix := false
  operandSize := defaultOperandSize arch
  hasAddressSizePrefix := false
  addressSize := defaultAddressSize arch
  hasSegmentOverridePrefix := false
  segment := .ds
  hasLockPrefix := false
  rex_b := 0
  rex := rexOf 0

/-- Only these segments can be asked for on an AMD64. -/
def meaningful (arch : ArchitectureType) (segment : Segment) : Bool :=
  arch ≠ .x64 ∨ segment = .fs ∨ segment = .gs

def Prefixed.inc (s : Prefixed) : Prefixed := { s with length := s.length + 1 }
def Prefixed.note (s : Prefixed) (anomaly : Bool) : Prefixed :=
  { s with anomalyOccurred := s.anomalyOccurred || anomaly }

/-- The other size; `none` where an assertion fails. -/
def otherOperandSize : Nat → Option Nat
  | 4 => some 2
  | 2 => some 4
  | _ => none

def otherAddressSize (arch : ArchitectureType) : Nat → Option Nat
  | 8 => some 4
  | 4 => if arch = .x64 then none else some 2
  | 2 => some 4
  | _ => none

/-- The cases of the switch; `none` where an assertion fails. -/
def takePrefix (arch : ArchitectureType) (s : Prefixed) : Prefix → Option Prefixed
  | .repne =>
    some
      { s.note s.hasRepeatWhileEqualPrefix with
        sse_Prefix := some .repne
        repeated := true
        hasRepeatWhileEqualPrefix := false
        hasRepeatWhileNotEqualPrefix := true }
  | .rep =>
    some
      { s.note s.hasRepeatWhileNotEqualPrefix with
        sse_Prefix := some .rep
        repeated := true
        hasRepeatWhileNotEqualPrefix := false
        hasRepeatWhileEqualPrefix := true }
  | .operandSize =>
    if s.hasOperandSizePrefix then some { s.note true with sse_Prefix := some .operandSize }
    else
      (otherOperandSize s.operandSize).map (fun size =>
        { s with sse_Prefix := some .operandSize, hasOperandSizePrefix := true, operandSize := size })
  | .addressSize =>
    if s.hasAddressSizePrefix then some (s.note true)
    else
      (otherAddressSize arch s.addressSize).map (fun size =>
        { s with hasAddressSizePrefix := true, addressSize := size })
  | .lock => some { s.note s.hasLockPrefix with hasLockPrefix := true }
  | .segmentOverride segment =>
    -- `SANITY_CHECK_SEGMENT_OVERRIDE` comes first.
    some
      (if meaningful arch segment then
        { s.note s.hasSegmentOverridePrefix with hasSegmentOverridePrefix := true, segment := segment }
      else (s.note s.hasSegmentOverridePrefix).note true)

/-- `Prefixes[PrefixCount++] = Opcode`, behind the checks of the count. -/
def countPrefix (s : Prefixed) (opcode : Byte) : Prefixed ⊕ Outcome :=
  if X86_MAX_INSTRUCTION_LEN ≤ s.prefixes.length then .inr (.aborts s)
  else
    let s := s.note (s.prefixes.length = X86_MAX_PREFIX_LENGTH)
    if s.anomalyOccurred ∨ s.prefixes.length < X86_MAX_PREFIX_LENGTH then .inl { s with prefixes := s.prefixes ++ [opcode] }
    else .inr .fails

/-- One iteration of the loop over the prefixes. -/
def prefixBody (arch : ArchitectureType) (code : Memory) (s : Prefixed) : Prefixed ⊕ Outcome :=
  let opcode := code s.length
  let s := s.inc
  -- A REX prefix in front of a legacy prefix is ignored.
  if isRex arch opcode ∧ (prefixOf (code s.length)).isSome then .inl (s.note true)
  else
    match prefixOf opcode with
    | some p =>
      match takePrefix arch (s.note (opcode ∈ s.prefixes)) p with
      | some s => countPrefix s opcode
      | none => .inr .fails
    | none => .inr (.found opcode s)

def Prefixed.addRex (s : Prefixed) (opcode : Byte) : Prefixed :=
  { s with prefixes := s.prefixes ++ [opcode], rex_b := opcode, rex := rexOf opcode }
def Prefixed.widen (s : Prefixed) : Prefixed := { s with operandSize := 8, hasOperandSizePrefix := false }
def Prefixed.dropRex (s : Prefixed) : Prefixed := { s.note true with rex_b := 0 }

/-- The operand size behind a REX prefix; `none` where an assertion fails. -/
def rexOperandSize (s : Prefixed) : Option Prefixed :=
  if s.addressSize < 4 then none
  else if s.rex.w = 1 then some s.widen
  else if s.hasOperandSizePrefix then if s.operandSize = 2 then some s else none
  else if s.rex_b = REX_PREFIX_START then some s.dropRex
  else some s

/-- The REX prefix in front of the opcode. -/
def readRex (arch : ArchitectureType) (code : Memory) (opcode : Byte) (s : Prefixed) : Outcome :=
  if isRex arch opcode then
    if X86_MAX_INSTRUCTION_LEN ≤ s.prefixes.length then .aborts s
    else
      let s := s.note (s.prefixes.length = AMD64_MAX_PREFIX_LENGTH)
      if s.anomalyOccurred ∨ s.prefixes.length < AMD64_MAX_PREFIX_LENGTH then
        match rexOperandSize (s.addRex opcode) with
        | some s => if (prefixOf (code s.length)).isSome then .fails else .found (code s.length) s.inc
        | none => .fails
      else .fails
  else .found opcode s

/-! ### The loop -/

theorem prefixOf_iff {b : Byte} {p : Prefix} : prefixOf b = some p ↔ p.byte = b := by
  revert b
  rcases p with (_ | _ | _ | _ | _ | _) | _ | _ | _ | _ | _ <;> decide +kernel

theorem byte_injective {p q : Prefix} (same : p.byte = q.byte) : p = q :=
  Option.some.inj ((prefixOf_iff.mpr same).symm.trans (prefixOf_iff.mpr rfl))

theorem not_rex {arch : ArchitectureType} {b : Byte} (prefixed : (prefixOf b).isSome) : isRex arch b = false := by
  obtain ⟨p, found⟩ := Option.isSome_iff_exists.mp prefixed
  obtain rfl := prefixOf_iff.mp found
  rcases p with (_ | _ | _ | _ | _ | _) | _ | _ | _ | _ | _ <;> cases arch <;> decide

/-- The switch neither reads nor counts. -/
theorem takePrefix_kept {arch : ArchitectureType} {s t : Prefixed} {p : Prefix} (taken : takePrefix arch s p = some t) :
    t.length = s.length ∧ t.prefixes = s.prefixes := by
  cases p with
  | repne | rep | lock =>
    obtain rfl := Option.some.inj taken
    exact ⟨rfl, rfl⟩
  | segmentOverride segment =>
    obtain rfl := Option.some.inj taken
    split_ifs <;> exact ⟨rfl, rfl⟩
  | operandSize | addressSize =>
    rw [takePrefix] at taken
    split_ifs at taken
    · obtain rfl := Option.some.inj taken
      exact ⟨rfl, rfl⟩
    · obtain ⟨size, _, rfl⟩ := Option.map_eq_some_iff.mp taken
      exact ⟨rfl, rfl⟩

theorem countPrefix_counts {s t : Prefixed} {opcode : Byte} (counted : countPrefix s opcode = .inl t) :
    t.length = s.length ∧ t.prefixes.length = s.prefixes.length + 1 ∧ s.prefixes.length < X86_MAX_INSTRUCTION_LEN := by
  unfold countPrefix at counted
  dsimp only at counted
  split_ifs at counted with full early
  obtain rfl := Sum.inl.inj counted
  exact ⟨rfl, by simp [Prefixed.note], by omega⟩

/-- A REX prefix is skipped in front of another prefix only, and that one is counted. -/
def weight (arch : ArchitectureType) (code : Memory) (s : Prefixed) : Nat :=
  2 * (X86_MAX_INSTRUCTION_LEN - s.prefixes.length) + if isRex arch (code s.length) then 1 else 0

theorem prefixBody_progress {arch : ArchitectureType} {code : Memory} {s t : Prefixed}
    (next : prefixBody arch code s = .inl t) : weight arch code t < weight arch code s := by
  unfold prefixBody at next
  dsimp only at next
  split_ifs at next with skipped
  · obtain rfl := Sum.inl.inj next
    have other : isRex arch (code (s.length + 1)) = false := not_rex skipped.2
    simp [weight, Prefixed.note, Prefixed.inc, skipped.1, other]
  · split at next
    · split at next
      · rename_i u taken
        obtain ⟨_, prefixes⟩ := takePrefix_kept taken
        obtain ⟨_, counted, room⟩ := countPrefix_counts next
        have few : u.prefixes.length = s.prefixes.length := congrArg List.length prefixes
        simp only [weight, X86_MAX_INSTRUCTION_LEN] at room ⊢
        split_ifs <;> omega
      · cases next
    · cases next

def prefixLoop (arch : ArchitectureType) (code : Memory) : Loop Prefixed Empty Outcome where
  body s := ([], prefixBody arch code s)
  weight := weight arch code
  progress _ _ next := prefixBody_progress next

/-- The prefixes of an instruction and its opcode. -/
def getPrefixes (arch : ArchitectureType) (code : Memory) : Outcome :=
  match (prefixLoop arch code).result (x86InitInstruction arch) with
  | .found opcode s => readRex arch code opcode s
  | outcome => outcome

/-! ### What prefixes mean -/

def Prefix.segment : Prefix → Option Segment
  | .segmentOverride segment => some segment
  | _ => none

def Prefix.repeating (p : Prefix) : Bool := p = .repne ∨ p = .rep
/-- Those that may belong to an opcode of three bytes. -/
def Prefix.extending (p : Prefix) : Bool := p = .repne ∨ p = .rep ∨ p = .operandSize

/-- The last prefix of a kind. -/
def last (kind : Prefix → Bool) (ps : List Prefix) : Option Prefix := (ps.filter kind).getLast?

def segments (ps : List Prefix) : List Segment := ps.filterMap Prefix.segment

/-- The sizes, each changed once however often it is asked for. -/
def operandSize (arch : ArchitectureType) (ps : List Prefix) : Nat :=
  if .operandSize ∈ ps then (otherOperandSize (defaultOperandSize arch)).getD 0 else defaultOperandSize arch
def addressSize (arch : ArchitectureType) (ps : List Prefix) : Nat :=
  if .addressSize ∈ ps then (otherAddressSize arch (defaultAddressSize arch)).getD 0 else defaultAddressSize arch

/-- What cannot be meant: a prefix twice, both repetitions, more than one segment or one that an
    AMD64 has not, or more than four prefixes. -/
def Anomalous (arch : ArchitectureType) (ps : List Prefix) : Prop :=
  ¬ ps.Nodup ∨ .repne ∈ ps ∧ .rep ∈ ps ∨ 1 < (segments ps).length ∨ (∃ g ∈ segments ps, meaningful arch g = false) ∨
    X86_MAX_PREFIX_LENGTH < ps.length

instance (arch : ArchitectureType) (ps : List Prefix) : Decidable (Anomalous arch ps) :=
  inferInstanceAs (Decidable (_ ∨ _))

/-- What prefixes set, with the number of REX prefixes skipped between them. -/
def summary (arch : ArchitectureType) (ps : List Prefix) (skipped : Nat) : Prefixed where
  length := ps.length + skipped
  prefixes := ps.map Prefix.byte
  anomalyOccurred := 0 < skipped ∨ Anomalous arch ps
  sse_Prefix := last Prefix.extending ps
  repeated := .repne ∈ ps ∨ .rep ∈ ps
  hasRepeatWhileEqualPrefix := last Prefix.repeating ps = some .rep
  hasRepeatWhileNotEqualPrefix := last Prefix.repeating ps = some .repne
  hasOperandSizePrefix := .operandSize ∈ ps
  operandSize := operandSize arch ps
  hasAddressSizePrefix := .addressSize ∈ ps
  addressSize := addressSize arch ps
  hasSegmentOverridePrefix := (segments ps).filter (meaningful arch) ≠ []
  segment := ((segments ps).filter (meaningful arch)).getLast?.getD .ds
  hasLockPrefix := .lock ∈ ps
  rex_b := 0
  rex := rexOf 0

section
variable {arch : ArchitectureType} {ps : List Prefix} {p : Prefix} {skipped : Nat}

theorem summary_nil : summary arch [] 0 = x86InitInstruction arch := by
  cases arch <;> rfl

theorem summary_skip : ((summary arch ps skipped).inc).note true = summary arch ps (skipped + 1) := by
  simp [summary, Prefixed.inc, Prefixed.note, Nat.add_assoc]

theorem last_append (kind : Prefix → Bool) : last kind (ps ++ [p]) = if kind p then some p else last kind ps := by
  unfold last
  split_ifs with same
  · rw [List.filter_append, List.filter_cons_of_pos same, List.filter_nil, List.getLast?_append]
    rfl
  · rw [List.filter_append, List.filter_cons_of_neg same, List.filter_nil, List.append_nil]

theorem segments_append : segments (ps ++ [p]) = segments ps ++ p.segment.toList := by
  cases segment : p.segment <;> simp [segments, List.filterMap_append, segment]

/-- What one more prefix is in conflict with. -/
def conflict (arch : ArchitectureType) (ps : List Prefix) (p : Prefix) : Prop :=
  p ∈ ps ∨ p = .repne ∧ last Prefix.repeating ps = some .rep ∨ p = .rep ∧ last Prefix.repeating ps = some .repne ∨
    ∃ g ∈ p.segment, (segments ps).filter (meaningful arch) ≠ [] ∨ meaningful arch g = false

instance : Decidable (conflict arch ps p) := by
  unfold conflict
  infer_instance

section
attribute [local simp] takePrefix summary Prefixed.note Prefixed.inc last_append segments_append conflict Prefix.repeating
  Prefix.extending Prefix.segment operandSize addressSize

theorem take_summary :
    takePrefix arch ((summary arch ps skipped).inc.note (p.byte ∈ ps.map Prefix.byte)) p =
      some
        { summary arch (ps ++ [p]) skipped with
          prefixes := ps.map Prefix.byte
          anomalyOccurred := (summary arch ps skipped).anomalyOccurred || conflict arch ps p } := by
  have count : ps.length + skipped + 1 = ps.length + 1 + skipped := Nat.add_right_comm _ _ _
  have same : p.byte ∈ ps.map Prefix.byte ↔ p ∈ ps := by
    rw [List.mem_map_of_injective (fun _ _ => byte_injective)]
  cases p with
  | repne | rep | lock => simp [count, same, Bool.or_assoc]
  | segmentOverride segment =>
    by_cases meant : meaningful arch segment <;> simp [count, same, meant, Bool.or_assoc]
  | operandSize =>
    by_cases again : Prefix.operandSize ∈ ps
    · simp [count, same, again]
    · cases arch <;> simp [count, same, again, otherOperandSize, defaultOperandSize]
  | addressSize =>
    by_cases again : Prefix.addressSize ∈ ps
    · simp [count, same, again]
    · cases arch <;> simp [count, same, again, otherAddressSize, defaultAddressSize]

end

theorem mem_last {kind : Prefix → Bool} (found : last kind ps = some p) : p ∈ ps ∧ kind p = true :=
  List.mem_filter.mp (List.mem_of_getLast? found)

theorem last_isSome {kind : Prefix → Bool} (member : p ∈ ps) (same : kind p = true) : ∃ q, last kind ps = some q := by
  cases found : last kind ps with
  | some q => exact ⟨q, rfl⟩
  | none =>
    have empty : ps.filter kind = [] := List.getLast?_eq_none_iff.mp found
    have filtered : p ∈ ps.filter kind := List.mem_filter.mpr ⟨member, same⟩
    rw [empty] at filtered
    cases filtered

/-- A repetition is the last one, or the other one is there too. -/
theorem last_repeating {q : Prefix} (only : ∀ r, Prefix.repeating r = true → r = p ∨ r = q) (repeating : p.repeating = true)
    (member : p ∈ ps) : q ∈ ps ∨ last Prefix.repeating ps = some p := by
  obtain ⟨r, found⟩ := last_isSome member repeating
  obtain ⟨there, kind⟩ := mem_last found
  rcases only r kind with rfl | rfl
  · exact .inr found
  · exact .inl there

theorem not_nodup_append : ¬ (ps ++ [p]).Nodup ↔ ¬ ps.Nodup ∨ p ∈ ps := by
  rw [← List.concat_eq_append, List.nodup_concat]
  tauto

/-- More than one segment, or one that cannot be asked for: also when one more is asked for. -/
theorem segments_anomalous (arch : ArchitectureType) (g : Segment) (ps : List Prefix) :
    (1 < (segments ps ++ [g]).length ∨ ∃ h ∈ segments ps ++ [g], meaningful arch h = false) ↔
      (1 < (segments ps).length ∨ ∃ h ∈ segments ps, meaningful arch h = false) ∨
        (segments ps).filter (meaningful arch) ≠ [] ∨ meaningful arch g = false := by
  generalize segments ps = gs
  cases gs with
  | nil => simp
  | cons h hs =>
    refine iff_of_true (.inl (by simp)) ?_
    cases meant : meaningful arch h
    · exact .inl (.inr ⟨h, List.mem_cons_self, meant⟩)
    · exact .inr (.inl (by simp [meant]))

/-- The repetitions in conflict: the other one is there, and both are not. -/
theorem repeating_anomalous (ps : List Prefix) :
    (.rep ∈ ps ↔ .repne ∈ ps ∧ .rep ∈ ps ∨ last Prefix.repeating ps = some .rep) ∧
      (.repne ∈ ps ↔ .repne ∈ ps ∧ .rep ∈ ps ∨ last Prefix.repeating ps = some .repne) := by
  have rep : Prefix.rep ∈ ps → Prefix.repne ∈ ps ∨ last Prefix.repeating ps = some .rep :=
    last_repeating (by simp [Prefix.repeating, or_comm]) rfl
  have repne : Prefix.repne ∈ ps → Prefix.rep ∈ ps ∨ last Prefix.repeating ps = some .repne :=
    last_repeating (by simp [Prefix.repeating]) rfl
  have back : last Prefix.repeating ps = some .rep → Prefix.rep ∈ ps := fun found => (mem_last found).1
  have back' : last Prefix.repeating ps = some .repne → Prefix.repne ∈ ps := fun found => (mem_last found).1
  tauto

/-- An anomaly is one of the prefixes before, or a conflict with them, or that they are four. -/
theorem anomalous_append :
    Anomalous arch (ps ++ [p]) ↔ Anomalous arch ps ∨ conflict arch ps p ∨ ps.length = X86_MAX_PREFIX_LENGTH := by
  have length : X86_MAX_PREFIX_LENGTH < (ps ++ [p]).length ↔
      X86_MAX_PREFIX_LENGTH < ps.length ∨ ps.length = X86_MAX_PREFIX_LENGTH := by
    simp only [List.length_append, List.length_singleton]
    omega
  obtain ⟨rep, repne⟩ := repeating_anomalous ps
  unfold Anomalous conflict
  rw [not_nodup_append, length, segments_append]
  cases p with
  | segmentOverride g =>
    have several := segments_anomalous arch g ps
    simp only [Prefix.segment, Option.toList_some, List.mem_append, List.mem_singleton, reduceCtorEq, or_false,
      false_and, false_or, Option.mem_some, exists_eq_left'] at several ⊢
    grind
  | repne =>
    simp only [Prefix.segment, Option.toList_none, List.append_nil, List.mem_append, List.mem_singleton, reduceCtorEq,
      or_false, or_true, true_and, false_and, Option.not_mem_none, exists_false]
    grind
  | rep =>
    simp only [Prefix.segment, Option.toList_none, List.append_nil, List.mem_append, List.mem_singleton, reduceCtorEq,
      or_false, or_true, true_and, and_true, false_and, false_or, Option.not_mem_none, exists_false]
    grind
  | operandSize | addressSize | lock =>
    simp only [Prefix.segment, Option.toList_none, List.append_nil, List.mem_append, List.mem_singleton, reduceCtorEq,
      or_false, false_and, Option.not_mem_none, exists_false]
    grind

theorem anomalous_many (many : X86_MAX_PREFIX_LENGTH < ps.length) : Anomalous arch ps :=
  .inr (.inr (.inr (.inr many)))

/-- The count of prefixes is the only thing that can stop one. -/
theorem count_summary :
    countPrefix
        { summary arch (ps ++ [p]) skipped with
          prefixes := ps.map Prefix.byte
          anomalyOccurred := (summary arch ps skipped).anomalyOccurred || conflict arch ps p } p.byte =
      if X86_MAX_INSTRUCTION_LEN ≤ ps.length then
        .inr
          (.aborts
            { summary arch (ps ++ [p]) skipped with
              prefixes := ps.map Prefix.byte
              anomalyOccurred := (summary arch ps skipped).anomalyOccurred || conflict arch ps p })
      else .inl (summary arch (ps ++ [p]) skipped) := by
  have anomaly : ((summary arch ps skipped).anomalyOccurred || decide (conflict arch ps p) ||
      decide (ps.length = X86_MAX_PREFIX_LENGTH)) = (summary arch (ps ++ [p]) skipped).anomalyOccurred := by
    simp [summary, anomalous_append, Bool.or_assoc]
  have early : (summary arch (ps ++ [p]) skipped).anomalyOccurred = true ∨ ps.length < X86_MAX_PREFIX_LENGTH := by
    by_cases few : ps.length < X86_MAX_PREFIX_LENGTH
    · exact .inr few
    · have many : Anomalous arch (ps ++ [p]) := by
        refine anomalous_many ?_
        rw [List.length_append, List.length_singleton]
        omega
      exact .inl (by simp [summary, many])
  unfold countPrefix
  simp only [List.length_map, Prefixed.note, anomaly, early, if_true]
  split_ifs
  · rfl
  · simp [summary]

variable {code : Memory}

theorem body_prefix (arch : ArchitectureType) (skipped : Nat) (found : prefixOf (code (ps.length + skipped)) = some p) :
    prefixBody arch code (summary arch ps skipped) =
      if X86_MAX_INSTRUCTION_LEN ≤ ps.length then
        .inr
          (.aborts
            { summary arch (ps ++ [p]) skipped with
              prefixes := ps.map Prefix.byte
              anomalyOccurred := (summary arch ps skipped).anomalyOccurred || conflict arch ps p })
      else .inl (summary arch (ps ++ [p]) skipped) := by
  have byte : code (ps.length + skipped) = p.byte := (prefixOf_iff.mp found).symm
  rw [byte] at found
  have other : isRex arch p.byte = false := not_rex (by rw [found]; rfl)
  have here : (summary arch ps skipped).length = ps.length + skipped := rfl
  have listed : (summary arch ps skipped).inc.prefixes = ps.map Prefix.byte := rfl
  rw [← count_summary, prefixBody, here, byte]
  simp only [other, Bool.false_eq_true, false_and, if_false, found, listed, take_summary]

theorem body_skip (skipped : Nat) (rex : isRex arch (code (ps.length + skipped)) = true)
    (next : (prefixOf (code (ps.length + skipped + 1))).isSome) :
    prefixBody arch code (summary arch ps skipped) = .inl (summary arch ps (skipped + 1)) := by
  rw [← summary_skip]
  exact if_pos ⟨rex, next⟩

theorem body_found (skipped : Nat) (opcode : prefixOf (code (ps.length + skipped)) = none)
    (last : ¬ (isRex arch (code (ps.length + skipped)) = true ∧ (prefixOf (code (ps.length + skipped + 1))).isSome)) :
    prefixBody arch code (summary arch ps skipped) =
      .inr (.found (code (ps.length + skipped)) (summary arch ps skipped).inc) := by
  refine (if_neg last).trans ?_
  have at_ : (summary arch ps skipped).length = ps.length + skipped := rfl
  rw [at_, opcode]

/-! ### Runs of prefixes -/

/-- Each of the bytes is a legacy prefix, or a REX prefix in front of one. -/
def Skipped (arch : ArchitectureType) (code : Memory) (n : Nat) : Prop :=
  ∀ k < n, (prefixOf (code k)).isSome ∨ isRex arch (code k) = true ∧ (prefixOf (code (k + 1))).isSome

/-- The legacy prefixes among the first bytes. -/
def taken (code : Memory) (n : Nat) : List Prefix := (window code 0 n).filterMap prefixOf

theorem taken_succ (code : Memory) (n : Nat) : taken code (n + 1) = taken code n ++ (prefixOf (code n)).toList := by
  cases found : prefixOf (code n) <;>
    simp [taken, window, List.range_succ, List.filterMap_append, found]

theorem taken_length (code : Memory) (n : Nat) : (taken code n).length ≤ n := by
  have bound := List.length_filterMap_le prefixOf (window code 0 n)
  rwa [window_length] at bound

theorem Skipped.succ {n : Nat} (before : Skipped arch code n)
    (here : (prefixOf (code n)).isSome ∨ isRex arch (code n) = true ∧ (prefixOf (code (n + 1))).isSome) :
    Skipped arch code (n + 1) := by
  intro k inside
  rcases Nat.lt_succ_iff_lt_or_eq.mp inside with earlier | rfl
  · exact before k earlier
  · exact here

/-- What the loop comes to. -/
def Ends (arch : ArchitectureType) (code : Memory) : Outcome → Prop
  | .fails => False
  | .aborts _ => ∃ n, Skipped arch code n ∧ (taken code n).length = X86_MAX_INSTRUCTION_LEN ∧ (prefixOf (code n)).isSome
  | .found opcode s =>
    ∃ n, Skipped arch code n ∧ (taken code n).length ≤ X86_MAX_INSTRUCTION_LEN ∧ opcode = code n ∧
      prefixOf opcode = none ∧ ¬ (isRex arch opcode = true ∧ (prefixOf (code (n + 1))).isSome) ∧
      s = (summary arch (taken code n) (n - (taken code n).length)).inc

theorem loop_ends (s : Prefixed) :
    ∀ n, Skipped arch code n → (taken code n).length ≤ X86_MAX_INSTRUCTION_LEN →
      s = summary arch (taken code n) (n - (taken code n).length) → Ends arch code ((prefixLoop arch code).result s) := by
  induction s using (prefixLoop arch code).induct with
  | step s ih =>
    rintro n before few rfl
    have here : (taken code n).length + (n - (taken code n).length) = n := Nat.add_sub_cancel' (taken_length code n)
    have run := taken_succ code n
    cases found : prefixOf (code n) with
    | some p =>
      rw [found, Option.toList_some] at run
      have body := body_prefix arch (n - (taken code n).length) (here.symm ▸ found)
      split_ifs at body with full
      · have leaves := congrArg (Prod.mk ([] : List Empty)) body
        rw [(prefixLoop arch code).result_leave leaves]
        exact ⟨n, before, Nat.le_antisymm few full, by rw [found]; rfl⟩
      · have count : (taken code (n + 1)).length = (taken code n).length + 1 := by
          rw [run, List.length_append, List.length_singleton]
        have target : summary arch (taken code n ++ [p]) (n - (taken code n).length) =
            summary arch (taken code (n + 1)) (n + 1 - (taken code (n + 1)).length) := by
          rw [count, run, Nat.add_sub_add_right]
        rw [target] at body
        have next := congrArg (Prod.mk ([] : List Empty)) body
        rw [(prefixLoop arch code).result_next next]
        exact ih _ _ next (n + 1) (before.succ (.inl (by rw [found]; rfl))) (by omega) rfl
    | none =>
      rw [found, Option.toList_none, List.append_nil] at run
      by_cases skips : isRex arch (code n) = true ∧ (prefixOf (code (n + 1))).isSome
      · have body := body_skip (n - (taken code n).length) (here.symm ▸ skips.1)
          (here.symm ▸ skips.2)
        have target : summary arch (taken code n) (n - (taken code n).length + 1) =
            summary arch (taken code (n + 1)) (n + 1 - (taken code (n + 1)).length) := by
          rw [run, Nat.sub_add_comm (taken_length code n)]
        rw [target] at body
        have next := congrArg (Prod.mk ([] : List Empty)) body
        rw [(prefixLoop arch code).result_next next]
        exact ih _ _ next (n + 1) (before.succ (.inr skips)) (run ▸ few) rfl
      · have body := body_found (n - (taken code n).length) (here.symm ▸ found)
          (here.symm ▸ skips)
        rw [(prefixLoop arch code).result_leave (congrArg (Prod.mk []) body), here]
        exact ⟨n, before, few, rfl, found, skips, rfl⟩

/-! ### The REX prefix -/

/-- A REX prefix that the source takes for meaningless. -/
def Lone (ps : List Prefix) (rex : Byte) : Prop := rex = REX_PREFIX_START ∧ .operandSize ∉ ps

instance (ps : List Prefix) (rex : Byte) : Decidable (Lone ps rex) := inferInstanceAs (Decidable (_ ∧ _))

/-- What a REX prefix sets behind the legacy prefixes. -/
def withRex (arch : ArchitectureType) (ps : List Prefix) (skipped : Nat) (rex : Byte) : Prefixed :=
  { summary arch ps skipped with
    length := ps.length + skipped + 1
    prefixes := ps.map Prefix.byte ++ [rex]
    anomalyOccurred := 0 < skipped ∨ Anomalous arch ps ∨ Lone ps rex
    hasOperandSizePrefix := .operandSize ∈ ps ∧ (rexOf rex).w ≠ 1
    operandSize := if (rexOf rex).w = 1 then 8 else operandSize arch ps
    rex_b := if Lone ps rex then 0 else rex
    rex := rexOf rex }

theorem rex_x64 {b : Byte} (rex : isRex arch b = true) : arch = .x64 := by
  simp only [isRex, decide_eq_true_eq] at rex
  exact rex.1

/-- Five prefixes are an anomaly already. -/
theorem note_five : (summary arch ps skipped).inc.note (ps.length = AMD64_MAX_PREFIX_LENGTH) = (summary arch ps skipped).inc := by
  have many : ps.length = AMD64_MAX_PREFIX_LENGTH → Anomalous arch ps := by
    intro five
    refine anomalous_many ?_
    rw [five]
    decide
  simp only [Prefixed.note, Prefixed.inc, summary, Prefixed.mk.injEq, and_true, true_and]
  by_cases five : ps.length = AMD64_MAX_PREFIX_LENGTH <;> simp [five, many]

theorem rexOperandSize_summary (rex : Byte) :
    rexOperandSize ((summary .x64 ps skipped).inc.addRex rex) = some (withRex .x64 ps skipped rex) := by
  have wide : ¬ addressSize .x64 ps < 4 := by
    simp only [addressSize, defaultAddressSize, otherAddressSize]
    split_ifs <;> simp
  by_cases w : (rexOf rex).w = 1#1
  · have other : ¬ Lone ps rex := by
      rintro ⟨rfl, _⟩
      exact absurd w (by decide)
    simp [rexOperandSize, Prefixed.addRex, Prefixed.inc, Prefixed.widen, summary, withRex, wide, w, other]
  · by_cases asked : Prefix.operandSize ∈ ps
    · have half : operandSize .x64 ps = 2 := by simp [operandSize, asked, otherOperandSize, defaultOperandSize]
      have other : ¬ Lone ps rex := fun lone => lone.2 asked
      simp [rexOperandSize, Prefixed.addRex, Prefixed.inc, summary, withRex, wide, w, other, asked, half]
    · by_cases same : rex = REX_PREFIX_START
      · subst same
        have lone : Lone ps REX_PREFIX_START := ⟨rfl, asked⟩
        simp [rexOperandSize, Prefixed.addRex, Prefixed.inc, Prefixed.dropRex, Prefixed.note, summary, withRex, wide, w,
          asked, lone]
      · have other : ¬ Lone ps rex := fun lone => same lone.1
        simp [rexOperandSize, Prefixed.addRex, Prefixed.inc, summary, withRex, wide, w, asked, same, other]

theorem readRex_rex {n : Nat} (here : ps.length + skipped = n) (rex : isRex arch (code n) = true)
    (next : prefixOf (code (n + 1)) = none) (room : ¬ X86_MAX_INSTRUCTION_LEN ≤ ps.length) :
    readRex arch code (code n) (summary arch ps skipped).inc =
      .found (code (n + 1)) (withRex arch ps skipped (code n)).inc := by
  obtain rfl := rex_x64 rex
  have few : (summary .x64 ps skipped).inc.anomalyOccurred = true ∨ ps.length < AMD64_MAX_PREFIX_LENGTH := by
    by_cases few : ps.length < AMD64_MAX_PREFIX_LENGTH
    · exact .inr few
    · have many : Anomalous .x64 ps := by
        refine anomalous_many (Nat.lt_of_lt_of_le ?_ (Nat.le_of_not_lt few))
        decide
      exact .inl (by simp [Prefixed.inc, summary, many])
  have listed : (summary .x64 ps skipped).inc.prefixes.length = ps.length := List.length_map _
  have behind : (withRex .x64 ps skipped (code n)).length = n + 1 := by
    rw [← here]
    rfl
  unfold readRex
  rw [if_pos rex, listed, if_neg room]
  simp only [note_five, listed, if_pos few, rexOperandSize_summary, behind, next]
  rfl

/-! ### What is read -/

/-- What the bytes before the opcode set. -/
def meant (arch : ArchitectureType) (code : Memory) (n : Nat) : Prefixed :=
  let skipped := n - (taken code n).length
  if isRex arch (code n) then (withRex arch (taken code n) skipped (code n)).inc
  else (summary arch (taken code n) skipped).inc

/-- What the prefixes of an instruction come to. -/
def Read (arch : ArchitectureType) (code : Memory) : Outcome → Prop
  | .fails => False
  | .aborts _ =>
    ∃ n, Skipped arch code n ∧ (taken code n).length = X86_MAX_INSTRUCTION_LEN ∧
      ((prefixOf (code n)).isSome ∨ isRex arch (code n) = true)
  | .found opcode s =>
    ∃ n, Skipped arch code n ∧ prefixOf (code n) = none ∧ s = meant arch code n ∧
      s.length = n + (if isRex arch (code n) then 2 else 1) ∧ opcode = code (s.length - 1) ∧ prefixOf opcode = none ∧
      s.prefixes.length ≤ X86_MAX_INSTRUCTION_LEN

theorem read_getPrefixes (arch : ArchitectureType) (code : Memory) : Read arch code (getPrefixes arch code) := by
  have ends : Ends arch code ((prefixLoop arch code).result (x86InitInstruction arch)) :=
    loop_ends _ 0 (fun _ inside => absurd inside (Nat.not_lt_zero _)) (Nat.zero_le _) summary_nil.symm
  unfold getPrefixes
  generalize (prefixLoop arch code).result (x86InitInstruction arch) = outcome at ends ⊢
  cases outcome with
  | fails => exact ends
  | aborts s =>
    obtain ⟨n, skipped, full, another⟩ := ends
    exact ⟨n, skipped, full, .inl another⟩
  | found opcode s =>
    obtain ⟨n, skipped, few, rfl, none, last, rfl⟩ := ends
    have here : (taken code n).length + (n - (taken code n).length) = n := Nat.add_sub_cancel' (taken_length code n)
    by_cases rex : isRex arch (code n) = true
    · have next : prefixOf (code (n + 1)) = .none := by
        cases found : prefixOf (code (n + 1)) with
        | none => rfl
        | some p => exact absurd ⟨rex, by rw [found]; rfl⟩ last
      by_cases room : X86_MAX_INSTRUCTION_LEN ≤ (taken code n).length
      · have full : X86_MAX_INSTRUCTION_LEN ≤
            (summary arch (taken code n) (n - (taken code n).length)).inc.prefixes.length := by
          simpa [Prefixed.inc, summary] using room
        simp only [readRex, if_pos rex, if_pos full]
        exact ⟨n, skipped, Nat.le_antisymm few room, .inr rex⟩
      · simp only [readRex_rex here rex next room]
        have length : (withRex arch (taken code n) (n - (taken code n).length) (code n)).inc.length = n + 2 :=
          congrArg (· + 2) here
        refine ⟨n, skipped, none, ?_, ?_, ?_, next, ?_⟩
        · simp [meant, rex]
        · rw [length, if_pos rex]
        · rw [length]
          rfl
        · simp only [withRex, Prefixed.inc, List.length_append, List.length_map, List.length_singleton]
          omega
    · have length : (summary arch (taken code n) (n - (taken code n).length)).inc.length = n + 1 :=
        congrArg (· + 1) here
      simp only [readRex, if_neg rex]
      refine ⟨n, skipped, none, ?_, ?_, ?_, none, ?_⟩
      · simp [meant, rex]
      · rw [length, if_neg rex]
      · rw [length]
        rfl
      · simpa [summary, Prefixed.inc] using few

theorem prefixes_read (arch : ArchitectureType) (code : Memory) :
    match getPrefixes arch code with
    | .fails => False
    | .aborts _ =>
      ∃ n, Skipped arch code n ∧ (taken code n).length = X86_MAX_INSTRUCTION_LEN ∧
        ((prefixOf (code n)).isSome ∨ isRex arch (code n) = true)
    | .found opcode s =>
      ∃ n, Skipped arch code n ∧ prefixOf (code n) = none ∧ s = meant arch code n ∧
        s.length = n + (if isRex arch (code n) then 2 else 1) ∧ opcode = code (s.length - 1) ∧ prefixOf opcode = none ∧
        s.prefixes.length ≤ X86_MAX_INSTRUCTION_LEN := by
  have read := read_getPrefixes arch code
  cases same : getPrefixes arch code <;> rwa [same] at read

/-! ### What the processor reads -/

def isPrefix (arch : ArchitectureType) (b : Byte) : Bool := (prefixOf b).isSome || isRex arch b

/-- The prefixes in front of an opcode. -/
def Run (arch : ArchitectureType) (code : Memory) (m : Nat) : Prop :=
  (∀ k < m, isPrefix arch (code k) = true) ∧ isPrefix arch (code m) = false

/-- A REX prefix counts in front of the opcode only. -/
def effectiveRex (arch : ArchitectureType) (code : Memory) : Nat → Byte
  | 0 => 0
  | m + 1 => if isRex arch (code m) then code m else 0

/-- What is read is what the processor reads. A `rex_b` of zero stands for no REX prefix. -/
structure AsMeant (arch : ArchitectureType) (code : Memory) (m : Nat) (s : Prefixed) : Prop where
  length : s.length = m + 1
  rex_b : s.rex_b = effectiveRex arch code m
  rex : s.rex = rexOf (effectiveRex arch code m)
  operandSize : s.operandSize = if s.rex.w = 1 then 8 else operandSize arch (taken code m)
  addressSize : s.addressSize = addressSize arch (taken code m)
  segment : s.segment = ((segments (taken code m)).filter (meaningful arch)).getLast?.getD .ds
  lock : s.hasLockPrefix = true ↔ .lock ∈ taken code m
  rep : s.hasRepeatWhileEqualPrefix = true ↔ last Prefix.repeating (taken code m) = some .rep
  repne : s.hasRepeatWhileNotEqualPrefix = true ↔ last Prefix.repeating (taken code m) = some .repne

/-- No REX prefix is followed by another. -/
def Single (arch : ArchitectureType) (code : Memory) (m : Nat) : Prop :=
  ∀ k, k + 1 < m → isRex arch (code k) = true → isRex arch (code (k + 1)) = false

theorem isPrefix_iff {b : Byte} : isPrefix arch b = true ↔ (prefixOf b).isSome ∨ isRex arch b = true := Bool.or_eq_true_iff

theorem isPrefix_opcode {b : Byte} (none : prefixOf b = none) : isPrefix arch b = isRex arch b := by
  rw [isPrefix, none]
  rfl

theorem Skipped.isPrefix {n : Nat} (skipped : Skipped arch code n) (k : Nat) (inside : k < n) :
    isPrefix arch (code k) = true := by
  rcases skipped k inside with found | found
  · exact isPrefix_iff.mpr (.inl found)
  · exact isPrefix_iff.mpr (.inr found.1)

/-- A REX prefix is skipped in front of a legacy prefix. -/
theorem Skipped.single {n : Nat} (skipped : Skipped arch code n) (k : Nat) (inside : k < n) (rex : isRex arch (code k) = true) :
    isRex arch (code (k + 1)) = false := by
  rcases skipped k inside with found | found
  · rw [not_rex found] at rex
    cases rex
  · exact not_rex found.2

theorem Skipped.effectiveRex {n : Nat} (skipped : Skipped arch code n) (none : prefixOf (code n) = none) :
    effectiveRex arch code n = 0 := by
  cases n with
  | zero => rfl
  | succ n =>
    refine if_neg (fun rex => ?_)
    rcases skipped n n.lt_succ_self with found | found
    · rw [not_rex found] at rex
      cases rex
    · rw [none] at found
      exact absurd found.2 (by simp)

/-- A run goes as far as its bytes are prefixes. -/
theorem Run.le {n m : Nat} (run : Run arch code m) (before : ∀ k < n, isPrefix arch (code k) = true) : n ≤ m := by
  by_contra beyond
  have opcode := run.2
  rw [before m (by omega)] at opcode
  cases opcode

/-- A run ends where its opcode is. -/
theorem Run.ends {n m : Nat} (run : Run arch code m) (before : ∀ k < n, isPrefix arch (code k) = true)
    (opcode : isPrefix arch (code n) = false) : m = n := by
  refine Nat.le_antisymm (Nat.le_of_not_lt (fun more => ?_)) (run.le before)
  rw [run.1 n more] at opcode
  cases opcode

theorem skipped_through {n : Nat} (skipped : Skipped arch code n) (here : isPrefix arch (code n) = true) :
    ∀ k < n + 1, isPrefix arch (code k) = true := by
  intro k inside
  rcases Nat.lt_succ_iff_lt_or_eq.mp inside with earlier | rfl
  · exact skipped.isPrefix k earlier
  · exact here

theorem taken_rex {n : Nat} (none : prefixOf (code n) = none) : taken code (n + 1) = taken code n := by
  rw [taken_succ, none, Option.toList_none, List.append_nil]

theorem meant_plain {n : Nat} (skipped : Skipped arch code n) (none : prefixOf (code n) = none)
    (opcode : isRex arch (code n) = false) : AsMeant arch code n (meant arch code n) := by
  have same : meant arch code n = (summary arch (taken code n) (n - (taken code n).length)).inc := by
    simp [meant, opcode]
  have noRex := skipped.effectiveRex none
  rw [same]
  constructor <;> simp [Prefixed.inc, summary, noRex, rexOf, Nat.add_sub_cancel' (taken_length code n)]

theorem meant_rex {n : Nat} (none : prefixOf (code n) = none) (rex : isRex arch (code n) = true)
    (wanted : ¬ Lone (taken code n) (code n)) : AsMeant arch code (n + 1) (meant arch code n) := by
  have same : meant arch code n = (withRex arch (taken code n) (n - (taken code n).length) (code n)).inc := by
    simp [meant, rex]
  have taken := taken_rex none
  rw [same]
  constructor <;>
    simp [Prefixed.inc, withRex, summary, effectiveRex, rex, wanted, taken, Nat.add_sub_cancel' (taken_length code n)]

/-- What the source takes for a meaningless prefix is still one. -/
theorem meant_lone {n m : Nat} (rex : isRex arch (code n) = true) (lone : Lone (taken code n) (code n))
    (asMeant : AsMeant arch code m (meant arch code n)) : m ≠ n + 1 := by
  rintro rfl
  have rex_b := asMeant.rex_b
  simp only [meant, rex, if_true, withRex, Prefixed.inc, lone, effectiveRex] at rex_b
  rw [lone.1] at rex_b
  exact absurd rex_b (by decide)

/-- A run in which no REX prefix is followed by another ends behind the REX prefix that is read. -/
theorem single_ends {m n : Nat} (run : Run arch code m) (single : Single arch code m) (skipped : Skipped arch code n)
    (rex : isRex arch (code n) = true) (behind : prefixOf (code (n + 1)) = none) : m = n + 1 := by
  have before := skipped_through skipped (isPrefix_iff.mpr (.inr rex))
  refine Nat.le_antisymm (Nat.le_of_not_lt (fun more => ?_)) (run.le before)
  have another := run.1 (n + 1) more
  rw [isPrefix_opcode behind, single n more rex] at another
  cases another

/-- The bytes in front of an opcode, up to fifteen, are read as the processor reads them if and only if no REX
    prefix is followed by another and the one in front of the opcode is not the one taken for meaningless. -/
theorem prefixes_meant_iff {m : Nat} (run : Run arch code m) (few : m ≤ X86_MAX_INSTRUCTION_LEN) :
    (∃ s, getPrefixes arch code = .found (code m) s ∧ AsMeant arch code m s) ↔
      Single arch code m ∧ ∀ n, n + 1 = m → isRex arch (code n) = true → ¬ Lone (taken code n) (code n) := by
  have read := read_getPrefixes arch code
  cases same : getPrefixes arch code with
  | fails =>
    rw [same] at read
    exact read.elim
  | aborts s =>
    rw [same] at read
    obtain ⟨n, skipped, full, another⟩ := read
    have more : n + 1 ≤ m := run.le (skipped_through skipped (isPrefix_iff.mpr another))
    have bound := taken_length code n
    omega
  | found opcode s =>
    rw [same] at read
    obtain ⟨n, skipped, none, rfl, length, rfl, behind, _⟩ := read
    by_cases rex : isRex arch (code n) = true
    · rw [if_pos rex] at length
      rw [length] at behind ⊢
      constructor
      · rintro ⟨s, found, asMeant⟩
        obtain ⟨opcode, rfl⟩ := Outcome.found.inj found
        have last : m = n + 1 := by
          have reached := asMeant.length
          omega
        refine ⟨fun k inside => skipped.single k (by omega), ?_⟩
        rintro k here _ lone
        obtain rfl : k = n := by omega
        exact meant_lone rex lone asMeant last
      · rintro ⟨single, wanted⟩
        obtain rfl := single_ends run single skipped rex behind
        exact ⟨_, rfl, meant_rex none rex (wanted n rfl rex)⟩
    · rw [if_neg rex] at length
      rw [length] at behind ⊢
      have plain : isRex arch (code n) = false := Bool.eq_false_of_not_eq_true rex
      obtain rfl := run.ends skipped.isPrefix ((isPrefix_opcode none).trans plain)
      refine iff_of_true ⟨_, rfl, meant_plain skipped none plain⟩ ⟨fun k inside => skipped.single k (by omega), ?_⟩
      rintro k rfl rexed _
      rcases skipped k k.lt_succ_self with found | found
      · rw [not_rex found] at rexed
        cases rexed
      · rw [none] at found
        exact absurd found.2 (by simp)

/-- `66 48 8b`: a load of 64 bits with an operand size prefix that does nothing. -/
def wideLoad : Memory := fun k => [0x66, 0x48, 0x8b].getD k 0

theorem prefixes_meant_load :
    ∃ s, getPrefixes .x64 wideLoad = .found 0x8b s ∧ AsMeant .x64 wideLoad 2 s ∧ s.operandSize = 8 := by
  have run : Run .x64 wideLoad 2 := ⟨by decide +kernel, by decide +kernel⟩
  have single : Single .x64 wideLoad 2 := by
    intro k inside
    obtain rfl : k = 0 := by omega
    decide
  have wanted : ¬ Lone (taken wideLoad 1) (wideLoad 1) := fun lone => absurd lone.1 (by decide)
  obtain ⟨s, found, asMeant⟩ := (prefixes_meant_iff run (by decide)).mpr ⟨single, by
    rintro n here _
    obtain rfl : n = 1 := by omega
    exact wanted⟩
  refine ⟨s, found, asMeant, ?_⟩
  have rexed := asMeant.rex
  have wide := asMeant.operandSize
  rw [rexed] at wide
  exact wide.trans (by decide)

/-! ### Where the displacement stands -/

/-- `SET_MODRM`. -/
def modRMOf (modrm_b : Byte) : ModRM where
  mod := modrm_b.extractLsb' 6 2
  reg := modrm_b.extractLsb' 3 3
  rm := modrm_b.extractLsb' 0 3

/-- What an opcode of so many bytes that changes no size hands on with its ModRM byte, which is read. -/
structure HandedOn (code : Memory) (s : Prefixed) (opcodeLength : Nat) (i : Instruction) (o : Operand) (operandIndex : Nat) :
    Prop where
  archType : i.archType = .x64
  length : i.length = s.length + opcodeLength
  modrm : i.x86.modrm = modRMOf (code (s.length + opcodeLength - 1))
  rex_b : i.x86.rex_b = s.rex_b
  rex : i.x86.rex = s.rex
  rexModRM : i.x86.rexModRM = setRexModRM s.rex i.x86.modrm
  operandSize : i.x86.operandSize = s.operandSize
  addressSize : i.x86.addressSize = s.addressSize
  selector : i.x86.hasSelector = false
  fresh : i.x86.hasDstAddressing = false ∧ i.x86.hasSrcAddressing = false
  base : i.x86.hasBaseRegister = false
  index : i.x86.hasIndexRegister = false
  displacement : i.x86.displacement = 0
  address : o.has OP_ADDRESS = false
  ipRel : o.has OP_IPREL = false ∧ i.x86.relative = false
  immediates : ∃ size, immediateSize i.x86.operandSize (i.x86.operandFlags.drop (operandIndex + 1)) 0 = some size

variable {opcode : Byte} {s : Prefixed}

theorem found_meant (found : getPrefixes arch code = .found opcode s) :
    ∃ n, Skipped arch code n ∧ s = meant arch code n ∧ s.length = n + (if isRex arch (code n) then 2 else 1) ∧
      prefixOf (code (s.length - 1)) = none := by
  have read := read_getPrefixes arch code
  rw [found] at read
  obtain ⟨n, skipped, _, meant, length, rfl, behind, _⟩ := read
  exact ⟨n, skipped, meant, length, behind⟩

theorem addressSize_cases (ps : List Prefix) : addressSize .x64 ps = 4 ∨ addressSize .x64 ps = 8 := by
  simp only [addressSize, defaultAddressSize, otherAddressSize]
  split_ifs <;> simp

theorem operandSize_cases (ps : List Prefix) : operandSize .x64 ps = 2 ∨ operandSize .x64 ps = 4 := by
  simp only [operandSize, defaultOperandSize, otherOperandSize]
  split_ifs <;> simp

/-- The sizes that the addressing functions assert, and the extensions that they read without a REX prefix. -/
theorem meant_addressing (code : Memory) (n : Nat) :
    let s := meant .x64 code n
    (s.rex_b = 0 → s.rex.x = 0#1 ∧ s.rex.b = 0#1) ∧ (s.addressSize = 4 ∨ s.addressSize = 8) ∧
      (s.operandSize = 2 ∨ s.operandSize = 4 ∨ s.operandSize = 8) := by
  have address := addressSize_cases (taken code n)
  have operand := operandSize_cases (taken code n)
  unfold meant
  dsimp only
  by_cases rex : isRex .x64 (code n) = true
  · rw [if_pos rex]
    refine ⟨?_, address, ?_⟩
    · intro none
      have bits : code n = 0 ∨ code n = REX_PREFIX_START := by
        by_cases lone : Lone (taken code n) (code n)
        · exact .inr lone.1
        · simp only [withRex, Prefixed.inc, if_neg lone] at none
          exact .inl none
      rcases bits with bits | bits <;> simp [withRex, Prefixed.inc, bits] <;> decide
    · simp only [withRex, Prefixed.inc]
      split_ifs
      · exact .inr (.inr rfl)
      · tauto
  · rw [if_neg rex]
    exact ⟨fun _ => ⟨rfl, rfl⟩, address, by simp only [summary, Prefixed.inc]; tauto⟩

/-- Only a REX prefix asks for 64 bits. -/
theorem meant_wide {n : Nat} (wide : (meant .x64 code n).operandSize = 8) : isRex .x64 (code n) = true := by
  by_contra plain
  have operand := operandSize_cases (taken code n)
  simp only [meant, if_neg plain, summary, Prefixed.inc] at wide
  omega

variable {i i' : Instruction} {o o' : Operand} {operandIndex opcodeLength : Nat}

theorem HandedOn.ready (handed : HandedOn code s opcodeLength i o operandIndex) (found : getPrefixes .x64 code = .found opcode s)
    (memory : i.x86.modrm.mod ≠ 3) : Ready i o operandIndex := by
  obtain ⟨n, _, meant, _⟩ := found_meant found
  obtain ⟨extensions, addressSize, operandSize⟩ := meant_addressing code n
  rw [← meant] at extensions addressSize operandSize
  exact
    { rexModRM := by rw [handed.rexModRM, handed.rex]
      extensions := by rwa [handed.rex_b, handed.rex]
      extended := fun _ => handed.archType
      addressSize := by
        rw [handed.addressSize]
        exact addressSize.imp_right (fun eight => ⟨eight, handed.archType⟩)
      operandSize := by rwa [handed.operandSize]
      selector := handed.selector
      fresh := handed.fresh
      base := handed.base
      index := handed.index
      displacement := handed.displacement
      address := handed.address
      ipRel := handed.ipRel
      register := fun register => absurd register memory
      immediates := handed.immediates }

/-- With an operand of 64 bits, the instruction up to its ModRM byte has three bytes if and only if the REX prefix
    is the only prefix and the opcode has one byte. -/
theorem three_bytes (found : getPrefixes .x64 code = .found opcode s) (wide : s.operandSize = 8)
    (positive : 0 < opcodeLength) :
    s.length + opcodeLength = 3 ↔ opcodeLength = 1 ∧ isRex .x64 (code 0) = true ∧ prefixOf (code 1) = none := by
  obtain ⟨n, skipped, rfl, length, behind⟩ := found_meant found
  have rex := meant_wide wide
  rw [if_pos rex] at length
  rw [length] at behind ⊢
  constructor
  · intro three
    obtain rfl : n = 0 := by omega
    exact ⟨by omega, rex, behind⟩
  · rintro ⟨rfl, first, second⟩
    have start : n = 0 := by
      by_contra later
      rcases skipped 0 (by omega) with legacy | ⟨_, legacy⟩
      · rw [not_rex legacy] at first
        cases first
      · rw [second] at legacy
        cases legacy
    rw [start]

theorem flat_at (code : Memory) (a : Nat) (relative : i.x86.modrm.mod = 0 ∧ i.x86.modrm.rm = 5) :
    (encode (.flat (load32 code a))).At (fields i) code a := by
  obtain ⟨mode, rm⟩ := relative
  refine (at_iff _ _ _ _).mpr ?_
  simp [decode, fields, mode, rm]

/-- An operand that is relative to the instruction pointer and treated as such has 64 bits. -/
theorem processed_wide (ready : Ready i o operandIndex) (few : operandIndex < 3) {base : Option Nat} {index : Option (Nat × Nat)}
    {n : Nat} {displacement : Int} {p : Operand} {target : BitVec 64} {pins : MhookCode.Instruction}
    (filled : Filled i (true, true) n base index displacement i' (ipOperand i p target))
    (has : Has pins i' (ipOperand i p target) operandIndex) (processed : treatment .x64 pins = .processRip) :
    i.x86.operandSize = 8 := by
  rw [treatment_relative few ((has_ipRel has).trans (congrArg Prod.fst filled.relative)) has.others] at processed
  split_ifs at processed with changed
  exact ((supported_iff ready filled has).mp changed).1

/-- The patch of an operand relative to `rip` is noted at its displacement if and only if the REX prefix is the only
    prefix and the opcode has one byte. -/
theorem noted_offset_iff (found : getPrefixes .x64 code = .found opcode s)
    (handed : HandedOn code s opcodeLength i o operandIndex) (positive : 0 < opcodeLength) (few : operandIndex < 3)
    (relative : i.x86.modrm.mod = 0 ∧ i.x86.modrm.rm = 5) :
    ∃ i' o', setModRM32 code i i.length o operandIndex = some (i', o', i.length + 4) ∧
      ∀ pins : MhookCode.Instruction, Has pins i' o' operandIndex → treatment .x64 pins = .processRip →
        ∀ getInstruction pFunction dwMinLen skipped (t t' : MhookCode.Skipped),
          getInstruction (pFunction + BitVec.ofNat 64 t.dwRet) = some pins →
          skipBody .x64 getInstruction pFunction dwMinLen t = (skipped, .inl t') →
          ∃ rip, t'.pdata.rips = t.pdata.rips ++ [rip] ∧ rip.nDisplacement = (load32 code i.length).toInt ∧
            (rip.dwOffset = t.dwRet + i.length ↔
              opcodeLength = 1 ∧ isRex .x64 (code 0) = true ∧ prefixOf (code 1) = none) := by
  have memory : i.x86.modrm.mod ≠ 3 := by
    rw [relative.1]
    decide
  have ready := handed.ready found memory
  obtain ⟨i', target, read, filled, _⟩ := flat64_filled ready handed.archType (flat_at code i.length relative)
  refine ⟨i', _, read, ?_⟩
  intro pins has processed getInstruction pFunction dwMinLen skipped t t' decoded next
  have wide : s.operandSize = 8 := handed.operandSize.symm.trans (processed_wide ready few filled has processed)
  rcases MhookCode.skipBody_cases .x64 getInstruction pFunction dwMinLen t with
    ⟨pdata, body, _⟩ | ⟨other, same, _, plain, _⟩ | ⟨other, same, _, _, body⟩
  · rw [body] at next
    cases next
  · obtain rfl := Option.some.inj (same.symm.trans decoded)
    rw [plain] at processed
    cases processed
  · obtain rfl := Option.some.inj (same.symm.trans decoded)
    obtain rfl := Sum.inl.inj (Prod.mk.inj (body.symm.trans next)).2
    refine ⟨_, rfl, has.displacement.trans filled.displacement, ?_⟩
    rw [← three_bytes found wide positive, handed.length]
    exact Nat.add_left_cancel_iff.trans eq_comm

/-- `48 0f b6 05`: a byte extended to 64 bits, which `DisassembleAndSkip` takes for a `mov`. -/
def byteLoad : Memory := fun k => [0x48, 0x0f, 0xb6, 0x05, 0x10, 0x00, 0x00, 0x00].getD k 0
def ipByteLoad : Instruction := sample [0x07054000, 0x02042000] 0x48 ⟨0, 0, 5⟩ 8 8 4

theorem byteLoad_found : getPrefixes .x64 byteLoad = .found 0x0f (meant .x64 byteLoad 0) := by
  have leaves : (prefixLoop .x64 byteLoad).body (x86InitInstruction .x64) =
      ([], .inr (.found 0x48 (x86InitInstruction .x64).inc)) := rfl
  rw [getPrefixes, (prefixLoop .x64 byteLoad).result_leave leaves]
  rfl

theorem byteLoad_handed : HandedOn byteLoad (meant .x64 byteLoad 0) 2 ipByteLoad (sampleOperand OP_SRC 1) 1 where
  archType := rfl
  length := rfl
  modrm := by decide
  rex_b := by decide
  rex := rfl
  rexModRM := rfl
  operandSize := by decide
  addressSize := by decide
  selector := rfl
  fresh := by decide
  base := rfl
  index := rfl
  displacement := rfl
  address := by decide
  ipRel := by decide
  immediates := ⟨0, by decide⟩

theorem noted_offset_byteLoad :
    ∃ pins t', treatment .x64 pins = .processRip ∧
      skipBody .x64 (fun _ => some pins) 0 5 ⟨0, ⟨0, 0, []⟩⟩ = ([(0, pins)], .inl t') ∧
      ∃ rip, t'.pdata.rips = [rip] ∧ rip.dwOffset ≠ 4 := by
  obtain ⟨i', o', read, noted⟩ := noted_offset_iff byteLoad_found byteLoad_handed (by decide) (by decide) (by decide)
  obtain ⟨pins, same⟩ : ∃ pins, pins = movPins 8 (by decide) (by decide) i' o' := ⟨_, rfl⟩
  have has : Has pins i' o' 1 := same ▸ movPins_has _ _ i' o'
  have on : pins.type ∉ stops := same ▸ movPins_on _ _ i' o'
  have processed : treatment .x64 pins = .processRip := by
    have made : setModRM32 byteLoad ipByteLoad 4 (sampleOperand OP_SRC 1) 1 = some (i', o', 8) := read
    obtain ⟨rfl, rfl, _⟩ := Prod.mk.inj (Option.some.inj made)
    rw [same]
    decide
  have next := MhookCode.skipBody_on .x64 (fun _ => some pins) 0 5 (s := ⟨0, ⟨0, 0, []⟩⟩) rfl on (by decide) (by decide)
  rw [processed] at next
  obtain ⟨rip, rips, _, offset⟩ := noted pins has processed (fun _ => some pins) 0 5 _ _ _ rfl next
  refine ⟨pins, _, processed, next, rip, rips, fun here => ?_⟩
  have one := (offset.mp here).1
  exact absurd one (by decide)

end

end WinMiniTools.DisasmPrefixes
