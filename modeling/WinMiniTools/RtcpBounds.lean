import WinMiniTools.RtcpParser

/-!
Which bytes the parser reads. An iteration reads inside the datagram and inside
the packet it stands on exactly when the packet has room for what it reads, in
the datagram and by its own length field (`inside_iff`). So the whole walk stays
inside exactly when the datagram is a sequence of packets that have this room,
all complete but the last (`reads_inside_iff`).
-/
namespace WinMiniTools.RtcpBounds
open WinMiniTools.Words WinMiniTools.Loops WinMiniTools.RtcpParser

/-! ### Packets as lists of bytes -/

/-- The length field of a packet, and the bytes it declares the packet to have. -/
def lengthField (bytes : List Byte) : Nat := (join16 (bytes.getD 2 0) (bytes.getD 3 0)).toNat
def declaredSize (bytes : List Byte) : Nat := 4 * lengthField bytes + 4
/-- The bytes that the parser wants of a packet: a header, and in a sender report
    everything up to its counters. -/
def neededSize (bytes : List Byte) : Nat := if bytes.getD 1 0 = 200 then 28 else 8

/-- What the parser wants is there, and belongs to the packet. -/
def Roomy (bytes : List Byte) : Prop := neededSize bytes ≤ bytes.length ∧ neededSize bytes ≤ declaredSize bytes
def Complete (bytes : List Byte) : Prop := Roomy bytes ∧ bytes.length = declaredSize bytes
/-- A packet that the end of the datagram cuts short. -/
def Cut (bytes : List Byte) : Prop := Roomy bytes ∧ bytes.length < declaredSize bytes

/-- How far the last packet of a datagram declares to reach. -/
def extent (last : List Byte) : Nat := if last = [] then 0 else declaredSize last

/-- A datagram of complete packets and possibly a cut one, whose declared end
    an `int` holds. -/
def Compound (bytes : List Byte) : Prop :=
  ∃ packets last, bytes = List.flatten packets ++ last ∧ (∀ p ∈ packets, Complete p) ∧ (last = [] ∨ Cut last) ∧
    (List.flatten packets).length + extent last < 2 ^ 31

instance (bytes : List Byte) : Decidable (Roomy bytes) := inferInstanceAs (Decidable (_ ∧ _))
instance (bytes : List Byte) : Decidable (Complete bytes) := inferInstanceAs (Decidable (_ ∧ _))
instance (bytes : List Byte) : Decidable (Cut bytes) := inferInstanceAs (Decidable (_ ∧ _))

/-- Every read of the iteration lies in the datagram and in the packet at its offset. -/
def Inside (packet_length : Nat) (r : Report) : Prop :=
  ∀ a ∈ r.reads, a < packet_length ∧ r.offset ≤ a ∧ a < r.offset + r.paloadlen + 4
/-- Every read of a run lies inside, and no addition takes the offset out of an `int`. -/
def Safe (packet_length : Nat) (run : List Report × Ending) : Prop :=
  (∀ r ∈ run.1, Inside packet_length r) ∧ run.2 ≠ .overflow

/-! ### One iteration -/

def Report.needed (r : Report) : Nat := if r.type = 200 then 28 else 8

/-- The reads of an iteration end where the needed bytes end. -/
theorem inside_iff (packet : Memory) (offset packet_length : Nat) :
    Inside packet_length (report packet offset) ↔
      offset + Report.needed (report packet offset) ≤ packet_length ∧
        Report.needed (report packet offset) ≤ (report packet offset).paloadlen + 4 := by
  have sender := senderCounts_isSome packet offset
  have here : (report packet offset).offset = offset := rfl
  by_cases type : (report packet offset).type = 200
  · have counts := sender.mpr type
    simp only [Inside, mem_reads, Report.needed, type, counts, here, ↓reduceIte, true_and]
    constructor
    · intro inside
      have last := inside (offset + 27) (.inr ⟨by omega, by omega⟩)
      omega
    · rintro ⟨room, own⟩ a (header | counters)
      · omega
      · omega
  · have counts : ¬ (report packet offset).senderCounts.isSome := fun some => type (sender.mp some)
    simp only [Inside, mem_reads, Report.needed, type, counts, here, ↓reduceIte, Bool.false_eq_true, false_and,
      or_false]
    constructor
    · intro inside
      have last := inside (offset + 7) ⟨by omega, by omega⟩
      omega
    · rintro ⟨room, own⟩ a header
      omega

section
variable {packet : Memory} {offset : Nat} {bytes : List Byte}

private theorem byte_of_holds (holds : Holds packet offset bytes) {i : Nat} (inside : i < bytes.length) :
    bytes.getD i 0 = packet (offset + i) := by
  rw [List.getD_eq_getElem _ _ inside, holds i inside]

/-- The header laid over a packet has the packet's length and type. -/
theorem report_of_holds (holds : Holds packet offset bytes) (long : 4 ≤ bytes.length) :
    (report packet offset).paloadlen + 4 = declaredSize bytes ∧
      Report.needed (report packet offset) = neededSize bytes := by
  have type : (report packet offset).type = packet (offset + 1) :=
    (bytes_join16 (packet (offset + 1)) (packet offset)).1
  constructor
  · simp only [report, rtcpHeader, ntohs, load16, swap16_join, declaredSize, lengthField]
    rw [byte_of_holds holds (by omega : 2 < bytes.length), byte_of_holds holds (by omega : 3 < bytes.length)]
  · rw [Report.needed, neededSize, type, byte_of_holds holds (by omega : 1 < bytes.length)]

end

theorem needed_le (bytes : List Byte) : 8 ≤ neededSize bytes := by
  unfold neededSize
  split <;> omega

theorem complete_length {bytes : List Byte} (complete : Complete bytes) : 8 ≤ bytes.length :=
  le_trans (needed_le bytes) complete.1.1

/-! ### The rest of a datagram from an offset on -/

/-- From the offset on, the datagram is a sequence of packets as `Compound` asks. -/
def CompoundFrom (packet : Memory) (packet_length offset : Nat) : Prop :=
  ∃ packets last, Holds packet offset (List.flatten packets ++ last) ∧
    (List.flatten packets ++ last).length = packet_length - offset ∧
    (∀ p ∈ packets, Complete p) ∧ (last = [] ∨ Cut last) ∧
    offset + ((List.flatten packets).length + extent last) < 2 ^ 31

theorem compound_iff (packet : Memory) (packet_length : Nat) :
    Compound (window packet 0 packet_length) ↔ CompoundFrom packet packet_length 0 := by
  simp only [Compound, CompoundFrom, window_eq_iff, Nat.sub_zero, Nat.zero_add, and_assoc]

private theorem compound_past {packet : Memory} {packet_length offset : Nat} (past : packet_length ≤ offset)
    (small : offset < 2 ^ 31) : CompoundFrom packet packet_length offset :=
  ⟨[], [], by simp, by simp; omega, by simp, .inl rfl, by simpa [extent] using small⟩

/-- What the first packet of a compound is, seen from the header at its offset. -/
private theorem compound_cases {packet : Memory} {packet_length offset : Nat} (more : offset < packet_length)
    (compound : CompoundFrom packet packet_length offset) :
    Inside packet_length (report packet offset) ∧ offset + ((report packet offset).paloadlen + 4) < 2 ^ 31 ∧
      CompoundFrom packet packet_length (offset + ((report packet offset).paloadlen + 4)) := by
  obtain ⟨packets, last, holds, length, complete, ending, small⟩ := compound
  rw [inside_iff]
  cases packets with
  | nil =>
    -- The header stands in the packet that the datagram cuts short.
    simp only [List.flatten_nil, List.nil_append, List.length_nil, Nat.zero_add] at holds length small
    rcases ending with none | cut
    · subst none; simp at length; omega
    · have long := le_trans (needed_le last) cut.1.1
      obtain ⟨size, needed⟩ := report_of_holds holds (by omega)
      have nonempty : last ≠ [] := by rintro rfl; simp at long
      simp only [extent, nonempty, ↓reduceIte] at small
      have roomy := cut.1
      have short := cut.2
      unfold Roomy at roomy
      rw [size, needed]
      exact ⟨⟨by omega, roomy.2⟩, small, compound_past (by omega) small⟩
  | cons p packets =>
    simp only [List.flatten_cons, List.append_assoc, holds_append, List.length_append] at holds length small
    have whole := complete p (by simp)
    have long := complete_length whole
    obtain ⟨size, needed⟩ := report_of_holds holds.1 (by omega)
    have roomy := whole.1
    have exactly := whole.2
    unfold Roomy at roomy
    rw [size, needed, ← exactly]
    refine ⟨⟨by omega, by omega⟩, by omega, packets, last, ?_, ?_, ?_, ending, by omega⟩
    · rw [holds_append]
      exact holds.2
    · rw [List.length_append]
      omega
    · intro q member
      exact complete q (by simp [member])

/-- A packet with room, and a compound after it, are a compound. -/
private theorem compound_of_next {packet : Memory} {packet_length offset : Nat} (more : offset < packet_length)
    (inside : Inside packet_length (report packet offset))
    (small : offset + ((report packet offset).paloadlen + 4) < 2 ^ 31)
    (rest : CompoundFrom packet packet_length (offset + ((report packet offset).paloadlen + 4))) :
    CompoundFrom packet packet_length offset := by
  obtain ⟨room, own⟩ := (inside_iff packet offset packet_length).mp inside
  have eight : 8 ≤ Report.needed (report packet offset) := by
    unfold Report.needed
    split <;> omega
  by_cases cut : packet_length < offset + ((report packet offset).paloadlen + 4)
  · obtain ⟨holds, length⟩ := window_eq_iff.mp (rfl : window packet offset (packet_length - offset) = _)
    obtain ⟨size, needed⟩ := report_of_holds holds (by omega)
    have nonempty : window packet offset (packet_length - offset) ≠ [] := by
      intro none
      rw [none] at length
      simp at length
      omega
    refine ⟨[], window packet offset (packet_length - offset), by simpa using holds, by simp, by simp,
      .inr ⟨⟨by omega, by omega⟩, by omega⟩, ?_⟩
    simp only [extent, nonempty, ↓reduceIte, List.flatten_nil, List.length_nil, Nat.zero_add]
    omega
  · obtain ⟨holds, length⟩ := window_eq_iff.mp
      (rfl : window packet offset ((report packet offset).paloadlen + 4) = _)
    obtain ⟨size, needed⟩ := report_of_holds holds (by omega)
    obtain ⟨packets, last, later, restLength, complete, ending, bound⟩ := rest
    refine ⟨window packet offset ((report packet offset).paloadlen + 4) :: packets, last, ?_, ?_, ?_, ending, ?_⟩
    · rw [List.flatten_cons, List.append_assoc, holds_append]
      exact ⟨holds, by rw [length]; exact later⟩
    · rw [List.flatten_cons, List.append_assoc, List.length_append, length, restLength]
      omega
    · intro q member
      rcases List.mem_cons.mp member with rfl | member
      · exact ⟨⟨by omega, by omega⟩, by omega⟩
      · exact complete q member
    · rw [List.flatten_cons, List.length_append, length]
      omega

theorem walk_safe_iff (packet : Memory) (packet_length offset : Nat) (small : offset < 2 ^ 31) :
    Safe packet_length ((walk packet packet_length).events offset, (walk packet packet_length).result offset) ↔
      CompoundFrom packet packet_length offset := by
  induction offset using (walk packet packet_length).induct with
  | step offset ih =>
    by_cases more : offset < packet_length
    · by_cases fits : offset + ((report packet offset).paloadlen + 4) < 2 ^ 31
      · have next := ih [report packet offset] (offset + ((report packet offset).paloadlen + 4))
          (walk_body more fits) fits
        obtain ⟨events, result⟩ := walk_next more fits
        have here : Safe packet_length
            ((walk packet packet_length).events offset, (walk packet packet_length).result offset) ↔
            Inside packet_length (report packet offset) ∧
              CompoundFrom packet packet_length (offset + ((report packet offset).paloadlen + 4)) := by
          rw [← next, events, result]
          simp [Safe, and_assoc]
        rw [here]
        constructor
        · rintro ⟨inside, rest⟩
          exact compound_of_next more inside fits rest
        · intro compound
          obtain ⟨inside, _, rest⟩ := compound_cases more compound
          exact ⟨inside, rest⟩
      · obtain ⟨_, result⟩ := walk_overflow more (Nat.le_of_not_lt fits)
        constructor
        · intro safe
          exact absurd result safe.2
        · intro compound
          exact absurd (compound_cases more compound).2.1 fits
    · obtain ⟨events, result⟩ : (walk packet packet_length).events offset = [] ∧
          (walk packet packet_length).result offset = .done offset := walk_done (Nat.le_of_not_lt more)
      rw [events, result]
      constructor
      · intro _
        exact compound_past (Nat.le_of_not_lt more) small
      · intro _
        simp [Safe]

/-- The parser stays inside the datagram and the packets it stands on exactly
    for a compound of packets with room for its reads. -/
theorem reads_inside_iff (packet : Memory) (packet_length : Nat) :
    Safe packet_length (parseUdpPacket packet packet_length) ↔ Compound (window packet 0 packet_length) := by
  rw [compound_iff]
  exact walk_safe_iff packet packet_length 0 (by omega)

instance (packet_length : Nat) (r : Report) : Decidable (Inside packet_length r) :=
  inferInstanceAs (Decidable (∀ a ∈ r.reads, _))

/-- A sender report of which four bytes arrived: its header alone reaches past them. -/
theorem truncated_report_reads_past :
    ¬ ∀ r ∈ (parseUdpPacket (buffer [0x80, 0xC8, 0x00, 0x06] (fun _ => 0)) 4).1, Inside 4 r := by
  decide

end WinMiniTools.RtcpBounds
