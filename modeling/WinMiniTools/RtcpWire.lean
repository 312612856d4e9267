import WinMiniTools.RtcpBounds

/-!
RTCP compound packets on the wire, after RFC 3550, and what the parser makes of
them. `Packet` holds what a well-formed packet carries; its encoding takes as
many words as its length field says (`encode_length`), so the parser lands on
every packet of a compound and prints what it carries (`parse_wire`).
-/
namespace WinMiniTools.RtcpWire
open WinMiniTools.Words WinMiniTools.Loops WinMiniTools.RtcpParser WinMiniTools.RtcpBounds

/-- The sender information of a sender report. -/
structure SenderInfo where
  ntpMsw : BitVec 32
  ntpLsw : BitVec 32
  rtpTimestamp : BitVec 32
  packetCount : BitVec 32
  octetCount : BitVec 32

/-- What follows the header of a packet: in a sender report the sender
    information and any further words, in every other packet any words. -/
inductive Content where
  | senderReport (info : SenderInfo) (blocks : List Byte)
  | other (payloadtype : BitVec 8) (distinct : payloadtype ≠ 200) (body : List Byte)

namespace Content
def payloadtype : Content → BitVec 8
  | .senderReport _ _ => 200
  | .other payloadtype _ _ => payloadtype
def bytes : Content → List Byte
  | .senderReport info blocks =>
    big32 info.ntpMsw ++ (big32 info.ntpLsw ++ (big32 info.rtpTimestamp ++
      (big32 info.packetCount ++ (big32 info.octetCount ++ blocks))))
  | .other _ _ body => body
/-- The counters that the parser prints for a sender report. -/
def counts : Content → Option SenderCounts
  | .senderReport info _ => some { octetCnt := info.octetCount, packetCnt := info.packetCount }
  | .other _ _ _ => none
end Content

/-- A well-formed packet: whole words, as many as sixteen bits can count. -/
structure Packet where
  version : BitVec 2
  padding : BitVec 1
  rc : BitVec 5
  ssrc : BitVec 32
  content : Content
  aligned : 4 ∣ content.bytes.length
  short : content.bytes.length / 4 + 1 < 2 ^ 16

namespace Packet
/-- The words of the packet without its first. -/
def lengthField (p : Packet) : Nat := p.content.bytes.length / 4 + 1
def firstByte (p : Packet) : Byte := p.version ++ p.padding ++ p.rc
def encode (p : Packet) : List Byte :=
  p.firstByte :: p.content.payloadtype :: (big16 (BitVec.ofNat 16 p.lengthField) ++ (big32 p.ssrc ++ p.content.bytes))

/-- What the parser is to print for the packet. -/
def report (p : Packet) (offset : Nat) : Report where
  offset := offset
  ssrc := p.ssrc
  ver := p.version
  padding := p.padding
  rc := p.rc
  type := p.content.payloadtype
  paloadlen := 4 * p.lengthField
  senderCounts := p.content.counts
end Packet

/-- The packets of a compound, one after the other. -/
def wire (packets : List Packet) : List Byte := packets.flatMap Packet.encode

/-- One report for each packet, each at the offset where its packet starts. -/
def reports : Nat → List Packet → List Report
  | _, [] => []
  | offset, p :: packets => p.report offset :: reports (offset + p.encode.length) packets

theorem wire_cons (p : Packet) (packets : List Packet) : wire (p :: packets) = p.encode ++ wire packets := by
  simp [wire]

/-- The encoding of a packet has the bytes that its length field declares. -/
theorem encode_length (p : Packet) : p.encode.length = 4 * p.lengthField + 4 := by
  have := p.aligned
  simp only [Packet.encode, Packet.lengthField, big16, big32, List.length_append, List.length_cons, List.length_nil]
  omega

/-! ### Reading one packet -/

section
variable {mem : Memory} {offset : Nat} {p : Packet}

private theorem firstByte_toNat (p : Packet) :
    p.firstByte.toNat = 64 * p.version.toNat + 32 * p.padding.toNat + p.rc.toNat := by
  have outer : p.firstByte.toNat = (p.version ++ p.padding).toNat <<< 5 ||| p.rc.toNat := BitVec.toNat_append ..
  have inner : (p.version ++ p.padding).toNat = p.version.toNat <<< 1 ||| p.padding.toNat := BitVec.toNat_append ..
  rw [outer, inner, Nat.shiftLeft_eq, Nat.shiftLeft_eq, Nat.mul_comm, ← Nat.two_pow_add_eq_or_of_lt p.rc.isLt,
    Nat.mul_comm _ (2 ^ 1), ← Nat.two_pow_add_eq_or_of_lt p.padding.isLt]
  omega

/-- The four bit-fields of the first sixteen bits, low bit first. -/
theorem bitfields (p : Packet) (type : Byte) :
    (join16 type p.firstByte).extractLsb' 0 5 = p.rc ∧ (join16 type p.firstByte).extractLsb' 5 1 = p.padding ∧
      (join16 type p.firstByte).extractLsb' 6 2 = p.version ∧ (join16 type p.firstByte).extractLsb' 8 8 = type := by
  have unit : (join16 type p.firstByte).toNat =
      256 * type.toNat + (64 * p.version.toNat + 32 * p.padding.toNat + p.rc.toNat) := by
    rw [join16_toNat, firstByte_toNat]
  have := p.rc.isLt
  have := p.padding.isLt
  have := p.version.isLt
  have := type.isLt
  refine ⟨?_, ?_, ?_, ?_⟩ <;> apply BitVec.eq_of_toNat_eq <;>
    rw [BitVec.extractLsb'_toNat, unit, Nat.shiftRight_eq_div_pow] <;> omega

/-- The parser prints for an encoded packet what the packet carries. -/
theorem report_of_encode (holds : Holds mem offset p.encode) : RtcpParser.report mem offset = p.report offset := by
  simp only [Packet.encode, holds_cons, holds_append, Nat.add_assoc, Nat.reduceAdd] at holds
  obtain ⟨first, second, length, ssrc, content⟩ := holds
  simp only [big16, big32, List.length_cons, List.length_nil, Nat.zero_add, Nat.reduceAdd] at ssrc content
  have unit : load16 mem offset = join16 p.content.payloadtype p.firstByte := by
    rw [load16, first, second]
  obtain ⟨rc, padding, version, type⟩ := bitfields p p.content.payloadtype
  have typeIs : (rtcpHeader mem offset).payloadtype = p.content.payloadtype := by
    simp only [rtcpHeader, unit, type]
  have size : (ntohs (load16 mem (offset + 2))).toNat = p.lengthField := by
    rw [ntohs, swap_load_big16 length, BitVec.toNat_ofNat]
    exact Nat.mod_eq_of_lt p.short
  have source : ntohl (load32 mem (offset + 4)) = p.ssrc := swap_load_big32 ssrc
  have counts : (RtcpParser.report mem offset).senderCounts = p.content.counts := by
    cases contents : p.content with
    | senderReport info blocks =>
      rw [contents] at typeIs content
      simp only [Content.bytes, holds_append, big32, List.length_cons, List.length_nil, Nat.add_assoc,
        Nat.reduceAdd] at content
      obtain ⟨_, _, _, packetCount, octetCount, _⟩ := content
      have packets : ntohl (load32 mem (offset + 20)) = info.packetCount := swap_load_big32 packetCount
      have octets : ntohl (load32 mem (offset + 24)) = info.octetCount := swap_load_big32 octetCount
      simp only [RtcpParser.report, rtcpSr, typeIs, Content.payloadtype, Content.counts, Nat.add_assoc,
        Nat.reduceAdd, packets, octets, ↓reduceIte]
    | other payloadtype distinct body =>
      rw [contents] at typeIs
      have plain : ¬ payloadtype = 200 := distinct
      simp only [RtcpParser.report, typeIs, Content.payloadtype, Content.counts, plain, ↓reduceIte]
  have fields : RtcpParser.report mem offset =
      { p.report offset with senderCounts := (RtcpParser.report mem offset).senderCounts } := by
    simp only [RtcpParser.report, rtcpHeader, Packet.report, unit, rc, padding, version, type, size, source]
  rw [fields, counts]
  rfl

end

/-! ### Reading a compound -/

theorem walk_wire {mem : Memory} {packet_length : Nat} (small : packet_length < 2 ^ 31) (packets : List Packet)
    (offset : Nat) (holds : Holds mem offset (wire packets)) (rest : offset + (wire packets).length = packet_length) :
    (walk mem packet_length).events offset = reports offset packets ∧
      (walk mem packet_length).result offset = .done packet_length := by
  induction packets generalizing offset with
  | nil =>
    have here : offset = packet_length := by simpa [wire] using rest
    rw [here]
    exact walk_done (Nat.le_refl _)
  | cons p packets ih =>
    rw [wire_cons, holds_append] at holds
    rw [wire_cons, List.length_append] at rest
    have same := report_of_encode holds.1
    have size := encode_length p
    have step : (RtcpParser.report mem offset).paloadlen + 4 = p.encode.length := by
      rw [same, size]
      rfl
    have more : offset < packet_length := by omega
    have fits : offset + ((RtcpParser.report mem offset).paloadlen + 4) < 2 ^ 31 := by omega
    obtain ⟨events, result⟩ := walk_next more fits
    obtain ⟨laterEvents, laterResult⟩ := ih (offset + p.encode.length) holds.2 (by omega)
    rw [events, result, step, laterEvents, laterResult, same]
    exact ⟨rfl, rfl⟩

/-- For every list of well-formed packets, the parser visits one header for
    each packet, in order, and prints what the packets carry. -/
theorem parse_wire (packets : List Packet) (beyond : Memory) (small : (wire packets).length < 2 ^ 31) :
    parseUdpPacket (buffer (wire packets) beyond) (wire packets).length =
      (reports 0 packets, .done (wire packets).length) := by
  obtain ⟨events, result⟩ := walk_wire small packets 0 (holds_buffer _ beyond) (Nat.zero_add _)
  rw [parseUdpPacket, events, result]

/-- A sender report with no report blocks, and a goodbye. -/
private def senderReport : Packet where
  version := 2
  padding := 0
  rc := 0
  ssrc := 0x12345678
  content := .senderReport ⟨0x83AA7E80, 0, 160, 7, 0x80000001⟩ []
  aligned := by decide
  short := by decide
private def goodbye : Packet where
  version := 2
  padding := 0
  rc := 1
  ssrc := 0x12345678
  content := .other 203 (by decide) []
  aligned := by decide
  short := by decide

theorem parse_report_goodbye :
    (wire [senderReport, goodbye]).length < 2 ^ 31 ∧
      parseUdpPacket (buffer (wire [senderReport, goodbye]) (fun _ => 0)) (wire [senderReport, goodbye]).length =
        (reports 0 [senderReport, goodbye], .done (wire [senderReport, goodbye]).length) :=
  ⟨by decide, parse_wire [senderReport, goodbye] (fun _ => 0) (by decide)⟩

/-! ### Encodings are compounds -/

/-- An encoded packet is complete, with room for all that the parser reads. -/
theorem encode_complete (p : Packet) : Complete p.encode := by
  have size := encode_length p
  have length : RtcpBounds.lengthField p.encode = p.lengthField := by
    simp only [RtcpBounds.lengthField, Packet.encode, big16, List.cons_append, List.getD_cons_succ,
      List.getD_cons_zero, join16_bytes, BitVec.toNat_ofNat]
    exact Nat.mod_eq_of_lt p.short
  have type : p.encode.getD 1 0 = p.content.payloadtype := by
    simp only [Packet.encode, List.getD_cons_succ, List.getD_cons_zero]
  have needed : neededSize p.encode ≤ p.encode.length := by
    rw [neededSize, type, size, Packet.lengthField]
    cases contents : p.content with
    | senderReport info blocks =>
      simp only [Content.payloadtype, Content.bytes, big32, List.length_append, List.length_cons, List.length_nil,
        ↓reduceIte]
      omega
    | other payloadtype distinct body =>
      have plain : ¬ payloadtype = 200 := distinct
      simp only [Content.payloadtype, plain, ↓reduceIte]
      omega
  have declared : p.encode.length = RtcpBounds.declaredSize p.encode := by
    rw [size, RtcpBounds.declaredSize, length]
  exact ⟨⟨needed, by omega⟩, declared⟩

/-- The parser reads no byte outside an encoded compound or the packets it stands on. -/
theorem wire_safe (packets : List Packet) (beyond : Memory) (small : (wire packets).length < 2 ^ 31) :
    Safe (wire packets).length (parseUdpPacket (buffer (wire packets) beyond) (wire packets).length) := by
  refine (walk_safe_iff _ _ 0 (by omega)).mpr ⟨packets.map Packet.encode, [], ?_, ?_, ?_, .inl rfl, ?_⟩
  · simpa [wire, List.flatMap] using holds_buffer (wire packets) beyond
  · simp [wire, List.flatMap]
  · intro p member
    obtain ⟨q, _, rfl⟩ := List.mem_map.mp member
    exact encode_complete q
  · simpa [extent, wire, List.flatMap] using small

end WinMiniTools.RtcpWire
