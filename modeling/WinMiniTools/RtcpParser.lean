import WinMiniTools.Words
import WinMiniTools.Loops

/-!
The parser of RTCP compound packets (`RTCP_Parser/main.cpp`). `parseUdpPacket`
lays `RtcpHeader` over the buffer at its offset, prints the header, prints the
counters of a sender report when the payload type is 200, and steps over the
number of words that the length field of the header gives. The target is
little-endian and allocates bit-fields from the low bit up.
-/
namespace WinMiniTools.RtcpParser
open WinMiniTools.Words WinMiniTools.Loops

/-- `struct RTCP_Header`, its two wider fields still in network byte order. -/
structure RtcpHeader where
  rc : BitVec 5
  padding : BitVec 1
  version : BitVec 2
  payloadtype : BitVec 8
  length : BitVec 16
  ssrc : BitVec 32

/-- `struct Rtcp_SR`, in network byte order. -/
structure RtcpSr where
  ntpTimestampMSW : BitVec 32
  ntpTimestampLSW : BitVec 32
  rtpTimestamp : BitVec 32
  senderPacketCnt : BitVec 32
  senderOctetCnt : BitVec 32

/-- `(RTCP_Header*)(packet + a)`: the four bit-fields share the first sixteen bits. -/
def rtcpHeader (packet : Memory) (a : Nat) : RtcpHeader where
  rc := (load16 packet a).extractLsb' 0 5
  padding := (load16 packet a).extractLsb' 5 1
  version := (load16 packet a).extractLsb' 6 2
  payloadtype := (load16 packet a).extractLsb' 8 8
  length := load16 packet (a + 2)
  ssrc := load32 packet (a + 4)

/-- `(Rtcp_SR*)(packet + a)`. -/
def rtcpSr (packet : Memory) (a : Nat) : RtcpSr where
  ntpTimestampMSW := load32 packet a
  ntpTimestampLSW := load32 packet (a + 4)
  rtpTimestamp := load32 packet (a + 8)
  senderPacketCnt := load32 packet (a + 12)
  senderOctetCnt := load32 packet (a + 16)

/-- The values of the second line, which only a sender report gets. -/
structure SenderCounts where
  octetCnt : BitVec 32
  packetCnt : BitVec 32
  deriving DecidableEq, Repr

/-- The values that one iteration prints, and the offset it prints them for. -/
structure Report where
  offset : Nat
  ssrc : BitVec 32
  ver : BitVec 2
  padding : BitVec 1
  rc : BitVec 5
  type : BitVec 8
  paloadlen : Nat
  senderCounts : Option SenderCounts
  deriving DecidableEq, Repr

def ntohs : BitVec 16 → BitVec 16 := swap16
def ntohl : BitVec 32 → BitVec 32 := swap32

/-- The prints of the iteration at an offset. -/
def report (packet : Memory) (offset : Nat) : Report :=
  let pHeader := rtcpHeader packet offset
  { offset := offset
    ssrc := ntohl pHeader.ssrc
    ver := pHeader.version
    padding := pHeader.padding
    rc := pHeader.rc
    type := pHeader.payloadtype
    paloadlen := 4 * (ntohs pHeader.length).toNat
    senderCounts :=
      if pHeader.payloadtype = 200 then
        let pstSR := rtcpSr packet (offset + 8)
        some { octetCnt := ntohl pstSR.senderOctetCnt, packetCnt := ntohl pstSR.senderPacketCnt }
      else none }

/-- How the loop ends: past the packet, or in an addition that no `int` holds,
    after which nothing is defined. -/
inductive Ending where
  | done (offset : Nat)
  | overflow
  deriving DecidableEq, Repr

/-- The loop of `parse_udp_packet`, over its offset. -/
def walk (packet : Memory) (packet_length : Nat) : Loop Nat Report Ending where
  body offset :=
    if offset < packet_length then
      let next := offset + (4 * (ntohs (rtcpHeader packet offset).length).toNat + 4)
      ([report packet offset], if next < 2 ^ 31 then .inl next else .inr .overflow)
    else ([], .inr (.done offset))
  weight offset := packet_length - offset
  progress := by
    intro s t next
    by_cases more : s < packet_length
    · simp only [more, ↓reduceIte] at next
      split at next
      · cases next; omega
      · cases next
    · simp [more] at next

/-- `parse_udp_packet`: the prints of its iterations, and how it ends. -/
def parseUdpPacket (packet : Memory) (packet_length : Nat) : List Report × Ending :=
  ((walk packet packet_length).events 0, (walk packet packet_length).result 0)

/-! ### The addresses that an iteration reads -/

/-- The eight bytes of the header, and the two counters of a sender report. -/
def Report.reads (r : Report) : List Nat :=
  List.range' r.offset 8 ++ (if r.senderCounts.isSome then List.range' (r.offset + 20) 8 else [])

theorem mem_reads (r : Report) (a : Nat) :
    a ∈ r.reads ↔ (r.offset ≤ a ∧ a < r.offset + 8) ∨
      (r.senderCounts.isSome ∧ r.offset + 20 ≤ a ∧ a < r.offset + 28) := by
  simp only [Report.reads, List.mem_append, List.mem_range'_1]
  split
  · rename_i counts
    simp [counts, Nat.add_assoc]
  · rename_i counts
    simp [counts]

theorem senderCounts_isSome (packet : Memory) (offset : Nat) :
    (report packet offset).senderCounts.isSome ↔ (report packet offset).type = 200 := by
  by_cases sender : (rtcpHeader packet offset).payloadtype = 200 <;> simp [report, sender]

/-- What an iteration prints depends on no byte that it does not read. -/
theorem report_congr {packet other : Memory} {offset : Nat}
    (agree : ∀ a ∈ (report packet offset).reads, packet a = other a) :
    report packet offset = report other offset := by
  have header : ∀ j, j < 8 → packet (offset + j) = other (offset + j) := fun j small =>
    agree _ ((mem_reads _ _).mpr (.inl ⟨Nat.le_add_right _ _, Nat.add_lt_add_left small offset⟩))
  have unit : load16 packet offset = load16 other offset :=
    load16_congr (fun i small => header i (by omega))
  have length : load16 packet (offset + 2) = load16 other (offset + 2) :=
    load16_congr (fun i small => by rw [Nat.add_assoc]; exact header (2 + i) (by omega))
  have ssrc : load32 packet (offset + 4) = load32 other (offset + 4) :=
    load32_congr (fun i small => by rw [Nat.add_assoc]; exact header (4 + i) (by omega))
  have same : rtcpHeader packet offset = rtcpHeader other offset := by
    simp only [rtcpHeader, unit, length, ssrc]
  by_cases sender : (rtcpHeader packet offset).payloadtype = 200
  · have counter : ∀ j, 20 ≤ j → j < 28 → packet (offset + j) = other (offset + j) := fun j low high =>
      agree _ ((mem_reads _ _).mpr (.inr ⟨(senderCounts_isSome _ _).mpr sender, Nat.add_le_add_left low offset,
        Nat.add_lt_add_left high offset⟩))
    have packets : load32 packet (offset + 8 + 12) = load32 other (offset + 8 + 12) :=
      load32_congr (fun i small => by simp only [Nat.add_assoc]; exact counter (8 + (12 + i)) (by omega) (by omega))
    have octets : load32 packet (offset + 8 + 16) = load32 other (offset + 8 + 16) :=
      load32_congr (fun i small => by simp only [Nat.add_assoc]; exact counter (8 + (16 + i)) (by omega) (by omega))
    simp only [report, rtcpSr, ← same, packets, octets]
  · simp only [report, ← same, sender, ↓reduceIte]

/-! ### One iteration -/

theorem walk_done {packet : Memory} {packet_length offset : Nat} (past : packet_length ≤ offset) :
    (walk packet packet_length).events offset = [] ∧
      (walk packet packet_length).result offset = .done offset := by
  have body : (walk packet packet_length).body offset = ([], .inr (.done offset)) := if_neg (by omega)
  exact ⟨Loop.events_leave _ body, Loop.result_leave _ body⟩

theorem walk_body {packet : Memory} {packet_length offset : Nat} (more : offset < packet_length)
    (fits : offset + ((report packet offset).paloadlen + 4) < 2 ^ 31) :
    (walk packet packet_length).body offset =
      ([report packet offset], .inl (offset + ((report packet offset).paloadlen + 4))) := by
  simp only [walk, more, ↓reduceIte]
  exact congrArg (Prod.mk _) (if_pos fits)

theorem walk_next {packet : Memory} {packet_length offset : Nat} (more : offset < packet_length)
    (fits : offset + ((report packet offset).paloadlen + 4) < 2 ^ 31) :
    (walk packet packet_length).events offset = report packet offset ::
        (walk packet packet_length).events (offset + ((report packet offset).paloadlen + 4)) ∧
      (walk packet packet_length).result offset =
        (walk packet packet_length).result (offset + ((report packet offset).paloadlen + 4)) :=
  ⟨Loop.events_next _ (walk_body more fits), Loop.result_next _ (walk_body more fits)⟩

theorem walk_overflow {packet : Memory} {packet_length offset : Nat} (more : offset < packet_length)
    (large : 2 ^ 31 ≤ offset + ((report packet offset).paloadlen + 4)) :
    (walk packet packet_length).events offset = [report packet offset] ∧
      (walk packet packet_length).result offset = .overflow := by
  have body : (walk packet packet_length).body offset = ([report packet offset], .inr .overflow) := by
    simp only [walk, more, ↓reduceIte]
    exact congrArg (Prod.mk _) (if_neg (by simpa [report] using large))
  exact ⟨Loop.events_leave _ body, Loop.result_leave _ body⟩

end WinMiniTools.RtcpParser
