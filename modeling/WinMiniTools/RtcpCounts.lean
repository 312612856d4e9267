import WinMiniTools.Formats
import WinMiniTools.RtcpWire
import WinMiniTools.Tokens

/-!
What the parser of RTCP packets prints, and the counts that can be read from it.
Every iteration prints a line, and a sender report one more with its counters,
so the numbers of these lines are those of the sender reports in order
(`shown_output`). The counters have no sign, but their conversion is `%d`: what
is read from the output is what the reports carry exactly when no counter has
reached `2 ^ 31` (`counts_shown_iff`).
-/
namespace WinMiniTools.RtcpCounts
open WinMiniTools.Words WinMiniTools.Loops WinMiniTools.RtcpParser WinMiniTools.RtcpWire
open WinMiniTools.Tokens WinMiniTools.Formats

/-! ### What is printed -/

def headerFormat : List Char :=
  "ssrc: 0x%08x ver: %d, padding: %d, rc: %d, type: %d, paloadlen: %d\n".toList
def countsFormat : List Char := "octetCnt:%d, packetCnt: %d\n".toList

/-- The arguments of the line of every iteration; what is narrower than an `int`
    is passed as one. -/
def headerWords (r : Report) : List (BitVec 32) :=
  [r.ssrc, r.ver.setWidth 32, r.padding.setWidth 32, r.rc.setWidth 32, r.type.setWidth 32, BitVec.ofNat 32 r.paloadlen]
def headerLine (r : Report) : List Char := printf headerFormat ((headerWords r).map .word)

/-- The second line of a sender report. -/
def countsLine (counts : SenderCounts) : List Char :=
  printf countsFormat (List.map .word [counts.octetCnt, counts.packetCnt])

def text (r : Report) : List Char :=
  headerLine r ++ match r.senderCounts with
    | none => []
    | some counts => countsLine counts

/-- All that `parse_udp_packet` prints. -/
def output (run : List Report × Ending) : List Char := run.1.flatMap text

/-! ### What a reader takes from it -/

def endsLine (c : Char) : Bool := c = '\n'

/-- The two numbers of a line that has both labels. -/
def readCounts (line : List Char) : Option (Int × Int) := do
  let (octetCnt, rest) ← Decimals.read (← line.dropPrefix? "octetCnt:".toList)
  let (packetCnt, _) ← Decimals.read (← rest.dropPrefix? ", packetCnt: ".toList)
  return (octetCnt, packetCnt)

def shown (text : List Char) : List (Int × Int) := (tokens endsLine text).filterMap readCounts

/-! ### Lines -/

theorem word_unbroken (k : Conversion) (w : BitVec 32) : Unbroken endsLine (write k (.word w)) := by
  intro c member
  cases k with
  | decimal =>
    rcases Decimals.write_chars member with rfl | digit
    · rfl
    · apply decide_eq_false
      rintro rfl
      exact absurd digit (by decide)
  | hex8 =>
    have digits : "0123456789abcdef".toList.all (fun c => !endsLine c) = true := by decide
    exact unbroken_of_all digits c (hex_chars member)
  | string => cases member
  | pointer => cases member

/-- Words never end a line, so the characters of the format decide. -/
theorem render_unbroken {ps : List Piece} (letters : (plain ps).all (fun c => !endsLine c) = true)
    (words : List (BitVec 32)) : Unbroken endsLine (render ps (words.map .word)) := by
  intro c member
  rcases mem_render member with unchanged | ⟨k, arg, among, inside⟩
  · exact unbroken_of_all letters c unchanged
  · obtain ⟨w, _, rfl⟩ := List.mem_map.mp among
    exact word_unbroken k w c inside

/-- The header line without its end starts with a letter that starts no counts. -/
theorem headerLine_eq (r : Report) :
    ∃ rest, headerLine r = 's' :: rest ++ ['\n'] ∧ Unbroken endsLine ('s' :: rest) := by
  obtain ⟨front, split, enough, letters⟩ : ∃ front, pieces headerFormat = .plain 's' :: (front ++ [.plain '\n']) ∧
      (conversions front).length ≤ ((headerWords r).map Arg.word).length ∧ (plain front).all (fun c => !endsLine c) = true :=
    ⟨(pieces headerFormat).tail.dropLast, by decide +kernel, of_decide_eq_true rfl, by decide +kernel⟩
  have start : Unbroken endsLine ['s'] := unbroken_of_all rfl
  refine ⟨render front ((headerWords r).map .word), ?_, unbroken_append start (render_unbroken letters _)⟩
  rw [headerLine, printf, split, render, render_append front enough]
  rfl

theorem countsLine_eq (counts : SenderCounts) :
    countsLine counts = ("octetCnt:".toList ++ (Decimals.write counts.octetCnt.toInt ++
      (", packetCnt: ".toList ++ Decimals.write counts.packetCnt.toInt))) ++ ['\n'] := by
  have split : pieces countsFormat = "octetCnt:".toList.map .plain ++ .converts .decimal ::
      (", packetCnt: ".toList.map .plain ++ [.converts .decimal, .plain '\n']) := by decide +kernel
  rw [countsLine, printf, split, render_plain, List.map_cons, render, render_plain, List.map_cons, render,
    List.append_assoc, List.append_assoc, List.append_assoc]
  rfl

theorem readCounts_write (octetCnt packetCnt : Int) :
    readCounts ("octetCnt:".toList ++ (Decimals.write octetCnt ++
      (", packetCnt: ".toList ++ Decimals.write packetCnt))) = some (octetCnt, packetCnt) := by
  have behind (label rest : List Char) : (label ++ rest).dropPrefix? label = some rest :=
    List.dropPrefix?_eq_some_iff.mpr ⟨label, rfl, BEq.rfl⟩
  have ends : Decimals.Ends (", packetCnt: ".toList ++ Decimals.write packetCnt) :=
    Decimals.ends_cons (c := ',') (by decide) _
  have last : Decimals.read (Decimals.write packetCnt) = some (packetCnt, []) := by
    simpa using Decimals.read_write packetCnt Decimals.ends_nil
  simp only [readCounts, behind, Decimals.read_write octetCnt ends, last, Option.bind_eq_bind, Option.bind_some]
  rfl

/-! ### Reading the output -/

theorem shown_line {line : List Char} (some : line ≠ []) (unbroken : Unbroken endsLine line) (rest : List Char) :
    shown (line ++ ['\n'] ++ rest) = (readCounts line).toList ++ shown rest := by
  have split : tokens endsLine (line ++ ['\n'] ++ rest) = line :: tokens endsLine rest := by
    have newline : Starts endsLine (['\n'] ++ rest) := starts_cons rfl rest
    rw [List.append_assoc, tokens_token some unbroken newline]
    exact congrArg _ (tokens_separator rfl rest)
  rw [shown, split, List.filterMap_cons]
  cases readCounts line <;> rfl

/-- The numbers that the conversions write. -/
def printed (counts : SenderCounts) : Int × Int := (counts.octetCnt.toInt, counts.packetCnt.toInt)

theorem shown_countsLine (counts : SenderCounts) (rest : List Char) :
    shown (countsLine counts ++ rest) = printed counts :: shown rest := by
  have unbroken : Unbroken endsLine ("octetCnt:".toList ++ (Decimals.write counts.octetCnt.toInt ++
      (", packetCnt: ".toList ++ Decimals.write counts.packetCnt.toInt))) :=
    unbroken_append (unbroken_of_all (by decide)) (unbroken_append (word_unbroken .decimal counts.octetCnt)
      (unbroken_append (unbroken_of_all (by decide)) (word_unbroken .decimal counts.packetCnt)))
  rw [countsLine_eq, shown_line (List.append_ne_nil_of_left_ne_nil (by decide) _) unbroken, readCounts_write]
  rfl

theorem shown_text (r : Report) (rest : List Char) :
    shown (text r ++ rest) = (r.senderCounts.map printed).toList ++ shown rest := by
  obtain ⟨letters, header, unbroken⟩ := headerLine_eq r
  have other : readCounts ('s' :: letters) = none := rfl
  rw [text, header, List.append_assoc, shown_line (List.cons_ne_nil _ _) unbroken, other]
  cases r.senderCounts with
  | none => rfl
  | some counts => exact shown_countsLine counts rest

/-- From the output of a run the counts of its sender reports are read, in order. -/
theorem shown_output (run : List Report × Ending) :
    shown (output run) = run.1.filterMap (fun r => r.senderCounts.map printed) := by
  obtain ⟨reports, ending⟩ := run
  induction reports with
  | nil => exact congrArg _ tokens_nil
  | cons r reports ih =>
    have here : output (r :: reports, ending) = text r ++ output (reports, ending) := List.flatMap_cons
    rw [here, shown_text, ih, List.filterMap_cons]
    cases r.senderCounts.map printed <;> rfl

/-! ### Captures -/

/-- A well-formed compound, as long as an `int` can say. -/
structure Capture where
  packets : List Packet
  small : (wire packets).length < 2 ^ 31

/-- What a sender report carries, and for which sender. -/
structure Sent where
  ssrc : BitVec 32
  octets : BitVec 32
  packets : BitVec 32
  deriving DecidableEq

def sent (p : Packet) : Option Sent :=
  match p.content with
  | .senderReport info _ => some { ssrc := p.ssrc, octets := info.octetCount, packets := info.packetCount }
  | .other _ _ _ => none

/-- The sender reports of captures, in order. -/
def carried (captures : List Capture) : List Sent := captures.flatMap (fun c => c.packets.filterMap sent)

/-- The counts that are read from what the parser prints for captures. -/
def readings (beyond : Memory) (captures : List Capture) : List (Int × Int) :=
  captures.flatMap (fun c => shown (output (parseUdpPacket (buffer (wire c.packets) beyond) (wire c.packets).length)))

/-- What is read is what the reports carry; and while the counters of a sender
    have not wrapped, a later report never shows a smaller count. -/
structure CountsShown (beyond : Memory) (captures : List Capture) : Prop where
  counters : readings beyond captures =
    (carried captures).map (fun s => ((s.octets.toNat : Int), (s.packets.toNat : Int)))
  growing : ((carried captures).zip (readings beyond captures)).Pairwise (fun earlier later =>
    earlier.1.ssrc = later.1.ssrc → earlier.1.octets ≤ later.1.octets → earlier.1.packets ≤ later.1.packets →
      earlier.2.1 ≤ later.2.1 ∧ earlier.2.2 ≤ later.2.2)

theorem reports_counts (offset : Nat) (packets : List Packet) :
    (reports offset packets).filterMap (fun r => r.senderCounts.map printed) =
      (packets.filterMap sent).map (fun s => (s.octets.toInt, s.packets.toInt)) := by
  induction packets generalizing offset with
  | nil => rfl
  | cons p packets ih =>
    have here : (p.report offset).senderCounts.map printed =
        (sent p).map (fun s => (s.octets.toInt, s.packets.toInt)) := by
      rw [Packet.report, sent]
      cases p.content <;> rfl
    rw [reports, List.filterMap_cons, here, ih, List.filterMap_cons]
    cases sent p <;> rfl

/-- The counters are read as numbers with a sign. -/
theorem readings_eq (beyond : Memory) (captures : List Capture) :
    readings beyond captures = (carried captures).map (fun s => (s.octets.toInt, s.packets.toInt)) := by
  rw [readings, carried, List.map_flatMap]
  apply List.flatMap_congr
  intro c _
  obtain ⟨events, _⟩ := walk_wire c.small c.packets 0 (holds_buffer _ beyond) (Nat.zero_add _)
  rw [shown_output, parseUdpPacket, events, reports_counts]

theorem toInt_eq_toNat_iff (w : BitVec 32) : w.toInt = w.toNat ↔ w.toNat < 2 ^ 31 := by
  rw [BitVec.toInt_eq_toNat_cond]
  split <;> omega

/-- The counters are shown exactly when none of them has its highest bit set. -/
theorem counts_shown_iff (beyond : Memory) (captures : List Capture) :
    CountsShown beyond captures ↔
      ∀ s ∈ carried captures, s.octets.toNat < 2 ^ 31 ∧ s.packets.toNat < 2 ^ 31 := by
  constructor
  · intro shown s member
    have numbers := shown.counters
    rw [readings_eq, List.map_inj_left] at numbers
    obtain ⟨octets, packets⟩ := Prod.mk.inj (numbers s member)
    exact ⟨(toInt_eq_toNat_iff _).mp octets, (toInt_eq_toNat_iff _).mp packets⟩
  · intro low
    have same : ∀ s ∈ carried captures, (s.octets.toInt, s.packets.toInt) =
        ((s.octets.toNat : Int), (s.packets.toNat : Int)) := by
      intro s member
      rw [(toInt_eq_toNat_iff _).mpr (low s member).1, (toInt_eq_toNat_iff _).mpr (low s member).2]
    have numbers : readings beyond captures =
        (carried captures).map (fun s => ((s.octets.toNat : Int), (s.packets.toNat : Int))) := by
      rw [readings_eq]
      exact List.map_congr_left same
    refine ⟨numbers, ?_⟩
    rw [numbers, ← List.map_prod_left_eq_zip, List.pairwise_map]
    apply List.pairwise_of_forall
    intro earlier later _ octets packets
    exact ⟨Int.ofNat_le.mpr octets, Int.ofNat_le.mpr packets⟩

/-- A sender whose octet count passes `2 ^ 31` between two reports. -/
private def longSession : List Capture :=
  [⟨[{ version := 2, padding := 0, rc := 0, ssrc := 0x12345678, content := .senderReport ⟨0, 0, 0, 9, 0x7FFFFFFF⟩ [],
       aligned := by decide, short := by decide }], by decide⟩,
    ⟨[{ version := 2, padding := 0, rc := 0, ssrc := 0x12345678, content := .senderReport ⟨1, 0, 0, 10, 0x80000000⟩ [],
        aligned := by decide, short := by decide }], by decide⟩]

/-- The second report shows -2147483648 octets, after 2147483647 in the first. -/
theorem long_session_shows_less : ¬ CountsShown (fun _ => 0) longSession := by
  intro shown
  have growing := shown.growing
  rw [readings_eq] at growing
  revert growing
  decide

end WinMiniTools.RtcpCounts
