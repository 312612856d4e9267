import WinMiniTools.RtcpParser
import WinMiniTools.TextStreams

/-!
The parser's `main`: it reads a captured datagram from a file into a zeroed
buffer and parses as many bytes as it has read. The file is opened as a text
stream, so the datagram arrives as it was captured exactly when it has neither
a byte 0x1A nor a carriage return before a line feed (`captured_faithful_iff`).
-/
namespace WinMiniTools.RtcpFile
open WinMiniTools.Words WinMiniTools.RtcpParser WinMiniTools.TextStreams

/-- The stream that a mode string of `fopen` asks for. -/
def fopen (mode : List Char) : Mode := if 'b' ∈ mode then .binary else .text

/-- `fread`, of single bytes. -/
def fread (stream : List Byte) (count : Nat) : List Byte := stream.take count

/-- `sizeof(udp_packet)`. -/
def udp_length : Nat := 2048

/-- `udp_packet` with the given bytes at its start, and the memory behind it. -/
def udpPacket (bytes : List Byte) (beyond : Memory) : Memory :=
  buffer (bytes ++ List.replicate (udp_length - bytes.length) 0) beyond

/-- What `main` reads of a file that it can open. -/
def packRead (file : List Byte) : List Byte := fread (delivered (fopen ['r']) file) udp_length

/-- The arguments of `parse_udp_packet`. -/
def handed (file : List Byte) (beyond : Memory) : Memory × Nat :=
  let nPackSize := (packRead file).length
  (udpPacket (packRead file) beyond, nPackSize)

def main (file : List Byte) (beyond : Memory) : List Report × Ending :=
  parseUdpPacket (handed file beyond).1 (handed file beyond).2

/-- The file is handed to the parser as it is, and its records are reported. -/
structure Faithful (file : List Byte) (beyond : Memory) : Prop where
  size : (handed file beyond).2 = file.length
  bytes : Holds (handed file beyond).1 0 file
  records : main file beyond = parseUdpPacket (udpPacket file beyond) file.length

theorem packRead_text (file : List Byte) : packRead file = (text file).take udp_length := rfl

theorem faithful_of_read {file : List Byte} (read : packRead file = file) (beyond : Memory) :
    Faithful file beyond := by
  have same : handed file beyond = (udpPacket file beyond, file.length) := by
    unfold handed
    rw [read]
  refine ⟨by rw [same], ?_, by rw [main, same]⟩
  rw [same]
  have whole : Holds (udpPacket file beyond) 0 (file ++ List.replicate (udp_length - file.length) 0) :=
    holds_buffer _ beyond
  exact ((holds_append ..).mp whole).1

/-- A datagram that fits the buffer is parsed as captured exactly when a text
    stream delivers it unchanged. -/
theorem captured_faithful_iff {file : List Byte} (fits : file.length ≤ udp_length) (beyond : Memory) :
    Faithful file beyond ↔ Plain file := by
  have short := (text_length file).1
  have read : packRead file = text file := by
    rw [packRead_text]
    exact List.take_of_length_le (by omega)
  constructor
  · intro faithful
    have size : (packRead file).length = file.length := faithful.size
    rw [read] at size
    exact (text_length file).2.mp size
  · intro plain
    exact faithful_of_read (by rw [read, (text_eq_iff file).mpr plain]) beyond

/-- A goodbye of the source 0x0D0C0B0A arrives whole. -/
theorem faithful_goodbye :
    [0x81, 0xCB, 0x00, 0x01, 0x0D, 0x0C, 0x0B, 0x0A].length ≤ udp_length ∧
      Faithful [0x81, 0xCB, 0x00, 0x01, 0x0D, 0x0C, 0x0B, 0x0A] (fun _ => 0) :=
  ⟨by decide, (captured_faithful_iff (by decide) (fun _ => 0)).mpr (by decide)⟩

/-- A goodbye of the source 0x1A0C0B0A is cut off after its length field. -/
theorem control_z_cuts : ¬ Faithful [0x81, 0xCB, 0x00, 0x01, 0x1A, 0x0C, 0x0B, 0x0A] (fun _ => 0) := by
  intro faithful
  have size := faithful.size
  revert size
  decide

end WinMiniTools.RtcpFile
