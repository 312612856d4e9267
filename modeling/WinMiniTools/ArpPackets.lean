import WinMiniTools.DottedQuads

/-!
The packets of the network scanner (`LocalAreaNetworkScan.cpp`): the packed
structures of an Ethernet frame that carries ARP, their bytes in memory, and
their overlay on captured bytes. `Winsock` is what the scanner uses of the
address functions of the system; `dottedQuads` is an instance of it.
-/
namespace WinMiniTools.ArpPackets
open WinMiniTools.Words

def ETH_ARP : BitVec 16 := 0x0806
def ARP_HARDWARE : BitVec 16 := 1
def ETH_IP : BitVec 16 := 0x0800
def ARP_REQUEST : BitVec 16 := 1
def ARP_REPLY : BitVec 16 := 2

def htons : BitVec 16 → BitVec 16 := swap16
def htonl : BitVec 32 → BitVec 32 := swap32

/-! ### Addresses as text -/

/-- `inet_ntop` for `AF_INET` and `inet_addr`. An address is the number that the
    machine loads from its four bytes, so its first octet is the lowest byte. -/
structure Winsock where
  inetNtop : BitVec 32 → List Char
  inetAddr : List Char → BitVec 32
  inverse : ∀ a, inetAddr (inetNtop a) = a
  width : ∀ a, 7 ≤ (inetNtop a).length ∧ (inetNtop a).length ≤ 15

/-- Every address has a text. -/
theorem Winsock.inetNtop_length_pos (W : Winsock) (a : BitVec 32) : 0 < (W.inetNtop a).length := by
  have shortest := (W.width a).1
  omega

/-- `INADDR_NONE`, with which `inet_addr` reports an error. -/
def INADDR_NONE : BitVec 32 := 0xffffffff

/-- Addresses as dotted quads. -/
def dottedQuads : Winsock where
  inetNtop := DottedQuads.write
  inetAddr := DottedQuads.read
  inverse := DottedQuads.read_write
  width := DottedQuads.write_length

/-! ### Packed structures -/

abbrev Mac := Vector Byte 6

structure EthernetHeader where
  destMAC : Mac
  sourMAC : Mac
  ethType : BitVec 16

/-- Fields of more than one byte hold what the machine loads from them. -/
structure Arpheader where
  hardwareType : BitVec 16
  protocolType : BitVec 16
  hardwareAddLen : Byte
  protocolAddLen : Byte
  operationField : BitVec 16
  sMac : Mac
  sIp : BitVec 32
  destMacAdd : Mac
  destIpAdd : BitVec 32

structure ArpPacket where
  ed : EthernetHeader
  ah : Arpheader

/-- The fourteen bytes of `EthernetHeader`. -/
def EthernetHeader.bytes (eh : EthernetHeader) : List Byte :=
  eh.destMAC.toList ++ (eh.sourMAC.toList ++ store16 eh.ethType)

/-- The twenty-eight bytes of `Arpheader`. -/
def Arpheader.bytes (ah : Arpheader) : List Byte :=
  store16 ah.hardwareType ++ (store16 ah.protocolType ++ ([ah.hardwareAddLen, ah.protocolAddLen] ++
    (store16 ah.operationField ++ (ah.sMac.toList ++ (store32 ah.sIp ++ (ah.destMacAdd.toList ++
      store32 ah.destIpAdd))))))

theorem ethernetHeader_length (eh : EthernetHeader) : eh.bytes.length = 14 := by
  simp [EthernetHeader.bytes]

theorem arpheader_length (ah : Arpheader) : ah.bytes.length = 28 := by
  simp [Arpheader.bytes]

def macAt (mem : Memory) (a : Nat) : Mac := Vector.ofFn (fun i => mem (a + i.val))

/-- `(ArpPacket*)pkt_data`. -/
def arpPacketAt (mem : Memory) : ArpPacket where
  ed :=
    { destMAC := macAt mem 0
      sourMAC := macAt mem 6
      ethType := load16 mem 12 }
  ah :=
    { hardwareType := load16 mem 14
      protocolType := load16 mem 16
      hardwareAddLen := mem 18
      protocolAddLen := mem 19
      operationField := load16 mem 20
      sMac := macAt mem 22
      sIp := load32 mem 28
      destMacAdd := macAt mem 32
      destIpAdd := load32 mem 38 }

theorem macAt_of_holds {mem : Memory} {a : Nat} {mac : Mac} (holds : Holds mem a mac.toList) : macAt mem a = mac := by
  apply Vector.ext
  intro i inside
  have byte := holds i (by simpa using inside)
  simpa [macAt] using byte

/-- The structure laid over the bytes of a structure has its fields. -/
theorem arpPacketAt_of_holds {mem : Memory} {p : ArpPacket} (holds : Holds mem 0 (p.ed.bytes ++ p.ah.bytes)) :
    arpPacketAt mem = p := by
  simp only [holds_append, ethernetHeader_length, Nat.zero_add] at holds
  obtain ⟨ethernet, arp⟩ := holds
  simp only [EthernetHeader.bytes, Arpheader.bytes, holds_append, holds_cons, Vector.length_toList, store16_length,
    store32_length, List.length_cons, List.length_nil, Nat.zero_add, Nat.reduceAdd] at ethernet arp
  obtain ⟨dest, sour, type⟩ := ethernet
  obtain ⟨hardware, protocol, ⟨hardwareLen, protocolLen, _⟩, operation, sMac, sIp, destMac, destIp⟩ := arp
  simp only [arpPacketAt, macAt_of_holds dest, macAt_of_holds sour, load_store16 type, load_store16 hardware,
    load_store16 protocol, hardwareLen, protocolLen, load_store16 operation, macAt_of_holds sMac, load_store32 sIp,
    macAt_of_holds destMac, load_store32 destIp]

end WinMiniTools.ArpPackets
