import WinMiniTools.SubnetSweep

/-!
The frames that a sweep sends. Whatever the own address, the netmask and the
hardware address are, each of them is the ARP request for Ethernet and IPv4 that
asks the address at its index from the network address on, and `ArpPacket` laid
over it has the fields it was made of (`sweep_requests`).
-/
namespace WinMiniTools.ArpRequests
open WinMiniTools.Words WinMiniTools.BitCounts WinMiniTools.ArpPackets WinMiniTools.SubnetSweep

/-- The forty-two bytes of a request: Ethernet header, format, sender, target. -/
def request (mac : Mac) (own asked : BitVec 32) : List Byte :=
  List.replicate 6 0xff ++ (mac.toList ++ ([0x08, 0x06] ++
    ([0x00, 0x01, 0x08, 0x00, 0x06, 0x04, 0x00, 0x01] ++
      (mac.toList ++ (big32 own ++ (List.replicate 6 0x00 ++ big32 asked))))))

/-- What the fields of a request hold, words as the machine loads them. -/
def fields (mac : Mac) (own asked : BitVec 32) : ArpPacket where
  ed :=
    { destMAC := Vector.replicate 6 0xff
      sourMAC := mac
      ethType := htons 0x0806 }
  ah :=
    { hardwareType := htons 1
      protocolType := htons 0x0800
      hardwareAddLen := 6
      protocolAddLen := 4
      operationField := htons 1
      sMac := mac
      sIp := htonl own
      destMacAdd := Vector.replicate 6 0x00
      destIpAdd := htonl asked }

/-- The address at an index of the sweep. -/
def asked (ip mask : BitVec 32) (i : Nat) : BitVec 32 := BitVec.ofNat 32 (network ip mask + i)

/-- The buffers that a run hands to `pcap_sendpacket`, in order. -/
def SenderStep.sendbuf? : SenderStep → Option (List Byte)
  | .request sendbuf => some sendbuf
  | .sleep _ => none
  | .setFlag => none
def sent (run : Sender) : List (List Byte) := run.steps.filterMap SenderStep.sendbuf?

/-- The two headers are side by side, words most significant byte first. -/
theorem fields_bytes (mac : Mac) (own asked : BitVec 32) :
    (fields mac own asked).ed.bytes ++ (fields mac own asked).ah.bytes = request mac own asked := by
  have type : big16 0x0806 = [0x08, 0x06] := rfl
  have hardware : big16 1 = [0x00, 0x01] := rfl
  have protocol : big16 0x0800 = [0x08, 0x00] := rfl
  simp only [fields, EthernetHeader.bytes, Arpheader.bytes, htons, htonl, store16_swap16, store32_swap32,
    type, hardware, protocol, Vector.toList_replicate, request, List.append_assoc, List.cons_append,
    List.nil_append]

theorem sendbuf_request (W : Winsock) (ip mask : BitVec 32) (mac : Mac) (i : Nat) :
    sendbuf W (sparam W ip mask mac) i = request mac ip (asked ip mask i) := by
  have sum : (ip &&& mask) + BitVec.ofNat 32 i = asked ip mask i := by
    rw [asked, BitVec.ofNat_add, network, BitVec.ofNat_toNat, BitVec.setWidth_eq]
  rw [← fields_bytes]
  simp only [sendbuf, sparam, W.inverse, htonl, ← swap32_and, swap32_swap32, sum, fields,
    ETH_ARP, ARP_HARDWARE, ETH_IP, ARP_REQUEST]

/-- No address of a sweep is carried out of its thirty-two bits. -/
theorem asked_below (W : Winsock) {ip mask : BitVec 32} {mac : Mac} {nMaxIpNum : Int}
    (count : calculateSubnetHosts W (sparam W ip mask mac).ip (sparam W ip mask mac).netmask = .hosts nMaxIpNum)
    {i : Nat} (inside : (i : Int) < nMaxIpNum) : network ip mask + i < 2 ^ 32 := by
  obtain ⟨_, _, few, rfl⟩ := (hosts_iff ..).mp count
  simp only [sparam, W.inverse, htonl, ← swap32_not, ones_swap32] at few inside
  have block := two_pow_ones_le (~~~mask).toNat
  have cast : (2 : Int) ^ ones (~~~mask).toNat = ((2 ^ ones (~~~mask).toNat : Nat) : Int) := by norm_cast
  have base : network ip mask ≤ mask.toNat := by
    rw [network, BitVec.toNat_and]
    exact Nat.and_le_right
  have word := mask.isLt
  have complement : (~~~mask).toNat = 2 ^ 32 - 1 - mask.toNat := BitVec.toNat_not
  omega

/-- Every frame of a sweep, in order, and what the receiver reads from it. -/
theorem sweep_requests (W : Winsock) (ip mask : BitVec 32) (mac : Mac) {nMaxIpNum : Int}
    (count : calculateSubnetHosts W (sparam W ip mask mac).ip (sparam W ip mask mac).netmask = .hosts nMaxIpNum) :
    sent (sendArpPacket W (sparam W ip mask mac)) =
        (List.range nMaxIpNum.toNat).map (fun i => request mac ip (asked ip mask i)) ∧
      ∀ i : Nat, (i : Int) < nMaxIpNum →
        (asked ip mask i).toNat = network ip mask + i ∧
        ∀ beyond, arpPacketAt (buffer (request mac ip (asked ip mask i)) beyond) = fields mac ip (asked ip mask i) := by
  constructor
  · have tail : List.filterMap SenderStep.sendbuf? [.sleep 3000, .setFlag] = [] := rfl
    simp only [sent, sendArpPacket, count, Sender.steps, List.filterMap_append, List.filterMap_map, tail,
      List.append_nil, sendbuf_request]
    rw [← List.filterMap_eq_map]
    rfl
  · intro i inside
    constructor
    · rw [asked, BitVec.toNat_ofNat, Nat.mod_eq_of_lt (asked_below W count inside)]
    · intro beyond
      apply arpPacketAt_of_holds
      rw [fields_bytes]
      exact holds_buffer _ beyond

/-- A sweep of 10.1.254.254/22, whose addresses carry into the third octet. -/
theorem sweep_requests_22 :
    calculateSubnetHosts dottedQuads (sparam dottedQuads 0x0A01FEFE 0xFFFFFC00 (Vector.replicate 6 7)).ip
        (sparam dottedQuads 0x0A01FEFE 0xFFFFFC00 (Vector.replicate 6 7)).netmask = .hosts 1022 ∧
      (sent (sendArpPacket dottedQuads (sparam dottedQuads 0x0A01FEFE 0xFFFFFC00 (Vector.replicate 6 7))))[300]? =
        some (request (Vector.replicate 6 7) 0x0A01FEFE 0x0A01FD2C) := by
  have count : calculateSubnetHosts dottedQuads (sparam dottedQuads 0x0A01FEFE 0xFFFFFC00 (Vector.replicate 6 7)).ip
      (sparam dottedQuads 0x0A01FEFE 0xFFFFFC00 (Vector.replicate 6 7)).netmask = .hosts 1022 := by
    rw [hosts_iff]
    simp only [sparam, dottedQuads.inverse]
    have zeros : ones (~~~htonl 0xFFFFFC00).toNat = 10 := by
      rw [htonl, ← swap32_not, ones_swap32]
      exact ones_low 10
    rw [zeros]
    decide
  refine ⟨count, ?_⟩
  rw [(sweep_requests dottedQuads _ _ _ count).1, List.getElem?_map, List.getElem?_range (by decide)]
  rfl

end WinMiniTools.ArpRequests
