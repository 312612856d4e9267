import WinMiniTools.ArpPackets
import WinMiniTools.BitCounts
import WinMiniTools.Loops

/-!
The sender thread of the network scanner. `calculateSubnetHosts` counts the
zeros of the netmask and makes the number of hosts of them; `sendArpPacket`
sends that many ARP requests, to the addresses from the network address on. For
a netmask of `32 - k` leading ones these are `2 ^ k - 2` addresses and the
first of them is the network address itself (`sweep_targets`), so a sweep asks
the network address and never the last host (`never_sweeps_hosts`).
-/
namespace WinMiniTools.SubnetSweep
open WinMiniTools.Words WinMiniTools.BitCounts WinMiniTools.Loops WinMiniTools.ArpPackets

/-! ### The number of hosts -/

/-- What a call of `calculateSubnetHosts` comes to: it ends the process, it
    shifts or subtracts beyond an `int`, or it returns. -/
inductive HostCount where
  | exitFailure
  | overflow (host_bits : Nat)
  | hosts (subnet_hosts : Int)
  deriving DecidableEq, Repr

/-- `while (mask_inv)`, over `mask_inv` and `host_bits`. -/
def hostBits : Loop (BitVec 32 × Nat) Empty Nat where
  body s :=
    if s.1 ≠ 0 then ([], .inl (s.1 >>> 1, if s.1 &&& 1 ≠ 0 then s.2 + 1 else s.2))
    else ([], .inr s.2)
  weight s := s.1.toNat
  progress := by
    intro s t next
    by_cases more : s.1 ≠ 0
    · rw [if_pos more] at next
      cases next
      have positive : s.1.toNat ≠ 0 := fun zero => more (BitVec.eq_of_toNat_eq (by simpa using zero))
      simp only [BitVec.toNat_ushiftRight, Nat.shiftRight_eq_div_pow]
      omega
    · rw [if_neg more] at next
      cases next

theorem hostBits_result (s : BitVec 32 × Nat) : hostBits.result s = s.2 + ones s.1.toNat := by
  induction s using hostBits.induct with
  | step s ih =>
    by_cases more : s.1 ≠ 0
    · have body : hostBits.body s = ([], .inl (s.1 >>> 1, if s.1 &&& 1 ≠ 0 then s.2 + 1 else s.2)) := if_pos more
      have half : (s.1 >>> 1).toNat = s.1.toNat / 2 := by
        rw [BitVec.toNat_ushiftRight, Nat.shiftRight_eq_div_pow]
      have low : (s.1 &&& 1).toNat = s.1.toNat % 2 := by
        rw [BitVec.toNat_and]
        exact Nat.and_one_is_mod _
      rw [Loop.result_next _ body, ih _ _ body, half, ones_half s.1.toNat]
      by_cases odd : s.1 &&& 1 ≠ 0
      · have one : (s.1 &&& 1).toNat ≠ 0 := fun zero => odd (BitVec.eq_of_toNat_eq (by simpa using zero))
        rw [if_pos odd]
        omega
      · have zero : (s.1 &&& 1).toNat = 0 := by rw [not_not.mp odd]; rfl
        rw [if_neg odd]
        omega
    · have body : hostBits.body s = ([], .inr s.2) := if_neg more
      rw [Loop.result_leave _ body, not_not.mp more]
      simp

def calculateSubnetHosts (W : Winsock) (ip_str mask_str : List Char) : HostCount :=
  let ip := W.inetAddr ip_str
  let mask := W.inetAddr mask_str
  if ip = INADDR_NONE ∨ mask = INADDR_NONE then .exitFailure
  else
    let mask_inv := ~~~mask
    let host_bits := hostBits.result (mask_inv, 0)
    -- `1 << host_bits` is no `int` from 31 on.
    if 31 ≤ host_bits then .overflow host_bits
    else .hosts (2 ^ host_bits - 2)

/-- A count is returned when both texts are read and the shift stays an `int`. -/
theorem hosts_iff (W : Winsock) (ip_str mask_str : List Char) (subnet_hosts : Int) :
    calculateSubnetHosts W ip_str mask_str = .hosts subnet_hosts ↔
      W.inetAddr ip_str ≠ INADDR_NONE ∧ W.inetAddr mask_str ≠ INADDR_NONE ∧
        ones (~~~W.inetAddr mask_str).toNat ≤ 30 ∧
        subnet_hosts = 2 ^ ones (~~~W.inetAddr mask_str).toNat - 2 := by
  simp only [calculateSubnetHosts, hostBits_result, Nat.zero_add]
  by_cases unread : W.inetAddr ip_str = INADDR_NONE ∨ W.inetAddr mask_str = INADDR_NONE
  · rw [if_pos unread]
    constructor
    · intro returned
      cases returned
    · rintro ⟨ip, mask, _⟩
      exact absurd unread (not_or.mpr ⟨ip, mask⟩)
  · obtain ⟨ip, mask⟩ := not_or.mp unread
    rw [if_neg unread]
    by_cases wide : 31 ≤ ones (~~~W.inetAddr mask_str).toNat
    · rw [if_pos wide]
      constructor
      · intro returned
        cases returned
      · rintro ⟨_, _, few, _⟩
        omega
    · rw [if_neg wide]
      constructor
      · intro returned
        cases returned
        exact ⟨ip, mask, by omega, rfl⟩
      · rintro ⟨_, _, _, rfl⟩
        rfl

/-! ### The sweep -/

/-- `struct sparam`, without the handle that requests go to. -/
structure Sparam where
  ip : List Char
  mac : Mac
  netmask : List Char

/-- What the thread does, one step after the other. -/
inductive SenderStep where
  | request (sendbuf : List Byte)
  | sleep (milliseconds : Nat)
  | setFlag

inductive Sender where
  | exitFailure
  | overflow (host_bits : Nat)
  | runs (steps : List SenderStep)

/-- The buffer of the request with the given index: `eh`, then `ah`. -/
def sendbuf (W : Winsock) (spara : Sparam) (i : Nat) : List Byte :=
  let myip := W.inetAddr spara.ip
  let mynetmask := W.inetAddr spara.netmask
  let hisip := htonl (myip &&& mynetmask)
  let eh : EthernetHeader :=
    { destMAC := Vector.replicate 6 0xff
      sourMAC := spara.mac
      ethType := htons ETH_ARP }
  let ah : Arpheader :=
    { hardwareType := htons ARP_HARDWARE
      protocolType := htons ETH_IP
      hardwareAddLen := 6
      protocolAddLen := 4
      operationField := htons ARP_REQUEST
      sMac := spara.mac
      sIp := W.inetAddr spara.ip
      destMacAdd := Vector.replicate 6 0x00
      destIpAdd := htonl (hisip + BitVec.ofNat 32 i) }
  eh.bytes ++ ah.bytes

/-- The buffer has the forty-two bytes that are sent. -/
theorem sendbuf_length (W : Winsock) (spara : Sparam) (i : Nat) : (sendbuf W spara i).length = 42 := by
  rw [sendbuf, List.length_append, ethernetHeader_length, arpheader_length]

/-- `SendArpPacket`: a request for every index below the number of hosts,
    whether or not `pcap_sendpacket` sends it, then the pause and the flag. -/
def sendArpPacket (W : Winsock) (spara : Sparam) : Sender :=
  match calculateSubnetHosts W spara.ip spara.netmask with
  | .exitFailure => .exitFailure
  | .overflow host_bits => .overflow host_bits
  | .hosts nMaxIpNum =>
    .runs ((List.range nMaxIpNum.toNat).map (fun i => .request (sendbuf W spara i)) ++ [.sleep 3000, .setFlag])

def Sender.steps : Sender → List SenderStep
  | .exitFailure => []
  | .overflow _ => []
  | .runs steps => steps

/-! ### The addresses that a sweep asks -/

/-- `DestIpAdd` of a sent buffer, as a number. -/
def target (sendbuf : List Byte) : Nat :=
  (htonl (arpPacketAt (buffer sendbuf (fun _ => 0))).ah.destIpAdd).toNat
def SenderStep.target? : SenderStep → Option Nat
  | .request sendbuf => some (target sendbuf)
  | .sleep _ => none
  | .setFlag => none
/-- The addresses that the requests of a run ask, in order. -/
def targets (run : Sender) : List Nat := run.steps.filterMap SenderStep.target?

/-- The netmask with the given number of leading ones, as a number. -/
def prefixMask (ones : Nat) : BitVec 32 := ~~~BitVec.ofNat 32 (2 ^ (32 - ones) - 1)
def network (ip mask : BitVec 32) : Nat := (ip &&& mask).toNat
def broadcast (ip mask : BitVec 32) : Nat := (ip ||| ~~~mask).toNat
/-- Every address between the network and the broadcast address, each once, and
    no other. -/
def SweepsHosts (ip mask : BitVec 32) (asked : List Nat) : Prop :=
  asked.Nodup ∧ ∀ a, a ∈ asked ↔ network ip mask < a ∧ a < broadcast ip mask

/-- The thread's parameters for an own address and a netmask, given as numbers. -/
def sparam (W : Winsock) (ip mask : BitVec 32) (mac : Mac) : Sparam where
  ip := W.inetNtop (htonl ip)
  mac := mac
  netmask := W.inetNtop (htonl mask)

theorem target_sendbuf (W : Winsock) (ip mask : BitVec 32) (mac : Mac) (i : Nat) :
    target (sendbuf W (sparam W ip mask mac) i) = ((ip &&& mask) + BitVec.ofNat 32 i).toNat := by
  have overlay := arpPacketAt_of_holds (p := ⟨_, _⟩) (holds_buffer (sendbuf W (sparam W ip mask mac) i) (fun _ => 0))
  rw [target, overlay]
  simp only [sparam, W.inverse, htonl, swap32_and, swap32_swap32]

/-- A subnet has at most all addresses, and with thirty leading ones at least four. -/
private theorem subnet_size_le (p : Nat) : 2 ^ (32 - p) ≤ 2 ^ 32 :=
  Nat.pow_le_pow_right (by omega) (Nat.sub_le 32 p)
private theorem four_le_subnet_size {p : Nat} (thirty : p ≤ 30) : 4 ≤ 2 ^ (32 - p) :=
  Nat.pow_le_pow_right (show 0 < 2 by omega) (show 2 ≤ 32 - p by omega)

/-- The zeros of a netmask with leading ones, counted in network byte order. -/
theorem host_bits_prefix (p : Nat) :
    hostBits.result (~~~htonl (prefixMask p), 0) = 32 - p := by
  have bound : 2 ^ (32 - p) - 1 < 2 ^ 32 := by
    have := subnet_size_le p
    omega
  rw [hostBits_result, htonl, ← swap32_not, prefixMask, BitVec.not_not, ones_swap32, BitVec.toNat_ofNat,
    Nat.mod_eq_of_lt bound, ones_low, Nat.zero_add]

theorem prefixMask_toNat (p : Nat) : (prefixMask p).toNat = 2 ^ 32 - 2 ^ (32 - p) := by
  have bound := subnet_size_le p
  have positive := Nat.two_pow_pos (32 - p)
  rw [prefixMask, BitVec.toNat_not, BitVec.toNat_ofNat, Nat.mod_eq_of_lt (by omega)]
  omega

theorem hosts_prefix (W : Winsock) {ip : BitVec 32} {p : Nat} (mac : Mac) (two : 2 ≤ p) (thirty : p ≤ 30)
    (valid : htonl ip ≠ INADDR_NONE) :
    calculateSubnetHosts W (sparam W ip (prefixMask p) mac).ip (sparam W ip (prefixMask p) mac).netmask =
      .hosts (2 ^ (32 - p) - 2) := by
  have valid' : htonl (prefixMask p) ≠ INADDR_NONE := by
    intro none
    have counted := host_bits_prefix p
    rw [none, hostBits_result] at counted
    have zero : ones (~~~INADDR_NONE).toNat = 0 := by simp [INADDR_NONE]
    simp only [zero] at counted
    omega
  have counted : ones (~~~htonl (prefixMask p)).toNat = 32 - p := by
    rw [← host_bits_prefix p, hostBits_result, Nat.zero_add]
  rw [hosts_iff]
  simp only [sparam, W.inverse, counted]
  exact ⟨valid, valid', by omega, trivial⟩

/-- A sweep asks the network address and the addresses after it, two fewer
    than the subnet has. -/
theorem sweep_targets (W : Winsock) {ip : BitVec 32} {p : Nat} (mac : Mac) (two : 2 ≤ p) (thirty : p ≤ 30)
    (valid : htonl ip ≠ INADDR_NONE) :
    targets (sendArpPacket W (sparam W ip (prefixMask p) mac)) =
      (List.range (2 ^ (32 - p) - 2)).map (fun i => network ip (prefixMask p) + i) := by
  have four := four_le_subnet_size thirty
  have count : ((2 : Int) ^ (32 - p) - 2).toNat = 2 ^ (32 - p) - 2 := by
    have cast : (2 : Int) ^ (32 - p) = ((2 ^ (32 - p) : Nat) : Int) := by norm_cast
    rw [cast]
    omega
  have base : network ip (prefixMask p) ≤ 2 ^ 32 - 2 ^ (32 - p) := by
    rw [← prefixMask_toNat p, network, BitVec.toNat_and]
    exact Nat.and_le_right
  have bound := subnet_size_le p
  rw [sendArpPacket, hosts_prefix W mac two thirty valid]
  simp only [targets, Sender.steps, count, List.filterMap_append, List.filterMap_map]
  have tail : List.filterMap SenderStep.target? [.sleep 3000, .setFlag] = [] := rfl
  rw [tail, List.append_nil, ← List.filterMap_eq_map]
  apply List.filterMap_congr
  intro i member
  have inside := List.mem_range.mp member
  have asked := target_sendbuf W ip (prefixMask p) mac i
  simp only [Function.comp, SenderStep.target?, asked, BitVec.toNat_add, BitVec.toNat_ofNat]
  rw [Nat.mod_eq_of_lt (show i < 2 ^ 32 by omega)]
  exact congrArg some (Nat.mod_eq_of_lt (by simp only [network] at base; omega))

/-- No sweep of a subnet with two to thirty leading ones asks exactly its hosts. -/
theorem never_sweeps_hosts (W : Winsock) (ip : BitVec 32) (p : Nat) (mac : Mac) (two : 2 ≤ p) (thirty : p ≤ 30) :
    ¬ SweepsHosts ip (prefixMask p) (targets (sendArpPacket W (sparam W ip (prefixMask p) mac))) := by
  have four := four_le_subnet_size thirty
  rintro ⟨_, hosts⟩
  by_cases valid : htonl ip = INADDR_NONE
  · -- The own address reads as an error: the process ends before the first request.
    have none : targets (sendArpPacket W (sparam W ip (prefixMask p) mac)) = [] := by
      simp [sendArpPacket, calculateSubnetHosts, sparam, W.inverse, valid, targets, Sender.steps]
    have all : ip = BitVec.allOnes 32 := by
      rw [← swap32_swap32 ip]
      exact congrArg swap32 valid
    have first := (hosts (network ip (prefixMask p) + 1)).mpr ⟨by omega, ?_⟩
    · rw [none] at first
      exact List.not_mem_nil first
    · simp only [network, broadcast, all, BitVec.allOnes_and, BitVec.allOnes_or, prefixMask_toNat p,
        BitVec.toNat_allOnes]
      omega
  · have asked : network ip (prefixMask p) ∈ targets (sendArpPacket W (sparam W ip (prefixMask p) mac)) := by
      rw [sweep_targets W mac two thirty valid]
      exact List.mem_map.mpr ⟨0, List.mem_range.mpr (by omega), rfl⟩
    exact absurd ((hosts _).mp asked).1 (Nat.lt_irrefl _)

/-- 192.168.1.5 in 192.168.1.4/30: its neighbour 192.168.1.6 is never asked. -/
theorem last_host_missed :
    ¬ SweepsHosts 0xC0A80105 (prefixMask 30)
      (targets (sendArpPacket dottedQuads (sparam dottedQuads 0xC0A80105 (prefixMask 30) (Vector.replicate 6 0)))) := by
  rintro ⟨_, hosts⟩
  have valid : htonl 0xC0A80105 ≠ INADDR_NONE := by decide
  have asked := sweep_targets dottedQuads (p := 30) (Vector.replicate 6 0) (by decide) (by decide) valid
  have missed := (hosts 0xC0A80106).mpr (by decide)
  rw [asked] at missed
  revert missed
  decide

theorem never_sweeps_hosts_24 :
    (2 ≤ 24 ∧ 24 ≤ 30) ∧ ¬ SweepsHosts 0xC0A80105 (prefixMask 24)
      (targets (sendArpPacket dottedQuads (sparam dottedQuads 0xC0A80105 (prefixMask 24) (Vector.replicate 6 0)))) :=
  ⟨by decide, never_sweeps_hosts dottedQuads 0xC0A80105 24 (Vector.replicate 6 0) (by decide) (by decide)⟩

end WinMiniTools.SubnetSweep
