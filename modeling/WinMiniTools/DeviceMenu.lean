import WinMiniTools.ArpPackets

/-!
The choice of a device in the network scanner. `main` prints a numbered line for
every device, with the address that `GetSelfAddr` finds, reads a number and walks
to the device of that number; then it calls `GetSelfAddr` again, now for the
netmask too. The address loop overwrites its results with every IPv4 entry, so
both calls end with the last of them (`self_addr_ip`, `self_addr_mask`): the
device scanned is the one of the line, with the address of the line and the
netmask that belongs to it (`scans_menu_line`).
-/
namespace WinMiniTools.DeviceMenu
open WinMiniTools.ArpPackets

def AF_INET : Nat := 2

/-- `sockaddr`, read as `sockaddr_in`. -/
structure SockAddr where
  sa_family : Nat
  sin_addr : BitVec 32
  deriving DecidableEq

/-- `pcap_addr_t`, where `none` is a null pointer. -/
structure PcapAddr where
  addr : Option SockAddr
  netmask : Option SockAddr
  deriving DecidableEq

structure PcapIf where
  name : List Char
  description : List Char
  addresses : List PcapAddr
  deriving DecidableEq

/-- What `GetSelfAddr` returns and leaves in its buffers. Both calls pass a buffer
    for the address; `none` is no buffer for the netmask. -/
structure SelfAddr where
  succeeds : Bool
  ip_addr : List Char
  ip_netmask : Option (List Char)
  deriving DecidableEq

/-- The loop over the addresses of a device and the test after it. The sixteen
    bytes copied hold every address and its terminator. -/
def selfAddrLoop (W : Winsock) : List PcapAddr → List Char → Option (List Char) → SelfAddr
  | [], ip_addr, ip_netmask =>
    { succeeds := ip_addr.length ≠ 0, ip_addr := ip_addr, ip_netmask := ip_netmask }
  | a :: next, ip_addr, ip_netmask =>
    match a.addr with
    | none => selfAddrLoop W next ip_addr ip_netmask
    | some addr =>
      if AF_INET ≠ addr.sa_family then selfAddrLoop W next ip_addr ip_netmask
      else
        let ip_str := W.inetNtop addr.sin_addr
        match ip_netmask with
        | none => selfAddrLoop W next ip_str none
        | some before =>
          match a.netmask with
          | none => { succeeds := false, ip_addr := ip_str, ip_netmask := some before }
          | some netmask => selfAddrLoop W next ip_str (some (W.inetNtop netmask.sin_addr))

def getSelfAddr (W : Winsock) (pIf : PcapIf) (ip_addr : List Char) (ip_netmask : Option (List Char)) : SelfAddr :=
  selfAddrLoop W pIf.addresses ip_addr ip_netmask

/-! ### The menu and the choice -/

structure MenuLine where
  number : Int
  description : List Char
  ip : List Char
  deriving DecidableEq

/-- The line that `main` prints for a device. -/
def menuLine (W : Winsock) (nDevCnt : Int) (item : PcapIf) : MenuLine where
  number := nDevCnt
  description := item.description
  ip := (getSelfAddr W item [] none).ip_addr

/-- The loop that prints the devices: its lines, and `nDevCnt` after it. -/
def printDevices (W : Winsock) : List PcapIf → Int → List MenuLine × Int
  | [], nDevCnt => ([], nDevCnt)
  | item :: next, nDevCnt =>
    let rest := printDevices W next (nDevCnt + 1)
    (menuLine W (nDevCnt + 1) item :: rest.1, rest.2)

/-- `for (int i = 1; i < nChoose && dev; ++i)`. A pointer into the list is the
    rest of the list, and null is the empty rest. -/
def walk (nChoose : Int) : Int → List PcapIf → List PcapIf
  | _, [] => []
  | i, dev :: next => if i < nChoose then walk nChoose (i + 1) next else dev :: next

/-- How far `main` comes with a number. -/
inductive Choice where
  | outOfRange
  | nullDevice
  | selfAddrFails (dev : List PcapIf)
  | scans (dev : List PcapIf) (self : SelfAddr)
  deriving DecidableEq

structure Session where
  lines : List MenuLine
  choice : Choice

/-- `main` up to the address and the netmask of the device, for the number that
    `scanf` leaves in `nChoose`. -/
def main (W : Winsock) (devices : List PcapIf) (nChoose : Int) : Session :=
  let (lines, nDevCnt) := printDevices W devices 0
  { lines := lines
    choice :=
      if nChoose < 1 ∨ nDevCnt < nChoose then .outOfRange
      else
        match walk nChoose 1 devices with
        | [] => .nullDevice
        | dev :: next =>
          let self := getSelfAddr W dev [] (some [])
          if self.succeeds = false then .selfAddrFails (dev :: next) else .scans (dev :: next) self }

/-! ### The address loop -/

/-- The IPv4 address of an entry. -/
def PcapAddr.inet? (a : PcapAddr) : Option SockAddr := a.addr.filter (fun addr => AF_INET = addr.sa_family)

/-- The last entry with an IPv4 address, and what the loop reads from it. -/
structure LastInet (addresses : List PcapAddr) (a : PcapAddr) (addr : SockAddr) : Prop where
  inet : a.inet? = some addr
  last : ∃ before after, addresses = before ++ a :: after ∧ ∀ b ∈ after, b.inet? = none

theorem loop_cons_none (W : Winsock) {a : PcapAddr} (other : a.inet? = none) (next : List PcapAddr)
    (ip : List Char) (mask : Option (List Char)) :
    selfAddrLoop W (a :: next) ip mask = selfAddrLoop W next ip mask := by
  rw [selfAddrLoop]
  cases pointer : a.addr with
  | none => rfl
  | some addr =>
    have family : AF_INET ≠ addr.sa_family := by simpa [PcapAddr.inet?, pointer] using other
    simp only [family, ne_eq, not_false_eq_true, ↓reduceIte]

theorem loop_cons_some (W : Winsock) {a : PcapAddr} {addr : SockAddr} (inet : a.inet? = some addr)
    (next : List PcapAddr) (ip : List Char) (mask : Option (List Char)) :
    selfAddrLoop W (a :: next) ip mask =
      match mask, a.netmask with
      | none, _ => selfAddrLoop W next (W.inetNtop addr.sin_addr) none
      | some before, none => ⟨false, W.inetNtop addr.sin_addr, some before⟩
      | some _, some netmask =>
        selfAddrLoop W next (W.inetNtop addr.sin_addr) (some (W.inetNtop netmask.sin_addr)) := by
  obtain ⟨pointer, family⟩ := Option.filter_eq_some_iff.mp inet
  have family : AF_INET = addr.sa_family := of_decide_eq_true family
  rw [selfAddrLoop, pointer]
  simp only [family, ne_eq, not_true_eq_false, ↓reduceIte]
  cases mask <;> cases a.netmask <;> rfl

/-- Without an IPv4 entry the buffers stay as they are. -/
theorem loop_of_none (W : Winsock) {addresses : List PcapAddr} (other : ∀ a ∈ addresses, a.inet? = none)
    (ip : List Char) (mask : Option (List Char)) :
    selfAddrLoop W addresses ip mask = ⟨ip.length ≠ 0, ip, mask⟩ := by
  induction addresses with
  | nil => rfl
  | cons a next ih =>
    rw [loop_cons_none W (other a List.mem_cons_self), ih (fun b member => other b (List.mem_cons_of_mem a member))]

theorem last_inet_cons {a b : PcapAddr} {addr : SockAddr} {next : List PcapAddr} (last : LastInet next b addr) :
    LastInet (a :: next) b addr := by
  obtain ⟨before, after, split, none⟩ := last.last
  exact ⟨last.inet, a :: before, after, by rw [split, List.cons_append], none⟩

/-- A list of entries has a last one with an IPv4 address, or none has one. -/
theorem last_inet_cases (addresses : List PcapAddr) :
    (∀ a ∈ addresses, a.inet? = none) ∨ ∃ a addr, LastInet addresses a addr := by
  induction addresses with
  | nil => exact .inl (fun a member => absurd member List.not_mem_nil)
  | cons a next ih =>
    rcases ih with none | ⟨b, addr, last⟩
    · cases inet : a.inet? with
      | none => exact .inl (List.forall_mem_cons.mpr ⟨inet, none⟩)
      | some addr => exact .inr ⟨a, addr, inet, [], next, rfl, none⟩
    · exact .inr ⟨b, addr, last_inet_cons last⟩

/-- Without a netmask buffer the loop ends with the last IPv4 address. -/
theorem self_addr_ip (W : Winsock) {addresses : List PcapAddr} {a : PcapAddr} {addr : SockAddr}
    (last : LastInet addresses a addr) (ip : List Char) :
    selfAddrLoop W addresses ip none = ⟨true, W.inetNtop addr.sin_addr, none⟩ := by
  obtain ⟨inet, before, after, rfl, others⟩ := last
  induction before generalizing ip with
  | nil =>
    have nonzero := (W.inetNtop_length_pos addr.sin_addr).ne'
    simp [loop_cons_some W inet, loop_of_none W others, nonzero]
  | cons b before ih =>
    cases first : b.inet? with
    | none => rw [List.cons_append, loop_cons_none W first, ih]
    | some _ => rw [List.cons_append, loop_cons_some W first, ih]

/-- With a netmask buffer the loop succeeds exactly when every IPv4 entry has a
    netmask, and ends with the address and the netmask of the last of them. -/
theorem self_addr_mask (W : Winsock) {addresses : List PcapAddr} {a : PcapAddr} {addr : SockAddr}
    (last : LastInet addresses a addr) (ip mask szLocalIp : List Char) (szNetMask : Option (List Char)) :
    selfAddrLoop W addresses ip (some mask) = ⟨true, szLocalIp, szNetMask⟩ ↔
      (∀ b ∈ addresses, b.inet?.isSome → b.netmask.isSome) ∧ szLocalIp = W.inetNtop addr.sin_addr ∧
        ∃ netmask, a.netmask = some netmask ∧ szNetMask = some (W.inetNtop netmask.sin_addr) := by
  obtain ⟨inet, before, after, rfl, others⟩ := last
  induction before generalizing ip mask with
  | nil =>
    have nonzero := (W.inetNtop_length_pos addr.sin_addr).ne'
    have tail : ∀ b ∈ after, b.inet?.isSome → b.netmask.isSome := by
      intro b member isInet
      rw [others b member] at isInet
      cases isInet
    rw [List.nil_append, loop_cons_some W inet, List.forall_mem_cons]
    cases pointer : a.netmask with
    | none => simp [inet]
    | some netmask =>
      simp only [loop_of_none W others, SelfAddr.mk.injEq, nonzero, ne_eq, not_false_eq_true, decide_true, true_and,
        Option.isSome_some, implies_true, Option.some.injEq, exists_eq_left']
      constructor
      · rintro ⟨rfl, rfl⟩
        exact ⟨tail, rfl, rfl⟩
      · rintro ⟨_, rfl, rfl⟩
        exact ⟨rfl, rfl⟩
  | cons b before ih =>
    rw [List.cons_append, List.forall_mem_cons]
    cases first : b.inet? with
    | none =>
      rw [loop_cons_none W first, ih]
      simp
    | some _ =>
      rw [loop_cons_some W first]
      cases pointer : b.netmask with
      | none => simp
      | some netmask =>
        simp only [ih]
        simp

/-! ### The device of a number -/

theorem printDevices_eq (W : Winsock) (devices : List PcapIf) (nDevCnt : Int) :
    printDevices W devices nDevCnt =
      (devices.mapIdx (fun k item => menuLine W (nDevCnt + (k + 1)) item), nDevCnt + devices.length) := by
  induction devices generalizing nDevCnt with
  | nil => simp [printDevices]
  | cons item next ih =>
    rw [printDevices, ih]
    simp only [List.mapIdx_cons, List.length_cons, Nat.cast_add, Nat.cast_one, Nat.cast_zero, Prod.mk.injEq,
      List.cons.injEq]
    refine ⟨⟨by rw [Int.zero_add], ?_⟩, by omega⟩
    apply List.mapIdx_eq_mapIdx_iff.mpr
    intro k inside
    rw [Int.add_assoc nDevCnt 1 (k + 1), Int.add_comm 1 (k + 1)]

/-- The walk passes as many devices as the number is above the counter. -/
theorem walk_eq (nChoose i : Int) (devices : List PcapIf) :
    walk nChoose i devices = devices.drop (nChoose - i).toNat := by
  induction devices generalizing i with
  | nil => simp [walk]
  | cons dev next ih =>
    rw [walk]
    by_cases more : i < nChoose
    · have count : (nChoose - i).toNat = (nChoose - (i + 1)).toNat + 1 := by omega
      rw [if_pos more, ih, count, List.drop_succ_cons]
    · have count : (nChoose - i).toNat = 0 := by omega
      rw [if_neg more, count, List.drop_zero]

/-- The results for a scan belong together: the address is the one of the line,
    and the netmask that of the entry which the address is from. -/
structure Paired (W : Winsock) (dev : PcapIf) (line : MenuLine) (self : SelfAddr) : Prop where
  ip : self.ip_addr = line.ip
  entry : ∃ a addr netmask, LastInet dev.addresses a addr ∧ self.ip_addr = W.inetNtop addr.sin_addr ∧
    a.netmask = some netmask ∧ self.ip_netmask = some (W.inetNtop netmask.sin_addr)

theorem paired_of_succeeds (W : Winsock) (nChoose : Int) {dev : PcapIf}
    (succeeds : (getSelfAddr W dev [] (some [])).succeeds = true) :
    Paired W dev (menuLine W nChoose dev) (getSelfAddr W dev [] (some [])) := by
  cases run : getSelfAddr W dev [] (some []) with
  | mk ok ip_addr ip_netmask =>
    rw [run] at succeeds
    obtain rfl : ok = true := succeeds
    rw [getSelfAddr] at run
    rcases last_inet_cases dev.addresses with none | ⟨a, addr, last⟩
    · rw [loop_of_none W none] at run
      cases run
    · obtain ⟨_, ip, netmask, pointer, mask⟩ := (self_addr_mask W last [] [] ip_addr ip_netmask).mp run
      refine ⟨?_, a, addr, netmask, last, ip, pointer, mask⟩
      rw [menuLine, getSelfAddr, self_addr_ip W last]
      exact ip

/-- The device of an accepted number is the one with the line of that number,
    and what a scan of it starts from belongs together. -/
theorem scans_menu_line (W : Winsock) (devices : List PcapIf) (nChoose : Int)
    (accepted : (main W devices nChoose).choice ≠ .outOfRange) :
    ∃ (k : Nat) (dev : PcapIf) (next : List PcapIf) (line : MenuLine),
      devices.drop k = dev :: next ∧ (main W devices nChoose).lines[k]? = some line ∧
      line.number = nChoose ∧ line.description = dev.description ∧ line.ip = (getSelfAddr W dev [] none).ip_addr ∧
      (∀ other ∈ (main W devices nChoose).lines, other.number = nChoose → other = line) ∧
      ((main W devices nChoose).choice = .selfAddrFails (dev :: next) ∧
          (getSelfAddr W dev [] (some [])).succeeds = false ∨
        ∃ self, (main W devices nChoose).choice = .scans (dev :: next) self ∧
          self = getSelfAddr W dev [] (some []) ∧ self.succeeds = true ∧ Paired W dev line self) := by
  have range : ¬ (nChoose < 1 ∨ (devices.length : Int) < nChoose) := by
    intro outside
    apply accepted
    simp [main, printDevices_eq, outside]
  obtain ⟨k, number⟩ : ∃ k : Nat, nChoose = k + 1 := ⟨(nChoose - 1).toNat, by omega⟩
  have inside : k < devices.length := by omega
  have here : devices.drop k = devices[k] :: devices.drop (k + 1) := List.drop_eq_getElem_cons inside
  have walked : walk nChoose 1 devices = devices[k] :: devices.drop (k + 1) := by
    rw [walk_eq, ← here, show (nChoose - 1).toNat = k by omega]
  have choice : (main W devices nChoose).choice =
      if (getSelfAddr W devices[k] [] (some [])).succeeds = false then .selfAddrFails (devices[k] :: devices.drop (k + 1))
      else .scans (devices[k] :: devices.drop (k + 1)) (getSelfAddr W devices[k] [] (some [])) := by
    simp only [main, printDevices_eq, Int.zero_add, if_neg range, walked]
  refine ⟨k, devices[k], devices.drop (k + 1), menuLine W nChoose devices[k], here, ?_, rfl, rfl, rfl, ?_, ?_⟩
  · simp [main, printDevices_eq, inside, number]
  · intro other member same
    simp only [main, printDevices_eq, List.mem_mapIdx] at member
    obtain ⟨j, bound, rfl⟩ := member
    simp only [menuLine] at same
    obtain rfl : j = k := by omega
    rw [number, Int.zero_add]
  · by_cases succeeds : (getSelfAddr W devices[k] [] (some [])).succeeds = true
    · right
      refine ⟨_, ?_, rfl, succeeds, paired_of_succeeds W nChoose succeeds⟩
      rw [choice, if_neg (by simp [succeeds])]
    · left
      have fails := Bool.not_eq_true _ ▸ succeeds
      exact ⟨by rw [choice, if_pos fails], fails⟩

/-- A loopback device, and one with an IPv6 and two IPv4 entries. -/
private def twoDevices : List PcapIf :=
  [⟨['l', 'o'], ['L', 'o', 'o', 'p'], [⟨none, none⟩, ⟨some ⟨AF_INET, 0x0100007F⟩, none⟩]⟩,
    ⟨['e', 't', 'h'], ['L', 'a', 'n'], [⟨some ⟨AF_INET, 0x0501A8C0⟩, some ⟨AF_INET, 0x00FFFFFF⟩⟩, ⟨some ⟨23, 0⟩, none⟩,
      ⟨some ⟨AF_INET, 0x0700000A⟩, some ⟨AF_INET, 0x000000FF⟩⟩]⟩]

theorem scans_menu_line_second :
    (main dottedQuads twoDevices 2).choice ≠ .outOfRange ∧
      ∃ dev next line self, (main dottedQuads twoDevices 2).lines[1]? = some line ∧ line.number = 2 ∧
        line.description = dev.description ∧ line.ip = (getSelfAddr dottedQuads dev [] none).ip_addr ∧
        (main dottedQuads twoDevices 2).choice = .scans (dev :: next) self ∧ Paired dottedQuads dev line self := by
  have accepted : (main dottedQuads twoDevices 2).choice ≠ .outOfRange := by decide
  have scans : (main dottedQuads twoDevices 2).choice = .scans (twoDevices.drop 1)
      ⟨true, "10.0.0.7".toList, some "255.0.0.0".toList⟩ := by decide
  obtain ⟨k, dev, next, line, here, printed, number, description, ip, _, fails | ⟨self, chosen, _, _, paired⟩⟩ :=
    scans_menu_line dottedQuads twoDevices 2 accepted
  · rw [scans] at fails
    cases fails.1
  · have second : k = 1 := by
      rw [scans, ← here] at chosen
      have rest : twoDevices.drop 1 = twoDevices.drop k := (Choice.scans.inj chosen).1
      have count := congrArg List.length rest
      simp only [List.length_drop] at count
      have size : twoDevices.length = 2 := rfl
      omega
    rw [second] at printed
    exact ⟨accepted, dev, next, line, self, printed, number, description, ip, chosen, paired⟩

end WinMiniTools.DeviceMenu
