import WinMiniTools.Decimals
import WinMiniTools.Loops

/-!
The report of all routes (`IpForwardTool2.cpp`), as `main` prints it: the number
of rows, and for each row of the table its index, then a line for each field,
with the number that the field holds and, for some fields, a text that a switch
selects. The line of the origin prints the age.
-/
namespace WinMiniTools.RouteRows
open WinMiniTools.Loops

/-! ### The table -/

def AF_INET : BitVec 16 := 2
def AF_INET6 : BitVec 16 := 23

/-- `SOCKADDR_INET`: the two addresses of the union lie apart. -/
structure SockaddrInet where
  si_family : BitVec 16
  sin_addr : BitVec 32
  sin6_addr : BitVec 128

/-- `MIB_IPFORWARD_ROW2`, with `InterfaceLuid.Info.IfType` and the parts of
    `DestinationPrefix`. -/
structure MibIpforwardRow2 where
  ifType : BitVec 16
  interfaceIndex : BitVec 32
  prefixLength : BitVec 8
  destination : SockaddrInet
  nextHop : SockaddrInet
  sitePrefixLength : BitVec 8
  validLifetime : BitVec 32
  preferredLifetime : BitVec 32
  metric : BitVec 32
  protocol : BitVec 32
  loopback : BitVec 8
  autoconfigureAddress : BitVec 8
  publish : BitVec 8
  immortal : BitVec 8
  age : BitVec 32
  origin : BitVec 32

/-- `MIB_IPFORWARD_TABLE2`. -/
structure MibIpforwardTable2 where
  numEntries : BitVec 32
  table : Nat → MibIpforwardRow2

/-! ### Texts -/

/-- `inet_ntoa`, and `inet_ntop` for `AF_INET6`: digits, letters, periods and colons. -/
structure AddressTexts where
  inetNtoa : BitVec 32 → List Char
  inetNtop : BitVec 128 → List Char
  visible : (∀ a, ∀ c ∈ inetNtoa a, ¬ c.isWhitespace) ∧ ∀ a, ∀ c ∈ inetNtop a, ¬ c.isWhitespace

/-- The text that a switch selects, if the value has a case. -/
def switch (cases : List (BitVec 32 × List Char)) (value : BitVec 32) : Option (List Char) :=
  (cases.find? (fun c => c.1 = value)).map Prod.snd

def IF_TYPE_OTHER : BitVec 32 := 1
def IF_TYPE_ETHERNET_CSMACD : BitVec 32 := 6
def IF_TYPE_ISO88025_TOKENRING : BitVec 32 := 9
def IF_TYPE_PPP : BitVec 32 := 23
def IF_TYPE_SOFTWARE_LOOPBACK : BitVec 32 := 24
def IF_TYPE_ATM : BitVec 32 := 37
def IF_TYPE_IEEE80211 : BitVec 32 := 71
def IF_TYPE_TUNNEL : BitVec 32 := 131
def IF_TYPE_IEEE1394 : BitVec 32 := 144

def ifTypeCases : List (BitVec 32 × List Char) :=
  [(IF_TYPE_OTHER, "Some other type of network interface".toList),
    (IF_TYPE_ETHERNET_CSMACD, "An Ethernet network interface".toList),
    (IF_TYPE_ISO88025_TOKENRING, "A token ring network interface".toList),
    (IF_TYPE_PPP, "A PPP network interface".toList),
    (IF_TYPE_SOFTWARE_LOOPBACK, "A software loopback network interface".toList),
    (IF_TYPE_ATM, "An ATM network interface".toList),
    (IF_TYPE_IEEE80211, "An IEEE 802.11 wireless network interface".toList),
    (IF_TYPE_TUNNEL, "A tunnel type encapsulation network interface".toList),
    (IF_TYPE_IEEE1394, "An IEEE 1394 (Firewire) high performance serial bus network interface".toList)]

/-- The text of an interface type; for any other nothing is printed. -/
def ifTypeText (ifType : BitVec 32) : Option (List Char) := switch ifTypeCases ifType

def MIB_IPPROTO_OTHER : BitVec 32 := 1
def MIB_IPPROTO_LOCAL : BitVec 32 := 2
def MIB_IPPROTO_NETMGMT : BitVec 32 := 3
def MIB_IPPROTO_ICMP : BitVec 32 := 4
def MIB_IPPROTO_EGP : BitVec 32 := 5
def MIB_IPPROTO_GGP : BitVec 32 := 6
def MIB_IPPROTO_HELLO : BitVec 32 := 7
def MIB_IPPROTO_RIP : BitVec 32 := 8
def MIB_IPPROTO_IS_IS : BitVec 32 := 9
def MIB_IPPROTO_ES_IS : BitVec 32 := 10
def MIB_IPPROTO_CISCO : BitVec 32 := 11
def MIB_IPPROTO_BBN : BitVec 32 := 12
def MIB_IPPROTO_OSPF : BitVec 32 := 13
def MIB_IPPROTO_BGP : BitVec 32 := 14
def MIB_IPPROTO_NT_AUTOSTATIC : BitVec 32 := 10002
def MIB_IPPROTO_NT_STATIC : BitVec 32 := 10006
def MIB_IPPROTO_NT_STATIC_NON_DOD : BitVec 32 := 10007

def protocolCases : List (BitVec 32 × List Char) :=
  [(MIB_IPPROTO_OTHER, "other".toList),
    (MIB_IPPROTO_LOCAL, "local interface".toList),
    (MIB_IPPROTO_NETMGMT, "static route set through network management ".toList),
    (MIB_IPPROTO_ICMP, "result of ICMP redirect".toList),
    (MIB_IPPROTO_EGP, "Exterior Gateway Protocol (EGP)".toList),
    (MIB_IPPROTO_GGP, "Gateway-to-Gateway Protocol (GGP)".toList),
    (MIB_IPPROTO_HELLO, "Hello protocol".toList),
    (MIB_IPPROTO_RIP, "Routing Information Protocol (RIP)".toList),
    (MIB_IPPROTO_IS_IS, "Intermediate System-to-Intermediate System (IS-IS) protocol".toList),
    (MIB_IPPROTO_ES_IS, "End System-to-Intermediate System (ES-IS) protocol".toList),
    (MIB_IPPROTO_CISCO, "Cisco Interior Gateway Routing Protocol (IGRP)".toList),
    (MIB_IPPROTO_BBN, "BBN Internet Gateway Protocol (IGP) using SPF".toList),
    (MIB_IPPROTO_OSPF, "Open Shortest Path First (OSPF) protocol".toList),
    (MIB_IPPROTO_BGP, "Border Gateway Protocol (BGP)".toList),
    (MIB_IPPROTO_NT_AUTOSTATIC, "special Windows auto static route".toList),
    (MIB_IPPROTO_NT_STATIC, "special Windows static route".toList),
    (MIB_IPPROTO_NT_STATIC_NON_DOD, "special Windows static route not based on Internet standards".toList)]

def protocolText (protocol : BitVec 32) : List Char :=
  (switch protocolCases protocol).getD "UNKNOWN Proto value".toList

def NlroManual : BitVec 32 := 0
def NlroWellKnown : BitVec 32 := 1
def NlroDHCP : BitVec 32 := 2
def NlroRouterAdvertisement : BitVec 32 := 3
def Nlro6to4 : BitVec 32 := 4

def originCases : List (BitVec 32 × List Char) :=
  [(NlroManual, "A result of manual configuration".toList),
    (NlroWellKnown, "A well-known route".toList),
    (NlroDHCP, "A result of DHCP configuration".toList),
    (NlroRouterAdvertisement, "The result of router advertisement".toList),
    (Nlro6to4, "A result of 6to4 tunneling".toList)]

/-- The text of an origin; for any other the line ends. -/
def originText (origin : BitVec 32) : List Char := (switch originCases origin).getD []

/-- The text of an address, under the word that the line has for it. -/
def addressText (N : AddressTexts) (word : List Char) (address : SockaddrInet) : List Char :=
  if address.si_family = AF_INET then "[ipv4] ".toList ++ word ++ [':', ' '] ++ N.inetNtoa address.sin_addr
  else if address.si_family = AF_INET6 then "[ipv6] ".toList ++ word ++ [':', ' '] ++ N.inetNtop address.sin6_addr
  else []

/-! ### The lines of a row -/

/-- The labels before a number. -/
inductive Label where
  | ifType
  | interfaceIndex
  | prefixLength
  | sitePrefixLength
  | validLifetime
  | preferredLifetime
  | metric
  | protocol
  | loopback
  | autoconfigureAddress
  | publish
  | immortal
  | age
  | origin
  deriving DecidableEq

def Label.text : Label → List Char
  | .ifType => "IfType".toList
  | .interfaceIndex => "InterfaceIndex".toList
  | .prefixLength => "DestinationPrefix PrefixLength".toList
  | .sitePrefixLength => "SitePrefixLength".toList
  | .validLifetime => "ValidLifetime".toList
  | .preferredLifetime => "PreferredLifetime".toList
  | .metric => "Metric".toList
  | .protocol => "Protocol".toList
  | .loopback => "Loopback".toList
  | .autoconfigureAddress => "AutoconfigureAddress".toList
  | .publish => "Publish".toList
  | .immortal => "Immortal".toList
  | .age => "Age".toList
  | .origin => "Origin".toList

/-- What is printed from one tabulator up to the next, or to the next row. -/
structure Line where
  token : List Char
  ended : Bool

def Line.text (line : Line) : List Char := '\t' :: (line.token ++ if line.ended then ['\n'] else [])

/-- `\t<label>: %d`, for a field that is cast to an `int`, and what follows it. -/
def numberToken (label : Label) (value : BitVec 32) (remark : List Char) : List Char :=
  label.text ++ ([':', ' '] ++ (Decimals.write value.toInt ++ remark))

/-- A number that ends its line, and one with a text after it. -/
def plain (label : Label) (value : BitVec 32) : Line where
  token := numberToken label value []
  ended := true
def remarked (label : Label) (value : BitVec 32) (text : List Char) : Line where
  token := numberToken label value (' ' :: text)
  ended := true

/-- Without a text the line of the interface type goes on with the next label. -/
def ifTypeLine (ifType : BitVec 32) : Line where
  token := numberToken .ifType ifType (' ' :: (ifTypeText ifType).getD [])
  ended := (ifTypeText ifType).isSome

def lines (N : AddressTexts) (row : MibIpforwardRow2) : List Line :=
  [ifTypeLine (row.ifType.setWidth 32),
    plain .interfaceIndex row.interfaceIndex,
    remarked .prefixLength (row.prefixLength.setWidth 32) (addressText N "addr".toList row.destination),
    { token := "NextHop ".toList ++ addressText N "NextHop".toList row.nextHop, ended := true },
    plain .sitePrefixLength (row.sitePrefixLength.setWidth 32),
    plain .validLifetime row.validLifetime,
    plain .preferredLifetime row.preferredLifetime,
    plain .metric row.metric,
    remarked .protocol row.protocol (protocolText row.protocol),
    plain .loopback (row.loopback.setWidth 32),
    plain .autoconfigureAddress (row.autoconfigureAddress.setWidth 32),
    plain .publish (row.publish.setWidth 32),
    plain .immortal (row.immortal.setWidth 32),
    plain .age row.age,
    -- The number is the age, the text is that of the origin.
    remarked .origin row.age (originText row.origin)]

/-! ### The report -/

def routeToken (i : Nat) : List Char := "Route[".toList ++ (Decimals.write i ++ [']'])
def routeText (N : AddressTexts) (i : Nat) (row : MibIpforwardRow2) : List Char :=
  '\n' :: (routeToken i ++ '\n' :: (lines N row).flatMap Line.text)

/-- `for (int i = 0; i < (int)NumEntries; i++)`. -/
def rowLoop (N : AddressTexts) (t : MibIpforwardTable2) : Loop Nat (List Char) Unit where
  body i :=
    if (i : Int) < t.numEntries.toInt then ([routeText N i (t.table i)], .inl (i + 1))
    else ([], .inr ())
  weight i := (t.numEntries.toInt - i).toNat
  progress := by
    intro i j next
    by_cases more : (i : Int) < t.numEntries.toInt
    · rw [if_pos more] at next
      cases next
      omega
    · rw [if_neg more] at next
      cases next

def entriesToken (t : MibIpforwardTable2) : List Char :=
  "Number of entries: ".toList ++ Decimals.write t.numEntries.toInt

/-- What is printed for a table. -/
def report (N : AddressTexts) (t : MibIpforwardTable2) : List Char :=
  '\t' :: (entriesToken t ++ '\n' :: ((rowLoop N t).events 0).flatten)

/-- `main`, for whether the first allocation succeeds and what `GetIpForwardTable2`
    returns: the table, or an error with the last error number. -/
def main (N : AddressTexts) (allocated : Bool) (result : Except (List Char) MibIpforwardTable2) : List Char × Int :=
  if allocated = false then ("Error allocating memory\n".toList, 1)
  else
    match result with
    | .error gle => ("GetIpForwardTable2 fail. gle: 0x".toList ++ gle ++ ['\n'], 1)
    | .ok t => (report N t, 0)

end WinMiniTools.RouteRows
