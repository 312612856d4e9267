import WinMiniTools.DeviceMenu

/-!
What `GetSelfAddr` leaves behind when it fails. `main` passes two empty buffers.
The loop writes the address of an IPv4 entry before it looks at the entry's
netmask, and the first entry without one ends it. So it succeeds with every
entry that is complete, and fails without a trace, exactly when every IPv4 entry
has a netmask (`graceful_iff`).
-/
namespace WinMiniTools.AddressFailures
open WinMiniTools.ArpPackets WinMiniTools.DeviceMenu

/-- The call in `main`. -/
def selfAddr (W : Winsock) (pIf : PcapIf) : SelfAddr := getSelfAddr W pIf [] (some [])

/-- One complete IPv4 entry is enough for success, and a failure leaves both
    buffers empty. -/
structure Graceful (W : Winsock) (pIf : PcapIf) : Prop where
  succeeds : (∃ a ∈ pIf.addresses, a.inet?.isSome ∧ a.netmask.isSome) → (selfAddr W pIf).succeeds = true
  untouched : (selfAddr W pIf).succeeds = false →
    (selfAddr W pIf).ip_addr = [] ∧ (selfAddr W pIf).ip_netmask = some []

/-- Once an address is written, the buffer is never empty again. -/
theorem loop_written (W : Winsock) {addresses : List PcapAddr} {ip : List Char}
    (written : (∃ a ∈ addresses, a.inet?.isSome) ∨ ip ≠ []) (mask : Option (List Char)) :
    (selfAddrLoop W addresses ip mask).ip_addr ≠ [] := by
  induction addresses generalizing ip mask with
  | nil =>
    rcases written with ⟨a, member, _⟩ | nonempty
    · exact absurd member List.not_mem_nil
    · exact nonempty
  | cons a next ih =>
    cases inet : a.inet? with
    | none =>
      rw [loop_cons_none W inet]
      apply ih
      rcases written with ⟨b, member, isInet⟩ | nonempty
      · rcases List.mem_cons.mp member with rfl | member
        · rw [inet] at isInet
          cases isInet
        · exact .inl ⟨b, member, isInet⟩
      · exact .inr nonempty
    | some addr =>
      have text : W.inetNtop addr.sin_addr ≠ [] :=
        List.ne_nil_of_length_pos (W.inetNtop_length_pos addr.sin_addr)
      rw [loop_cons_some W inet]
      cases mask with
      | none => exact ih (.inr text) none
      | some before =>
        cases a.netmask with
        | none => exact text
        | some netmask => exact ih (.inr text) _

/-- The call succeeds exactly when there is an IPv4 entry and each has a netmask. -/
theorem succeeds_iff (W : Winsock) (pIf : PcapIf) :
    (selfAddr W pIf).succeeds = true ↔
      (∃ a ∈ pIf.addresses, a.inet?.isSome) ∧ ∀ a ∈ pIf.addresses, a.inet?.isSome → a.netmask.isSome := by
  rcases last_inet_cases pIf.addresses with none | ⟨a, addr, last⟩
  · have nothing : selfAddr W pIf = ⟨false, [], some []⟩ := loop_of_none W none [] (some [])
    rw [nothing]
    constructor
    · intro succeeds
      cases succeeds
    · rintro ⟨⟨a, member, isInet⟩, _⟩
      rw [none a member] at isInet
      cases isInet
  · have member : a ∈ pIf.addresses := by
      obtain ⟨before, after, split, _⟩ := last.last
      rw [split]
      exact List.mem_append_right _ List.mem_cons_self
    have isInet : a.inet?.isSome := Option.isSome_of_eq_some last.inet
    constructor
    · intro succeeds
      have ended : selfAddr W pIf = ⟨true, (selfAddr W pIf).ip_addr, (selfAddr W pIf).ip_netmask⟩ := by
        rw [← succeeds]
      exact ⟨⟨a, member, isInet⟩, ((self_addr_mask W last [] [] _ _).mp ended).1⟩
    · rintro ⟨_, complete⟩
      obtain ⟨netmask, pointer⟩ := Option.isSome_iff_exists.mp (complete a member isInet)
      have ended := (self_addr_mask W last [] [] _ _).mpr ⟨complete, rfl, netmask, pointer, rfl⟩
      exact congrArg SelfAddr.succeeds ended

/-- The call is graceful exactly for lists in which every IPv4 entry has a netmask. -/
theorem graceful_iff (W : Winsock) (pIf : PcapIf) :
    Graceful W pIf ↔ ∀ a ∈ pIf.addresses, a.inet?.isSome → a.netmask.isSome := by
  constructor
  · intro graceful a member isInet
    have written : (selfAddr W pIf).ip_addr ≠ [] := loop_written W (.inl ⟨a, member, isInet⟩) (some [])
    have succeeds : (selfAddr W pIf).succeeds = true := by
      by_contra fails
      exact written (graceful.untouched (Bool.not_eq_true _ ▸ fails)).1
    exact ((succeeds_iff W pIf).mp succeeds).2 a member isInet
  · intro complete
    constructor
    · rintro ⟨a, member, isInet, _⟩
      exact (succeeds_iff W pIf).mpr ⟨⟨a, member, isInet⟩, complete⟩
    · intro fails
      have none : ∀ a ∈ pIf.addresses, a.inet? = none := by
        intro a member
        rw [← Option.not_isSome_iff_eq_none]
        intro isInet
        have succeeds := (succeeds_iff W pIf).mpr ⟨⟨a, member, isInet⟩, complete⟩
        rw [fails] at succeeds
        cases succeeds
      have nothing : selfAddr W pIf = ⟨false, [], some []⟩ := loop_of_none W none [] (some [])
      rw [nothing]
      exact ⟨rfl, rfl⟩

/-- An adapter with one complete IPv4 entry, and one without a netmask before it. -/
def halfConfigured : PcapIf where
  name := []
  description := []
  addresses := [⟨some ⟨AF_INET, 0x0501A8C0⟩, none⟩, ⟨some ⟨AF_INET, 0x0601A8C0⟩, some ⟨AF_INET, 0x00FFFFFF⟩⟩]

/-- The call fails in spite of the complete entry, and leaves an address behind. -/
theorem half_configured_fails : ¬ Graceful dottedQuads halfConfigured := by
  intro graceful
  have succeeds := graceful.succeeds ⟨_, List.mem_cons_of_mem _ List.mem_cons_self, rfl, rfl⟩
  revert succeeds
  decide

end WinMiniTools.AddressFailures
