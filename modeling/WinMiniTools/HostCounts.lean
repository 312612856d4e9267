import WinMiniTools.SubnetSweep

/-!
What `calculateSubnetHosts` returns over all netmasks, whether or not their ones
lead. With `k` zeros in the mask the count is `2 ^ k - 2`, and the order in
which the mask's bytes are held does not matter; but the mask of all ones and
the address of all ones read as errors, at which the process ends, and a mask
with fewer than two ones is beyond an `int` (`counted_iff`).
-/
namespace WinMiniTools.HostCounts
open WinMiniTools.Words WinMiniTools.BitCounts WinMiniTools.ArpPackets WinMiniTools.SubnetSweep

/-- The positions of a mask where a zero stands. -/
def zeros (mask : BitVec 32) : Nat := (List.range 32).countP (fun i => !mask.getLsbD i)

/-- The addresses of a subnet without the network and the broadcast address,
    and none where there is no room for these. -/
def hostsOf (mask : BitVec 32) : Int := if zeros mask = 0 then 0 else 2 ^ zeros mask - 2

/-- For every text of the address and every text of the mask, held in either
    byte order, the count is returned and is no negative number. -/
def Counted (W : Winsock) (ip mask : BitVec 32) : Prop :=
  0 ≤ hostsOf mask ∧ ∀ ip_str mask_str, W.inetAddr ip_str = ip →
    (W.inetAddr mask_str = mask ∨ W.inetAddr mask_str = htonl mask) →
      calculateSubnetHosts W ip_str mask_str = .hosts (hostsOf mask)

theorem ones_complement (mask : BitVec 32) : ones (~~~mask).toNat = zeros mask := by
  rw [ones_positions 32 _ (~~~mask).isLt, zeros]
  apply List.countP_congr
  intro i member
  have inside := List.mem_range.mp member
  simp only [BitVec.testBit_toNat, BitVec.getLsbD_not, inside, decide_true, Bool.true_and]

theorem zeros_htonl (mask : BitVec 32) : zeros (htonl mask) = zeros mask := by
  rw [← ones_complement, ← ones_complement, htonl, ← swap32_not, ones_swap32]

/-- Only the mask of all ones has no zero. -/
theorem zeros_eq_zero {mask : BitVec 32} : zeros mask = 0 ↔ mask = INADDR_NONE := by
  constructor
  · intro none
    have all := List.countP_eq_zero.mp none
    apply BitVec.eq_of_getLsbD_eq
    intro i inside
    have one := all i (List.mem_range.mpr inside)
    have full : INADDR_NONE.getLsbD i = true := by
      rw [show INADDR_NONE = BitVec.allOnes 32 from rfl, BitVec.getLsbD_allOnes]
      exact decide_eq_true inside
    rw [full]
    simpa using one
  · rintro rfl
    decide

/-- The texts of one address and of one mask, in either byte order, count alike. -/
theorem hosts_of_texts (W : Winsock) {ip mask : BitVec 32} {ip_str mask_str : List Char}
    (ip_text : W.inetAddr ip_str = ip) (mask_text : W.inetAddr mask_str = mask ∨ W.inetAddr mask_str = htonl mask)
    (r : Int) : calculateSubnetHosts W ip_str mask_str = .hosts r ↔
      ip ≠ INADDR_NONE ∧ mask ≠ INADDR_NONE ∧ zeros mask ≤ 30 ∧ r = 2 ^ zeros mask - 2 := by
  have count : ones (~~~W.inetAddr mask_str).toNat = zeros mask := by
    rw [ones_complement]
    rcases mask_text with held | held
    · rw [held]
    · rw [held, zeros_htonl]
  have read : W.inetAddr mask_str ≠ INADDR_NONE ↔ mask ≠ INADDR_NONE := by
    rw [Ne, Ne, ← zeros_eq_zero, ← zeros_eq_zero, ← ones_complement, count]
  rw [hosts_iff, ip_text, read, count]

/-- The hosts of a subnet are counted for every address and every mask that do
    not read as errors, when the mask has at most thirty zeros. -/
theorem counted_iff (W : Winsock) (ip mask : BitVec 32) :
    Counted W ip mask ↔ ip ≠ INADDR_NONE ∧ mask ≠ INADDR_NONE ∧ zeros mask ≤ 30 := by
  constructor
  · rintro ⟨_, counted⟩
    have returned := counted (W.inetNtop ip) (W.inetNtop mask) (W.inverse ip) (.inl (W.inverse mask))
    obtain ⟨own, read, few, _⟩ := (hosts_of_texts W (W.inverse ip) (.inl (W.inverse mask)) _).mp returned
    exact ⟨own, read, few⟩
  · rintro ⟨own, read, few⟩
    have some : zeros mask ≠ 0 := fun none => read (zeros_eq_zero.mp none)
    have count : hostsOf mask = 2 ^ zeros mask - 2 := if_neg some
    refine ⟨?_, ?_⟩
    · have two : (2 : Int) ^ 1 ≤ 2 ^ zeros mask := pow_le_pow_right₀ (by omega) (by omega)
      rw [count]
      omega
    · intro ip_str mask_str ip_text mask_text
      exact (hosts_of_texts W ip_text mask_text _).mpr ⟨own, read, few, count⟩

/-- 10.8.0.2 on an adapter with the netmask 255.255.255.255. -/
theorem point_to_point_ends : ¬ Counted dottedQuads (htonl 0x0A080002) (htonl 0xFFFFFFFF) := by
  rintro ⟨_, counted⟩
  have returned := counted _ _ (dottedQuads.inverse _) (.inl (dottedQuads.inverse _))
  have valid := ((hosts_iff ..).mp returned).2.1
  rw [dottedQuads.inverse] at valid
  exact valid rfl

end WinMiniTools.HostCounts
