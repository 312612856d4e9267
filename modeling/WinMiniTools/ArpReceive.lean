import WinMiniTools.ArpPackets

/-!
The receive loop of the network scanner: what it makes of the frames that
`pcap_next_ex` delivers. The loop lays `ArpPacket` over a frame and tests two of
its fields, never the captured length or the formats of the addresses. It
reports exactly the complete replies and reads nothing beyond the frames exactly
when every frame is long enough for the fields tested and every frame that
passes the tests is a complete reply (`receive_faithful_iff`).
-/
namespace WinMiniTools.ArpReceive
open WinMiniTools.Words WinMiniTools.ArpPackets

/-- A captured frame: its bytes below `caplen`, and the memory after them. -/
structure Frame where
  caplen : Nat
  data : Memory

/-- The values printed for a host: the argument of `inet_ntop`, and the MAC. -/
structure Host where
  ip : BitVec 32
  mac : Mac
  deriving DecidableEq

/-- One frame in the loop: the addresses read from it, and what is printed. -/
structure Handled where
  frame : Frame
  reads : List Nat
  printed : Option Host

/-- The body of the loop for a delivered frame. -/
def handle (frame : Frame) : Handled :=
  let rArpPacket := arpPacketAt frame.data
  if rArpPacket.ed.ethType ≠ htons ETH_ARP then
    { frame := frame, reads := List.range' 12 2, printed := none }
  else if rArpPacket.ah.operationField ≠ htons ARP_REPLY then
    { frame := frame, reads := List.range' 12 2 ++ List.range' 20 2, printed := none }
  else
    { frame := frame
      reads := List.range' 12 2 ++ List.range' 20 2 ++ List.range' 28 4 ++ List.range' 22 6
      printed := some { ip := rArpPacket.ah.sIp, mac := rArpPacket.ah.sMac } }

/-- What `pcap_next_ex` returns. -/
inductive NextEx where
  | packet (frame : Frame)
  | timeout
  | error (res : Int)

def NextEx.frame? : NextEx → Option Frame
  | .packet frame => some frame
  | .timeout => none
  | .error _ => none

/-- The frames among the results, in order. -/
def frames (results : List NextEx) : List Frame := results.filterMap NextEx.frame?

/-- The loop over the results that arrive before the flag is set: every result
    but a frame only starts the next iteration. -/
def receive : List NextEx → List Handled
  | [] => []
  | .packet frame :: rest => handle frame :: receive rest
  | .timeout :: rest => receive rest
  | .error _ :: rest => receive rest

def hosts (handled : List Handled) : List Host := handled.filterMap Handled.printed

/-! ### Replies -/

/-- A complete Ethernet and IPv4 ARP reply, read most significant byte first. -/
def IsReply (frame : Frame) : Prop :=
  42 ≤ frame.caplen ∧ join16 (frame.data 12) (frame.data 13) = ETH_ARP ∧
    join16 (frame.data 14) (frame.data 15) = ARP_HARDWARE ∧ join16 (frame.data 16) (frame.data 17) = ETH_IP ∧
    frame.data 18 = 6 ∧ frame.data 19 = 4 ∧ join16 (frame.data 20) (frame.data 21) = ARP_REPLY
instance (frame : Frame) : Decidable (IsReply frame) := inferInstanceAs (Decidable (_ ∧ _))

/-- The sender of a reply: bytes 28 to 31 and 22 to 27. -/
def sender (frame : Frame) : Host where
  ip := join32 (frame.data 31) (frame.data 30) (frame.data 29) (frame.data 28)
  mac := Vector.ofFn (fun i => frame.data (22 + i.val))

/-- What the loop tests of a frame. -/
def IsArp (frame : Frame) : Prop := join16 (frame.data 12) (frame.data 13) = ETH_ARP
def IsOperationReply (frame : Frame) : Prop := join16 (frame.data 20) (frame.data 21) = ARP_REPLY
instance (frame : Frame) : Decidable (IsArp frame) := inferInstanceAs (Decidable (_ = _))
instance (frame : Frame) : Decidable (IsOperationReply frame) := inferInstanceAs (Decidable (_ = _))

/-- The hosts reported are the senders of the complete replies, in order, and
    no read of a frame lies at or beyond its captured length. -/
def Faithful (results : List NextEx) : Prop :=
  hosts (receive results) = ((frames results).filter (fun frame => IsReply frame)).map sender ∧
    ∀ h ∈ receive results, ∀ a ∈ h.reads, a < h.frame.caplen

/-- A frame on which the tests of the loop are enough. -/
def Sound (frame : Frame) : Prop :=
  14 ≤ frame.caplen ∧ (IsArp frame → 22 ≤ frame.caplen ∧ (IsOperationReply frame → IsReply frame))

/-! ### One frame -/

private theorem load_eq_iff (mem : Memory) (a : Nat) (w : BitVec 16) :
    load16 mem a = htons w ↔ join16 (mem a) (mem (a + 1)) = w := by
  rw [htons, load16, ← swap16_join]
  constructor
  · intro same
    rw [← swap16_swap16 w, ← same, swap16_join, swap16_join]
  · rintro rfl
    rfl

/-- The three ways of a frame through the loop. -/
theorem handle_cases (frame : Frame) :
    (¬ IsArp frame ∧ handle frame = ⟨frame, List.range' 12 2, none⟩) ∨
    (IsArp frame ∧ ¬ IsOperationReply frame ∧
      handle frame = ⟨frame, List.range' 12 2 ++ List.range' 20 2, none⟩) ∨
    (IsArp frame ∧ IsOperationReply frame ∧
      handle frame = ⟨frame, List.range' 12 2 ++ List.range' 20 2 ++ List.range' 28 4 ++ List.range' 22 6,
        some (sender frame)⟩) := by
  have arp : (arpPacketAt frame.data).ed.ethType = htons ETH_ARP ↔ IsArp frame := load_eq_iff frame.data 12 ETH_ARP
  have operation : (arpPacketAt frame.data).ah.operationField = htons ARP_REPLY ↔ IsOperationReply frame :=
    load_eq_iff frame.data 20 ARP_REPLY
  by_cases isArp : IsArp frame
  · by_cases isReply : IsOperationReply frame
    · refine .inr (.inr ⟨isArp, isReply, ?_⟩)
      simp only [handle, arp, operation, isArp, isReply, ne_eq, not_true_eq_false, ↓reduceIte]
      rfl
    · refine .inr (.inl ⟨isArp, isReply, ?_⟩)
      simp only [handle, arp, operation, isArp, isReply, ne_eq, not_true_eq_false, not_false_eq_true, ↓reduceIte]
  · refine .inl ⟨isArp, ?_⟩
    simp only [handle, arp, isArp, ne_eq, not_false_eq_true, ↓reduceIte]

/-- A frame is printed, with its sender, exactly when it passes both tests. -/
theorem printed_eq (frame : Frame) :
    (handle frame).printed = if IsArp frame ∧ IsOperationReply frame then some (sender frame) else none := by
  obtain ⟨arp, run⟩ | ⟨arp, operation, run⟩ | ⟨arp, operation, run⟩ := handle_cases frame
  · simp [run, arp]
  · simp [run, operation]
  · simp [run, arp, operation]

theorem handle_frame (frame : Frame) : (handle frame).frame = frame := by
  obtain ⟨_, run⟩ | ⟨_, _, run⟩ | ⟨_, _, run⟩ := handle_cases frame <;> rw [run]

theorem reply_passes {frame : Frame} (reply : IsReply frame) : IsArp frame ∧ IsOperationReply frame :=
  ⟨reply.2.1, reply.2.2.2.2.2.2⟩

/-- Every complete reply is printed. -/
theorem printed_of_reply {frame : Frame} (reply : IsReply frame) : (handle frame).printed = some (sender frame) := by
  rw [printed_eq, if_pos (reply_passes reply)]

private theorem operation_congr {frame : Frame} {other : Memory}
    (agree : ∀ a ∈ List.range' 20 2, frame.data a = other a) :
    IsOperationReply { frame with data := other } ↔ IsOperationReply frame := by
  simp only [IsOperationReply, agree 20 (by decide), agree 21 (by decide)]

/-- What is printed for a frame depends on no byte that is not read. -/
theorem printed_congr {frame : Frame} {other : Memory} (agree : ∀ a ∈ (handle frame).reads, frame.data a = other a) :
    (handle { frame with data := other }).printed = (handle frame).printed := by
  rw [printed_eq, printed_eq]
  have reads := handle_cases frame
  have type : ∀ a ∈ List.range' 12 2, frame.data a = other a := by
    intro a member
    apply agree
    obtain ⟨_, run⟩ | ⟨_, _, run⟩ | ⟨_, _, run⟩ := reads <;> rw [run] <;> simp [member]
  have arp : IsArp { frame with data := other } ↔ IsArp frame := by
    simp only [IsArp, type 12 (by decide), type 13 (by decide)]
  obtain ⟨isArp, _⟩ | ⟨isArp, isReply, run⟩ | ⟨isArp, isReply, run⟩ := reads
  · simp [arp, isArp]
  · have operation : IsOperationReply { frame with data := other } ↔ IsOperationReply frame :=
      operation_congr (fun a member => agree a (by rw [run]; simp [member]))
    simp [operation, isReply]
  · have operation : IsOperationReply { frame with data := other } ↔ IsOperationReply frame :=
      operation_congr (fun a member => agree a (by rw [run]; simp [member]))
    have same : sender { frame with data := other } = sender frame := by
      simp only [run] at agree
      have mac : ∀ i : Fin 6, frame.data (22 + i.val) = other (22 + i.val) := fun i =>
        agree _ (List.mem_append_right _ (List.mem_range'_1.mpr ⟨by omega, by omega⟩))
      simp only [sender, mac, agree 28 (by decide), agree 29 (by decide), agree 30 (by decide), agree 31 (by decide)]
    simp only [arp, operation, isArp, isReply, same]

/-- The reads of a frame stay below its length exactly when it covers the
    fields that the tests lead to. -/
theorem reads_below_iff (frame : Frame) :
    (∀ a ∈ (handle frame).reads, a < frame.caplen) ↔
      14 ≤ frame.caplen ∧ (IsArp frame → 22 ≤ frame.caplen ∧ (IsOperationReply frame → 32 ≤ frame.caplen)) := by
  obtain ⟨isArp, run⟩ | ⟨isArp, isReply, run⟩ | ⟨isArp, isReply, run⟩ := handle_cases frame
  · simp only [run, isArp, false_implies, and_true, List.mem_range'_1]
    constructor
    · intro below
      exact below 13 (by omega)
    · intro long a member
      omega
  · simp only [run, isArp, isReply, true_implies, false_implies, and_true, List.mem_append, List.mem_range'_1]
    constructor
    · intro below
      have := below 21 (by omega)
      omega
    · rintro ⟨_, long⟩ a member
      omega
  · simp only [run, isArp, isReply, true_implies, List.mem_append, List.mem_range'_1]
    constructor
    · intro below
      have := below 31 (by omega)
      omega
    · rintro ⟨_, _, long⟩ a member
      omega

/-! ### All frames -/

theorem receive_eq (results : List NextEx) : receive results = (frames results).map handle := by
  induction results with
  | nil => rfl
  | cons result rest ih =>
    cases result with
    | packet frame => simp only [receive, ih, frames, NextEx.frame?, List.filterMap_cons, List.map_cons]
    | timeout => exact ih
    | error res => exact ih

private theorem hosts_eq (results : List NextEx) :
    hosts (receive results) =
      ((frames results).filter (fun frame => IsArp frame ∧ IsOperationReply frame)).map sender := by
  rw [receive_eq, hosts, List.filterMap_map]
  induction frames results with
  | nil => rfl
  | cons frame rest ih =>
    have printed := printed_eq frame
    by_cases passes : IsArp frame ∧ IsOperationReply frame
    · rw [if_pos passes] at printed
      have here : (Handled.printed ∘ handle) frame = some (sender frame) := printed
      rw [List.filterMap_cons_some here, List.filter_cons_of_pos (by simpa using passes), List.map_cons, ih]
    · rw [if_neg passes] at printed
      have here : (Handled.printed ∘ handle) frame = none := printed
      rw [List.filterMap_cons_none here, List.filter_cons_of_neg (by simpa using passes), ih]

/-- Filters of which one implies the other keep equally many elements only if
    they keep the same. -/
private theorem filter_agree {α : Type} {p q : α → Bool} {l : List α} (stronger : ∀ x ∈ l, q x → p x)
    (many : (l.filter p).length = (l.filter q).length) : ∀ x ∈ l, p x → q x := by
  have inner : (l.filter p).filter q = l.filter q := by
    rw [List.filter_filter]
    apply List.filter_congr
    intro x member
    cases kept : q x with
    | false => rfl
    | true => exact stronger x member kept
  have all := List.length_filter_eq_length_iff.mp ((congrArg List.length inner).trans many.symm)
  intro x member passes
  exact all x (List.mem_filter.mpr ⟨member, passes⟩)

/-- The loop reports exactly the complete replies and reads nothing beyond the
    frames exactly when its tests are enough on every frame. -/
theorem receive_faithful_iff (results : List NextEx) :
    Faithful results ↔ ∀ frame ∈ frames results, Sound frame := by
  have below : (∀ h ∈ receive results, ∀ a ∈ h.reads, a < h.frame.caplen) ↔
      ∀ frame ∈ frames results, ∀ a ∈ (handle frame).reads, a < frame.caplen := by
    rw [receive_eq]
    simp only [List.forall_mem_map, handle_frame]
  rw [Faithful, hosts_eq, below]
  constructor
  · rintro ⟨same, reads⟩ frame member
    obtain ⟨fourteen, later⟩ := (reads_below_iff frame).mp (reads frame member)
    refine ⟨fourteen, fun arp => ⟨(later arp).1, fun operation => ?_⟩⟩
    have agree := filter_agree (p := fun frame => decide (IsArp frame ∧ IsOperationReply frame))
      (q := fun frame => decide (IsReply frame)) (l := frames results)
      (fun x _ reply => decide_eq_true (reply_passes (of_decide_eq_true reply)))
      (by simpa using congrArg List.length same) frame member (decide_eq_true ⟨arp, operation⟩)
    exact of_decide_eq_true agree
  · intro sound
    constructor
    · congr 1
      apply List.filter_congr
      intro frame member
      rw [decide_eq_decide]
      exact ⟨fun passes => ((sound frame member).2 passes.1).2 passes.2, reply_passes⟩
    · intro frame member
      obtain ⟨fourteen, later⟩ := sound frame member
      refine (reads_below_iff frame).mpr ⟨fourteen, fun arp => ⟨(later arp).1, fun operation => ?_⟩⟩
      have long := ((later arp).2 operation).1
      omega

/-- The first thirty-two bytes of a reply: the filter passes them, the loop
    reports their sender, and the reply is not complete. -/
private def shortReply : Frame where
  caplen := 32
  data := buffer [0xff, 0xff, 0xff, 0xff, 0xff, 0xff, 2, 0, 0, 0, 0, 1, 8, 6, 0, 1, 8, 0, 6, 4, 0, 2, 2, 0, 0, 0, 0, 1,
    192, 168, 1, 7] (fun _ => 0)

theorem short_reply_reported : ¬ Faithful [.packet shortReply] := by
  rintro ⟨same, _⟩
  revert same
  decide

end WinMiniTools.ArpReceive
