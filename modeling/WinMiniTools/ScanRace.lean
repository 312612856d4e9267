import WinMiniTools.SubnetSweep
import WinMiniTools.ArpReceive
import WinMiniTools.Machines

/-!
The scan as a whole: the sender thread of `SubnetSweep`, the capture queue and
the receive loop of `ArpReceive`, in any order of their steps. What is printed
is what the receive loop makes of the frames that it has been given
(`printed_hosts`). The loop tests `g_bFlag` before every frame it takes, so once
the flag is set it takes at most one more frame, and only when it had passed the
test already (`takes_one`). Replies are lost exactly when more than that one
frame of the queue is a reply (`none_lost_iff`).
-/
namespace WinMiniTools.ScanRace
open WinMiniTools.Words WinMiniTools.ArpPackets WinMiniTools.SubnetSweep WinMiniTools.ArpReceive WinMiniTools.Machines

/-- Where `main` is: before the test of the flag, before `pcap_next_ex`, with
    the captured frame of an index in hand, or past `pcap_close`. -/
inductive MainAt where
  | test
  | fetch
  | handling (index : Nat)
  | closed
  deriving DecidableEq

/-- Frames are captured in order of arrival; those from `taken` on are queued. -/
structure Scan where
  sender : List SenderStep
  g_bFlag : Bool
  captured : List Frame
  taken : Nat
  main : MainAt
  printed : List Nat

/-- Which party moves: the sender thread, the network, or `main`. -/
inductive Move where
  | sender
  | arrive (frame : Frame)
  | main

/-- Whether the body of the loop prints the captured frame of an index. -/
def prints (captured : List Frame) (index : Nat) : Bool :=
  match captured[index]? with
  | none => false
  | some frame => (handle frame).printed.isSome

def senderStep (s : Scan) : Option Scan :=
  match s.sender with
  | [] => none
  | .request _ :: rest => some { s with sender := rest }
  | .sleep _ :: rest => some { s with sender := rest }
  | .setFlag :: rest => some { s with sender := rest, g_bFlag := true }

/-- An empty queue makes `pcap_next_ex` return no frame, and the loop goes on. -/
def mainStep (s : Scan) : Option Scan :=
  match s.main with
  | .test => some { s with main := if s.g_bFlag then .closed else .fetch }
  | .fetch =>
    if s.taken < s.captured.length then some { s with main := .handling s.taken, taken := s.taken + 1 }
    else some { s with main := .test }
  | .handling index =>
    some { s with main := .test, printed := if prints s.captured index then s.printed ++ [index] else s.printed }
  | .closed => none

def scan : Machine Scan Move where
  step s
    | .sender => senderStep s
    | .arrive frame => some { s with captured := s.captured ++ [frame] }
    | .main => mainStep s

/-- The scan when `main` has created the sender thread. -/
def start (W : Winsock) (spara : Sparam) : Scan where
  sender := (sendArpPacket W spara).steps
  g_bFlag := false
  captured := []
  taken := 0
  main := .test
  printed := []

/-- The sender thread is about to set the flag. -/
def SetsFlag (s : Scan) : Prop := ∃ rest, s.sender = .setFlag :: rest

/-- Every reply in the queue of `s` is printed in `t`. -/
def NoneLost (s t : Scan) : Prop :=
  ∀ i (inside : i < s.captured.length), s.taken ≤ i → IsReply s.captured[i] → i ∈ t.printed

/-- No frame in the queue of `s` is a reply, but for the one that `main` is
    about to take. -/
def QueueDrained (s : Scan) : Prop :=
  ∀ i (inside : i < s.captured.length), s.taken ≤ i → IsReply s.captured[i] → s.main = .fetch ∧ i = s.taken

/-! ### What a step does -/

/-- The moves of a scan, by party and by the place of `main`. -/
theorem step_cases {s t : Scan} {move : Move} (step : scan.step s move = some t) :
    (∃ rest flag, t = { s with sender := rest, g_bFlag := flag } ∧ (s.g_bFlag = true → flag = true)) ∨
    (∃ frame, t = { s with captured := s.captured ++ [frame] }) ∨
    (s.main = .test ∧ t = { s with main := if s.g_bFlag then .closed else .fetch }) ∨
    (s.main = .fetch ∧ s.taken < s.captured.length ∧ t = { s with main := .handling s.taken, taken := s.taken + 1 }) ∨
    (s.main = .fetch ∧ s.captured.length ≤ s.taken ∧ t = { s with main := .test }) ∨
    (∃ index, s.main = .handling index ∧
      t = { s with main := .test, printed := if prints s.captured index then s.printed ++ [index] else s.printed }) := by
  cases move with
  | sender =>
    left
    simp only [scan, senderStep] at step
    split at step
    · cases step
    · cases step; exact ⟨_, _, rfl, id⟩
    · cases step; exact ⟨_, _, rfl, id⟩
    · cases step; exact ⟨_, _, rfl, fun _ => rfl⟩
  | arrive frame =>
    cases step
    exact .inr (.inl ⟨frame, rfl⟩)
  | main =>
    right; right
    simp only [scan, mainStep] at step
    cases place : s.main with
    | test =>
      rw [place] at step
      cases step
      exact .inl ⟨rfl, rfl⟩
    | fetch =>
      rw [place] at step
      by_cases more : s.taken < s.captured.length
      · simp only [more, ↓reduceIte] at step
        cases step
        exact .inr (.inl ⟨rfl, more, rfl⟩)
      · simp only [more, ↓reduceIte] at step
        cases step
        exact .inr (.inr (.inl ⟨rfl, Nat.le_of_not_lt more, rfl⟩))
    | handling index =>
      rw [place] at step
      cases step
      exact .inr (.inr (.inr ⟨index, rfl, rfl⟩))
    | closed =>
      rw [place] at step
      cases step

/-- What is printed or in hand has been taken, and what is taken has arrived. -/
structure Taken (s : Scan) : Prop where
  printed : ∀ i ∈ s.printed, i < s.taken
  handling : ∀ i, s.main = .handling i → i < s.taken
  arrived : s.taken ≤ s.captured.length

theorem taken_start (W : Winsock) (spara : Sparam) : Taken (start W spara) :=
  ⟨by simp [start], by simp [start], by simp [start]⟩

theorem taken_step (s : Scan) (move : Move) (t : Scan) (inv : Taken s) (step : scan.step s move = some t) : Taken t := by
  obtain ⟨rest, flag, rfl, _⟩ | ⟨frame, rfl⟩ | ⟨_, rfl⟩ | ⟨_, more, rfl⟩ | ⟨_, _, rfl⟩ | ⟨index, inHand, rfl⟩ :=
    step_cases step
  · exact ⟨inv.printed, inv.handling, inv.arrived⟩
  · exact ⟨inv.printed, inv.handling, by simpa using Nat.le_succ_of_le inv.arrived⟩
  · refine ⟨inv.printed, ?_, inv.arrived⟩
    intro i handling
    simp only at handling
    split at handling <;> cases handling
  · refine ⟨fun i member => Nat.lt_succ_of_lt (inv.printed i member), ?_, more⟩
    intro i handling
    cases handling
    exact Nat.lt_succ_self _
  · exact ⟨inv.printed, by simp, inv.arrived⟩
  · refine ⟨?_, by simp, inv.arrived⟩
    intro i member
    simp only at member
    split at member
    · rcases List.mem_append.mp member with before | this
      · exact inv.printed i before
      · rw [List.mem_singleton.mp this]
        exact inv.handling index inHand
    · exact inv.printed i member

/-! ### What is printed -/

/-- How many frames have been through the body of the loop. -/
def handledCount (s : Scan) : Nat :=
  match s.main with
  | .test => s.taken
  | .fetch => s.taken
  | .handling index => index
  | .closed => s.taken

/-- The frames printed are, in order, those of the handled ones that the loop prints. -/
structure PrintsInOrder (s : Scan) : Prop where
  taken : Taken s
  inHand : ∀ index, s.main = .handling index → s.taken = index + 1
  printed : s.printed = (List.range (handledCount s)).filter (prints s.captured)

theorem handled_arrived {s : Scan} (taken : Taken s) : handledCount s ≤ s.captured.length := by
  have arrived := taken.arrived
  cases place : s.main with
  | test => simpa [handledCount, place] using arrived
  | fetch => simpa [handledCount, place] using arrived
  | handling index =>
    have inside := taken.handling index place
    simp only [handledCount, place]
    omega
  | closed => simpa [handledCount, place] using arrived

/-- A later arrival does not change what is printed for a frame. -/
theorem prints_append {captured : List Frame} {i : Nat} (inside : i < captured.length) (frame : Frame) :
    prints (captured ++ [frame]) i = prints captured i := by
  rw [prints, prints, List.getElem?_append_left inside]

theorem prints_in_order (s : Scan) (move : Move) (t : Scan) (inv : PrintsInOrder s) (step : scan.step s move = some t) :
    PrintsInOrder t := by
  have taken := taken_step s move t inv.taken step
  have handled := handled_arrived inv.taken
  have printed := inv.printed
  obtain ⟨rest, flag, rfl, _⟩ | ⟨frame, rfl⟩ | ⟨test, rfl⟩ | ⟨fetch, _, rfl⟩ | ⟨fetch, _, rfl⟩ | ⟨index, inHand, rfl⟩ :=
    step_cases step
  · exact ⟨taken, inv.inHand, printed⟩
  · refine ⟨taken, inv.inHand, printed.trans (List.filter_congr ?_)⟩
    intro i member
    exact (prints_append (Nat.lt_of_lt_of_le (List.mem_range.mp member) handled) frame).symm
  · refine ⟨taken, ?_, ?_⟩
    · intro index handling
      simp only at handling
      split at handling <;> cases handling
    · rw [handledCount, test] at printed
      cases flag : s.g_bFlag <;> exact printed
  · refine ⟨taken, ?_, ?_⟩
    · intro index handling
      cases handling
      rfl
    · rw [handledCount, fetch] at printed
      exact printed
  · refine ⟨taken, by simp, ?_⟩
    rw [handledCount, fetch] at printed
    exact printed
  · have one := inv.inHand index inHand
    refine ⟨taken, by simp, ?_⟩
    rw [handledCount, inHand] at printed
    simp only [handledCount, one, List.range_succ, List.filter_append, printed]
    by_cases here : prints s.captured index = true
    · simp [here]
    · simp [here]

/-- The hosts of the printed frames. -/
def printedHosts (s : Scan) : List Host :=
  s.printed.filterMap (fun i => (s.captured[i]?).bind (fun frame => (handle frame).printed))

private theorem hosts_range (captured : List Frame) (n : Nat) :
    ((List.range n).filter (prints captured)).filterMap
        (fun i => (captured[i]?).bind (fun frame => (handle frame).printed)) =
      (captured.take n).filterMap (fun frame => (handle frame).printed) := by
  induction n with
  | zero => simp
  | succ n ih =>
    rw [List.range_succ, List.filter_append, List.filterMap_append, ih, List.take_add_one, List.filterMap_append]
    congr 1
    cases here : captured[n]? with
    | none => simp [prints, here]
    | some frame => cases printed : (handle frame).printed <;> simp [prints, here, printed]

/-- After every run of a scan the hosts printed are those that the receive loop
    reports for the frames it has been given so far. -/
theorem printed_hosts (W : Winsock) (spara : Sparam) {moves : List Move} {s : Scan}
    (reached : scan.run (start W spara) moves = some s) :
    printedHosts s = hosts (receive ((s.captured.take (handledCount s)).map .packet)) := by
  have inv : PrintsInOrder s :=
    scan.run_invariant prints_in_order ⟨taken_start W spara, by simp [start], rfl⟩ reached
  rw [printedHosts, inv.printed, hosts_range, receive_eq, hosts, List.filterMap_map, frames, List.filterMap_map]
  congr 1
  exact List.filterMap_some.symm

/-! ### After the flag is set -/

/-- Since the state `s`, with the flag set: `main` has taken nothing, or it has
    taken the one frame it was about to take. -/
structure AtMostOne (s t : Scan) : Prop where
  flag : t.g_bFlag = true
  taken : Taken t
  one : (t.taken = s.taken ∧ (t.main = .fetch → s.main = .fetch)) ∨
    (t.taken = s.taken + 1 ∧ t.main ≠ .fetch ∧ s.main = .fetch)

theorem takes_one (s t : Scan) (move : Move) (u : Scan) (inv : AtMostOne s t) (step : scan.step t move = some u) :
    AtMostOne s u := by
  have taken := taken_step t move u inv.taken step
  have flag := inv.flag
  have one := inv.one
  obtain ⟨rest, b, rfl, keeps⟩ | ⟨frame, rfl⟩ | ⟨_, rfl⟩ | ⟨fetch, more, rfl⟩ | ⟨fetch, _, rfl⟩ | ⟨index, inHand, rfl⟩ :=
    step_cases step
  · exact ⟨keeps flag, taken, one⟩
  · exact ⟨flag, taken, one⟩
  · refine ⟨flag, taken, ?_⟩
    rcases one with ⟨none, _⟩ | ⟨one, _, was⟩
    · exact .inl ⟨none, by simp [flag]⟩
    · exact .inr ⟨one, by simp [flag], was⟩
  · refine ⟨flag, taken, ?_⟩
    rcases one with ⟨none, was⟩ | ⟨_, notFetch, _⟩
    · exact .inr ⟨congrArg (· + 1) none, by simp, was fetch⟩
    · exact absurd fetch notFetch
  · refine ⟨flag, taken, ?_⟩
    rcases one with ⟨none, _⟩ | ⟨one, notFetch, _⟩
    · exact .inl ⟨none, by simp⟩
    · exact absurd fetch notFetch
  · refine ⟨flag, taken, ?_⟩
    rcases one with ⟨none, _⟩ | ⟨one, _, was⟩
    · exact .inl ⟨none, by simp⟩
    · exact .inr ⟨one, by simp, was⟩

/-- The way of the frame that `main` is about to take, until it is printed. -/
def OnItsWay (index : Nat) (frame : Frame) (t : Scan) : Prop :=
  t.captured[index]? = some frame ∧
    ((t.main = .fetch ∧ t.taken = index) ∨ t.main = .handling index ∨ index ∈ t.printed)

theorem on_its_way (index : Nat) (frame : Frame) (reply : IsReply frame) (t : Scan) (move : Move) (u : Scan)
    (inv : OnItsWay index frame t) (step : scan.step t move = some u) : OnItsWay index frame u := by
  obtain ⟨captured, way⟩ := inv
  have prints : prints t.captured index = true := by
    simp [prints, captured, printed_of_reply reply]
  obtain ⟨rest, b, rfl, _⟩ | ⟨other, rfl⟩ | ⟨test, rfl⟩ | ⟨fetch, more, rfl⟩ | ⟨fetch, empty, rfl⟩ | ⟨i, inHand, rfl⟩ :=
    step_cases step
  · exact ⟨captured, way⟩
  · refine ⟨?_, way⟩
    have inside := (List.getElem?_eq_some_iff.mp captured).1
    simp only [List.getElem?_append_left inside, captured]
  · refine ⟨captured, ?_⟩
    rcases way with ⟨fetch, _⟩ | handling | printed
    · rw [test] at fetch; cases fetch
    · rw [test] at handling; cases handling
    · exact .inr (.inr printed)
  · refine ⟨captured, ?_⟩
    rcases way with ⟨_, here⟩ | handling | printed
    · exact .inr (.inl (by rw [here]))
    · rw [fetch] at handling; cases handling
    · exact .inr (.inr printed)
  · refine ⟨captured, ?_⟩
    rcases way with ⟨_, here⟩ | handling | printed
    · have inside := (List.getElem?_eq_some_iff.mp captured).1
      omega
    · rw [fetch] at handling; cases handling
    · exact .inr (.inr printed)
  · refine ⟨captured, .inr (.inr ?_)⟩
    rcases way with ⟨fetch, _⟩ | handling | printed
    · rw [inHand] at fetch; cases fetch
    · rw [inHand] at handling
      cases handling
      simp [prints]
    · simp only
      split
      · exact List.mem_append_left _ printed
      · exact printed

/-- In every run of a scan to its end, no reply that is queued when the flag is
    set is lost exactly if the queue is drained of replies then, but for the one
    that `main` is about to take. -/
theorem none_lost_iff (W : Winsock) (spara : Sparam) {before after : List Move} {s t : Scan}
    (reached : scan.run (start W spara) before = some s) (sets : SetsFlag s)
    (ended : scan.run s (.sender :: after) = some t) (closed : t.main = .closed) :
    NoneLost s t ↔ QueueDrained s := by
  obtain ⟨rest, next⟩ := sets
  obtain ⟨set, setStep, later⟩ := scan.run_cons_some.mp ended
  have setIs : set = { s with sender := rest, g_bFlag := true } := by
    simp only [scan, senderStep, next] at setStep
    exact (Option.some.inj setStep).symm
  have taken : Taken s := scan.run_invariant taken_step (taken_start W spara) reached
  have atMostOne : AtMostOne s t := by
    refine scan.run_invariant (takes_one s) ⟨?_, ?_, ?_⟩ later
    · rw [setIs]
    · exact taken_step s .sender set taken setStep
    · rw [setIs]; exact .inl ⟨rfl, id⟩
  constructor
  · intro noneLost i inside queued reply
    have below := atMostOne.taken.printed i (noneLost i inside queued reply)
    rcases atMostOne.one with ⟨none, _⟩ | ⟨one, _, fetch⟩
    · omega
    · exact ⟨fetch, by omega⟩
  · intro drained i inside queued reply
    obtain ⟨fetch, here⟩ := drained i inside queued reply
    have way : OnItsWay i s.captured[i] t := by
      refine scan.run_invariant (on_its_way i s.captured[i] reply) ⟨?_, ?_⟩ later
      · rw [setIs]; exact List.getElem?_eq_getElem inside
      · rw [setIs]; exact .inl ⟨fetch, here.symm⟩
    rcases way.2 with ⟨fetch, _⟩ | handling | printed
    · rw [closed] at fetch; cases fetch
    · rw [closed] at handling; cases handling
    · exact printed

/-- A reply of 192.168.1.7, as captured. -/
def reply7 : Frame where
  caplen := 42
  data := buffer [0xff, 0xff, 0xff, 0xff, 0xff, 0xff, 2, 0, 0, 0, 0, 1, 8, 6, 0, 1, 8, 0, 6, 4, 0, 2, 2, 0, 0, 0, 0, 1,
    192, 168, 1, 7, 2, 0, 0, 0, 0, 2, 192, 168, 1, 5] (fun _ => 0)

/-- 192.168.1.5 in 192.168.1.4/30. -/
def sparam30 : Sparam := sparam dottedQuads 0xC0A80105 (prefixMask 30) (Vector.replicate 6 0)

/-- Two replies arrive in the pause, and `main` is about to take the first of
    them when the thread sets the flag. -/
private theorem burst_run : ∃ s t, scan.run (start dottedQuads sparam30)
      [.sender, .sender, .sender, .arrive reply7, .arrive reply7, .main] = some s ∧ SetsFlag s ∧
    scan.run s (.sender :: [.main, .main, .main]) = some t ∧ t.main = .closed ∧
    s.captured = [reply7, reply7] ∧ s.taken = 0 ∧ t.printed = [0] := by
  have steps : (sendArpPacket dottedQuads sparam30).steps =
      [.request (sendbuf dottedQuads sparam30 0), .request (sendbuf dottedQuads sparam30 1), .sleep 3000, .setFlag] := by
    have valid : htonl 0xC0A80105 ≠ INADDR_NONE := by decide
    have hosts := hosts_prefix dottedQuads (p := 30) (Vector.replicate 6 0) (by decide) (by decide) valid
    rw [sendArpPacket, sparam30, hosts]
    rfl
  have replies : prints [reply7, reply7] 0 = true := by decide
  let s : Scan :=
    { sender := [.setFlag], g_bFlag := false, captured := [reply7, reply7], taken := 0, main := .fetch, printed := [] }
  let t : Scan :=
    { sender := [], g_bFlag := true, captured := [reply7, reply7], taken := 1, main := .closed, printed := [0] }
  refine ⟨s, t, ?_, ⟨[], rfl⟩, ?_, rfl, rfl, rfl, rfl⟩
  · simp [s, Machine.run, scan, senderStep, mainStep, start, steps]
  · simp [s, t, Machine.run, scan, senderStep, mainStep, replies]

/-- The second of two replies that arrive in the pause is lost. -/
theorem second_reply_lost :
    ¬ ∀ before after s t, scan.run (start dottedQuads sparam30) before = some s → SetsFlag s →
      scan.run s (.sender :: after) = some t → t.main = .closed → NoneLost s t := by
  intro always
  obtain ⟨s, t, reached, sets, ended, closed, captured, taken, printed⟩ := burst_run
  have isReply : IsReply reply7 := by decide
  have inside : 1 < s.captured.length := by simp [captured]
  have lost := always _ _ s t reached sets ended closed 1 inside (by omega) (by simpa [captured] using isReply)
  simp [printed] at lost

theorem none_lost_burst :
    ∃ s t, scan.run (start dottedQuads sparam30)
        [.sender, .sender, .sender, .arrive reply7, .arrive reply7, .main] = some s ∧ SetsFlag s ∧
      scan.run s (.sender :: [.main, .main, .main]) = some t ∧ t.main = .closed ∧
      (NoneLost s t ↔ QueueDrained s) := by
  obtain ⟨s, t, reached, sets, ended, closed, _⟩ := burst_run
  exact ⟨s, t, reached, sets, ended, closed, none_lost_iff dottedQuads sparam30 reached sets ended closed⟩

end WinMiniTools.ScanRace
