import WinMiniTools.RtcpParser

/-!
How far the parser gets. The length fields come from the datagram, and each
iteration takes the offset on by four bytes more than its field declares: by at
least four, so every word of the datagram is visited at most once, and by at
most 262144, so the offset leaves the datagram without leaving an `int`
(`parse_ends`).
-/
namespace WinMiniTools.RtcpProgress
open WinMiniTools.Words WinMiniTools.Loops WinMiniTools.RtcpParser

/-- The longest datagram whose end no length field carries out of an `int`. -/
def longest : Nat := 2 ^ 31 - 1 - 262144

/-- The offsets that a run takes, up to the one that it leaves the loop with. -/
def offsets (run : List Report × Ending) : List Nat :=
  run.1.map Report.offset ++
    match run.2 with
    | .done offset => [offset]
    | .overflow => []

/-- A run visits multiples of four, each after the one before, at most one for
    every word begun, and leaves behind the datagram. -/
structure Ends (packet_length : Nat) (run : List Report × Ending) : Prop where
  iterations : run.1.length ≤ (packet_length + 3) / 4
  aligned : ∀ offset ∈ offsets run, 4 ∣ offset
  increasing : (offsets run).Pairwise (· < ·)
  leaves : ∃ offset, run.2 = .done offset ∧ packet_length ≤ offset ∧ offset ≤ packet_length + 262143

/-- A length field declares whole words, and at most 65535 of them. -/
theorem paloadlen_step (packet : Memory) (offset : Nat) :
    4 ∣ (report packet offset).paloadlen ∧ (report packet offset).paloadlen ≤ 262140 := by
  have field : (report packet offset).paloadlen = 4 * (ntohs (rtcpHeader packet offset).length).toNat := rfl
  have word := (ntohs (rtcpHeader packet offset).length).isLt
  omega

/-- The walk from an offset in or shortly behind the datagram. -/
theorem walk_ends (packet : Memory) {packet_length : Nat} (bound : packet_length ≤ longest) (offset : Nat)
    (aligned : 4 ∣ offset) (near : offset ≤ packet_length + 262143) :
    ∃ last, (walk packet packet_length).result offset = .done last ∧
      offset ≤ last ∧ packet_length ≤ last ∧ last ≤ packet_length + 262143 ∧
      ((walk packet packet_length).events offset).length ≤ (packet_length + 3 - offset) / 4 ∧
      (∀ o ∈ ((walk packet packet_length).events offset).map Report.offset ++ [last], offset ≤ o ∧ 4 ∣ o) ∧
      (((walk packet packet_length).events offset).map Report.offset ++ [last]).Pairwise (· < ·) := by
  induction offset using (walk packet packet_length).induct with
  | step offset ih =>
    by_cases more : offset < packet_length
    · obtain ⟨words, short⟩ := paloadlen_step packet offset
      have fits : offset + ((report packet offset).paloadlen + 4) < 2 ^ 31 := by
        unfold longest at bound
        omega
      obtain ⟨events, result⟩ := walk_next more fits
      obtain ⟨last, done, later, past, limit, count, visited, increasing⟩ :=
        ih _ _ (walk_body more fits) (by omega) (by omega)
      have here : (report packet offset).offset = offset := rfl
      rw [events, result]
      refine ⟨last, done, by omega, past, limit, ?_, ?_, ?_⟩
      · rw [List.length_cons]
        omega
      · rw [List.map_cons, List.cons_append, here]
        intro o member
        rcases List.mem_cons.mp member with rfl | member
        · exact ⟨le_refl _, aligned⟩
        · have visit := visited o member
          exact ⟨by omega, visit.2⟩
      · rw [List.map_cons, List.cons_append, here, List.pairwise_cons]
        refine ⟨?_, increasing⟩
        intro o member
        have visit := visited o member
        omega
    · obtain ⟨events, result⟩ : (walk packet packet_length).events offset = [] ∧
          (walk packet packet_length).result offset = .done offset := walk_done (Nat.le_of_not_lt more)
      rw [events, result]
      refine ⟨offset, rfl, le_refl _, Nat.le_of_not_lt more, near, Nat.zero_le _, ?_, ?_⟩
      · intro o member
        rw [List.map_nil, List.nil_append, List.mem_singleton] at member
        rw [member]
        exact ⟨le_refl _, aligned⟩
      · exact List.pairwise_singleton _ _

/-- Every datagram that is not longer than `longest` is parsed to its end. -/
theorem parse_ends (packet : Memory) {packet_length : Nat} (bound : packet_length ≤ longest) :
    Ends packet_length (parseUdpPacket packet packet_length) := by
  obtain ⟨last, done, _, past, limit, count, visited, increasing⟩ :=
    walk_ends packet bound 0 (Nat.dvd_zero 4) (Nat.zero_le _)
  have taken : offsets (parseUdpPacket packet packet_length) =
      ((walk packet packet_length).events 0).map Report.offset ++ [last] := by
    simp only [offsets, parseUdpPacket, done]
  refine ⟨count, ?_, ?_, last, done, past, limit⟩
  · intro offset member
    rw [taken] at member
    exact (visited offset member).2
  · rw [taken]
    exact increasing

/-- The buffer of `main`, with whatever bytes. -/
theorem parse_ends_2048 :
    2048 ≤ longest ∧ Ends 2048 (parseUdpPacket (fun _ => 0) 2048) :=
  ⟨by decide, parse_ends (fun _ => 0) (by decide)⟩

end WinMiniTools.RtcpProgress
