import Rcopy.Lib.AscendingLog
import Rcopy.Lib.Runs
import Rcopy.Receive

/-!
# The order of the writes

Abstractly, one run of `doGetDataState` delivers packet numbers to a log that
only ascends. The receive loop tracks such a log, whatever the datagrams contain
and in whichever sub-state they are handled: the numbers written so far are the
log, and the next number of the log is `expected`.
-/

namespace Rcopy

structure Tracks (c : Client) (s : GetData) (L : AscendingLog ℤ) : Prop where
  wellFormed : s.receiver.rbuf.WellFormed
  windowSize : s.receiver.rbuf.windowSize = c.windowSize
  nonneg : 0 ≤ s.receiver.rbuf.expected
  numbers : s.receiver.file.map FWrite.seq = L.numbers
  next : s.receiver.rbuf.expected = L.next

def InRange (c : Client) (s : GetData) : Prop :=
  s.receiver.rbuf.expected < 2147483647 - c.windowSize

instance (c : Client) : DecidablePred (InRange c) :=
  fun s => inferInstanceAs (Decidable (s.receiver.rbuf.expected < 2147483647 - c.windowSize))

theorem enterGetData_tracks {c : Client} (raw : ReceiverBuffer) (hw : 1 ≤ c.windowSize) :
    Tracks c (enterGetData c raw) (AscendingLog.start 0) :=
  ⟨initReceiverBuffer_wellFormed raw c.bufferSize hw, rfl, le_refl 0, rfl, rfl⟩

theorem writePayloadToFile_seqs (c : Client) (buffer : List UInt8) :
    (writePayloadToFile c buffer).map FWrite.seq = [] ∨
    (writePayloadToFile c buffer).map FWrite.seq = [((seqOf buffer).toNat : ℤ)] := by
  unfold writePayloadToFile
  split_ifs
  · exact Or.inl rfl
  · exact Or.inr rfl

theorem Handled.extends {c : Client} {r r' : Receiver} {buffer : List UInt8}
    {attempts : ℕ → Attempt} {st st' : ReceiveState} (h : Handled c r buffer attempts st st' r')
    (hw : r.rbuf.WellFormed) (h₀ : 0 ≤ r.rbuf.expected)
    (hr : r.rbuf.expected + 1 + r.rbuf.windowSize < 2147483648) :
    ∃ batch : List ℤ, r'.file.map FWrite.seq = r.file.map FWrite.seq ++ batch ∧
      batch.Pairwise (· < ·) ∧ r.rbuf.expected ≤ r'.rbuf.expected ∧
      ∀ n ∈ batch, r.rbuf.expected ≤ n ∧ n < r'.rbuf.expected := by
  have hpos := hw.window_pos
  cases h with
  | kept _ hbuf hf =>
    refine ⟨[], by simp [hf], List.Pairwise.nil, le_of_eq (by rw [hbuf]), by simp⟩
  | written hseq hbuf hf =>
    obtain ⟨packet, size, has, hbuf⟩ := hbuf
    have he : r'.rbuf.expected = r.rbuf.expected + 1 := by
      rw [hbuf]
      exact i32_of_range (by omega) (by omega)
    have hnum : ((seqOf buffer).toNat : ℤ) = r.rbuf.expected := by
      rw [hseq]
      exact toU32_toNat_of_range h₀ (by omega)
    refine ⟨(writePayloadToFile c buffer).map FWrite.seq, by rw [hf, List.map_append], ?_⟩
    rcases writePayloadToFile_seqs c buffer with hs | hs
    · rw [hs]
      exact ⟨List.Pairwise.nil, by omega, by simp⟩
    · rw [hs, hnum]
      refine ⟨List.pairwise_singleton _ _, by omega, ?_⟩
      intro n hn
      rw [List.mem_singleton] at hn
      omega
  | buffered hbuf hf =>
    have he : r'.rbuf.expected = r.rbuf.expected := by
      rw [hbuf]
      exact insertReceiverPacket_expected _ _ _
    exact ⟨[], by simp [hf], List.Pairwise.nil, le_of_eq he.symm, by simp⟩
  | flushed _ hbuf hf =>
    obtain ⟨n, he, hs⟩ := flushBuffer_seqs hw h₀ hr
    rw [← hbuf] at he
    refine ⟨(flushBuffer r.rbuf).writes.map FWrite.seq, by rw [hf, List.map_append], ?_, by omega, ?_⟩
    · rw [hs, List.pairwise_map]
      refine List.pairwise_lt_range.imp ?_
      intro i j hij
      omega
    · intro k hk
      rw [hs, List.mem_map] at hk
      obtain ⟨j, hj, rfl⟩ := hk
      rw [List.mem_range] at hj
      omega

theorem receiveTurn_tracks {c : Client} {s : GetData} {L : AscendingLog ℤ} (t : Turn)
    (h : Tracks c s L) (hr : InRange c s) :
    ∃ L', Tracks c (receiveTurn c s t) L' ∧ L.next ≤ L'.next := by
  rcases receiveTurn_cases c s t with ⟨hrec, -, -⟩ | ⟨d, -, -, -, -, hstep⟩
  · refine ⟨L, ⟨?_, ?_, ?_, ?_, ?_⟩, le_refl _⟩ <;> rw [hrec]
    · exact h.wellFormed
    · exact h.windowSize
    · exact h.nonneg
    · exact h.numbers
    · exact h.next
  · have hh := handleDataPacket_handled c s.subState s.receiver (t.received c d) t.attempts
    have hwin := h.windowSize
    have hrange : s.receiver.rbuf.expected + 1 + s.receiver.rbuf.windowSize < 2147483648 := by
      simp only [InRange] at hr
      omega
    obtain ⟨batch, hf, hsorted, hle, hbatch⟩ := hh.extends h.wellFormed h.nonneg hrange
    rw [h.next] at hle hbatch
    refine ⟨L.extend hle hsorted hbatch, ⟨?_, ?_, ?_, ?_, ?_⟩, hle⟩ <;> rw [hstep] <;> dsimp only
    · exact hh.wellFormed h.wellFormed
    · exact hh.windowSize.trans hwin
    · exact le_trans (h.next ▸ h.nonneg) hle
    · rw [hf, h.numbers]
      rfl
    · rfl

/-- The numbers written during one run of `doGetDataState` strictly increase and
`expected` never decreases, while `expected` stays in range. -/
theorem writes_strictly_increase (c : Client) (raw : ReceiverBuffer) (turns : List Turn)
    (hw : 1 ≤ c.windowSize)
    (hr : Runs.Always (receiveTurn c) (InRange c) (enterGetData c raw) turns) :
    ((Runs.exec (receiveTurn c) (enterGetData c raw) turns).receiver.file.map FWrite.seq).Pairwise
        (· < ·) ∧
    Runs.EveryStep (receiveTurn c)
      (fun s t => s.receiver.rbuf.expected ≤ (receiveTurn c s t).receiver.rbuf.expected)
      (enterGetData c raw) turns := by
  have hs : ∃ L, Tracks c (enterGetData c raw) L := ⟨_, enterGetData_tracks raw hw⟩
  have keep : ∀ s t, InRange c s → (∃ L, Tracks c s L) → ∃ L, Tracks c (receiveTurn c s t) L := by
    intro s t hrange hL
    obtain ⟨L, hL⟩ := hL
    obtain ⟨L', hL', -⟩ := receiveTurn_tracks t hL hrange
    exact ⟨L', hL'⟩
  constructor
  · obtain ⟨L, hL⟩ := (Runs.always_of_guard keep hs hr).last
    rw [hL.numbers]
    exact L.sorted
  · refine Runs.everyStep_of_guard keep ?_ hs hr
    intro s t hrange _ hL
    obtain ⟨L, hL⟩ := hL
    obtain ⟨L', hL', hle⟩ := receiveTurn_tracks t hL hrange
    rw [hL.next, hL'.next]
    exact hle

/-- A client with a window of two, and a turn that receives the packet `k` with
one byte of payload; the first RR fails, and packet `k + 1` comes instead. -/
def smallClient : Client where
  socketNum := 3
  windowSize := 2
  bufferSize := 1

def smallTurn (k : UInt8) : Turn where
  poll := 3
  heap := fun _ => 0
  recv := some [0, 0, 0, k, 0, 0, 16, k]
  attempts := fun _ => ⟨-1, 3, fun _ => 0, some [0, 0, 0, k + 1, 0, 0, 16, k + 1]⟩

theorem writes_strictly_increase_two :
    ((Runs.exec (receiveTurn smallClient) (enterGetData smallClient freshBuffer)
      [smallTurn 0, smallTurn 1]).receiver.file.map FWrite.seq).Pairwise (· < ·) :=
  (writes_strictly_increase smallClient freshBuffer [smallTurn 0, smallTurn 1] (by decide)
    (by decide)).1

end Rcopy
