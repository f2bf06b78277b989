import Rcopy.Receive
import Rcopy.ReorderLoss

/-!
# Where a flush leads

`doFlushingState` chooses the next sub-state by `highest`, in place of the slots.
`highest` starts at -1 and is raised by a comparison with an unsigned number, in
which -1 is larger than every number: it is never raised.
-/

namespace Rcopy

open Bytes

/-- A datagram handed to `handleDataPacket` and what its resend loop meets. -/
structure HandlerCall where
  buffer : List UInt8
  attempts : ℕ → Attempt

/-- The receiver between two calls, with the numbers that `insertReceiverPacket` has
accepted. -/
structure Handling where
  subState : ReceiveState
  receiver : Receiver
  accepted : List Int

def handleCall (c : Client) (s : Handling) (call : HandlerCall) : Handling :=
  let handled := handleDataPacket c s.subState s.receiver call.buffer call.attempts
  { subState := handled.1
    receiver := handled.2
    accepted :=
      if s.subState = .buffering ∧ ¬seqOf call.buffer < toU32 s.receiver.rbuf.expected ∧
          s.receiver.rbuf.Accepts call.buffer pointerSize then
        (seqOf call.buffer).toNat :: s.accepted
      else s.accepted }

def enterHandling (c : Client) (raw : ReceiverBuffer) : Handling where
  subState := .inOrder
  receiver := (enterGetData c raw).receiver
  accepted := []

def ReceiverBuffer.StillHolds (rb : ReceiverBuffer) : Prop :=
  ∃ o ∈ rb.buffer, ∃ p ∈ o, p.valid = 1 ∧ rb.expected < p.sequenceNumber

instance : DecidablePred ReceiverBuffer.StillHolds :=
  fun rb => inferInstanceAs
    (Decidable (∃ o ∈ rb.buffer, ∃ p ∈ o, p.valid = 1 ∧ rb.expected < p.sequenceNumber))

/-- `doFlushingState` returns the sub-state that the slots ask for. -/
def ExitsRight (r : Receiver) : Prop :=
  ((doFlushingState r).1 = .buffering ↔ (doFlushingState r).2.rbuf.StillHolds) ∧
    ((doFlushingState r).1 = .inOrder ↔ ¬(doFlushingState r).2.rbuf.StillHolds)

instance : DecidablePred ExitsRight := fun _ => inferInstanceAs (Decidable (_ ∧ _))

def Handling.HighestIsMax (s : Handling) : Prop :=
  s.accepted ≠ [] → IsGreatest {n | n ∈ s.accepted} s.receiver.rbuf.highest

/-- No stored number is cut off from `expected` by a missing one. -/
def ReceiverBuffer.NoneCutOff (rb : ReceiverBuffer) : Prop :=
  ∀ m, rb.Holds m → ∀ n, rb.expected < n → n ≤ m → rb.Holds n

/-- What no handler changes: `highest` stays where it started, and a number that is not
negative stands in its own slot. -/
structure ReceiverBuffer.Unraised (w : Int) (rb : ReceiverBuffer) : Prop where
  wellFormed : rb.WellFormed
  windowSize : rb.windowSize = w
  highest : rb.highest = -1
  filed : ∀ i p, Ring.slot rb.buffer i = some p → p.valid = 1 → 0 ≤ p.sequenceNumber →
    p.sequenceNumber % w = i

section Buffer

variable {w : Int} {rb : ReceiverBuffer}

theorem raiseHighest_neg_one (seq : UInt32) : raiseHighest (-1) seq = -1 := by
  have hmax : (toU32 (-1)).toNat = 4294967295 := by decide
  have hle := seq.toNat_lt
  rw [raiseHighest, if_neg]
  rw [UInt32.lt_iff_toNat_lt]
  omega

theorem initReceiverBuffer_unraised (raw : ReceiverBuffer) (bufferSize : Int) (hw : 1 ≤ w) :
    (initReceiverBuffer raw bufferSize w).Unraised w := by
  refine ⟨initReceiverBuffer_wellFormed raw bufferSize hw, rfl, rfl, ?_⟩
  intro i p hp hvalid
  rw [initReceiverBuffer_slot hp] at hvalid
  cases hvalid

theorem ReceiverBuffer.Unraised.insert (h : rb.Unraised w) (hmax : w < 2147483648)
    (recvBuffer : List UInt8) (receivedBytes : Int) :
    (insertReceiverPacket rb recvBuffer receivedBytes).Unraised w := by
  have hwf := insertReceiverPacket_wellFormed h.wellFormed recvBuffer receivedBytes
  have hpos := h.wellFormed.window_pos
  have hsize := h.windowSize
  rcases insertReceiverPacket_cases rb recvBuffer receivedBytes with he | he
  · rw [he]
    exact h
  · rw [he] at hwf ⊢
    refine ⟨hwf, h.windowSize, ?_, ?_⟩
    · dsimp only
      rw [h.highest, raiseHighest_neg_one]
    · intro i p hp hvalid hseq
      dsimp only at hp
      rcases Ring.slot_update_eq_some hp with ⟨rfl, q, -, rfl⟩ | ⟨-, hp⟩
      · rw [unsignedIndex_eq _ hpos (by omega), ← toI32_of_nonneg hseq, hsize]
        rfl
      · exact h.filed i p hp hvalid hseq

theorem ReceiverBuffer.Unraised.flush (h : rb.Unraised w) : (flushBuffer rb).rbuf.Unraised w := by
  refine flushLoop_keep ?_ _ ⟨⟨h.wellFormed.window_pos, h.wellFormed.length,
    h.wellFormed.allocated⟩, h.windowSize, h.highest, h.filed⟩
  intro r r' fw hr hs
  obtain ⟨p, -, -, -, rfl, -⟩ := flushStep_cases hs
  refine ⟨⟨hr.wellFormed.window_pos, ?_, hr.wellFormed.allocated.update _ _⟩, hr.windowSize,
    hr.highest, ?_⟩
  · simpa only [Ring.length_update] using hr.wellFormed.length
  · intro i q hq hvalid hseq
    rcases Ring.slot_update_eq_some hq with ⟨-, q', -, rfl⟩ | ⟨-, hq⟩
    · cases hvalid
    · exact hr.filed i q hq hvalid hseq

theorem stillHolds_iff (h : rb.Unraised w) (h₀ : 0 ≤ rb.expected) :
    rb.StillHolds ↔ ∃ m, rb.Holds m ∧ rb.expected < m := by
  constructor
  · rintro ⟨o, ho, p, hp, hvalid, hseq⟩
    obtain ⟨i, hi⟩ := List.mem_iff_getElem?.mp ho
    have hslot : Ring.slot rb.buffer i = some p :=
      Ring.slot_eq_some_iff.mpr ⟨Int.natCast_nonneg i, by rw [Int.toNat_natCast, hi, hp]⟩
    have hplace := h.filed i p hslot hvalid (by omega)
    refine ⟨p.sequenceNumber, ⟨p, ?_, hvalid, rfl⟩, hseq⟩
    rw [ReceiverBuffer.packet, h.windowSize, hplace, hslot]
  · rintro ⟨m, ⟨p, hp, hvalid, rfl⟩, hm⟩
    obtain ⟨-, hget⟩ := Ring.slot_eq_some_iff.mp hp
    exact ⟨some p, List.mem_of_getElem? hget, p, rfl, hvalid, hm⟩

/-- A flush leaves a number behind exactly when a gap cuts it off. -/
theorem stillHolds_flushed_iff (h : rb.Unraised w) (hrange : rb.InRange) :
    0 ≤ (flushBuffer rb).rbuf.expected ∧
      ((flushBuffer rb).rbuf.StillHolds ↔ ¬rb.NoneCutOff) := by
  obtain ⟨h₀, hmax⟩ := hrange
  obtain ⟨r, hrun, hgap, hdrains⟩ :=
    flushBuffer_run h.wellFormed.window_pos h₀ (by omega)
  have hexp := hdrains.expected
  have hnonneg : 0 ≤ (flushBuffer rb).rbuf.expected := by omega
  refine ⟨hnonneg, ?_⟩
  rw [stillHolds_iff h.flush hnonneg, ReceiverBuffer.NoneCutOff]
  constructor
  · rintro ⟨m, hm, hbeyond⟩ hnone
    have hheld := ((hdrains.holds_iff hrun m).mp hm).1
    exact hgap (hnone m hheld _ (by omega) (by omega))
  · intro hcut
    by_contra hleft
    refine hcut fun m hm n hn hle => ?_
    have hmrun : m ≤ rb.expected + r := by
      by_contra hbeyond
      have hne : m ≠ rb.expected + 1 + r := by
        rintro rfl
        exact hgap hm
      exact hleft ⟨m, (hdrains.holds_iff hrun m).mpr ⟨hm, by omega⟩, by omega⟩
    have hj := hrun (n - rb.expected).toNat (by omega) (by omega)
    rwa [Int.toNat_of_nonneg (by omega), add_sub_cancel] at hj

theorem exitsRight_iff {r : Receiver} (h : r.rbuf.Unraised w) (hrange : r.rbuf.InRange) :
    ExitsRight r ↔ r.rbuf.NoneCutOff := by
  obtain ⟨hnonneg, hleft⟩ := stillHolds_flushed_iff h hrange
  have hhighest := h.flush.highest
  have hstate : (doFlushingState r).1 = .inOrder := by
    simp only [doFlushingState]
    rw [if_pos (by rw [hhighest]; omega)]
  have hrbuf : (doFlushingState r).2.rbuf = (flushBuffer r.rbuf).rbuf := by
    simp only [doFlushingState]
    split_ifs <;> rfl
  rw [ExitsRight, hstate, hrbuf, hleft]
  simp

end Buffer

/-- What the calls keep: the buffer is as it started in these respects, and the numbers
accepted are not negative. -/
structure Handling.Unraised (w : Int) (s : Handling) : Prop where
  rbuf : s.receiver.rbuf.Unraised w
  accepted : ∀ n ∈ s.accepted, 0 ≤ n

theorem Handled.unraised {c : Client} {r r' : Receiver} {buffer : List UInt8}
    {attempts : ℕ → Attempt} {st st' : ReceiveState} {w : Int} (hmax : w < 2147483648)
    (h : Handled c r buffer attempts st st' r') (hr : r.rbuf.Unraised w) :
    r'.rbuf.Unraised w := by
  refine h.keep ?_ ?_ ?_ hr
  · intro rb _ _ _ hrb
    exact ⟨⟨hrb.wellFormed.window_pos, hrb.wellFormed.length, hrb.wellFormed.allocated⟩,
      hrb.windowSize, hrb.highest, hrb.filed⟩
  · intro rb hrb
    have hins := hrb.insert hmax buffer pointerSize
    refine ⟨⟨hins.wellFormed.window_pos, hins.wellFormed.length, hins.wellFormed.allocated⟩,
      hins.windowSize, ?_, hins.filed⟩
    dsimp only
    rw [hins.highest, raiseHighest_neg_one]
  · exact fun rb hrb => hrb.flush

theorem Handling.Unraised.step {c : Client} {w : Int} (hmax : w < 2147483648) {s : Handling}
    (h : s.Unraised w) (call : HandlerCall) : (handleCall c s call).Unraised w := by
  have hhandled := handleDataPacket_handled c s.subState s.receiver call.buffer call.attempts
  refine ⟨hhandled.unraised hmax h.rbuf, ?_⟩
  intro n hn
  simp only [handleCall] at hn
  split_ifs at hn
  · rcases List.mem_cons.mp hn with rfl | hn
    · exact Int.natCast_nonneg _
    · exact h.accepted n hn
  · exact h.accepted n hn

theorem Handling.Unraised.highestIsMax_iff {w : Int} {s : Handling} (h : s.Unraised w) :
    s.HighestIsMax ↔ s.accepted = [] := by
  constructor
  · intro hmax
    by_contra hne
    have hmem := (hmax hne).1
    have hnonneg := h.accepted _ hmem
    rw [h.rbuf.highest] at hnonneg
    omega
  · exact fun hnil hne => absurd hnil hne

/-- After any calls, `highest` is the maximum of the accepted numbers only while there
are none, and the next flush leads to the right sub-state exactly when no gap cuts a
stored number off. -/
theorem flush_exit_iff (c : Client) (raw : ReceiverBuffer) (calls : List HandlerCall)
    (hw : 1 ≤ c.windowSize) (hmax : c.windowSize < 2147483648) :
    Runs.Always (handleCall c)
      (fun s => (s.HighestIsMax ↔ s.accepted = []) ∧
        (s.receiver.rbuf.InRange → (ExitsRight s.receiver ↔ s.receiver.rbuf.NoneCutOff)))
      (enterHandling c raw) calls := by
  have hstart : (enterHandling c raw).Unraised c.windowSize :=
    ⟨initReceiverBuffer_unraised raw c.bufferSize hw, by simp [enterHandling]⟩
  have halways : Runs.Always (handleCall c) (Handling.Unraised c.windowSize)
      (enterHandling c raw) calls := Runs.always_of_step (fun s call h => h.step hmax call) hstart
  exact halways.mono fun s h => ⟨h.highestIsMax_iff, fun hrange => exitsRight_iff h.rbuf hrange⟩

/-- A call for packet `k`; at the first attempt packet 0 arrives. -/
def gapCall (k : UInt8) : HandlerCall where
  buffer := [0, 0, 0, k, 0, 0, 16, 66]
  attempts := fun _ => ⟨11, 3, fun _ => 0, some [0, 0, 0, 0, 0, 0, 16, 65]⟩

theorem flush_exit_stored :
    (Runs.exec (handleCall ⟨3, 2, 1⟩) (enterHandling ⟨3, 2, 1⟩ freshBuffer)
      [gapCall 1, gapCall 1]).receiver.rbuf.NoneCutOff :=
  ((flush_exit_iff ⟨3, 2, 1⟩ freshBuffer [gapCall 1, gapCall 1] (by decide)
    (by decide)).last.2 (by decide +kernel)).mp (by decide +kernel)

/-- Packet 2 is stored, packets 0 and 1 are not: the flush goes back to the sub-state in
order with packet 2 in its slot. -/
theorem flush_exit_gap :
    (Runs.exec (handleCall ⟨3, 2, 1⟩) (enterHandling ⟨3, 2, 1⟩ freshBuffer)
        [gapCall 2, gapCall 2]).subState = .flushing ∧
      ¬ExitsRight (Runs.exec (handleCall ⟨3, 2, 1⟩) (enterHandling ⟨3, 2, 1⟩ freshBuffer)
        [gapCall 2, gapCall 2]).receiver := by
  decide +kernel

end Rcopy
