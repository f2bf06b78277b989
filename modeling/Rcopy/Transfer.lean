import Rcopy.FileIntegrity
import Rcopy.SendFile

/-!
# Sender and receiver together

One server child in `doSendDataState` and rcopy in `doGetDataState`, over a
network that may deliver every datagram any number of times, in any order, or
never: a turn receives any entry of what the other side has sent, or nothing.
What the wait loops inside the handlers of rcopy read is left open altogether.

A control PDU reaches the server with its RR or SREJ number in the first four
bytes, where `getSequenceFromBuffer` looks for it, so that the handler gets the
number that rcopy means.
-/

namespace Rcopy

open Bytes

structure Transfer where
  sender : SendData
  receiver : GetData

/-- A turn of one of the processes; `pick` chooses what it receives. -/
inductive TransferTurn
  | server (t : SendTurn) (pick : Option ℕ)
  | rcopy (t : Turn) (pick : Option ℕ)

/-- A control PDU with its number in place of rcopy's packet counter. -/
def renumber (pdu : List UInt8) : List UInt8 := (pdu.drop 7).take 4 ++ (pdu.drop 4).take 3

theorem decodeControl_renumber (stack : ℕ → UInt8) (flag : UInt8) (localSeq number : UInt32) :
    decodeControl (recvControl stack (renumber (sealControl
      (makeControlPacket flag localSeq number)))) =
      if flag = 5 then .rr number else if flag = 6 then .srej number else .other := by
  rw [sealControl_eq]
  generalize calculateRR_SREJPacketChecksum _ = checksum
  have hpdu : renumber (store32 (htonl localSeq) ++ store16 checksum ++
      (flag :: store32 (htonl number))) =
      store32 (htonl number) ++ store16 checksum ++ (flag :: []) := by
    have hnumber : (store32 (htonl localSeq) ++ store16 checksum ++ [flag]).length = 7 := by simp
    rw [renumber, List.append_cons, List.drop_left' hnumber, List.take_of_length_le (by simp),
      List.append_assoc, List.append_assoc, List.drop_left' (length_store32 _),
      ← List.append_assoc, List.take_left' (by simp), List.append_assoc]
  rw [hpdu]
  exact decodeControl_recvControl stack number checksum flag []

def Transfer.toServer (s : Transfer) (t : SendTurn) (pick : Option ℕ) : SendTurn :=
  { t with recv := pick.bind fun i => s.receiver.receiver.sent[i]?.map fun c => renumber c.pdu }

def Transfer.toRcopy (s : Transfer) (t : Turn) (pick : Option ℕ) : Turn :=
  { t with recv := pick.bind fun i => s.sender.sent[i]?.bind Transmission.bytes }

def transferTurn (p : Session) (c : Client) (s : Transfer) : TransferTurn → Transfer
  | .server t pick => { s with sender := sendTurn p s.sender (s.toServer t pick) }
  | .rcopy t pick => { s with receiver := receiveTurn c s.receiver (s.toRcopy t pick) }

def enterTransfer (p : Session) (c : Client) (heap : ℕ → ℕ → UInt8) (raw : ReceiverBuffer) :
    Transfer where
  sender := enterSendData p heap
  receiver := enterGetData c raw

/-- Every packet below the lower edge of the sender is below `expected`. -/
def NoneDiscarded (s : Transfer) : Prop :=
  s.sender.window.lower ≤ s.receiver.receiver.rbuf.expected

instance (s : Transfer) : Decidable (NoneDiscarded s) :=
  inferInstanceAs (Decidable (s.sender.window.lower ≤ s.receiver.receiver.rbuf.expected))

/-- The server handles an RR for a packet that rcopy still expects. -/
def Overtakes (s : Transfer) : TransferTurn → Prop
  | .server t pick => ∃ n : UInt32, s.sender.HandlesRR (s.toServer t pick) n ∧
      s.receiver.receiver.rbuf.expected ≤ n.toNat ∧ n.toNat < 2147483647
  | .rcopy _ _ => False

/-! ## The numbers in flight -/

def Numbered (w : Int) (d : List UInt8) : Prop := 4 ≤ d.length ∧ ((seqOf d).toNat : Int) ≤ w

theorem Numbered.take {w : Int} {d : List UInt8} (h : Numbered w d) {n : ℕ} (hn : 4 ≤ n) :
    Numbered w (d.take n) := by
  refine ⟨?_, ?_⟩
  · rw [List.length_take]
    exact le_min hn h.1
  · rw [seqOf_take hn]
    exact h.2

theorem Numbered.append {w : Int} {d : List UInt8} (h : Numbered w d) (rest : List UInt8) :
    Numbered w (d ++ rest) := by
  refine ⟨?_, ?_⟩
  · rw [List.length_append]
    exact le_trans h.1 (Nat.le_add_right _ _)
  · rw [seqOf_append rest h.1]
    exact h.2

/-- What the sender's log and its filled slots hold, for a window of `w` numbers. -/
structure SendsNumbered (p : Session) (w : Int) (s : SendData) : Prop where
  sent : ∀ tr ∈ s.sent, ∃ d, tr.bytes = some d ∧ Numbered w d
  slots : s.Running → ∀ i q, Ring.slot s.window.buffer i = some q →
    i < s.dataSequenceNumber.toNat → Numbered w q.data ∧
      1 ≤ q.dataSize ∧ q.dataSize ≤ p.bufferSize.toNat + 7

structure ExpectsNumbered (w : Int) (rb : ReceiverBuffer) : Prop where
  nonneg : 0 ≤ rb.expected
  expected_le : rb.expected ≤ w + 1
  slots : ∀ i q, Ring.slot rb.buffer i = some q → q.valid = 1 → q.sequenceNumber ≤ w

theorem initReceiverBuffer_expectsNumbered {w : Int} (hw : -1 ≤ w) (raw : ReceiverBuffer)
    (bufferSize windowSize : Int) :
    ExpectsNumbered w (initReceiverBuffer raw bufferSize windowSize) := by
  refine ⟨le_refl 0, ?_, ?_⟩
  · simp only [initReceiverBuffer]
    omega
  · intro i q hq hvalid
    rw [initReceiverBuffer_slot hq] at hvalid
    simp [emptyPacket] at hvalid

theorem insertReceiverPacket_expectsNumbered {w : Int} {rb : ReceiverBuffer}
    (h : ExpectsNumbered w rb) {b : List UInt8} (hb : ((seqOf b).toNat : Int) ≤ w)
    (receivedBytes : Int) : ExpectsNumbered w (insertReceiverPacket rb b receivedBytes) := by
  rcases insertReceiverPacket_cases rb b receivedBytes with he | he
  · rw [he]
    exact h
  · rw [he]
    refine ⟨h.nonneg, h.expected_le, ?_⟩
    intro i q hq hvalid
    dsimp only at hq
    rcases Ring.slot_update_eq_some hq with ⟨-, q', -, rfl⟩ | ⟨-, hq⟩
    · simp only [Packet.store, toI32, i32]
      omega
    · exact h.slots i q hq hvalid

theorem flushBuffer_expectsNumbered {w : Int} (hw : w < 2147483647) {rb : ReceiverBuffer}
    (h : ExpectsNumbered w rb) (he : rb.expected ≤ w) :
    ExpectsNumbered w (flushBuffer rb).rbuf ∧ rb.expected ≤ (flushBuffer rb).rbuf.expected := by
  have h₀ := h.nonneg
  have hsucc : i32 (rb.expected + 1) = rb.expected + 1 := i32_of_range (by omega) (by omega)
  rw [flushBuffer]
  refine flushLoop_keep (P := fun r => ExpectsNumbered w r ∧ rb.expected ≤ r.expected) ?_
    (rb.windowSize.toNat + 1) ?_
  · rintro r r' write ⟨hr, hle⟩ hstep
    obtain ⟨q, hq, hseq, hvalid, rfl, -⟩ := flushStep_cases hstep
    have hqw := hr.slots _ q hq hvalid
    have hr₀ := hr.nonneg
    have hnext : i32 (r.expected + 1) = r.expected + 1 := i32_of_range (by omega) (by omega)
    refine ⟨⟨?_, ?_, ?_⟩, ?_⟩ <;> dsimp only
    · omega
    · omega
    · intro i q' hq' hvalid'
      rcases Ring.slot_update_eq_some hq' with ⟨-, q₀, -, rfl⟩ | ⟨-, hq'⟩
      · simp [Packet.clear] at hvalid'
      · exact hr.slots i q' hq' hvalid'
    · omega
  · rw [hsucc]
    exact ⟨⟨by dsimp only; omega, by dsimp only; omega, h.slots⟩, by dsimp only; omega⟩

theorem Handled.expectsNumbered {w : Int} (hw : w < 2147483647) {c : Client} {r r' : Receiver}
    {b : List UInt8} {attempts : ℕ → Attempt} {st st' : ReceiveState}
    (h : Handled c r b attempts st st' r') (hr : ExpectsNumbered w r.rbuf)
    (hb : ((seqOf b).toNat : Int) ≤ w) :
    ExpectsNumbered w r'.rbuf ∧ r.rbuf.expected ≤ r'.rbuf.expected := by
  have h₀ := hr.nonneg
  have hle := hr.expected_le
  have hexp := toU32_toNat_of_range h₀ (by omega)
  cases h with
  | kept _ hbuf _ =>
    rw [hbuf]
    exact ⟨hr, le_refl _⟩
  | written hseq hbuf _ =>
    obtain ⟨packet, size, has, hbuf⟩ := hbuf
    rw [hseq] at hb
    have hnext : i32 (r.rbuf.expected + 1) = r.rbuf.expected + 1 :=
      i32_of_range (by omega) (by omega)
    rw [hbuf, hnext]
    exact ⟨⟨by dsimp only; omega, by dsimp only; omega, hr.slots⟩, by dsimp only; omega⟩
  | buffered hbuf _ =>
    have hins := insertReceiverPacket_expectsNumbered hr hb pointerSize
    have heq := insertReceiverPacket_expected r.rbuf b pointerSize
    rw [hbuf]
    exact ⟨⟨hins.nonneg, hins.expected_le, hins.slots⟩, heq.symm.le⟩
  | flushed hseq hbuf _ =>
    rw [UInt32.lt_iff_toNat_lt] at hseq
    rw [hbuf]
    exact flushBuffer_expectsNumbered hw hr (by omega)

section Server

variable {p : Session} {w : Int} {s s' : SendData} {t : SendTurn}

theorem freshPdu_numbered (h : (s.dataSequenceNumber.toNat : Int) ≤ w) :
    Numbered w (freshPdu p s t) := by
  obtain ⟨checksum, hpdu⟩ := freshPdu_eq p s t
  rw [hpdu]
  refine ⟨?_, ?_⟩
  · rw [length_dataPdu]
    omega
  · rw [seqOf_dataPdu]
    exact h

theorem SendsNumbered.sendFresh (hs : Sending p w s) (h : SendsNumbered p w s) (hrun : s.Running)
    {q : Packet} (hnumber : (s.dataSequenceNumber.toNat : Int) ≤ s.window.windowSize)
    (hslot : Ring.slot s.window.buffer (s.dataSequenceNumber.toNat % s.window.windowSize) =
      some q) : SendsNumbered p w (s.sendFresh p t q) := by
  have hsize := hs.windowSize
  have hpdu := freshPdu_numbered (p := p) (s := s) (t := t) (w := w) (by omega)
  have hread := List.length_take_le p.bufferSize.toNat s.file
  refine ⟨?_, ?_⟩
  · intro tr htr
    simp only [SendData.sendFresh, List.mem_append, List.mem_singleton] at htr
    rcases htr with htr | rfl
    · exact h.sent tr htr
    · exact ⟨_, bytes_sendFresh (hs.room t hslot), hpdu⟩
  · intro _ i q' hq' hi
    rcases hs.slot_sendFresh hnumber hq' hi with ⟨hlen, junk, hdata⟩ | ⟨hi, hq'⟩
    · rw [hdata]
      exact ⟨hpdu.append junk, by omega, by omega⟩
    · exact h.slots hrun i q' hq' hi

theorem SendStep.sendsNumbered (hs : Sending p w s) (h : SendsNumbered p w s) (hrun : s.Running)
    (hstep : SendStep p s t s') : SendsNumbered p w s' := by
  cases hstep with
  | moved phase hmove => exact ⟨h.sent, fun _ => h.slots hrun⟩
  | eof _ => exact ⟨h.sent, fun _ => h.slots hrun⟩
  | fresh q _ _ hnumber _ hslot => exact h.sendFresh hs hrun hnumber hslot
  | crashed _ _ => exact ⟨h.sent, fun _ => h.slots hrun⟩
  | slid n window _ hslid =>
    refine ⟨h.sent, ?_⟩
    intro _ i q hq hi
    obtain ⟨q', hq', hdata, hsize⟩ := hslid.slots i q hq
    rw [hdata, hsize]
    exact h.slots hrun i q' hq' hi
  | resent cause seq index q hphase _ hslot =>
    refine ⟨?_, fun _ => h.slots hrun⟩
    intro tr htr
    simp only [SendData.resend, List.mem_append, List.mem_singleton] at htr
    rcases htr with htr | rfl
    · exact h.sent tr htr
    · obtain ⟨hi₀, hget⟩ := Ring.slot_eq_some_iff.mp hslot
      have hlt := (List.getElem?_eq_some_iff.mp hget).1
      have hlength := hs.window.length
      have hsize := hs.windowSize
      have hnum := hs.number_eq hphase
      obtain ⟨hnumbered, hone, hmax⟩ := h.slots hrun index q hslot (by omega)
      have hdata := hs.slots index q hslot
      have hbs := p.bufferSize.toNat_lt
      have hlen : i32 (q.dataSize + 7) = q.dataSize + 7 := i32_of_range (by omega) (by omega)
      refine ⟨q.data.take (q.dataSize + 7).toNat, ?_, hnumbered.take (by omega)⟩
      simp only [Transmission.bytes, hlen]
      rw [if_pos]
      rw [hdata, packetStructSize]
      omega
  | ignored => exact h

end Server

/-! ## Runs of both -/

structure InStep (p : Session) (w : Int) (s : Transfer) : Prop where
  sending : s.sender.Running → Sending p w s.sender
  numbered : SendsNumbered p w s.sender
  lower_nonneg : 0 ≤ s.sender.window.lower
  expects : ExpectsNumbered w s.receiver.receiver.rbuf
  none_discarded : NoneDiscarded s

section Both

variable {p : Session} {c : Client} {w : Int} {s : Transfer}

theorem InStep.server (h : InStep p w s) {t : SendTurn} {pick : Option ℕ}
    (hgood : ¬Overtakes s (.server t pick)) : InStep p w (transferTurn p c s (.server t pick)) := by
  by_cases hrun : s.sender.Running
  · have hs := h.sending hrun
    have hstep := sendTurn_step (t := s.toServer t pick) hs hrun
    have hnum := hstep.sendsNumbered hs h.numbered hrun
    have hlower : 0 ≤ (sendTurn p s.sender (s.toServer t pick)).window.lower ∧
        (sendTurn p s.sender (s.toServer t pick)).window.lower ≤
          s.receiver.receiver.rbuf.expected := by
      have hlow := h.lower_nonneg
      have hle : s.sender.window.lower ≤ s.receiver.receiver.rbuf.expected := h.none_discarded
      revert hstep
      generalize sendTurn p s.sender (s.toServer t pick) = s'
      intro hstep
      cases hstep with
      | slid n window hrr hslid =>
        dsimp only
        rcases hslid.edges with ⟨-, hsame, -⟩ | ⟨hlt, hnew, -⟩
        · rw [hsame]
          exact ⟨hlow, hle⟩
        · have hmax := n.toNat_lt
          have hbelow := lt_of_toI32_succ_pos (n := n) (by omega)
          have hnum := toI32_succ_of_lt hbelow
          have hexp : ¬s.receiver.receiver.rbuf.expected ≤ n.toNat := by
            intro hexp
            exact hgood ⟨n, hrr, hexp, hbelow⟩
          rw [hnew, hnum]
          omega
      | moved _ _ => exact ⟨hlow, hle⟩
      | eof _ => exact ⟨hlow, hle⟩
      | fresh _ _ _ _ _ _ => exact ⟨hlow, hle⟩
      | crashed _ _ => exact ⟨hlow, hle⟩
      | resent _ _ _ _ _ _ _ => exact ⟨hlow, hle⟩
      | ignored => exact ⟨hlow, hle⟩
    exact ⟨fun hrun' => hstep.sending hs hrun', hnum, hlower.1, h.expects, hlower.2⟩
  · have hsame : transferTurn p c s (.server t pick) = s := by
      rw [transferTurn, sendTurn_of_not_running hrun]
    rw [hsame]
    exact h

theorem InStep.rcopy (hw : w < 2147483647) (h : InStep p w s) (t : Turn) (pick : Option ℕ) :
    InStep p w (transferTurn p c s (.rcopy t pick)) := by
  have hkeep : ExpectsNumbered w (receiveTurn c s.receiver (s.toRcopy t pick)).receiver.rbuf ∧
      s.receiver.receiver.rbuf.expected ≤
        (receiveTurn c s.receiver (s.toRcopy t pick)).receiver.rbuf.expected := by
    rcases receiveTurn_cases c s.receiver (s.toRcopy t pick) with
      ⟨hrec, -, -⟩ | ⟨d, -, -, hrecv, -, hstep⟩
    · rw [hrec]
      exact ⟨h.expects, le_refl _⟩
    · have hd : Numbered w d := by
        simp only [Transfer.toRcopy] at hrecv
        obtain ⟨i, -, hi⟩ := Option.bind_eq_some_iff.mp hrecv
        obtain ⟨tr, htr, hbytes⟩ := Option.bind_eq_some_iff.mp hi
        obtain ⟨d', hd', hnum⟩ := h.numbered.sent tr (List.mem_of_getElem? htr)
        rwa [← Option.some.inj (hd'.symm.trans hbytes)]
      have hbuffer : Numbered w ((s.toRcopy t pick).received c d) := by
        rw [Turn.received, recvInto, memcpy_zero]
        exact (hd.take (by omega)).append _
      have hh := handleDataPacket_handled c s.receiver.subState s.receiver.receiver
        ((s.toRcopy t pick).received c d) (s.toRcopy t pick).attempts
      rw [hstep]
      exact hh.expectsNumbered hw h.expects hbuffer.2
  exact ⟨h.sending, h.numbered, h.lower_nonneg, hkeep.1, le_trans h.none_discarded hkeep.2⟩

theorem not_noneDiscarded_of_overtakes (h : InStep p w s) {e : TransferTurn}
    (hbad : Overtakes s e) : ¬NoneDiscarded (transferTurn p c s e) := by
  cases e with
  | rcopy t pick => exact absurd hbad (by simp [Overtakes])
  | server t pick =>
    obtain ⟨n, hrr, hexp, hmax⟩ := hbad
    have hrun := hrr.1.running
    have hle : s.sender.window.lower ≤ s.receiver.receiver.rbuf.expected := h.none_discarded
    have hnum := toI32_succ_of_lt hmax
    have hn : toI32 n = n.toNat := toI32_of_lt (by omega)
    obtain ⟨window, hturn, hslid⟩ := sendTurn_rr (p := p) (h.sending hrun).window hrr (by omega)
    rw [hnum] at hslid
    simp only [NoneDiscarded, transferTurn, hturn]
    rcases hslid.edges with ⟨hold, -, -⟩ | ⟨-, hnew, -⟩ <;> omega

end Both

theorem enterTransfer_inStep (p : Session) (c : Client) (heap : ℕ → ℕ → UInt8)
    (raw : ReceiverBuffer) (hw : 1 ≤ toI32 p.windowSize) :
    InStep p (toI32 p.windowSize) (enterTransfer p c heap raw) := by
  have hlower : (enterTransfer p c heap raw).sender.window.lower = 0 := rfl
  have hexp : (enterTransfer p c heap raw).receiver.receiver.rbuf.expected = 0 := rfl
  refine ⟨fun _ => enterSendData_sending heap hw, ⟨?_, ?_⟩, hlower.ge, ?_, ?_⟩
  · intro tr htr
    simp [enterTransfer, enterSendData] at htr
  · intro _ i q hq hi
    obtain ⟨hi₀, -⟩ := Ring.slot_eq_some_iff.mp hq
    simp only [enterTransfer, enterSendData, UInt32.toNat_zero] at hi
    omega
  · exact initReceiverBuffer_expectsNumbered (by omega) raw c.bufferSize c.windowSize
  · rw [NoneDiscarded, hlower, hexp]

/-- In a run of both processes no packet is discarded that the receiver still
needs exactly when no RR is handled before the packet it names has arrived. -/
theorem noneDiscarded_iff (p : Session) (c : Client) (heap : ℕ → ℕ → UInt8) (raw : ReceiverBuffer)
    (turns : List TransferTurn) (hw : 1 ≤ toI32 p.windowSize)
    (hmax : toI32 p.windowSize < 2147483647) :
    Runs.Always (transferTurn p c) NoneDiscarded (enterTransfer p c heap raw) turns ↔
    Runs.EveryStep (transferTurn p c) (fun s e => ¬Overtakes s e) (enterTransfer p c heap raw)
      turns := by
  refine Runs.always_iff_everyStep (I := InStep p (toI32 p.windowSize)) ?_ ?_ ?_ ?_
  · exact enterTransfer_inStep p c heap raw hw
  · intro s h
    exact h.none_discarded
  · intro s e h hgood
    cases e with
    | server t pick => exact h.server hgood
    | rcopy t pick => exact h.rcopy hmax t pick
  · intro s e h hbad
    exact not_noneDiscarded_of_overtakes h (not_not.mp hbad)

theorem noneDiscarded_first :
    Runs.Always (transferTurn shortSession shortClient) NoneDiscarded
      (enterTransfer shortSession shortClient (fun _ _ => 0) freshBuffer)
      [.server (quietTurn none) none, .rcopy (shortTurn 0) (some 0)] :=
  (noneDiscarded_iff shortSession shortClient (fun _ _ => 0) freshBuffer
    [.server (quietTurn none) none, .rcopy (shortTurn 0) (some 0)] (by decide) (by decide)).mpr (by
      simp only [Runs.EveryStep, and_true]
      constructor
      · rintro ⟨n, ⟨⟨hpoll, -⟩, -⟩, -⟩
        exact absurd hpoll (by decide)
      · exact id)

/-- The window is full, rcopy has received packet 0 and asks for packet 1, and the
RR frees packet 1. -/
theorem noneDiscarded_lost :
    ¬Runs.Always (transferTurn shortSession shortClient) NoneDiscarded
      (enterTransfer shortSession shortClient (fun _ _ => 0) freshBuffer)
      [.server (quietTurn none) none, .server (quietTurn none) none,
        .server (quietTurn none) none, .server (quietTurn none) none,
        .rcopy (shortTurn 0) (some 0), .server (quietTurn (some [])) (some 0)] := by
  intro h
  exact absurd h.last (by decide +kernel)

end Rcopy
