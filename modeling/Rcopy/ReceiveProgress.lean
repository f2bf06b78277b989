import Rcopy.DataPdu
import Rcopy.Lib.Runs
import Rcopy.Receive

/-!
# What a turn of the receive loop achieves

A packet that arrives in order is written and acknowledged, but the `break` after
the successful send leads to `return DONE`, and in that sub-state every later
packet is ignored. And no sub-state looks at the flag: a datagram of any kind is
handled as the packet whose number stands in its first four bytes.
-/

namespace Rcopy

open Bytes

/-- The header of a datagram that has one is what the handlers read. -/
theorem header_received (c : Client) (t : Turn) {d : List UInt8} (hd : 7 ≤ d.length) :
    seqOf (t.received c d) = seqOf d ∧ flagOf (t.received c d) = flagOf d := by
  have hlen : 7 ≤ (d.take 1407).length := by
    rw [List.length_take]
    omega
  rw [Turn.received, recvInto, memcpy_zero]
  constructor
  · rw [seqOf_append _ (by omega), seqOf_take (by omega)]
  · rw [flagOf_append _ hlen, flagOf_take (by omega)]

/-! ## A stream in order -/

/-- Packet `k` arrives at the head of the loop and no send of its handler fails. -/
structure BringsPacket (k : ℕ) (t : Turn) : Prop where
  poll : 0 < t.poll
  packet : ∃ d, t.recv = some d ∧ 7 ≤ d.length ∧ (seqOf d).toNat = k ∧ flagOf d = 16
  sends : ∀ i, 0 ≤ (t.attempts i).sent

/-- The number that an RR carries after its header. -/
def rrNumber (pdu : List UInt8) : Option UInt32 :=
  if flagOf pdu = 5 then some (seqOf (pdu.drop 7)) else none

/-- The packets before `n` have been written and acknowledged one by one. -/
structure InOrderUpTo (n : ℕ) (s : GetData) : Prop where
  subState : s.subState = .inOrder
  expected : s.receiver.rbuf.expected = n
  written : s.receiver.file.map FWrite.seq = (List.range n).map fun k : ℕ => (k : Int)
  acknowledged : s.receiver.sent.map (fun m => (rrNumber m.pdu).map UInt32.toNat) =
    (List.range n).map fun k => some (k + 1)

/-- The state that the first packet leads to and that no later packet changes. -/
structure StoppedAfterFirst (s : GetData) : Prop where
  exit : s.exit = none
  subState : s.subState = .done
  expected : s.receiver.rbuf.expected = 1

theorem receiveTurn_brings {c : Client} {s : GetData} {t : Turn} {k : ℕ} (ht : BringsPacket k t)
    (hexit : s.exit = none) :
    ∃ buffer, (seqOf buffer).toNat = k ∧ receiveTurn c s t =
      { s with
        subState := (handleDataPacket c s.subState s.receiver buffer t.attempts).1
        receiver := (handleDataPacket c s.subState s.receiver buffer t.attempts).2 } := by
  obtain ⟨d, hrecv, hlen, hseq, hflag⟩ := ht.packet
  obtain ⟨hseq', hflag'⟩ := header_received c t hlen
  have hne : d ≠ [] := by
    rintro rfl
    simp at hlen
  refine ⟨t.received c d, by rw [hseq', hseq], ?_⟩
  rw [receiveTurn_data hexit ht.poll hrecv hne, hflag', hflag, if_neg (by decide), hexit]

theorem receiveTurn_first {c : Client} {s : GetData} {t : Turn} (ht : BringsPacket 0 t)
    (hexit : s.exit = none) (hsub : s.subState = .inOrder) (hexp : s.receiver.rbuf.expected = 0) :
    StoppedAfterFirst (receiveTurn c s t) := by
  obtain ⟨buffer, hseq, hstep⟩ := receiveTurn_brings (c := c) ht hexit
  have hzero : seqOf buffer = toU32 0 := UInt32.toNat_inj.mp hseq
  -- the first attempt sends the RR, and the `break` leads to `return DONE`
  have hhandle : (handleDataPacket c .inOrder s.receiver buffer t.attempts).1 = .done ∧
      (handleDataPacket c .inOrder s.receiver buffer t.attempts).2.rbuf.expected = 1 := by
    simp only [handleDataPacket, doInOrderState, hexp, hzero, if_true, resendRR,
      if_pos (ht.sends 0)]
    exact ⟨rfl, rfl⟩
  rw [hstep, hsub]
  exact ⟨hexit, hhandle.1, hhandle.2⟩

theorem receiveTurn_stopped {c : Client} {s : GetData} {t : Turn} {k : ℕ} (hk : 1 ≤ k)
    (ht : BringsPacket k t) (hs : StoppedAfterFirst s) : receiveTurn c s t = s := by
  obtain ⟨buffer, hseq, hstep⟩ := receiveTurn_brings (c := c) ht hs.exit
  have hnew : ¬seqOf buffer < toU32 s.receiver.rbuf.expected := by
    rw [hs.expected, UInt32.lt_iff_toNat_lt, hseq]
    exact not_lt.mpr hk
  rw [hstep, hs.subState, handleDataPacket, if_neg hnew]
  dsimp only
  rw [← hs.subState]

theorem exec_stopped {c : Client} {s : GetData} {turns : List Turn} (hs : StoppedAfterFirst s)
    (ht : ∀ t ∈ turns, ∃ k, 1 ≤ k ∧ BringsPacket k t) :
    Runs.exec (receiveTurn c) s turns = s := by
  induction turns with
  | nil => rfl
  | cons t turns ih =>
    rw [List.forall_mem_cons] at ht
    obtain ⟨⟨k, hk, hbrings⟩, hrest⟩ := ht
    rw [Runs.exec_cons, receiveTurn_stopped hk hbrings hs]
    exact ih hrest

/-- A stream of packets in order is written and acknowledged to its end exactly
when it is empty. -/
theorem inOrder_progress_iff (c : Client) (raw : ReceiverBuffer) (turns : List Turn)
    (ht : ∀ k t, turns[k]? = some t → BringsPacket k t) :
    InOrderUpTo turns.length (Runs.exec (receiveTurn c) (enterGetData c raw) turns) ↔
      turns = [] := by
  cases turns with
  | nil => exact ⟨fun _ => rfl, fun _ => ⟨rfl, rfl, rfl, rfl⟩⟩
  | cons t turns =>
    have hfirst := receiveTurn_first (c := c) (s := enterGetData c raw) (ht 0 t rfl) rfl rfl rfl
    have hrest : ∀ t ∈ turns, ∃ k, 1 ≤ k ∧ BringsPacket k t := by
      intro t' ht'
      obtain ⟨k, hk⟩ := List.mem_iff_getElem?.mp ht'
      exact ⟨k + 1, by omega, ht (k + 1) t' hk⟩
    rw [Runs.exec_cons, exec_stopped hfirst hrest]
    constructor
    · intro h
      have hsub := h.subState
      rw [hfirst.subState] at hsub
      cases hsub
    · intro h
      cases h

/-- A turn that receives the packet `k` with one byte of payload; every send succeeds. -/
def promptTurn (k : UInt8) : Turn where
  poll := 3
  heap := fun _ => 0
  recv := some [0, 0, 0, k, 0, 0, 16, k]
  attempts := fun _ => ⟨11, 3, fun _ => 0, none⟩

theorem bringsPacket_promptTurns (k : ℕ) (t : Turn)
    (h : [promptTurn 0, promptTurn 1][k]? = some t) : BringsPacket k t := by
  match k with
  | 0 =>
    obtain rfl := Option.some.inj h
    exact ⟨by decide, ⟨_, rfl, by decide, by decide, rfl⟩, fun _ => show (0 : Int) ≤ 11 by decide⟩
  | 1 =>
    obtain rfl := Option.some.inj h
    exact ⟨by decide, ⟨_, rfl, by decide, by decide, rfl⟩, fun _ => show (0 : Int) ≤ 11 by decide⟩
  | k + 2 => cases h

theorem inOrder_progress_two :
    InOrderUpTo 2 (Runs.exec (receiveTurn ⟨3, 2, 1⟩) (enterGetData ⟨3, 2, 1⟩ freshBuffer)
      [promptTurn 0, promptTurn 1]) ↔ [promptTurn 0, promptTurn 1] = [] :=
  inOrder_progress_iff ⟨3, 2, 1⟩ freshBuffer [promptTurn 0, promptTurn 1] bringsPacket_promptTurns

/-- The second packet of a stream is neither written nor acknowledged. -/
theorem inOrder_second_ignored :
    ¬ ∀ (c : Client) (raw : ReceiverBuffer) (turns : List Turn),
      (∀ k t, turns[k]? = some t → BringsPacket k t) →
      InOrderUpTo turns.length (Runs.exec (receiveTurn c) (enterGetData c raw) turns) := by
  intro h
  have hwritten := (h ⟨3, 2, 1⟩ freshBuffer _ bringsPacket_promptTurns).written
  revert hwritten
  decide

/-! ## Datagrams of other kinds -/

def DataFlag (flag : UInt8) : Prop := flag = 16 ∨ flag = 17 ∨ flag = 18 ∨ flag = 10

/-- The turn receives a datagram that is neither a data PDU nor the end of the file. -/
def ReceivesOther (c : Client) (s : GetData) (t : Turn) : Prop :=
  s.exit = none ∧ 0 < t.poll ∧ ∃ d, t.recv = some d ∧ d ≠ [] ∧ ¬DataFlag (flagOf (t.received c d))

structure SameOutput (r r' : Receiver) : Prop where
  file : r'.file = r.file
  expected : r'.rbuf.expected = r.rbuf.expected
  highest : r'.rbuf.highest = r.rbuf.highest
  buffer : r'.rbuf.buffer = r.rbuf.buffer

def KeepsOutput (c : Client) (s : GetData) (t : Turn) : Prop :=
  ReceivesOther c s t → SameOutput s.receiver (receiveTurn c s t).receiver

/-- Storing the datagram changes nothing: its number is beyond the window, or its
slot already holds these eight bytes of it, and it does not raise `highest`. -/
def StoredAlready (rb : ReceiverBuffer) (buffer : List UInt8) : Prop :=
  (toU32 (i32 (rb.expected + rb.windowSize)) < seqOf buffer ∨
    ∀ p, Ring.slot rb.buffer (unsignedIndex (seqOf buffer) rb.windowSize) = some p →
      p.sequenceNumber = toI32 (seqOf buffer) ∧ p.dataSize = 1 ∧ p.valid = 1 ∧ p.ack = 0 ∧
        buffer.take 8 <+: p.data) ∧
  ¬toU32 rb.highest < seqOf buffer

/-- The datagram counts as an old packet, or its number does not matter to the
sub-state in which it is handled. -/
def Harmless (st : ReceiveState) (rb : ReceiverBuffer) (buffer : List UInt8) : Prop :=
  seqOf buffer < toU32 rb.expected ∨ st = .done ∨
    (st = .inOrder ∧ seqOf buffer ≠ toU32 rb.expected) ∨
    (st = .buffering ∧ StoredAlready rb buffer)

theorem store_eq_self_iff {seq : UInt32} {b : List UInt8} {p : Packet} :
    Packet.store seq b pointerSize p = p ↔
      p.sequenceNumber = toI32 seq ∧ p.dataSize = 1 ∧ p.valid = 1 ∧ p.ack = 0 ∧
        b.take 8 <+: p.data := by
  have hsize : i32 (pointerSize - 7) = 1 := rfl
  have hbytes : pointerSize.toNat = 8 := rfl
  cases p
  simp only [Packet.store, Packet.mk.injEq, hsize, hbytes, memcpy_zero, List.prefix_iff_eq_append,
    eq_comm]

theorem raiseHighest_eq_self_iff {h : Int} {seq : UInt32} :
    raiseHighest h seq = h ↔ ¬toU32 h < seq := by
  unfold raiseHighest
  split_ifs with hlt
  · refine ⟨fun heq => ?_, fun hge => absurd hlt hge⟩
    rw [← heq, toU32_toI32] at hlt
    exact absurd hlt (UInt32.lt_irrefl _)
  · exact ⟨fun _ => hlt, fun _ => rfl⟩

theorem i32_succ_ne (e : Int) : i32 (e + 1) ≠ e := by
  simp only [i32]
  omega

section Handlers

variable {c : Client} {r : Receiver} {buffer : List UInt8} {attempts : ℕ → Attempt}

theorem doInOrderState_sameOutput_iff :
    SameOutput r (doInOrderState c r buffer attempts).2 ↔
      seqOf buffer ≠ toU32 r.rbuf.expected := by
  simp only [doInOrderState]
  split_ifs with heq
  · refine ⟨fun h => ?_, fun hne => absurd heq hne⟩
    have hexp := h.expected
    rw [(resendRR_frame _ _ _ _ _ _).1] at hexp
    exact absurd hexp (i32_succ_ne _)
  · exact ⟨fun _ => heq, fun _ => ⟨rfl, rfl, rfl, rfl⟩⟩
  · exact ⟨fun _ => heq, fun _ => ⟨rfl, rfl, rfl, rfl⟩⟩

theorem doBufferState_sameOutput_iff :
    SameOutput r (doBufferState c r buffer attempts).2 ↔ StoredAlready r.rbuf buffer := by
  obtain ⟨hbuf, hfile⟩ := doBufferState_frame c r buffer attempts
  have hexp := insertReceiverPacket_expected r.rbuf buffer pointerSize
  have hraise : raiseHighest (insertReceiverPacket r.rbuf buffer pointerSize).highest
      (seqOf buffer) = raiseHighest r.rbuf.highest (seqOf buffer) := by
    rcases insertReceiverPacket_cases r.rbuf buffer pointerSize with he | he
    · rw [he]
    · rw [he]
      exact raiseHighest_idem r.rbuf.highest (seqOf buffer)
  have hhigh : SameOutput r (doBufferState c r buffer attempts).2 ↔
      (insertReceiverPacket r.rbuf buffer pointerSize).buffer = r.rbuf.buffer ∧
      raiseHighest r.rbuf.highest (seqOf buffer) = r.rbuf.highest := by
    constructor
    · intro h
      have hh := h.highest
      have hb := h.buffer
      rw [hbuf] at hh hb
      exact ⟨hb, hraise.symm.trans hh⟩
    · rintro ⟨hb, hh⟩
      refine ⟨hfile, ?_, ?_, ?_⟩ <;> rw [hbuf]
      · exact hexp
      · exact hraise.trans hh
      · exact hb
  rw [hhigh, StoredAlready, raiseHighest_eq_self_iff]
  refine and_congr_left fun _ => ?_
  simp only [insertReceiverPacket, if_neg (show ¬pointerSize ≤ 0 by decide)]
  split_ifs with hbeyond
  · simp [hbeyond]
  · simp only [Ring.update_eq_self_iff, store_eq_self_iff, hbeyond, false_or]

theorem doFlushingState_not_sameOutput : ¬SameOutput r (doFlushingState r).2 := by
  intro h
  have hfile : r.file ++ (flushBuffer r.rbuf).writes = r.file := by
    have := h.file
    simp only [doFlushingState] at this
    split_ifs at this <;> exact this
  have hexp : (flushBuffer r.rbuf).rbuf.expected = r.rbuf.expected := by
    have := h.expected
    simp only [doFlushingState] at this
    split_ifs at this <;> exact this
  rw [List.append_right_eq_self] at hfile
  simp only [flushBuffer, flushLoop] at hfile hexp
  -- without a write the loop has stopped at once, one number further
  cases hs : flushStep { r.rbuf with expected := i32 (r.rbuf.expected + 1) } with
  | none =>
    rw [hs] at hexp
    exact i32_succ_ne _ hexp
  | some step =>
    rw [hs] at hfile
    cases hfile

theorem handleDataPacket_sameOutput_iff (st : ReceiveState) :
    SameOutput r (handleDataPacket c st r buffer attempts).2 ↔ Harmless st r.rbuf buffer := by
  unfold handleDataPacket Harmless
  split_ifs with hold
  · have h := resendLastControl_frame r (attempts 0).sent
    refine ⟨fun _ => Or.inl hold, fun _ => ⟨h.2, ?_, ?_, ?_⟩⟩ <;> rw [h.1]
  · cases st with
    | inOrder =>
      dsimp only
      rw [doInOrderState_sameOutput_iff]
      simp [hold]
    | buffering =>
      dsimp only
      rw [doBufferState_sameOutput_iff]
      simp [hold]
    | flushing =>
      dsimp only
      simp [hold, doFlushingState_not_sameOutput]
    | done => exact ⟨fun _ => Or.inr (Or.inl rfl), fun _ => ⟨rfl, rfl, rfl, rfl⟩⟩

end Handlers

/-- The datagrams of other kinds change the output file, `expected` or the reorder
buffer nowhere in a run exactly when each of them is harmless where it is handled. -/
theorem keepsOutput_iff (c : Client) (raw : ReceiverBuffer) (turns : List Turn) :
    Runs.EveryStep (receiveTurn c) (KeepsOutput c) (enterGetData c raw) turns ↔
    Runs.EveryStep (receiveTurn c)
      (fun s t => ReceivesOther c s t →
        ∀ d, t.recv = some d → Harmless s.subState s.receiver.rbuf (t.received c d))
      (enterGetData c raw) turns := by
  refine Runs.everyStep_congr (I := fun _ => True) trivial ?_ fun _ _ _ _ => trivial
  intro s t _
  refine forall_congr' fun hother => ?_
  obtain ⟨hexit, hpoll, d, hrecv, hne, -⟩ := hother
  rw [receiveTurn_data hexit hpoll hrecv hne, handleDataPacket_sameOutput_iff]
  simp [hrecv]

/-- A turn that receives the handshake PDU with flag 33 and number 1. -/
def lateTurn : Turn where
  poll := 3
  heap := fun _ => 0
  recv := some (sealHandshake makeTalkHereNowBeforeChecksum)
  attempts := fun _ => ⟨11, -1, fun _ => 0, none⟩

/-- The first of two late handshake PDUs opens a gap before packet 0, and the second
is stored as packet 1. -/
theorem keepsOutput_lost :
    ¬Runs.EveryStep (receiveTurn ⟨3, 2, 1⟩) (KeepsOutput ⟨3, 2, 1⟩)
      (enterGetData ⟨3, 2, 1⟩ freshBuffer) [lateTurn, lateTurn] := by
  rintro ⟨-, hsecond, -⟩
  have hother : ReceivesOther ⟨3, 2, 1⟩
      (receiveTurn ⟨3, 2, 1⟩ (enterGetData ⟨3, 2, 1⟩ freshBuffer) lateTurn) lateTurn :=
    ⟨by decide, by decide, _, rfl, by decide, by unfold DataFlag; decide⟩
  have hslot := congrArg (fun l => (Ring.slot l 1).map Packet.valid) (hsecond hother).buffer
  revert hslot
  decide

end Rcopy
