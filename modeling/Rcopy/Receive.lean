import Rcopy.ControlPdu
import Rcopy.ReceiverBuffer

/-!
# The receive loop of rcopy

`doGetDataState` and the handlers it dispatches to. What the system calls return
is supplied by the environment: an `Attempt` for each turn of a handler's resend
loop and a `Turn` for each turn of the receive loop. Control PDUs handed to
`sendtoErr` and calls of `fwrite` are recorded in order.

`ReceiveState.done` is the value 3 of the outer `state` enumeration, which the
handlers return as a `ReceiveState`. No branch of `handleDataPacket` matches it.
-/

namespace Rcopy

open Bytes

inductive ReceiveState
  | inOrder
  | buffering
  | flushing
  | done
deriving DecidableEq

structure Client where
  socketNum : Int
  windowSize : Int
  bufferSize : Int

def Client.packetSize (c : Client) : ℕ := (7 + c.bufferSize).toNat

/-- One turn of a resend loop: the results of `sendtoErr`, `pollCall` and
`recvfrom` (`none` for an error), and the stack under the response buffer. -/
structure Attempt where
  sent : Int
  poll : Int
  stack : ℕ → UInt8
  recv : Option (List UInt8)

structure Sent where
  pdu : List UInt8
  result : Int
deriving DecidableEq

structure Receiver where
  rbuf : ReceiverBuffer
  file : List FWrite
  rrSeqNum : UInt32
  srejSeqNum : UInt32
  sent : List Sent
deriving DecidableEq

def Attempt.response (c : Client) (a : Attempt) : Option (List UInt8) :=
  if a.poll = c.socketNum then
    match a.recv with
    | none => none
    | some d =>
      if d = [] then none
      else some (recvInto (uninit a.stack c.packetSize) c.packetSize d)
  else none

/-- `receivedSeq == expected && receivedFlag == 16` on what the attempt received. -/
def Attempt.brings (c : Client) (a : Attempt) (expected : UInt32) : Bool :=
  match a.response c with
  | none => false
  | some b => seqOf b == expected && flagOf b == 16

/-- `fwrite(buffer + HEADER_SIZE, 1, buffer_size, file)`, whatever was received. -/
def writePayloadToFile (c : Client) (buffer : List UInt8) : List FWrite :=
  if c.bufferSize ≤ 0 then []
  else [{ seq := (seqOf buffer).toNat, src := buffer.drop 7, count := c.bufferSize.toNat }]

/-- The resend loop of `doInOrderState`. Its `break` after a successful send
leads to the same `return DONE` as running out of retries. -/
def resendRR (c : Client) (finalRRBuff : List UInt8) (attempts : ℕ → Attempt) :
    ℕ → ℕ → Receiver → ReceiveState × Receiver
  | 0, _, r => (.done, r)
  | n + 1, retries, r =>
    let a := attempts retries
    let r := { r with sent := r.sent ++ [⟨finalRRBuff, a.sent⟩] }
    if 0 ≤ a.sent then (.done, r)
    else
      let r := { r with rrSeqNum := r.rrSeqNum + 1 }
      if a.brings c (toU32 r.rbuf.expected) then (.inOrder, r)
      else resendRR c finalRRBuff attempts n (retries + 1) r

def doInOrderState (c : Client) (r : Receiver) (buffer : List UInt8) (attempts : ℕ → Attempt) :
    ReceiveState × Receiver :=
  let seqExpected := toU32 r.rbuf.expected
  let seqIncoming := seqOf buffer
  if seqIncoming = seqExpected then
    let expected := i32 (r.rbuf.expected + 1)
    let finalRRBuff := sealControl (makeRRPacketBeforeChecksum r.rrSeqNum (toU32 expected))
    resendRR c finalRRBuff attempts 9 0
      { r with
        file := r.file ++ writePayloadToFile c buffer
        rbuf := { r.rbuf with
          expected := expected
          lastControlPacket := finalRRBuff
          lastControlPacketSize := 11
          hasLastControl := 1 } }
  else if seqExpected < seqIncoming then (.buffering, r)
  else (.inOrder, r)

def resendLastControl (r : Receiver) (result : Int) : Receiver :=
  if r.rbuf.hasLastControl ≠ 0 then
    { r with
      sent := r.sent ++
        [⟨r.rbuf.lastControlPacket.take r.rbuf.lastControlPacketSize.toNat, result⟩] }
  else r

def resendSREJ (c : Client) (seqExpected : UInt32) (attempts : ℕ → Attempt) :
    ℕ → ℕ → Receiver → ReceiveState × Receiver
  | 0, _, r => (.done, r)
  | n + 1, retries, r =>
    let a := attempts retries
    let buff_to_send := sealControl (makeSREJPacketBeforeChecksum r.srejSeqNum seqExpected)
    let r := { r with
      sent := r.sent ++ [⟨buff_to_send, a.sent⟩]
      srejSeqNum := r.srejSeqNum + 1 }
    if a.brings c seqExpected then (.flushing, r)
    else resendSREJ c seqExpected attempts n (retries + 1) r

/-- `sizeof(receivedBuffer)` in `doBufferState` is the size of a pointer. -/
def pointerSize : Int := 8

def doBufferState (c : Client) (r : Receiver) (receivedBuffer : List UInt8)
    (attempts : ℕ → Attempt) : ReceiveState × Receiver :=
  let seqExpected := toU32 r.rbuf.expected
  let rbuf := insertReceiverPacket r.rbuf receivedBuffer pointerSize
  let rbuf := { rbuf with highest := raiseHighest rbuf.highest (seqOf receivedBuffer) }
  resendSREJ c seqExpected attempts 10 0 { r with rbuf := rbuf }

def doFlushingState (r : Receiver) : ReceiveState × Receiver :=
  let f := flushBuffer r.rbuf
  let r := { r with rbuf := f.rbuf, file := r.file ++ f.writes }
  if f.rbuf.highest < f.rbuf.expected then (.inOrder, r) else (.buffering, r)

def handleDataPacket (c : Client) (currentState : ReceiveState) (r : Receiver)
    (buffer : List UInt8) (attempts : ℕ → Attempt) : ReceiveState × Receiver :=
  if seqOf buffer < toU32 r.rbuf.expected then
    (currentState, resendLastControl r (attempts 0).sent)
  else
    match currentState with
    | .inOrder => doInOrderState c r buffer attempts
    | .buffering => doBufferState c r buffer attempts
    | .flushing => doFlushingState r
    | .done => (currentState, r)

inductive Exit
  | recvError
  | noBytes
  | eof
  | maxRetries
  | doneReceiving
deriving DecidableEq

structure GetData where
  receiver : Receiver
  subState : ReceiveState
  attempts : ℕ
  exit : Option Exit
deriving DecidableEq

/-- One turn of the receive loop: the results of `pollCall` and `recvfrom`, the
memory that `malloc` returns, and the attempts of the handler. -/
structure Turn where
  poll : Int
  heap : ℕ → UInt8
  recv : Option (List UInt8)
  attempts : ℕ → Attempt

def Turn.received (c : Client) (t : Turn) (d : List UInt8) : List UInt8 :=
  recvInto (uninit t.heap c.packetSize) 1407 d

/-- `doGetDataState` before its loop; `raw` is the memory of the `ReceiverBuffer`. -/
def enterGetData (c : Client) (raw : ReceiverBuffer) : GetData where
  receiver :=
    { rbuf := initReceiverBuffer raw c.bufferSize c.windowSize
      file := []
      rrSeqNum := 0
      srejSeqNum := 0
      sent := [] }
  subState := .inOrder
  attempts := 0
  exit := none

def receiveTurn (c : Client) (s : GetData) (t : Turn) : GetData :=
  match s.exit with
  | some _ => s
  | none =>
    if 0 < t.poll then
      match t.recv with
      | none => { s with exit := some .recvError }
      | some d =>
        if d = [] then { s with exit := some .noBytes }
        else
          let receivedBuffer := t.received c d
          let handled := handleDataPacket c s.subState s.receiver receivedBuffer t.attempts
          { s with
            subState := handled.1
            receiver := handled.2
            exit := if flagOf receivedBuffer = 10 then some .eof else none }
    else
      let attempts := s.attempts + 1
      if 9 < attempts then { s with attempts := attempts, exit := some .maxRetries }
      else { s with attempts := attempts, exit := some .doneReceiving }

/-! ## What the handlers do to the buffer and the file -/

theorem resendRR_frame (c : Client) (pdu : List UInt8) (attempts : ℕ → Attempt) (n i : ℕ)
    (r : Receiver) :
    (resendRR c pdu attempts n i r).2.rbuf = r.rbuf ∧
    (resendRR c pdu attempts n i r).2.file = r.file := by
  induction n generalizing i r with
  | zero => exact ⟨rfl, rfl⟩
  | succ n ih =>
    simp only [resendRR]
    split_ifs
    · exact ⟨rfl, rfl⟩
    · exact ⟨rfl, rfl⟩
    · exact ih _ _

theorem resendRR_state (c : Client) (pdu : List UInt8) (attempts : ℕ → Attempt) (n i : ℕ)
    (r : Receiver) :
    (resendRR c pdu attempts n i r).1 = .done ∨ (resendRR c pdu attempts n i r).1 = .inOrder := by
  induction n generalizing i r with
  | zero => exact Or.inl rfl
  | succ n ih =>
    simp only [resendRR]
    split_ifs
    · exact Or.inl rfl
    · exact Or.inr rfl
    · exact ih _ _

theorem resendSREJ_frame (c : Client) (seq : UInt32) (attempts : ℕ → Attempt) (n i : ℕ)
    (r : Receiver) :
    (resendSREJ c seq attempts n i r).2.rbuf = r.rbuf ∧
    (resendSREJ c seq attempts n i r).2.file = r.file := by
  induction n generalizing i r with
  | zero => exact ⟨rfl, rfl⟩
  | succ n ih =>
    simp only [resendSREJ]
    split_ifs
    · exact ⟨rfl, rfl⟩
    · exact ih _ _

theorem resendSREJ_state (c : Client) (seq : UInt32) (attempts : ℕ → Attempt) (n i : ℕ)
    (r : Receiver) :
    (resendSREJ c seq attempts n i r).1 = .done ∨
    ((resendSREJ c seq attempts n i r).1 = .flushing ∧ ∃ k, (attempts k).brings c seq = true) := by
  induction n generalizing i r with
  | zero => exact Or.inl rfl
  | succ n ih =>
    simp only [resendSREJ]
    split_ifs with hb
    · exact Or.inr ⟨rfl, i, hb⟩
    · exact ih _ _

theorem resendLastControl_frame (r : Receiver) (result : Int) :
    (resendLastControl r result).rbuf = r.rbuf ∧ (resendLastControl r result).file = r.file := by
  unfold resendLastControl
  split_ifs <;> exact ⟨rfl, rfl⟩

/-- The cases of one call of `handleDataPacket`, as far as the sub-state, the
buffer and the file are concerned. -/
inductive Handled (c : Client) (r : Receiver) (buffer : List UInt8) (attempts : ℕ → Attempt) :
    ReceiveState → ReceiveState → Receiver → Prop
  | kept {st st' : ReceiveState} {r' : Receiver}
      (hseq : seqOf buffer < toU32 r.rbuf.expected ∨
        (st = .inOrder ∧ seqOf buffer ≠ toU32 r.rbuf.expected) ∨ st = .done)
      (hr : r'.rbuf = r.rbuf) (hf : r'.file = r.file)
      (hst : st' = st ∨ st' = .buffering) : Handled c r buffer attempts st st' r'
  | written {st' : ReceiveState} {r' : Receiver}
      (hseq : seqOf buffer = toU32 r.rbuf.expected)
      (hr : ∃ packet size has, r'.rbuf = { r.rbuf with
        expected := i32 (r.rbuf.expected + 1)
        lastControlPacket := packet
        lastControlPacketSize := size
        hasLastControl := has })
      (hf : r'.file = r.file ++ writePayloadToFile c buffer)
      (hst : st' = .done ∨ st' = .inOrder) : Handled c r buffer attempts .inOrder st' r'
  | buffered {st' : ReceiveState} {r' : Receiver}
      (hr : r'.rbuf = { insertReceiverPacket r.rbuf buffer pointerSize with
        highest := raiseHighest (insertReceiverPacket r.rbuf buffer pointerSize).highest
          (seqOf buffer) })
      (hf : r'.file = r.file)
      (hst : st' = .done ∨ (st' = .flushing ∧
        ∃ k, (attempts k).brings c (toU32 r.rbuf.expected) = true)) :
      Handled c r buffer attempts .buffering st' r'
  | flushed {st' : ReceiveState} {r' : Receiver}
      (hseq : ¬seqOf buffer < toU32 r.rbuf.expected)
      (hr : r'.rbuf = (flushBuffer r.rbuf).rbuf)
      (hf : r'.file = r.file ++ (flushBuffer r.rbuf).writes)
      (hst : st' = .inOrder ∨ st' = .buffering) : Handled c r buffer attempts .flushing st' r'

theorem doBufferState_frame (c : Client) (r : Receiver) (buffer : List UInt8)
    (attempts : ℕ → Attempt) :
    (doBufferState c r buffer attempts).2.rbuf =
      { insertReceiverPacket r.rbuf buffer pointerSize with
        highest := raiseHighest (insertReceiverPacket r.rbuf buffer pointerSize).highest
          (seqOf buffer) } ∧
    (doBufferState c r buffer attempts).2.file = r.file := by
  have h := resendSREJ_frame c (toU32 r.rbuf.expected) attempts 10 0
  exact ⟨(h _).1, (h _).2⟩

theorem handleDataPacket_handled (c : Client) (st : ReceiveState) (r : Receiver)
    (buffer : List UInt8) (attempts : ℕ → Attempt) :
    Handled c r buffer attempts st (handleDataPacket c st r buffer attempts).1
      (handleDataPacket c st r buffer attempts).2 := by
  unfold handleDataPacket
  split_ifs with hold
  · have h := resendLastControl_frame r (attempts 0).sent
    exact .kept (Or.inl hold) h.1 h.2 (Or.inl rfl)
  · cases st with
    | inOrder =>
      simp only [doInOrderState]
      split_ifs with heq hgt
      · have h := resendRR_frame c
          (sealControl (makeRRPacketBeforeChecksum r.rrSeqNum (toU32 (i32 (r.rbuf.expected + 1)))))
          attempts 9 0
        exact .written heq ⟨_, _, _, (h _).1⟩ (h _).2 (resendRR_state _ _ _ _ _ _)
      · exact .kept (Or.inr (Or.inl ⟨rfl, heq⟩)) rfl rfl (Or.inr rfl)
      · exact .kept (Or.inr (Or.inl ⟨rfl, heq⟩)) rfl rfl (Or.inl rfl)
    | buffering =>
      have h := doBufferState_frame c r buffer attempts
      exact .buffered h.1 h.2 (resendSREJ_state _ _ _ _ _ _)
    | flushing =>
      simp only [doFlushingState]
      split_ifs
      · exact .flushed hold rfl rfl (Or.inl rfl)
      · exact .flushed hold rfl rfl (Or.inr rfl)
    | done => exact .kept (Or.inr (Or.inr rfl)) rfl rfl (Or.inl rfl)

section Handled

variable {c : Client} {r r' : Receiver} {buffer : List UInt8} {attempts : ℕ → Attempt}
  {st st' : ReceiveState}

/-- The invariant rule of the handlers: what a write in order, an insertion and a flush
keep of the buffer, every call keeps. -/
theorem Handled.keep {P : ReceiverBuffer → Prop} (h : Handled c r buffer attempts st st' r')
    (write : ∀ rb packet size has, P rb → P { rb with
      expected := i32 (rb.expected + 1)
      lastControlPacket := packet
      lastControlPacketSize := size
      hasLastControl := has })
    (insert : ∀ rb, P rb → P { insertReceiverPacket rb buffer pointerSize with
      highest := raiseHighest (insertReceiverPacket rb buffer pointerSize).highest
        (seqOf buffer) })
    (flush : ∀ rb, P rb → P (flushBuffer rb).rbuf) (hr : P r.rbuf) : P r'.rbuf := by
  cases h with
  | kept _ he =>
    rw [he]
    exact hr
  | written _ he =>
    obtain ⟨packet, size, has, he⟩ := he
    rw [he]
    exact write _ _ _ _ hr
  | buffered he =>
    rw [he]
    exact insert _ hr
  | flushed _ he =>
    rw [he]
    exact flush _ hr

theorem Handled.wellFormed (h : Handled c r buffer attempts st st' r')
    (hw : r.rbuf.WellFormed) : r'.rbuf.WellFormed := by
  refine h.keep ?_ ?_ ?_ hw
  · exact fun rb _ _ _ hrb => ⟨hrb.window_pos, hrb.length, hrb.allocated⟩
  · intro rb hrb
    have hins := insertReceiverPacket_wellFormed hrb buffer pointerSize
    exact ⟨hins.window_pos, hins.length, hins.allocated⟩
  · exact fun rb hrb => flushBuffer_wellFormed hrb

theorem Handled.windowSize (h : Handled c r buffer attempts st st' r') :
    r'.rbuf.windowSize = r.rbuf.windowSize := by
  refine h.keep (P := fun rb => rb.windowSize = r.rbuf.windowSize) ?_ ?_ ?_ rfl
  · exact fun rb _ _ _ hrb => hrb
  · intro rb hrb
    exact (insertReceiverPacket_windowSize _ _ _).trans hrb
  · intro rb hrb
    obtain ⟨buffer, expected, hb⟩ := flushLoop_frame (rb.windowSize.toNat + 1)
      { rb with expected := i32 (rb.expected + 1) }
    rw [flushBuffer, hb]
    exact hrb

end Handled

theorem receiveTurn_data {c : Client} {s : GetData} {t : Turn} {d : List UInt8}
    (hexit : s.exit = none) (hpoll : 0 < t.poll) (hrecv : t.recv = some d) (hd : d ≠ []) :
    receiveTurn c s t =
      { s with
        subState := (handleDataPacket c s.subState s.receiver (t.received c d) t.attempts).1
        receiver := (handleDataPacket c s.subState s.receiver (t.received c d) t.attempts).2
        exit := if flagOf (t.received c d) = 10 then some .eof else none } := by
  simp only [receiveTurn, hexit, if_pos hpoll, hrecv, if_neg hd]

theorem receiveTurn_cases (c : Client) (s : GetData) (t : Turn) :
    ((receiveTurn c s t).receiver = s.receiver ∧ (receiveTurn c s t).subState = s.subState ∧
      (receiveTurn c s t).exit ≠ none) ∨
    ∃ d, s.exit = none ∧ 0 < t.poll ∧ t.recv = some d ∧ d ≠ [] ∧
      receiveTurn c s t =
        { s with
          subState := (handleDataPacket c s.subState s.receiver (t.received c d) t.attempts).1
          receiver := (handleDataPacket c s.subState s.receiver (t.received c d) t.attempts).2
          exit := if flagOf (t.received c d) = 10 then some .eof else none } := by
  simp only [receiveTurn]
  cases hexit : s.exit with
  | some e => exact Or.inl ⟨rfl, rfl, by simp [hexit]⟩
  | none =>
    dsimp only
    split_ifs with hpoll hmax
    · cases hrecv : t.recv with
      | none => exact Or.inl ⟨rfl, rfl, by simp⟩
      | some d =>
        by_cases hd : d = []
        · simp only [if_pos hd]
          exact Or.inl ⟨trivial, trivial, by simp⟩
        · simp only [if_neg hd]
          exact Or.inr ⟨d, trivial, hpoll, rfl, hd, rfl⟩
    · exact Or.inl ⟨rfl, rfl, by simp⟩
    · exact Or.inl ⟨rfl, rfl, by simp⟩

end Rcopy
