import Rcopy.ControlPdu
import Rcopy.DataPdu
import Rcopy.Lib.Runs
import Rcopy.SenderWindow

/-!
# The send loop of the server

`doSendDataState` of server.c, one evaluation of a loop head after the other: the
fill loop, the poll loop and the loop that waits while the window is closed. What
the system calls return is supplied by a `SendTurn`, with the memory that
`malloc` returns. Datagrams handed to `sendtoErr` are recorded in order.

The source file has been opened and `fread` returns full chunks until the end of
the file; every allocation is taken to succeed.
-/

namespace Rcopy

open Bytes

/-- The parameters of `doSendDataState` and the contents of the file. -/
structure Session where
  bufferSize : UInt16
  windowSize : UInt32
  file : List UInt8

inductive Returned
  | done
  | waitOnEofAck
deriving DecidableEq

/-- The loop whose head is evaluated next, or how the function ended. -/
inductive Phase
  | fill
  | poll
  | wait
  | returned (state : Returned)
  | crashed (fault : Fault)
deriving DecidableEq

inductive Cause
  | fill
  | srej
  | timeout
deriving DecidableEq

/-- A call of `sendtoErr` for the packet `seq`: the memory from its pointer to the
end of the block, the length and the result. -/
structure Transmission where
  cause : Cause
  seq : Int
  src : List UInt8
  len : Int
  result : Int
deriving DecidableEq

/-- The datagram, undetermined when the length is not within the block. -/
def Transmission.bytes (tr : Transmission) : Option (List UInt8) :=
  if 0 ≤ tr.len ∧ tr.len ≤ tr.src.length then some (tr.src.take tr.len.toNat) else none

/-- The variables of `doSendDataState`; `file` is what `fread` has not returned yet. -/
structure SendData where
  window : SenderWindow
  file : List UInt8
  dataSequenceNumber : UInt32
  sent : List Transmission
  phase : Phase
deriving DecidableEq

/-- The results of the system calls of one turn and the memory it meets: under the
blocks that `malloc` returns, after the end of the PDU, under `recv_buffer`. -/
structure SendTurn where
  chunkHeap : ℕ → UInt8
  pduHeap : ℕ → UInt8
  beyond : ℕ → UInt8
  cksumHeap : ℕ → UInt8
  stack : ℕ → UInt8
  sent : Int
  poll : Int
  recv : Option (List UInt8)

/-- The first `n` bytes from the start of a block, with `beyond` after its end. -/
def readBytes (block : List UInt8) (beyond : ℕ → UInt8) (n : ℕ) : List UInt8 :=
  (block ++ uninit beyond n).take n

structure DataChunk where
  data : List UInt8
  bytesRead : ℕ
  rest : List UInt8

def getDataChunk (fp : List UInt8) (bufferSize : ℕ) (heap : ℕ → UInt8) : DataChunk where
  data := memcpy (uninit heap bufferSize) 0 (fp.take bufferSize)
  bytesRead := (fp.take bufferSize).length
  rest := fp.drop bufferSize

def makeDataPacketBeforeChecksum (dataSequenceNumber : UInt32) (data_chunk : List UInt8)
    (bufferSize : UInt8) (heap : ℕ → UInt8) : List UInt8 :=
  let buffer := uninit heap (7 + bufferSize.toNat)
  let buffer := memcpy buffer 0 (store32 (htonl dataSequenceNumber))
  let buffer := memcpy buffer 4 (store16 0)
  let buffer := memcpy buffer 6 [16]
  memcpy buffer 7 (data_chunk.take bufferSize.toNat)

/-- The byte it sets to zero is the last one of the PDU when `bufferSize` is odd. -/
def calculateDataPacketChecksum (buffer : List UInt8) (beyond : ℕ → UInt8) (bufferSize : ℕ)
    (heap : ℕ → UInt8) : UInt16 :=
  let checksum_size := if (bufferSize + 7) % 2 ≠ 0 then bufferSize + 7 + 1 else bufferSize + 7
  let temp_buff := memcpy (uninit heap checksum_size) 0 (readBytes buffer beyond (bufferSize + 7))
  let temp_buff := if bufferSize % 2 ≠ 0 then temp_buff.set (checksum_size - 1) 0 else temp_buff
  inCksum temp_buff checksum_size

def makeDataPacketAfterChecksum (buffer : List UInt8) (calculated_checksum : UInt16) :
    List UInt8 :=
  storeChecksum buffer calculated_checksum

/-- The bytes that a turn of the fill loop puts into the window for the chunk it
has read. The buffer size is passed on in a `uint8_t`. -/
def freshPdu (p : Session) (s : SendData) (t : SendTurn) : List UInt8 :=
  let chunk := getDataChunk s.file p.bufferSize.toNat t.chunkHeap
  let dataPDU := makeDataPacketBeforeChecksum s.dataSequenceNumber chunk.data
    p.bufferSize.toUInt8 t.pduHeap
  let checksum := calculateDataPacketChecksum dataPDU t.beyond chunk.bytesRead t.cksumHeap
  readBytes (makeDataPacketAfterChecksum dataPDU checksum) t.beyond (chunk.bytesRead + 7)

def fillTurn (p : Session) (s : SendData) (t : SendTurn) : SendData :=
  let chunk := getDataChunk s.file p.bufferSize.toNat t.chunkHeap
  if chunk.bytesRead = 0 then
    { s with file := chunk.rest, phase := .returned .waitOnEofAck }
  else
    let inserted : Except Fault (SenderWindow × Packet) := do
      let window ← insertPacketIntoWindow s.window (toI32 s.dataSequenceNumber) (freshPdu p s t)
        (chunk.bytesRead + 7)
      let index ← window.indexU32 s.dataSequenceNumber
      let packet ← window.deref index
      .ok (window, packet)
    match inserted with
    | .error f => { s with file := chunk.rest, phase := .crashed f }
    | .ok (window, packet) =>
      let s : SendData := { s with
        file := chunk.rest
        window := { window with current := toI32 s.dataSequenceNumber }
        sent := s.sent ++
          [⟨.fill, s.dataSequenceNumber.toNat, packet.data, chunk.bytesRead + 7, t.sent⟩] }
      if t.sent < 0 then { s with phase := .returned .done }
      else { s with dataSequenceNumber := s.dataSequenceNumber + 1 }

def SendData.resend (s : SendData) (cause : Cause) (seq : Int) (packet : Packet) (t : SendTurn) :
    SendData :=
  { s with sent := s.sent ++ [⟨cause, seq, packet.data, i32 (packet.dataSize + 7), t.sent⟩] }

/-- What a turn receives in `recv_buffer`; `none` when `received <= 0`. -/
def SendTurn.control (t : SendTurn) : Option Control :=
  match t.recv with
  | none => none
  | some d => if d = [] then none else some (decodeControl (recvControl t.stack d))

def controlTurn (s : SendData) (t : SendTurn) : SendData :=
  match t.control with
  | some (.rr receivedSeq) =>
    let slid : Except Fault SenderWindow := do
      let window ← acknowledgePacket s.window (toI32 receivedSeq)
      advanceSenderWindow window (toI32 (receivedSeq + 1))
    match slid with
    | .error f => { s with phase := .crashed f }
    | .ok window => { s with window := window }
  | some (.srej receivedSeq) =>
    let found : Except Fault Packet := do
      let index ← s.window.indexU32 receivedSeq
      s.window.deref index
    match found with
    | .error f => { s with phase := .crashed f }
    | .ok packet => s.resend .srej receivedSeq.toNat packet t
  | some .other => s
  | none => s

/-- The search for the lowest packet without an ACK, for `n` numbers from `seq` on. -/
def findUnacked (w : SenderWindow) : ℕ → Int → Except Fault (Option (Int × Packet))
  | 0, _ => .ok none
  | n + 1, seq => do
    let index ← w.index seq
    match ← w.read index with
    | some packet =>
      if packet.ack = 0 then .ok (some (seq, packet)) else findUnacked w n (seq + 1)
    | none => findUnacked w n (seq + 1)

def timeoutTurn (s : SendData) (t : SendTurn) : SendData :=
  match findUnacked s.window (s.window.upper - s.window.lower + 1).toNat s.window.lower with
  | .error f => { s with phase := .crashed f }
  | .ok none => s
  | .ok (some (seq, packet)) => s.resend .timeout seq packet t

/-- One evaluation of the head of a loop, with the turn that follows it. -/
def sendTurn (p : Session) (s : SendData) (t : SendTurn) : SendData :=
  match s.phase with
  | .fill => if canSendMorePackets s.window then fillTurn p s t else { s with phase := .poll }
  | .poll => if 0 < t.poll then controlTurn s t else { s with phase := .wait }
  | .wait =>
    if canSendMorePackets s.window then { s with phase := .fill }
    else if 0 < t.poll then controlTurn s t
    else timeoutTurn s t
  | .returned _ => s
  | .crashed _ => s

def enterSendData (p : Session) (heap : ℕ → ℕ → UInt8) : SendData where
  window := initSenderWindow (toI32 p.windowSize) p.bufferSize.toNat heap
  file := p.file
  dataSequenceNumber := 0
  sent := []
  phase := .fill

def SendData.Running (s : SendData) : Prop := s.phase = .fill ∨ s.phase = .poll ∨ s.phase = .wait

instance (s : SendData) : Decidable s.Running :=
  inferInstanceAs (Decidable (s.phase = .fill ∨ s.phase = .poll ∨ s.phase = .wait))

/-- What every turn of a run keeps while the function runs, for a window of `w`
numbers. The lower edge moves only after packet `w` has been sent, and nothing is
sent after it has moved. -/
structure Sending (p : Session) (w : Int) (s : SendData) : Prop where
  window : s.window.WellFormed
  windowSize : s.window.windowSize = w
  lower_lt : s.window.lower < 2147483648
  upper : s.window.upper = if s.window.lower = 0 then w else i32 (s.window.lower + w - 1)
  current : s.window.current = s.dataSequenceNumber.toNat - 1 ∨
    (s.dataSequenceNumber = 0 ∧ s.window.current = 0)
  number_le : (s.dataSequenceNumber.toNat : Int) ≤ w + 1
  full : (s.window.lower = 0 ∧ s.phase = .fill) ∨ (s.dataSequenceNumber.toNat : Int) = w + 1
  slots : ∀ i q, Ring.slot s.window.buffer i = some q →
    q.data.length = packetStructSize + p.bufferSize.toNat - 9

theorem packet_ofMemory_length (n : ℕ) (heap : ℕ → UInt8) :
    (Packet.ofMemory (uninit heap (packetStructSize + n + 7))).data.length =
      packetStructSize + n - 9 := by
  simp only [Packet.ofMemory, List.length_drop, length_uninit, packetStructSize]
  omega

theorem enterSendData_sending {p : Session} (heap : ℕ → ℕ → UInt8)
    (hw : 1 ≤ toI32 p.windowSize) : Sending p (toI32 p.windowSize) (enterSendData p heap) := by
  have hlt : toI32 p.windowSize < 2147483648 := (i32_range _).2
  refine ⟨initSenderWindow_wellFormed _ heap hw hlt, rfl, ?_, ?_, ?_, ?_, ?_, ?_⟩
  · simp [enterSendData, initSenderWindow]
  · simp [enterSendData, initSenderWindow]
  · simp [enterSendData, initSenderWindow]
  · simp only [enterSendData, UInt32.toNat_zero]
    omega
  · simp [enterSendData, initSenderWindow]
  · intro i q hq
    obtain ⟨-, hget⟩ := Ring.slot_eq_some_iff.mp hq
    have hmem := List.mem_of_getElem? hget
    simp only [enterSendData, initSenderWindow, List.mem_map, Option.some.injEq] at hmem
    obtain ⟨j, -, rfl⟩ := hmem
    exact packet_ofMemory_length _ _

def SendData.Listens (s : SendData) (t : SendTurn) : Prop :=
  0 < t.poll ∧ (s.phase = .poll ∨ (s.phase = .wait ∧ canSendMorePackets s.window = false))

instance (s : SendData) (t : SendTurn) : Decidable (s.Listens t) :=
  inferInstanceAs (Decidable (0 < t.poll ∧
    (s.phase = .poll ∨ (s.phase = .wait ∧ canSendMorePackets s.window = false))))

def SendData.HandlesRR (s : SendData) (t : SendTurn) (n : UInt32) : Prop :=
  s.Listens t ∧ t.control = some (.rr n)

/-- A packet sent for the first time: the packet `q` of its slot is overwritten. -/
def SendData.sendFresh (p : Session) (s : SendData) (t : SendTurn) (q : Packet) : SendData where
  window :=
    { s.window with
      buffer := Ring.update s.window.buffer (s.dataSequenceNumber.toNat % s.window.windowSize)
        (Packet.fill s.dataSequenceNumber.toNat (freshPdu p s t)
          ((s.file.take p.bufferSize.toNat).length + 7))
      current := s.dataSequenceNumber.toNat }
  file := s.file.drop p.bufferSize.toNat
  dataSequenceNumber :=
    if t.sent < 0 then s.dataSequenceNumber else s.dataSequenceNumber + 1
  sent := s.sent ++
    [{ cause := .fill
       seq := s.dataSequenceNumber.toNat
       src := memcpy q.data 0 (freshPdu p s t)
       len := (s.file.take p.bufferSize.toNat).length + 7
       result := t.sent }]
  phase := if t.sent < 0 then .returned .done else s.phase

structure Slid (w w' : SenderWindow) (newLower : Int) : Prop where
  window : w'.WellFormed
  windowSize : w'.windowSize = w.windowSize
  current : w'.current = w.current
  edges : (newLower ≤ w.lower ∧ w'.lower = w.lower ∧ w'.upper = w.upper) ∨
    (w.lower < newLower ∧ w'.lower = newLower ∧
      w'.upper = i32 (newLower + w.windowSize - 1))
  slots : ∀ i q, Ring.slot w'.buffer i = some q →
    ∃ q', Ring.slot w.buffer i = some q' ∧ q.data = q'.data ∧ q.dataSize = q'.dataSize

/-- The cases of one turn of a running `doSendDataState`. -/
inductive SendStep (p : Session) (s : SendData) (t : SendTurn) : SendData → Prop
  | moved (phase : Phase)
      (h : (phase = .poll ∧ s.phase = .fill ∧ canSendMorePackets s.window = false) ∨
        (phase = .wait ∧ s.phase = .poll) ∨ (phase = .fill ∧ s.phase = .wait)) :
      SendStep p s t { s with phase := phase }
  | eof (hfile : s.file.take p.bufferSize.toNat = []) :
      SendStep p s t
        { s with file := s.file.drop p.bufferSize.toNat, phase := .returned .waitOnEofAck }
  | fresh (q : Packet) (hphase : s.phase = .fill) (hlower : s.window.lower = 0)
      (hnumber : (s.dataSequenceNumber.toNat : Int) ≤ s.window.windowSize)
      (hfile : s.file.take p.bufferSize.toNat ≠ [])
      (hslot : Ring.slot s.window.buffer (s.dataSequenceNumber.toNat % s.window.windowSize) =
        some q) : SendStep p s t (s.sendFresh p t q)
  | crashed (file : List UInt8) (fault : Fault) :
      SendStep p s t { s with file := file, phase := .crashed fault }
  | slid (n : UInt32) (window : SenderWindow) (hrr : s.HandlesRR t n)
      (h : Slid s.window window (toI32 (n + 1))) : SendStep p s t { s with window := window }
  | resent (cause : Cause) (seq : Int) (index : Int) (q : Packet) (hphase : s.phase ≠ .fill)
      (hcause : cause ≠ .fill) (hslot : Ring.slot s.window.buffer index = some q) :
      SendStep p s t (s.resend cause seq q t)
  | ignored : SendStep p s t s

theorem SendData.Listens.not_fill {s : SendData} {t : SendTurn} (h : s.Listens t) :
    s.phase ≠ .fill := by
  intro hfill
  rcases h.2 with hp | ⟨hp, -⟩ <;> rw [hfill] at hp <;> cases hp

theorem SendData.Listens.running {s : SendData} {t : SendTurn} (h : s.Listens t) : s.Running :=
  Or.inr (h.2.imp_right And.left)

/-- The function goes on only after a send that succeeds. -/
theorem SendData.sent_nonneg_of_running {p : Session} {s : SendData} {t : SendTurn} {q : Packet}
    (h : (s.sendFresh p t q).Running) : 0 ≤ t.sent := by
  by_contra hneg
  rw [not_le] at hneg
  simp [SendData.Running, SendData.sendFresh, hneg] at h

theorem length_readBytes (block : List UInt8) (beyond : ℕ → UInt8) (n : ℕ) :
    (readBytes block beyond n).length = n := by
  simp [readBytes]

theorem length_freshPdu (p : Session) (s : SendData) (t : SendTurn) :
    (freshPdu p s t).length = (s.file.take p.bufferSize.toNat).length + 7 :=
  length_readBytes _ _ _

section Turns

variable {p : Session} {w : Int} {s : SendData} {t : SendTurn}

theorem Sending.number_le_of_open (h : Sending p w s) (hlower : s.window.lower = 0)
    (hopen : canSendMorePackets s.window = true) : (s.dataSequenceNumber.toNat : Int) ≤ w := by
  have hupper := h.upper
  have hpos := h.window.window_pos
  have hsize := h.windowSize
  rw [if_pos hlower] at hupper
  rw [canSendMorePackets_iff] at hopen
  rcases h.current with hcur | ⟨hzero, -⟩
  · omega
  · rw [hzero, UInt32.toNat_zero]
    omega

theorem Sending.open_of_lower_zero (h : Sending p w s) (hlower : s.window.lower = 0) :
    canSendMorePackets s.window = true ↔ (s.dataSequenceNumber.toNat : Int) ≤ w := by
  refine ⟨h.number_le_of_open hlower, ?_⟩
  intro hnum
  have hupper := h.upper
  have hpos := h.window.window_pos
  have hsize := h.windowSize
  rw [if_pos hlower] at hupper
  rw [canSendMorePackets_iff]
  rcases h.current with hcur | ⟨-, hcur⟩ <;> omega

theorem Sending.current_eq (h : Sending p w s) (hlower : s.window.lower ≠ 0) :
    s.window.current = w ∧ (s.dataSequenceNumber.toNat : Int) = w + 1 := by
  have hfull : (s.dataSequenceNumber.toNat : Int) = w + 1 := by
    rcases h.full with ⟨hzero, -⟩ | hfull
    · exact absurd hzero hlower
    · exact hfull
  have hpos := h.window.window_pos
  have hsize := h.windowSize
  refine ⟨?_, hfull⟩
  rcases h.current with hcur | ⟨hzero, -⟩
  · omega
  · rw [hzero, UInt32.toNat_zero] at hfull
    omega

theorem Sending.two_le_lower (h : Sending p w s) (hlower : s.window.lower ≠ 0)
    (hopen : canSendMorePackets s.window = true) :
    2 ≤ s.window.lower ∧ s.window.lower + w ≤ 2147483648 := by
  have hupper := h.upper
  have hlow := h.window.lower_nonneg
  have hlt := h.lower_lt
  have hpos := h.window.window_pos
  have hmax := h.window.window_lt
  have hsize := h.windowSize
  rw [if_neg hlower] at hupper
  rw [canSendMorePackets_iff, (h.current_eq hlower).1, hupper] at hopen
  have hover : s.window.lower + w ≤ 2147483648 := by
    by_contra hover
    simp only [i32] at hopen
    omega
  rw [i32_of_range (by omega) (by omega)] at hopen
  omega

theorem Sending.slot_eq_none (h : Sending p w s) (hlower : s.window.lower ≠ 0)
    (hopen : canSendMorePackets s.window = true) :
    Ring.slot s.window.buffer (s.dataSequenceNumber.toNat % s.window.windowSize) = none := by
  have hnum := (h.current_eq hlower).2
  have htwo := h.two_le_lower hlower hopen
  have hpos := h.window.window_pos
  have hsize := h.windowSize
  obtain ⟨h₀, h₁⟩ := SenderWindow.index_range h.window s.dataSequenceNumber.toNat
  rw [h.window.null_iff _ h₀ h₁, hnum, hsize, Int.add_emod_left]
  by_cases hone : w = 1
  · rw [hone, Int.emod_one]
    omega
  · rw [Int.emod_eq_of_lt (by omega) (by omega)]
    omega

theorem Sending.slot_eq_some (h : Sending p w s) (hlower : s.window.lower = 0) (n : Int) :
    ∃ q, Ring.slot s.window.buffer (n % s.window.windowSize) = some q := by
  obtain ⟨h₀, h₁⟩ := SenderWindow.index_range h.window n
  apply Option.ne_none_iff_exists'.mp
  rw [Ne, h.window.null_iff _ h₀ h₁]
  omega

theorem fillTurn_eof (hfile : s.file.take p.bufferSize.toNat = []) :
    fillTurn p s t =
      { s with file := s.file.drop p.bufferSize.toNat, phase := .returned .waitOnEofAck } := by
  simp only [fillTurn, getDataChunk, hfile, List.length_nil, if_true]

theorem fillTurn_fresh (h : Sending p w s) (hlower : s.window.lower = 0)
    (hopen : canSendMorePackets s.window = true) (hfile : s.file.take p.bufferSize.toNat ≠ [])
    {q : Packet}
    (hslot : Ring.slot s.window.buffer (s.dataSequenceNumber.toNat % s.window.windowSize) =
      some q) : fillTurn p s t = s.sendFresh p t q := by
  have hnum := h.number_le_of_open hlower hopen
  have hmax := h.window.window_lt
  have hsize := h.windowSize
  have hseq : toI32 s.dataSequenceNumber = s.dataSequenceNumber.toNat := toI32_of_lt (by omega)
  have hlen := h.slots _ q hslot
  have hread := List.length_take_le p.bufferSize.toNat s.file
  have hcount : ¬(s.file.take p.bufferSize.toNat).length = 0 := by
    rwa [List.length_eq_zero_iff]
  have hins := insertPacketIntoWindow_of_slot h.window
    (n := s.dataSequenceNumber.toNat) (by omega) hslot (freshPdu p s t)
    ((s.file.take p.bufferSize.toNat).length + 7) (by
      rw [hlen, packetStructSize]
      omega)
  have hwf := h.window.update (s.dataSequenceNumber.toNat % s.window.windowSize)
    (Packet.fill s.dataSequenceNumber.toNat (freshPdu p s t)
      ((s.file.take p.bufferSize.toNat).length + 7))
  have hfilled : Ring.slot (Ring.update s.window.buffer
      (s.dataSequenceNumber.toNat % s.window.windowSize)
      (Packet.fill s.dataSequenceNumber.toNat (freshPdu p s t)
        ((s.file.take p.bufferSize.toNat).length + 7)))
      (s.dataSequenceNumber.toNat % s.window.windowSize) =
      some (Packet.fill s.dataSequenceNumber.toNat (freshPdu p s t)
        ((s.file.take p.bufferSize.toNat).length + 7) q) := by
    rw [Ring.slot_update_self, hslot, Option.map_some]
  obtain ⟨h₀, h₁⟩ := SenderWindow.index_range h.window s.dataSequenceNumber.toNat
  have hindex := SenderWindow.indexU32_eq hwf s.dataSequenceNumber
  have hderef := SenderWindow.deref_of_slot hwf h₀ h₁ hfilled
  have hpdu : (freshPdu p s t).take
      (((s.file.take p.bufferSize.toNat).length : Int) + 7).toNat = freshPdu p s t := by
    rw [List.take_of_length_le]
    rw [length_freshPdu]
    omega
  simp only [fillTurn, getDataChunk, if_neg hcount, hseq, hins, hindex, hderef, bind, Except.bind,
    SendData.sendFresh, Packet.fill, hpdu]
  split_ifs <;> rfl

/-- Once the window has slid, the slot of the next packet has been freed. -/
theorem fillTurn_freed (h : Sending p w s) (hlower : s.window.lower ≠ 0)
    (hopen : canSendMorePackets s.window = true) (hfile : s.file.take p.bufferSize.toNat ≠ []) :
    fillTurn p s t =
      { s with file := s.file.drop p.bufferSize.toNat, phase := .crashed .nullPointer } := by
  have hslot := h.slot_eq_none hlower hopen
  have hnum := (h.current_eq hlower).2
  have htwo := h.two_le_lower hlower hopen
  have hseq : toI32 s.dataSequenceNumber = s.dataSequenceNumber.toNat := toI32_of_lt (by omega)
  have hcount : ¬(s.file.take p.bufferSize.toNat).length = 0 := by
    rwa [List.length_eq_zero_iff]
  have hins := insertPacketIntoWindow_of_null h.window (n := s.dataSequenceNumber.toNat)
    (by omega) hslot (freshPdu p s t) ((s.file.take p.bufferSize.toNat).length + 7)
  simp only [fillTurn, getDataChunk, if_neg hcount, hseq, hins, bind, Except.bind]

theorem fillTurn_step (h : Sending p w s) (hphase : s.phase = .fill)
    (hopen : canSendMorePackets s.window = true) : SendStep p s t (fillTurn p s t) := by
  by_cases hfile : s.file.take p.bufferSize.toNat = []
  · rw [fillTurn_eof hfile]
    exact .eof hfile
  by_cases hlower : s.window.lower = 0
  · obtain ⟨q, hslot⟩ := h.slot_eq_some hlower s.dataSequenceNumber.toNat
    have hnum := h.number_le_of_open hlower hopen
    rw [fillTurn_fresh h hlower hopen hfile hslot]
    exact .fresh q hphase hlower (by rw [h.windowSize]; exact hnum) hfile hslot
  · rw [fillTurn_freed h hlower hopen hfile]
    exact .crashed _ _

theorem acked_slot {l : List (Option Packet)} {i k : Int} {q : Packet}
    (h : Ring.slot (Ring.update l i Packet.acked) k = some q) :
    ∃ q', Ring.slot l k = some q' ∧ q.data = q'.data ∧ q.dataSize = q'.dataSize := by
  rcases Ring.slot_update_eq_some h with ⟨-, q', hq', rfl⟩ | ⟨-, hq⟩
  · exact ⟨q', hq', rfl, rfl⟩
  · exact ⟨q, hq, rfl, rfl⟩

theorem controlTurn_rr (h : s.window.WellFormed) {n : UInt32} (hrecv : t.control = some (.rr n)) :
    (∃ window, controlTurn s t = { s with window := window } ∧
      Slid s.window window (toI32 (n + 1))) ∨
    (toI32 n < 0 ∧ controlTurn s t = { s with phase := .crashed .outOfBounds }) := by
  simp only [controlTurn, hrecv, bind, Except.bind]
  rcases acknowledgePacket_cases h (toI32 n) with ⟨i, hack⟩ | ⟨hneg, hack⟩
  · left
    have hwf := h.update i Packet.acked
    rcases advanceSenderWindow_cases hwf (toI32 (n + 1)) with
      ⟨hle, hadv⟩ | ⟨hlt, window, hadv, hwf', hsize, hlower, hupper, hcur, hslots⟩
    · refine ⟨_, by simp only [hack, hadv], hwf, rfl, rfl, Or.inl ⟨hle, rfl, rfl⟩, ?_⟩
      intro k q hq
      exact acked_slot hq
    · refine ⟨window, by simp only [hack, hadv], hwf', hsize, hcur, Or.inr ⟨hlt, hlower, hupper⟩, ?_⟩
      intro k q hq
      exact acked_slot (hslots k q hq)
  · exact Or.inr ⟨hneg, by simp only [hack]⟩

theorem controlTurn_step (h : s.window.WellFormed) (hlisten : s.Listens t) :
    SendStep p s t (controlTurn s t) := by
  cases hrecv : t.control with
  | none =>
    simp only [controlTurn, hrecv]
    exact .ignored
  | some c =>
    cases c with
    | rr n =>
      rcases controlTurn_rr h hrecv with ⟨window, hstep, hslid⟩ | ⟨-, hstep⟩
      · rw [hstep]
        exact .slid n window ⟨hlisten, hrecv⟩ hslid
      · rw [hstep]
        exact .crashed s.file _
    | srej n =>
      obtain ⟨h₀, h₁⟩ := SenderWindow.index_range h n.toNat
      simp only [controlTurn, hrecv, SenderWindow.indexU32_eq h, bind, Except.bind]
      cases hslot : Ring.slot s.window.buffer (n.toNat % s.window.windowSize) with
      | none =>
        simp only [SenderWindow.deref_of_null h h₀ h₁ hslot]
        exact .crashed s.file _
      | some q =>
        simp only [SenderWindow.deref_of_slot h h₀ h₁ hslot]
        exact .resent _ _ _ q hlisten.not_fill (by decide) hslot
    | other =>
      simp only [controlTurn, hrecv]
      exact .ignored

theorem findUnacked_spec {window : SenderWindow} (h : window.WellFormed) (n : ℕ) {seq : Int}
    (hseq : 0 ≤ seq) :
    findUnacked window n seq = .ok none ∨
    ∃ seq' index q, findUnacked window n seq = .ok (some (seq', q)) ∧
      Ring.slot window.buffer index = some q := by
  induction n generalizing seq with
  | zero => exact Or.inl rfl
  | succ n ih =>
    obtain ⟨h₀, h₁⟩ := SenderWindow.index_range h seq
    simp only [findUnacked, SenderWindow.index_eq h hseq, SenderWindow.read_eq h h₀ h₁, bind,
      Except.bind]
    cases hslot : Ring.slot window.buffer (seq % window.windowSize) with
    | none => exact ih (by omega)
    | some q =>
      dsimp only
      split_ifs
      · exact Or.inr ⟨seq, _, q, rfl, hslot⟩
      · exact ih (by omega)

theorem timeoutTurn_step (h : s.window.WellFormed) (hphase : s.phase ≠ .fill) :
    SendStep p s t (timeoutTurn s t) := by
  rcases findUnacked_spec h (s.window.upper - s.window.lower + 1).toNat h.lower_nonneg with
    hnone | ⟨seq, index, q, hsome, hslot⟩
  · simp only [timeoutTurn, hnone]
    exact .ignored
  · simp only [timeoutTurn, hsome]
    exact .resent _ _ index q hphase (by decide) hslot

theorem sendTurn_fill_open (hphase : s.phase = .fill)
    (hopen : canSendMorePackets s.window = true) : sendTurn p s t = fillTurn p s t := by
  simp only [sendTurn, hphase, if_pos hopen]

theorem sendTurn_fill_closed (hphase : s.phase = .fill)
    (hclosed : canSendMorePackets s.window = false) :
    sendTurn p s t = { s with phase := .poll } := by
  simp [sendTurn, hphase, hclosed]

theorem sendTurn_poll_silent (hphase : s.phase = .poll) (hpoll : ¬0 < t.poll) :
    sendTurn p s t = { s with phase := .wait } := by
  simp only [sendTurn, hphase, if_neg hpoll]

theorem sendTurn_wait_open (hphase : s.phase = .wait)
    (hopen : canSendMorePackets s.window = true) :
    sendTurn p s t = { s with phase := .fill } := by
  simp only [sendTurn, hphase, if_pos hopen]

theorem sendTurn_wait_timeout (hphase : s.phase = .wait)
    (hclosed : canSendMorePackets s.window = false) (hpoll : ¬0 < t.poll) :
    sendTurn p s t = timeoutTurn s t := by
  simp [sendTurn, hphase, hclosed, hpoll]

theorem sendTurn_listens (h : s.Listens t) : sendTurn p s t = controlTurn s t := by
  obtain ⟨hpoll, hphase⟩ := h
  rcases hphase with hphase | ⟨hphase, hclosed⟩
  · simp only [sendTurn, hphase, if_pos hpoll]
  · simp [sendTurn, hphase, hclosed, hpoll]

theorem sendTurn_step (h : Sending p w s) (hrun : s.Running) : SendStep p s t (sendTurn p s t) := by
  rcases hrun with hphase | hphase | hphase
  · simp only [sendTurn, hphase]
    split_ifs with hopen
    · exact fillTurn_step h hphase hopen
    · exact .moved _ (Or.inl ⟨rfl, hphase, by simpa using hopen⟩)
  · simp only [sendTurn, hphase]
    split_ifs with hpoll
    · exact controlTurn_step h.window ⟨hpoll, Or.inl hphase⟩
    · exact .moved _ (Or.inr (Or.inl ⟨rfl, hphase⟩))
  · simp only [sendTurn, hphase]
    split_ifs with hopen hpoll
    · exact .moved _ (Or.inr (Or.inr ⟨rfl, hphase⟩))
    · exact controlTurn_step h.window ⟨hpoll, Or.inr ⟨hphase, by simpa using hopen⟩⟩
    · exact timeoutTurn_step h.window (by rw [hphase]; decide)

theorem sendTurn_rr (h : s.window.WellFormed) {n : UInt32} (hrr : s.HandlesRR t n)
    (hn : 0 ≤ toI32 n) :
    ∃ window, sendTurn p s t = { s with window := window } ∧
      Slid s.window window (toI32 (n + 1)) := by
  rw [sendTurn_listens hrr.1]
  exact (controlTurn_rr h hrr.2).resolve_right fun hneg => absurd hneg.1 (by omega)

theorem sendTurn_fresh (h : Sending p w s) (hphase : s.phase = .fill)
    (hlower : s.window.lower = 0) (hopen : canSendMorePackets s.window = true)
    (hfile : s.file.take p.bufferSize.toNat ≠ []) :
    ∃ q, Ring.slot s.window.buffer (s.dataSequenceNumber.toNat % s.window.windowSize) = some q ∧
      sendTurn p s t = s.sendFresh p t q := by
  obtain ⟨q, hslot⟩ := h.slot_eq_some hlower s.dataSequenceNumber.toNat
  refine ⟨q, hslot, ?_⟩
  rw [sendTurn_fill_open hphase hopen]
  exact fillTurn_fresh h hlower hopen hfile hslot

/-- The fill loop has a packet to send and a slot for it. -/
structure HasNext (p : Session) (s : SendData) : Prop where
  phase : s.phase = .fill
  room : canSendMorePackets s.window = true
  slot : ∃ q, Ring.slot s.window.buffer (s.dataSequenceNumber.toNat % s.window.windowSize) = some q
  chunk : s.file.take p.bufferSize.toNat ≠ []

theorem sendTurn_fill_cases (hs : Sending p w s) (hphase : s.phase = .fill) :
    (∃ q, HasNext p s ∧ sendTurn p s t = s.sendFresh p t q) ∨
    (¬HasNext p s ∧ (sendTurn p s t).sent = s.sent ∧ (sendTurn p s t).phase ≠ .returned .done) := by
  by_cases hroom : canSendMorePackets s.window = true
  · by_cases hfile : s.file.take p.bufferSize.toNat = []
    · refine Or.inr ⟨fun h => h.chunk hfile, ?_⟩
      simp [sendTurn_fill_open hphase hroom, fillTurn_eof hfile]
    by_cases hlower : s.window.lower = 0
    · obtain ⟨q, hslot, hturn⟩ := sendTurn_fresh (t := t) hs hphase hlower hroom hfile
      exact Or.inl ⟨q, ⟨hphase, hroom, ⟨q, hslot⟩, hfile⟩, hturn⟩
    · -- the slot has been freed, and the process ends at the null pointer
      have hnull := hs.slot_eq_none hlower hroom
      refine Or.inr ⟨?_, ?_⟩
      · intro h
        obtain ⟨q, hslot⟩ := h.slot
        rw [hnull] at hslot
        cases hslot
      · simp [sendTurn_fill_open hphase hroom, fillTurn_freed hs hlower hroom hfile]
  · refine Or.inr ⟨fun h => hroom h.room, ?_⟩
    simp [sendTurn_fill_closed hphase (Bool.eq_false_of_not_eq_true hroom)]

theorem sendTurn_of_not_running (hrun : ¬s.Running) : sendTurn p s t = s := by
  simp only [SendData.Running, not_or] at hrun
  obtain ⟨hfill, hpoll, hwait⟩ := hrun
  cases hphase : s.phase with
  | fill => exact absurd hphase hfill
  | poll => exact absurd hphase hpoll
  | wait => exact absurd hphase hwait
  | returned state => simp only [sendTurn, hphase]
  | crashed fault => simp only [sendTurn, hphase]

theorem running_of_sendTurn (hrun : (sendTurn p s t).Running) : s.Running := by
  by_contra hs
  rw [sendTurn_of_not_running hs] at hrun
  exact hs hrun

theorem Sending.number_eq (h : Sending p w s) (hphase : s.phase ≠ .fill) :
    (s.dataSequenceNumber.toNat : Int) = w + 1 := by
  rcases h.full with ⟨-, hfill⟩ | hfull
  · exact absurd hfill hphase
  · exact hfull

theorem Sending.moved (h : Sending p w s) {phase : Phase}
    (hmove : (phase = .poll ∧ s.phase = .fill ∧ canSendMorePackets s.window = false) ∨
      (phase = .wait ∧ s.phase = .poll) ∨ (phase = .fill ∧ s.phase = .wait)) :
    Sending p w { s with phase := phase } := by
  refine ⟨h.window, h.windowSize, h.lower_lt, h.upper, h.current, h.number_le, Or.inr ?_, h.slots⟩
  rcases hmove with ⟨-, hfill, hclosed⟩ | ⟨-, hpoll⟩ | ⟨-, hwait⟩
  · rcases h.full with ⟨hlower, -⟩ | hfull
    · have hupper := h.upper
      have hnum := h.number_le
      have hpos := h.window.window_pos
      have hsize := h.windowSize
      rw [if_pos hlower] at hupper
      simp only [canSendMorePackets, decide_eq_false_iff_not, not_lt] at hclosed
      dsimp only
      rcases h.current with hcur | ⟨-, hcur⟩ <;> omega
    · exact hfull
  · exact h.number_eq (by rw [hpoll]; decide)
  · exact h.number_eq (by rw [hwait]; decide)

theorem Sending.sendFresh (h : Sending p w s) {q : Packet} (hlower : s.window.lower = 0)
    (hnumber : (s.dataSequenceNumber.toNat : Int) ≤ s.window.windowSize)
    (hphase : s.phase = .fill) (hsent : 0 ≤ t.sent) :
    Sending p w (s.sendFresh p t q) ∧
      (s.sendFresh p t q).dataSequenceNumber.toNat = s.dataSequenceNumber.toNat + 1 := by
  have hmax := h.window.window_lt
  have hsize := h.windowSize
  have hwf := h.window.update (s.dataSequenceNumber.toNat % s.window.windowSize)
    (Packet.fill s.dataSequenceNumber.toNat (freshPdu p s t)
      ((s.file.take p.bufferSize.toNat).length + 7))
  have hnext : (s.sendFresh p t q).dataSequenceNumber.toNat = s.dataSequenceNumber.toNat + 1 := by
    simp only [SendData.sendFresh, if_neg (not_lt.mpr hsent), UInt32.toNat_add, UInt32.toNat_one]
    omega
  refine ⟨⟨⟨hwf.window_pos, hwf.window_lt, hwf.length, hwf.lower_nonneg, hwf.null_iff⟩, hsize,
    h.lower_lt, h.upper, Or.inl ?_, ?_, Or.inl ⟨hlower, ?_⟩, ?_⟩, hnext⟩
  · rw [hnext]
    simp only [SendData.sendFresh]
    omega
  · rw [hnext]
    push_cast
    omega
  · simp only [SendData.sendFresh, if_neg (not_lt.mpr hsent), hphase]
  · intro i q' hq'
    simp only [SendData.sendFresh] at hq'
    rcases Ring.slot_update_eq_some hq' with ⟨-, q₀, hq₀, rfl⟩ | ⟨-, hq'⟩
    · have hlen := h.slots i q₀ hq₀
      have hread := List.length_take_le p.bufferSize.toNat s.file
      simp only [Packet.fill]
      rw [length_memcpy, hlen]
      rw [hlen, List.length_take, length_freshPdu, packetStructSize]
      omega
    · exact h.slots i q' hq'

theorem Sending.slid (h : Sending p w s) {n : Int} {window : SenderWindow} (hn : n < 2147483648)
    (hphase : s.phase ≠ .fill) (hslid : Slid s.window window n) :
    Sending p w { s with window := window } := by
  have hsize := hslid.windowSize.trans h.windowSize
  have hlow := h.window.lower_nonneg
  refine ⟨hslid.window, hsize, ?_, ?_, ?_, h.number_le, Or.inr (h.number_eq hphase), ?_⟩
  · dsimp only
    rcases hslid.edges with ⟨-, hlower, -⟩ | ⟨-, hlower, -⟩
    · rw [hlower]
      exact h.lower_lt
    · rw [hlower]
      exact hn
  · dsimp only
    rcases hslid.edges with ⟨-, hlower, hupper⟩ | ⟨hlt, hlower, hupper⟩
    · rw [hlower, hupper]
      exact h.upper
    · rw [hlower, hupper, h.windowSize, if_neg (by omega)]
  · dsimp only
    rw [hslid.current]
    exact h.current
  · intro i q hq
    obtain ⟨q', hq', hdata, -⟩ := hslid.slots i q hq
    rw [hdata]
    exact h.slots i q' hq'

theorem SendStep.sending {s' : SendData} (h : Sending p w s) (hstep : SendStep p s t s')
    (hrun : s'.Running) : Sending p w s' := by
  cases hstep with
  | moved phase hmove => exact h.moved hmove
  | eof _ => simp [SendData.Running] at hrun
  | fresh q hphase hlower hnumber _ _ =>
    exact (h.sendFresh hlower hnumber hphase (SendData.sent_nonneg_of_running hrun)).1
  | crashed _ _ => simp [SendData.Running] at hrun
  | slid n window hrr hslid =>
    exact h.slid (i32_range _).2 hrr.1.not_fill hslid
  | resent cause seq index q _ _ _ =>
    exact ⟨h.window, h.windowSize, h.lower_lt, h.upper, h.current, h.number_le, h.full, h.slots⟩
  | ignored => exact h

theorem sendTurn_sending (h : s.Running → Sending p w s) (hrun : (sendTurn p s t).Running) :
    Sending p w (sendTurn p s t) := by
  have hs := running_of_sendTurn hrun
  exact (sendTurn_step (h hs) hs).sending (h hs) hrun

theorem always_sending (heap : ℕ → ℕ → UInt8) (turns : List SendTurn)
    (hw : 1 ≤ toI32 p.windowSize) :
    Runs.Always (sendTurn p) (fun s => s.Running → Sending p (toI32 p.windowSize) s)
      (enterSendData p heap) turns := by
  refine Runs.always_of_step ?_ ?_
  · intro s t h hrun
    exact sendTurn_sending h hrun
  · intro _
    exact enterSendData_sending heap hw

end Turns

/-- A file of three bytes sent one byte a packet in windows of two. -/
def shortSession : Session where
  bufferSize := 1
  windowSize := 2
  file := [1, 2, 3]

/-- A turn in which every send succeeds; `poll` is positive when `recv` is read. -/
def quietTurn (recv : Option (List UInt8)) : SendTurn where
  chunkHeap := fun _ => 0
  pduHeap := fun _ => 0
  beyond := fun _ => 0
  cksumHeap := fun _ => 0
  stack := fun _ => 0
  sent := 8
  poll := if recv = none then 0 else 3
  recv := recv

end Rcopy
