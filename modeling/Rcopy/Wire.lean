import Rcopy.LastControl
import Rcopy.ReceiveOutput
import Rcopy.SendEof
import Rcopy.SentPdus
import Rcopy.Transfer

/-!
# Sender and receiver on one wire

The child and rcopy again, now with every datagram as the other side sent it: a
control PDU keeps its counter in the first four bytes, and the wait loops of rcopy
read what the child has sent. A datagram is on the wire when its `sendtoErr` did not
fail, and from then on it may arrive any number of times, in any order, or never.
-/

namespace Rcopy

open Bytes

def SendData.delivered (s : SendData) : List (List UInt8) :=
  (s.sent.filter fun tr => 0 ≤ tr.result).filterMap Transmission.bytes

/-- A turn of one of the processes. For rcopy `picks` chooses what its wait loop receives. -/
inductive WireTurn
  | server (t : SendTurn) (pick : Option ℕ)
  | rcopy (t : Turn) (pick : Option ℕ) (picks : ℕ → Option ℕ)

def fromWire (log : List (List UInt8)) (pick : Option ℕ) : Option (List UInt8) :=
  pick.bind fun i => log[i]?

def Transfer.serverReceives (s : Transfer) (t : SendTurn) (pick : Option ℕ) : SendTurn :=
  { t with recv := fromWire s.receiver.receiver.delivered pick }

def Transfer.rcopyReceives (s : Transfer) (t : Turn) (pick : Option ℕ) (picks : ℕ → Option ℕ) :
    Turn :=
  { t with
    recv := fromWire s.sender.delivered pick
    attempts := fun i => { t.attempts i with recv := fromWire s.sender.delivered (picks i) } }

def wireTurn (p : Session) (c : Client) (s : Transfer) : WireTurn → Transfer
  | .server t pick => { s with sender := sendTurn p s.sender (s.serverReceives t pick) }
  | .rcopy t pick picks =>
    { s with receiver := receiveTurn c s.receiver (s.rcopyReceives t pick picks) }

/-- No `sendtoErr` of rcopy fails in the turn. -/
def WireTurn.Sends : WireTurn → Prop
  | .server _ _ => True
  | .rcopy t _ _ => ∀ i, 0 ≤ (t.attempts i).sent

/-- Arguments that rcopy accepts, and the child's copy of them. The main server passes the
window size through a `uint16_t`. -/
structure SameSizes (p : Session) (c : Client) : Prop where
  client : c.Accepted
  buffer : c.bufferSize = p.bufferSize.toNat
  window_pos : 0 < p.windowSize.toNat
  window_lt : p.windowSize.toNat < 65536

section Log

variable {d : List UInt8} {log : List (List UInt8)} {pick : Option ℕ}

theorem mem_of_fromWire (h : fromWire log pick = some d) : d ∈ log := by
  obtain ⟨i, -, hget⟩ := Option.bind_eq_some_iff.mp h
  exact List.mem_of_getElem? hget

theorem mem_delivered {s : SendData} (h : d ∈ s.delivered) :
    ∃ tr ∈ s.sent, 0 ≤ tr.result ∧ tr.bytes = some d := by
  obtain ⟨tr, htr, hd⟩ := List.mem_filterMap.mp h
  obtain ⟨hmem, hresult⟩ := List.mem_filter.mp htr
  exact ⟨tr, hmem, of_decide_eq_true hresult, hd⟩

theorem SendsPackets.isPacket {p : Session} {w : Int} {s : SendData} (h : SendsPackets p w s)
    (hd : d ∈ s.delivered) : IsPacket w d := by
  obtain ⟨tr, htr, -, hbytes⟩ := mem_delivered hd
  obtain ⟨d', hd', hpacket, -⟩ := h.sent tr htr
  rw [hbytes] at hd'
  rw [Option.some.inj hd']
  exact hpacket

end Log

/-! ## What a transfer can deliver -/

/-- The packets in flight are those of the first window and the one after it, and rcopy
has written at most one buffer for every number that it has stepped over. -/
structure OnWire (p : Session) (c : Client) (w : Int) (s : Transfer) : Prop where
  sends : SendsPackets p w s.sender
  expects : ExpectsNumbered w s.receiver.receiver.rbuf
  output : WholeBuffers c (fun n => (n : Int) ≤ s.receiver.receiver.rbuf.expected)
    s.receiver.receiver

section Steps

variable {p : Session} {c : Client} {w : Int} {s : Transfer}

theorem Handled.output {r r' : Receiver} {buffer : List UInt8} {attempts : ℕ → Attempt}
    {st st' : ReceiveState} (h : Handled c r buffer attempts st st' r') (hw : w < 2147483647)
    (hr : ExpectsNumbered w r.rbuf) (hseq : ((seqOf buffer).toNat : Int) ≤ w)
    (hout : WholeBuffers c (fun n => (n : Int) ≤ r.rbuf.expected) r) :
    ExpectsNumbered w r'.rbuf ∧ WholeBuffers c (fun n => (n : Int) ≤ r'.rbuf.expected) r' := by
  obtain ⟨hexpects, hmono⟩ := h.expectsNumbered hw hr hseq
  have h₀ := hexpects.nonneg
  have hle := hr.expected_le
  rcases h.wholeBuffers hout with hkeep | ⟨-, -, hnext, hwrite⟩
  · exact ⟨hexpects, hkeep.mono fun n hn => by omega⟩
  · refine ⟨hexpects, hwrite.mono ?_⟩
    intro n hn
    obtain ⟨m, hm, rfl⟩ := hn
    rcases i32_succ_cases hr.nonneg (by omega) with ⟨-, hsucc⟩ | ⟨-, hneg⟩
    · omega
    · omega

theorem OnWire.turn (h : OnWire p c w s) (hw : w < 2147483647) (t : WireTurn) :
    OnWire p c w (wireTurn p c s t) := by
  cases t with
  | server t pick => exact ⟨h.sends.turn _, h.expects, h.output⟩
  | rcopy t pick picks =>
    rcases receiveTurn_cases c s.receiver (s.rcopyReceives t pick picks) with
      ⟨hsame, -, -⟩ | ⟨d, -, -, hrecv, -, hturn⟩
    · constructor
      · exact h.sends
      · simp only [wireTurn, hsame]
        exact h.expects
      · simp only [wireTurn, hsame]
        exact h.output
    · have hpacket := h.sends.isPacket (mem_of_fromWire hrecv)
      have hseq := (header_received c (s.rcopyReceives t pick picks) hpacket.length).1
      have hhandled := handleDataPacket_handled c s.receiver.subState s.receiver.receiver
        ((s.rcopyReceives t pick picks).received c d) (s.rcopyReceives t pick picks).attempts
      obtain ⟨hexpects, hout⟩ := hhandled.output hw h.expects (by
        rw [hseq]
        exact hpacket.seq_le) h.output
      constructor
      · exact h.sends
      · simp only [wireTurn, hturn]
        exact hexpects
      · simp only [wireTurn, hturn]
        exact hout

theorem enterTransfer_onWire (heap : ℕ → ℕ → UInt8) (raw : ReceiverBuffer)
    (hw : 1 ≤ toI32 p.windowSize) :
    OnWire p c (toI32 p.windowSize) (enterTransfer p c heap raw) := by
  constructor
  · exact enterSendData_sendsPackets heap hw
  · exact initReceiverBuffer_expectsNumbered (by omega) raw c.bufferSize c.windowSize
  · exact enterGetData_wholeBuffers c raw (le_refl 0)

theorem SameSizes.windowSize (h : SameSizes p c) : toI32 p.windowSize = p.windowSize.toNat := by
  have hlt := h.window_lt
  rw [toI32, i32_of_range (by omega) (by omega)]

end Steps

/-! ## How the receive loop ends -/

/-- The loop is at its head before the first timeout, or it has ended with one or with an
error of `recvfrom`. -/
def GetData.EndsEarly (s : GetData) : Prop :=
  (s.exit = none ∧ s.attempts = 0) ∨ s.exit = some .recvError ∨ s.exit = some .doneReceiving

section Ends

variable {p : Session} {c : Client} {w : Int} {s : Transfer}

theorem receiveTurn_of_exit {s : GetData} {e : Exit} (h : s.exit = some e) (t : Turn) :
    receiveTurn c s t = s := by
  simp only [receiveTurn, h]

theorem OnWire.endsEarly (h : OnWire p c w s) (hs : s.receiver.EndsEarly) (t : WireTurn) :
    (wireTurn p c s t).receiver.EndsEarly := by
  cases t with
  | server t pick => exact hs
  | rcopy t pick picks =>
    rcases hs with ⟨hexit, hattempts⟩ | hexit | hexit
    · simp only [wireTurn, receiveTurn, hexit]
      split_ifs with hpoll hmax
      · cases hrecv : (s.rcopyReceives t pick picks).recv with
        | none => exact Or.inr (Or.inl rfl)
        | some d =>
          -- every datagram is a data PDU, so it is neither empty nor an EOF
          have hpacket := h.sends.isPacket (mem_of_fromWire hrecv)
          have hlen := hpacket.length
          have hne : d ≠ [] := List.ne_nil_of_length_pos (by omega)
          have hflag := (header_received c (s.rcopyReceives t pick picks) hlen).2
          rw [hpacket.flag] at hflag
          simp only [if_neg hne, hflag]
          exact Or.inl ⟨rfl, hattempts⟩
      · rw [hattempts] at hmax
        exact absurd hmax (by decide)
      · exact Or.inr (Or.inr rfl)
    · rw [wireTurn, receiveTurn_of_exit hexit]
      exact Or.inr (Or.inl hexit)
    · rw [wireTurn, receiveTurn_of_exit hexit]
      exact Or.inr (Or.inr hexit)

end Ends

/-! ## A run that delivers the file -/

/-- `j` packets of the first window have been sent, and all of them arrive. -/
structure Loaded (p : Session) (s : SendData) (j : ℕ) : Prop where
  filling : Filling p s j
  length : s.delivered.length = j
  packets : FitsByte p → ∀ i < j, ∃ checksum, s.delivered[i]? =
    some (dataPdu (UInt32.ofNat i) checksum (Chunks.chunk p.file p.bufferSize.toNat i))

section Load

variable {p : Session} {s : SendData} {t : SendTurn} {j : ℕ}

theorem SendData.delivered_sendFresh {q : Packet} (hsent : 0 ≤ t.sent)
    (hroom : (freshPdu p s t).length ≤ q.data.length) :
    (s.sendFresh p t q).delivered = s.delivered ++ [freshPdu p s t] := by
  have hbytes := bytes_sendFresh (p := p) (s := s) (t := t) hroom
  have hone : [{ cause := Cause.fill
                 seq := (s.dataSequenceNumber.toNat : Int)
                 src := memcpy q.data 0 (freshPdu p s t)
                 len := ((s.file.take p.bufferSize.toNat).length : Int) + 7
                 result := t.sent : Transmission }].filter (fun tr => 0 ≤ tr.result) =
      [⟨.fill, s.dataSequenceNumber.toNat, memcpy q.data 0 (freshPdu p s t),
        (s.file.take p.bufferSize.toNat).length + 7, t.sent⟩] := by
    simp [hsent]
  rw [SendData.delivered, SendData.sendFresh, List.filter_append, List.filterMap_append, hone]
  simp only [List.filterMap_cons, hbytes, List.filterMap_nil]
  rfl

theorem Loaded.turn (h : Loaded p s j) (hj : (j : Int) ≤ toI32 p.windowSize)
    (hpos : 1 ≤ p.bufferSize.toNat)
    (hmore : j * p.bufferSize.toNat < p.file.length) (hsent : 0 ≤ t.sent) :
    Loaded p (sendTurn p s t) (j + 1) := by
  have hs := h.filling.reading.sending
  have hnum := h.filling.number
  have hfile : s.file.take p.bufferSize.toNat ≠ [] := by
    rw [Ne, h.filling.reading.take_eq_nil_iff, hnum]
    omega
  have hopen := (hs.open_of_lower_zero h.filling.lower).mpr (by rw [hnum]; exact hj)
  obtain ⟨q, hslot, hturn⟩ := sendTurn_fresh (t := t) hs h.filling.phase h.filling.lower hopen hfile
  have hlog := SendData.delivered_sendFresh hsent (hs.room t hslot)
  constructor
  · exact h.filling.turn hj hpos hmore hsent
  · rw [hturn, hlog, List.length_append, h.length, List.length_singleton]
  · intro hfit i hi
    obtain ⟨checksum, hpdu⟩ := hfit.freshPdu_eq (t := t) hnum (by
      rw [h.filling.reading.file, hnum])
    rw [hturn, hlog]
    by_cases hlt : i < j
    · rw [List.getElem?_append_left (by rw [h.length]; exact hlt)]
      exact h.packets hfit i hlt
    · have hlast : i = j := by omega
      rw [hlast, List.getElem?_append_right (by rw [h.length]), h.length, Nat.sub_self, hpdu]
      exact ⟨checksum, rfl⟩

end Load

/-- A turn of rcopy that takes packet `i`. Its RR is refused by the kernel, and the
wait loop reads packet `i + 1`. -/
def refusedTurn (c : Client) : Turn where
  poll := 1
  heap := fun _ => 0
  recv := none
  attempts := fun _ => ⟨-1, c.socketNum, fun _ => 0, none⟩

/-- `i` of `k` packets have been written in order. -/
structure Fetched (c : Client) (file : List UInt8) (k i : ℕ) (s : GetData) : Prop where
  exit : s.exit = none
  subState : i < k → s.subState = .inOrder
  writes : WritesPayloads c file s.receiver
  expected : s.receiver.rbuf.expected = i

section Fetch

variable {c : Client} {file : List UInt8} {s : GetData} {t : Turn} {k i : ℕ}

theorem Fetched.turn (h : Fetched c file k i s) (hc : c.Accepted) (hi : i < k)
    (hk : k ≤ 2147483647) (hfull : (i + 1) * c.bufferSize.toNat ≤ file.length)
    {d : List UInt8} {checksum : UInt16} (hpoll : 0 < t.poll) (hrecv : t.recv = some d)
    (hd : d = dataPdu (UInt32.ofNat i) checksum (Chunks.chunk file c.bufferSize.toNat i))
    (hnext : i + 1 < k → (receiveTurn c s t).subState = .inOrder) :
    Fetched c file k (i + 1) (receiveTurn c s t) := by
  have hpos := hc.buffer_pos
  have hnum : (UInt32.ofNat i).toNat = i := by
    rw [UInt32.toNat_ofNat']
    omega
  rw [Nat.succ_mul] at hfull
  have hhonest : Honest c file d := by
    refine ⟨UInt32.ofNat i, checksum, ?_, ?_⟩
    · rw [hnum]
      omega
    · rw [hnum]
      exact hd
  obtain ⟨n, sum, junk, -, hseq, hlen, -, hexit, hh⟩ :=
    receiveTurn_honest hc h.exit hpoll hrecv hhonest
  have hn : n.toNat = i := by
    rw [← hseq, hd, seqOf_dataPdu, hnum]
  -- the chunk fills the buffer, so nothing behind it is written
  have hjunk : junk = [] := by
    rw [hn, Chunks.length_chunk] at hlen
    apply List.length_eq_zero_iff.mp
    omega
  have hexp := h.expected
  have hwrites : WritesPayloads c file (receiveTurn c s t).receiver := by
    apply hh.writesPayloads hc h.writes hlen
    · intro _ _
      exact ⟨hjunk, by omega⟩
    · intro hst
      rw [h.subState hi] at hst
      cases hst
  have hexpected : (receiveTurn c s t).receiver.rbuf.expected = (i : Int) + 1 := by
    have hsame : n = toU32 s.receiver.rbuf.expected := by
      apply UInt32.toNat_inj.mp
      have hto := toU32_toNat_of_range (x := s.receiver.rbuf.expected) (by omega) (by omega)
      omega
    rw [h.subState hi] at hh
    generalize hst : (receiveTurn c s t).subState = st' at hh
    generalize hr : (receiveTurn c s t).receiver = r' at hh
    cases hh with
    | kept hold _ _ =>
      rw [seqOf_dataPdu_append, hsame] at hold
      rcases hold with hlt | ⟨-, hne⟩ | hdone
      · exact absurd hlt (UInt32.lt_irrefl _)
      · exact absurd rfl hne
      · cases hdone
    | written _ hbuf _ =>
      obtain ⟨packet, size, has, hbuf⟩ := hbuf
      rw [hbuf, hexp]
      exact i32_of_range (by omega) (by omega)
  constructor
  · exact hexit
  · exact hnext
  · exact hwrites
  · rw [hexpected]
    push_cast
    rfl

theorem enterGetData_fetched (c : Client) (file : List UInt8) (raw : ReceiverBuffer) (k : ℕ) :
    Fetched c file k 0 (enterGetData c raw) := by
  constructor
  · rfl
  · intro _
    rfl
  · exact ⟨initReceiverBuffer_storedTruncated _ _ _, le_refl 0,
      show (0 : Int) < 2147483648 by decide, rfl⟩
  · rfl

end Fetch

section Deliver

variable {p : Session} {c : Client} {heap : ℕ → ℕ → UInt8} {raw : ReceiverBuffer} {s : Transfer}
  {k i : ℕ}

theorem exec_loaded (h : SameSizes p c) (heap : ℕ → ℕ → UInt8)
    (raw : ReceiverBuffer) (k : ℕ) (hk : k ≤ p.windowSize.toNat + 1)
    (hmore : ∀ i < k, i * p.bufferSize.toNat < p.file.length) :
    Loaded p (Runs.exec (wireTurn p c) (enterTransfer p c heap raw)
        (List.replicate k (.server (quietTurn none) none))).sender k ∧
      (Runs.exec (wireTurn p c) (enterTransfer p c heap raw)
        (List.replicate k (.server (quietTurn none) none))).receiver = enterGetData c raw := by
  have hpos := h.window_pos
  have hwindow := h.windowSize
  have hbuf := h.client.buffer_pos
  have heq := h.buffer
  induction k with
  | zero =>
    refine ⟨⟨⟨enterSendData_reading (by omega), rfl, rfl, rfl⟩, rfl, ?_⟩, rfl⟩
    intro _ i hi
    exact absurd hi (Nat.not_lt_zero i)
  | succ k ih =>
    obtain ⟨hload, hrcopy⟩ := ih (by omega) fun i hi => hmore i (by omega)
    rw [List.replicate_succ', Runs.exec_concat]
    constructor
    · exact hload.turn (by omega) (by omega) (hmore k (by omega)) (show (0 : Int) ≤ 8 by decide)
    · exact hrcopy

/-- The packet that a turn of rcopy takes from a loaded wire. -/
theorem Loaded.fromWire (h : Loaded p s.sender k) (hfit : FitsByte p) (hi : i < k) :
    ∃ checksum, fromWire s.sender.delivered (some i) =
      some (dataPdu (UInt32.ofNat i) checksum (Chunks.chunk p.file p.bufferSize.toNat i)) :=
  h.packets hfit i hi

end Deliver

/-- rcopy never sees an end of the file: its loop ends at the first poll that times out
or with an error of `recvfrom`. -/
theorem wire_ends_early (p : Session) (c : Client) (heap : ℕ → ℕ → UInt8) (raw : ReceiverBuffer)
    (turns : List WireTurn) (h : SameSizes p c) :
    Runs.Always (wireTurn p c) (fun s => s.receiver.EndsEarly) (enterTransfer p c heap raw)
      turns := by
  have hwindow := h.windowSize
  have hpos := h.window_pos
  have hlt := h.window_lt
  have hwire : Runs.Always (wireTurn p c) (OnWire p c (toI32 p.windowSize))
      (enterTransfer p c heap raw) turns :=
    Runs.always_of_step (fun s t hs => hs.turn (by omega) t)
      (enterTransfer_onWire heap raw (by omega))
  exact Runs.always_of_guard (I := fun s : Transfer => s.receiver.EndsEarly)
    (fun s t hs hends => hs.endsEarly hends t) (Or.inl ⟨rfl, rfl⟩) hwire

/-- The session and the client of the short examples, and a file of three packets. -/
theorem sameSizes_short : SameSizes shortSession shortClient := by
  constructor
  · exact ⟨by decide, by decide, by decide⟩
  · rfl
  · decide
  · decide

theorem wire_ends_early_short :
    Runs.Always (wireTurn shortSession shortClient) (fun s => s.receiver.EndsEarly)
      (enterTransfer shortSession shortClient (fun _ _ => 0) freshBuffer)
      [.server (quietTurn none) none, .rcopy (shortTurn 0) (some 0) (fun _ => some 0),
        .rcopy { shortTurn 0 with poll := -1 } none (fun _ => none)] :=
  wire_ends_early shortSession shortClient (fun _ _ => 0) freshBuffer _ sameSizes_short

end Rcopy
