import Rcopy.Handshake
import Rcopy.SendFile

/-!
# What a child sends while it sends data

Every datagram of `doSendDataState`, a resend included, is a data PDU of one of the
first `window_size + 1` packets. A resend has up to seven bytes behind the payload.
The child of the handshake sends any data PDU in each turn, so its runs cover those
of `doSendDataState`.
-/

namespace Rcopy

open Bytes

def IsPacket (w : Int) (d : List UInt8) : Prop :=
  ∃ (k : UInt32) (checksum : UInt16) (payload : List UInt8),
    (k.toNat : Int) ≤ w ∧ d = dataPdu k checksum payload

section Packets

variable {w : Int} {d : List UInt8}

theorem IsPacket.seq_le (h : IsPacket w d) : ((seqOf d).toNat : Int) ≤ w := by
  obtain ⟨k, checksum, payload, hk, rfl⟩ := h
  simpa using hk

theorem IsPacket.flag (h : IsPacket w d) : flagOf d = 16 := by
  obtain ⟨k, checksum, payload, -, rfl⟩ := h
  exact flagOf_dataPdu k checksum payload

theorem IsPacket.length (h : IsPacket w d) : 7 ≤ d.length := by
  obtain ⟨k, checksum, payload, -, rfl⟩ := h
  rw [length_dataPdu]
  omega

theorem IsPacket.append (h : IsPacket w d) (rest : List UInt8) : IsPacket w (d ++ rest) := by
  obtain ⟨k, checksum, payload, hk, rfl⟩ := h
  exact ⟨k, checksum, payload ++ rest, hk, by simp [dataPdu]⟩

theorem IsPacket.take (h : IsPacket w d) {n : ℕ} (hn : 7 ≤ n) : IsPacket w (d.take n) := by
  obtain ⟨k, checksum, payload, hk, rfl⟩ := h
  have hheader : (store32 (htonl k) ++ store16 checksum ++ [16]).length = 7 := by simp
  refine ⟨k, checksum, payload.take (n - 7), hk, ?_⟩
  rw [dataPdu, dataPdu, List.take_append, hheader, List.take_of_length_le (by omega)]

end Packets

/-- What the log and the filled slots hold, for a window of `w` numbers. -/
structure SendsPackets (p : Session) (w : Int) (s : SendData) : Prop where
  sending : s.Running → Sending p w s
  sent : ∀ tr ∈ s.sent, ∃ d, tr.bytes = some d ∧ IsPacket w d ∧ d.length ≤ p.bufferSize.toNat + 14
  slots : s.Running → ∀ i q, Ring.slot s.window.buffer i = some q →
    i < s.dataSequenceNumber.toNat → IsPacket w q.data ∧
      1 ≤ q.dataSize ∧ q.dataSize ≤ p.bufferSize.toNat + 7

section Steps

variable {p : Session} {w : Int} {s s' : SendData} {t : SendTurn}

theorem isPacket_freshPdu (h : (s.dataSequenceNumber.toNat : Int) ≤ w) :
    IsPacket w (freshPdu p s t) := by
  obtain ⟨checksum, hpdu⟩ := freshPdu_eq p s t
  exact ⟨_, checksum, _, h, hpdu⟩

theorem SendsPackets.sendFresh (h : SendsPackets p w s) (hrun : s.Running)
    (hkeep : (s.sendFresh p t q).Running → Sending p w (s.sendFresh p t q))
    (hnumber : (s.dataSequenceNumber.toNat : Int) ≤ s.window.windowSize)
    (hslot : Ring.slot s.window.buffer (s.dataSequenceNumber.toNat % s.window.windowSize) =
      some q) : SendsPackets p w (s.sendFresh p t q) := by
  have hs := h.sending hrun
  have hsize := hs.windowSize
  have hpdu : IsPacket w (freshPdu p s t) := isPacket_freshPdu (by omega)
  have hread := List.length_take_le p.bufferSize.toNat s.file
  have hlen := length_freshPdu p s t
  constructor
  · exact hkeep
  · intro tr htr
    simp only [SendData.sendFresh, List.mem_append, List.mem_singleton] at htr
    rcases htr with htr | rfl
    · exact h.sent tr htr
    · exact ⟨_, bytes_sendFresh (hs.room t hslot), hpdu, by omega⟩
  · intro _ i q' hq' hi
    rcases hs.slot_sendFresh hnumber hq' hi with ⟨hdatasize, junk, hdata⟩ | ⟨hi, hq'⟩
    · rw [hdata]
      exact ⟨hpdu.append junk, by omega, by omega⟩
    · exact h.slots hrun i q' hq' hi

theorem SendsPackets.resend (h : SendsPackets p w s) (hrun : s.Running) {cause : Cause} {seq : Int}
    {index : Int} {q : Packet} (hphase : s.phase ≠ .fill)
    (hslot : Ring.slot s.window.buffer index = some q) :
    SendsPackets p w (s.resend cause seq q t) := by
  have hs := h.sending hrun
  obtain ⟨hi₀, hget⟩ := Ring.slot_eq_some_iff.mp hslot
  have hlt := (List.getElem?_eq_some_iff.mp hget).1
  have hlength := hs.window.length
  have hsize := hs.windowSize
  -- outside the fill loop all slots have been filled
  have hnum := hs.number_eq hphase
  obtain ⟨hpacket, hone, hmax⟩ := h.slots hrun index q hslot (by omega)
  have hdata := hs.slots index q hslot
  have hbuffer := p.bufferSize.toNat_lt
  have hsum : i32 (q.dataSize + 7) = q.dataSize + 7 := i32_of_range (by omega) (by omega)
  constructor
  · intro hrun'
    exact ⟨hs.window, hs.windowSize, hs.lower_lt, hs.upper, hs.current, hs.number_le, hs.full,
      hs.slots⟩
  · intro tr htr
    simp only [SendData.resend, List.mem_append, List.mem_singleton] at htr
    rcases htr with htr | rfl
    · exact h.sent tr htr
    · refine ⟨q.data.take (q.dataSize + 7).toNat, ?_, hpacket.take (by omega), ?_⟩
      · simp only [Transmission.bytes, hsum]
        rw [if_pos]
        rw [hdata, packetStructSize]
        omega
      · rw [List.length_take]
        omega
  · exact fun _ => h.slots hrun

theorem SendStep.sendsPackets (h : SendsPackets p w s) (hrun : s.Running)
    (hstep : SendStep p s t s') : SendsPackets p w s' := by
  have hkeep : s'.Running → Sending p w s' := hstep.sending (h.sending hrun)
  cases hstep with
  | moved phase hmove => exact ⟨hkeep, h.sent, fun _ => h.slots hrun⟩
  | eof hfile => exact ⟨hkeep, h.sent, fun _ => h.slots hrun⟩
  | fresh q hphase hlower hnumber hfile hslot => exact h.sendFresh hrun hkeep hnumber hslot
  | crashed file fault => exact ⟨hkeep, h.sent, fun _ => h.slots hrun⟩
  | slid n window hrr hslid =>
    constructor
    · exact hkeep
    · exact h.sent
    · intro _ i q hq hi
      obtain ⟨q', hq', hdata, hsize⟩ := hslid.slots i q hq
      rw [hdata, hsize]
      exact h.slots hrun i q' hq' hi
  | resent cause seq index q hphase hcause hslot => exact h.resend hrun hphase hslot
  | ignored => exact h

theorem SendsPackets.turn (h : SendsPackets p w s) (t : SendTurn) :
    SendsPackets p w (sendTurn p s t) := by
  by_cases hrun : s.Running
  · have hstep := sendTurn_step (t := t) (h.sending hrun) hrun
    exact hstep.sendsPackets h hrun
  · rw [sendTurn_of_not_running hrun]
    exact h

end Steps

theorem enterSendData_sendsPackets {p : Session} (heap : ℕ → ℕ → UInt8)
    (hw : 1 ≤ toI32 p.windowSize) :
    SendsPackets p (toI32 p.windowSize) (enterSendData p heap) := by
  constructor
  · intro _
    exact enterSendData_sending heap hw
  · intro tr htr
    cases htr
  · intro _ i q hq hi
    obtain ⟨hi₀, -⟩ := Ring.slot_eq_some_iff.mp hq
    simp only [enterSendData, UInt32.toNat_zero] at hi
    omega

/-- No run of a child sends anything but data PDUs, and none of a packet past the
first window and the one after it. -/
theorem only_packets_sent (p : Session) (heap : ℕ → ℕ → UInt8) (turns : List SendTurn)
    (hw : 1 ≤ toI32 p.windowSize) :
    ∀ tr ∈ (Runs.exec (sendTurn p) (enterSendData p heap) turns).sent,
      ∃ d, tr.bytes = some d ∧ IsPacket (toI32 p.windowSize) d ∧
        d.length ≤ p.bufferSize.toNat + 14 := by
  have hkeep : SendsPackets p (toI32 p.windowSize)
      (Runs.exec (sendTurn p) (enterSendData p heap) turns) :=
    Runs.exec_of_keep (fun s t h => h.turn t) (enterSendData_sendsPackets heap hw)
  exact hkeep.sent

theorem only_packets_sent_short :
    1 ≤ toI32 shortSession.windowSize ∧
    ∀ tr ∈ (Runs.exec (sendTurn shortSession) (enterSendData shortSession fun _ _ => 0)
      [quietTurn none, quietTurn none, quietTurn none, quietTurn none,
        quietTurn (some [0, 0, 0, 1, 0, 0, 6])]).sent,
      ∃ d, tr.bytes = some d ∧ IsPacket (toI32 shortSession.windowSize) d ∧
        d.length ≤ shortSession.bufferSize.toNat + 14 :=
  ⟨by decide, only_packets_sent shortSession (fun _ _ => 0) _ (by decide)⟩

/-! ## The child of the handshake -/

def Transmission.sendto (dest : SockAddr) (tr : Transmission) : Sendto :=
  ⟨dest, tr.bytes.getD [], tr.result⟩

/-- The child `c'` is the child `c` after the datagrams that `doSendDataState` has sent. -/
structure ChildSends (p : Session) (w : Int) (c : Child) (s : SendData) (c' : Child) : Prop where
  packets : SendsPackets p w s
  child : c' = { c with sent := c.sent ++ s.sent.map (Transmission.sendto c.client) }

section Child

variable {p : Session} {w : Int} {s : SendData} {c c' : Child} {openable : List UInt8 → Bool}

/-- One turn appends one datagram or none. -/
theorem SendStep.sent_eq {s' : SendData} {t : SendTurn} (h : SendStep p s t s') :
    s'.sent = s.sent ∨ ∃ tr, s'.sent = s.sent ++ [tr] := by
  cases h with
  | moved _ _ => exact Or.inl rfl
  | eof _ => exact Or.inl rfl
  | fresh _ _ _ _ _ _ => exact Or.inr ⟨_, rfl⟩
  | crashed _ _ => exact Or.inl rfl
  | slid _ _ _ _ => exact Or.inl rfl
  | resent _ _ _ _ _ _ _ => exact Or.inr ⟨_, rfl⟩
  | ignored => exact Or.inl rfl

theorem sendTurn_appends (h : SendsPackets p w s) (t : SendTurn) :
    (sendTurn p s t).sent = s.sent ∨ ∃ tr, (sendTurn p s t).sent = s.sent ++ [tr] := by
  by_cases hrun : s.Running
  · exact (sendTurn_step (h.sending hrun) hrun).sent_eq
  · left
    rw [sendTurn_of_not_running hrun]

theorem ChildSends.turn (h : ChildSends p w c s c') (hphase : c.phase = .sendData) (t : SendTurn) :
    ∃ ts, ChildSends p w c (sendTurn p s t) (Runs.exec (childTurn openable) c' ts) := by
  have hpackets := h.packets.turn t
  rcases sendTurn_appends h.packets t with hsame | ⟨tr, happend⟩
  · refine ⟨[], hpackets, ?_⟩
    rw [hsame]
    exact h.child
  · obtain ⟨d, hbytes, ⟨seq, checksum, payload, -, hpdu⟩, -⟩ := hpackets.sent tr (by
      rw [happend]
      exact List.mem_append_right _ (List.mem_singleton_self tr))
    let turn : ChildTurn :=
      { poll := .timeout, sent := tr.result, seq := seq, checksum := checksum, payload := payload }
    refine ⟨[turn], hpackets, ?_⟩
    rw [Runs.exec_cons, Runs.exec_nil, h.child]
    simp only [childTurn, hphase, Child.sendto, turn, happend, List.map_append, List.map_singleton,
      Transmission.sendto, hbytes, Option.getD_some, hpdu, List.append_assoc]

end Child

/-- Every run of `doSendDataState` is one of the child in the handshake: turns of the
child send the same datagrams and change nothing else. -/
theorem child_sends_data (p : Session) (heap : ℕ → ℕ → UInt8) (turns : List SendTurn)
    (openable : List UInt8 → Bool) (c : Child) (hw : 1 ≤ toI32 p.windowSize)
    (hphase : c.phase = .sendData) :
    ∃ ts, Runs.exec (childTurn openable) c ts =
      { c with
        sent := c.sent ++ (Runs.exec (sendTurn p) (enterSendData p heap) turns).sent.map
          (Transmission.sendto c.client) } := by
  have hstart : ChildSends p (toI32 p.windowSize) c (enterSendData p heap) c := by
    constructor
    · exact enterSendData_sendsPackets heap hw
    · simp [enterSendData]
  have hexec : ∃ ts, ChildSends p (toI32 p.windowSize) c
      (Runs.exec (sendTurn p) (enterSendData p heap) turns)
      (Runs.exec (childTurn openable) c ts) :=
    Runs.exists_exec_of_simulates (fun s c' t h => h.turn hphase t) hstart
  obtain ⟨ts, hsends⟩ := hexec
  exact ⟨ts, hsends.child⟩

theorem child_sends_data_short :
    ∃ ts, Runs.exec (childTurn fun _ => true) ⟨⟨1, 4000⟩, [], [], .sendData⟩ ts =
      { client := ⟨1, 4000⟩
        filename := []
        sent := [] ++ (Runs.exec (sendTurn shortSession) (enterSendData shortSession fun _ _ => 0)
          [quietTurn none, quietTurn none]).sent.map (Transmission.sendto ⟨1, 4000⟩)
        phase := .sendData } :=
  child_sends_data shortSession (fun _ _ => 0) [quietTurn none, quietTurn none] (fun _ => true)
    ⟨⟨1, 4000⟩, [], [], .sendData⟩ (by decide) rfl

end Rcopy
