import Rcopy.Wire

/-!
# What arrives of the file

Every datagram that the child sends carries the chunk of its number, a resend with a few
bytes of the slot behind it. rcopy writes `buffer_size` bytes for each number that it
expects, so what it has written is a selection of the chunks: some may be missing, none
is repeated or out of place, and other bytes stand behind the last chunk only.
-/

namespace Rcopy

open Bytes

/-- `d` is the data PDU of a chunk of the file, with any bytes behind it. -/
def CarriesChunk (p : Session) (d : List UInt8) : Prop :=
  ∃ (k : UInt32) (checksum : UInt16) (rest : List UInt8),
    k.toNat * p.bufferSize.toNat < p.file.length ∧
      d = dataPdu k checksum (Chunks.chunk p.file p.bufferSize.toNat k.toNat ++ rest)

theorem CarriesChunk.append {p : Session} {d : List UInt8} (h : CarriesChunk p d)
    (rest : List UInt8) : CarriesChunk p (d ++ rest) := by
  obtain ⟨k, checksum, rest', hk, rfl⟩ := h
  exact ⟨k, checksum, rest' ++ rest, hk, by simp [dataPdu]⟩

theorem CarriesChunk.take {p : Session} {d : List UInt8} (h : CarriesChunk p d) {n : ℕ}
    (hn : 7 + p.bufferSize.toNat ≤ n) : CarriesChunk p (d.take n) := by
  obtain ⟨k, checksum, rest, hk, rfl⟩ := h
  have hchunk := Chunks.length_chunk_le p.file p.bufferSize.toNat k.toNat
  have hheader : (store32 (htonl k) ++ store16 checksum ++ [16]).length = 7 := by simp
  refine ⟨k, checksum,
    rest.take (n - 7 - (Chunks.chunk p.file p.bufferSize.toNat k.toNat).length), hk, ?_⟩
  rw [dataPdu, dataPdu, List.take_append, hheader, List.take_of_length_le (by omega),
    List.take_append, List.take_of_length_le (by omega)]

/-! ## The sender -/

/-- What the log and the filled slots hold of the file. -/
structure SendsChunks (p : Session) (s : SendData) : Prop where
  packets : SendsPackets p (toI32 p.windowSize) s
  reading : s.Running → Reading p s
  sent : ∀ tr ∈ s.sent, ∀ d, tr.bytes = some d → CarriesChunk p d
  slots : s.Running → ∀ i q, Ring.slot s.window.buffer i = some q →
    i < s.dataSequenceNumber.toNat → CarriesChunk p (q.data.take q.dataSize.toNat)

section Sender

variable {p : Session} {s s' : SendData} {t : SendTurn} {q : Packet}

theorem Reading.carriesChunk_freshPdu (h : Reading p s) (hfit : FitsByte p)
    (hfile : s.file.take p.bufferSize.toNat ≠ []) : CarriesChunk p (freshPdu p s t) := by
  obtain ⟨checksum, hpdu⟩ := hfit.freshPdu_eq (t := t) rfl h.file
  rw [Ne, h.take_eq_nil_iff, not_or, not_le] at hfile
  refine ⟨s.dataSequenceNumber, checksum, [], hfile.2, ?_⟩
  rw [hpdu, UInt32.ofNat_toNat, List.append_nil]

theorem SendsChunks.sendFresh (h : SendsChunks p s) (hfit : FitsByte p) (hrun : s.Running)
    (hpackets : SendsPackets p (toI32 p.windowSize) (s.sendFresh p t q))
    (hreading : (s.sendFresh p t q).Running → Reading p (s.sendFresh p t q))
    (hnumber : (s.dataSequenceNumber.toNat : Int) ≤ s.window.windowSize)
    (hfile : s.file.take p.bufferSize.toNat ≠ [])
    (hslot : Ring.slot s.window.buffer (s.dataSequenceNumber.toNat % s.window.windowSize) =
      some q) : SendsChunks p (s.sendFresh p t q) := by
  have hs := (h.reading hrun).sending
  have hpdu : CarriesChunk p (freshPdu p s t) := (h.reading hrun).carriesChunk_freshPdu hfit hfile
  constructor
  · exact hpackets
  · exact hreading
  · intro tr htr d hd
    simp only [SendData.sendFresh, List.mem_append, List.mem_singleton] at htr
    rcases htr with htr | rfl
    · exact h.sent tr htr d hd
    · rw [bytes_sendFresh (hs.room t hslot)] at hd
      rw [← Option.some.inj hd]
      exact hpdu
  · intro _ i q' hq' hi
    rcases hs.slot_sendFresh hnumber hq' hi with ⟨hsize, junk, hdata⟩ | ⟨hi, hq'⟩
    · have hlen : q'.dataSize.toNat = (freshPdu p s t).length := by
        rw [hsize, length_freshPdu]
        omega
      rw [hdata, hlen, List.take_left]
      exact hpdu
    · exact h.slots hrun i q' hq' hi

theorem SendsChunks.resend (h : SendsChunks p s) (hrun : s.Running) {cause : Cause} {seq : Int}
    {index : Int} (hphase : s.phase ≠ .fill)
    (hpackets : SendsPackets p (toI32 p.windowSize) (s.resend cause seq q t))
    (hreading : (s.resend cause seq q t).Running → Reading p (s.resend cause seq q t))
    (hslot : Ring.slot s.window.buffer index = some q) :
    SendsChunks p (s.resend cause seq q t) := by
  have hs := (h.reading hrun).sending
  obtain ⟨hi₀, hget⟩ := Ring.slot_eq_some_iff.mp hslot
  have hlt := (List.getElem?_eq_some_iff.mp hget).1
  have hlength := hs.window.length
  have hwindow := hs.windowSize
  -- outside the fill loop all slots have been filled
  have hnum := hs.number_eq hphase
  have hfilled : index < s.dataSequenceNumber.toNat := by omega
  obtain ⟨-, hone, hmax⟩ := h.packets.slots hrun index q hslot hfilled
  have hbuffer := p.bufferSize.toNat_lt
  have hsum : (i32 (q.dataSize + 7)).toNat = q.dataSize.toNat + 7 := by
    rw [i32_of_range (by omega) (by omega)]
    omega
  constructor
  · exact hpackets
  · exact hreading
  · intro tr htr d hd
    simp only [SendData.resend, List.mem_append, List.mem_singleton] at htr
    rcases htr with htr | rfl
    · exact h.sent tr htr d hd
    · simp only [Transmission.bytes, hsum] at hd
      split_ifs at hd
      rw [← Option.some.inj hd, List.take_add]
      exact (h.slots hrun index q hslot hfilled).append _
  · exact fun _ => h.slots hrun

theorem SendStep.sendsChunks (h : SendsChunks p s) (hfit : FitsByte p) (hrun : s.Running)
    (hstep : SendStep p s t s') : SendsChunks p s' := by
  have hpackets := hstep.sendsPackets h.packets hrun
  have hreading : s'.Running → Reading p s' := hstep.reading (h.reading hrun)
  cases hstep with
  | moved phase hmove => exact ⟨hpackets, hreading, h.sent, fun _ => h.slots hrun⟩
  | eof hfile => exact ⟨hpackets, hreading, h.sent, fun _ => h.slots hrun⟩
  | fresh q hphase hlower hnumber hfile hslot =>
    exact h.sendFresh hfit hrun hpackets hreading hnumber hfile hslot
  | crashed file fault => exact ⟨hpackets, hreading, h.sent, fun _ => h.slots hrun⟩
  | slid n window hrr hslid =>
    constructor
    · exact hpackets
    · exact hreading
    · exact h.sent
    · intro _ i q hq hi
      obtain ⟨q', hq', hdata, hsize⟩ := hslid.slots i q hq
      rw [hdata, hsize]
      exact h.slots hrun i q' hq' hi
  | resent cause seq index q hphase hcause hslot =>
    exact h.resend hrun hphase hpackets hreading hslot
  | ignored => exact h

theorem SendsChunks.turn (h : SendsChunks p s) (hfit : FitsByte p) (t : SendTurn) :
    SendsChunks p (sendTurn p s t) := by
  by_cases hrun : s.Running
  · have hstep := sendTurn_step (t := t) (h.reading hrun).sending hrun
    exact hstep.sendsChunks h hfit hrun
  · rw [sendTurn_of_not_running hrun]
    exact h

theorem enterSendData_sendsChunks (heap : ℕ → ℕ → UInt8) (hw : 1 ≤ toI32 p.windowSize) :
    SendsChunks p (enterSendData p heap) := by
  constructor
  · exact enterSendData_sendsPackets heap hw
  · intro _
    exact enterSendData_reading hw
  · intro tr htr
    cases htr
  · intro _ i q hq hi
    obtain ⟨hi₀, -⟩ := Ring.slot_eq_some_iff.mp hq
    simp only [enterSendData, UInt32.toNat_zero] at hi
    omega

theorem SendsChunks.delivered (h : SendsChunks p s) {d : List UInt8} (hd : d ∈ s.delivered) :
    CarriesChunk p d := by
  obtain ⟨tr, htr, -, hbytes⟩ := mem_delivered hd
  exact h.sent tr htr d hbytes

end Sender

/-! ## The receiver -/

/-- What is determined of the output is a selection of the chunks before `expected`. -/
def CopiesChunks (c : Client) (file : List UInt8) (r : Receiver) : Prop :=
  ∀ b, fileBytes r.file = some b → ∃ ks padding,
    Chunks.Selects file c.bufferSize.toNat r.rbuf.expected.toNat ks padding b

section Receiver

variable {c : Client} {file buffer b : List UInt8} {r r' : Receiver} {attempts : ℕ → Attempt}
  {st st' : ReceiveState}

theorem fileBytes_writePayloadToFile_eq (hpos : 1 ≤ c.bufferSize)
    (h : fileBytes (writePayloadToFile c buffer) = some b) :
    b = (buffer.drop 7).take c.bufferSize.toNat := by
  rw [writePayloadToFile, if_neg (by omega)] at h
  simp only [fileBytes, FWrite.bytes, Option.map_some] at h
  split_ifs at h with hroom
  · rw [← Option.some.inj h, List.append_nil]
  · cases h

theorem CopiesChunks.mono (h : CopiesChunks c file r)
    (hle : r.rbuf.expected ≤ r'.rbuf.expected)
    (hfile : ∀ b, fileBytes r'.file = some b → fileBytes r.file = some b) :
    CopiesChunks c file r' := by
  intro b hb
  obtain ⟨ks, padding, hsel⟩ := h b (hfile b hb)
  exact ⟨ks, padding, hsel.mono (Int.toNat_le_toNat hle)⟩

/-- A write in order appends the chunk of the expected number. -/
theorem CopiesChunks.write (h : CopiesChunks c file r) (hpos : 1 ≤ c.bufferSize)
    (h₀ : 0 ≤ r.rbuf.expected) (hmax : r.rbuf.expected < 2147483647) {k : UInt32}
    {checksum : UInt16} {rest : List UInt8}
    (hk : k.toNat * c.bufferSize.toNat < file.length)
    (hbuffer : buffer =
      dataPdu k checksum (Chunks.chunk file c.bufferSize.toNat k.toNat ++ rest))
    (hseq : seqOf buffer = toU32 r.rbuf.expected)
    (hexp : r'.rbuf.expected = i32 (r.rbuf.expected + 1))
    (hfile : r'.file = r.file ++ writePayloadToFile c buffer) : CopiesChunks c file r' := by
  intro b hb
  rw [hfile] at hb
  obtain ⟨b₁, b₂, hb₁, hb₂, rfl⟩ := fileBytes_append_eq_some hb
  obtain ⟨ks, padding, hsel⟩ := h b₁ hb₁
  have hlen := length_fileBytes_writePayloadToFile hb₂
  have hchunk := Chunks.length_chunk_le file c.bufferSize.toNat k.toNat
  have hpre : Chunks.chunk file c.bufferSize.toNat k.toNat <+: b₂ := by
    rw [fileBytes_writePayloadToFile_eq hpos hb₂, hbuffer, ← List.append_nil (dataPdu _ _ _),
      drop_dataPdu_append, List.append_nil, List.take_append, List.take_of_length_le hchunk]
    exact List.prefix_append _ _
  have hnum : k.toNat = r.rbuf.expected.toNat := by
    rw [hbuffer, seqOf_dataPdu] at hseq
    have hto := toU32_toNat_of_range h₀ (by omega)
    rw [hseq]
    omega
  have hnext : r'.rbuf.expected.toNat = k.toNat + 1 := by
    rw [hexp, i32_of_range (by omega) (by omega)]
    omega
  obtain ⟨rest', hsel'⟩ := hsel.write hnum.ge hk hlen hpre
  rw [hnext]
  exact ⟨_, rest', hsel'⟩

theorem Handled.copiesChunks (h : Handled c r buffer attempts st st' r') {w : Int}
    (hw : w < 2147483647) (hpos : 1 ≤ c.bufferSize) (hr : ExpectsNumbered w r.rbuf)
    (hstored : StoredTruncated r.rbuf.buffer) (hcopies : CopiesChunks c file r) {k : UInt32}
    {checksum : UInt16} {rest : List UInt8} (hk : k.toNat * c.bufferSize.toNat < file.length)
    (hkw : (k.toNat : Int) ≤ w)
    (hbuffer : buffer =
      dataPdu k checksum (Chunks.chunk file c.bufferSize.toNat k.toNat ++ rest)) :
    CopiesChunks c file r' := by
  have hmono := (h.expectsNumbered hw hr (by rw [hbuffer, seqOf_dataPdu]; exact hkw)).2
  have h₀ := hr.nonneg
  have hle := hr.expected_le
  cases h with
  | kept _ _ hf =>
    apply hcopies.mono hmono
    intro b hb
    rw [← hf]
    exact hb
  | written hseq hbuf hf =>
    obtain ⟨packet, size, has, hbuf⟩ := hbuf
    have hto := toU32_toNat_of_range h₀ (by omega)
    have hexp : r.rbuf.expected ≤ w := by
      rw [hbuffer, seqOf_dataPdu] at hseq
      rw [hseq] at hkw
      omega
    exact hcopies.write hpos h₀ (by omega) hk hbuffer hseq (by rw [hbuf]) hf
  | buffered _ hf =>
    apply hcopies.mono hmono
    intro b hb
    rw [← hf]
    exact hb
  | flushed _ _ hf =>
    apply hcopies.mono hmono
    intro b hb
    -- a flush that writes at all leaves the output undetermined
    rw [hf] at hb
    obtain ⟨b₁, b₂, hb₁, hb₂, rfl⟩ := fileBytes_append_eq_some hb
    rcases flushBuffer_storedTruncated hstored with ⟨hnil, -⟩ | hnone
    · rw [hnil] at hb₂
      rw [← Option.some.inj hb₂, List.append_nil]
      exact hb₁
    · rw [hnone] at hb₂
      cases hb₂

/-- A turn of the receive loop, when the datagram is the packet of a chunk. -/
theorem CopiesChunks.turn {p : Session} {w : Int} {s : GetData} {t : Turn}
    (h : CopiesChunks c p.file s.receiver) (hc : c.Accepted)
    (heq : p.bufferSize.toNat = c.bufferSize.toNat) (hw : w < 2147483647)
    (hexpects : ExpectsNumbered w s.receiver.rbuf) (hstored : StoredTruncated s.receiver.rbuf.buffer)
    (hrecv : ∀ d, t.recv = some d → IsPacket w d ∧ CarriesChunk p d) :
    CopiesChunks c p.file (receiveTurn c s t).receiver := by
  rcases receiveTurn_cases c s t with ⟨hsame, -, -⟩ | ⟨d, -, -, hd, -, hturn⟩
  · rw [hsame]
    exact h
  · obtain ⟨hpacket, hcarries⟩ := hrecv d hd
    have hle := hc.buffer_le
    have hchunk : CarriesChunk p (t.received c d) := by
      rw [Turn.received, recvInto, memcpy_zero]
      exact (hcarries.take (by omega)).append _
    obtain ⟨k, checksum, rest, hk, hbuffer⟩ := hchunk
    have hkw : (k.toNat : Int) ≤ w := by
      have hseq := hpacket.seq_le
      rw [← (header_received c t hpacket.length).1, hbuffer, seqOf_dataPdu] at hseq
      exact hseq
    have hhandled := handleDataPacket_handled c s.subState s.receiver (t.received c d) t.attempts
    rw [heq] at hk hbuffer
    rw [hturn]
    exact hhandled.copiesChunks hw hc.buffer_pos hexpects hstored h hk hkw hbuffer

end Receiver

end Rcopy
