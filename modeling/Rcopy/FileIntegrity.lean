import Rcopy.DataPdu
import Rcopy.Lib.Chunks
import Rcopy.Lib.Runs
import Rcopy.Receive

/-!
# The file that the receiver writes

At the head of the receive loop the output file should be the payloads of the
packets before `expected`. Two turns break this. `writePayloadToFile` writes
`buffer_size` bytes for the short last chunk too, and a turn in the flushing
sub-state steps over the expected packet without writing it; what it does write
is undetermined, since `doBufferState` stores every packet with the size of a
pointer, so the byte count handed to `fwrite` is negative.
-/

namespace Rcopy

open Bytes

structure Client.Accepted (c : Client) : Prop where
  window_pos : 1 ≤ c.windowSize
  buffer_pos : 1 ≤ c.bufferSize
  buffer_le : c.bufferSize ≤ 1400

def payloads (c : Client) (file : List UInt8) (expected : Int) : List UInt8 :=
  Chunks.upTo file c.bufferSize.toNat expected.toNat

def Honest (c : Client) (file : List UInt8) (d : List UInt8) : Prop :=
  ∃ k checksum, k.toNat * c.bufferSize.toNat < file.length ∧
    d = dataPdu k checksum (Chunks.chunk file c.bufferSize.toNat k.toNat)

/-- At a head of the loop the bytes written are the payloads before `expected`. -/
def Intact (c : Client) (file : List UInt8) (s : GetData) : Prop :=
  s.exit = none → ∃ b, fileBytes s.receiver.file = some b ∧
    b = payloads c file s.receiver.rbuf.expected ∧ b <+: file

/-- The turn writes the short last chunk or the last number that an `int` can
hold in order, or it reaches the flushing sub-state with a packet that is not old. -/
def Spoils (c : Client) (s : GetData) (t : Turn) : Prop :=
  s.exit = none ∧ 0 < t.poll ∧ ∃ d ∈ t.recv,
    (s.subState = .inOrder ∧ ((seqOf d).toNat : Int) = s.receiver.rbuf.expected ∧
      (d.length < c.packetSize ∨ (seqOf d).toNat = 2147483647)) ∨
    (s.subState = .flushing ∧ s.receiver.rbuf.expected ≤ (seqOf d).toNat)

instance (c : Client) (s : GetData) (t : Turn) : Decidable (Spoils c s t) :=
  inferInstanceAs (Decidable (s.exit = none ∧ 0 < t.poll ∧ ∃ d ∈ t.recv,
    (s.subState = .inOrder ∧ ((seqOf d).toNat : Int) = s.receiver.rbuf.expected ∧
      (d.length < c.packetSize ∨ (seqOf d).toNat = 2147483647)) ∨
    (s.subState = .flushing ∧ s.receiver.rbuf.expected ≤ (seqOf d).toNat)))

def StoredTruncated (buffer : List (Option Packet)) : Prop :=
  ∀ i p, Ring.slot buffer i = some p → p.data.length = 1407 ∧ (p.valid = 1 → p.dataSize = 1)

theorem initReceiverBuffer_storedTruncated (raw : ReceiverBuffer) (bufferSize windowSize : Int) :
    StoredTruncated (initReceiverBuffer raw bufferSize windowSize).buffer := by
  intro i p hp
  rw [initReceiverBuffer_slot hp]
  exact ⟨List.length_replicate, by simp [emptyPacket]⟩

theorem insertReceiverPacket_storedTruncated {rb : ReceiverBuffer}
    (h : StoredTruncated rb.buffer) (recvBuffer : List UInt8) :
    StoredTruncated (insertReceiverPacket rb recvBuffer pointerSize).buffer := by
  rcases insertReceiverPacket_cases rb recvBuffer pointerSize with he | he
  · rw [he]
    exact h
  · rw [he]
    intro i p hp
    dsimp only at hp
    rcases Ring.slot_update_eq_some hp with ⟨-, q, hq, rfl⟩ | ⟨-, hq⟩
    · have hlen := (h i q hq).1
      refine ⟨?_, fun _ => rfl⟩
      simp only [Packet.store]
      rw [length_memcpy, hlen]
      rw [hlen, List.length_take, pointerSize]
      omega
    · exact h i p hq

theorem flushBuffer_storedTruncated {rb : ReceiverBuffer} (h : StoredTruncated rb.buffer) :
    ((flushBuffer rb).writes = [] ∧ (flushBuffer rb).rbuf.expected = i32 (rb.expected + 1)) ∨
    fileBytes (flushBuffer rb).writes = none := by
  simp only [flushBuffer, flushLoop]
  cases hs : flushStep { rb with expected := i32 (rb.expected + 1) } with
  | none => exact Or.inl ⟨rfl, rfl⟩
  | some r =>
    obtain ⟨p, hp, -, hvalid, -, hw⟩ := flushStep_cases hs
    obtain ⟨hlen, hsize⟩ := h _ _ hp
    have hcount : r.2.count = 18446744073709551610 := by
      rw [hw, hsize hvalid]
      rfl
    have hsrc : r.2.src.length = 1400 := by
      rw [hw, List.length_drop, hlen]
    right
    simp [fileBytes, FWrite.bytes, hcount, hsrc]

structure WritesPayloads (c : Client) (file : List UInt8) (r : Receiver) : Prop where
  stored : StoredTruncated r.rbuf.buffer
  nonneg : 0 ≤ r.rbuf.expected
  range : r.rbuf.expected < 2147483648
  bytes : fileBytes r.file = some (payloads c file r.rbuf.expected)

section Turns

variable {c : Client} {file : List UInt8} {s : GetData} {t : Turn}

theorem received_dataPdu (hc : c.Accepted) (file : List UInt8) (t : Turn) (k : UInt32)
    (checksum : UInt16) (n : ℕ) :
    ∃ junk, t.received c (dataPdu k checksum (Chunks.chunk file c.bufferSize.toNat n)) =
        dataPdu k checksum (Chunks.chunk file c.bufferSize.toNat n) ++ junk ∧
      (Chunks.chunk file c.bufferSize.toNat n).length + junk.length = c.bufferSize.toNat := by
  have h₁ := hc.buffer_pos
  have h₂ := hc.buffer_le
  have hlen := Chunks.length_chunk_le file c.bufferSize.toNat n
  refine ⟨_, recvInto_eq ?_, ?_⟩
  · rw [length_dataPdu]
    omega
  · rw [List.length_drop, length_uninit, length_dataPdu, Client.packetSize]
    omega

theorem fileBytes_writePayloadToFile {buffer b : List UInt8} (hc : c.Accepted)
    (h : buffer.drop 7 = b) (hb : b.length = c.bufferSize.toNat) :
    fileBytes (writePayloadToFile c buffer) = some b := by
  have hpos := hc.buffer_pos
  rw [writePayloadToFile, if_neg (by omega), h]
  simp [fileBytes, FWrite.bytes, ← hb]

theorem payloads_length_lt (hc : c.Accepted) {e e' : Int} (h₀ : 0 ≤ e)
    (h : e.toNat * c.bufferSize.toNat < file.length) (he : e < e') :
    (payloads c file e).length < (payloads c file e').length := by
  have hpos := hc.buffer_pos
  exact Chunks.length_upTo_lt (by omega) h (by omega)

theorem payloads_of_neg {e : Int} (h : e < 0) : payloads c file e = [] := by
  rw [payloads, Int.toNat_of_nonpos h.le, Chunks.upTo_zero]

/-! A handled packet of the file: `k` is its number and `junk` follows it in the
receive buffer. -/

variable {r r' : Receiver} {st st' : ReceiveState} {attempts : ℕ → Attempt} {k : UInt32}
  {checksum : UInt16} {junk : List UInt8}

theorem fileBytes_written (hc : c.Accepted) (hr : WritesPayloads c file r)
    (hlen : (Chunks.chunk file c.bufferSize.toNat k.toNat).length + junk.length =
      c.bufferSize.toNat)
    (hf : r'.file = r.file ++ writePayloadToFile c
      (dataPdu k checksum (Chunks.chunk file c.bufferSize.toNat k.toNat) ++ junk)) :
    fileBytes r'.file = some (payloads c file r.rbuf.expected ++
      (Chunks.chunk file c.bufferSize.toNat k.toNat ++ junk)) := by
  have hw := fileBytes_writePayloadToFile hc
    (drop_dataPdu_append k checksum (Chunks.chunk file c.bufferSize.toNat k.toNat) junk)
    (by rw [List.length_append, hlen])
  rw [hf, fileBytes_append, hr.bytes, hw]
  rfl

theorem WritesPayloads.congr (hr : WritesPayloads c file r)
    (hstored : StoredTruncated r'.rbuf.buffer) (hexp : r'.rbuf.expected = r.rbuf.expected)
    (hf : r'.file = r.file) : WritesPayloads c file r' := by
  refine ⟨hstored, ?_, ?_, ?_⟩
  · rw [hexp]
    exact hr.nonneg
  · rw [hexp]
    exact hr.range
  · rw [hexp, hf]
    exact hr.bytes

theorem Handled.writesPayloads (hc : c.Accepted) (hr : WritesPayloads c file r)
    (hlen : (Chunks.chunk file c.bufferSize.toNat k.toNat).length + junk.length =
      c.bufferSize.toNat)
    (hfull : st = .inOrder → (k.toNat : Int) = r.rbuf.expected →
      junk = [] ∧ k.toNat ≠ 2147483647)
    (hold : st = .flushing → (k.toNat : Int) < r.rbuf.expected)
    (h : Handled c r (dataPdu k checksum (Chunks.chunk file c.bufferSize.toNat k.toNat) ++ junk)
      attempts st st' r') : WritesPayloads c file r' := by
  have h₀ := hr.nonneg
  have h₁ := hr.range
  have hexp := toU32_toNat_of_range h₀ (by omega)
  cases h with
  | kept _ hbuf hf =>
    refine hr.congr ?_ ?_ hf <;> rw [hbuf]
    exact hr.stored
  | written hseq hbuf hf =>
    rw [seqOf_dataPdu_append] at hseq
    have hk : (k.toNat : Int) = r.rbuf.expected := by rw [hseq, hexp]
    obtain ⟨rfl, hmax⟩ := hfull rfl hk
    have hnext : i32 (r.rbuf.expected + 1) = r.rbuf.expected + 1 :=
      i32_of_range (by omega) (by omega)
    obtain ⟨packet, size, has, hbuf⟩ := hbuf
    have hbytes := fileBytes_written hc hr hlen hf
    refine ⟨?_, ?_, ?_, ?_⟩
    · rw [hbuf]
      exact hr.stored
    · rw [hbuf]
      dsimp only
      omega
    · rw [hbuf]
      dsimp only
      omega
    · rw [hbytes, hbuf, hnext, ← hk]
      dsimp only [payloads]
      have hsucc : ((k.toNat : Int) + 1).toNat = k.toNat + 1 := by omega
      rw [hsucc, Chunks.upTo_succ, Int.toNat_natCast, List.append_nil]
  | buffered hbuf hf =>
    refine hr.congr ?_ ?_ hf <;> rw [hbuf] <;> dsimp only
    · exact insertReceiverPacket_storedTruncated hr.stored _
    · exact insertReceiverPacket_expected _ _ _
  | flushed hseq _ _ =>
    have hlt := hold rfl
    rw [seqOf_dataPdu_append, UInt32.lt_iff_toNat_lt] at hseq
    omega

theorem fileBytes_written_ne (hc : c.Accepted) (hr : WritesPayloads c file r)
    (hlen : (Chunks.chunk file c.bufferSize.toNat k.toNat).length + junk.length =
      c.bufferSize.toNat)
    (hek : (k.toNat : Int) = r.rbuf.expected) (hbad : junk ≠ [] ∨ k.toNat = 2147483647)
    (hf : r'.file = r.file ++ writePayloadToFile c
      (dataPdu k checksum (Chunks.chunk file c.bufferSize.toNat k.toNat) ++ junk)) :
    fileBytes r'.file ≠ some (payloads c file (i32 (r.rbuf.expected + 1))) := by
  have hpos := hc.buffer_pos
  rw [fileBytes_written hc hr hlen hf]
  intro heq
  have hcount := congrArg List.length (Option.some.inj heq)
  simp only [List.length_append] at hcount
  rcases i32_succ_cases hr.nonneg hr.range with ⟨hmax, hnext⟩ | ⟨hmax, hnext⟩
  · have hjunk : 0 < junk.length := by
      refine List.length_pos_iff.mpr (hbad.resolve_right ?_)
      omega
    have hstep : (r.rbuf.expected + 1).toNat = k.toNat + 1 := by omega
    have hsame : r.rbuf.expected.toNat = k.toNat := by omega
    rw [hnext, payloads, payloads, hstep, hsame, Chunks.upTo_succ, List.length_append] at hcount
    omega
  · rw [payloads_of_neg hnext, List.length_nil] at hcount
    omega

theorem fileBytes_flushed_ne (hc : c.Accepted) (hr : WritesPayloads c file r)
    (hfile : r.rbuf.expected.toNat * c.bufferSize.toNat < file.length)
    (hf : r'.file = r.file ++ (flushBuffer r.rbuf).writes) :
    fileBytes r'.file ≠ some (payloads c file (flushBuffer r.rbuf).rbuf.expected) := by
  have h₀ := hr.nonneg
  rw [hf, fileBytes_append, hr.bytes]
  rcases flushBuffer_storedTruncated hr.stored with ⟨hnil, hexp⟩ | hnone
  · rw [hnil, hexp]
    intro heq
    have hcount := congrArg List.length (Option.some.inj heq)
    simp only [List.append_nil] at hcount
    rcases i32_succ_cases h₀ hr.range with ⟨-, hnext⟩ | ⟨hmax, hnext⟩
    · have hlt := payloads_length_lt hc h₀ hfile (lt_add_one _)
      rw [hnext] at hcount
      omega
    · have hlt : (payloads c file 0).length < (payloads c file r.rbuf.expected).length :=
        payloads_length_lt hc (le_refl 0) (by simp; omega) (by omega)
      rw [payloads_of_neg hnext, List.length_nil] at hcount
      omega
  · rw [hnone]
    simp

theorem Handled.not_payloads (hc : c.Accepted) (hr : WritesPayloads c file r)
    (hk : k.toNat * c.bufferSize.toNat < file.length)
    (hlen : (Chunks.chunk file c.bufferSize.toNat k.toNat).length + junk.length =
      c.bufferSize.toNat)
    (hbad : (st = .inOrder ∧ (k.toNat : Int) = r.rbuf.expected ∧
        (junk ≠ [] ∨ k.toNat = 2147483647)) ∨
      (st = .flushing ∧ r.rbuf.expected ≤ k.toNat))
    (h : Handled c r (dataPdu k checksum (Chunks.chunk file c.bufferSize.toNat k.toNat) ++ junk)
      attempts st st' r') : fileBytes r'.file ≠ some (payloads c file r'.rbuf.expected) := by
  have h₀ := hr.nonneg
  have h₁ := hr.range
  have hexp := toU32_toNat_of_range h₀ (by omega)
  cases h with
  | kept hseq _ _ =>
    rw [seqOf_dataPdu_append, UInt32.lt_iff_toNat_lt, Ne, ← UInt32.toNat_inj] at hseq
    rcases hbad with ⟨rfl, hbad, -⟩ | ⟨rfl, hbad⟩ <;>
      simp only [reduceCtorEq, true_and, false_and, or_false] at hseq <;> omega
  | written hseq hbuf hf =>
    rcases hbad with ⟨-, hek, hbad⟩ | ⟨hst, -⟩
    · obtain ⟨packet, size, has, hbuf⟩ := hbuf
      rw [hbuf]
      exact fileBytes_written_ne hc hr hlen hek hbad hf
    · exact absurd hst (by decide)
  | buffered _ _ => simp at hbad
  | flushed hseq hbuf hf =>
    have hek : r.rbuf.expected ≤ k.toNat := by
      rcases hbad with ⟨hst, -⟩ | ⟨-, hek⟩
      · exact absurd hst (by decide)
      · exact hek
    rw [hbuf]
    exact fileBytes_flushed_ne hc hr
      (lt_of_le_of_lt (Nat.mul_le_mul_right _ (by omega)) hk) hf

theorem receiveTurn_honest {d : List UInt8} (hc : c.Accepted) (hexit : s.exit = none)
    (hpoll : 0 < t.poll) (hrecv : t.recv = some d) (hd : Honest c file d) :
    ∃ k checksum junk, k.toNat * c.bufferSize.toNat < file.length ∧ seqOf d = k ∧
      (Chunks.chunk file c.bufferSize.toNat k.toNat).length + junk.length = c.bufferSize.toNat ∧
      (d.length < c.packetSize ↔ junk ≠ []) ∧ (receiveTurn c s t).exit = none ∧
      Handled c s.receiver
        (dataPdu k checksum (Chunks.chunk file c.bufferSize.toNat k.toNat) ++ junk)
        t.attempts s.subState (receiveTurn c s t).subState (receiveTurn c s t).receiver := by
  obtain ⟨k, checksum, hk, rfl⟩ := hd
  obtain ⟨junk, hbuffer, hlen⟩ := received_dataPdu hc file t k checksum k.toNat
  have hpos := hc.buffer_pos
  have hstep := receiveTurn_data (c := c) hexit hpoll hrecv (dataPdu_ne_nil _ _ _)
  have hh := handleDataPacket_handled c s.subState s.receiver
    (t.received c (dataPdu k checksum (Chunks.chunk file c.bufferSize.toNat k.toNat))) t.attempts
  rw [hbuffer] at hh hstep
  refine ⟨k, checksum, junk, hk, seqOf_dataPdu _ _ _, hlen, ?_, ?_, ?_⟩
  · rw [length_dataPdu, Client.packetSize, ← List.length_pos_iff]
    omega
  · rw [hstep, flagOf_dataPdu_append]
    rfl
  · rw [hstep]
    exact hh

theorem receiveTurn_writesPayloads (hc : c.Accepted) (hd : ∀ d ∈ t.recv, Honest c file d)
    (hI : s.exit = none → WritesPayloads c file s.receiver) (hgood : ¬Spoils c s t) :
    (receiveTurn c s t).exit = none → WritesPayloads c file (receiveTurn c s t).receiver := by
  intro hnone
  rcases receiveTurn_cases c s t with ⟨-, -, hexit⟩ | ⟨d, hexit, hpoll, hrecv, -, -⟩
  · exact absurd hnone hexit
  · obtain ⟨k, checksum, junk, -, hseq, hlen, hshort, -, hh⟩ :=
      receiveTurn_honest hc hexit hpoll hrecv (hd d hrecv)
    refine hh.writesPayloads hc (hI hexit) hlen ?_ ?_
    · intro hst hk
      constructor
      · by_contra hjunk
        exact hgood ⟨hexit, hpoll, d, hrecv,
          Or.inl ⟨hst, by rw [hseq, hk], Or.inl (hshort.mpr hjunk)⟩⟩
      · intro hmax
        exact hgood ⟨hexit, hpoll, d, hrecv,
          Or.inl ⟨hst, by rw [hseq, hk], Or.inr (by rw [hseq, hmax])⟩⟩
    · intro hst
      by_contra hk
      exact hgood ⟨hexit, hpoll, d, hrecv, Or.inr ⟨hst, by rw [hseq]; omega⟩⟩

theorem receiveTurn_not_intact (hc : c.Accepted) (hd : ∀ d ∈ t.recv, Honest c file d)
    (hI : s.exit = none → WritesPayloads c file s.receiver) (hbad : Spoils c s t) :
    ¬Intact c file (receiveTurn c s t) := by
  obtain ⟨hexit, hpoll, d, hrecv, hbad⟩ := hbad
  obtain ⟨k, checksum, junk, hk, hseq, hlen, hshort, hnone, hh⟩ :=
    receiveTurn_honest hc hexit hpoll hrecv (hd d hrecv)
  rw [hseq, hshort] at hbad
  intro hP
  obtain ⟨b, hb, rfl, -⟩ := hP hnone
  exact hh.not_payloads hc (hI hexit) hk hlen hbad hb

end Turns

/-- The output file is intact at every head of the loop exactly when no turn of
the run spoils it. -/
theorem file_intact_iff (c : Client) (file : List UInt8) (raw : ReceiverBuffer)
    (turns : List Turn) (hc : c.Accepted) (hd : ∀ t ∈ turns, ∀ d ∈ t.recv, Honest c file d) :
    Runs.Always (receiveTurn c) (Intact c file) (enterGetData c raw) turns ↔
    Runs.EveryStep (receiveTurn c) (fun s t => ¬Spoils c s t) (enterGetData c raw) turns := by
  refine Runs.always_iff_everyStep_of_events
    (I := fun s => s.exit = none → WritesPayloads c file s.receiver) hd ?_ ?_ ?_ ?_
  · intro _
    exact ⟨initReceiverBuffer_storedTruncated _ _ _, le_refl 0,
      show (0 : Int) < 2147483648 by decide, rfl⟩
  · intro s hI hexit
    exact ⟨_, (hI hexit).bytes, rfl, Chunks.upTo_prefix _ _ _⟩
  · intro s t hd hI hgood
    exact receiveTurn_writesPayloads hc hd hI hgood
  · intro s t hd hI hbad
    exact receiveTurn_not_intact hc hd hI (not_not.mp hbad)

/-- A client with packets of one byte and a window of two, and a turn that
receives packet `k` of the file 1, 2, 3 while every wait loop reads packet 0. -/
def shortClient : Client where
  socketNum := 3
  windowSize := 2
  bufferSize := 1

def shortTurn (k : UInt8) : Turn where
  poll := 3
  heap := fun _ => 0
  recv := some [0, 0, 0, k, 0, 0, 16, k + 1]
  attempts := fun _ => ⟨11, 3, fun _ => 0, some [0, 0, 0, 0, 0, 0, 16, 1]⟩

theorem honest_shortTurn (k : UInt8) (hk : k ∈ [0, 1, 2]) :
    ∀ d ∈ (shortTurn k).recv, Honest shortClient [1, 2, 3] d := by
  intro d hd
  obtain rfl := Option.some.inj hd
  simp only [List.mem_cons, List.not_mem_nil, or_false] at hk
  refine ⟨k.toUInt32, 0, ?_, ?_⟩ <;> rcases hk with rfl | rfl | rfl <;> decide

theorem file_intact_two :
    Runs.Always (receiveTurn shortClient) (Intact shortClient [1, 2, 3])
      (enterGetData shortClient freshBuffer) [shortTurn 0, shortTurn 2] :=
  (file_intact_iff shortClient [1, 2, 3] freshBuffer [shortTurn 0, shortTurn 2]
    ⟨by decide, by decide, by decide⟩
    (by
      intro t ht
      simp only [List.mem_cons, List.not_mem_nil, or_false] at ht
      rcases ht with rfl | rfl
      · exact honest_shortTurn 0 (by decide)
      · exact honest_shortTurn 2 (by decide))).mpr (by decide)

/-- Packet 1 opens a gap, packet 2 is buffered while the wait loop reads packet 0,
and the flush for packet 1 expects packet 1 next with packet 0 never written. -/
theorem file_lost_after_gap :
    ¬Runs.Always (receiveTurn shortClient) (Intact shortClient [1, 2, 3])
      (enterGetData shortClient freshBuffer) [shortTurn 1, shortTurn 2, shortTurn 1] := by
  intro h
  obtain ⟨b, hb, rfl, -⟩ := h.last (by decide)
  revert hb
  decide

end Rcopy
