import Rcopy.GapRecovery

/-!
# How much the receiver writes

`writePayloadToFile` writes `buffer_size` bytes for a packet of any length, and a
flush writes nothing or an undetermined amount. So whatever arrives, the output
file is undetermined or a number of whole buffers.
-/

namespace Rcopy

open Bytes

/-- The bytes written so far are undetermined or `n` buffers for an `n` that `P` allows. -/
structure WholeBuffers (c : Client) (P : ℕ → Prop) (r : Receiver) : Prop where
  stored : StoredTruncated r.rbuf.buffer
  bytes : ∀ b, fileBytes r.file = some b → ∃ n, P n ∧ b.length = n * c.bufferSize.toNat

section Writes

variable {c : Client} {P Q : ℕ → Prop} {r r' : Receiver} {buffer : List UInt8}
  {attempts : ℕ → Attempt} {st st' : ReceiveState}

theorem WholeBuffers.mono (h : WholeBuffers c P r) (hPQ : ∀ n, P n → Q n) : WholeBuffers c Q r := by
  constructor
  · exact h.stored
  · intro b hb
    obtain ⟨n, hn, hlen⟩ := h.bytes b hb
    exact ⟨n, hPQ n hn, hlen⟩

theorem WholeBuffers.keep (h : WholeBuffers c P r) (hstored : StoredTruncated r'.rbuf.buffer)
    (hfile : r'.file = r.file) : WholeBuffers c P r' := by
  constructor
  · exact hstored
  · rw [hfile]
    exact h.bytes

theorem fileBytes_append_eq_some {ws vs : List FWrite} {b : List UInt8}
    (h : fileBytes (ws ++ vs) = some b) :
    ∃ b₁ b₂, fileBytes ws = some b₁ ∧ fileBytes vs = some b₂ ∧ b = b₁ ++ b₂ := by
  rw [fileBytes_append] at h
  obtain ⟨b₁, hb₁, h⟩ := Option.bind_eq_some_iff.mp h
  obtain ⟨b₂, hb₂, rfl⟩ := Option.map_eq_some_iff.mp h
  exact ⟨b₁, b₂, hb₁, hb₂, rfl⟩

theorem length_fileBytes_writePayloadToFile {b : List UInt8}
    (h : fileBytes (writePayloadToFile c buffer) = some b) : b.length = c.bufferSize.toNat := by
  by_cases hpos : c.bufferSize ≤ 0
  · rw [writePayloadToFile, if_pos hpos] at h
    obtain rfl := Option.some.inj h
    rw [List.length_nil]
    omega
  · rw [writePayloadToFile, if_neg hpos] at h
    simp only [fileBytes, FWrite.bytes, Option.map_some] at h
    split_ifs at h with hroom
    · obtain rfl := Option.some.inj h
      rw [List.append_nil, List.length_take]
      omega
    · cases h

theorem WholeBuffers.write (h : WholeBuffers c P r) (hstored : StoredTruncated r'.rbuf.buffer)
    (hfile : r'.file = r.file ++ writePayloadToFile c buffer) :
    WholeBuffers c (fun n => ∃ m, P m ∧ n = m + 1) r' := by
  constructor
  · exact hstored
  · intro b hb
    rw [hfile] at hb
    obtain ⟨b₁, b₂, hb₁, hb₂, rfl⟩ := fileBytes_append_eq_some hb
    obtain ⟨n, hn, hlen⟩ := h.bytes b₁ hb₁
    have hwritten := length_fileBytes_writePayloadToFile hb₂
    refine ⟨n + 1, ⟨n, hn, rfl⟩, ?_⟩
    rw [List.length_append, hlen, hwritten, Nat.succ_mul]

theorem WholeBuffers.flush (h : WholeBuffers c P r) (hrbuf : r'.rbuf = (flushBuffer r.rbuf).rbuf)
    (hfile : r'.file = r.file ++ (flushBuffer r.rbuf).writes) : WholeBuffers c P r' := by
  constructor
  · rw [hrbuf]
    exact flushBuffer_keeps_storedTruncated h.stored
  · intro b hb
    rw [hfile] at hb
    obtain ⟨b₁, b₂, hb₁, hb₂, rfl⟩ := fileBytes_append_eq_some hb
    rcases flushBuffer_storedTruncated h.stored with ⟨hnil, -⟩ | hnone
    · rw [hnil] at hb₂
      obtain rfl := Option.some.inj hb₂
      rw [List.append_nil]
      exact h.bytes b₁ hb₁
    · rw [hnone] at hb₂
      cases hb₂

/-- A call of a handler writes one buffer in order or none. -/
theorem Handled.wholeBuffers (h : Handled c r buffer attempts st st' r')
    (hr : WholeBuffers c P r) :
    WholeBuffers c P r' ∨
      (st = .inOrder ∧ (st' = .done ∨ st' = .inOrder) ∧
        r'.rbuf.expected = i32 (r.rbuf.expected + 1) ∧
        WholeBuffers c (fun n => ∃ m, P m ∧ n = m + 1) r') := by
  cases h with
  | kept _ hbuf hf =>
    left
    apply hr.keep _ hf
    rw [hbuf]
    exact hr.stored
  | written _ hbuf hf hst =>
    obtain ⟨packet, size, has, hbuf⟩ := hbuf
    right
    refine ⟨rfl, hst, by rw [hbuf], hr.write ?_ hf⟩
    rw [hbuf]
    exact hr.stored
  | buffered hbuf hf =>
    left
    apply hr.keep _ hf
    rw [hbuf]
    exact insertReceiverPacket_storedTruncated hr.stored buffer
  | flushed _ hbuf hf =>
    left
    exact hr.flush hbuf hf

end Writes

section Turns

variable {c : Client} {s : GetData} {t : Turn}

theorem enterGetData_wholeBuffers (c : Client) (raw : ReceiverBuffer) {P : ℕ → Prop} (h : P 0) :
    WholeBuffers c P (enterGetData c raw).receiver := by
  constructor
  · exact initReceiverBuffer_storedTruncated raw c.bufferSize c.windowSize
  · intro b hb
    obtain rfl := Option.some.inj hb
    exact ⟨0, h, by simp⟩

theorem WholeBuffers.turn (h : WholeBuffers c (fun _ => True) s.receiver) :
    WholeBuffers c (fun _ => True) (receiveTurn c s t).receiver := by
  rcases receiveTurn_cases c s t with ⟨hsame, -, -⟩ | ⟨d, -, -, -, -, hturn⟩
  · rw [hsame]
    exact h
  · have hhandled := handleDataPacket_handled c s.subState s.receiver (t.received c d) t.attempts
    rw [hturn]
    rcases hhandled.wholeBuffers h with hkeep | ⟨-, -, -, hwrite⟩
    · exact hkeep
    · exact hwrite.mono fun _ _ => trivial

/-- Nothing is written before the sub-state `done`, and one buffer at most by then. -/
structure OneBuffer (c : Client) (s : GetData) : Prop where
  before : s.subState ≠ .done → WholeBuffers c (fun n => n = 0) s.receiver
  after : WholeBuffers c (fun n => n ≤ 1) s.receiver

theorem resendRR_done (pdu : List UInt8) {attempts : ℕ → Attempt} (n i : ℕ) (r : Receiver)
    (h : ∀ i, 0 ≤ (attempts i).sent) : (resendRR c pdu attempts n i r).1 = .done := by
  cases n with
  | zero => rfl
  | succ n => simp only [resendRR, if_pos (h i)]

/-- A write in order whose RR is sent at the first attempt leads to the sub-state `done`. -/
theorem handleDataPacket_done {r : Receiver} {buffer : List UInt8} {attempts : ℕ → Attempt}
    (h : ∀ i, 0 ≤ (attempts i).sent)
    (hkeep : (handleDataPacket c .inOrder r buffer attempts).2.rbuf.expected ≠ r.rbuf.expected) :
    (handleDataPacket c .inOrder r buffer attempts).1 = .done := by
  unfold handleDataPacket at hkeep ⊢
  split_ifs at hkeep ⊢ with hold
  · rw [(resendLastControl_frame r (attempts 0).sent).1] at hkeep
    exact absurd rfl hkeep
  · simp only [doInOrderState] at hkeep ⊢
    split_ifs at hkeep ⊢ with heq hgt
    · exact resendRR_done _ 9 0 _ h
    · exact absurd rfl hkeep
    · exact absurd rfl hkeep

theorem OneBuffer.turn (h : OneBuffer c s) (hsent : ∀ i, 0 ≤ (t.attempts i).sent) :
    OneBuffer c (receiveTurn c s t) := by
  rcases receiveTurn_cases c s t with ⟨hsame, hsub, -⟩ | ⟨d, -, -, -, -, hturn⟩
  · constructor
    · rw [hsame, hsub]
      exact h.before
    · rw [hsame]
      exact h.after
  · have hhandled := handleDataPacket_handled c s.subState s.receiver (t.received c d) t.attempts
    rw [hturn]
    by_cases hdone : s.subState = .done
    · -- in this sub-state only the last control PDU is sent again
      rw [hdone] at hhandled ⊢
      cases hhandled with
      | kept _ hbuf hf hst =>
        have hafter : WholeBuffers c (fun n => n ≤ 1)
            (handleDataPacket c .done s.receiver (t.received c d) t.attempts).2 := by
          apply h.after.keep _ hf
          rw [hbuf]
          exact h.after.stored
        have hsame : (handleDataPacket c .done s.receiver (t.received c d) t.attempts).1 = .done := by
          simp only [handleDataPacket]
          split_ifs <;> rfl
        constructor
        · intro hne
          exact absurd hsame hne
        · exact hafter
    · rcases hhandled.wholeBuffers (h.before hdone) with hkeep | ⟨hin, -, hnext, hwrite⟩
      · constructor
        · intro _
          exact hkeep
        · exact hkeep.mono fun n hn => by omega
      · rw [hin] at hnext ⊢
        have hto : (handleDataPacket c .inOrder s.receiver (t.received c d) t.attempts).1 = .done := by
          apply handleDataPacket_done hsent
          rw [hnext]
          exact i32_succ_ne _
        constructor
        · intro hne
          exact absurd hto hne
        · rw [hin] at hwrite
          apply hwrite.mono
          intro n hn
          obtain ⟨m, hm, rfl⟩ := hn
          omega

theorem enterGetData_oneBuffer (c : Client) (raw : ReceiverBuffer) :
    OneBuffer c (enterGetData c raw) := by
  constructor
  · intro _
    exact enterGetData_wholeBuffers c raw rfl
  · exact enterGetData_wholeBuffers c raw (Nat.zero_le 1)

end Turns

theorem exec_oneBuffer (c : Client) (raw : ReceiverBuffer) {turns : List Turn}
    (hsent : ∀ t ∈ turns, ∀ i, 0 ≤ (t.attempts i).sent) :
    OneBuffer c (Runs.exec (receiveTurn c) (enterGetData c raw) turns) :=
  (Runs.always_of_keep (I := OneBuffer c)
    (C := fun _ (t : Turn) => ∀ i, 0 ≤ (t.attempts i).sent) (fun _ _ h ht => h.turn ht)
    (enterGetData_oneBuffer c raw) (Runs.everyStep_of_forall hsent fun _ _ h => h)).last

theorem OneBuffer.output {c : Client} {s : GetData} (h : OneBuffer c s) {b : List UInt8}
    (hb : fileBytes s.receiver.file = some b) : b = [] ∨ b.length = c.bufferSize.toNat := by
  obtain ⟨n, hn, hlen⟩ := h.after.bytes b hb
  rcases Nat.le_one_iff_eq_zero_or_eq_one.mp hn with rfl | rfl
  · left
    rw [Nat.zero_mul] at hlen
    exact List.length_eq_zero_iff.mp hlen
  · right
    rw [hlen, Nat.one_mul]

end Rcopy
