import Rcopy.SendFile

/-!
# The checksum of a data PDU

`calculateDataPacketChecksum` makes its copy of the PDU even by the parity of the
whole length and clears the last byte of the copy by the parity of the payload.
For an odd payload that byte is the last one of the payload, and for an even
payload the byte of padding stays as `malloc` returned it.
-/

namespace Rcopy

open Bytes OnesComplement

/-- The memory under the blocks of one packet: the chunk, the PDU, what lies behind
the PDU, the copy for the checksum. -/
structure DataMemory where
  chunk : ℕ → UInt8
  pdu : ℕ → UInt8
  beyond : ℕ → UInt8
  cksum : ℕ → UInt8

def DataMemory.filled (b : UInt8) : DataMemory := ⟨fun _ => b, fun _ => b, fun _ => b, fun _ => b⟩

section DataPdu

variable (dataSequenceNumber : UInt32) (file : List UInt8) (bufferSize : UInt16)

def unsealedData (m : DataMemory) : List UInt8 :=
  makeDataPacketBeforeChecksum dataSequenceNumber
    (getDataChunk file bufferSize.toNat m.chunk).data bufferSize.toUInt8 m.pdu

def dataChecksum (m : DataMemory) : UInt16 :=
  calculateDataPacketChecksum (unsealedData dataSequenceNumber file bufferSize m) m.beyond
    (getDataChunk file bufferSize.toNat m.chunk).bytesRead m.cksum

def sealedData (m : DataMemory) : List UInt8 :=
  makeDataPacketAfterChecksum (unsealedData dataSequenceNumber file bufferSize m)
    (dataChecksum dataSequenceNumber file bufferSize m)

end DataPdu

/-- `in_cksum` over the first `n` bytes, followed by a zero byte when `n` is odd, is 0. -/
def Verifies (pdu : List UInt8) (n : ℕ) : Prop :=
  inCksum (pdu.take n ++ List.replicate (n % 2) 0) (n + n % 2) = 0

/-- The PDU of the chunk verifies and its checksum is that of the PDU alone, whatever
the memory around it holds. -/
structure Sealed (dataSequenceNumber : UInt32) (chunk : List UInt8) (bufferSize : UInt16) :
    Prop where
  verifies : ∀ m, Verifies (sealedData dataSequenceNumber chunk bufferSize m) (chunk.length + 7)
  independent : ∀ m m', dataChecksum dataSequenceNumber chunk bufferSize m =
    dataChecksum dataSequenceNumber chunk bufferSize m'

theorem verifies_iff {pdu : List UInt8} {n : ℕ} (hn : n ≤ pdu.length) (hsize : n ≤ 65534) :
    Verifies pdu n ↔ 0 < wordSum (pdu.take n) ∧ wordSum (pdu.take n) % 65535 = 0 := by
  have hlen : (pdu.take n ++ List.replicate (n % 2) 0).length = n + n % 2 := by
    rw [List.length_append, List.length_take, List.length_replicate]
    omega
  have hle := wordSum_le (pdu.take n)
  rw [List.length_take] at hle
  have hpad : wordSum ((pdu.take n ++ List.replicate (n % 2) 0).take (n + n % 2)) =
      wordSum (pdu.take n) := by
    rw [List.take_of_length_le hlen.le, wordSum_append_zeros]
  rw [Verifies, inCksum_eq_zero_iff (by rw [hpad]; omega), hpad]

theorem storeChecksum_dataPdu (seq : UInt32) (c : UInt16) (payload rest : List UInt8) :
    storeChecksum (dataPdu seq 0 payload ++ rest) c = dataPdu seq c payload ++ rest := by
  simp only [storeChecksum, dataPdu, List.append_assoc (_ ++ _)]
  exact memcpy_middle _ _ _ _ (length_store32 _) (by simp)

theorem wordSum_dataPdu (seq : UInt32) (c : UInt16) (payload : List UInt8) :
    wordSum (dataPdu seq c payload) = wordSum (dataPdu seq 0 payload) + c.toNat := by
  have hunsealed : Unsealed (dataPdu seq 0 payload) (7 + payload.length) :=
    ⟨length_dataPdu _ _ _, store32 (htonl seq), [16] ++ payload, length_store32 _, by
      simp [dataPdu, show store16 0 = [0, 0] from rfl]⟩
  have hstore := storeChecksum_dataPdu seq c payload []
  rw [List.append_nil, List.append_nil] at hstore
  rw [← hstore, wordSum_storeChecksum hunsealed]

section Chunk

variable (seq : UInt32) {chunk : List UInt8} {bufferSize : UInt16} (m : DataMemory)

theorem unsealedData_eq (hn : chunk.length ≤ bufferSize.toNat) (hsize : bufferSize.toNat ≤ 255) :
    ∃ junk, unsealedData seq chunk bufferSize m = dataPdu seq 0 chunk ++ junk := by
  have hbyte : bufferSize.toUInt8.toNat = bufferSize.toNat := by
    simp
    omega
  have hdata : (getDataChunk chunk bufferSize.toNat m.chunk).data =
      chunk ++ (uninit m.chunk bufferSize.toNat).drop chunk.length := by
    simp only [getDataChunk, List.take_of_length_le hn, memcpy_zero]
  have hlen : (chunk ++ (uninit m.chunk bufferSize.toNat).drop chunk.length).length =
      bufferSize.toNat := by
    rw [List.length_append, List.length_drop, length_uninit]
    omega
  refine ⟨(uninit m.chunk bufferSize.toNat).drop chunk.length, ?_⟩
  rw [unsealedData, hdata, makeDataPacketBeforeChecksum_eq _ _ _ (by omega), hbyte,
    List.take_of_length_le hlen.le]
  simp [dataPdu, show store16 0 = [0, 0] from rfl]

/-- The copy that is summed: the PDU without its last byte, or with a byte of the heap. -/
theorem dataChecksum_eq (hn : chunk.length ≤ bufferSize.toNat) (hsize : bufferSize.toNat ≤ 255) :
    dataChecksum seq chunk bufferSize m =
      if chunk.length % 2 = 1 then
        inCksum ((dataPdu seq 0 chunk).set (chunk.length + 6) 0) (chunk.length + 7)
      else inCksum (dataPdu seq 0 chunk ++ [m.cksum (chunk.length + 7)]) (chunk.length + 8) := by
  obtain ⟨junk, hpdu⟩ := unsealedData_eq seq m hn hsize
  have hread : (getDataChunk chunk bufferSize.toNat m.chunk).bytesRead = chunk.length := by
    simp only [getDataChunk, List.take_of_length_le hn]
  have hlen : (dataPdu seq 0 chunk).length = chunk.length + 7 := by
    rw [length_dataPdu, Nat.add_comm]
  have hcopy : readBytes (dataPdu seq 0 chunk ++ junk) m.beyond (chunk.length + 7) =
      dataPdu seq 0 chunk := by
    rw [readBytes, List.append_assoc, List.take_left' hlen]
  rw [dataChecksum, hpdu, hread, calculateDataPacketChecksum, hcopy]
  rcases Nat.mod_two_eq_zero_or_one chunk.length with heven | hodd
  · have hpad : (uninit m.cksum (chunk.length + 7 + 1)).drop (chunk.length + 7) =
        [m.cksum (chunk.length + 7)] := by
      rw [uninit, List.range_succ, List.map_append, List.drop_left' (by simp)]
      rfl
    simp only [if_pos (show (chunk.length + 7) % 2 ≠ 0 by omega),
      if_neg (show ¬chunk.length % 2 ≠ 0 by omega), if_neg (show ¬chunk.length % 2 = 1 by omega),
      memcpy_zero, hlen, hpad]
  · have hnone : (uninit m.cksum (chunk.length + 7)).drop (chunk.length + 7) = [] :=
      List.drop_eq_nil_of_le (by simp)
    simp only [if_neg (show ¬(chunk.length + 7) % 2 ≠ 0 by omega),
      if_pos (show chunk.length % 2 ≠ 0 by omega), if_pos hodd, memcpy_zero, hlen, hnone,
      List.append_nil]
    rfl

theorem verifies_sealedData (hn : chunk.length ≤ bufferSize.toNat)
    (hsize : bufferSize.toNat ≤ 255) :
    Verifies (sealedData seq chunk bufferSize m) (chunk.length + 7) ↔
      0 < wordSum (dataPdu seq 0 chunk) + (dataChecksum seq chunk bufferSize m).toNat ∧
      (wordSum (dataPdu seq 0 chunk) + (dataChecksum seq chunk bufferSize m).toNat) % 65535 =
        0 := by
  obtain ⟨junk, hpdu⟩ := unsealedData_eq seq m hn hsize
  have hsealed : sealedData seq chunk bufferSize m =
      dataPdu seq (dataChecksum seq chunk bufferSize m) chunk ++ junk := by
    rw [sealedData, makeDataPacketAfterChecksum, hpdu, storeChecksum_dataPdu]
  have hlen : (dataPdu seq (dataChecksum seq chunk bufferSize m) chunk).length =
      chunk.length + 7 := by
    rw [length_dataPdu, Nat.add_comm]
  have hle : chunk.length + 7 ≤ (sealedData seq chunk bufferSize m).length := by
    rw [hsealed, List.length_append, hlen]
    omega
  rw [verifies_iff hle (by omega), hsealed, List.take_left' hlen, wordSum_dataPdu]

theorem wordSum_dataPdu_le (hn : chunk.length ≤ 255) (c : UInt16) :
    wordSum (dataPdu seq c chunk) ≤ 65535 * 131 := by
  have hle := wordSum_le (dataPdu seq c chunk)
  rw [length_dataPdu] at hle
  omega

theorem dataChecksum_even (hn : chunk.length ≤ bufferSize.toNat) (hsize : bufferSize.toNat ≤ 255)
    (heven : chunk.length % 2 = 0) :
    (wordSum (dataPdu seq 0 chunk) + 256 * (m.cksum (chunk.length + 7)).toNat +
      (dataChecksum seq chunk bufferSize m).toNat) % 65535 = 0 := by
  have hlen : (dataPdu seq 0 chunk ++ [m.cksum (chunk.length + 7)]).length = chunk.length + 8 := by
    simp
    omega
  have hle := wordSum_dataPdu_le seq (hn.trans hsize) 0
  have hbyte := (m.cksum (chunk.length + 7)).toNat_lt
  have hweight : weight (dataPdu seq 0 chunk).length = 256 := by
    rw [length_dataPdu, weight, if_neg (by omega)]
  have hsum := wordSum_concat (dataPdu seq 0 chunk) (m.cksum (chunk.length + 7))
  rw [hweight] at hsum
  have hzero := (wordSum_add_inCksum (dataPdu seq 0 chunk ++ [m.cksum (chunk.length + 7)])
    (chunk.length + 8) (by
      rw [List.take_of_length_le hlen.le]
      omega)).2
  rw [List.take_of_length_le hlen.le, hsum] at hzero
  rw [dataChecksum_eq seq m hn hsize, if_neg (by omega)]
  exact hzero

theorem dataChecksum_odd (hn : chunk.length ≤ bufferSize.toNat) (hsize : bufferSize.toNat ≤ 255)
    (hodd : chunk.length % 2 = 1) {last : UInt8} (hlast : chunk.getLast? = some last) :
    ∃ S, wordSum (dataPdu seq 0 chunk) = S + 256 * last.toNat ∧
      0 < S + (dataChecksum seq chunk bufferSize m).toNat ∧
      (S + (dataChecksum seq chunk bufferSize m).toNat) % 65535 = 0 := by
  have hlen : (dataPdu seq 0 chunk).length = chunk.length + 7 := by
    rw [length_dataPdu, Nat.add_comm]
  have hle := wordSum_dataPdu_le seq (hn.trans hsize) 0
  have hset := wordSum_set (a := dataPdu seq 0 chunk) (i := chunk.length + 6) (by omega) 0
  have hpos : 0 < chunk.length := by omega
  have hheader : (store32 (htonl seq) ++ store16 0 ++ [16]).length = 7 := by simp
  have hget? : (dataPdu seq 0 chunk)[chunk.length + 6]? = some last := by
    rw [dataPdu, List.getElem?_append_right (by omega), hheader,
      show chunk.length + 6 - 7 = chunk.length - 1 by omega, ← List.getLast?_eq_getElem?, hlast]
  have hget : (dataPdu seq 0 chunk)[chunk.length + 6] = last :=
    (List.getElem?_eq_some_iff.mp hget?).2
  rw [hget, weight, if_neg (by omega), UInt8.toNat_zero, Nat.mul_zero, Nat.add_zero] at hset
  refine ⟨wordSum ((dataPdu seq 0 chunk).set (chunk.length + 6) 0), hset.symm, ?_⟩
  have hcut : ((dataPdu seq 0 chunk).set (chunk.length + 6) 0).take (chunk.length + 7) =
      (dataPdu seq 0 chunk).set (chunk.length + 6) 0 :=
    List.take_of_length_le (by rw [List.length_set, hlen])
  have hzero := wordSum_add_inCksum ((dataPdu seq 0 chunk).set (chunk.length + 6) 0)
    (chunk.length + 7) (by
      rw [hcut]
      omega)
  rw [hcut] at hzero
  rw [dataChecksum_eq seq m hn hsize, if_pos hodd]
  exact hzero

/-- The PDU of a chunk is sealed exactly when the chunk is of odd length and ends in a
zero byte. -/
theorem sealed_iff (seq : UInt32) (chunk : List UInt8) (bufferSize : UInt16)
    (h₁ : 1 ≤ chunk.length) (h₂ : chunk.length ≤ bufferSize.toNat)
    (h₃ : bufferSize.toNat ≤ 255) :
    Sealed seq chunk bufferSize ↔ chunk.length % 2 = 1 ∧ chunk.getLast? = some 0 := by
  have hne : chunk ≠ [] := by
    rintro rfl
    simp at h₁
  have hlast := List.getLast?_eq_some_getLast hne
  constructor
  · intro h
    have hodd : chunk.length % 2 = 1 := by
      by_contra heven
      have hheaps := h.independent (.filled 0) (.filled 1)
      have hzero := dataChecksum_even seq (.filled 0) h₂ h₃ (by omega)
      have hone := dataChecksum_even seq (.filled 1) h₂ h₃ (by omega)
      rw [hheaps] at hzero
      dsimp only [DataMemory.filled] at hzero hone
      rw [UInt8.toNat_zero] at hzero
      rw [UInt8.toNat_one] at hone
      omega
    refine ⟨hodd, ?_⟩
    obtain ⟨S, hsum, -, hzero⟩ := dataChecksum_odd seq (.filled 0) h₂ h₃ hodd hlast
    have hverifies := ((verifies_sealedData seq _ h₂ h₃).mp (h.verifies (.filled 0))).2
    have hbyte := (chunk.getLast hne).toNat_lt
    rw [hsum] at hverifies
    rw [hlast]
    congr 1
    apply UInt8.toNat_inj.mp
    rw [UInt8.toNat_zero]
    omega
  · rintro ⟨hodd, hend⟩
    constructor
    · intro m
      obtain ⟨S, hsum, hpos, hzero⟩ := dataChecksum_odd seq m h₂ h₃ hodd hend
      rw [UInt8.toNat_zero, Nat.mul_zero, Nat.add_zero] at hsum
      rw [verifies_sealedData seq m h₂ h₃, hsum]
      exact ⟨hpos, hzero⟩
    · intro m m'
      rw [dataChecksum_eq seq m h₂ h₃, dataChecksum_eq seq m' h₂ h₃, if_pos hodd, if_pos hodd]

end Chunk

theorem sealed_zero :
    Sealed 0 [0] 1 ↔ [(0 : UInt8)].length % 2 = 1 ∧ [(0 : UInt8)].getLast? = some 0 :=
  sealed_iff 0 [0] 1 (by decide) (by decide) (by decide)

/-- The checksum of the payload `A` is that of a payload of one zero byte. -/
theorem sealed_odd_lost :
    ¬ ∀ (seq : UInt32) (chunk : List UInt8) (bufferSize : UInt16), 1 ≤ chunk.length →
      chunk.length ≤ bufferSize.toNat → bufferSize.toNat ≤ 255 → Sealed seq chunk bufferSize := by
  intro h
  have hverifies := (h 0 [65] 1 (by decide) (by decide) (by decide)).verifies (.filled 0)
  revert hverifies
  unfold Verifies
  decide

end Rcopy
