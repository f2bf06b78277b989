import Rcopy.Lib.OnesComplement
import Rcopy.Machine

/-!
# The Internet checksum

`inCksum` is `in_cksum` of checksum.c. The `calculate*Checksum` functions of both
programs copy a PDU into a larger zeroed static array of `uint16_t` and sum the
whole array. The zero byte they append is stored at a word offset, so it lands in
the part that is zero anyway. Their common body is `staticCksum`.
-/

namespace Rcopy

open Bytes OnesComplement

/-- The loop of `in_cksum`: the words of `w` are added to `sum`, then an odd last byte. -/
def cksumSum (sum : Int) : List UInt8 → Int
  | lo :: hi :: w => cksumSum (i32 (sum + (load16 [lo, hi]).toNat)) w
  | [b] => i32 (sum + b.toNat)
  | [] => sum

/-- `sum >> 16` is an arithmetic shift and `answer = ~sum` keeps the low 16 bits. -/
def inCksum (addr : List UInt8) (len : ℕ) : UInt16 :=
  let sum := cksumSum 0 (addr.take len)
  let sum := i32 (sum / 65536 + sum % 65536)
  let sum := i32 (sum + sum / 65536)
  UInt16.ofNat ((-sum - 1) % 65536).toNat

theorem load16_pair (lo hi : UInt8) : (load16 [lo, hi]).toNat = leNat [lo, hi] := by
  have h := leNat_lt [lo, hi]
  rw [load16, List.take_of_length_le (by simp), UInt16.toNat_ofNat']
  simp only [List.length_cons, List.length_nil] at h
  omega

theorem cksumSum_eq {sum : Int} {w : List UInt8} (h₀ : 0 ≤ sum)
    (h : sum + wordSum w < 2147483648) : cksumSum sum w = sum + wordSum w := by
  induction w using wordSum.induct generalizing sum with
  | case1 lo hi w ih =>
    simp only [wordSum] at h ⊢
    rw [cksumSum, load16_pair, i32_of_range (by omega) (by omega), ih (by omega) (by omega)]
    omega
  | case2 b =>
    simp only [wordSum] at h ⊢
    rw [cksumSum, i32_of_range (by omega) (by omega)]
  | case3 => simp [cksumSum, wordSum]

theorem inCksum_toNat {addr : List UInt8} {len : ℕ}
    (h : wordSum (addr.take len) < 2147483648) :
    (inCksum addr len).toNat =
      65535 - fold 65536 (fold 65536 (wordSum (addr.take len))) := by
  set s := wordSum (addr.take len) with hs
  have hsum : cksumSum 0 (addr.take len) = s := by
    rw [cksumSum_eq le_rfl (by omega)]
    omega
  have hfold : i32 ((s : Int) / 65536 + s % 65536) = fold 65536 s := by
    rw [i32_of_range (by omega) (by omega)]
    simp [fold]
  have hlt : fold 65536 s ≤ 131070 := by
    simp only [fold]
    omega
  simp only [inCksum, hsum, hfold]
  generalize fold 65536 s = f at hlt ⊢
  rw [i32_of_range (by omega) (by omega), UInt16.toNat_ofNat', fold]
  omega

theorem inCksum_eq_zero_iff {addr : List UInt8} {len : ℕ}
    (h : wordSum (addr.take len) < 2147483648) :
    inCksum addr len = 0 ↔
      0 < wordSum (addr.take len) ∧ wordSum (addr.take len) % 65535 = 0 := by
  have hle : fold 65536 (fold 65536 (wordSum (addr.take len))) ≤ 65535 :=
    fold_fold_le (by omega) (by omega)
  have hiff := fold_fold_eq_iff (B := 65536) (s := wordSum (addr.take len)) (by omega) (by omega)
  rw [← hiff, ← UInt16.toNat_inj, inCksum_toNat h]
  simp only [UInt16.toNat_zero]
  omega

/-- A sum together with its checksum is zero, in the representation of all ones. -/
theorem wordSum_add_inCksum (addr : List UInt8) (len : ℕ)
    (h : wordSum (addr.take len) < 2147483648) :
    0 < wordSum (addr.take len) + (inCksum addr len).toNat ∧
      (wordSum (addr.take len) + (inCksum addr len).toNat) % 65535 = 0 := by
  have hadd := fold_fold_add_complement (B := 65536) (s := wordSum (addr.take len)) (by omega)
    (by omega)
  have hfold := fold_fold_le (B := 65536) (s := wordSum (addr.take len)) (by omega) (by omega)
  rw [fold_fold_eq_iff (by omega) (by omega)] at hadd
  rw [inCksum_toNat h]
  exact hadd

/-- The body shared by the `calculate*Checksum` functions that use a static array
of `words` words for a PDU of `len` bytes. -/
def staticCksum (words len : ℕ) (buffer : List UInt8) : UInt16 :=
  let temp_buff := memcpy (List.replicate (2 * words) 0) 0 (buffer.take len)
  let temp_buff := memcpy temp_buff (2 * len) [0]
  inCksum temp_buff (2 * words)

theorem temp_buff_eq {words len : ℕ} (hw : len < words) {buffer : List UInt8}
    (hb : len ≤ buffer.length) :
    memcpy (memcpy (List.replicate (2 * words) 0) 0 (buffer.take len)) (2 * len) [0] =
      buffer.take len ++ List.replicate (2 * words - len) 0 := by
  have hlen : (buffer.take len).length = len := by simp [hb]
  have hzero : List.replicate (2 * words - len) (0 : UInt8) =
      List.replicate len 0 ++ [0] ++ List.replicate (2 * words - 2 * len - 1) 0 := by
    rw [← List.replicate_one, List.replicate_append_replicate, List.replicate_append_replicate]
    congr 1
    omega
  rw [memcpy_zero, hlen, List.drop_replicate, hzero]
  simp only [← List.append_assoc]
  exact memcpy_middle _ _ _ _ (by simp [hlen]; omega) rfl

theorem wordSum_temp_buff {words len : ℕ} (hw : len < words) {buffer : List UInt8}
    (hb : len ≤ buffer.length) :
    wordSum ((memcpy (memcpy (List.replicate (2 * words) 0) 0 (buffer.take len)) (2 * len)
      [0]).take (2 * words)) = wordSum (buffer.take len) := by
  have hlen : (buffer.take len ++ List.replicate (2 * words - len) 0).length ≤ 2 * words := by
    rw [List.length_append, List.length_take, List.length_replicate]
    omega
  rw [temp_buff_eq hw hb, List.take_of_length_le hlen, wordSum_append_zeros]

theorem staticCksum_eq_zero_iff {words len : ℕ} (hw : len < words) (hlen : len ≤ 65534)
    {buffer : List UInt8} (hb : len ≤ buffer.length) :
    staticCksum words len buffer = 0 ↔
      0 < wordSum (buffer.take len) ∧ wordSum (buffer.take len) % 65535 = 0 := by
  have hle := wordSum_le (buffer.take len)
  have hl : (buffer.take len).length = len := by simp [hb]
  have hsum := wordSum_temp_buff hw hb
  rw [staticCksum, inCksum_eq_zero_iff (by rw [hsum]; omega), hsum]

theorem wordSum_add_staticCksum {words len : ℕ} (hw : len < words) (hlen : len ≤ 65534)
    {buffer : List UInt8} (hb : len ≤ buffer.length) :
    0 < wordSum (buffer.take len) + (staticCksum words len buffer).toNat ∧
      (wordSum (buffer.take len) + (staticCksum words len buffer).toNat) % 65535 = 0 := by
  have hle := wordSum_le (buffer.take len)
  have hl : (buffer.take len).length = len := by simp [hb]
  have hsum := wordSum_temp_buff hw hb
  have hadd := wordSum_add_inCksum
    (memcpy (memcpy (List.replicate (2 * words) 0) 0 (buffer.take len)) (2 * len) [0]) (2 * words)
    (by rw [hsum]; omega)
  rw [hsum] at hadd
  exact hadd

/-- `memcpy(buffer + 4, &calculated, 2)`, the body of every `*AfterChecksum` function. -/
def storeChecksum (buffer : List UInt8) (calculated : UInt16) : List UInt8 :=
  memcpy buffer 4 (store16 calculated)

structure Unsealed (buffer : List UInt8) (len : ℕ) : Prop where
  length : buffer.length = len
  zero : ∃ pre post, pre.length = 4 ∧ buffer = pre ++ [0, 0] ++ post

theorem wordSum_storeChecksum {buffer : List UInt8} {len : ℕ} (h : Unsealed buffer len)
    (c : UInt16) : wordSum (storeChecksum buffer c) = wordSum buffer + c.toNat := by
  obtain ⟨pre, post, hpre, rfl⟩ := h.zero
  have hc : leNat (store16 c) = c.toNat := by
    have := c.toNat_lt
    rw [store16, leNat_leBytes]
    omega
  rw [storeChecksum, memcpy_middle _ _ _ post hpre (by simp), wordSum_append _ (by simp [hpre]),
    wordSum_append _ (by simp [hpre]), wordSum_append _ (by simp [hpre]),
    wordSum_append _ (by simp [hpre]), wordSum_of_length_two (length_store16 c), hc,
    wordSum_of_length_two (w := [0, 0]) rfl]
  simp only [leNat, UInt8.toNat_zero]
  omega

theorem length_storeChecksum {buffer : List UInt8} {len : ℕ} (h : Unsealed buffer len)
    (c : UInt16) : (storeChecksum buffer c).length = len := by
  obtain ⟨pre, post, hpre, rfl⟩ := h.zero
  rw [storeChecksum, length_memcpy (by simp [hpre]; omega), h.length]

theorem staticCksum_sealed {words len : ℕ} (hw : len < words) (hlen : len ≤ 65000)
    {buffer : List UInt8} (h : Unsealed buffer len) :
    staticCksum words len (storeChecksum buffer (staticCksum words len buffer)) = 0 := by
  have hl := length_storeChecksum h (staticCksum words len buffer)
  have hadd := wordSum_add_staticCksum hw (by omega) h.length.ge
  rw [List.take_of_length_le h.length.le] at hadd
  rw [staticCksum_eq_zero_iff hw (by omega) hl.ge, List.take_of_length_le hl.le,
    wordSum_storeChecksum h]
  exact hadd

theorem staticCksum_set_ne_zero {words len : ℕ} (hw : len < words) (hlen : len ≤ 65534)
    {buffer : List UInt8} (hb : buffer.length = len) (hz : staticCksum words len buffer = 0)
    {i : ℕ} (hi : i < buffer.length) {v : UInt8} (hv : v ≠ buffer[i]) :
    staticCksum words len (buffer.set i v) ≠ 0 := by
  have hmod := wordSum_set_mod_ne hi hv
  have hl : (buffer.set i v).length = len := by simp [hb]
  rw [staticCksum_eq_zero_iff hw hlen hb.ge, List.take_of_length_le hb.le] at hz
  rw [Ne, staticCksum_eq_zero_iff hw hlen hl.ge, List.take_of_length_le hl.le]
  rintro ⟨-, h⟩
  exact hmod (h.trans hz.2.symm)

end Rcopy
