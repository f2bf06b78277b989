import Mathlib.Data.List.Basic
import Mathlib.Data.Nat.ModEq
import Mathlib.Tactic.Ring
import Rcopy.Lib.Bytes

/-!
# One's-complement sums

Adding words of base `B` with the carries folded back into the low word is
addition modulo `B - 1` with two representations of zero, `0` and `B - 1`. Two
folds suffice for sums of at most `B` words, and the folded sum is `B - 1`
exactly when the sum is a positive multiple of `B - 1`. The weights of the bytes
in a sum of 16-bit words are `1` and `256`, so no change of a single byte is a
multiple of `65535`.
-/

namespace OnesComplement

open Bytes (leNat)

/-- One fold: the carries above the low word are added back to it. -/
def fold (B s : ℕ) : ℕ := s / B + s % B

theorem fold_modEq {B : ℕ} (hB : 1 ≤ B) (s : ℕ) : fold B s ≡ s [MOD B - 1] := by
  have hs : s = (B - 1) * (s / B) + fold B s := by
    have h := Nat.div_add_mod s B
    obtain ⟨m, rfl⟩ : ∃ m, B = m + 1 := ⟨B - 1, by omega⟩
    rw [Nat.add_one_mul] at h
    simp only [fold, Nat.add_sub_cancel]
    omega
  have h : (B - 1) * (s / B) + fold B s ≡ fold B s [MOD B - 1] := by
    simp [Nat.ModEq]
  rw [← hs] at h
  exact h.symm

theorem fold_pos {B s : ℕ} (hs : 0 < s) : 0 < fold B s := by
  by_contra h
  obtain ⟨hd, hm⟩ := Nat.add_eq_zero_iff.mp (Nat.eq_zero_of_not_pos h)
  have hdm := Nat.div_add_mod s B
  rw [hd, hm] at hdm
  omega

theorem fold_fold_le {B s : ℕ} (hB : 2 ≤ B) (hs : s ≤ B * (B - 1)) :
    fold B (fold B s) ≤ B - 1 := by
  have hpos : 0 < B := by omega
  have hd : s / B ≤ B - 1 := by
    calc
      s / B ≤ B * (B - 1) / B := Nat.div_le_div_right hs
      _ = B - 1 := Nat.mul_div_cancel_left _ hpos
  have hm := Nat.mod_lt s hpos
  have hf : fold B s ≤ 2 * B - 2 := by simp only [fold]; omega
  by_cases h : fold B s < B
  · simp only [fold] at h ⊢
    rw [Nat.div_eq_of_lt h, Nat.mod_eq_of_lt h]
    omega
  · have hq : fold B s / B = 1 := by
      rw [Nat.div_eq_iff hpos]
      omega
    have hdm := Nat.div_add_mod (fold B s) B
    rw [hq] at hdm
    rw [fold, hq]
    omega

/-- The folded sum is the all-ones word exactly on the positive multiples of `B - 1`. -/
theorem fold_fold_eq_iff {B s : ℕ} (hB : 2 ≤ B) (hs : s ≤ B * (B - 1)) :
    fold B (fold B s) = B - 1 ↔ 0 < s ∧ s % (B - 1) = 0 := by
  have hmod : fold B (fold B s) % (B - 1) = s % (B - 1) :=
    (fold_modEq (by omega) _).trans (fold_modEq (by omega) s)
  have hle := fold_fold_le hB hs
  constructor
  · intro h
    rw [h, Nat.mod_self] at hmod
    refine ⟨?_, hmod.symm⟩
    by_contra h0
    obtain rfl : s = 0 := by omega
    simp [fold] at h
    omega
  · rintro ⟨hpos, hz⟩
    have hpos2 : 0 < fold B (fold B s) := fold_pos (fold_pos hpos)
    rw [hz] at hmod
    have hdvd := Nat.le_of_dvd hpos2 (Nat.dvd_of_mod_eq_zero hmod)
    omega

theorem fold_fold_add_complement {B s : ℕ} (hB : 2 ≤ B) (hs : s + (B - 1) ≤ B * (B - 1)) :
    fold B (fold B (s + (B - 1 - fold B (fold B s)))) = B - 1 := by
  have hle := fold_fold_le (s := s) hB (by omega)
  rw [fold_fold_eq_iff hB (by omega)]
  have hmod : s ≡ fold B (fold B s) [MOD B - 1] :=
    ((fold_modEq (by omega) _).trans (fold_modEq (by omega) s)).symm
  have hsum : (s + (B - 1 - fold B (fold B s))) % (B - 1) = 0 := by
    have h : s + (B - 1 - fold B (fold B s)) ≡
        fold B (fold B s) + (B - 1 - fold B (fold B s)) [MOD B - 1] := hmod.add_right _
    rw [show fold B (fold B s) + (B - 1 - fold B (fold B s)) = B - 1 by omega] at h
    simpa [Nat.ModEq] using h
  refine ⟨?_, hsum⟩
  by_contra h0
  obtain rfl : s = 0 := by omega
  simp [fold] at h0
  omega

/-- The sum of the little-endian 16-bit words of a byte string; an odd last byte is a low byte. -/
def wordSum : List UInt8 → ℕ
  | lo :: hi :: w => leNat [lo, hi] + wordSum w
  | [lo] => lo.toNat
  | [] => 0

theorem wordSum_of_length_two {w : List UInt8} (hw : w.length = 2) : wordSum w = leNat w := by
  obtain ⟨a, b, rfl⟩ := List.length_eq_two.mp hw
  simp [wordSum]

theorem wordSum_append {a : List UInt8} (b : List UInt8) (ha : a.length % 2 = 0) :
    wordSum (a ++ b) = wordSum a + wordSum b := by
  induction a using wordSum.induct with
  | case1 lo hi w ih =>
    simp only [List.length_cons] at ha
    simp only [List.cons_append, wordSum, ih (by omega)]
    omega
  | case2 lo => simp at ha
  | case3 => simp [wordSum]

theorem wordSum_append_zeros (a : List UInt8) (n : ℕ) :
    wordSum (a ++ List.replicate n 0) = wordSum a := by
  have hz : ∀ n, wordSum (List.replicate n 0) = 0 := by
    intro n
    induction n using Nat.twoStepInduction with
    | zero => rfl
    | one => rfl
    | more n ih _ => simp [List.replicate_succ, wordSum, leNat, ih]
  induction a using wordSum.induct with
  | case1 lo hi w ih => simp only [List.cons_append, wordSum, ih]
  | case2 lo =>
    cases n with
    | zero => rfl
    | succ n => simp [List.replicate_succ, wordSum, leNat, hz]
  | case3 => simpa [wordSum] using hz n

theorem wordSum_le (a : List UInt8) : wordSum a ≤ 65535 * ((a.length + 1) / 2) := by
  induction a using wordSum.induct with
  | case1 lo hi w ih =>
    have h₁ := lo.toNat_lt
    have h₂ := hi.toNat_lt
    simp only [wordSum, leNat, List.length_cons]
    omega
  | case2 lo =>
    have h := lo.toNat_lt
    simp only [wordSum, List.length_cons, List.length_nil]
    omega
  | case3 => simp [wordSum]

def weight (i : ℕ) : ℕ := if i % 2 = 0 then 1 else 256

theorem wordSum_concat (a : List UInt8) (b : UInt8) :
    wordSum (a ++ [b]) = wordSum a + weight a.length * b.toNat := by
  induction a using wordSum.induct with
  | case1 lo hi w ih =>
    have hw : weight (w.length + 1 + 1) = weight w.length := by
      rw [weight, weight, Nat.add_assoc, Nat.add_mod_right]
    simp only [List.cons_append, wordSum, ih, List.length_cons, hw]
    omega
  | case2 lo => simp [wordSum, leNat, weight]
  | case3 => simp [wordSum, weight]

theorem wordSum_set {a : List UInt8} {i : ℕ} (hi : i < a.length) (v : UInt8) :
    wordSum (a.set i v) + weight i * a[i].toNat = wordSum a + weight i * v.toNat := by
  induction a using wordSum.induct generalizing i with
  | case1 lo hi' w ih =>
    match i, hi with
    | 0, _ => simp [wordSum, leNat, weight]; omega
    | 1, _ => simp [wordSum, leNat, weight]; omega
    | i + 2, h =>
      have hw : weight (i + 2) = weight i := by simp [weight]
      have := ih (i := i) (by simpa using h)
      simp only [List.set_cons_succ, wordSum, List.getElem_cons_succ, hw]
      omega
  | case2 lo =>
    obtain rfl : i = 0 := by simpa using hi
    simp [wordSum, weight]
    omega
  | case3 => simp at hi

/-- Changing one byte moves the sum by a non-zero amount below `65535`, so the
residue modulo `65535` changes. -/
theorem wordSum_set_mod_ne {a : List UInt8} {i : ℕ} (hi : i < a.length) {v : UInt8}
    (hv : v ≠ a[i]) : wordSum (a.set i v) % 65535 ≠ wordSum a % 65535 := by
  have h := wordSum_set hi v
  have hne : v.toNat ≠ a[i].toNat := fun he => hv (UInt8.toNat_inj.mp he)
  have hv₁ := v.toNat_lt
  have ha₁ := a[i].toNat_lt
  unfold weight at h
  split at h <;> omega

end OnesComplement
