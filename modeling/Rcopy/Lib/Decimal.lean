import Mathlib.Data.List.TakeWhile
import Mathlib.Data.Nat.Digits.Defs

/-!
# Decimal numerals in bytes

The ASCII digits of a natural number, most significant first, and the value of a
string of digits.
-/

namespace Decimal

def IsDigit (b : UInt8) : Prop := 48 ≤ b ∧ b ≤ 57

instance : DecidablePred IsDigit := fun b => inferInstanceAs (Decidable (48 ≤ b ∧ b ≤ 57))

def digits (n : ℕ) : List UInt8 := (Nat.toDigits 10 n).map fun c => UInt8.ofNat c.toNat

/-- A numeral with a minus sign in front of it when the number is negative. -/
def numeral (z : Int) : List UInt8 :=
  if z < 0 then 45 :: digits z.natAbs else digits z.natAbs

def value (s : List UInt8) : Int := s.foldl (fun (v : Int) b => 10 * v + (b.toNat - 48)) 0

theorem value_append (s : List UInt8) (b : UInt8) :
    value (s ++ [b]) = 10 * value s + (b.toNat - 48) := by
  simp [value, List.foldl_append]

theorem digitChar_toNat : ∀ d < 10, (UInt8.ofNat (Nat.digitChar d).toNat).toNat = 48 + d := by
  decide

theorem digits_eq (n : ℕ) :
    digits n = if n < 10 then [UInt8.ofNat (Nat.digitChar n).toNat]
      else digits (n / 10) ++ [UInt8.ofNat (Nat.digitChar (n % 10)).toNat] := by
  rw [digits, Nat.toDigits_eq_if (by decide)]
  split_ifs
  · rfl
  · rw [List.map_append, List.map_singleton, digits]

theorem digits_ne_nil (n : ℕ) : digits n ≠ [] := by
  simp [digits]

theorem isDigit_of_mem_digits {n : ℕ} {b : UInt8} (h : b ∈ digits n) : IsDigit b := by
  induction n using Nat.strong_induction_on with
  | _ n ih =>
    have hlast : ∀ d < 10, IsDigit (UInt8.ofNat (Nat.digitChar d).toNat) := by decide
    rw [digits_eq] at h
    split_ifs at h with hn
    · rw [List.mem_singleton.mp h]
      exact hlast n hn
    · rcases List.mem_append.mp h with h | h
      · exact ih (n / 10) (by omega) h
      · rw [List.mem_singleton.mp h]
        exact hlast (n % 10) (by omega)

theorem value_digits (n : ℕ) : value (digits n) = n := by
  induction n using Nat.strong_induction_on with
  | _ n ih =>
    rw [digits_eq]
    split_ifs with hn
    · have hd := digitChar_toNat n hn
      simp only [value, List.foldl_cons, List.foldl_nil, hd]
      omega
    · have hd := digitChar_toNat (n % 10) (by omega)
      rw [value_append, ih (n / 10) (by omega), hd]
      omega

theorem mem_numeral {z : Int} {b : UInt8} (h : b ∈ numeral z) : b = 45 ∨ IsDigit b := by
  rw [numeral] at h
  split_ifs at h
  · exact (List.mem_cons.mp h).imp_right isDigit_of_mem_digits
  · exact Or.inr (isDigit_of_mem_digits h)

theorem numeral_ne_nil (z : Int) : numeral z ≠ [] := by
  rw [numeral]
  split_ifs
  · exact List.cons_ne_nil _ _
  · exact digits_ne_nil _

end Decimal
