import Mathlib.Data.List.TakeDrop
import Mathlib.Tactic.Ring

/-!
# Byte strings

Little-endian numerals of a fixed number of bytes, and copying one block of
memory over part of another.
-/

namespace Bytes

def leNat : List UInt8 → ℕ
  | [] => 0
  | b :: bs => b.toNat + 256 * leNat bs

def leBytes : ℕ → ℕ → List UInt8
  | 0, _ => []
  | n + 1, x => UInt8.ofNat x :: leBytes n (x / 256)

@[simp] theorem length_leBytes (n x : ℕ) : (leBytes n x).length = n := by
  induction n generalizing x with
  | zero => rfl
  | succ n ih => simp [leBytes, ih]

theorem leNat_lt (bs : List UInt8) : leNat bs < 256 ^ bs.length := by
  induction bs with
  | nil => simp [leNat]
  | cons b bs ih =>
    have hb := b.toNat_lt
    simp only [leNat, List.length_cons, pow_succ]
    omega

theorem leNat_leBytes (n x : ℕ) : leNat (leBytes n x) = x % 256 ^ n := by
  induction n generalizing x with
  | zero => simp [leBytes, leNat, Nat.mod_one]
  | succ n ih =>
    simp only [leBytes, leNat, ih, UInt8.toNat_ofNat']
    rw [show 256 ^ (n + 1) = 256 * 256 ^ n by ring, Nat.mod_mul]

theorem leBytes_leNat (bs : List UInt8) : leBytes bs.length (leNat bs) = bs := by
  induction bs with
  | nil => rfl
  | cons b bs ih =>
    have hb := b.toNat_lt
    have hlow : UInt8.ofNat (b.toNat + 256 * leNat bs) = b := by
      apply UInt8.toNat_inj.mp
      simp only [UInt8.toNat_ofNat']
      omega
    have hhigh : (b.toNat + 256 * leNat bs) / 256 = leNat bs := by omega
    simp only [List.length_cons, leBytes, leNat, hlow, hhigh, ih]

theorem leBytes_leNat_of_length {n : ℕ} {bs : List UInt8} (h : bs.length = n) :
    leBytes n (leNat bs) = bs := by
  subst h
  exact leBytes_leNat bs

variable {α : Type*}

/-- `mem` with `src` copied over it from offset `off` on. -/
def memcpy (mem : List α) (off : ℕ) (src : List α) : List α :=
  mem.take off ++ src ++ mem.drop (off + src.length)

theorem length_memcpy {mem src : List α} {off : ℕ} (h : off + src.length ≤ mem.length) :
    (memcpy mem off src).length = mem.length := by
  simp only [memcpy, List.length_append, List.length_take, List.length_drop]
  omega

theorem memcpy_zero (mem src : List α) : memcpy mem 0 src = src ++ mem.drop src.length := by
  simp [memcpy]

theorem memcpy_append {off : ℕ} {pre : List α} (rest src : List α)
    (hpre : pre.length = off) :
    memcpy (pre ++ rest) off src = pre ++ (src ++ rest.drop src.length) := by
  subst hpre
  simp [memcpy, List.drop_append]

theorem memcpy_middle {off : ℕ} (pre mid src post : List α) (hpre : pre.length = off)
    (h : src.length = mid.length) : memcpy (pre ++ mid ++ post) off src = pre ++ src ++ post := by
  subst hpre
  simp [memcpy, h, List.drop_append]

/-- Fields that lie within the first `n` elements are the same in lists that agree there. -/
theorem take_drop_of_take_eq {a b : List α} {n i k : ℕ} (h : a.take n = b.take n)
    (hk : i + k ≤ n) : (a.drop i).take k = (b.drop i).take k := by
  have hfield : ∀ l : List α, (l.drop i).take k = ((l.take n).drop i).take k := by
    intro l
    rw [List.drop_take, List.take_take, Nat.min_eq_left (by omega)]
  rw [hfield a, hfield b, h]

end Bytes
