import Rcopy.Lib.Bytes

/-!
# C integers and memory

`int` values are `Int`, kept in range by `i32` where the source does arithmetic
on them; `uint32_t` values are `UInt32`. The host is the little-endian 64-bit
machine of the committed binaries, so `htonl` and its relatives reverse bytes.
Memory is a list of bytes. What `malloc` or the stack holds before it is written
is an arbitrary function `ℕ → UInt8` supplied by the environment.
-/

namespace Rcopy

open Bytes

/-- The value an `int` takes when the exact result is `x`. -/
def i32 (x : Int) : Int := (x + 2147483648) % 4294967296 - 2147483648

def toU32 (x : Int) : UInt32 := UInt32.ofNat (x % 4294967296).toNat

def toI32 (x : UInt32) : Int := i32 x.toNat

def toSize (x : Int) : ℕ := (x % 18446744073709551616).toNat

theorem i32_of_range {x : Int} (h₁ : -2147483648 ≤ x) (h₂ : x < 2147483648) : i32 x = x := by
  simp only [i32]
  omega

theorem i32_range (x : Int) : -2147483648 ≤ i32 x ∧ i32 x < 2147483648 := by
  simp only [i32]
  omega

theorem i32_succ_cases {e : Int} (h₀ : 0 ≤ e) (h : e < 2147483648) :
    (e ≠ 2147483647 ∧ i32 (e + 1) = e + 1) ∨ (e = 2147483647 ∧ i32 (e + 1) < 0) := by
  by_cases he : e = 2147483647
  · refine Or.inr ⟨he, ?_⟩
    rw [he]
    decide
  · exact Or.inl ⟨he, i32_of_range (by omega) (by omega)⟩

theorem toU32_toNat (x : Int) : ((toU32 x).toNat : Int) = x % 4294967296 := by
  have h : (x % 4294967296).toNat < 4294967296 := by omega
  simp only [toU32, UInt32.toNat_ofNat', Nat.mod_eq_of_lt h]
  omega

theorem toU32_toNat_of_range {x : Int} (h₁ : 0 ≤ x) (h₂ : x < 4294967296) :
    ((toU32 x).toNat : Int) = x := by
  rw [toU32_toNat]
  omega

theorem toU32_toI32 (x : UInt32) : toU32 (toI32 x) = x := by
  have h := x.toNat_lt
  apply UInt32.toNat_inj.mp
  have h₁ := toU32_toNat (toI32 x)
  simp only [toI32, i32] at h₁ ⊢
  omega

theorem toI32_succ_of_lt {n : UInt32} (h : n.toNat < 2147483647) :
    toI32 (n + 1) = n.toNat + 1 := by
  simp only [toI32, UInt32.toNat_add, UInt32.toNat_one, i32]
  omega

theorem lt_of_toI32_succ_pos {n : UInt32} (h : 0 < toI32 (n + 1)) : n.toNat < 2147483647 := by
  have hmax := n.toNat_lt
  simp only [toI32, UInt32.toNat_add, UInt32.toNat_one, i32] at h
  omega

theorem toI32_of_lt {x : UInt32} (h : x.toNat < 2147483648) : toI32 x = x.toNat :=
  i32_of_range (by omega) (by omega)

theorem toI32_of_nonneg {x : UInt32} (h : 0 ≤ toI32 x) : toI32 x = x.toNat := by
  have hmax := x.toNat_lt
  simp only [toI32, i32] at h ⊢
  omega

/-! Loads and stores of host words, and the byte-order conversions. -/

def store32 (x : UInt32) : List UInt8 := leBytes 4 x.toNat
def load32 (b : List UInt8) : UInt32 := UInt32.ofNat (leNat (b.take 4))
def store16 (x : UInt16) : List UInt8 := leBytes 2 x.toNat
def load16 (b : List UInt8) : UInt16 := UInt16.ofNat (leNat (b.take 2))

def htonl (x : UInt32) : UInt32 := load32 (store32 x).reverse
def ntohl (x : UInt32) : UInt32 := load32 (store32 x).reverse
def htons (x : UInt16) : UInt16 := load16 (store16 x).reverse
def ntohs (x : UInt16) : UInt16 := load16 (store16 x).reverse

@[simp] theorem length_store32 (x : UInt32) : (store32 x).length = 4 := length_leBytes _ _

@[simp] theorem length_store16 (x : UInt16) : (store16 x).length = 2 := length_leBytes _ _

theorem load32_append {a : List UInt8} (b : List UInt8) (h : a.length = 4) :
    load32 (a ++ b) = load32 a := by
  rw [load32, load32, List.take_left' h, List.take_of_length_le h.le]

theorem load16_append {a : List UInt8} (b : List UInt8) (h : a.length = 2) :
    load16 (a ++ b) = load16 a := by
  rw [load16, load16, List.take_left' h, List.take_of_length_le h.le]

theorem load32_store32 (x : UInt32) : load32 (store32 x) = x := by
  have h := x.toNat_lt
  apply UInt32.toNat_inj.mp
  rw [load32, List.take_of_length_le (by simp), store32, leNat_leBytes, UInt32.toNat_ofNat']
  omega

theorem load16_store16 (x : UInt16) : load16 (store16 x) = x := by
  have h := x.toNat_lt
  apply UInt16.toNat_inj.mp
  rw [load16, List.take_of_length_le (by simp), store16, leNat_leBytes, UInt16.toNat_ofNat']
  omega

theorem store32_load32 {b : List UInt8} (h : b.length = 4) : store32 (load32 b) = b := by
  have hlt := leNat_lt b
  rw [h] at hlt
  rw [store32, load32, List.take_of_length_le h.le, UInt32.toNat_ofNat',
    Nat.mod_eq_of_lt (by omega)]
  exact leBytes_leNat_of_length h

theorem store16_load16 {b : List UInt8} (h : b.length = 2) : store16 (load16 b) = b := by
  have hlt := leNat_lt b
  rw [h] at hlt
  rw [store16, load16, List.take_of_length_le h.le, UInt16.toNat_ofNat',
    Nat.mod_eq_of_lt (by omega)]
  exact leBytes_leNat_of_length h

@[simp] theorem ntohl_htonl (x : UInt32) : ntohl (htonl x) = x := by
  rw [ntohl, htonl, store32_load32 (by simp), List.reverse_reverse, load32_store32]

@[simp] theorem ntohs_htons (x : UInt16) : ntohs (htons x) = x := by
  rw [ntohs, htons, store16_load16 (by simp), List.reverse_reverse, load16_store16]

def uninit (junk : ℕ → UInt8) (n : ℕ) : List UInt8 := (List.range n).map junk

@[simp] theorem length_uninit (junk : ℕ → UInt8) (n : ℕ) : (uninit junk n).length = n := by
  simp [uninit]

def recvInto (mem : List UInt8) (len : ℕ) (datagram : List UInt8) : List UInt8 :=
  memcpy mem 0 (datagram.take len)

theorem recvInto_eq {mem datagram : List UInt8} {len : ℕ} (h : datagram.length ≤ len) :
    recvInto mem len datagram = datagram ++ mem.drop datagram.length := by
  rw [recvInto, List.take_of_length_le h]
  exact memcpy_zero _ _

def seqOf (buffer : List UInt8) : UInt32 := ntohl (load32 buffer)

def flagOf (buffer : List UInt8) : UInt8 := buffer.getD 6 0

theorem seqOf_store32 (x : UInt32) (b : List UInt8) : seqOf (store32 (htonl x) ++ b) = x := by
  rw [seqOf, load32_append _ (length_store32 _), load32_store32, ntohl_htonl]

theorem seqOf_append {a : List UInt8} (b : List UInt8) (h : 4 ≤ a.length) :
    seqOf (a ++ b) = seqOf a := by
  rw [seqOf, seqOf, load32, load32, List.take_append_of_le_length h]

theorem flagOf_append {a : List UInt8} (b : List UInt8) (h : 7 ≤ a.length) :
    flagOf (a ++ b) = flagOf a := by
  rw [flagOf, flagOf, List.getD_eq_getElem?_getD, List.getD_eq_getElem?_getD,
    List.getElem?_append_left (by omega)]

theorem seqOf_take {d : List UInt8} {n : ℕ} (h : 4 ≤ n) : seqOf (d.take n) = seqOf d := by
  rw [seqOf, seqOf, load32, load32, List.take_take, Nat.min_eq_left h]

theorem flagOf_take {d : List UInt8} {n : ℕ} (h : 7 ≤ n) : flagOf (d.take n) = flagOf d := by
  rw [flagOf, flagOf, List.getD_eq_getElem?_getD, List.getD_eq_getElem?_getD,
    List.getElem?_take_of_lt (by omega)]

end Rcopy
