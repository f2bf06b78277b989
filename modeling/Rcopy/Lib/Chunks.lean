import Mathlib.Data.List.Infix

/-!
# A list cut into chunks

The chunks of `n` elements of a list, numbered from 0. All are full but the last. A
selection keeps some of them in order; it has room for other elements behind the last
chunk only.
-/

namespace Chunks

variable {α : Type*}

def chunk (l : List α) (n k : ℕ) : List α := (l.drop (k * n)).take n

def upTo (l : List α) (n m : ℕ) : List α := (List.range m).flatMap (chunk l n)

@[simp] theorem upTo_zero (l : List α) (n : ℕ) : upTo l n 0 = [] := rfl

theorem upTo_succ (l : List α) (n m : ℕ) : upTo l n (m + 1) = upTo l n m ++ chunk l n m := by
  simp [upTo, List.range_succ]

theorem upTo_eq_take (l : List α) (n m : ℕ) : upTo l n m = l.take (m * n) := by
  induction m with
  | zero => simp
  | succ m ih => rw [upTo_succ, ih, Nat.succ_mul, List.take_add, chunk]

theorem upTo_prefix (l : List α) (n m : ℕ) : upTo l n m <+: l := by
  rw [upTo_eq_take]
  exact List.take_prefix _ _

theorem upTo_eq_self {l : List α} {n m : ℕ} (h : l.length ≤ m * n) : upTo l n m = l := by
  rw [upTo_eq_take]
  exact List.take_of_length_le h

theorem length_chunk (l : List α) (n k : ℕ) : (chunk l n k).length = min n (l.length - k * n) := by
  rw [chunk, List.length_take, List.length_drop]

theorem length_chunk_le (l : List α) (n k : ℕ) : (chunk l n k).length ≤ n := by
  rw [length_chunk]
  exact Nat.min_le_left _ _

theorem length_upTo_lt {l : List α} {n k m : ℕ} (hn : 0 < n) (h : k * n < l.length) (hm : k < m) :
    (upTo l n k).length < (upTo l n m).length := by
  have hle : (k + 1) * n ≤ m * n := Nat.mul_le_mul_right n hm
  rw [Nat.succ_mul] at hle
  rw [upTo_eq_take, upTo_eq_take, List.length_take, List.length_take]
  omega

/-! ## Selections -/

/-- Chunks of `l` with numbers below `hi`, each at most once and in order, and fewer than
`n` other elements behind them. -/
structure Selects (l : List α) (n hi : ℕ) (ks : List ℕ) (padding b : List α) : Prop where
  increasing : ks.Pairwise (· < ·)
  lt : ∀ k ∈ ks, k < hi
  eq : b = ks.flatMap (chunk l n) ++ padding
  short : padding.length < n
  last : padding ≠ [] → l.length ≤ hi * n

section Selections

variable {l b padding : List α} {n hi : ℕ} {ks : List ℕ}

theorem flatMap_chunk_sublist (hinc : ks.Pairwise (· < ·)) (hlt : ∀ k ∈ ks, k < hi) :
    (ks.flatMap (chunk l n)).Sublist (upTo l n hi) := by
  induction ks using List.reverseRecOn generalizing hi with
  | nil => exact List.nil_sublist _
  | append_singleton ks k ih =>
    obtain ⟨hks, -, hbelow⟩ := List.pairwise_append.mp hinc
    have hinit := ih hks fun j hj => hbelow j hj k List.mem_cons_self
    have hk : k + 1 ≤ hi := hlt k (List.mem_append_right _ List.mem_cons_self)
    rw [List.flatMap_append, List.flatMap_singleton]
    calc (ks.flatMap (chunk l n) ++ chunk l n k).Sublist (upTo l n k ++ chunk l n k) :=
          hinit.append_right _
      _ = upTo l n (k + 1) := (upTo_succ l n k).symm
      List.Sublist _ (upTo l n hi) := by
          rw [upTo_eq_take, upTo_eq_take]
          exact List.take_sublist_take_left (Nat.mul_le_mul_right n hk)

theorem selects_nil (hn : 0 < n) : Selects l n hi [] [] [] := by
  refine ⟨List.Pairwise.nil, ?_, rfl, hn, ?_⟩
  · intro k hk
    cases hk
  · intro hne
    exact absurd rfl hne

theorem Selects.mono (h : Selects l n hi ks padding b) {hi' : ℕ} (hle : hi ≤ hi') :
    Selects l n hi' ks padding b := by
  refine ⟨h.increasing, ?_, h.eq, h.short, ?_⟩
  · intro k hk
    exact (h.lt k hk).trans_le hle
  · intro hne
    exact (h.last hne).trans (Nat.mul_le_mul_right n hle)

/-- A list that is a selection of its own chunks ends with them. -/
theorem Selects.length_le (h : Selects l n hi ks padding l) : l.length ≤ hi * n := by
  by_cases hpad : padding = []
  · have heq := h.eq
    rw [hpad, List.append_nil] at heq
    calc l.length = (ks.flatMap (chunk l n)).length := congrArg List.length heq
      _ ≤ (upTo l n hi).length := (flatMap_chunk_sublist h.increasing h.lt).length_le
      _ ≤ hi * n := by
          rw [upTo_eq_take, List.length_take]
          exact Nat.min_le_left _ _
  · exact h.last hpad

/-- A block of `n` elements that begins with a later chunk can be appended. -/
theorem Selects.write (h : Selects l n hi ks padding b) {k : ℕ} (hk : hi ≤ k)
    (hl : k * n < l.length) {block : List α} (hlen : block.length = n)
    (hpre : chunk l n k <+: block) :
    ∃ rest, Selects l n (k + 1) (ks ++ [k]) rest (b ++ block) := by
  obtain ⟨rest, rfl⟩ := hpre
  have hfull : padding = [] := by
    by_contra hne
    have hend := h.last hne
    have hle : hi * n ≤ k * n := Nat.mul_le_mul_right n hk
    omega
  rw [List.length_append, length_chunk] at hlen
  refine ⟨rest, ?_, ?_, ?_, ?_, ?_⟩
  · apply List.pairwise_append.mpr
    refine ⟨h.increasing, List.pairwise_singleton _ k, ?_⟩
    intro j hj i hi'
    rw [List.mem_singleton.mp hi']
    exact (h.lt j hj).trans_le hk
  · intro j hj
    rcases List.mem_append.mp hj with hj | hj
    · exact (h.lt j hj).trans (Nat.lt_succ_of_le hk)
    · rw [List.mem_singleton.mp hj]
      exact Nat.lt_succ_self k
  · rw [h.eq, hfull, List.append_nil, List.flatMap_append, List.flatMap_singleton,
      List.append_assoc]
  · have hpos : 0 < n := (Nat.zero_le _).trans_lt h.short
    omega
  · intro hne
    have hrest : 0 < rest.length := List.length_pos_iff.mpr hne
    rw [Nat.succ_mul]
    omega

end Selections

end Chunks
