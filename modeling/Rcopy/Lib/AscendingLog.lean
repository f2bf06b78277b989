import Mathlib.Data.List.Pairwise
import Mathlib.Order.Basic

/-!
# Logs that only ascend

A log of delivered numbers together with the number that comes next. Every
entry is smaller than the next number, so a log can only be extended by a
strictly increasing batch that starts there.
-/

structure AscendingLog (α : Type*) [LT α] where
  numbers : List α
  next : α
  sorted : numbers.Pairwise (· < ·)
  below : ∀ n ∈ numbers, n < next

namespace AscendingLog

def start {α : Type*} [LT α] (next : α) : AscendingLog α where
  numbers := []
  next := next
  sorted := List.Pairwise.nil
  below := by simp

variable {α : Type*} [Preorder α]

def extend (L : AscendingLog α) {batch : List α} {next : α} (hle : L.next ≤ next)
    (hsorted : batch.Pairwise (· < ·)) (hbatch : ∀ n ∈ batch, L.next ≤ n ∧ n < next) :
    AscendingLog α where
  numbers := L.numbers ++ batch
  next := next
  sorted := by
    refine List.pairwise_append.mpr ⟨L.sorted, hsorted, ?_⟩
    intro m hm n hn
    exact lt_of_lt_of_le (L.below m hm) (hbatch n hn).1
  below := by
    intro n hn
    rcases List.mem_append.mp hn with hn | hn
    · exact lt_of_lt_of_le (L.below n hn) hle
    · exact (hbatch n hn).2

end AscendingLog
