import Mathlib.Data.List.TakeWhile

/-!
# Tokens of a list

The nonempty pieces of a list between the occurrences of a delimiter, and a
tokenizer that hands them out one call after the other.
-/

namespace Tokens

variable {α : Type*} [DecidableEq α] {sep : α} {s t rest : List α}

/-- The nonempty pieces of `s` between the delimiters. -/
def tokens (sep : α) (s : List α) : List (List α) := (s.splitOn sep).filter (· ≠ [])

/-- One call of the tokenizer: the delimiters in front are skipped, the token ends before
the next one, and that delimiter is dropped. -/
def next (sep : α) (s : List α) : Option (List α × List α) :=
  let s := s.dropWhile (· = sep)
  if s = [] then none else some (s.takeWhile (· ≠ sep), (s.dropWhile (· ≠ sep)).tail)

@[simp] theorem tokens_nil (sep : α) : tokens sep [] = [] := by
  simp [tokens]

theorem tokens_sep_cons (sep : α) (s : List α) : tokens sep (sep :: s) = tokens sep s := by
  simp [tokens, List.splitOn_cons_eq_if_modifyHead]

theorem tokens_dropWhile (sep : α) (s : List α) :
    tokens sep (s.dropWhile (· = sep)) = tokens sep s := by
  induction s with
  | nil => rfl
  | cons a s ih =>
    by_cases ha : a = sep
    · rw [List.dropWhile_cons_of_pos (by simpa using ha), ih, ha, tokens_sep_cons]
    · rw [List.dropWhile_cons_of_neg (by simpa using ha)]

theorem tokens_token (ht : t ≠ []) (hsep : sep ∉ t) : tokens sep t = [t] := by
  rw [tokens, List.splitOn_eq_singleton hsep]
  simp [ht]

theorem tokens_token_append (ht : t ≠ []) (hsep : sep ∉ t) (s : List α) :
    tokens sep (t ++ sep :: s) = t :: tokens sep s := by
  rw [tokens, List.splitOn_append_cons_self_of_not_mem hsep]
  simp [tokens, ht]

/-- The pieces between single delimiters are the tokens, when none is empty. -/
theorem tokens_intercalate {ts : List (List α)} (h : ∀ t ∈ ts, t ≠ [] ∧ sep ∉ t) :
    tokens sep ([sep].intercalate ts) = ts := by
  cases ts with
  | nil => simp
  | cons t ts =>
    rw [tokens, List.splitOn_intercalate sep (fun l hl => (h l hl).2) (List.cons_ne_nil t ts)]
    apply List.filter_eq_self.mpr
    intro l hl
    exact decide_eq_true (h l hl).1

theorem tokens_of_next_eq_none (h : next sep s = none) : tokens sep s = [] := by
  simp only [next] at h
  split_ifs at h with hnil
  rw [← tokens_dropWhile, hnil, tokens_nil]

/-- A list that starts with a token: the token ends at the first delimiter. -/
theorem tokens_of_head_ne {a : α} (ha : a ≠ sep) (s : List α) :
    tokens sep (a :: s) = (a :: s).takeWhile (· ≠ sep) ::
      tokens sep ((a :: s).dropWhile (· ≠ sep)).tail := by
  have htoken : (a :: s).takeWhile (· ≠ sep) ≠ [] := by
    rw [List.takeWhile_cons_of_pos (by simpa using ha)]
    exact List.cons_ne_nil _ _
  have hclean : sep ∉ (a :: s).takeWhile (· ≠ sep) := by
    intro hmem
    have hp := List.mem_takeWhile_imp hmem
    simp at hp
  have hsplit := List.takeWhile_append_dropWhile (p := fun b => decide (b ≠ sep)) (l := a :: s)
  cases hd : (a :: s).dropWhile (· ≠ sep) with
  | nil =>
    rw [hd, List.append_nil] at hsplit
    have hall := tokens_token htoken hclean
    rw [hsplit] at hall
    rw [List.tail_nil, tokens_nil, hsplit, hall]
  | cons b l =>
    have hb : b = sep := by
      have hnot := List.head?_dropWhile_not (fun b => decide (b ≠ sep)) (a :: s)
      rw [hd] at hnot
      simpa using hnot
    rw [hd, hb] at hsplit
    have hall := tokens_token_append htoken hclean l
    rw [hsplit] at hall
    rw [List.tail_cons, hall]

/-- The tokenizer hands out the first token, and the others are left for later calls. -/
theorem tokens_of_next_eq_some (h : next sep s = some (t, rest)) :
    tokens sep s = t :: tokens sep rest ∧ rest.length < s.length := by
  simp only [next] at h
  split_ifs at h with hne
  obtain ⟨rfl, rfl⟩ := Prod.mk.inj (Option.some.inj h)
  have hlen : (s.dropWhile (· = sep)).length ≤ s.length := List.length_dropWhile_le _ _
  rw [← tokens_dropWhile sep s]
  cases hs : s.dropWhile (· = sep) with
  | nil => exact absurd hs hne
  | cons a l =>
    have ha : a ≠ sep := by
      have hnot := List.head?_dropWhile_not (fun b => decide (b = sep)) s
      rw [hs] at hnot
      simpa using hnot
    have hrest : ((a :: l).dropWhile (· ≠ sep)).length ≤ l.length := by
      rw [List.dropWhile_cons_of_pos (by simpa using ha)]
      exact List.length_dropWhile_le _ _
    rw [hs, List.length_cons] at hlen
    rw [List.length_tail]
    exact ⟨tokens_of_head_ne ha l, by omega⟩

end Tokens
