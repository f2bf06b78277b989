import Mathlib.Data.List.Basic
import Mathlib.Data.Int.ModEq

/-!
# Rings of slots

An array of pointers indexed by numbers modulo its size. A slot is empty when
its pointer is null or the index lies outside the array. Numbers of one window,
at most as long as the ring, have pairwise different slots.
-/

namespace Ring

variable {α : Type*}

def slot (l : List (Option α)) (i : ℤ) : Option α :=
  if 0 ≤ i then (l[i.toNat]?).join else none

def update (l : List (Option α)) (i : ℤ) (f : α → α) : List (Option α) :=
  if 0 ≤ i then l.modify i.toNat (Option.map f) else l

def release (l : List (Option α)) (i : ℤ) : List (Option α) :=
  if 0 ≤ i then l.set i.toNat none else l

@[simp] theorem length_update (l : List (Option α)) (i : ℤ) (f : α → α) :
    (update l i f).length = l.length := by
  unfold update
  split <;> simp

@[simp] theorem length_release (l : List (Option α)) (i : ℤ) :
    (release l i).length = l.length := by
  unfold release
  split <;> simp

theorem slot_update_self (l : List (Option α)) (i : ℤ) (f : α → α) :
    slot (update l i f) i = (slot l i).map f := by
  unfold slot update
  split
  · rw [List.getElem?_modify_eq]
    cases l[i.toNat]? <;> simp
  · rfl

theorem slot_update_ne {i j : ℤ} (h : i ≠ j) (l : List (Option α)) (f : α → α) :
    slot (update l i f) j = slot l j := by
  unfold slot update
  by_cases hj : 0 ≤ j
  · by_cases hi : 0 ≤ i
    · have hne : i.toNat ≠ j.toNat := by omega
      simp [hi, hj, hne]
    · simp [hi]
  · simp [hj]

theorem slot_update_eq_some {l : List (Option α)} {i j : ℤ} {f : α → α} {x : α}
    (h : slot (update l i f) j = some x) :
    (i = j ∧ ∃ y, slot l j = some y ∧ x = f y) ∨ (i ≠ j ∧ slot l j = some x) := by
  by_cases hij : i = j
  · rw [hij, slot_update_self] at h
    obtain ⟨y, hy, rfl⟩ := Option.map_eq_some_iff.mp h
    exact Or.inl ⟨hij, y, hy, rfl⟩
  · rw [slot_update_ne hij] at h
    exact Or.inr ⟨hij, h⟩

theorem slot_release_self (l : List (Option α)) (i : ℤ) : slot (release l i) i = none := by
  unfold slot release
  split
  · by_cases h : i.toNat < l.length
    · simp [h]
    · rw [List.getElem?_eq_none (by simp; omega)]
      rfl
  · rfl

theorem slot_release_ne {i j : ℤ} (h : i ≠ j) (l : List (Option α)) :
    slot (release l i) j = slot l j := by
  unfold slot release
  by_cases hj : 0 ≤ j
  · by_cases hi : 0 ≤ i
    · have hne : i.toNat ≠ j.toNat := by omega
      simp [hi, hj, hne]
    · simp [hi]
  · simp [hj]

theorem slot_release (l : List (Option α)) (i j : ℤ) :
    slot (release l i) j = if i = j then none else slot l j := by
  split_ifs with h
  · rw [h, slot_release_self]
  · exact slot_release_ne h l

/-- The slots of the `n` numbers from `i` on are released. -/
def releaseRange (w : ℤ) : ℕ → ℤ → List (Option α) → List (Option α)
  | 0, _, l => l
  | n + 1, i, l => releaseRange w n (i + 1) (release l (i % w))

@[simp] theorem length_releaseRange (w : ℤ) (n : ℕ) (i : ℤ) (l : List (Option α)) :
    (releaseRange w n i l).length = l.length := by
  induction n generalizing i l with
  | zero => rfl
  | succ n ih => rw [releaseRange, ih, length_release]

theorem slot_releaseRange_kept {w i k : ℤ} {n : ℕ} (l : List (Option α))
    (h : ∀ j, i ≤ j → j < i + n → j % w ≠ k) : slot (releaseRange w n i l) k = slot l k := by
  induction n generalizing i l with
  | zero => rfl
  | succ n ih =>
    rw [releaseRange, ih, slot_release_ne]
    · exact h i le_rfl (by push_cast; omega)
    · intro j h₁ h₂
      exact h j (by omega) (by push_cast; omega)

theorem slot_releaseRange_null {w i k : ℤ} {n : ℕ} {l : List (Option α)} (h : slot l k = none) :
    slot (releaseRange w n i l) k = none := by
  induction n generalizing i l with
  | zero => exact h
  | succ n ih =>
    refine ih ?_
    rw [slot_release, h, ite_self]

theorem slot_releaseRange_passed {w i j : ℤ} {n : ℕ} (l : List (Option α)) (h₁ : i ≤ j)
    (h₂ : j < i + n) : slot (releaseRange w n i l) (j % w) = none := by
  induction n generalizing i l with
  | zero => omega
  | succ n ih =>
    rw [releaseRange]
    by_cases hij : i = j
    · subst hij
      exact slot_releaseRange_null (slot_release_self _ _)
    · exact ih _ (by omega) (by push_cast at h₂; omega)

theorem slot_releaseRange_eq_none_iff {w i k : ℤ} {n : ℕ} (l : List (Option α)) :
    slot (releaseRange w n i l) k = none ↔
      slot l k = none ∨ ∃ j, i ≤ j ∧ j < i + n ∧ j % w = k := by
  constructor
  · intro h
    by_cases hpassed : ∃ j, i ≤ j ∧ j < i + n ∧ j % w = k
    · exact Or.inr hpassed
    · push Not at hpassed
      rw [slot_releaseRange_kept l hpassed] at h
      exact Or.inl h
  · rintro (h | ⟨j, h₁, h₂, rfl⟩)
    · exact slot_releaseRange_null h
    · exact slot_releaseRange_passed l h₁ h₂

theorem slot_releaseRange_eq_some {w i k : ℤ} {n : ℕ} {l : List (Option α)} {p : α}
    (h : slot (releaseRange w n i l) k = some p) : slot l k = some p := by
  have hsome : slot (releaseRange w n i l) k ≠ none := by
    rw [h]
    exact Option.some_ne_none p
  rw [Ne, slot_releaseRange_eq_none_iff, not_or, not_exists] at hsome
  rw [← h]
  exact (slot_releaseRange_kept l fun j h₁ h₂ hj => hsome.2 j ⟨h₁, h₂, hj⟩).symm

theorem update_of_null {l : List (Option α)} {i : ℤ} (h : slot l i = none) (f : α → α) :
    update l i f = l := by
  unfold slot at h
  unfold update
  split_ifs with hi
  · rw [if_pos hi] at h
    rw [List.modify_eq_set_getElem?]
    cases hget : l[i.toNat]? with
    | none => rfl
    | some o =>
      rw [hget] at h
      obtain rfl : o = none := h
      obtain ⟨hlt, hval⟩ := List.getElem?_eq_some_iff.mp hget
      have hself := List.set_getElem_self hlt
      rwa [hval] at hself
  · rfl

theorem release_of_null {l : List (Option α)} {i : ℤ} (h : slot l i = none)
    (hi : i < l.length) : release l i = l := by
  unfold slot at h
  unfold release
  split_ifs with h₀
  · rw [if_pos h₀, List.getElem?_eq_getElem (by omega)] at h
    have hlt : i.toNat < l.length := by omega
    have hself := List.set_getElem_self hlt
    rwa [show l[i.toNat] = none from h] at hself
  · rfl

theorem slot_update_eq_none_iff (l : List (Option α)) (i j : ℤ) (f : α → α) :
    slot (update l i f) j = none ↔ slot l j = none := by
  by_cases h : i = j
  · rw [h, slot_update_self, Option.map_eq_none_iff]
  · rw [slot_update_ne h]

theorem update_comm {i j : ℤ} (h : i ≠ j) (l : List (Option α)) (f g : α → α) :
    update (update l i f) j g = update (update l j g) i f := by
  unfold update
  split
  · split
    · exact List.modify_modify_ne _ _ _ (by omega)
    · rfl
  · rfl

theorem update_update (l : List (Option α)) (i : ℤ) (f g : α → α) :
    update (update l i f) i g = update l i (g ∘ f) := by
  unfold update
  split
  · rw [List.modify_modify_eq]
    congr 1
    funext o
    simp
  · rfl

theorem slot_ext {l l' : List (Option α)} (hlen : l.length = l'.length)
    (h : ∀ i, slot l i = slot l' i) : l = l' := by
  refine List.ext_getElem hlen ?_
  intro n hn hn'
  have hslot := h n
  simpa [slot, hn, hn'] using hslot

theorem update_eq_self_iff {l : List (Option α)} {i : ℤ} {f : α → α} :
    update l i f = l ↔ ∀ x, slot l i = some x → f x = x := by
  constructor
  · intro h x hx
    have hself := slot_update_self l i f
    rw [h, hx, Option.map_some] at hself
    exact (Option.some.inj hself).symm
  · intro h
    refine slot_ext (length_update l i f) ?_
    intro j
    by_cases hij : i = j
    · subst hij
      rw [slot_update_self]
      cases hx : slot l i with
      | none => rfl
      | some x => rw [Option.map_some, h x hx]
    · exact slot_update_ne hij l f

def Allocated (l : List (Option α)) : Prop :=
  ∀ i : ℤ, 0 ≤ i → i < l.length → ∃ x, slot l i = some x

theorem Allocated.update {l : List (Option α)} (h : Allocated l) (i : ℤ) (f : α → α) :
    Allocated (update l i f) := by
  intro j hj₀ hj
  rw [length_update] at hj
  obtain ⟨x, hx⟩ := h j hj₀ hj
  by_cases hij : i = j
  · subst hij
    exact ⟨f x, by rw [slot_update_self, hx, Option.map_some]⟩
  · exact ⟨x, by rw [slot_update_ne hij, hx]⟩

def count (p : α → Bool) (l : List (Option α)) : ℕ := l.countP (·.any p)

theorem count_le_length (p : α → Bool) (l : List (Option α)) : count p l ≤ l.length :=
  List.countP_le_length

theorem slot_eq_some_iff {l : List (Option α)} {i : ℤ} {x : α} :
    slot l i = some x ↔ 0 ≤ i ∧ l[i.toNat]? = some (some x) := by
  unfold slot
  split <;> simp [*, Option.join_eq_some_iff]

theorem count_update_lt {p : α → Bool} {l : List (Option α)} {i : ℤ} {x : α} {f : α → α}
    (hx : slot l i = some x) (hp : p x = true) (hf : p (f x) = false) :
    count p (update l i f) < count p l := by
  obtain ⟨hi, hget⟩ := slot_eq_some_iff.mp hx
  obtain ⟨hlt, hval⟩ := List.getElem?_eq_some_iff.mp hget
  have hset : update l i f = l.set i.toNat (some (f x)) := by
    rw [update, if_pos hi, List.modify_eq_set_getElem?, hget]
    rfl
  have hmem : 0 < l.countP (·.any p) :=
    List.countP_pos_iff.mpr ⟨some x, List.mem_of_getElem? hget, by simpa using hp⟩
  have hold : (l[i.toNat]).any p = true := by rw [hval, Option.any_some, hp]
  have hnew : ¬(some (f x)).any p = true := by rw [Option.any_some, hf]; exact Bool.false_ne_true
  rw [count, count, hset, List.countP_set hlt, if_pos hold, if_neg hnew]
  omega

theorem count_update_le (p : α → Bool) (l : List (Option α)) (i : ℤ) (f : α → α) :
    count p (update l i f) ≤ count p l + 1 := by
  rw [update]
  split_ifs
  · by_cases hlt : i.toNat < l.length
    · rw [count, count, List.modify_eq_set_getElem?, List.getElem?_eq_getElem hlt]
      simp only [Option.map_eq_map, Option.map_some, Option.getD_some]
      rw [List.countP_set hlt]
      split_ifs <;> omega
    · rw [List.modify_eq_self (not_lt.mp hlt)]
      exact Nat.le_succ _
  · exact Nat.le_succ _

/-- A ring of `w` slots files its numbers: an element with a number stands in the
slot of that number, and the numbers run from 0 to `hi`. -/
def Filed (num : α → Option ℤ) (w hi : ℤ) (l : List (Option α)) : Prop :=
  ∀ i x n, slot l i = some x → num x = some n → n % w = i ∧ 0 ≤ n ∧ n ≤ hi

section Filed

variable {num : α → Option ℤ} {w hi hi' : ℤ} {l : List (Option α)}

theorem Filed.mono (h : Filed num w hi l) (hle : hi ≤ hi') : Filed num w hi' l := by
  intro i x n hx hn
  obtain ⟨hplace, hlow, hhigh⟩ := h i x n hx hn
  exact ⟨hplace, hlow, by omega⟩

theorem Filed.update (h : Filed num w hi l) {i : ℤ} {f : α → α}
    (hf : ∀ x n, num (f x) = some n → n % w = i ∧ 0 ≤ n ∧ n ≤ hi) :
    Filed num w hi (update l i f) := by
  intro j x n hx hn
  rcases slot_update_eq_some hx with ⟨rfl, y, -, rfl⟩ | ⟨-, hx⟩
  · exact hf y n hn
  · exact h j x n hx hn

theorem Filed.unique (h : Filed num w hi l) {i j n : ℤ} {x y : α} (hx : slot l i = some x)
    (hy : slot l j = some y) (hxn : num x = some n) (hyn : num y = some n) : i = j := by
  rw [← (h i x n hx hxn).1, ← (h j y n hy hyn).1]

end Filed

theorem emod_ne_of_lt {a b w : ℤ} (hne : a ≠ b) (h₁ : a - b < w) (h₂ : b - a < w) :
    a % w ≠ b % w := by
  intro h
  have hdvd : w ∣ b - a := Int.ModEq.dvd h
  have hzero := Int.eq_zero_of_abs_lt_dvd hdvd (abs_lt.mpr ⟨by omega, h₂⟩)
  omega

/-- The slots of the `n` numbers from `i` on are updated one after the other. -/
def updateRange (w : ℤ) (f : α → α) : ℕ → ℤ → List (Option α) → List (Option α)
  | 0, _, l => l
  | n + 1, i, l => updateRange w f n (i + 1) (update l (i % w) f)

section UpdateRange

variable {w i j k : ℤ} {n : ℕ} {f : α → α}

@[simp] theorem length_updateRange (l : List (Option α)) :
    (updateRange w f n i l).length = l.length := by
  induction n generalizing i l with
  | zero => rfl
  | succ n ih => rw [updateRange, ih, length_update]

theorem slot_updateRange_kept (l : List (Option α))
    (h : ∀ j, i ≤ j → j < i + n → j % w ≠ k) : slot (updateRange w f n i l) k = slot l k := by
  induction n generalizing i l with
  | zero => rfl
  | succ n ih =>
    rw [updateRange, ih, slot_update_ne]
    · exact h i le_rfl (by push_cast; omega)
    · intro j h₁ h₂
      exact h j (by omega) (by push_cast; omega)

/-- Numbers of one window have different slots, so each of them is updated once. -/
theorem slot_updateRange_passed (l : List (Option α)) (hn : n ≤ w) (h₁ : i ≤ j)
    (h₂ : j < i + n) : slot (updateRange w f n i l) (j % w) = (slot l (j % w)).map f := by
  induction n generalizing i l with
  | zero => omega
  | succ n ih =>
    push_cast at hn h₂
    rw [updateRange]
    by_cases hij : i = j
    · subst hij
      rw [slot_updateRange_kept, slot_update_self]
      intro j' hj' hlt
      exact emod_ne_of_lt (by omega) (by omega) (by omega)
    · have hne : i % w ≠ j % w := emod_ne_of_lt hij (by omega) (by omega)
      rw [ih _ (by omega) (by omega) (by omega), slot_update_ne hne]

end UpdateRange

end Ring
