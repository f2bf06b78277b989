import Mathlib.Data.List.Dedup
import Mathlib.Data.List.Perm.Basic

/-!
# Folds that see only the set of their inputs

A left fold whose steps commute and absorb repetitions, on the states that an
invariant admits, depends on the set of the list's elements alone. The order of
the elements and how often each occurs make no difference.
-/

namespace CommutingFold

variable {α β : Type*} {f : β → α → β} {I : β → Prop} {S : α → Prop}

structure Absorbing (f : β → α → β) (I : β → Prop) (S : α → Prop) : Prop where
  keep : ∀ b x, I b → S x → I (f b x)
  comm : ∀ b x y, I b → S x → S y → f (f b x) y = f (f b y) x
  idem : ∀ b x, I b → S x → f (f b x) x = f b x

theorem Absorbing.foldl_perm (h : Absorbing f I S) {l₁ l₂ : List α} (hp : l₁.Perm l₂)
    (hl : ∀ x ∈ l₁, S x) {b : β} (hb : I b) : l₁.foldl f b = l₂.foldl f b := by
  induction hp generalizing b with
  | nil => rfl
  | cons x _ ih =>
    rw [List.forall_mem_cons] at hl
    exact ih hl.2 (h.keep b x hb hl.1)
  | swap x y l =>
    simp only [List.forall_mem_cons] at hl
    simp only [List.foldl_cons, h.comm b y x hb hl.1 hl.2.1]
  | trans hp _ ih₁ ih₂ =>
    rw [ih₁ hl hb, ih₂ (fun x hx => hl x (hp.mem_iff.mpr hx)) hb]

theorem Absorbing.foldl_cons_mem (h : Absorbing f I S) {l : List α} (hl : ∀ x ∈ l, S x) {b : β}
    (hb : I b) {x : α} (hx : x ∈ l) : l.foldl f (f b x) = l.foldl f b := by
  induction l generalizing b with
  | nil => exact absurd hx List.not_mem_nil
  | cons y l ih =>
    rw [List.forall_mem_cons] at hl
    simp only [List.foldl_cons]
    rcases List.mem_cons.mp hx with rfl | hx
    · rw [h.idem b x hb hl.1]
    · rw [h.comm b x y hb (hl.2 x hx) hl.1, ih hl.2 (h.keep b y hb hl.1) hx]

theorem Absorbing.foldl_dedup [DecidableEq α] (h : Absorbing f I S) {l : List α}
    (hl : ∀ x ∈ l, S x) {b : β} (hb : I b) : l.dedup.foldl f b = l.foldl f b := by
  induction l generalizing b with
  | nil => rfl
  | cons x l ih =>
    rw [List.forall_mem_cons] at hl
    by_cases hx : x ∈ l
    · rw [List.dedup_cons_of_mem hx, ih hl.2 hb, List.foldl_cons, h.foldl_cons_mem hl.2 hb hx]
    · rw [List.dedup_cons_of_notMem hx, List.foldl_cons, List.foldl_cons,
        ih hl.2 (h.keep b x hb hl.1)]

/-- Two lists with the same elements fold to the same result. -/
theorem Absorbing.foldl_eq [DecidableEq α] (h : Absorbing f I S) {l₁ l₂ : List α}
    (hmem : ∀ x, x ∈ l₁ ↔ x ∈ l₂) (hl : ∀ x ∈ l₁, S x) {b : β} (hb : I b) :
    l₁.foldl f b = l₂.foldl f b := by
  have hl₂ : ∀ x ∈ l₂, S x := fun x hx => hl x ((hmem x).mpr hx)
  have hp : l₁.dedup.Perm l₂.dedup := by
    rw [List.perm_ext_iff_of_nodup l₁.nodup_dedup l₂.nodup_dedup]
    simpa only [List.mem_dedup] using hmem
  calc
    l₁.foldl f b = l₁.dedup.foldl f b := (h.foldl_dedup hl hb).symm
    _ = l₂.dedup.foldl f b := h.foldl_perm hp (fun x hx => hl x (List.mem_dedup.mp hx)) hb
    _ = l₂.foldl f b := h.foldl_dedup hl₂ hb

end CommutingFold
