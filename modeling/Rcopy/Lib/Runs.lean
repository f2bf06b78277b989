import Mathlib.Data.List.Infix
import Mathlib.Order.Basic

/-!
# Runs of a deterministic machine

A machine is a step function that takes a state and an event to the next
state. A run executes a finite list of events. `Always` speaks of every state a
run visits, `EveryStep` of every state together with the event met there,
`SomeStep` of one of them, and `tally` counts them.
The rules below are the only inductions over runs that the later modules use.
-/

namespace Runs

variable {σ τ ε : Type*}

def exec (step : σ → ε → σ) (s : σ) (es : List ε) : σ := es.foldl step s

/-- `P` holds in every state that the run from `s` visits, both ends included. -/
def Always (step : σ → ε → σ) (P : σ → Prop) : σ → List ε → Prop
  | s, [] => P s
  | s, e :: es => P s ∧ Always step P (step s e) es

/-- `C` holds of every state in which the run from `s` takes an event, and that event. -/
def EveryStep (step : σ → ε → σ) (C : σ → ε → Prop) : σ → List ε → Prop
  | _, [] => True
  | s, e :: es => C s e ∧ EveryStep step C (step s e) es

/-- `C` holds of some state in which the run from `s` takes an event, and that event. -/
def SomeStep (step : σ → ε → σ) (C : σ → ε → Prop) : σ → List ε → Prop
  | _, [] => False
  | s, e :: es => C s e ∨ SomeStep step C (step s e) es

/-- The number of steps of the run from `s` that meet `C`. -/
def tally (step : σ → ε → σ) (C : σ → ε → Prop) [∀ s e, Decidable (C s e)] : σ → List ε → ℕ
  | _, [] => 0
  | s, e :: es => (if C s e then 1 else 0) + tally step C (step s e) es

variable {step : σ → ε → σ} {s : σ} {es : List ε} {P Q I : σ → Prop} {C D : σ → ε → Prop}

@[simp] theorem exec_nil : exec step s [] = s := rfl

@[simp] theorem exec_cons (e : ε) : exec step s (e :: es) = exec step (step s e) es := rfl

theorem exec_append (es' : List ε) :
    exec step s (es ++ es') = exec step (exec step s es) es' := List.foldl_append

theorem exec_concat (e : ε) : exec step s (es ++ [e]) = step (exec step s es) e := exec_append [e]

theorem tally_append [∀ s e, Decidable (C s e)] (es' : List ε) :
    tally step C s (es ++ es') = tally step C s es + tally step C (exec step s es) es' := by
  induction es generalizing s with
  | nil => exact (Nat.zero_add _).symm
  | cons e es ih =>
    simp only [List.cons_append, tally, exec_cons, ih]
    omega

instance Always.decidable [DecidablePred P] : ∀ s es, Decidable (Always step P s es)
  | s, [] => inferInstanceAs (Decidable (P s))
  | s, e :: es =>
    have := Always.decidable (step s e) es
    inferInstanceAs (Decidable (P s ∧ Always step P (step s e) es))

instance EveryStep.decidable [∀ s e, Decidable (C s e)] :
    ∀ s es, Decidable (EveryStep step C s es)
  | _, [] => inferInstanceAs (Decidable True)
  | s, e :: es =>
    have := EveryStep.decidable (step s e) es
    inferInstanceAs (Decidable (C s e ∧ EveryStep step C (step s e) es))

theorem Always.head (h : Always step P s es) : P s := by
  cases es with
  | nil => exact h
  | cons e es => exact h.1

theorem Always.last (h : Always step P s es) : P (exec step s es) := by
  induction es generalizing s with
  | nil => exact h
  | cons e es ih => exact ih h.2

theorem Always.mono (hPQ : ∀ s, P s → Q s) (h : Always step P s es) : Always step Q s es := by
  induction es generalizing s with
  | nil => exact hPQ s h
  | cons e es ih => exact ⟨hPQ s h.1, ih h.2⟩

theorem Always.mono₂ (h : ∀ s, P s → Q s → I s) (hP : Always step P s es)
    (hQ : Always step Q s es) : Always step I s es := by
  induction es generalizing s with
  | nil => exact h s hP hQ
  | cons e es ih => exact ⟨h s hP.1 hQ.1, ih hP.2 hQ.2⟩

theorem everyStep_of_forall {E : ε → Prop} (hE : ∀ e ∈ es, E e) (h : ∀ s e, E e → C s e) :
    EveryStep step C s es := by
  induction es generalizing s with
  | nil => trivial
  | cons e es ih =>
    rw [List.forall_mem_cons] at hE
    exact ⟨h s e hE.1, ih hE.2⟩

/-- The invariant rule: what one step preserves, under a condition that every
step of the run meets, holds in every state visited. -/
theorem always_of_keep (keep : ∀ s e, I s → C s e → I (step s e)) (hs : I s)
    (hC : EveryStep step C s es) : Always step I s es := by
  induction es generalizing s with
  | nil => exact hs
  | cons e es ih => exact ⟨hs, ih (keep s e hs hC.1) hC.2⟩

theorem always_of_step (keep : ∀ s e, I s → I (step s e)) (hs : I s) : Always step I s es := by
  induction es generalizing s with
  | nil => exact hs
  | cons e es ih => exact ⟨hs, ih (keep s e hs)⟩

theorem exec_of_keep (keep : ∀ s e, I s → I (step s e)) (hs : I s) : I (exec step s es) :=
  (always_of_step keep hs).last

theorem always_of_guard {G : σ → Prop} (keep : ∀ s e, G s → I s → I (step s e)) (hs : I s)
    (hG : Always step G s es) : Always step I s es := by
  induction es generalizing s with
  | nil => exact hs
  | cons e es ih => exact ⟨hs, ih (keep s e hG.1 hs) hG.2⟩

theorem everyStep_of_guard {G : σ → Prop} (keep : ∀ s e, G s → I s → I (step s e))
    (now : ∀ s e, G s → G (step s e) → I s → C s e) (hs : I s) (hG : Always step G s es) :
    EveryStep step C s es := by
  induction es generalizing s with
  | nil => trivial
  | cons e es ih => exact ⟨now s e hG.1 hG.2.head hs, ih (keep s e hG.1 hs) hG.2⟩

/-- The exact-condition rule. When the invariant survives every step that meets
`C`, gives `P`, and `P` fails right after a step that misses `C`, then a run
keeps `P` throughout exactly when all its steps meet `C`. `G` is what the steps
of the run are known to meet. -/
theorem always_iff_everyStep_of_guard {G : σ → ε → Prop} (hG : EveryStep step G s es) (hs : I s)
    (good : ∀ s, I s → P s) (keep : ∀ s e, G s e → I s → C s e → I (step s e))
    (bad : ∀ s e, G s e → I s → ¬C s e → ¬P (step s e)) :
    Always step P s es ↔ EveryStep step C s es := by
  induction es generalizing s with
  | nil => exact ⟨fun _ => trivial, fun _ => good s hs⟩
  | cons e es ih =>
    by_cases hC : C s e
    · have hrest := ih hG.2 (keep s e hG.1 hs hC)
      exact ⟨fun h => ⟨hC, hrest.mp h.2⟩, fun h => ⟨good s hs, hrest.mpr h.2⟩⟩
    · exact ⟨fun h => absurd h.2.head (bad s e hG.1 hs hC), fun h => absurd h.1 hC⟩

theorem always_iff_everyStep_of_events {E : ε → Prop} (hE : ∀ e ∈ es, E e) (hs : I s)
    (good : ∀ s, I s → P s) (keep : ∀ s e, E e → I s → C s e → I (step s e))
    (bad : ∀ s e, E e → I s → ¬C s e → ¬P (step s e)) :
    Always step P s es ↔ EveryStep step C s es :=
  always_iff_everyStep_of_guard (everyStep_of_forall hE fun _ _ h => h) hs good keep bad

theorem always_iff_everyStep (hs : I s) (good : ∀ s, I s → P s)
    (keep : ∀ s e, I s → C s e → I (step s e)) (bad : ∀ s e, I s → ¬C s e → ¬P (step s e)) :
    Always step P s es ↔ EveryStep step C s es :=
  always_iff_everyStep_of_events (E := fun _ => True) (fun _ _ => trivial) hs good
    (fun s e _ => keep s e) (fun s e _ => bad s e)

/-- Two conditions that agree wherever the invariant holds agree on a whole run,
when the steps that meet them keep the invariant. -/
theorem everyStep_congr (hs : I s) (same : ∀ s e, I s → (C s e ↔ D s e))
    (keep : ∀ s e, I s → D s e → I (step s e)) :
    EveryStep step C s es ↔ EveryStep step D s es := by
  induction es generalizing s with
  | nil => exact Iff.rfl
  | cons e es ih =>
    constructor
    · rintro ⟨hC, hrest⟩
      have hD := (same s e hs).mp hC
      exact ⟨hD, (ih (keep s e hs hD)).mp hrest⟩
    · rintro ⟨hD, hrest⟩
      exact ⟨(same s e hs).mpr hD, (ih (keep s e hs hD)).mpr hrest⟩

theorem EveryStep.concat {e : ε} (h : EveryStep step C s (es ++ [e])) : C (exec step s es) e := by
  induction es generalizing s with
  | nil => exact h.1
  | cons e' es ih => exact ih h.2

/-- What is lost for good when it is lost has held all along if it holds at the end. -/
theorem always_of_last (lost : ∀ s e, ¬P s → ¬P (step s e)) (h : P (exec step s es)) :
    Always step P s es := by
  induction es generalizing s with
  | nil => exact h
  | cons e es ih =>
    have hrest := ih h
    refine ⟨?_, hrest⟩
    by_contra hs
    exact lost s e hs hrest.head

/-- What fails at the start and holds at the end became true at some step. -/
theorem someStep_of_became (hI : Always step I s es) (hs : ¬P s) (h : P (exec step s es))
    (now : ∀ s e, I s → ¬P s → P (step s e) → C s e) : SomeStep step C s es := by
  induction es generalizing s with
  | nil => exact absurd h hs
  | cons e es ih =>
    by_cases hnext : P (step s e)
    · exact Or.inl (now s e hI.1 hs hnext)
    · exact Or.inr (ih hI.2 hnext h)

/-- A run either meets `C` at every step, or ends where a step that misses `C` leads
and no step leads out. -/
theorem everyStep_or_exec {J : σ → Prop} (keep : ∀ s e, I s → C s e → I (step s e))
    (miss : ∀ s e, I s → ¬C s e → J (step s e)) (stuck : ∀ s e, J s → J (step s e)) (hs : I s) :
    EveryStep step C s es ∨ J (exec step s es) := by
  induction es generalizing s with
  | nil => exact Or.inl trivial
  | cons e es ih =>
    by_cases hC : C s e
    · rcases ih (keep s e hs hC) with hevery | hJ
      · exact Or.inl ⟨hC, hevery⟩
      · exact Or.inr hJ
    · have hJ : J (exec step (step s e) es) := exec_of_keep stuck (miss s e hs hC)
      exact Or.inr hJ

/-- The progress rule. When no step raises the rank and the steps that meet `C` lower
it, as long as the run meets `D`, the rank has gone down by as many of these as there
are, or to zero. -/
theorem rank_exec_le [∀ s e, Decidable (C s e)] {rank : σ → ℕ}
    (keep : ∀ s e, I s → D s e → I (step s e))
    (stay : ∀ s e, I s → D s e → rank (step s e) ≤ rank s)
    (down : ∀ s e, I s → D s e → C s e → rank (step s e) ≤ rank s - 1) (hs : I s)
    (hD : EveryStep step D s es) : rank (exec step s es) ≤ rank s - tally step C s es := by
  induction es generalizing s with
  | nil => exact Nat.le_refl _
  | cons e es ih =>
    have hrest := ih (keep s e hs hD.1) hD.2
    have hstay := stay s e hs hD.1
    simp only [exec_cons, tally]
    split_ifs with hC
    · have hdown := down s e hs hD.1 hC
      omega
    · omega

/-- The simulation rule. When every step of one machine on an event that meets `E` is
matched by steps of another on events that meet `D`, every run is. -/
theorem exists_exec_of_simulates_events {δ : Type*} {step' : τ → δ → τ} {R : σ → τ → Prop}
    {E : ε → Prop} {D : δ → Prop}
    (sim : ∀ s t e, E e → R s t → ∃ ds, (∀ d ∈ ds, D d) ∧ R (step s e) (exec step' t ds)) {t : τ}
    (hE : ∀ e ∈ es, E e) (h : R s t) :
    ∃ ds, (∀ d ∈ ds, D d) ∧ R (exec step s es) (exec step' t ds) := by
  induction es generalizing s t with
  | nil => exact ⟨[], fun _ hd => absurd hd List.not_mem_nil, h⟩
  | cons e es ih =>
    rw [List.forall_mem_cons] at hE
    obtain ⟨ds, hds, hstep⟩ := sim s t e hE.1 h
    obtain ⟨ds', hds', hrest⟩ := ih hE.2 hstep
    refine ⟨ds ++ ds', ?_, ?_⟩
    · intro d hd
      exact (List.mem_append.mp hd).elim (hds d) (hds' d)
    · rw [exec_append]
      exact hrest

theorem exists_exec_of_simulates {δ : Type*} {step' : τ → δ → τ} {R : σ → τ → Prop}
    (sim : ∀ s t e, R s t → ∃ ds, R (step s e) (exec step' t ds)) {t : τ} (h : R s t) :
    ∃ ds, R (exec step s es) (exec step' t ds) := by
  obtain ⟨ds, -, hrun⟩ := exists_exec_of_simulates_events (E := fun _ => True) (D := fun _ => True)
    (fun s t e _ hR => (sim s t e hR).imp fun _ hds => ⟨fun _ _ => trivial, hds⟩)
    (fun _ _ => trivial) h
  exact ⟨ds, hrun⟩

/-! ## Runs that do not end -/

/-- The states that an infinite sequence of events leads through. -/
def path (step : σ → ε → σ) (s : σ) (f : ℕ → ε) : ℕ → σ
  | 0 => s
  | n + 1 => step (path step s f n) (f n)

variable {f : ℕ → ε}

/-- An infinite run is its first step and the run on the events after it. -/
theorem path_succ (step : σ → ε → σ) (s : σ) (f : ℕ → ε) (n : ℕ) :
    path step s f (n + 1) = path step (step s (f 0)) (fun k => f (k + 1)) n := by
  induction n with
  | zero => rfl
  | succ n ih => exact congrArg (fun s => step s (f (n + 1))) ih

theorem path_of_keep (keep : ∀ s e, I s → I (step s e)) (hs : I s) (n : ℕ) :
    I (path step s f n) := by
  induction n with
  | zero => exact hs
  | succ n ih => exact keep _ _ ih

theorem path_add_of_keep {n : ℕ} (keep : ∀ s e, I s → I (step s e)) (h : I (path step s f n))
    (k : ℕ) : I (path step s f (n + k)) := by
  induction k with
  | zero => exact h
  | succ k ih => exact keep _ _ ih

/-- As long as the run neither stops nor meets `C`, each step takes one off the rank. -/
theorem path_rank_add_le {rank : σ → ℕ} {n : ℕ} (hI : ∀ k, I (path step s f k))
    (down : ∀ s e, I s → ¬P s → ¬C s e → P (step s e) ∨ rank (step s e) < rank s)
    (hC : ∀ m, n ≤ m → ¬C (path step s f m) (f m)) (hP : ∀ m, n ≤ m → ¬P (path step s f m))
    (k : ℕ) : rank (path step s f (n + k)) + k ≤ rank (path step s f n) := by
  induction k with
  | zero => exact Nat.le_refl _
  | succ k ih =>
    have hstep := (down _ (f (n + k)) (hI _) (hP _ (Nat.le_add_right n k))
      (hC _ (Nat.le_add_right n k))).resolve_left (hP _ (Nat.le_add_right n (k + 1)))
    have hnext : path step s f (n + (k + 1)) = step (path step s f (n + k)) (f (n + k)) := rfl
    rw [hnext]
    omega

/-- The termination rule. When a step lowers the rank or stops the machine unless it
meets `C`, and nothing happens after the stop, an infinite sequence of events stops
the machine exactly when only finitely many of its steps meet `C`. -/
theorem exists_stop_iff (rank : σ → ℕ) (hs : I s) (keep : ∀ s e, I s → I (step s e))
    (stay : ∀ s e, P s → P (step s e)) (idle : ∀ s e, P s → ¬C s e)
    (down : ∀ s e, I s → ¬P s → ¬C s e → P (step s e) ∨ rank (step s e) < rank s) :
    (∃ n, P (path step s f n)) ↔ ∃ n, ∀ m, n ≤ m → ¬C (path step s f m) (f m) := by
  constructor
  · rintro ⟨n, hn⟩
    refine ⟨n, ?_⟩
    intro m hm
    obtain ⟨k, rfl⟩ := Nat.exists_eq_add_of_le hm
    exact idle _ _ (path_add_of_keep stay hn k)
  · rintro ⟨n, hC⟩
    by_contra hnone
    rw [not_exists] at hnone
    have hrank := path_rank_add_le (path_of_keep keep hs) down hC (fun m _ => hnone m)
      (rank (path step s f n) + 1)
    omega

end Runs
