import Mathlib.Init

/-!
# Outcomes of computations that can fail

`Meets E P x` says that the error of `x` has the property `E`, if it ends in one,
and that its result has the property `P` otherwise. A sequence of computations is
treated one after the other, with `P` handed on to the next.
-/

namespace Outcome

universe u v

variable {ε : Type u} {α β : Type v} {E : ε → Prop} {P : α → Prop} {Q : β → Prop}

def Meets (E : ε → Prop) (P : α → Prop) : Except ε α → Prop
  | .error e => E e
  | .ok a => P a

instance [DecidablePred E] [DecidablePred P] : DecidablePred (Meets E P : Except ε α → Prop)
  | .error e => inferInstanceAs (Decidable (E e))
  | .ok a => inferInstanceAs (Decidable (P a))

theorem meets_ok {a : α} (h : P a) : Meets E P (.ok a) := h

theorem meets_error {e : ε} (h : E e) : Meets E P (.error e) := h

theorem ok_bind (a : α) (f : α → Except ε β) : (Except.ok a >>= f) = f a := rfl

theorem Meets.bind {x : Except ε α} {f : α → Except ε β} (hx : Meets E P x)
    (hf : ∀ a, P a → Meets E Q (f a)) : Meets E Q (x >>= f) := by
  cases x with
  | error e => exact hx
  | ok a => exact hf a hx

end Outcome
