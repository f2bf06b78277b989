import Rcopy.LastControl

/-!
# When the receive loop ends

The reasons to leave `doGetDataState` are recorded beside its loop: an EOF packet,
a receive that fails, a tenth timeout in a row, a handler that has given up. So
are the sub-states handed to `handleDataPacket`.
-/

namespace Rcopy

open Bytes

/-- What makes the handler of the sub-state return `DONE`. -/
def GivesUp (c : Client) (st : ReceiveState) (rb : ReceiverBuffer) (buffer : List UInt8)
    (attempts : ℕ → Attempt) : Prop :=
  ¬seqOf buffer < toU32 rb.expected ∧
    ((st = .inOrder ∧ seqOf buffer = toU32 rb.expected ∧
        ∀ k < 9, (∀ j ≤ k, (attempts j).sent < 0) →
          (attempts k).brings c (toU32 (i32 (rb.expected + 1))) = false) ∨
      (st = .buffering ∧ ∀ k < 10, (attempts k).brings c (toU32 rb.expected) = false))

section Handlers

variable {c : Client} {attempts : ℕ → Attempt}

theorem resendRR_done_iff (pdu : List UInt8) (n i : ℕ) (r : Receiver) :
    (resendRR c pdu attempts n i r).1 = .done ↔
      ∀ k < n, (∀ j ≤ k, (attempts (i + j)).sent < 0) →
        (attempts (i + k)).brings c (toU32 r.rbuf.expected) = false := by
  induction n generalizing i r with
  | zero => simp [resendRR]
  | succ n ih =>
    simp only [resendRR]
    split_ifs with hsent hbrings
    · simp only [true_iff]
      intro k _ hfail
      have hfirst := hfail 0 (Nat.zero_le k)
      rw [Nat.add_zero] at hfirst
      omega
    · simp only [false_iff, not_forall]
      refine ⟨0, Nat.succ_pos n, ?_, by simp [hbrings]⟩
      intro j hj
      obtain rfl := Nat.le_zero.mp hj
      exact not_le.mp hsent
    · rw [ih]
      constructor
      · intro h k hk hfail
        cases k with
        | zero => exact Bool.eq_false_of_not_eq_true hbrings
        | succ k =>
          have hrest := h k (by omega) fun j hj => by
            have := hfail (j + 1) (by omega)
            rwa [show i + (j + 1) = i + 1 + j by omega] at this
          rwa [show i + (k + 1) = i + 1 + k by omega]
      · intro h k hk hfail
        have hrest := h (k + 1) (by omega) fun j hj => by
          cases j with
          | zero => exact not_le.mp hsent
          | succ j =>
            rw [show i + (j + 1) = i + 1 + j by omega]
            exact hfail j (by omega)
        rwa [show i + (k + 1) = i + 1 + k by omega] at hrest

theorem resendSREJ_done_iff (seq : UInt32) (n i : ℕ) (r : Receiver) :
    (resendSREJ c seq attempts n i r).1 = .done ↔
      ∀ k < n, (attempts (i + k)).brings c seq = false := by
  induction n generalizing i r with
  | zero => simp [resendSREJ]
  | succ n ih =>
    simp only [resendSREJ]
    split_ifs with hbrings
    · simp only [false_iff, not_forall]
      exact ⟨0, Nat.succ_pos n, by simp [hbrings]⟩
    · rw [ih, Nat.forall_lt_succ_left]
      simp [hbrings, Nat.add_assoc, Nat.add_comm 1]

theorem doBufferState_done_iff (r : Receiver) (buffer : List UInt8) :
    (doBufferState c r buffer attempts).1 = .done ↔
      ∀ k < 10, (attempts k).brings c (toU32 r.rbuf.expected) = false := by
  simp only [doBufferState, resendSREJ_done_iff, Nat.zero_add]

theorem handleDataPacket_done_iff {st : ReceiveState} (hst : st ≠ .done) (r : Receiver)
    (buffer : List UInt8) :
    (handleDataPacket c st r buffer attempts).1 = .done ↔
      GivesUp c st r.rbuf buffer attempts := by
  unfold handleDataPacket GivesUp
  by_cases hold : seqOf buffer < toU32 r.rbuf.expected
  · simp [hold, hst]
  · rw [if_neg hold]
    cases st with
    | inOrder =>
      by_cases hseq : seqOf buffer = toU32 r.rbuf.expected
      · simp only [doInOrderState, if_pos hseq, resendRR_done_iff, Nat.zero_add]
        simp [hseq]
      · simp only [doInOrderState, if_neg hseq]
        split_ifs <;> simp [hseq]
    | buffering =>
      simp only [doBufferState_done_iff]
      simp [hold]
    | flushing =>
      simp only [doFlushingState]
      split_ifs <;> simp
    | done => exact absurd rfl hst

end Handlers

/-- The receive loop with what has happened in it. -/
structure Watched where
  loop : GetData
  timeouts : ℕ
  reason : Bool
  passed : List ReceiveState

def enterWatched (c : Client) (raw : ReceiverBuffer) : Watched where
  loop := enterGetData c raw
  timeouts := 0
  reason := false
  passed := []

def watchTurn (c : Client) (w : Watched) (t : Turn) : Watched :=
  let loop := receiveTurn c w.loop t
  if w.loop.exit ≠ none then w
  else if 0 < t.poll then
    match t.recv with
    | none => { w with loop := loop, timeouts := 0, reason := true }
    | some d =>
      if d = [] then { w with loop := loop, timeouts := 0, reason := true }
      else
        let handled :=
          handleDataPacket c w.loop.subState w.loop.receiver (t.received c d) t.attempts
        { loop := loop
          timeouts := 0
          reason := w.reason || handled.1 = .done || flagOf (t.received c d) = 10
          passed := w.passed ++ [w.loop.subState] }
  else
    { w with
      loop := loop
      timeouts := w.timeouts + 1
      reason := w.reason || 9 < w.timeouts + 1 }

/-- The loop has ended if and only if there was a reason, and no datagram was handled
after a handler had given up. -/
def EndsForReason (w : Watched) : Prop :=
  (w.loop.exit ≠ none ↔ w.reason = true) ∧ .done ∉ w.passed

instance : DecidablePred EndsForReason := fun _ => inferInstanceAs (Decidable (_ ∧ _))

/-- No poll of the loop times out, and no handler gives up while the loop goes on. -/
def Undisturbed (c : Client) (w : Watched) (t : Turn) : Prop :=
  w.loop.exit = none →
    0 < t.poll ∧ ∀ d, Receives c w.loop t d →
      ¬GivesUp c w.loop.subState w.loop.receiver.rbuf (t.received c d) t.attempts

/-- A loop that goes on has had no timeout, and its handlers have not given up. -/
structure Watched.Regular (w : Watched) : Prop where
  ends : EndsForReason w
  subState : w.loop.exit = none → w.loop.subState ≠ .done
  timeouts : w.loop.exit = none → w.timeouts = 0

section Turns

variable {c : Client} {w : Watched} {t : Turn}

theorem watchTurn_receives {d : List UInt8} (h : Receives c w.loop t d) :
    watchTurn c w t =
      let handled := handleDataPacket c w.loop.subState w.loop.receiver (t.received c d) t.attempts
      { loop := { w.loop with subState := handled.1, receiver := handled.2 }
        timeouts := 0
        reason := w.reason || handled.1 = .done
        passed := w.passed ++ [w.loop.subState] } := by
  simp only [watchTurn, h.exit, ne_eq, not_true_eq_false, if_false, if_pos h.poll, h.recv,
    if_neg h.nonempty, receiveTurn_receives h]
  simp [h.goesOn]

theorem watchTurn_ended (h : w.loop.exit ≠ none) : watchTurn c w t = w := by
  simp only [watchTurn, if_pos h]

theorem watchTurn_stops (hexit : w.loop.exit = none) (hpoll : 0 < t.poll)
    (hnone : ∀ d, ¬Receives c w.loop t d) :
    (watchTurn c w t).loop.exit ≠ none ∧ (watchTurn c w t).reason = true ∧
      ∀ st ∈ (watchTurn c w t).passed, st ∈ w.passed ∨ st = w.loop.subState := by
  have hends : (receiveTurn c w.loop t).exit ≠ none := by
    intro h
    obtain ⟨d, hd⟩ := receives_of_exit h
    exact hnone d hd
  have hold : ∀ st ∈ w.passed, st ∈ w.passed ∨ st = w.loop.subState := fun st hst => Or.inl hst
  simp only [watchTurn, hexit, ne_eq, not_true_eq_false, if_false, if_pos hpoll]
  cases hrecv : t.recv with
  | none => exact ⟨hends, rfl, hold⟩
  | some d =>
    by_cases hd : d = []
    · simp only [if_pos hd]
      exact ⟨hends, trivial, hold⟩
    · have heof : flagOf (t.received c d) = 10 := by
        by_contra hflag
        exact hnone d ⟨hexit, hpoll, hrecv, hd, hflag⟩
      simp only [if_neg hd]
      refine ⟨hends, by simp [heof], ?_⟩
      intro st hst
      simpa using hst

theorem watchTurn_timeout (hexit : w.loop.exit = none) (hpoll : ¬0 < t.poll) :
    (watchTurn c w t).loop.exit ≠ none ∧
      (watchTurn c w t).reason = (w.reason || 9 < w.timeouts + 1) := by
  simp only [watchTurn, receiveTurn, hexit, ne_eq, not_true_eq_false, if_false, if_neg hpoll]
  refine ⟨?_, trivial⟩
  split_ifs <;> simp

theorem Watched.Regular.no_reason (h : w.Regular) (hexit : w.loop.exit = none) :
    w.reason = false := by
  have hnot := h.ends.1.not
  simpa [hexit] using hnot

theorem Watched.Regular.step (h : w.Regular) (hgood : Undisturbed c w t) :
    (watchTurn c w t).Regular := by
  by_cases hexit : w.loop.exit = none
  · obtain ⟨hpoll, hkeeps⟩ := hgood hexit
    have hsub := h.subState hexit
    have hpassed : ∀ st, st ∈ w.passed ∨ st = w.loop.subState → st ≠ .done := by
      rintro st (hst | hst) rfl
      · exact h.ends.2 hst
      · exact hsub hst.symm
    by_cases hreceives : ∃ d, Receives c w.loop t d
    · obtain ⟨d, hd⟩ := hreceives
      have hhandled := (handleDataPacket_done_iff hsub w.loop.receiver (t.received c d)).not.mpr
        (hkeeps d hd)
      have hreason := h.no_reason hexit
      rw [watchTurn_receives hd]
      refine ⟨⟨by simp [hexit, hreason, hhandled], ?_⟩, fun _ => hhandled, fun _ => rfl⟩
      intro hmem
      exact hpassed .done (by simpa using hmem) rfl
    · obtain ⟨hends, hreason, hmem⟩ := watchTurn_stops hexit hpoll (not_exists.mp hreceives)
      refine ⟨⟨by simp [hends, hreason], ?_⟩, fun hnone => absurd hnone hends,
        fun hnone => absurd hnone hends⟩
      intro hdone
      exact hpassed .done (hmem .done hdone) rfl
  · rw [watchTurn_ended hexit]
    exact h

theorem Watched.Regular.not_ends (h : w.Regular) (hbad : ¬Undisturbed c w t) :
    ¬EndsForReason (watchTurn c w t) := by
  simp only [Undisturbed, not_forall] at hbad
  obtain ⟨hexit, hbad⟩ := hbad
  have hreason := h.no_reason hexit
  rintro ⟨hiff, -⟩
  by_cases hpoll : 0 < t.poll
  · simp only [hpoll, true_and, not_forall, not_not] at hbad
    obtain ⟨d, hd, hgives⟩ := hbad
    have hhandled := (handleDataPacket_done_iff (h.subState hexit) w.loop.receiver
      (t.received c d)).mpr hgives
    rw [watchTurn_receives hd] at hiff
    simp [hexit, hhandled] at hiff
  · obtain ⟨hends, htimeout⟩ := watchTurn_timeout (c := c) hexit hpoll
    have hten := hiff.mp hends
    rw [htimeout, hreason, h.timeouts hexit] at hten
    simp at hten

end Turns

/-- The receive loop ends only for a reason exactly when it meets no timeout and no
handler gives up. -/
theorem ends_for_reason_iff (c : Client) (raw : ReceiverBuffer) (turns : List Turn) :
    Runs.Always (watchTurn c) EndsForReason (enterWatched c raw) turns ↔
      Runs.EveryStep (watchTurn c) (Undisturbed c) (enterWatched c raw) turns := by
  apply Runs.always_iff_everyStep (I := Watched.Regular)
  · refine ⟨⟨?_, List.not_mem_nil⟩, fun _ => ?_, fun _ => rfl⟩
    · simp [enterWatched, enterGetData]
    · simp [enterWatched, enterGetData]
  · exact fun w h => h.ends
  · exact fun w t h hgood => h.step hgood
  · exact fun w t h hbad => h.not_ends hbad

theorem ended_at_first_timeout :
    ¬Runs.Always (watchTurn ⟨3, 2, 1⟩) EndsForReason (enterWatched ⟨3, 2, 1⟩ freshBuffer)
      [{ promptTurn 0 with poll := -1 }] := by
  decide +kernel

end Rcopy
