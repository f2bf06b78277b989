import Rcopy.ClientHandshake

/-!
# Whether the handshake of rcopy ends

Both states count up to nine and give up. But `doFileValidState` does not count a
failed `recvfrom`, and when it gives up it returns `SEND_FILENAME`, where the other
counter starts again.
-/

namespace Rcopy

open Bytes

/-- rcopy has left `SEND_FILENAME` and `FILE_VALID`. -/
def ClientMain.Left (s : ClientMain) : Prop := s.phase = .getData ∨ s.phase = .done

/-- A failed `recvfrom` that `doFileValidState` does not count. -/
def ClientMain.Uncounted (s : ClientMain) (t : ClientTurn) : Prop :=
  (∃ r, s.phase = .awaitValid r) ∧ t.poll = .recvFailed

structure ClientMain.Counting (s : ClientMain) : Prop where
  sends : ∀ n, s.phase = .awaitTalk n → n ≤ 8
  retries : ∀ r, s.phase = .awaitValid r → r ≤ 8

/-- An upper bound on the turns that are left when every turn counts and
`doFileValidState` does not give up. -/
def ClientMain.rank (s : ClientMain) : ℕ :=
  match s.phase with
  | .awaitTalk n => 18 - n
  | .awaitValid r => 9 - r
  | .getData => 0
  | .done => 0

section Turns

variable {params : RcopyParams} {s : ClientMain} {t : ClientTurn}

theorem request_phase (n : ℕ) :
    (s.request params n t).phase = .done ∨ (s.request params n t).phase = .awaitTalk n := by
  simp only [ClientMain.request]
  split_ifs
  · exact Or.inl rfl
  · exact Or.inr rfl

theorem clientTurn_awaitTalk (params : RcopyParams) (t : ClientTurn) {n : ℕ}
    (hphase : s.phase = .awaitTalk n) :
    (clientTurn params s t).phase = .done ∨
    (n + 1 ≤ 8 ∧ (clientTurn params s t).phase = .awaitTalk (n + 1)) ∨
    (clientTurn params s t).phase = .awaitValid 0 := by
  simp only [clientTurn, hphase, sendFilenameTurn]
  cases t.poll with
  | timeout =>
    dsimp only [sendFilenameHead]
    split_ifs with hn
    · rcases request_phase (n + 1) with hdone | htalk
      · exact Or.inl hdone
      · exact Or.inr (Or.inl ⟨by omega, htalk⟩)
    · exact Or.inl rfl
  | recvFailed => exact Or.inl rfl
  | received source d =>
    dsimp only [doFileValidState]
    split_ifs
    · exact Or.inr (Or.inr rfl)
    · exact Or.inl rfl
    · exact Or.inl rfl

theorem clientTurn_uncounted (h : s.Uncounted t) : clientTurn params s t = s := by
  obtain ⟨⟨r, hphase⟩, hpoll⟩ := h
  simp only [clientTurn, hphase, fileValidTurn, hpoll]

theorem clientTurn_awaitValid (params : RcopyParams) {r : ℕ} (hphase : s.phase = .awaitValid r)
    (hpoll : t.poll ≠ .recvFailed) :
    (clientTurn params s t).Left ∨
    (r + 1 < 9 ∧ (clientTurn params s t).phase = .awaitValid (r + 1)) ∨
    (9 ≤ r + 1 ∧ s.Unanswered t.poll ∧ (clientTurn params s t).phase = .awaitTalk 0) := by
  by_cases hnone : s.Unanswered t.poll
  · rw [clientTurn_unanswered hphase hnone, fileValidHead]
    split_ifs with hr
    · exact Or.inr (Or.inl ⟨hr, rfl⟩)
    · rw [doSendFilenameState_eq]
      rcases request_phase 0 with hdone | htalk
      · exact Or.inl (Or.inr hdone)
      · exact Or.inr (Or.inr ⟨by omega, hnone, htalk⟩)
  · simp only [clientTurn, hphase, fileValidTurn]
    cases hp : t.poll with
    | timeout =>
      rw [hp] at hnone
      exact absurd trivial hnone
    | recvFailed => exact absurd hp hpoll
    | received source d =>
      rw [hp] at hnone
      dsimp only
      split_ifs with hvalid hinvalid
      · exact Or.inl (Or.inl rfl)
      · exact Or.inl (Or.inr rfl)
      · exact absurd ⟨hvalid, hinvalid⟩ hnone

theorem clientTurn_left (h : s.Left) : clientTurn params s t = s := by
  rcases h with hphase | hphase <;> simp only [clientTurn, hphase]

theorem ClientMain.Counting.of_phase {s : ClientMain}
    (h : s.Left ∨ (∃ n, n ≤ 8 ∧ s.phase = .awaitTalk n) ∨ ∃ r, r ≤ 8 ∧ s.phase = .awaitValid r) :
    s.Counting := by
  rcases h with (hphase | hphase) | ⟨n, hn, hphase⟩ | ⟨n, hn, hphase⟩ <;>
    constructor <;> intro m hm <;> rw [hphase] at hm <;> cases hm <;> exact hn

theorem ClientMain.Counting.step (h : s.Counting) (t : ClientTurn) :
    (clientTurn params s t).Counting := by
  cases hphase : s.phase with
  | awaitTalk n =>
    apply ClientMain.Counting.of_phase
    rcases clientTurn_awaitTalk params t hphase with hdone | ⟨hn, htalk⟩ | hvalid
    · exact Or.inl (Or.inr hdone)
    · exact Or.inr (Or.inl ⟨n + 1, hn, htalk⟩)
    · exact Or.inr (Or.inr ⟨0, by omega, hvalid⟩)
  | awaitValid r =>
    by_cases hpoll : t.poll = .recvFailed
    · rw [clientTurn_uncounted ⟨⟨r, hphase⟩, hpoll⟩]
      exact h
    · apply ClientMain.Counting.of_phase
      rcases clientTurn_awaitValid params hphase hpoll with
        hleft | ⟨hr, hvalid⟩ | ⟨-, -, htalk⟩
      · exact Or.inl hleft
      · exact Or.inr (Or.inr ⟨r + 1, by omega, hvalid⟩)
      · exact Or.inr (Or.inl ⟨0, by omega, htalk⟩)
  | getData =>
    rw [clientTurn_left (Or.inl hphase)]
    exact h
  | done =>
    rw [clientTurn_left (Or.inr hphase)]
    exact h

theorem ClientMain.Counting.rank_lt (h : s.Counting) (hstay : ¬s.Left)
    (hcount : ¬(s.Uncounted t ∨ s.GivesUp t)) :
    (clientTurn params s t).Left ∨ (clientTurn params s t).rank < s.rank := by
  rw [not_or] at hcount
  obtain ⟨hcounted, hgoesOn⟩ := hcount
  cases hphase : s.phase with
  | awaitTalk n =>
    have hn := h.sends n hphase
    rcases clientTurn_awaitTalk params t hphase with hdone | ⟨-, htalk⟩ | hvalid
    · exact Or.inl (Or.inr hdone)
    · right
      simp only [ClientMain.rank, hphase, htalk]
      omega
    · right
      simp only [ClientMain.rank, hphase, hvalid]
      omega
  | awaitValid r =>
    have hr := h.retries r hphase
    have hpoll : t.poll ≠ .recvFailed := fun hpoll => hcounted ⟨⟨r, hphase⟩, hpoll⟩
    rcases clientTurn_awaitValid params hphase hpoll with
      hleft | ⟨-, hvalid⟩ | ⟨hlast, hnone, -⟩
    · exact Or.inl hleft
    · right
      simp only [ClientMain.rank, hphase, hvalid]
      omega
    · obtain rfl : r = 8 := by omega
      exact absurd ⟨hphase, hnone⟩ hgoesOn
  | getData => exact absurd (Or.inl hphase) hstay
  | done => exact absurd (Or.inr hphase) hstay

end Turns

/-- The handshake ends exactly when only finitely many of its turns are a failed
`recvfrom` in `doFileValidState` or the one in which that function gives up. -/
theorem handshake_ends_iff (params : RcopyParams) (host : BitVec 128) (t : ClientTurn)
    (turns : ℕ → ClientTurn) :
    (∃ n, (Runs.path (clientTurn params) (enterClientMain params host t) turns n).Left) ↔
    ∃ n, ∀ m, n ≤ m →
      ¬((Runs.path (clientTurn params) (enterClientMain params host t) turns m).Uncounted
          (turns m) ∨
        (Runs.path (clientTurn params) (enterClientMain params host t) turns m).GivesUp
          (turns m)) := by
  refine Runs.exists_stop_iff (I := ClientMain.Counting)
    (C := fun s t => s.Uncounted t ∨ s.GivesUp t) ClientMain.rank ?_ ?_ ?_ ?_ ?_
  · apply ClientMain.Counting.of_phase
    rw [enterClientMain, doSendFilenameState_eq]
    rcases request_phase 0 with hdone | htalk
    · exact Or.inl (Or.inr hdone)
    · exact Or.inr (Or.inl ⟨0, by omega, htalk⟩)
  · exact fun s t h => h.step t
  · intro s t h
    rw [clientTurn_left h]
    exact h
  · rintro s t (hphase | hphase) (⟨⟨r, hwait⟩, -⟩ | ⟨hwait, -⟩) <;> rw [hphase] at hwait <;>
      cases hwait
  · exact fun s t h hstay hcount => h.rank_lt hstay hcount

/-- A child server says where to talk, and from then on `recvfrom` fails. -/
def failingTurns : ℕ → ClientTurn
  | 0 => clientTurnOf (.received ⟨0, 5000⟩ (sealHandshake makeTalkHereNowBeforeChecksum))
  | _ + 1 => clientTurnOf .recvFailed

theorem handshake_never_ends :
    ¬ ∀ (params : RcopyParams) (host : BitVec 128) (t : ClientTurn) (turns : ℕ → ClientTurn),
      ∃ n, (Runs.path (clientTurn params) (enterClientMain params host t) turns n).Left := by
  intro h
  obtain ⟨n, hleft⟩ := h (paramsOf digitOne) 0 (clientTurnOf .timeout) failingTurns
  have hstuck : ∀ n, (Runs.path (clientTurn (paramsOf digitOne))
      (enterClientMain (paramsOf digitOne) 0 (clientTurnOf .timeout)) failingTurns (n + 1)).phase =
      .awaitValid 0 := by
    intro n
    induction n with
    | zero => decide +kernel
    | succ n ih =>
      rw [Runs.path, clientTurn_uncounted ⟨⟨0, ih⟩, rfl⟩]
      exact ih
  cases n with
  | zero => exact absurd hleft (by unfold ClientMain.Left; decide +kernel)
  | succ n =>
    rcases hleft with hphase | hphase <;> rw [hstuck n] at hphase <;> cases hphase

end Rcopy
