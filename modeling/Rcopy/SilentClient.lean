import Rcopy.Send

/-!
# A client that has gone away

From some state of `doSendDataState` on every poll times out. The loop that waits
at a closed window sends the same packet again for ever, since nothing in it sets
`doneSending`. What remains are the ways out of the fill loop: the end of the file
and a send that fails.
-/

namespace Rcopy

/-- From the state on, with a silent client, the function returns: it has returned,
or the file ends or a send fails while the window is open. -/
def SendData.EndsSilently (p : Session) (s : SendData) (f : ℕ → SendTurn) : Prop :=
  (∃ state, s.phase = .returned state) ∨
    (s.Running ∧ canSendMorePackets s.window = true ∧
      (s.file = [] ∨ (s.phase = .fill ∧ s.window.lower = 0 ∧
        ∃ i : ℕ, (s.dataSequenceNumber.toNat : Int) + i ≤ s.window.windowSize ∧
          (s.file.length ≤ i * p.bufferSize.toNat ∨ (f i).sent < 0))))

section Silence

variable {p : Session} {w : Int} {s : SendData} {t : SendTurn} {f : ℕ → SendTurn}

/-- A timeout at a closed window changes neither the window nor the loop. -/
theorem sendTurn_wait_closed (hs : Sending p w s) (hphase : s.phase = .wait)
    (hclosed : canSendMorePackets s.window = false) (hpoll : ¬0 < t.poll) :
    (sendTurn p s t).window = s.window ∧ (sendTurn p s t).phase = .wait := by
  rw [sendTurn_wait_timeout hphase hclosed hpoll]
  simp only [timeoutTurn]
  rcases findUnacked_spec hs.window (s.window.upper - s.window.lower + 1).toNat
      hs.window.lower_nonneg with hnone | ⟨seq, index, q, hsome, -⟩
  · simp only [hnone]
    exact ⟨trivial, hphase⟩
  · simp only [hsome]
    exact ⟨rfl, hphase⟩

theorem sendTurn_eof (hphase : s.phase = .fill) (hopen : canSendMorePackets s.window = true)
    (hfile : s.file = []) : (sendTurn p s t).phase = .returned .waitOnEofAck := by
  rw [sendTurn_fill_open hphase hopen, fillTurn_eof (by rw [hfile, List.take_nil])]

theorem take_ne_nil (hb : 1 ≤ p.bufferSize.toNat) (hfile : s.file ≠ []) :
    s.file.take p.bufferSize.toNat ≠ [] := by
  rw [Ne, List.take_eq_nil_iff, not_or]
  exact ⟨by omega, hfile⟩

theorem Sending.open_in_fill (hs : Sending p w s) (hphase : s.phase ≠ .fill)
    (hopen : canSendMorePackets s.window = true) : s.window.lower ≠ 0 := by
  intro hlower
  have hnum := hs.number_eq hphase
  have hle := (hs.open_of_lower_zero hlower).mp hopen
  omega

/-- The file ends, or a send fails, while the fill loop has numbers left in the window. -/
theorem returned_of_fill (hb : 1 ≤ p.bufferSize.toNat) (i : ℕ) (hs : Sending p w s)
    (hphase : s.phase = .fill) (hlower : s.window.lower = 0)
    (hroom : (s.dataSequenceNumber.toNat : Int) + i ≤ w)
    (hends : s.file.length ≤ i * p.bufferSize.toNat ∨ (f i).sent < 0) :
    ∃ n state, (Runs.path (sendTurn p) s f n).phase = .returned state := by
  have hopen := (hs.open_of_lower_zero hlower).mpr (by omega)
  induction i generalizing s f with
  | zero =>
    refine ⟨1, ?_⟩
    by_cases hfile : s.file = []
    · exact ⟨_, sendTurn_eof hphase hopen hfile⟩
    · have hlen := List.length_pos_iff.mpr hfile
      have hfails : (f 0).sent < 0 := hends.resolve_left (by omega)
      obtain ⟨q, -, hstep⟩ := sendTurn_fresh (t := f 0) hs hphase hlower hopen
        (take_ne_nil hb hfile)
      exact ⟨.done, by simp [Runs.path, hstep, SendData.sendFresh, hfails]⟩
  | succ i ih =>
    by_cases hfile : s.file = []
    · exact ⟨1, _, sendTurn_eof hphase hopen hfile⟩
    obtain ⟨q, -, hstep⟩ := sendTurn_fresh (t := f 0) hs hphase hlower hopen
      (take_ne_nil hb hfile)
    by_cases hfails : (f 0).sent < 0
    · exact ⟨1, .done, by simp [Runs.path, hstep, SendData.sendFresh, hfails]⟩
    · obtain ⟨hs', hnext⟩ := hs.sendFresh (q := q) hlower
        (by rw [hs.windowSize]; omega) hphase (not_lt.mp hfails)
      have hroom' : ((s.sendFresh p (f 0) q).dataSequenceNumber.toNat : Int) + i ≤ w := by
        rw [hnext]
        push_cast at hroom ⊢
        omega
      have hends' : (s.sendFresh p (f 0) q).file.length ≤ i * p.bufferSize.toNat ∨
          (f (i + 1)).sent < 0 := by
        refine hends.imp_left fun hlen => ?_
        rw [Nat.succ_mul] at hlen
        simp only [SendData.sendFresh, List.length_drop]
        omega
      obtain ⟨n, hn⟩ := ih (f := fun k => f (k + 1)) hs'
        (by simp [SendData.sendFresh, hfails, hphase]) hlower hroom' hends'
        ((hs'.open_of_lower_zero hlower).mpr (by omega))
      refine ⟨n + 1, ?_⟩
      rw [Runs.path_succ, hstep]
      exact hn

theorem SendData.EndsSilently.returned (hb : 1 ≤ p.bufferSize.toNat)
    (hs : s.Running → Sending p w s) (hsilent : ∀ n, ¬0 < (f n).poll)
    (h : s.EndsSilently p f) :
    ∃ n state, (Runs.path (sendTurn p) s f n).phase = .returned state := by
  rcases h with ⟨state, hreturned⟩ | ⟨hrun, hopen, hways⟩
  · exact ⟨0, state, hreturned⟩
  rcases hways with hfile | ⟨hphase, hlower, i, hroom, hends⟩
  · rcases hrun with hphase | hphase | hphase
    · exact ⟨1, _, sendTurn_eof hphase hopen hfile⟩
    · refine ⟨3, .waitOnEofAck, ?_⟩
      rw [Runs.path_succ, sendTurn_poll_silent hphase (hsilent 0), Runs.path_succ,
        sendTurn_wait_open (s := { s with phase := .wait }) rfl hopen]
      exact sendTurn_eof (s := { s with phase := .fill }) rfl hopen hfile
    · refine ⟨2, .waitOnEofAck, ?_⟩
      rw [Runs.path_succ, sendTurn_wait_open hphase hopen]
      exact sendTurn_eof (s := { s with phase := .fill }) rfl hopen hfile
  · have hsending := hs hrun
    rw [hsending.windowSize] at hroom
    exact returned_of_fill hb i hsending hphase hlower hroom hends

theorem SendData.not_endsSilently (hreturned : ∀ state, s.phase ≠ .returned state)
    (hstuck : ¬s.Running ∨ ¬canSendMorePackets s.window = true) : ¬s.EndsSilently p f := by
  rintro (⟨state, h⟩ | ⟨hrun, hopen, -⟩)
  · exact hreturned state h
  · exact hstuck.elim (fun h => h hrun) (fun h => h hopen)

theorem endsSilently_of_fill (hb : 1 ≤ p.bufferSize.toNat) (hs : Sending p w s)
    (hphase : s.phase = .fill)
    (h : (sendTurn p s (f 0)).EndsSilently p fun k => f (k + 1)) : s.EndsSilently p f := by
  by_cases hopen : canSendMorePackets s.window = true
  swap
  · rw [sendTurn_fill_closed hphase (Bool.eq_false_of_not_eq_true hopen)] at h
    exact absurd h (SendData.not_endsSilently (by simp) (Or.inr hopen))
  by_cases hfile : s.file = []
  · exact Or.inr ⟨Or.inl hphase, hopen, Or.inl hfile⟩
  by_cases hlower : s.window.lower = 0
  swap
  · rw [sendTurn_fill_open hphase hopen,
      fillTurn_freed hs hlower hopen (take_ne_nil hb hfile)] at h
    exact absurd h (SendData.not_endsSilently (by simp) (Or.inl (by simp [SendData.Running])))
  have hnum := (hs.open_of_lower_zero hlower).mp hopen
  have hsize := hs.windowSize
  refine Or.inr ⟨Or.inl hphase, hopen, Or.inr ⟨hphase, hlower, ?_⟩⟩
  by_cases hfails : (f 0).sent < 0
  · exact ⟨0, by rw [hsize]; simpa using hnum, Or.inr hfails⟩
  obtain ⟨q, -, hstep⟩ := sendTurn_fresh (t := f 0) hs hphase hlower hopen (take_ne_nil hb hfile)
  obtain ⟨hs', hnext⟩ := hs.sendFresh (q := q) hlower (by rw [hsize]; exact hnum) hphase
    (not_lt.mp hfails)
  have hphase' : (s.sendFresh p (f 0) q).phase = .fill := by
    simp [SendData.sendFresh, hfails, hphase]
  have hrest : (s.sendFresh p (f 0) q).file.length = s.file.length - p.bufferSize.toNat := by
    simp [SendData.sendFresh]
  rw [hstep] at h
  rcases h with ⟨state, hreturned⟩ | ⟨-, hopen', hways⟩
  · rw [hphase'] at hreturned
    cases hreturned
  have hnum' := (hs'.open_of_lower_zero hlower).mp hopen'
  rw [hnext] at hnum'
  rcases hways with hempty | ⟨-, -, i, hroom, hends⟩
  · refine ⟨1, by rw [hsize]; push_cast at hnum' ⊢; exact hnum', Or.inl ?_⟩
    have hlen := List.length_eq_zero_iff.mpr hempty
    omega
  · refine ⟨i + 1, ?_, hends.imp_left fun hlen => ?_⟩
    · rw [hnext] at hroom
      rw [hsize]
      have hsize' := hs'.windowSize
      push_cast at hroom ⊢
      omega
    · rw [Nat.succ_mul]
      omega

theorem endsSilently_of_turn (hb : 1 ≤ p.bufferSize.toNat) (hs : s.Running → Sending p w s)
    (hsilent : ¬0 < (f 0).poll)
    (h : (sendTurn p s (f 0)).EndsSilently p fun k => f (k + 1)) : s.EndsSilently p f := by
  by_cases hrun : s.Running
  swap
  · rw [sendTurn_of_not_running hrun] at h
    exact h.imp_right fun hways => absurd hways.1 hrun
  have hsending := hs hrun
  rcases hrun with hphase | hphase | hphase
  · exact endsSilently_of_fill hb hsending hphase h
  · rw [sendTurn_poll_silent hphase hsilent] at h
    rcases h with ⟨state, hreturned⟩ | ⟨-, hopen, hfile | ⟨hfill, -⟩⟩
    · cases hreturned
    · exact Or.inr ⟨Or.inr (Or.inl hphase), hopen, Or.inl hfile⟩
    · cases hfill
  · by_cases hopen : canSendMorePackets s.window = true
    · have hlower := hsending.open_in_fill (by rw [hphase]; decide) hopen
      rw [sendTurn_wait_open hphase hopen] at h
      rcases h with ⟨state, hreturned⟩ | ⟨-, -, hfile | ⟨-, hzero, -⟩⟩
      · cases hreturned
      · exact Or.inr ⟨Or.inr (Or.inr hphase), hopen, Or.inl hfile⟩
      · exact absurd hzero hlower
    · obtain ⟨hwindow, hwait⟩ := sendTurn_wait_closed hsending hphase
        (Bool.eq_false_of_not_eq_true hopen) hsilent
      refine absurd h (SendData.not_endsSilently (by simp [hwait]) (Or.inr ?_))
      rw [hwindow]
      exact hopen

theorem endsSilently_of_returned (hb : 1 ≤ p.bufferSize.toNat) (n : ℕ)
    (hs : s.Running → Sending p w s) (hsilent : ∀ n, ¬0 < (f n).poll) {state : Returned}
    (h : (Runs.path (sendTurn p) s f n).phase = .returned state) : s.EndsSilently p f := by
  induction n generalizing s f with
  | zero => exact Or.inl ⟨state, h⟩
  | succ n ih =>
    rw [Runs.path_succ] at h
    have hrest := ih (fun hrun => sendTurn_sending hs hrun) (fun k => hsilent (k + 1)) h
    exact endsSilently_of_turn hb hs (hsilent 0) hrest

end Silence

/-- From a reachable state on, with a silent client, `doSendDataState` returns exactly
when it has returned already or the fill loop still has a way out. -/
theorem silent_client_iff (p : Session) (heap : ℕ → ℕ → UInt8) (turns : List SendTurn)
    (f : ℕ → SendTurn) (hw : 1 ≤ toI32 p.windowSize) (hb : 1 ≤ p.bufferSize.toNat)
    (hsilent : ∀ n, ¬0 < (f n).poll) :
    (∃ n state, (Runs.path (sendTurn p)
        (Runs.exec (sendTurn p) (enterSendData p heap) turns) f n).phase = .returned state) ↔
      (Runs.exec (sendTurn p) (enterSendData p heap) turns).EndsSilently p f := by
  have hs := (always_sending heap turns hw).last
  constructor
  · rintro ⟨n, state, h⟩
    exact endsSilently_of_returned hb n hs hsilent h
  · exact fun h => h.returned hb hs hsilent

theorem silent_client_short :
    ∃ n state, (Runs.path (sendTurn { shortSession with file := [1, 2] })
      (Runs.exec (sendTurn { shortSession with file := [1, 2] })
        (enterSendData { shortSession with file := [1, 2] } fun _ _ => 0) [quietTurn none])
      (fun _ => quietTurn none) n).phase = .returned state :=
  (silent_client_iff { shortSession with file := [1, 2] } (fun _ _ => 0) [quietTurn none]
    (fun _ => quietTurn none) (by decide) (by decide) (fun _ => by decide)).mpr
    (Or.inr ⟨Or.inl (by decide +kernel), by decide +kernel, Or.inr ⟨by decide +kernel,
      by decide +kernel, 1, by decide +kernel, Or.inl (by decide +kernel)⟩⟩)

/-- Three packets fill the window, and the timeouts after them are never counted. -/
theorem silent_client_forever :
    ¬∀ (p : Session) (heap : ℕ → ℕ → UInt8) (turns : List SendTurn) (f : ℕ → SendTurn),
      1 ≤ toI32 p.windowSize → 1 ≤ p.bufferSize.toNat → (∀ n, ¬0 < (f n).poll) →
      ∃ n state, (Runs.path (sendTurn p)
        (Runs.exec (sendTurn p) (enterSendData p heap) turns) f n).phase = .returned state := by
  intro h
  obtain ⟨n, state, hreturned⟩ := h shortSession (fun _ _ => 0) [] (fun _ => quietTurn none)
    (by decide) (by decide) (fun _ => by decide)
  have hs := enterSendData_sending (p := shortSession) (fun _ _ => 0) (by decide)
  have hends := endsSilently_of_returned (p := shortSession) (by decide) n (fun _ => hs)
    (fun _ => by decide) hreturned
  rcases hends with ⟨_, hphase⟩ | ⟨-, -, hfile | ⟨-, -, i, hroom, hways⟩⟩
  · cases hphase
  · cases hfile
  · simp only [enterSendData, initSenderWindow, shortSession, quietTurn] at hroom hways
    simp at hways
    have htwo : toI32 2 = 2 := by decide
    rw [htwo] at hroom
    simp at hroom
    omega

end Rcopy
