import Rcopy.SendWindowBound

/-!
# The end of the file

The fill loop returns `WAIT_ON_EOF_ACK` as soon as `fread` returns nothing, with
whatever is outstanding at that moment: the EOF packet is not written yet, and the
loops that handle RRs and resend packets are not entered again. A file that ends
inside the first window is abandoned without any acknowledgement.
-/

namespace Rcopy

/-- In the run an RR with number `k` or above is handled. -/
def Covered (p : Session) (heap : ℕ → ℕ → UInt8) (turns : List SendTurn) (k : ℕ) : Prop :=
  Runs.SomeStep (sendTurn p) (fun s t => ∃ n, s.HandlesRR t n ∧ k ≤ n.toNat)
    (enterSendData p heap) turns

/-- When the run has ended for the end of the file, every packet sent has been
acknowledged. -/
def EofAcknowledged (p : Session) (heap : ℕ → ℕ → UInt8) (turns : List SendTurn) : Prop :=
  let s := Runs.exec (sendTurn p) (enterSendData p heap) turns
  s.phase = .returned .waitOnEofAck →
    ∀ k < s.dataSequenceNumber.toNat, (k : Int) < s.window.lower ∧ Covered p heap turns k

def SendData.AtEof (p : Session) (s : SendData) : Prop :=
  s.phase = .fill ∧ canSendMorePackets s.window = true ∧ s.file.take p.bufferSize.toNat = []

/-- The lower edge is past every packet sent. -/
def SendData.Passed (s : SendData) : Prop :=
  ∀ k < s.dataSequenceNumber.toNat, (k : Int) < s.window.lower

/-- The file is empty; or it does not fit the first window of `W + 1` packets; or it
fills that window and the window opens again only beyond it, or never. -/
def AcknowledgedSession (p : Session) : Prop :=
  p.file = [] ∨
  (toI32 p.windowSize + 1) * p.bufferSize.toNat < p.file.length ∨
  (toI32 p.windowSize * p.bufferSize.toNat < p.file.length ∧
    (toI32 p.windowSize = 1 ∨ toI32 p.windowSize = 2147483647))

section States

variable {p : Session} {w : Int} {s s' : SendData} {t : SendTurn}

theorem sendTurn_atEof (h : s.AtEof p) :
    sendTurn p s t =
      { s with file := s.file.drop p.bufferSize.toNat, phase := .returned .waitOnEofAck } := by
  obtain ⟨hphase, hopen, hfile⟩ := h
  rw [sendTurn_fill_open hphase hopen, fillTurn_eof hfile]

theorem controlTurn_phase (s : SendData) (t : SendTurn) :
    (controlTurn s t).phase = s.phase ∨ ∃ fault, (controlTurn s t).phase = .crashed fault := by
  unfold controlTurn
  split
  · dsimp only
    split
    · exact Or.inr ⟨_, rfl⟩
    · exact Or.inl rfl
  · dsimp only
    split
    · exact Or.inr ⟨_, rfl⟩
    · exact Or.inl rfl
  · exact Or.inl rfl
  · exact Or.inl rfl

theorem timeoutTurn_phase (s : SendData) (t : SendTurn) :
    (timeoutTurn s t).phase = s.phase ∨ ∃ fault, (timeoutTurn s t).phase = .crashed fault := by
  unfold timeoutTurn
  split
  · exact Or.inr ⟨_, rfl⟩
  · exact Or.inl rfl
  · exact Or.inl rfl

theorem SendStep.take_eq_nil (hstep : SendStep p s t s')
    (hne : s.phase ≠ .returned .waitOnEofAck) (hret : s'.phase = .returned .waitOnEofAck) :
    s.file.take p.bufferSize.toNat = [] := by
  cases hstep with
  | moved phase hmove => rcases hmove with ⟨rfl, -⟩ | ⟨rfl, -⟩ | ⟨rfl, -⟩ <;> cases hret
  | eof hfile => exact hfile
  | fresh q _ _ _ _ _ =>
    simp only [SendData.sendFresh] at hret
    split_ifs at hret
    · cases hret
    · exact absurd hret hne
  | crashed _ _ => cases hret
  | slid _ _ _ _ => exact absurd hret hne
  | resent _ _ _ _ _ _ _ => exact absurd hret hne
  | ignored => exact absurd hret hne

theorem atEof_of_returned (h : Sending p w s) (hrun : s.Running)
    (hret : (sendTurn p s t).phase = .returned .waitOnEofAck) : s.AtEof p := by
  have hne : s.phase ≠ .returned .waitOnEofAck := by
    rcases hrun with hs | hs | hs <;> rw [hs] <;> decide
  have hfile := (sendTurn_step h hrun).take_eq_nil hne hret
  -- only the fill loop returns, the other loops go on or crash
  have hother : ∀ s' : SendData, s'.phase = s.phase ∨ (∃ fault, s'.phase = .crashed fault) →
      s'.phase ≠ .returned .waitOnEofAck := by
    rintro s' (heq | ⟨fault, heq⟩)
    · rw [heq]
      exact hne
    · simp [heq]
  rcases hrun with hphase | hphase | hphase <;> simp only [sendTurn, hphase] at hret
  · split_ifs at hret with hopen
    exact ⟨hphase, hopen, hfile⟩
  · split_ifs at hret
    exact absurd hret (hother _ (controlTurn_phase s t))
  · split_ifs at hret
    · exact absurd hret (hother _ (controlTurn_phase s t))
    · exact absurd hret (hother _ (timeoutTurn_phase s t))

theorem covering_rr (h : s.Running → Sending p w s) {k : ℕ} (hk : ¬(k : Int) < s.window.lower)
    (hk' : (k : Int) < (sendTurn p s t).window.lower) : ∃ n, s.HandlesRR t n ∧ k ≤ n.toNat := by
  by_cases hrun : s.Running
  · have hs := h hrun
    have hstep := sendTurn_step (t := t) hs hrun
    generalize sendTurn p s t = s' at hstep hk'
    cases hstep with
    | moved _ _ => exact absurd hk' hk
    | eof _ => exact absurd hk' hk
    | fresh _ _ _ _ _ _ => exact absurd hk' hk
    | crashed _ _ => exact absurd hk' hk
    | slid n window hrr hslid =>
      have hlow := hs.window.lower_nonneg
      dsimp only at hk'
      rcases hslid.edges with ⟨-, hkeep, -⟩ | ⟨hlt, hnew, -⟩
      · rw [hkeep] at hk'
        exact absurd hk' hk
      · have hnum := toI32_succ_of_lt (lt_of_toI32_succ_pos (n := n) (by omega))
        exact ⟨n, hrr, by omega⟩
    | resent _ _ _ _ _ _ _ => exact absurd hk' hk
    | ignored => exact absurd hk' hk
  · rw [sendTurn_of_not_running hrun] at hk'
    exact absurd hk' hk

end States

section Runs

variable {p : Session} {heap : ℕ → ℕ → UInt8} {turns : List SendTurn}

theorem covered_of_lt_lower (hw : 1 ≤ toI32 p.windowSize) {k : ℕ}
    (hk : (k : Int) < (Runs.exec (sendTurn p) (enterSendData p heap) turns).window.lower) :
    Covered p heap turns k := by
  refine Runs.someStep_of_became (P := fun s => (k : Int) < s.window.lower)
    (always_sending heap turns hw) ?_ hk ?_
  · simp [enterSendData, initSenderWindow]
  · intro s t hs hlt hlt'
    exact covering_rr hs hlt hlt'

theorem eofAcknowledged_iff_passed (hw : 1 ≤ toI32 p.windowSize) :
    EofAcknowledged p heap turns ↔
      ((Runs.exec (sendTurn p) (enterSendData p heap) turns).phase = .returned .waitOnEofAck →
        (Runs.exec (sendTurn p) (enterSendData p heap) turns).Passed) := by
  constructor
  · intro hall hret k hk
    exact (hall hret k hk).1
  · intro hpass hret k hk
    have hlt := hpass hret k hk
    exact ⟨hlt, covered_of_lt_lower hw hlt⟩

theorem eofAcknowledged_iff_everyStep (hw : 1 ≤ toI32 p.windowSize) :
    EofAcknowledged p heap turns ↔
      Runs.EveryStep (sendTurn p) (fun s _ => s.AtEof p → s.Passed) (enterSendData p heap)
        turns := by
  rw [eofAcknowledged_iff_passed hw]
  -- a returned state stays as it is, so the last state speaks for the whole run
  have hlast : ((Runs.exec (sendTurn p) (enterSendData p heap) turns).phase =
      .returned .waitOnEofAck →
      (Runs.exec (sendTurn p) (enterSendData p heap) turns).Passed) ↔
      Runs.Always (sendTurn p) (fun s => s.phase = .returned .waitOnEofAck → s.Passed)
        (enterSendData p heap) turns := by
    refine ⟨fun h => Runs.always_of_last ?_ h, fun h => h.last⟩
    intro s t hs
    rw [Classical.not_imp] at hs
    rw [sendTurn_of_not_running (by simp [SendData.Running, hs.1])]
    exact fun h => hs.2 (h hs.1)
  rw [hlast]
  refine Runs.always_iff_everyStep
    (I := fun s => (s.Running → Sending p (toI32 p.windowSize) s) ∧
      (s.phase = .returned .waitOnEofAck → s.Passed)) ?_ ?_ ?_ ?_
  · refine ⟨fun _ => enterSendData_sending heap hw, ?_⟩
    intro hret
    cases hret
  · exact fun s hI => hI.2
  · rintro s t ⟨hs, hpass⟩ hC
    refine ⟨sendTurn_sending hs, ?_⟩
    intro hret
    by_cases hrun : s.Running
    · have heof := atEof_of_returned (hs hrun) hrun hret
      rw [sendTurn_atEof heof]
      exact hC heof
    · rw [sendTurn_of_not_running hrun] at hret ⊢
      exact hpass hret
  · rintro s t - hbad hP
    rw [Classical.not_imp] at hbad
    rw [sendTurn_atEof hbad.1] at hP
    exact hbad.2 (hP rfl)

end Runs

section Sessions

variable {p : Session} {heap : ℕ → ℕ → UInt8} {s s' : SendData} {t : SendTurn}

/-- What has been read of the file: one chunk for every packet sent. -/
structure Reading (p : Session) (s : SendData) : Prop where
  sending : Sending p (toI32 p.windowSize) s
  file : s.file = p.file.drop (s.dataSequenceNumber.toNat * p.bufferSize.toNat)
  started : 0 < s.dataSequenceNumber.toNat →
    1 ≤ p.bufferSize.toNat ∧
    (s.dataSequenceNumber.toNat - 1) * p.bufferSize.toNat < p.file.length

theorem Reading.take_eq_nil_iff (h : Reading p s) :
    s.file.take p.bufferSize.toNat = [] ↔
      p.bufferSize.toNat = 0 ∨ p.file.length ≤ s.dataSequenceNumber.toNat * p.bufferSize.toNat := by
  rw [List.take_eq_nil_iff, h.file, List.drop_eq_nil_iff]

theorem Reading.sendFresh (h : Reading p s) {q : Packet} (hlower : s.window.lower = 0)
    (hnumber : (s.dataSequenceNumber.toNat : Int) ≤ s.window.windowSize)
    (hphase : s.phase = .fill) (hfile : s.file.take p.bufferSize.toNat ≠ []) (hsent : 0 ≤ t.sent) :
    Reading p (s.sendFresh p t q) := by
  obtain ⟨hs', hnext⟩ := h.sending.sendFresh (q := q) hlower hnumber hphase hsent
  rw [Ne, h.take_eq_nil_iff, not_or, not_le] at hfile
  refine ⟨hs', ?_, fun _ => ⟨Nat.one_le_iff_ne_zero.mpr hfile.1, ?_⟩⟩
  · rw [hnext, Nat.succ_mul, ← List.drop_drop, ← h.file]
    rfl
  · rw [hnext, Nat.add_sub_cancel]
    exact hfile.2

theorem SendStep.reading (h : Reading p s) (hstep : SendStep p s t s') (hrun : s'.Running) :
    Reading p s' := by
  have hs' := hstep.sending h.sending hrun
  cases hstep with
  | moved _ _ => exact ⟨hs', h.file, h.started⟩
  | eof _ => simp [SendData.Running] at hrun
  | fresh q hphase hlower hnumber hfile _ =>
    exact h.sendFresh hlower hnumber hphase hfile (SendData.sent_nonneg_of_running hrun)
  | crashed _ _ => simp [SendData.Running] at hrun
  | slid _ _ _ _ => exact ⟨hs', h.file, h.started⟩
  | resent _ _ _ _ _ _ _ => exact ⟨hs', h.file, h.started⟩
  | ignored => exact h

theorem enterSendData_reading (hw : 1 ≤ toI32 p.windowSize) : Reading p (enterSendData p heap) := by
  refine ⟨enterSendData_sending heap hw, ?_, ?_⟩ <;> simp [enterSendData]

theorem always_reading (hw : 1 ≤ toI32 p.windowSize) (turns : List SendTurn) :
    Runs.Always (sendTurn p) (fun s => s.Running → Reading p s) (enterSendData p heap) turns := by
  refine Runs.always_of_step ?_ fun _ => enterSendData_reading hw
  intro s t h hrun
  have hs := running_of_sendTurn hrun
  exact (sendTurn_step (h hs).sending hs).reading (h hs) hrun

theorem Reading.passed_of_atEof (h : Reading p s) (hp : AcknowledgedSession p)
    (heof : s.AtEof p) : s.Passed := by
  obtain ⟨-, hopen, hfile⟩ := heof
  intro k hk
  obtain ⟨hpos, hstart⟩ := h.started (by omega)
  have hend : p.file.length ≤ s.dataSequenceNumber.toNat * p.bufferSize.toNat := by
    rcases h.take_eq_nil_iff.mp hfile with hzero | hend
    · omega
    · exact hend
  by_cases hlower : s.window.lower = 0
  · -- the first window is still open, so the file fits into it
    have hnum := (h.sending.open_of_lower_zero hlower).mp hopen
    have hle : (p.file.length : Int) ≤ toI32 p.windowSize * p.bufferSize.toNat := by
      calc (p.file.length : Int) ≤ s.dataSequenceNumber.toNat * p.bufferSize.toNat := by
            exact_mod_cast hend
        _ ≤ toI32 p.windowSize * p.bufferSize.toNat :=
            Int.mul_le_mul_of_nonneg_right hnum (by omega)
    rcases hp with hnil | hlong | ⟨hlong, -⟩
    · rw [hnil, List.length_nil] at hstart
      omega
    · rw [Int.add_mul] at hlong
      omega
    · omega
  · have hnum := (h.sending.current_eq hlower).2
    obtain ⟨htwo, hmax⟩ := h.sending.two_le_lower hlower hopen
    rcases hp with hnil | hlong | ⟨-, hone | hall⟩
    · rw [hnil, List.length_nil] at hstart
      omega
    · rw [← hnum] at hlong
      exact absurd (Int.ofNat_le.mpr hend) (by push_cast; omega)
    · omega
    · omega

/-- The first window while it is being filled: `j` packets have been sent. -/
structure Filling (p : Session) (s : SendData) (j : ℕ) : Prop where
  reading : Reading p s
  phase : s.phase = .fill
  lower : s.window.lower = 0
  number : s.dataSequenceNumber.toNat = j

theorem Filling.turn {j : ℕ} (h : Filling p s j) (hj : (j : Int) ≤ toI32 p.windowSize)
    (hpos : 1 ≤ p.bufferSize.toNat) (hmore : j * p.bufferSize.toNat < p.file.length)
    (hsent : 0 ≤ t.sent) : Filling p (sendTurn p s t) (j + 1) := by
  have hs := h.reading.sending
  have hnum := h.number
  have hfile : s.file.take p.bufferSize.toNat ≠ [] := by
    rw [Ne, h.reading.take_eq_nil_iff, hnum]
    omega
  have hopen := (hs.open_of_lower_zero h.lower).mpr (by rw [hnum]; exact hj)
  obtain ⟨q, -, hturn⟩ := sendTurn_fresh (t := t) hs h.phase h.lower hopen hfile
  have hnumber : (s.dataSequenceNumber.toNat : Int) ≤ s.window.windowSize := by
    rw [hnum, hs.windowSize]
    exact hj
  have hnext := (hs.sendFresh (q := q) h.lower hnumber h.phase hsent).2
  rw [hturn]
  refine ⟨h.reading.sendFresh h.lower hnumber h.phase hfile hsent, ?_, h.lower, by rw [hnext, hnum]⟩
  simp only [SendData.sendFresh, if_neg (not_lt.mpr hsent), h.phase]

theorem filling_exec (heap : ℕ → ℕ → UInt8) (hw : 1 ≤ toI32 p.windowSize)
    (hpos : 1 ≤ p.bufferSize.toNat) {j : ℕ} (hj : (j : Int) ≤ toI32 p.windowSize + 1)
    (hmore : ∀ i < j, i * p.bufferSize.toNat < p.file.length) :
    ∃ turns, Filling p (Runs.exec (sendTurn p) (enterSendData p heap) turns) j := by
  induction j with
  | zero => exact ⟨[], enterSendData_reading hw, rfl, rfl, rfl⟩
  | succ j ih =>
    obtain ⟨turns, h⟩ := ih (by omega) fun i hi => hmore i (by omega)
    refine ⟨turns ++ [quietTurn none], ?_⟩
    rw [Runs.exec_concat]
    exact h.turn (by omega) hpos (hmore j (by omega)) (by decide)

theorem Filling.atEof_open {j : ℕ} (h : Filling p s j) (hj : (j : Int) ≤ toI32 p.windowSize)
    (hpos : 0 < j) (hend : p.file.length ≤ j * p.bufferSize.toNat) : s.AtEof p ∧ ¬s.Passed := by
  have hnum := h.number
  refine ⟨⟨h.phase, ?_, ?_⟩, ?_⟩
  · rw [h.reading.sending.open_of_lower_zero h.lower, hnum]
    exact hj
  · rw [h.reading.take_eq_nil_iff, hnum]
    exact Or.inr hend
  · intro hpass
    have hzero := hpass 0 (by omega)
    rw [h.lower] at hzero
    omega

/-- An RR with number 1 opens the full first window, with packet 2 and all after it
outstanding. -/
theorem Filling.atEof_full {j : ℕ} (h : Filling p s j) (hj : (j : Int) = toI32 p.windowSize + 1)
    (htwo : 2 ≤ toI32 p.windowSize) (hmax : toI32 p.windowSize < 2147483647)
    (hend : p.file.length ≤ j * p.bufferSize.toNat) :
    ∃ turns, (Runs.exec (sendTurn p) s turns).AtEof p ∧ ¬(Runs.exec (sendTurn p) s turns).Passed := by
  have hs := h.reading.sending
  have hnum := h.number
  have hclosed : canSendMorePackets s.window = false := by
    rw [← Bool.not_eq_true, hs.open_of_lower_zero h.lower, hnum]
    omega
  -- the fill loop ends and the poll loop handles the RR
  have hpoll : sendTurn p s (quietTurn none) = { s with phase := .poll } :=
    sendTurn_fill_closed h.phase hclosed
  have hs₁ := hs.moved (Or.inl ⟨rfl, h.phase, hclosed⟩)
  have hrr : SendData.HandlesRR { s with phase := .poll }
      (quietTurn (some [0, 0, 0, 1, 0, 0, 5])) 1 :=
    ⟨⟨by decide, Or.inl rfl⟩, by decide⟩
  obtain ⟨window, hslide, hslid⟩ := sendTurn_rr (p := p) hs₁.window hrr (by decide)
  have hs₂ := hs₁.slid (i32_range _).2 hrr.1.not_fill hslid
  have hone : toI32 (1 + 1) = 2 := by decide
  rw [hone] at hslid
  have hlower : window.lower = 2 := by
    rcases hslid.edges with ⟨hle, -, -⟩ | ⟨-, hnew, -⟩
    · rw [h.lower] at hle
      exact absurd hle (by decide)
    · exact hnew
  have hopen : canSendMorePackets window = true :=
    (hs₂.open_of_lower_pos (by rw [hlower]; decide)).mpr (by dsimp only; omega)
  -- two more turns lead back to the fill loop
  have hwait : sendTurn p { s with window := window, phase := .poll } (quietTurn none) =
      { s with window := window, phase := .wait } := sendTurn_poll_silent rfl (by decide)
  have hfill : sendTurn p { s with window := window, phase := .wait } (quietTurn none) =
      { s with window := window, phase := .fill } := sendTurn_wait_open rfl hopen
  refine ⟨[quietTurn none, quietTurn (some [0, 0, 0, 1, 0, 0, 5]), quietTurn none, quietTurn none],
    ?_⟩
  simp only [Runs.exec_cons, Runs.exec_nil, hpoll, hslide, hwait, hfill]
  refine ⟨⟨rfl, hopen, ?_⟩, ?_⟩
  · rw [h.reading.take_eq_nil_iff, hnum]
    exact Or.inr hend
  · intro hpass
    have hlast := hpass 2 (by dsimp only; omega)
    dsimp only at hlast
    rw [hlower] at hlast
    omega

theorem abandoned_of_not_acknowledgedSession (heap : ℕ → ℕ → UInt8)
    (hw : 1 ≤ toI32 p.windowSize) (hp : ¬AcknowledgedSession p) :
    ∃ turns, (Runs.exec (sendTurn p) (enterSendData p heap) turns).AtEof p ∧
      ¬(Runs.exec (sendTurn p) (enterSendData p heap) turns).Passed := by
  simp only [AcknowledgedSession, not_or, not_and, not_lt] at hp
  obtain ⟨hne, hfits, hopens⟩ := hp
  have hlen : 0 < p.file.length := List.length_pos_of_ne_nil hne
  have hpos : 1 ≤ p.bufferSize.toNat := by
    by_contra hzero
    rw [not_le, Nat.lt_one_iff] at hzero
    rw [hzero] at hfits
    omega
  have hfits' : p.file.length ≤ (toI32 p.windowSize + 1).toNat * p.bufferSize.toNat := by
    have hcast : (((toI32 p.windowSize + 1).toNat : ℕ) : Int) = toI32 p.windowSize + 1 := by omega
    rw [← hcast] at hfits
    exact_mod_cast hfits
  -- the number of chunks of the file
  obtain ⟨j, hend, hleast⟩ : ∃ j, p.file.length ≤ j * p.bufferSize.toNat ∧
      ∀ i < j, i * p.bufferSize.toNat < p.file.length := by
    have hex : ∃ j, p.file.length ≤ j * p.bufferSize.toNat := ⟨_, hfits'⟩
    exact ⟨Nat.find hex, Nat.find_spec hex, fun i hi => not_le.mp (Nat.find_min hex hi)⟩
  have hj : 0 < j := by
    by_contra hzero
    rw [Nat.eq_zero_of_not_pos hzero, Nat.zero_mul] at hend
    omega
  have hle : (j : Int) ≤ toI32 p.windowSize + 1 := by
    by_contra hlt
    have := hleast (toI32 p.windowSize + 1).toNat (by omega)
    omega
  obtain ⟨turns, hfill⟩ := filling_exec heap hw hpos hle hleast
  by_cases hopen : (j : Int) ≤ toI32 p.windowSize
  · exact ⟨turns, hfill.atEof_open hopen hj hend⟩
  · have hfull : (j : Int) = toI32 p.windowSize + 1 := by omega
    have hlong : toI32 p.windowSize * p.bufferSize.toNat < p.file.length := by
      have hlast := hleast (j - 1) (by omega)
      have hcast : ((j - 1 : ℕ) : Int) = toI32 p.windowSize := by omega
      rw [← hcast]
      exact_mod_cast hlast
    have hsize := hopens hlong
    have hrange : toI32 p.windowSize < 2147483648 := (i32_range _).2
    obtain ⟨turns', heof⟩ := hfill.atEof_full hfull (by omega) (by omega) hend
    refine ⟨turns ++ turns', ?_⟩
    rw [Runs.exec_append]
    exact heof

end Sessions

/-- A run that ends for the end of the file has all its packets acknowledged exactly
when the fill loop meets that end with nothing outstanding; every run of a session
does so exactly when the session is one of `AcknowledgedSession`. -/
theorem eofAcknowledged_of_run (p : Session) (hw : 1 ≤ toI32 p.windowSize) :
    (∀ heap turns, EofAcknowledged p heap turns ↔
      Runs.EveryStep (sendTurn p) (fun s _ => s.AtEof p → s.Passed) (enterSendData p heap)
        turns) ∧
    ((∀ heap turns, EofAcknowledged p heap turns) ↔ AcknowledgedSession p) := by
  refine ⟨fun heap turns => eofAcknowledged_iff_everyStep hw, ?_, ?_⟩
  · intro hall
    by_contra hp
    obtain ⟨turns, heof, hpass⟩ := abandoned_of_not_acknowledgedSession (fun _ _ => 0) hw hp
    have hstep := (eofAcknowledged_iff_everyStep hw).mp
      (hall (fun _ _ => 0) (turns ++ [quietTurn none]))
    exact hpass (hstep.concat heof)
  · intro hp heap turns
    rw [eofAcknowledged_iff_everyStep hw]
    refine Runs.everyStep_of_guard (I := fun _ => True) (fun _ _ _ _ => trivial) ?_ trivial
      (always_reading hw turns)
    intro s t hread _ _ heof
    exact (hread (Or.inl heof.1)).passed_of_atEof hp heof

/-- Two packets in a window of one, which opens again behind both of them. -/
def singleSession : Session where
  bufferSize := 1
  windowSize := 1
  file := [1, 2]

theorem eofAcknowledged_of_run_single :
    EofAcknowledged singleSession (fun _ _ => 0)
      [quietTurn none, quietTurn none, quietTurn (some [0, 0, 0, 0, 0, 0, 5]),
        quietTurn (some [0, 0, 0, 1, 0, 0, 5]), quietTurn none, quietTurn none] :=
  (eofAcknowledged_of_run singleSession (by decide)).2.mpr (Or.inr (Or.inr (by decide))) _ _

/-- The first window of three packets is full, an RR with number 1 is handled, and the
function returns with packet 2 outstanding. -/
theorem eofAcknowledged_lost :
    ¬EofAcknowledged shortSession (fun _ _ => 0)
      [quietTurn none, quietTurn none, quietTurn none, quietTurn none,
        quietTurn (some [0, 0, 0, 1, 0, 0, 5]), quietTurn none, quietTurn none, quietTurn none] := by
  intro h
  have hlast := h (by decide +kernel) 2 (by decide +kernel)
  exact absurd hlast.1 (by decide +kernel)

end Rcopy
