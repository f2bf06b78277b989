import Rcopy.Send

/-!
# The window bound and the slots of the sender

`initSenderWindow` sets `upper` one higher than `advanceSenderWindow` does, so the
first window takes `W + 1` packets and the last of them overwrites packet 0. After
the first slide the bound is right, but the slots that the slide frees are never
allocated again.
-/

namespace Rcopy

def SendData.outstanding (s : SendData) : ℕ :=
  ((List.range s.dataSequenceNumber.toNat).filter fun k : ℕ => s.window.lower ≤ k).length

theorem length_filter_le_range (l : Int) (hl : 0 ≤ l) (n : ℕ) :
    (((List.range n).filter fun k : ℕ => l ≤ k).length : Int) = max 0 (n - l) := by
  induction n with
  | zero =>
    rw [List.range_zero, List.filter_nil, List.length_nil]
    omega
  | succ n ih =>
    rw [List.range_succ, List.filter_append, List.length_append, Nat.cast_add, ih]
    by_cases h : l ≤ n
    · simp only [List.filter_singleton, h, decide_true, cond_true, List.length_singleton]
      omega
    · simp only [List.filter_singleton, h, decide_false, cond_false, List.length_nil]
      omega

/-- The window is open exactly while fewer than `W` packets are outstanding, never
more than `W` are, and the slot of the next packet holds none of them. -/
structure WindowBounded (s : SendData) : Prop where
  open_iff : canSendMorePackets s.window = true ↔ (s.outstanding : Int) < s.window.windowSize
  outstanding_le : (s.outstanding : Int) ≤ s.window.windowSize
  slot_passed : canSendMorePackets s.window = true →
    ∀ k : ℕ, k < s.dataSequenceNumber.toNat → s.window.lower ≤ k →
      (k : Int) % s.window.windowSize ≠ s.dataSequenceNumber.toNat % s.window.windowSize

def SlotAvailable (s : SendData) : Prop :=
  canSendMorePackets s.window = true →
    ∃ q, Ring.slot s.window.buffer (s.dataSequenceNumber.toNat % s.window.windowSize) = some q

instance (s : SendData) : Decidable (SlotAvailable s) :=
  decidable_of_iff (canSendMorePackets s.window = true →
      (Ring.slot s.window.buffer
        (s.dataSequenceNumber.toNat % s.window.windowSize)).isSome = true) (by
    simp only [SlotAvailable, Option.isSome_iff_exists])

section States

variable {p : Session} {w : Int} {s : SendData} {t : SendTurn}

theorem Sending.outstanding_eq (h : Sending p w s) :
    (s.outstanding : Int) = max 0 (s.dataSequenceNumber.toNat - s.window.lower) :=
  length_filter_le_range _ h.window.lower_nonneg _

theorem Sending.open_of_lower_pos (h : Sending p w s) (hlower : s.window.lower ≠ 0) :
    canSendMorePackets s.window = true ↔ 2 ≤ s.window.lower ∧ s.window.lower + w ≤ 2147483648 := by
  refine ⟨h.two_le_lower hlower, ?_⟩
  rintro ⟨htwo, hover⟩
  have hupper := h.upper
  have hpos := h.window.window_pos
  have hsize := h.windowSize
  rw [if_neg hlower, i32_of_range (by omega) (by omega)] at hupper
  rw [canSendMorePackets_iff, hupper, (h.current_eq hlower).1]
  omega

theorem windowBounded_iff (h : Sending p w s) :
    WindowBounded s ↔
      (s.window.lower = 0 → (s.dataSequenceNumber.toNat : Int) < w) ∧
      s.window.lower + w ≤ 2147483648 := by
  have hout := h.outstanding_eq
  have hsize := h.windowSize
  have hpos := h.window.window_pos
  have hmax := h.window.window_lt
  have hlow := h.window.lower_nonneg
  constructor
  · intro hb
    have hopen := hb.open_iff
    have hle := hb.outstanding_le
    rw [hout, hsize] at hopen hle
    constructor
    · intro hlower
      rw [h.open_of_lower_zero hlower, hlower] at hopen
      omega
    · by_contra hover
      have hne : s.window.lower ≠ 0 := by omega
      rw [h.open_of_lower_pos hne, (h.current_eq hne).2] at hopen
      omega
  · rintro ⟨hfirst, hover⟩
    by_cases hlower : s.window.lower = 0
    · have hnum := hfirst hlower
      refine ⟨?_, ?_, ?_⟩
      · rw [h.open_of_lower_zero hlower, hout, hsize]
        omega
      · omega
      · intro _ k hk _
        exact Ring.emod_ne_of_lt (by omega) (by omega) (by omega)
    · have hnum := (h.current_eq hlower).2
      refine ⟨?_, ?_, ?_⟩
      · rw [h.open_of_lower_pos hlower, hout, hsize, hnum]
        omega
      · omega
      · intro hopen k hk hkl
        have htwo := h.two_le_lower hlower hopen
        exact Ring.emod_ne_of_lt (by omega) (by omega) (by omega)

theorem slotAvailable_iff (h : Sending p w s) :
    SlotAvailable s ↔ (canSendMorePackets s.window = true → s.window.lower = 0) := by
  constructor
  · intro hs hopen
    obtain ⟨q, hq⟩ := hs hopen
    by_contra hlower
    rw [h.slot_eq_none hlower hopen] at hq
    cases hq
  · intro hlower hopen
    exact h.slot_eq_some (hlower hopen) _

/-- The turn sends packet `W - 1` of the first window. -/
def FillsWindow (p : Session) (s : SendData) (t : SendTurn) : Prop :=
  s.phase = .fill ∧ s.file.take p.bufferSize.toNat ≠ [] ∧ 0 ≤ t.sent ∧
    s.window.lower = 0 ∧ (s.dataSequenceNumber.toNat : Int) + 1 = s.window.windowSize

/-- The turn handles an RR that slides the lower edge past the next slot. -/
def SlidesOpen (s : SendData) (t : SendTurn) : Prop :=
  ∃ n : UInt32, s.HandlesRR t n ∧ s.window.lower ≤ n.toNat ∧ 1 ≤ n.toNat ∧
    n.toNat + s.window.windowSize < 2147483648

structure Unfilled (p : Session) (w : Int) (s : SendData) : Prop where
  sending : Sending p w s
  phase : s.phase = .fill
  lower : s.window.lower = 0
  number : (s.dataSequenceNumber.toNat : Int) < w

theorem Unfilled.turn (h : Unfilled p w s) (hgood : ¬FillsWindow p s t)
    (hrun : (sendTurn p s t).Running) : Unfilled p w (sendTurn p s t) := by
  have hs := h.sending
  have hopen := (hs.open_of_lower_zero h.lower).mpr h.number.le
  by_cases hfile : s.file.take p.bufferSize.toNat = []
  · simp [sendTurn, h.phase, hopen, fillTurn_eof hfile, SendData.Running] at hrun
  · obtain ⟨q, -, hturn⟩ := sendTurn_fresh (t := t) hs h.phase h.lower hopen hfile
    rw [hturn] at hrun ⊢
    have hsent := SendData.sent_nonneg_of_running hrun
    have hnumber : (s.dataSequenceNumber.toNat : Int) ≤ s.window.windowSize := by
      rw [hs.windowSize]
      exact h.number.le
    obtain ⟨hs', hnext⟩ := hs.sendFresh (q := q) h.lower hnumber h.phase hsent
    refine ⟨hs', ?_, h.lower, ?_⟩
    · simp only [SendData.sendFresh, if_neg (not_lt.mpr hsent), h.phase]
    · have hne : (s.dataSequenceNumber.toNat : Int) + 1 ≠ w := by
        intro heq
        exact hgood ⟨h.phase, hfile, hsent, h.lower, by rw [hs.windowSize]; exact heq⟩
      have hlt := h.number
      rw [hnext]
      push_cast
      omega

theorem Unfilled.not_bounded (h : Unfilled p w s) (hbad : FillsWindow p s t) :
    (sendTurn p s t).Running ∧ ¬WindowBounded (sendTurn p s t) := by
  obtain ⟨-, hfile, hsent, -, hlast⟩ := hbad
  have hs := h.sending
  have hopen := (hs.open_of_lower_zero h.lower).mpr h.number.le
  obtain ⟨q, -, hturn⟩ := sendTurn_fresh (t := t) hs h.phase h.lower hopen hfile
  have hnumber : (s.dataSequenceNumber.toNat : Int) ≤ s.window.windowSize := by omega
  obtain ⟨hs', hnext⟩ := hs.sendFresh (q := q) h.lower hnumber h.phase hsent
  rw [hturn]
  constructor
  · refine Or.inl ?_
    simp only [SendData.sendFresh, if_neg (not_lt.mpr hsent), h.phase]
  · rw [windowBounded_iff hs']
    rintro ⟨hfirst, -⟩
    have hlt := hfirst h.lower
    rw [hs.windowSize] at hlast
    rw [hnext] at hlt
    push_cast at hlt
    omega

theorem SendStep.slotAvailable {s' : SendData} (h : Sending p w s) (hstep : SendStep p s t s')
    (hrun : s'.Running) (hgood : ¬SlidesOpen s t)
    (hI : canSendMorePackets s.window = true → s.window.lower = 0) :
    canSendMorePackets s'.window = true → s'.window.lower = 0 := by
  intro hopen
  have hs' := hstep.sending h hrun
  cases hstep with
  | moved _ _ => exact hI hopen
  | eof _ => exact hI hopen
  | fresh q hphase hlower _ _ _ => exact hlower
  | crashed _ _ => exact hI hopen
  | slid n window hrr hslid =>
    by_contra hne
    have htwo := hs'.two_le_lower hne hopen
    dsimp only at hopen hne htwo
    rcases hslid.edges with ⟨-, hlower, hupper⟩ | ⟨hlt, hlower, -⟩
    · rw [canSendMorePackets_iff, hslid.current, hupper, ← canSendMorePackets_iff] at hopen
      rw [hlower] at hne
      exact hne (hI hopen)
    · rw [hlower] at htwo
      have hnum := toI32_succ_of_lt (lt_of_toI32_succ_pos (n := n) (by omega))
      rw [hnum] at htwo
      rw [hnum] at hlt
      exact hgood ⟨n, hrr, by omega, by omega, by rw [h.windowSize]; omega⟩
  | resent _ _ _ _ _ _ _ => exact hI hopen
  | ignored => exact hI hopen

theorem not_slotAvailable_of_slidesOpen (h : Sending p w s) (hbad : SlidesOpen s t) :
    (sendTurn p s t).Running ∧ ¬SlotAvailable (sendTurn p s t) := by
  obtain ⟨n, hrr, hle, hone, hmax⟩ := hbad
  have hpos := h.window.window_pos
  have hsize := h.windowSize
  have hnum := toI32_succ_of_lt (n := n) (by omega)
  have hn : toI32 n = n.toNat := toI32_of_lt (by omega)
  obtain ⟨window, hturn, hslid⟩ := sendTurn_rr (p := p) h.window hrr (by omega)
  have hrun : (sendTurn p s t).Running := by
    rw [hturn]
    exact hrr.1.running
  have hs' : Sending p w (sendTurn p s t) := by
    rw [hturn]
    exact h.slid (i32_range _).2 hrr.1.not_fill hslid
  refine ⟨hrun, ?_⟩
  rw [slotAvailable_iff hs']
  rw [hturn] at hs' ⊢
  intro hlower
  rw [hnum] at hslid
  rcases hslid.edges with ⟨hold, -, -⟩ | ⟨hlt, hnew, -⟩
  · omega
  · have hne : window.lower ≠ 0 := by omega
    exact hne (hlower ((hs'.open_of_lower_pos hne).mpr ⟨by dsimp only; omega, by dsimp only; omega⟩))

end States

/-- In every state of a run the window bound holds exactly when the first window
holds fewer than `W` packets and the upper edge is in range; a run keeps the bound
throughout exactly when no turn fills the first window. -/
theorem windowBounded_of_run (p : Session) (heap : ℕ → ℕ → UInt8) (turns : List SendTurn)
    (hw : 1 ≤ toI32 p.windowSize) :
    Runs.Always (sendTurn p)
      (fun s => s.Running →
        (WindowBounded s ↔
          (s.window.lower = 0 → (s.dataSequenceNumber.toNat : Int) < toI32 p.windowSize) ∧
          s.window.lower + toI32 p.windowSize ≤ 2147483648))
      (enterSendData p heap) turns ∧
    (Runs.Always (sendTurn p) (fun s => s.Running → WindowBounded s) (enterSendData p heap) turns ↔
      Runs.EveryStep (sendTurn p) (fun s t => ¬FillsWindow p s t) (enterSendData p heap) turns) := by
  constructor
  · refine (always_sending heap turns hw).mono ?_
    intro s hs hrun
    exact windowBounded_iff (hs hrun)
  · refine Runs.always_iff_everyStep
      (I := fun s => s.Running → Unfilled p (toI32 p.windowSize) s) ?_ ?_ ?_ ?_
    · intro _
      refine ⟨enterSendData_sending heap hw, rfl, rfl, ?_⟩
      simp only [enterSendData, UInt32.toNat_zero]
      omega
    · intro s hI hrun
      have h := hI hrun
      have hmax := h.sending.window.window_lt
      rw [windowBounded_iff h.sending, h.lower]
      exact ⟨fun _ => h.number, by rw [← h.sending.windowSize]; omega⟩
    · intro s t hI hgood hrun
      exact (hI (running_of_sendTurn hrun)).turn hgood hrun
    · intro s t hI hbad hP
      have hbad := not_not.mp hbad
      obtain ⟨hrun, hnot⟩ := (hI (Or.inl hbad.1)).not_bounded hbad
      exact hnot (hP hrun)

theorem windowBounded_of_run_one :
    WindowBounded (sendTurn shortSession (enterSendData shortSession fun _ _ => 0)
      (quietTurn none)) :=
  ((windowBounded_of_run shortSession (fun _ _ => 0) [quietTurn none] (by decide)).1.2
    (by decide +kernel)).mpr (by decide +kernel)

/-- Two packets are outstanding in a window of two, and the window is still open. -/
theorem windowBounded_overrun :
    ¬Runs.Always (sendTurn shortSession) (fun s => s.Running → WindowBounded s)
      (enterSendData shortSession fun _ _ => 0) [quietTurn none, quietTurn none] := by
  intro h
  have hb := h.last (by decide +kernel)
  exact absurd (hb.open_iff.mp (by decide +kernel)) (by decide +kernel)

/-- In every state of a run the slot of the next packet is there exactly when the
window is closed or has never slid; a run never lacks a slot exactly when no turn
slides the window open. -/
theorem slotAvailable_of_run (p : Session) (heap : ℕ → ℕ → UInt8) (turns : List SendTurn)
    (hw : 1 ≤ toI32 p.windowSize) :
    Runs.Always (sendTurn p)
      (fun s => s.Running →
        (SlotAvailable s ↔ (canSendMorePackets s.window = true → s.window.lower = 0)))
      (enterSendData p heap) turns ∧
    (Runs.Always (sendTurn p) (fun s => s.Running → SlotAvailable s) (enterSendData p heap) turns ↔
      Runs.EveryStep (sendTurn p) (fun s t => ¬SlidesOpen s t) (enterSendData p heap) turns) := by
  constructor
  · refine (always_sending heap turns hw).mono ?_
    intro s hs hrun
    exact slotAvailable_iff (hs hrun)
  · refine Runs.always_iff_everyStep
      (I := fun s => s.Running → Sending p (toI32 p.windowSize) s ∧
        (canSendMorePackets s.window = true → s.window.lower = 0)) ?_ ?_ ?_ ?_
    · intro _
      exact ⟨enterSendData_sending heap hw, fun _ => rfl⟩
    · intro s hI hrun
      exact (slotAvailable_iff (hI hrun).1).mpr (hI hrun).2
    · intro s t hI hgood hrun
      have hs := running_of_sendTurn hrun
      obtain ⟨h, hopen⟩ := hI hs
      have hstep := sendTurn_step (t := t) h hs
      exact ⟨hstep.sending h hrun, hstep.slotAvailable h hrun hgood hopen⟩
    · intro s t hI hbad hP
      have hbad := not_not.mp hbad
      have hs : s.Running := by
        obtain ⟨n, hrr, -⟩ := hbad
        exact hrr.1.running
      obtain ⟨hrun, hnot⟩ := not_slotAvailable_of_slidesOpen (hI hs).1 hbad
      exact hnot (hP hrun)

theorem slotAvailable_of_run_closed :
    Runs.Always (sendTurn shortSession) (fun s => s.Running → SlotAvailable s)
      (enterSendData shortSession fun _ _ => 0) [quietTurn none, quietTurn none, quietTurn none] :=
  (slotAvailable_of_run shortSession (fun _ _ => 0) [quietTurn none, quietTurn none, quietTurn none]
    (by decide)).2.mpr (by
      simp only [Runs.EveryStep, and_true]
      refine ⟨?_, ?_, ?_⟩ <;> rintro ⟨n, ⟨⟨hpoll, -⟩, -⟩, -⟩ <;> exact absurd hpoll (by decide))

/-- An RR with number 1 slides the window past slot 1, which packet 3 needs. -/
theorem slotAvailable_lost :
    ¬Runs.Always (sendTurn shortSession) (fun s => s.Running → SlotAvailable s)
      (enterSendData shortSession fun _ _ => 0)
      [quietTurn none, quietTurn none, quietTurn none, quietTurn none,
        quietTurn (some [0, 0, 0, 1, 0, 0, 5])] := by
  intro h
  exact absurd (h.last (by decide +kernel)) (by decide +kernel)

end Rcopy
