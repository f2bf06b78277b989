import Rcopy.Lib.Outcome
import Rcopy.Lib.Runs
import Rcopy.SenderWindow

/-!
# Acknowledgements of the packets in the window

`acknowledgePacket` sets the flag of whatever packet lies in the slot of its
number. The runs below insert the numbers 0, 1, 2, ... and acknowledge any numbers
in between. Beside the window they record which packets were acknowledged after
they had been inserted.
-/

namespace Rcopy

inductive WindowCall
  | insert (data : List UInt8) (dataSize : Int)
  | acknowledge (sequenceNumber : ℕ)

structure AckLog where
  window : SenderWindow
  inserted : ℕ
  acknowledged : List ℕ

def AckLog.step (s : AckLog) : WindowCall → Except Fault AckLog
  | .insert data dataSize => do
    let window ← insertPacketIntoWindow s.window s.inserted data dataSize
    .ok { s with window := window, inserted := s.inserted + 1 }
  | .acknowledge n => do
    let window ← acknowledgePacket s.window n
    .ok { s with
      window := window
      acknowledged := if n < s.inserted then n :: s.acknowledged else s.acknowledged }

def ackStep (s : Except Fault AckLog) (call : WindowCall) : Except Fault AckLog :=
  s >>= fun log => log.step call

theorem ackStep_ok (s : AckLog) (call : WindowCall) : ackStep (.ok s) call = s.step call := rfl

def enterAckLog (windowSize bufferSize : Int) (heap : ℕ → ℕ → UInt8) : AckLog where
  window := initSenderWindow windowSize bufferSize heap
  inserted := 0
  acknowledged := []

namespace AckLog

/-- The packet `n` has been inserted and its slot still holds it. -/
def Holds (s : AckLog) (n : ℕ) : Prop :=
  n < s.inserted ∧
    ∃ p, Ring.slot s.window.buffer (n % s.window.windowSize) = some p ∧ p.sequenceNumber = n

instance (s : AckLog) (n : ℕ) : Decidable (s.Holds n) :=
  inferInstanceAs (Decidable (n < s.inserted ∧
    ∃ p ∈ Ring.slot s.window.buffer (n % s.window.windowSize), p.sequenceNumber = n))

def OwnAcknowledgements (s : AckLog) : Prop :=
  ∀ n, s.Holds n → (checkPacketACKStatus s.window n = .ok 1 ↔ n ∈ s.acknowledged)

instance : DecidablePred AckLog.OwnAcknowledgements := fun s =>
  decidable_of_iff (∀ n < s.inserted, s.Holds n →
      (checkPacketACKStatus s.window n = .ok 1 ↔ n ∈ s.acknowledged))
    ⟨fun h n hn => h n hn.1 hn, fun h n _ hn => h n hn⟩

/-- The call marks no other packet than its own, unless that one is marked already. -/
def MarksOwn (s : AckLog) : WindowCall → Prop
  | .insert _ _ => True
  | .acknowledge n =>
    ∀ m, s.Holds m → (m : Int) % s.window.windowSize = n % s.window.windowSize →
      m = n ∨ m ∈ s.acknowledged

instance (s : AckLog) : ∀ call, Decidable (s.MarksOwn call)
  | .insert _ _ => inferInstanceAs (Decidable True)
  | .acknowledge n =>
    decidable_of_iff (∀ m < s.inserted, s.Holds m →
        (m : Int) % s.window.windowSize = n % s.window.windowSize → m = n ∨ m ∈ s.acknowledged)
      ⟨fun h m hm => h m hm.1 hm, fun h m _ hm => h m hm⟩

/-- The window holds the last numbers inserted, as many as it has slots. -/
structure Consecutive (s : AckLog) : Prop where
  wellFormed : s.window.WellFormed
  lower : s.window.lower = 0
  stored : ∀ n : ℕ, n < s.inserted → (s.inserted : Int) ≤ n + s.window.windowSize →
    ∃ p, Ring.slot s.window.buffer (n % s.window.windowSize) = some p ∧ p.sequenceNumber = n
  known : ∀ n ∈ s.acknowledged, n < s.inserted

variable {s s' : AckLog} {call : WindowCall}

theorem Consecutive.slot (h : s.Consecutive) (n : ℕ) :
    ∃ p, Ring.slot s.window.buffer (n % s.window.windowSize) = some p := by
  obtain ⟨h₀, h₁⟩ := SenderWindow.index_range h.wellFormed n
  have hnull := (h.wellFormed.null_iff _ h₀ h₁).not.mpr (by rw [h.lower]; omega)
  exact Option.ne_none_iff_exists'.mp hnull

/-- A number that the window has passed shares its slot with a later one. -/
theorem Consecutive.inserted_le (h : s.Consecutive) {n : ℕ} (hn : s.Holds n) :
    (s.inserted : Int) ≤ n + s.window.windowSize := by
  obtain ⟨hlt, p, hp, hseq⟩ := hn
  have hpos := h.wellFormed.window_pos
  by_contra hpassed
  have hback₀ := Int.emod_nonneg ((s.inserted : Int) - 1 - n) (b := s.window.windowSize) (by omega)
  have hback₁ := Int.emod_lt_of_pos ((s.inserted : Int) - 1 - n) (b := s.window.windowSize) hpos
  obtain ⟨later, hlater⟩ := Int.eq_ofNat_of_zero_le
    (a := (s.inserted : Int) - 1 - ((s.inserted : Int) - 1 - n) % s.window.windowSize) (by omega)
  have hslot : (later : Int) % s.window.windowSize = n % s.window.windowSize := by
    rw [← hlater, Int.sub_emod, Int.emod_emod_of_dvd _ dvd_rfl, ← Int.sub_emod]
    congr 1
    omega
  obtain ⟨q, hq, hqseq⟩ := h.stored later (by omega) (by omega)
  rw [hslot, hp] at hq
  obtain rfl := Option.some.inj hq
  omega

theorem Consecutive.status (h : s.Consecutive) {n : ℕ} {p : Packet}
    (hp : Ring.slot s.window.buffer (n % s.window.windowSize) = some p) :
    checkPacketACKStatus s.window n = .ok 1 ↔ p.ack = 1 := by
  rw [checkPacketACKStatus_of_slot h.wellFormed (Int.natCast_nonneg n) hp, Except.ok.injEq]

theorem Consecutive.step_acknowledge (h : s.Consecutive) (n : ℕ) :
    s.step (.acknowledge n) = .ok { s with
      window := { s.window with
        buffer := Ring.update s.window.buffer (n % s.window.windowSize) Packet.acked }
      acknowledged := if n < s.inserted then n :: s.acknowledged else s.acknowledged } := by
  simp only [AckLog.step, acknowledgePacket_eq h.wellFormed (Int.natCast_nonneg n), bind,
    Except.bind]

theorem Consecutive.step_cases (h : s.Consecutive) (hstep : s.step call = .ok s') :
    (∃ data dataSize, call = .insert data dataSize ∧
      s' = { s with
        window := { s.window with
          buffer := Ring.update s.window.buffer (s.inserted % s.window.windowSize)
            (Packet.fill s.inserted data dataSize) }
        inserted := s.inserted + 1 }) ∨
    (∃ n, call = .acknowledge n ∧
      s' = { s with
        window := { s.window with
          buffer := Ring.update s.window.buffer (n % s.window.windowSize) Packet.acked }
        acknowledged := if n < s.inserted then n :: s.acknowledged else s.acknowledged }) := by
  cases call with
  | insert data dataSize =>
    obtain ⟨p, hp⟩ := h.slot s.inserted
    by_cases hsize : dataSize ≤ p.data.length
    · have hins := insertPacketIntoWindow_of_slot h.wellFormed (Int.natCast_nonneg s.inserted) hp
        data dataSize hsize
      simp only [step, hins, bind, Except.bind, Except.ok.injEq] at hstep
      exact Or.inl ⟨data, dataSize, rfl, hstep.symm⟩
    · obtain ⟨h₀, h₁⟩ := SenderWindow.index_range h.wellFormed s.inserted
      simp only [step, insertPacketIntoWindow, bind, Except.bind,
        SenderWindow.index_eq h.wellFormed (Int.natCast_nonneg s.inserted),
        SenderWindow.deref_of_slot h.wellFormed h₀ h₁ hp, if_pos (not_le.mp hsize)] at hstep
      cases hstep
  | acknowledge n =>
    rw [h.step_acknowledge, Except.ok.injEq] at hstep
    exact Or.inr ⟨n, rfl, hstep.symm⟩

theorem slot_acked {w : SenderWindow} {i j : Int} {p : Packet}
    (hp : Ring.slot w.buffer j = some p) :
    ∃ q, Ring.slot (Ring.update w.buffer i Packet.acked) j = some q ∧
      q.sequenceNumber = p.sequenceNumber := by
  by_cases hij : i = j
  · subst hij
    exact ⟨p.acked, by rw [Ring.slot_update_self, hp]; rfl, rfl⟩
  · exact ⟨p, by rw [Ring.slot_update_ne hij, hp], rfl⟩

theorem Consecutive.step (h : s.Consecutive) (hstep : s.step call = .ok s') : s'.Consecutive := by
  have hpos := h.wellFormed.window_pos
  rcases h.step_cases hstep with ⟨data, dataSize, -, rfl⟩ | ⟨n, -, rfl⟩
  · refine ⟨h.wellFormed.update _ _, h.lower, ?_, ?_⟩
    · intro n hn hwin
      dsimp only at hn hwin ⊢
      by_cases heq : n = s.inserted
      · obtain ⟨p, hp⟩ := h.slot s.inserted
        subst heq
        exact ⟨_, by rw [Ring.slot_update_self, hp]; rfl, rfl⟩
      · obtain ⟨p, hp, hseq⟩ := h.stored n (by omega) (by omega)
        have hne := Ring.emod_ne_of_lt (a := s.inserted) (b := n) (w := s.window.windowSize)
          (by omega) (by omega) (by omega)
        exact ⟨p, by rw [Ring.slot_update_ne hne, hp], hseq⟩
    · intro n hn
      exact Nat.lt_succ_of_lt (h.known n hn)
  · refine ⟨h.wellFormed.update _ _, h.lower, ?_, ?_⟩
    · intro m hm hwin
      obtain ⟨p, hp, hseq⟩ := h.stored m hm hwin
      obtain ⟨q, hq, hqseq⟩ := slot_acked (i := n % s.window.windowSize) hp
      exact ⟨q, hq, by rw [hqseq, hseq]⟩
    · intro m hm
      dsimp only at hm ⊢
      split_ifs at hm with hn
      · rcases List.mem_cons.mp hm with rfl | hm
        · exact hn
        · exact h.known m hm
      · exact h.known m hm

theorem Consecutive.own_insert (h : s.Consecutive) (hown : s.OwnAcknowledgements)
    {data : List UInt8} {dataSize : Int} (hstep : s.step (.insert data dataSize) = .ok s') :
    s'.OwnAcknowledgements := by
  have h' := h.step hstep
  rcases h.step_cases hstep with ⟨_, _, -, rfl⟩ | ⟨n, hcall, -⟩
  · intro m hm
    have hwin := h'.inserted_le hm
    obtain ⟨hlt, p, hp, hseq⟩ := hm
    rw [h'.status hp]
    dsimp only at hlt hp hwin ⊢
    by_cases heq : m = s.inserted
    · subst heq
      rw [Ring.slot_update_self] at hp
      obtain ⟨q, -, rfl⟩ := Option.map_eq_some_iff.mp hp
      have hnew : s.inserted ∉ s.acknowledged := fun hmem => lt_irrefl _ (h.known _ hmem)
      simp [Packet.fill, hnew]
    · have hne := Ring.emod_ne_of_lt (a := s.inserted) (b := m) (w := s.window.windowSize)
        (by omega) (by omega) (by omega)
      rw [Ring.slot_update_ne hne] at hp
      rw [← h.status hp]
      exact hown m ⟨by omega, p, hp, hseq⟩
  · cases hcall

theorem Consecutive.own_acknowledge (h : s.Consecutive) (hown : s.OwnAcknowledgements) {n : ℕ}
    (hmarks : s.MarksOwn (.acknowledge n)) (hstep : s.step (.acknowledge n) = .ok s') :
    s'.OwnAcknowledgements := by
  have h' := h.step hstep
  rcases h.step_cases hstep with ⟨_, _, hcall, -⟩ | ⟨_, hcall, rfl⟩
  · cases hcall
  · cases hcall
    intro m hm
    obtain ⟨hlt, p, hp, hseq⟩ := hm
    rw [h'.status hp]
    dsimp only at hlt hp ⊢
    rcases Ring.slot_update_eq_some hp with ⟨hslot, q, hq, rfl⟩ | ⟨hslot, hq⟩
    · have hmem := hmarks m ⟨hlt, q, hq, hseq⟩ hslot.symm
      simp only [Packet.acked, true_iff]
      rcases hmem with rfl | hmem
      · rw [if_pos hlt]
        exact List.mem_cons_self
      · split_ifs
        · exact List.mem_cons_of_mem _ hmem
        · exact hmem
    · have hne : m ≠ n := by
        rintro rfl
        exact hslot rfl
      rw [← h.status hq, hown m ⟨hlt, p, hq, hseq⟩]
      split_ifs
      · simp [hne]
      · rfl

theorem Consecutive.step_meets (h : s.Consecutive) (hown : s.OwnAcknowledgements)
    (hmarks : s.MarksOwn call) :
    Outcome.Meets (fun _ => True) (fun log => log.Consecutive ∧ log.OwnAcknowledgements)
      (s.step call) := by
  cases hstep : s.step call with
  | error e => trivial
  | ok s' =>
    refine ⟨h.step hstep, ?_⟩
    cases call with
    | insert data dataSize => exact h.own_insert hown hstep
    | acknowledge n => exact h.own_acknowledge hown hmarks hstep

/-- A packet that was not acknowledged is marked for good, in place of the one that was. -/
theorem Consecutive.not_own (h : s.Consecutive) (hmarks : ¬s.MarksOwn call) :
    ∃ s', s.step call = .ok s' ∧ ¬s'.OwnAcknowledgements := by
  cases call with
  | insert data dataSize => exact absurd trivial hmarks
  | acknowledge n =>
    simp only [MarksOwn, not_forall, not_or] at hmarks
    obtain ⟨m, ⟨hlt, p, hp, hseq⟩, hslot, hne, hmem⟩ := hmarks
    have hstep := h.step_acknowledge n
    refine ⟨_, hstep, ?_⟩
    intro hown
    have hq : Ring.slot (Ring.update s.window.buffer (n % s.window.windowSize) Packet.acked)
        (m % s.window.windowSize) = some p.acked := by
      rw [hslot, Ring.slot_update_self, ← hslot, hp]
      rfl
    have hmarked := (hown m ⟨hlt, p.acked, hq, hseq⟩).mp (((h.step hstep).status hq).mpr rfl)
    dsimp only at hmarked
    split_ifs at hmarked
    · rcases List.mem_cons.mp hmarked with heq | hmem'
      · exact hne heq
      · exact hmem hmem'
    · exact hmem hmarked

theorem enterAckLog_consecutive {windowSize : Int} (hw : 1 ≤ windowSize)
    (hmax : windowSize < 2147483648) (bufferSize : Int) (heap : ℕ → ℕ → UInt8) :
    (enterAckLog windowSize bufferSize heap).Consecutive := by
  refine ⟨initSenderWindow_wellFormed bufferSize heap hw hmax, rfl, ?_, ?_⟩
  · intro n hn
    cases hn
  · intro n hn
    cases hn

end AckLog

/-- A run of insertions and acknowledgements keeps the flags of the packets in the
window right exactly when every acknowledgement marks its own packet. -/
theorem acknowledgements_own_iff {windowSize : Int} (hw : 1 ≤ windowSize)
    (hmax : windowSize < 2147483648) (bufferSize : Int) (heap : ℕ → ℕ → UInt8)
    (calls : List WindowCall) :
    Runs.Always ackStep (Outcome.Meets (fun _ => True) AckLog.OwnAcknowledgements)
        (.ok (enterAckLog windowSize bufferSize heap)) calls ↔
      Runs.EveryStep ackStep
        (fun s call => Outcome.Meets (fun _ => True) (fun log => log.MarksOwn call) s)
        (.ok (enterAckLog windowSize bufferSize heap)) calls := by
  have hstart : (enterAckLog windowSize bufferSize heap).OwnAcknowledgements := by
    rintro n ⟨hn, -⟩
    cases hn
  apply Runs.always_iff_everyStep
    (I := Outcome.Meets (fun _ => True) fun log => log.Consecutive ∧ log.OwnAcknowledgements)
  · exact ⟨AckLog.enterAckLog_consecutive hw hmax bufferSize heap, hstart⟩
  · rintro (_ | log) h
    · trivial
    · exact h.2
  · rintro (_ | log) call h hmarks
    · trivial
    · rw [ackStep_ok]
      exact h.1.step_meets h.2 hmarks
  · rintro (_ | log) call h hmarks
    · exact absurd trivial hmarks
    · obtain ⟨log', hstep, hown⟩ := h.1.not_own hmarks
      rw [ackStep_ok, hstep]
      exact hown

theorem acknowledgements_own_two :
    Runs.Always ackStep (Outcome.Meets (fun _ => True) AckLog.OwnAcknowledgements)
      (.ok (enterAckLog 2 1 fun _ _ => 0))
      [.insert [65] 1, .insert [66] 1, .acknowledge 0, .acknowledge 1, .insert [67] 1,
        .acknowledge 2] :=
  (acknowledgements_own_iff (by decide) (by decide) 1 (fun _ _ => 0) _).mpr (by decide +kernel)

/-- Packet 2 takes the slot of packet 0, and a second acknowledgement of 0 marks it. -/
theorem acknowledgement_misplaced :
    ¬Runs.Always ackStep (Outcome.Meets (fun _ => True) AckLog.OwnAcknowledgements)
      (.ok (enterAckLog 2 1 fun _ _ => 0))
      [.insert [65] 1, .insert [66] 1, .acknowledge 0, .insert [67] 1, .acknowledge 0] := by
  decide +kernel

end Rcopy
