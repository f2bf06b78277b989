import Rcopy.Lib.CommutingFold
import Rcopy.Send

/-!
# Control datagrams at the sender

`slide` says what handling an RR leaves of a window: the slots from the lower edge
up to the RR's number are gone, the packet in the slot of the number, whichever it
is, is acknowledged, and the edges have moved. RRs in range commute, so the set of
their numbers decides the window.

Numbers out of range are not checked for. A number from 2^31 on is negative where
it is an `int` and large where it is a `uint32_t`.
-/

namespace Rcopy

/-- The handling of an RR in `doSendDataState`, see `controlTurn_handleRR`. -/
def handleRR (w : SenderWindow) (receivedSeq : UInt32) : Except Fault SenderWindow := do
  let window ← acknowledgePacket w (toI32 receivedSeq)
  advanceSenderWindow window (toI32 (receivedSeq + 1))

theorem controlTurn_handleRR {s : SendData} {t : SendTurn} {n : UInt32}
    (h : t.control = some (.rr n)) :
    controlTurn s t =
      match handleRR s.window n with
      | .error f => { s with phase := .crashed f }
      | .ok window => { s with window := window } := by
  simp only [controlTurn, h]
  rfl

/-- What handling RR `n` leaves of a window, for a number that is in range. -/
def slide (w : SenderWindow) (n : Int) : SenderWindow :=
  { w with
    buffer := Ring.releaseRange w.windowSize (n + 1 - w.lower).toNat w.lower
      (Ring.update w.buffer (n % w.windowSize) Packet.acked)
    lower := max w.lower (n + 1)
    upper := if w.lower < n + 1 then n + w.windowSize else w.upper }

/-- A window of `size` slots in any state of allocation and acknowledgement. -/
structure SenderWindow.Sized (size : Int) (w : SenderWindow) : Prop where
  size : w.windowSize = size
  length : (w.buffer.length : Int) = w.windowSize
  lower_nonneg : 0 ≤ w.lower

section Slide

variable {size m n : Int} {w : SenderWindow}

theorem advanceSenderWindow_acked (hsize : 1 ≤ size) (hw : w.Sized size) (hn₀ : 0 ≤ n)
    (hn : n < 2147483646 - size) :
    advanceSenderWindow
      { w with buffer := Ring.update w.buffer (n % w.windowSize) Packet.acked } (n + 1) =
      .ok (slide w n) := by
  obtain ⟨rfl, hlen, hlow⟩ := hw
  simp only [advanceSenderWindow, slide, bind, Except.bind]
  split_ifs with hlt
  · have hfree := freeSlots_eq_releaseRange (n + 1 - w.lower).toNat
      (w := { w with buffer := Ring.update w.buffer (n % w.windowSize) Packet.acked })
      hsize (by rw [← hlen, Ring.length_update]) hlow
    have hupper : i32 (n + 1 + w.windowSize - 1) = n + w.windowSize := by
      rw [i32_of_range (by omega) (by omega)]
      omega
    rw [hfree, max_eq_right hlt.le]
    dsimp only
    rw [hupper]
  · have hzero : (n + 1 - w.lower).toNat = 0 := by omega
    rw [hzero, Ring.releaseRange, max_eq_left (by omega)]

theorem handleRR_eq (hsize : 1 ≤ size) (hw : w.Sized size) {n : UInt32}
    (hn : (n.toNat : Int) < 2147483646 - size) : handleRR w n = .ok (slide w n.toNat) := by
  have hn₀ : toI32 n = n.toNat := toI32_of_lt (by omega)
  have hn₁ : toI32 (n + 1) = n.toNat + 1 := toI32_succ_of_lt (by omega)
  have hack := acknowledgePacket_of_nonneg (by rw [hw.size]; exact hsize) hw.length
    (n := n.toNat) (by omega)
  rw [handleRR, hn₀, hn₁, hack]
  exact advanceSenderWindow_acked hsize hw (by omega) hn

theorem slide_sized (hw : w.Sized size) (n : Int) : (slide w n).Sized size := by
  refine ⟨hw.size, ?_, le_max_of_le_left hw.lower_nonneg⟩
  simp only [slide, Ring.length_releaseRange, Ring.length_update]
  exact hw.length

/-- The slots of the numbers that RR `n` passes are free. -/
theorem slot_slide_passed {j : Int} (h₁ : w.lower ≤ j) (h₂ : j ≤ n) :
    Ring.slot (slide w n).buffer (j % w.windowSize) = none :=
  Ring.slot_releaseRange_passed _ h₁ (by omega)

theorem slot_slide_kept {k : Int} (h : ∀ j, w.lower ≤ j → j ≤ n → j % w.windowSize ≠ k) :
    Ring.slot (slide w n).buffer k =
      (Ring.slot w.buffer k).map fun p => if n % w.windowSize = k then p.acked else p := by
  have hkept : Ring.slot (slide w n).buffer k =
      Ring.slot (Ring.update w.buffer (n % w.windowSize) Packet.acked) k :=
    Ring.slot_releaseRange_kept _ fun j h₁ h₂ => h j h₁ (by omega)
  rw [hkept]
  split_ifs with hk
  · rw [hk, Ring.slot_update_self]
  · rw [Ring.slot_update_ne hk, Option.map_id_fun', id]

theorem acked_acked (p : Packet) : p.acked.acked = p.acked := rfl

theorem map_acked (a b : Prop) [Decidable a] [Decidable b] (o : Option Packet) :
    (o.map fun p => if a then p.acked else p).map (fun p => if b then p.acked else p) =
      o.map fun p => if a ∨ b then p.acked else p := by
  rw [Option.map_map]
  congr 1
  funext p
  by_cases ha : a <;> by_cases hb : b <;> simp [ha, hb, acked_acked]

/-- Two RRs leave the slots as a set of two numbers would: those up to the larger
number are free, and the packets in the slots of both are acknowledged. -/
theorem slot_slide_slide (w : SenderWindow) (m n k : Int) :
    (∃ j, w.lower ≤ j ∧ j ≤ max m n ∧ j % w.windowSize = k) ∧
      Ring.slot (slide (slide w m) n).buffer k = none ∨
    (∀ j, w.lower ≤ j → j ≤ max m n → j % w.windowSize ≠ k) ∧
      Ring.slot (slide (slide w m) n).buffer k = (Ring.slot w.buffer k).map fun p =>
        if m % w.windowSize = k ∨ n % w.windowSize = k then p.acked else p := by
  have hlower : (slide w m).lower = max w.lower (m + 1) := rfl
  by_cases h : ∃ j, w.lower ≤ j ∧ j ≤ max m n ∧ j % w.windowSize = k
  · left
    refine ⟨h, ?_⟩
    obtain ⟨j, h₁, h₂, rfl⟩ := h
    by_cases hjm : j ≤ m
    · exact Ring.slot_releaseRange_null
        ((Ring.slot_update_eq_none_iff _ _ _ _).mpr (slot_slide_passed h₁ hjm))
    · exact slot_slide_passed (w := slide w m) (by omega) (by omega)
  · right
    push Not at h
    have hm : ∀ j, w.lower ≤ j → j ≤ m → j % w.windowSize ≠ k := fun j h₁ h₂ =>
      h j h₁ (le_max_of_le_left h₂)
    have hn : ∀ j, (slide w m).lower ≤ j → j ≤ n → j % w.windowSize ≠ k := fun j h₁ h₂ =>
      h j (by omega) (le_max_of_le_right h₂)
    refine ⟨h, ?_⟩
    rw [slot_slide_kept (w := slide w m) hn, slot_slide_kept hm]
    exact map_acked _ _ _

theorem slide_comm (w : SenderWindow) (m n : Int) :
    slide (slide w m) n = slide (slide w n) m := by
  have hbuffer : (slide (slide w m) n).buffer = (slide (slide w n) m).buffer := by
    refine Ring.slot_ext ?_ ?_
    · simp only [slide, Ring.length_releaseRange, Ring.length_update]
    · intro k
      rcases slot_slide_slide w m n k with ⟨h, hk⟩ | ⟨h, hk⟩ <;>
        rcases slot_slide_slide w n m k with ⟨h', hk'⟩ | ⟨h', hk'⟩
      · rw [hk, hk']
      · obtain ⟨j, h₁, h₂, hj⟩ := h
        exact absurd hj (h' j h₁ (by omega))
      · obtain ⟨j, h₁, h₂, hj⟩ := h'
        exact absurd hj (h j h₁ (by omega))
      · rw [hk, hk']
        simp only [or_comm]
  have hlower : (slide (slide w m) n).lower = (slide (slide w n) m).lower :=
    max_right_comm _ _ _
  have hupper : (slide (slide w m) n).upper = (slide (slide w n) m).upper := by
    simp only [slide]
    split_ifs <;> omega
  simp only [slide] at hbuffer hlower hupper ⊢
  rw [hbuffer, hlower, hupper]

theorem slide_idem (w : SenderWindow) (n : Int) : slide (slide w n) n = slide w n := by
  have hbuffer : (slide (slide w n) n).buffer = (slide w n).buffer := by
    refine Ring.slot_ext ?_ ?_
    · simp only [slide, Ring.length_releaseRange, Ring.length_update]
    · intro k
      rcases slot_slide_slide w n n k with ⟨⟨j, h₁, h₂, rfl⟩, hk⟩ | ⟨h, hk⟩
      · rw [hk, slot_slide_passed h₁ (by omega)]
      · rw [hk, slot_slide_kept fun j h₁ h₂ => h j h₁ (by omega)]
        simp only [or_self]
  have hlower : (slide (slide w n) n).lower = (slide w n).lower := by
    simp only [slide]
    omega
  have hupper : (slide (slide w n) n).upper = (slide w n).upper := by
    simp only [slide]
    split_ifs <;> omega
  simp only [slide] at hbuffer hlower hupper ⊢
  rw [hbuffer, hlower, hupper]

theorem slide_absorbing (size : Int) :
    CommutingFold.Absorbing (fun w (n : UInt32) => slide w n.toNat) (SenderWindow.Sized size)
      fun n => (n.toNat : Int) < 2147483646 - size :=
  ⟨fun _ _ hw _ => slide_sized hw _, fun w _ _ _ _ _ => slide_comm w _ _,
    fun w _ _ _ => slide_idem w _⟩

def handleRRs (w : SenderWindow) (ns : List UInt32) : Except Fault SenderWindow :=
  ns.foldlM handleRR w

theorem handleRRs_eq (hsize : 1 ≤ size) (hw : w.Sized size) {ns : List UInt32}
    (hn : ∀ n ∈ ns, (n.toNat : Int) < 2147483646 - size) :
    handleRRs w ns = .ok (ns.foldl (fun w n => slide w n.toNat) w) := by
  induction ns generalizing w with
  | nil => rfl
  | cons n ns ih =>
    rw [List.forall_mem_cons] at hn
    rw [handleRRs, List.foldlM_cons, handleRR_eq hsize hw hn.1, List.foldl_cons]
    exact ih (slide_sized hw _) hn.2

end Slide

/-- Two lists of RRs with the same numbers leave the same window, in whichever order
and however often they are handled. -/
theorem handleRRs_same_window (w : SenderWindow) (ms ns : List UInt32) (hsize : 1 ≤ w.windowSize)
    (hlen : (w.buffer.length : Int) = w.windowSize) (hlower : 0 ≤ w.lower)
    (hsame : ∀ n, n ∈ ms ↔ n ∈ ns)
    (hrange : ∀ n ∈ ms, (n.toNat : Int) < 2147483646 - w.windowSize) :
    ∃ w', handleRRs w ms = .ok w' ∧ handleRRs w ns = .ok w' := by
  have hw : w.Sized w.windowSize := ⟨rfl, hlen, hlower⟩
  have hrange' : ∀ n ∈ ns, (n.toNat : Int) < 2147483646 - w.windowSize :=
    fun n hn => hrange n ((hsame n).mpr hn)
  refine ⟨_, handleRRs_eq hsize hw hrange, ?_⟩
  rw [handleRRs_eq hsize hw hrange', (slide_absorbing w.windowSize).foldl_eq hsame hrange hw]

/-- A window of two whose slot 0 has been freed by an earlier slide. -/
def slidWindow : SenderWindow where
  buffer := [none, some { sequenceNumber := 1, dataSize := 8, valid := 0, ack := 0, data := [] }]
  windowSize := 2
  lower := 1
  upper := 2
  current := 2

theorem handleRRs_same_window_stale :
    ∃ w', handleRRs slidWindow [0, 4, 1, 4] = .ok w' ∧ handleRRs slidWindow [4, 1, 0] = .ok w' := by
  have hsame : ∀ n : UInt32, n ∈ [0, 4, 1, 4] ↔ n ∈ [4, 1, 0] := by
    intro n
    simp only [List.mem_cons, List.not_mem_nil, or_false]
    tauto
  have hrange : ∀ n ∈ ([0, 4, 1, 4] : List UInt32),
      (n.toNat : Int) < 2147483646 - slidWindow.windowSize := by
    simp only [List.forall_mem_cons, List.not_mem_nil, false_implies, implies_true, and_true]
    decide
  exact handleRRs_same_window slidWindow [0, 4, 1, 4] [4, 1, 0] (by decide) rfl (by decide) hsame
    hrange

/-! ## Any number -/

def SendData.HandlesSREJ (s : SendData) (t : SendTurn) (n : UInt32) : Prop :=
  s.Listens t ∧ t.control = some (.srej n)

/-- Handling an RR or SREJ neither leaves the ring nor meets a freed slot, and the
lower edge stays at or below the next packet to send. -/
def ControlSafe (p : Session) (s : SendData) (t : SendTurn) : Prop :=
  (∃ n, s.HandlesRR t n ∨ s.HandlesSREJ t n) →
    (∀ fault, (sendTurn p s t).phase ≠ .crashed fault) ∧
    (sendTurn p s t).window.lower ≤ (sendTurn p s t).dataSequenceNumber.toNat

/-- The RR is for a packet that has been sent; or its number is one of those that the
handler takes for negative, or for the largest `int`, and whose slot is in the ring. -/
def RRInRange (w : Int) (dataSequenceNumber n : UInt32) : Prop :=
  n < dataSequenceNumber ∨ n.toNat = 2147483647 ∨
    (2147483648 ≤ n.toNat ∧ w ∣ 4294967296 - n.toNat)

structure ControlInRange (s : SendData) (t : SendTurn) : Prop where
  rr : ∀ n, s.HandlesRR t n → RRInRange s.window.windowSize s.dataSequenceNumber n
  srej : ∀ n, s.HandlesSREJ t n → s.window.lower ≤ n.toNat % s.window.windowSize

section Control

variable {p : Session} {w : Int} {s : SendData} {t : SendTurn} {n : UInt32}

theorem acknowledgePacket_of_neg {window : SenderWindow} (h : window.WellFormed) {n : Int}
    (hn : n < 0) :
    (window.windowSize ∣ n ∧ acknowledgePacket window n =
      .ok { window with buffer := Ring.update window.buffer 0 Packet.acked }) ∨
    (¬window.windowSize ∣ n ∧ acknowledgePacket window n = .error .outOfBounds) := by
  have hpos := h.window_pos
  have hindex : window.index n = .ok (n.tmod window.windowSize) := by
    rw [SenderWindow.index, if_neg (by omega)]
  by_cases hdvd : window.windowSize ∣ n
  · left
    refine ⟨hdvd, ?_⟩
    rw [Int.tmod_eq_zero_of_dvd hdvd] at hindex
    simp only [acknowledgePacket, hindex, SenderWindow.read_eq h le_rfl (by omega), bind,
      Except.bind]
    cases hp : Ring.slot window.buffer 0 with
    | none =>
      dsimp only
      rw [Ring.update_of_null hp]
    | some p => rfl
  · right
    refine ⟨hdvd, ?_⟩
    have hneg : n.tmod window.windowSize < 0 := by
      have hsign : (-n).tmod window.windowSize = -(n.tmod window.windowSize) := Int.neg_tmod _ _
      have hnonneg := Int.tmod_nonneg (a := -n) window.windowSize (by omega)
      have hne : n.tmod window.windowSize ≠ 0 := fun h0 => hdvd (Int.dvd_of_tmod_eq_zero h0)
      omega
    have hread : window.read (n.tmod window.windowSize) = .error .outOfBounds := by
      rw [SenderWindow.read, if_neg (by omega)]
    simp only [acknowledgePacket, hindex, hread, bind, Except.bind]

theorem handleRR_cases {window : SenderWindow} (h : window.WellFormed) (n : UInt32) :
    (∃ window', handleRR window n = .ok window' ∧
      window'.lower = max window.lower (toI32 (n + 1)) ∧
      (0 ≤ toI32 n ∨ window.windowSize ∣ toI32 n)) ∨
    (handleRR window n = .error .outOfBounds ∧ toI32 n < 0 ∧ ¬window.windowSize ∣ toI32 n) := by
  -- the slide is the same whichever slot has been acknowledged
  have hslide : ∀ i, ∃ window', advanceSenderWindow
      { window with buffer := Ring.update window.buffer i Packet.acked } (toI32 (n + 1)) =
        .ok window' ∧ window'.lower = max window.lower (toI32 (n + 1)) := by
    intro i
    rcases advanceSenderWindow_cases (h.update i Packet.acked) (toI32 (n + 1)) with
      ⟨hle, hadv⟩ | ⟨hlt, window', hadv, -, -, hlower, -⟩
    · exact ⟨_, hadv, (max_eq_left hle).symm⟩
    · exact ⟨window', hadv, by rw [hlower, max_eq_right hlt.le]⟩
  by_cases hn : 0 ≤ toI32 n
  · left
    obtain ⟨window', hadv, hlower⟩ := hslide (toI32 n % window.windowSize)
    refine ⟨window', ?_, hlower, Or.inl hn⟩
    simp only [handleRR, acknowledgePacket_eq h hn, bind, Except.bind, hadv]
  · rcases acknowledgePacket_of_neg h (lt_of_not_ge hn) with ⟨hdvd, hack⟩ | ⟨hdvd, hack⟩
    · left
      obtain ⟨window', hadv, hlower⟩ := hslide 0
      refine ⟨window', ?_, hlower, Or.inr hdvd⟩
      simp only [handleRR, hack, bind, Except.bind, hadv]
    · right
      refine ⟨?_, lt_of_not_ge hn, hdvd⟩
      simp only [handleRR, hack, bind, Except.bind]

theorem toI32_cases (n : UInt32) :
    (n.toNat < 2147483648 ∧ toI32 n = n.toNat) ∨
    (2147483648 ≤ n.toNat ∧ toI32 n = -(4294967296 - n.toNat)) := by
  have hmax := n.toNat_lt
  by_cases hn : n.toNat < 2147483648
  · exact Or.inl ⟨hn, toI32_of_lt hn⟩
  · refine Or.inr ⟨not_lt.mp hn, ?_⟩
    simp only [toI32, i32]
    omega

theorem rrInRange_iff {d : UInt32} (hd : d.toNat ≤ 2147483648) :
    RRInRange w d n ↔ toI32 (n + 1) ≤ d.toNat ∧ (0 ≤ toI32 n ∨ w ∣ toI32 n) := by
  have hmax := n.toNat_lt
  have hsucc : toI32 (n + 1) = i32 (n.toNat + 1) := by
    simp only [toI32, i32, UInt32.toNat_add, UInt32.toNat_one]
    omega
  rw [RRInRange, UInt32.lt_iff_toNat_lt, hsucc]
  rcases toI32_cases n with ⟨hlt, hn⟩ | ⟨hge, hn⟩
  · rw [hn]
    simp only [i32]
    omega
  · have hnext : i32 ((n.toNat : Int) + 1) ≤ d.toNat := by
      simp only [i32]
      omega
    have hold : ¬n.toNat < d.toNat := by omega
    have hne : n.toNat ≠ 2147483647 := by omega
    have hneg : ¬(0 : Int) ≤ -(4294967296 - n.toNat) := by omega
    rw [hn, Int.dvd_neg]
    simp only [hnext, hge, hold, hne, hneg, true_and, false_or]

theorem rr_safe_iff (h : Sending p w s) (hlower : s.window.lower ≤ s.dataSequenceNumber.toNat)
    (hrr : s.HandlesRR t n) :
    ControlSafe p s t ↔ RRInRange s.window.windowSize s.dataSequenceNumber n := by
  have hnum := h.number_le
  have hlt := h.window.window_lt
  have hsize := h.windowSize
  rw [ControlSafe, rrInRange_iff (by omega), sendTurn_listens hrr.1, controlTurn_handleRR hrr.2]
  rcases handleRR_cases h.window n with ⟨window', hok, hlower', hn⟩ | ⟨herr, hneg, hdvd⟩
  · rw [hok]
    have hphase : ∀ fault, s.phase ≠ .crashed fault := by
      intro fault hcrash
      rcases hrr.1.2 with hp | ⟨hp, -⟩ <;> rw [hp] at hcrash <;> cases hcrash
    dsimp only
    rw [hlower', max_le_iff]
    exact ⟨fun hsafe => ⟨(hsafe ⟨n, Or.inl hrr⟩).2.2, hn⟩, fun hr _ => ⟨hphase, hlower, hr.1⟩⟩
  · rw [herr]
    refine ⟨fun hsafe => absurd rfl ((hsafe ⟨n, Or.inl hrr⟩).1 .outOfBounds), ?_⟩
    rintro ⟨-, hn⟩
    exact absurd hn (not_or.mpr ⟨by omega, hdvd⟩)

theorem srej_safe_iff (h : Sending p w s) (hlower : s.window.lower ≤ s.dataSequenceNumber.toNat)
    (hsrej : s.HandlesSREJ t n) :
    ControlSafe p s t ↔ s.window.lower ≤ n.toNat % s.window.windowSize := by
  obtain ⟨h₀, h₁⟩ := SenderWindow.index_range h.window n.toNat
  have hnull := h.window.null_iff _ h₀ h₁
  rw [ControlSafe, sendTurn_listens hsrej.1]
  simp only [controlTurn, hsrej.2, SenderWindow.indexU32_eq h.window, bind, Except.bind]
  cases hslot : Ring.slot s.window.buffer (n.toNat % s.window.windowSize) with
  | none =>
    simp only [SenderWindow.deref_of_null h.window h₀ h₁ hslot]
    refine ⟨fun hsafe => absurd rfl ((hsafe ⟨n, Or.inr hsrej⟩).1 .nullPointer), fun hle => ?_⟩
    exact absurd (hnull.mp hslot) (by omega)
  | some q =>
    simp only [SenderWindow.deref_of_slot h.window h₀ h₁ hslot]
    refine ⟨fun _ => ?_, fun _ _ => ⟨?_, hlower⟩⟩
    · by_contra hlt
      rw [hnull.mpr (by omega)] at hslot
      cases hslot
    · intro fault hcrash
      rcases hsrej.1.2 with hp | ⟨hp, -⟩ <;> simp [SendData.resend, hp] at hcrash

theorem controlSafe_iff (h : Sending p w s) (hlower : s.window.lower ≤ s.dataSequenceNumber.toNat) :
    ControlSafe p s t ↔ ControlInRange s t := by
  constructor
  · intro hsafe
    exact ⟨fun n hrr => (rr_safe_iff h hlower hrr).mp hsafe,
      fun n hsrej => (srej_safe_iff h hlower hsrej).mp hsafe⟩
  · rintro ⟨hrr, hsrej⟩ ⟨n, hn⟩
    rcases hn with hn | hn
    · exact (rr_safe_iff h hlower hn).mpr (hrr n hn) ⟨n, Or.inl hn⟩
    · exact (srej_safe_iff h hlower hn).mpr (hsrej n hn) ⟨n, Or.inr hn⟩

theorem SendStep.lower_le {s' : SendData} (h : Sending p w s) (hstep : SendStep p s t s')
    (hrun : s'.Running) (hin : ControlInRange s t)
    (hlower : s.window.lower ≤ s.dataSequenceNumber.toNat) :
    s'.window.lower ≤ s'.dataSequenceNumber.toNat := by
  cases hstep with
  | moved _ _ => exact hlower
  | eof _ => exact hlower
  | fresh q hphase hzero hnumber _ _ =>
    have hsent := SendData.sent_nonneg_of_running hrun
    obtain ⟨-, hnext⟩ := h.sendFresh (q := q) hzero hnumber hphase hsent
    rw [hnext]
    simp only [SendData.sendFresh, hzero]
    omega
  | crashed _ _ => exact hlower
  | slid n window hrr hslid =>
    have hnum := h.number_le
    have hlt := h.window.window_lt
    have hsize := h.windowSize
    have hn := ((rrInRange_iff (by omega)).mp (hin.rr n hrr)).1
    dsimp only
    rcases hslid.edges with ⟨-, hkeep, -⟩ | ⟨-, hnew, -⟩
    · rw [hkeep]
      exact hlower
    · rw [hnew]
      exact hn
  | resent _ _ _ _ _ _ _ => exact hlower
  | ignored => exact hlower

end Control

/-- In a run every RR and SREJ is handled safely exactly when each of them is in
range for the window it meets. -/
theorem controlSafe_of_run (p : Session) (heap : ℕ → ℕ → UInt8) (turns : List SendTurn)
    (hw : 1 ≤ toI32 p.windowSize) :
    Runs.EveryStep (sendTurn p) (ControlSafe p) (enterSendData p heap) turns ↔
    Runs.EveryStep (sendTurn p) ControlInRange (enterSendData p heap) turns := by
  refine Runs.everyStep_congr
    (I := fun s => s.Running → Sending p (toI32 p.windowSize) s ∧
      s.window.lower ≤ s.dataSequenceNumber.toNat) ?_ ?_ ?_
  · intro _
    exact ⟨enterSendData_sending heap hw, by simp [enterSendData, initSenderWindow]⟩
  · intro s t hI
    by_cases hs : s.Running
    · obtain ⟨h, hlower⟩ := hI hs
      exact controlSafe_iff h hlower
    · refine ⟨fun _ => ⟨?_, ?_⟩, ?_⟩
      · exact fun n hrr => absurd hrr.1.running hs
      · exact fun n hsrej => absurd hsrej.1.running hs
      · rintro - ⟨n, hn | hn⟩ <;> exact absurd hn.1.running hs
  · intro s t hI hin hrun
    have hs := running_of_sendTurn hrun
    obtain ⟨h, hlower⟩ := hI hs
    have hstep := sendTurn_step (t := t) h hs
    exact ⟨hstep.sending h hrun, hstep.lower_le h hrun hin hlower⟩

theorem controlSafe_of_run_first :
    Runs.EveryStep (sendTurn shortSession) (ControlSafe shortSession)
      (enterSendData shortSession fun _ _ => 0)
      [quietTurn none, quietTurn none, quietTurn none, quietTurn none,
        quietTurn (some [0, 0, 0, 2, 0, 0, 5])] :=
  (controlSafe_of_run shortSession (fun _ _ => 0)
    [quietTurn none, quietTurn none, quietTurn none, quietTurn none,
      quietTurn (some [0, 0, 0, 2, 0, 0, 5])] (by decide)).mpr (by
    have hquiet : ∀ s, ControlInRange s (quietTurn none) := fun s =>
      ⟨fun n h => absurd h.1.1 (by decide), fun n h => absurd h.1.1 (by decide)⟩
    refine ⟨hquiet _, hquiet _, hquiet _, hquiet _, ⟨?_, ?_⟩, trivial⟩
    · rintro n ⟨-, hn⟩
      have hcontrol : (quietTurn (some [0, 0, 0, 2, 0, 0, 5])).control = some (.rr 2) := by decide
      obtain rfl := Control.rr.inj (Option.some.inj (hn.symm.trans hcontrol))
      exact Or.inl (by decide +kernel)
    · rintro n ⟨-, hn⟩
      have hcontrol : (quietTurn (some [0, 0, 0, 2, 0, 0, 5])).control = some (.rr 2) := by decide
      cases hn.symm.trans hcontrol)

/-- An RR whose number is -1 as an `int` is looked up in slot -1. -/
theorem controlSafe_lost :
    ¬Runs.EveryStep (sendTurn shortSession) (ControlSafe shortSession)
      (enterSendData shortSession fun _ _ => 0)
      [quietTurn none, quietTurn none, quietTurn none, quietTurn none,
        quietTurn (some [255, 255, 255, 255, 0, 0, 5])] := by
  rintro ⟨-, -, -, -, hlast, -⟩
  have hrr : SendData.HandlesRR
      (sendTurn shortSession (sendTurn shortSession (sendTurn shortSession (sendTurn shortSession
        (enterSendData shortSession fun _ _ => 0) (quietTurn none)) (quietTurn none))
        (quietTurn none)) (quietTurn none))
      (quietTurn (some [255, 255, 255, 255, 0, 0, 5])) 4294967295 :=
    ⟨by decide +kernel, by decide +kernel⟩
  exact (hlast ⟨_, Or.inl hrr⟩).1 .outOfBounds (by decide +kernel)

end Rcopy
