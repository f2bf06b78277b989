import Mathlib.Order.Bounds.Defs
import Rcopy.ReceiverBuffer

/-!
# What one flush drains

`flushBuffer` steps over `expected` and then drains the run of consecutive
packets behind it. The run is never longer than the ring, so its numbers have
different slots and the loop meets every slot as it was before the flush.
-/

namespace Rcopy

open Bytes

namespace ReceiverBuffer

/-- What the slot of the number `n` holds. -/
def packet (rb : ReceiverBuffer) (n : Int) : Option Packet :=
  Ring.slot rb.buffer (n % rb.windowSize)

/-- The packet `n` stands in its slot, valid. -/
def Holds (rb : ReceiverBuffer) (n : Int) : Prop :=
  ∃ p, rb.packet n = some p ∧ p.valid = 1 ∧ p.sequenceNumber = n

def HoldsRun (rb : ReceiverBuffer) (r : ℕ) : Prop :=
  ∀ j : ℕ, 1 ≤ j → j ≤ r → rb.Holds (rb.expected + j)

end ReceiverBuffer

/-- The call of `fwrite` for a packet of the ring. -/
def Packet.fwrite (p : Packet) : FWrite where
  seq := p.sequenceNumber
  src := p.data.drop 7
  count := toSize (i32 (p.dataSize - 7))

/-- The buffer after one turn of the flush loop that finds its packet. -/
def ReceiverBuffer.cleared (rb : ReceiverBuffer) : ReceiverBuffer :=
  { rb with
    buffer := Ring.update rb.buffer (rb.expected % rb.windowSize) Packet.clear
    expected := rb.expected + 1 }

/-- What the loop of `flushBuffer` leaves when it drains `r` packets from `expected` on. -/
def ReceiverBuffer.drained (rb : ReceiverBuffer) (r : ℕ) : Flushed where
  rbuf := { rb with
    buffer := Ring.updateRange rb.windowSize Packet.clear r rb.expected rb.buffer
    expected := rb.expected + r }
  writes := (List.range r).filterMap fun j : ℕ =>
    (rb.packet (rb.expected + j)).map Packet.fwrite
  packetsFlushed := r

section Loop

variable {rb : ReceiverBuffer}

theorem flushStep_of_holds (h₀ : 0 ≤ rb.expected) (hmax : rb.expected + 1 < 2147483648)
    (h : rb.Holds rb.expected) :
    ∃ p, rb.packet rb.expected = some p ∧ flushStep rb = some (rb.cleared, p.fwrite) := by
  obtain ⟨p, hp, hvalid, hseq⟩ := h
  refine ⟨p, hp, ?_⟩
  rw [ReceiverBuffer.packet] at hp
  have hnext : i32 (rb.expected + 1) = rb.expected + 1 := i32_of_range (by omega) hmax
  simp only [flushStep, Int.tmod_eq_emod_of_nonneg h₀, hp, hseq, hvalid, and_self, if_true,
    Packet.fwrite, ReceiverBuffer.cleared, hnext]

theorem flushStep_of_gap (h₀ : 0 ≤ rb.expected) (h : ¬rb.Holds rb.expected) :
    flushStep rb = none := by
  simp only [flushStep, Int.tmod_eq_emod_of_nonneg h₀]
  cases hp : Ring.slot rb.buffer (rb.expected % rb.windowSize) with
  | none => rfl
  | some p =>
    dsimp only
    rw [if_neg]
    rintro ⟨hseq, hvalid⟩
    exact h ⟨p, hp, hvalid, hseq⟩

theorem flushLoop_of_gap (m : ℕ) (h₀ : 0 ≤ rb.expected) (h : ¬rb.Holds rb.expected) :
    flushLoop m rb = ⟨rb, [], 0⟩ := by
  cases m with
  | zero => rfl
  | succ m => simp only [flushLoop, flushStep_of_gap h₀ h]

theorem flushLoop_stopped {n : ℕ} (h : (flushLoop n rb).packetsFlushed < n) :
    flushStep (flushLoop n rb).rbuf = none := by
  induction n generalizing rb with
  | zero => omega
  | succ n ih =>
    simp only [flushLoop] at h ⊢
    cases hs : flushStep rb with
    | none => exact hs
    | some r =>
      rw [hs] at h
      dsimp only at h
      exact ih (by omega)

theorem cleared_packet {n : Int} (h₁ : rb.expected < n) (h₂ : n < rb.expected + rb.windowSize) :
    rb.cleared.packet n = rb.packet n :=
  Ring.slot_update_ne (Ring.emod_ne_of_lt (by omega) (by omega) (by omega)) _ _

theorem holds_of_cleared {n : Int} (h : rb.cleared.Holds n) : rb.Holds n := by
  obtain ⟨p, hp, hvalid, hseq⟩ := h
  rcases Ring.slot_update_eq_some hp with ⟨-, q, -, rfl⟩ | ⟨-, hp⟩
  · cases hvalid
  · exact ⟨p, hp, hvalid, hseq⟩

/-- The loop drains a run that ends at a gap, whatever bound it is given. -/
theorem flushLoop_eq_drained (r m : ℕ) {rb : ReceiverBuffer} (h₀ : 0 ≤ rb.expected)
    (hr : r ≤ rb.windowSize) (hmax : rb.expected + r < 2147483648)
    (hrun : ∀ j : ℕ, j < r → rb.Holds (rb.expected + j)) (hgap : ¬rb.Holds (rb.expected + r)) :
    flushLoop (r + m) rb = rb.drained r := by
  induction r generalizing rb with
  | zero =>
    have hgap : ¬rb.Holds rb.expected := by simpa using hgap
    rw [flushLoop_of_gap _ h₀ hgap]
    simp [ReceiverBuffer.drained, Ring.updateRange]
  | succ r ih =>
    push_cast at hr hmax hgap
    have hfirst : rb.Holds rb.expected := by simpa using hrun 0 (by omega)
    obtain ⟨p, hp, hstep⟩ := flushStep_of_holds h₀ (by omega) hfirst
    have hnext : ∀ j : ℕ, rb.cleared.expected + j = rb.expected + (j + 1) := by
      intro j
      simp only [ReceiverBuffer.cleared]
      ring
    have hsame : ∀ j : ℕ, j < r →
        rb.cleared.packet (rb.cleared.expected + j) = rb.packet (rb.expected + (j + 1)) := by
      intro j hj
      rw [hnext]
      exact cleared_packet (by omega) (by omega)
    have hrest := @ih rb.cleared (by dsimp only [ReceiverBuffer.cleared]; omega)
      (by dsimp only [ReceiverBuffer.cleared]; omega) (by rw [hnext]; omega)
      (by
        intro j hj
        have hheld := hrun (j + 1) (by omega)
        push_cast at hheld
        rwa [ReceiverBuffer.Holds, hsame j hj, hnext])
      (by
        intro h
        rw [hnext] at h
        exact hgap (holds_of_cleared h))
    have hwrites : (List.range r).filterMap (fun j : ℕ =>
        (rb.cleared.packet (rb.cleared.expected + j)).map Packet.fwrite) =
        (List.range r).filterMap (fun j : ℕ =>
          (rb.packet (rb.expected + ((j + 1 : ℕ) : Int))).map Packet.fwrite) := by
      refine List.filterMap_congr ?_
      intro j hj
      rw [hsame j (List.mem_range.mp hj)]
      rfl
    rw [show r + 1 + m = r + m + 1 by omega]
    simp only [flushLoop, hstep, hrest]
    simp only [ReceiverBuffer.drained, hwrites, List.range_succ_eq_map, List.filterMap_cons,
      List.filterMap_map, Nat.cast_zero, add_zero, hp, Option.map_some, Ring.updateRange]
    refine congrArg₂ (fun b e => Flushed.mk { rb with buffer := b, expected := e } _ (r + 1)) ?_ ?_
    · rfl
    · rw [hnext]
      push_cast
      rfl

theorem ReceiverBuffer.Holds.unique {m n : Int} (hm : rb.Holds m) (hn : rb.Holds n)
    (h : m % rb.windowSize = n % rb.windowSize) : m = n := by
  obtain ⟨p, hp, -, rfl⟩ := hm
  obtain ⟨q, hq, -, rfl⟩ := hn
  rw [ReceiverBuffer.packet, h] at hp
  rw [ReceiverBuffer.packet, hp] at hq
  rw [Option.some.inj hq]

/-- Two numbers one ring apart share a slot, so a run ends within one ring. -/
theorem run_le_windowSize (hw : 1 ≤ rb.windowSize) {e : Int} {r : ℕ}
    (h : ∀ j : ℕ, j < r → rb.Holds (e + j)) : r ≤ rb.windowSize := by
  by_contra hlong
  have hfirst := h 0 (by omega)
  have hlast := h rb.windowSize.toNat (by omega)
  rw [Int.toNat_of_nonneg (by omega)] at hlast
  have heq := hfirst.unique hlast (by simp)
  simp only [Nat.cast_zero] at heq
  omega

theorem exists_gap (hw : 1 ≤ rb.windowSize) (e : Int) :
    ∃ r : ℕ, (∀ j : ℕ, j < r → rb.Holds (e + j)) ∧ ¬rb.Holds (e + r) := by
  classical
  have hgap : ∃ r : ℕ, ¬rb.Holds (e + r) := by
    by_contra hall
    push Not at hall
    have hle := run_le_windowSize (r := rb.windowSize.toNat + 1) hw fun j _ => hall j
    push_cast at hle
    omega
  exact ⟨Nat.find hgap, fun j hj => not_not.mp (Nat.find_min hgap hj), Nat.find_spec hgap⟩

theorem flushLoop_of_run {r n : ℕ} (hw : 1 ≤ rb.windowSize) (h₀ : 0 ≤ rb.expected)
    (hmax : rb.expected + 1 + r < 2147483648)
    (hrun : ∀ j : ℕ, j < r → rb.Holds (rb.expected + 1 + j))
    (hgap : ¬rb.Holds (rb.expected + 1 + r)) (hn : r ≤ n) :
    flushLoop n { rb with expected := i32 (rb.expected + 1) } =
      { rb with expected := rb.expected + 1 }.drained r := by
  have hr := run_le_windowSize hw hrun
  obtain ⟨m, rfl⟩ := Nat.exists_eq_add_of_le hn
  rw [i32_of_range (by omega) (by omega)]
  exact flushLoop_eq_drained r m (by dsimp only; omega) hr hmax hrun hgap

theorem flushBuffer_of_run {r : ℕ} (hw : 1 ≤ rb.windowSize) (h₀ : 0 ≤ rb.expected)
    (hmax : rb.expected + 1 + r < 2147483648)
    (hrun : ∀ j : ℕ, j < r → rb.Holds (rb.expected + 1 + j))
    (hgap : ¬rb.Holds (rb.expected + 1 + r)) :
    flushBuffer rb = { rb with expected := rb.expected + 1 }.drained r :=
  flushLoop_of_run hw h₀ hmax hrun hgap (by
    have hr := run_le_windowSize hw hrun
    omega)

end Loop

/-- A flush from `rb` that drains exactly the `r` packets behind `expected`. -/
structure Drains (rb : ReceiverBuffer) (r : ℕ) (f : Flushed) : Prop where
  packetsFlushed : f.packetsFlushed = r
  seqs : f.writes.map FWrite.seq = (List.range r).map fun j : ℕ => rb.expected + 1 + j
  sources : ∀ w ∈ f.writes, ∃ p, rb.packet w.seq = some p ∧ w.src = p.data.drop 7
  rbuf : ∃ buffer, buffer.length = rb.buffer.length ∧
    f.rbuf = { rb with buffer := buffer, expected := rb.expected + 1 + r }
  cleared : ∀ j : ℕ, 1 ≤ j → j ≤ r →
    f.rbuf.packet (rb.expected + j) = (rb.packet (rb.expected + j)).map Packet.clear
  kept : ∀ i, (∀ j : ℕ, 1 ≤ j → j ≤ r → (rb.expected + j) % rb.windowSize ≠ i) →
    Ring.slot f.rbuf.buffer i = Ring.slot rb.buffer i

section Flush

variable {rb : ReceiverBuffer}

theorem holdsRun_iff {r : ℕ} :
    rb.HoldsRun r ↔ ∀ j : ℕ, j < r → rb.Holds (rb.expected + 1 + j) := by
  constructor
  · intro h j hj
    have hnext := h (j + 1) (by omega) (by omega)
    rwa [show rb.expected + ((j + 1 : ℕ) : Int) = rb.expected + 1 + j by push_cast; ring] at hnext
  · intro h j h₁ hj
    obtain ⟨k, rfl⟩ := Nat.exists_eq_add_of_le' h₁
    have hprev := h k (by omega)
    rwa [show rb.expected + 1 + (k : Int) = rb.expected + ((k + 1 : ℕ) : Int) by
      push_cast; ring] at hprev

theorem holdsRun_isGreatest {r : ℕ} (hrun : rb.HoldsRun r)
    (hgap : ¬rb.Holds (rb.expected + 1 + r)) : IsGreatest {r | rb.HoldsRun r} r := by
  refine ⟨hrun, ?_⟩
  intro s hs
  by_contra hlt
  exact hgap (holdsRun_iff.mp hs r (by omega))

theorem drains_of_run {r : ℕ} (hr : r ≤ rb.windowSize)
    (hrun : ∀ j : ℕ, j < r → rb.Holds (rb.expected + 1 + j)) :
    Drains rb r ({ rb with expected := rb.expected + 1 }.drained r) := by
  have hwrites : ∀ j ∈ List.range r, ((rb.packet (rb.expected + 1 + j)).map Packet.fwrite).map
      FWrite.seq = some (rb.expected + 1 + j) := by
    intro j hj
    obtain ⟨p, hp, -, hseq⟩ := hrun j (List.mem_range.mp hj)
    rw [hp, Option.map_some, Option.map_some, ← hseq]
    rfl
  refine ⟨rfl, ?_, ?_, ⟨_, Ring.length_updateRange _, rfl⟩, ?_, ?_⟩
  · simp only [ReceiverBuffer.drained, List.map_filterMap]
    exact (List.filterMap_congr hwrites).trans (congrFun List.filterMap_eq_map' _)
  · intro w hw
    obtain ⟨j, hj, hjw⟩ := List.mem_filterMap.mp hw
    obtain ⟨p, hp, rfl⟩ := Option.map_eq_some_iff.mp hjw
    obtain ⟨q, hq, -, hseq⟩ := hrun j (List.mem_range.mp hj)
    obtain rfl : q = p := Option.some.inj (hq.symm.trans hp)
    refine ⟨q, ?_, rfl⟩
    rw [Packet.fwrite, hseq]
    exact hq
  · intro j h₁ hj
    exact Ring.slot_updateRange_passed _ hr (by dsimp only; omega) (by dsimp only; omega)
  · intro i hi
    refine Ring.slot_updateRange_kept _ ?_
    intro j h₁ h₂
    dsimp only at h₁ h₂
    have h := hi (j - rb.expected).toNat (by omega) (by omega)
    rwa [Int.toNat_of_nonneg (by omega), show rb.expected + (j - rb.expected) = j by ring] at h

theorem Drains.mem_seqs {r : ℕ} {f : Flushed} (h : Drains rb r f) (n : Int) :
    n ∈ f.writes.map FWrite.seq ↔ rb.expected < n ∧ n ≤ rb.expected + r := by
  rw [h.seqs]
  simp only [List.mem_map, List.mem_range]
  constructor
  · rintro ⟨j, hj, rfl⟩
    omega
  · rintro ⟨hlow, hhigh⟩
    exact ⟨(n - rb.expected - 1).toNat, by omega, by omega⟩

theorem Drains.expected {r : ℕ} {f : Flushed} (h : Drains rb r f) :
    f.rbuf.expected = rb.expected + 1 + r := by
  obtain ⟨buffer, -, hf⟩ := h.rbuf
  rw [hf]

theorem Drains.windowSize {r : ℕ} {f : Flushed} (h : Drains rb r f) :
    f.rbuf.windowSize = rb.windowSize := by
  obtain ⟨buffer, -, hf⟩ := h.rbuf
  rw [hf]

theorem Drains.holds_iff {r : ℕ} {f : Flushed} (h : Drains rb r f) (hrun : rb.HoldsRun r)
    (n : Int) : f.rbuf.Holds n ↔ rb.Holds n ∧ ¬(rb.expected < n ∧ n ≤ rb.expected + r) := by
  by_cases hslot : ∃ j : ℕ, 1 ≤ j ∧ j ≤ r ∧
      (rb.expected + j) % rb.windowSize = n % rb.windowSize
  · obtain ⟨j, h₁, hj, hres⟩ := hslot
    constructor
    · rintro ⟨p, hp, hvalid, -⟩
      have hcleared := h.cleared j h₁ hj
      rw [ReceiverBuffer.packet, h.windowSize, hres, ← h.windowSize, ← ReceiverBuffer.packet, hp,
        eq_comm, Option.map_eq_some_iff] at hcleared
      obtain ⟨q, -, rfl⟩ := hcleared
      cases hvalid
    · rintro ⟨hheld, hout⟩
      have heq := (hrun j h₁ hj).unique hheld hres
      omega
  · push Not at hslot
    have hsame : f.rbuf.packet n = rb.packet n := by
      rw [ReceiverBuffer.packet, h.windowSize]
      exact h.kept _ hslot
    have hout : ¬(rb.expected < n ∧ n ≤ rb.expected + r) := by
      rintro ⟨hlow, hhigh⟩
      refine hslot (n - rb.expected).toNat (by omega) (by omega) ?_
      rw [Int.toNat_of_nonneg (by omega), show rb.expected + (n - rb.expected) = n by ring]
    rw [ReceiverBuffer.Holds, hsame]
    exact ⟨fun hheld => ⟨hheld, hout⟩, And.left⟩

theorem flushBuffer_run (hw : 1 ≤ rb.windowSize) (h₀ : 0 ≤ rb.expected)
    (hmax : rb.expected + 1 + rb.windowSize < 2147483648) :
    ∃ r : ℕ, rb.HoldsRun r ∧ ¬rb.Holds (rb.expected + 1 + r) ∧ Drains rb r (flushBuffer rb) := by
  obtain ⟨r, hrun, hgap⟩ := exists_gap hw (rb.expected + 1)
  have hr := run_le_windowSize hw hrun
  have hflush := flushBuffer_of_run hw h₀ (by omega) hrun hgap
  rw [hflush]
  exact ⟨r, holdsRun_iff.mpr hrun, hgap, drains_of_run hr hrun⟩

/-- `flushBuffer` drains the longest run of consecutive packets behind `expected`
and nothing else, and its loop ends by itself. -/
theorem flushBuffer_drains (rb : ReceiverBuffer) (hw : 1 ≤ rb.windowSize) (h₀ : 0 ≤ rb.expected)
    (hmax : rb.expected < 2147483648 - 2 - rb.windowSize) :
    ∃ r : ℕ, IsGreatest {r | rb.HoldsRun r} r ∧ r ≤ rb.windowSize ∧
      Drains rb r (flushBuffer rb) ∧ flushStep (flushBuffer rb).rbuf = none ∧
      ∀ n, r ≤ n → flushLoop n { rb with expected := i32 (rb.expected + 1) } = flushBuffer rb := by
  obtain ⟨r, hrun, hgap, hdrains⟩ := flushBuffer_run hw h₀ (by omega)
  have hr := run_le_windowSize hw (holdsRun_iff.mp hrun)
  have hloop : ∀ n, r ≤ n → flushLoop n { rb with expected := i32 (rb.expected + 1) } =
      { rb with expected := rb.expected + 1 }.drained r := fun n hn =>
    flushLoop_of_run hw h₀ (by omega) (holdsRun_iff.mp hrun) hgap hn
  refine ⟨r, holdsRun_isGreatest hrun hgap, hr, hdrains, ?_, ?_⟩
  · apply flushLoop_stopped
    rw [← flushBuffer, hdrains.packetsFlushed]
    omega
  · intro n hn
    rw [flushBuffer, hloop n hn, hloop _ (by omega)]

end Flush

/-- A ring of two slots that holds the packets 1 and 2. -/
def fullRing : ReceiverBuffer :=
  insertAll freshBuffer [[0, 0, 0, 2, 0, 0, 16, 66], [0, 0, 0, 1, 0, 0, 16, 65]]

theorem flushBuffer_drains_fullRing :
    ∃ r : ℕ, IsGreatest {r | fullRing.HoldsRun r} r ∧ r ≤ fullRing.windowSize ∧
      Drains fullRing r (flushBuffer fullRing) ∧ flushStep (flushBuffer fullRing).rbuf = none ∧
      ∀ n, r ≤ n →
        flushLoop n { fullRing with expected := i32 (fullRing.expected + 1) } =
          flushBuffer fullRing :=
  flushBuffer_drains fullRing (by decide) (by decide) (by decide)

end Rcopy
