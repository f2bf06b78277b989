import Rcopy.Lib.Runs
import Rcopy.ReceiverBuffer

/-!
# The ring of the receiver

Whatever is inserted, flushed or skipped in order, a valid slot of the reorder
buffer holds a number that belongs there. The window test compares an unsigned
number with a sum of ints, so it is sound as long as that sum is in range; a
number above it, up to the largest `uint32_t`, is discarded.
-/

namespace Rcopy

/-- The calls that change the reorder buffer, and the increment of `expected` in
`doInOrderState`. -/
inductive ReceiverOp
  | insert (recvBuffer : List UInt8) (receivedBytes : Int)
  | flush
  | advance

def ReceiverBuffer.apply (rb : ReceiverBuffer) : ReceiverOp → ReceiverBuffer
  | .insert recvBuffer receivedBytes => insertReceiverPacket rb recvBuffer receivedBytes
  | .flush => (flushBuffer rb).rbuf
  | .advance => { rb with expected := i32 (rb.expected + 1) }

/-- The slot indices of the loop of `flushBuffer`, one for each evaluation of its body. -/
def flushIndices : ℕ → ReceiverBuffer → List Int
  | 0, _ => []
  | n + 1, rb =>
    rb.expected.tmod rb.windowSize ::
      match flushStep rb with
      | none => []
      | some (rb', _) => flushIndices n rb'

/-- The slot indices that an operation computes. -/
def ReceiverBuffer.indices (rb : ReceiverBuffer) : ReceiverOp → List Int
  | .insert recvBuffer _ => [unsignedIndex (seqOf recvBuffer) rb.windowSize]
  | .flush =>
    flushIndices (rb.windowSize.toNat + 1) { rb with expected := i32 (rb.expected + 1) }
  | .advance => []

/-- `expected + window_size` is below 2^31; an `expected` that has passed it is negative. -/
def ReceiverBuffer.Below (rb : ReceiverBuffer) : Prop :=
  0 ≤ rb.expected ∧ rb.expected + rb.windowSize < 2147483648

instance : DecidablePred ReceiverBuffer.Below :=
  fun rb => inferInstanceAs
    (Decidable (0 ≤ rb.expected ∧ rb.expected + rb.windowSize < 2147483648))

structure RingInvariant (rb : ReceiverBuffer) : Prop where
  allocated : ∀ i, 0 ≤ i → i < rb.windowSize → ∃ p, Ring.slot rb.buffer i = some p
  number : ∀ i p, Ring.slot rb.buffer i = some p → p.valid ≠ 0 →
    p.sequenceNumber % rb.windowSize = i ∧ 0 ≤ p.sequenceNumber ∧
      p.sequenceNumber ≤ rb.expected + rb.windowSize
  distinct : ∀ i j p q, Ring.slot rb.buffer i = some p → Ring.slot rb.buffer j = some q →
    p.valid ≠ 0 → q.valid ≠ 0 → p.sequenceNumber = q.sequenceNumber → i = j

def Packet.number (p : Packet) : Option Int := if p.valid ≠ 0 then some p.sequenceNumber else none

/-- The slots are allocated and file their numbers up to `hi`. -/
structure ReceiverBuffer.Files (hi : Int) (rb : ReceiverBuffer) : Prop where
  wellFormed : rb.WellFormed
  filed : Ring.Filed Packet.number rb.windowSize hi rb.buffer

theorem ReceiverBuffer.Files.ringInvariant {rb : ReceiverBuffer}
    (h : rb.Files (rb.expected + rb.windowSize)) : RingInvariant rb := by
  have hnum : ∀ p : Packet, p.valid ≠ 0 → p.number = some p.sequenceNumber :=
    fun p hp => if_pos hp
  refine ⟨?_, ?_, ?_⟩
  · intro i hi₀ hi
    exact h.wellFormed.allocated i hi₀ (by rw [h.wellFormed.length]; exact hi)
  · intro i p hp hvalid
    exact h.filed i p _ hp (hnum p hvalid)
  · intro i j p q hp hq hpv hqv heq
    exact h.filed.unique hp hq (hnum p hpv) (by rw [hnum q hqv, heq])

theorem insertReceiverPacket_files {rb : ReceiverBuffer} (hbelow : rb.Below)
    (h : rb.Files (rb.expected + rb.windowSize)) (recvBuffer : List UInt8) (receivedBytes : Int) :
    (insertReceiverPacket rb recvBuffer receivedBytes).Files (rb.expected + rb.windowSize) := by
  obtain ⟨h₀, hmax⟩ := hbelow
  have hpos := h.wellFormed.window_pos
  refine ⟨insertReceiverPacket_wellFormed h.wellFormed _ _, ?_⟩
  simp only [insertReceiverPacket]
  split_ifs with hbytes hbeyond
  · exact h.filed
  · exact h.filed
  · have hedge := toU32_toNat_of_range (x := rb.expected + rb.windowSize) (by omega) (by omega)
    rw [i32_of_range (by omega) (by omega), UInt32.lt_iff_toNat_lt] at hbeyond
    have hseq : toI32 (seqOf recvBuffer) = (seqOf recvBuffer).toNat := toI32_of_lt (by omega)
    dsimp only
    refine h.filed.update ?_
    intro p n hn
    have hnum : (Packet.store (seqOf recvBuffer) recvBuffer receivedBytes p).number =
        some (toI32 (seqOf recvBuffer)) := rfl
    rw [hnum, hseq] at hn
    obtain rfl := Option.some.inj hn
    refine ⟨?_, by omega, by omega⟩
    rw [unsignedIndex_eq _ hpos (by omega)]

/-- A packet that the flush loop writes has the number `expected`, which is in range;
only the increment after the last one can pass it. -/
theorem flushStep_files {e hi : Int} (hhi : hi < 2147483648) {rb rb' : ReceiverBuffer} {w : FWrite}
    (h : rb.Files hi ∧ (e < rb.expected ∨ rb.expected < 0)) (hs : flushStep rb = some (rb', w)) :
    0 ≤ rb.expected ∧ rb'.Files hi ∧ (e < rb'.expected ∨ rb'.expected < 0) := by
  obtain ⟨⟨hwf, hfiled⟩, hexp⟩ := h
  obtain ⟨p, hp, hseq, hvalid, rfl, -⟩ := flushStep_cases hs
  have hnum : p.number = some rb.expected := by
    rw [Packet.number, if_pos (by omega), hseq]
  obtain ⟨-, hlow, hhigh⟩ := hfiled _ p _ hp hnum
  refine ⟨hlow, ⟨⟨hwf.window_pos, ?_, hwf.allocated.update _ _⟩, ?_⟩, ?_⟩
  · simpa only [Ring.length_update] using hwf.length
  · refine hfiled.update ?_
    intro q n hn
    cases hn
  · dsimp only
    rcases i32_succ_cases hlow (by omega) with ⟨-, hnext⟩ | ⟨-, hneg⟩
    · left
      omega
    · exact Or.inr hneg

theorem ReceiverBuffer.Files.stepped {rb : ReceiverBuffer} (hbelow : rb.Below)
    (h : rb.Files (rb.expected + rb.windowSize)) :
    { rb with expected := i32 (rb.expected + 1) }.Files (rb.expected + rb.windowSize) ∧
      i32 (rb.expected + 1) = rb.expected + 1 := by
  obtain ⟨h₀, hmax⟩ := hbelow
  have hpos := h.wellFormed.window_pos
  exact ⟨⟨⟨hpos, h.wellFormed.length, h.wellFormed.allocated⟩, h.filed⟩,
    i32_of_range (by omega) (by omega)⟩

theorem flushBuffer_files {rb : ReceiverBuffer} (hbelow : rb.Below)
    (h : rb.Files (rb.expected + rb.windowSize)) :
    (flushBuffer rb).rbuf.Files (rb.expected + rb.windowSize) ∧
      (rb.expected < (flushBuffer rb).rbuf.expected ∨ (flushBuffer rb).rbuf.expected < 0) := by
  obtain ⟨hfiles, hnext⟩ := h.stepped hbelow
  refine flushLoop_keep
    (P := fun r => r.Files (rb.expected + rb.windowSize) ∧
      (rb.expected < r.expected ∨ r.expected < 0)) ?_ _ ⟨hfiles, Or.inl ?_⟩
  · intro r r' w hr hs
    exact (flushStep_files hbelow.2 hr hs).2
  · dsimp only
    omega

theorem flushIndices_range {e hi : Int} (hhi : hi < 2147483648) (n : ℕ) {rb : ReceiverBuffer}
    (h : rb.Files hi ∧ (e < rb.expected ∨ rb.expected < 0))
    (hend : 0 ≤ (flushLoop n rb).rbuf.expected) :
    ∀ i ∈ flushIndices n rb, 0 ≤ i ∧ i < rb.windowSize := by
  induction n generalizing rb with
  | zero => simp [flushIndices]
  | succ n ih =>
    have hpos := h.1.wellFormed.window_pos
    have hhead : 0 ≤ rb.expected → 0 ≤ rb.expected.tmod rb.windowSize ∧
        rb.expected.tmod rb.windowSize < rb.windowSize := fun h₀ =>
      ⟨Int.tmod_nonneg _ h₀, Int.tmod_lt_of_pos _ (by omega)⟩
    simp only [flushLoop] at hend
    simp only [flushIndices, List.forall_mem_cons]
    cases hs : flushStep rb with
    | none =>
      rw [hs] at hend
      exact ⟨hhead hend, by simp⟩
    | some r =>
      rw [hs] at hend
      obtain ⟨h₀, hfiles⟩ := flushStep_files hhi h hs
      obtain ⟨p, -, -, -, hr, -⟩ := flushStep_cases hs
      have hsize : r.1.windowSize = rb.windowSize := by rw [hr]
      have hrest := ih hfiles hend
      rw [hsize] at hrest
      exact ⟨hhead h₀, hrest⟩

/-- What every operation keeps, for as long as `expected` has not passed its range. -/
def FilesWindow (w : Int) (rb : ReceiverBuffer) : Prop :=
  rb.windowSize = w ∧ (0 ≤ rb.expected → rb.Files (rb.expected + rb.windowSize))

theorem apply_filesWindow {w : Int} {rb : ReceiverBuffer} (op : ReceiverOp) (hbelow : rb.Below)
    (h : FilesWindow w rb) : FilesWindow w (rb.apply op) := by
  obtain ⟨hw, hfiles⟩ := h
  have hfiles := hfiles hbelow.1
  cases op with
  | insert recvBuffer receivedBytes =>
    refine ⟨(insertReceiverPacket_windowSize _ _ _).trans hw, fun _ => ?_⟩
    rw [ReceiverBuffer.apply, insertReceiverPacket_expected, insertReceiverPacket_windowSize]
    exact insertReceiverPacket_files hbelow hfiles recvBuffer receivedBytes
  | flush =>
    obtain ⟨hflushed, hexp⟩ := flushBuffer_files hbelow hfiles
    have hsize : (flushBuffer rb).rbuf.windowSize = rb.windowSize := by
      obtain ⟨buffer, expected, hb⟩ := flushLoop_frame (rb.windowSize.toNat + 1)
        { rb with expected := i32 (rb.expected + 1) }
      rw [flushBuffer, hb]
    refine ⟨hsize.trans hw, fun h₀ => ⟨hflushed.wellFormed, hflushed.filed.mono ?_⟩⟩
    simp only [ReceiverBuffer.apply] at h₀ ⊢
    rw [hsize]
    omega
  | advance =>
    obtain ⟨hstepped, hnext⟩ := hfiles.stepped hbelow
    refine ⟨hw, fun _ => ⟨hstepped.wellFormed, hstepped.filed.mono ?_⟩⟩
    simp only [ReceiverBuffer.apply]
    omega

/-- From `initReceiverBuffer` on, in any sequence of inserts, flushes and in-order
advances, the slot indices stay in the ring and its invariant holds. -/
theorem ring_invariant (raw : ReceiverBuffer) (bufferSize windowSize : Int) (ops : List ReceiverOp)
    (hw : 1 ≤ windowSize)
    (hbelow : Runs.Always ReceiverBuffer.apply ReceiverBuffer.Below
      (initReceiverBuffer raw bufferSize windowSize) ops) :
    Runs.Always ReceiverBuffer.apply RingInvariant
      (initReceiverBuffer raw bufferSize windowSize) ops ∧
    Runs.EveryStep ReceiverBuffer.apply
      (fun rb op => ∀ i ∈ rb.indices op, 0 ≤ i ∧ i < windowSize)
      (initReceiverBuffer raw bufferSize windowSize) ops := by
  have hinit : FilesWindow windowSize (initReceiverBuffer raw bufferSize windowSize) := by
    refine ⟨rfl, fun _ => ⟨initReceiverBuffer_wellFormed raw bufferSize hw, ?_⟩⟩
    intro i p n hp hn
    rw [initReceiverBuffer_slot hp] at hn
    cases hn
  constructor
  · refine Runs.Always.mono₂ ?_ hbelow
      (Runs.always_of_guard (fun rb op => apply_filesWindow op) hinit hbelow)
    intro rb hb h
    exact (h.2 hb.1).ringInvariant
  · refine Runs.everyStep_of_guard (fun rb op => apply_filesWindow op) ?_ hinit hbelow
    intro rb op hb hb' h i hi
    have hfiles := h.2 hb.1
    have hpos := hfiles.wellFormed.window_pos
    have hmax := hb.2
    have hlow := hb.1
    rw [← h.1]
    cases op with
    | insert recvBuffer receivedBytes =>
      simp only [ReceiverBuffer.indices, List.mem_singleton] at hi
      rw [hi, unsignedIndex_eq _ hpos (by omega)]
      exact ⟨Int.emod_nonneg _ (by omega), Int.emod_lt_of_pos _ (by omega)⟩
    | flush =>
      obtain ⟨hstepped, hnext⟩ := hfiles.stepped hb
      refine flushIndices_range (e := rb.expected) hmax _ ⟨hstepped, Or.inl ?_⟩ hb'.1 i hi
      dsimp only
      omega
    | advance => cases hi

theorem ring_invariant_wrapped :
    Runs.Always ReceiverBuffer.apply RingInvariant freshBuffer
      [.insert [0, 0, 0, 2, 0, 0, 16, 66] 8, .advance, .flush,
        .insert [255, 255, 255, 255, 0, 0, 16, 67] 8] :=
  (ring_invariant ⟨[], 0, 0, 0, 0, List.replicate 11 0, 0, 0⟩ 1 2 _ (by decide) (by decide)).1

end Rcopy
