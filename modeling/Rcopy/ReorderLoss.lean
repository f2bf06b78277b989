import Rcopy.Lib.Runs
import Rcopy.ReceiverFlush

/-!
# Packets that the reorder buffer loses

The window test lets `window_size + 1` numbers into `window_size` slots:
`expected` and `expected + window_size` share one. And `flushBuffer` steps over
`expected` as if that packet had been written elsewhere. An accepted packet is
lost in these two ways and in no other.
-/

namespace Rcopy

open Bytes

inductive ReorderCall
  | insert (recvBuffer : List UInt8) (receivedBytes : Int)
  | flush

/-- The reorder buffer with the numbers that it has accepted and not written yet. -/
structure Reorder where
  rbuf : ReceiverBuffer
  pending : List Int

/-- `insertReceiverPacket` does not discard the packet. -/
def ReceiverBuffer.Accepts (rb : ReceiverBuffer) (recvBuffer : List UInt8) (receivedBytes : Int) :
    Prop :=
  0 < receivedBytes ∧ ¬toU32 (i32 (rb.expected + rb.windowSize)) < seqOf recvBuffer

instance (rb : ReceiverBuffer) (recvBuffer : List UInt8) (receivedBytes : Int) :
    Decidable (rb.Accepts recvBuffer receivedBytes) :=
  inferInstanceAs (Decidable (_ ∧ _))

/-- One call. `handleDataPacket` makes no insertion for a number below `expected`. -/
def Reorder.step (s : Reorder) : ReorderCall → Reorder
  | .insert recvBuffer receivedBytes =>
    if seqOf recvBuffer < toU32 s.rbuf.expected then s
    else
      { rbuf := insertReceiverPacket s.rbuf recvBuffer receivedBytes
        pending :=
          if s.rbuf.Accepts recvBuffer receivedBytes then toI32 (seqOf recvBuffer) :: s.pending
          else s.pending }
  | .flush =>
    { rbuf := (flushBuffer s.rbuf).rbuf
      pending := s.pending.filter (· ∉ (flushBuffer s.rbuf).writes.map FWrite.seq) }

def enterReorder (raw : ReceiverBuffer) (bufferSize windowSize : Int) : Reorder where
  rbuf := initReceiverBuffer raw bufferSize windowSize
  pending := []

/-- Every accepted packet that has not been written is in its slot, and `expected`
has not passed it. -/
def Reorder.Kept (s : Reorder) : Prop :=
  ∀ n ∈ s.pending, s.rbuf.Holds n ∧ s.rbuf.expected ≤ n

/-- The sums that the two functions form are in the range of an `int`. -/
def ReceiverBuffer.InRange (rb : ReceiverBuffer) : Prop :=
  0 ≤ rb.expected ∧ rb.expected + rb.windowSize + 1 < 2147483648

instance : DecidablePred ReceiverBuffer.InRange :=
  fun _ => inferInstanceAs (Decidable (_ ∧ _))

/-- The two numbers that share a slot are not stored one over the other, and a flush
finds no packet at the number that it steps over. -/
def Reorder.Safe (s : Reorder) : ReorderCall → Prop
  | .insert recvBuffer receivedBytes =>
    0 < receivedBytes →
      ¬((seqOf recvBuffer).toNat = s.rbuf.expected ∧
          s.rbuf.Holds (s.rbuf.expected + s.rbuf.windowSize)) ∧
      ¬((seqOf recvBuffer).toNat = s.rbuf.expected + s.rbuf.windowSize ∧
          s.rbuf.Holds s.rbuf.expected)
  | .flush => ¬s.rbuf.Holds s.rbuf.expected

/-- Exactly the pending packets are in their slots, and the window reaches them. -/
structure Reorder.Tracks (s : Reorder) : Prop where
  wellFormed : s.rbuf.WellFormed
  pending_iff : ∀ n, n ∈ s.pending ↔ s.rbuf.Holds n
  range : ∀ n ∈ s.pending, s.rbuf.expected ≤ n ∧ n ≤ s.rbuf.expected + s.rbuf.windowSize

theorem Reorder.Tracks.kept {s : Reorder} (h : s.Tracks) : s.Kept :=
  fun n hn => ⟨(h.pending_iff n).mp hn, (h.range n hn).1⟩

theorem enterReorder_tracks (raw : ReceiverBuffer) (bufferSize : Int) {windowSize : Int}
    (hw : 1 ≤ windowSize) : (enterReorder raw bufferSize windowSize).Tracks := by
  refine ⟨initReceiverBuffer_wellFormed raw bufferSize hw, ?_, by simp [enterReorder]⟩
  intro n
  simp only [enterReorder, List.not_mem_nil, false_iff]
  rintro ⟨p, hp, hvalid, -⟩
  rw [initReceiverBuffer_slot hp] at hvalid
  cases hvalid

section Steps

variable {s : Reorder} {rb : ReceiverBuffer} {recvBuffer : List UInt8} {receivedBytes : Int}

/-- An accepted number is in the window and the slot of its packet is overwritten. -/
theorem insert_accepted (hrange : rb.InRange) (hw : rb.WellFormed)
    (hnew : ¬seqOf recvBuffer < toU32 rb.expected)
    (haccept : rb.Accepts recvBuffer receivedBytes) :
    toI32 (seqOf recvBuffer) = (seqOf recvBuffer).toNat ∧
    rb.expected ≤ (seqOf recvBuffer).toNat ∧
    (seqOf recvBuffer).toNat ≤ rb.expected + rb.windowSize ∧
    insertReceiverPacket rb recvBuffer receivedBytes =
      { rb with
        buffer := Ring.update rb.buffer ((seqOf recvBuffer).toNat % rb.windowSize)
          (Packet.store (seqOf recvBuffer) recvBuffer receivedBytes)
        highest := raiseHighest rb.highest (seqOf recvBuffer) } := by
  obtain ⟨h₀, hmax⟩ := hrange
  obtain ⟨hbytes, hin⟩ := haccept
  have hpos := hw.window_pos
  have hexp := toU32_toNat_of_range (x := rb.expected) h₀ (by omega)
  have hedge := toU32_toNat_of_range (x := rb.expected + rb.windowSize) (by omega)
    (by omega)
  have hle := hin
  rw [i32_of_range (by omega) (by omega), UInt32.lt_iff_toNat_lt] at hle
  rw [UInt32.lt_iff_toNat_lt] at hnew
  refine ⟨toI32_of_lt (by omega), by omega, by omega, ?_⟩
  rw [insertReceiverPacket, if_neg (by omega), if_neg hin, unsignedIndex_eq _ hpos (by omega)]

theorem holds_inserted (hrange : rb.InRange) (hw : rb.WellFormed)
    (hnew : ¬seqOf recvBuffer < toU32 rb.expected)
    (haccept : rb.Accepts recvBuffer receivedBytes) (m : Int) :
    (insertReceiverPacket rb recvBuffer receivedBytes).Holds m ↔
      m = (seqOf recvBuffer).toNat ∨
      (rb.Holds m ∧ m % rb.windowSize ≠
        (seqOf recvBuffer).toNat % rb.windowSize) := by
  obtain ⟨hseq, -, -, hins⟩ := insert_accepted hrange hw hnew haccept
  have hpos := hw.window_pos
  rw [hins]
  constructor
  · rintro ⟨p, hp, hvalid, hnum⟩
    have hp : Ring.slot (Ring.update rb.buffer ((seqOf recvBuffer).toNat % rb.windowSize)
        (Packet.store (seqOf recvBuffer) recvBuffer receivedBytes)) (m % rb.windowSize) =
        some p := hp
    rcases Ring.slot_update_eq_some hp with ⟨-, q, -, rfl⟩ | ⟨hne, hp⟩
    · left
      rw [← hnum, Packet.store, hseq]
    · exact Or.inr ⟨⟨p, hp, hvalid, hnum⟩, hne.symm⟩
  · rintro (rfl | ⟨⟨p, hp, hvalid, hnum⟩, hne⟩)
    · have hlow : 0 ≤ ((seqOf recvBuffer).toNat : Int) % rb.windowSize :=
        Int.emod_nonneg _ (by omega)
      have hhigh : ((seqOf recvBuffer).toNat : Int) % rb.windowSize < rb.windowSize :=
        Int.emod_lt_of_pos _ (by omega)
      obtain ⟨q, hq⟩ := hw.allocated _ hlow (by rw [hw.length]; exact hhigh)
      refine ⟨Packet.store (seqOf recvBuffer) recvBuffer receivedBytes q, ?_, rfl, hseq⟩
      exact (Ring.slot_update_self _ _ _).trans (by rw [hq, Option.map_some])
    · exact ⟨p, (Ring.slot_update_ne hne.symm _ _).trans hp, hvalid, hnum⟩

/-- The slot of an accepted number holds another packet only at the ends of the window. -/
theorem Reorder.Tracks.same_slot (h : s.Tracks) {n m : Int} (hlow : s.rbuf.expected ≤ n)
    (hhigh : n ≤ s.rbuf.expected + s.rbuf.windowSize) (hm : s.rbuf.Holds m)
    (hres : m % s.rbuf.windowSize = n % s.rbuf.windowSize) (hne : m ≠ n) :
    (n = s.rbuf.expected ∧ m = s.rbuf.expected + s.rbuf.windowSize) ∨
    (n = s.rbuf.expected + s.rbuf.windowSize ∧ m = s.rbuf.expected) := by
  obtain ⟨hlow', hhigh'⟩ := h.range m ((h.pending_iff m).mpr hm)
  by_contra hends
  exact Ring.emod_ne_of_lt hne (by omega) (by omega) hres

theorem insert_discarded (h : ¬rb.Accepts recvBuffer receivedBytes) :
    insertReceiverPacket rb recvBuffer receivedBytes = rb := by
  simp only [insertReceiverPacket]
  split_ifs with hbytes hbeyond
  · rfl
  · rfl
  · exact absurd ⟨by omega, hbeyond⟩ h

theorem Reorder.Tracks.insert (hrange : s.rbuf.InRange) (h : s.Tracks)
    (hsafe : s.Safe (.insert recvBuffer receivedBytes)) :
    (s.step (.insert recvBuffer receivedBytes)).Tracks := by
  by_cases hold : seqOf recvBuffer < toU32 s.rbuf.expected
  · rw [Reorder.step, if_pos hold]
    exact h
  have hwf := insertReceiverPacket_wellFormed h.wellFormed recvBuffer receivedBytes
  by_cases haccept : s.rbuf.Accepts recvBuffer receivedBytes
  · obtain ⟨hseq, hlow, hhigh, -⟩ := insert_accepted hrange h.wellFormed hold haccept
    have hheld := holds_inserted hrange h.wellFormed hold haccept
    rw [Reorder.step, if_neg hold, if_pos haccept, hseq]
    refine ⟨hwf, ?_, ?_⟩
    · intro m
      rw [List.mem_cons, h.pending_iff, hheld]
      refine or_congr_right' fun hne => ?_
      -- another packet in the slot would be at the other end of the window
      refine ⟨fun hm => ⟨hm, fun hres => ?_⟩, And.left⟩
      obtain ⟨hfirst, hlast⟩ := hsafe haccept.1
      rcases h.same_slot hlow hhigh hm hres hne with ⟨hn, rfl⟩ | ⟨hn, rfl⟩
      · exact hfirst ⟨hn, hm⟩
      · exact hlast ⟨hn, hm⟩
    · intro m hm
      rw [insertReceiverPacket_expected, insertReceiverPacket_windowSize]
      rcases List.mem_cons.mp hm with rfl | hm
      · exact ⟨hlow, hhigh⟩
      · exact h.range m hm
  · rw [Reorder.step, if_neg hold, if_neg haccept, insert_discarded haccept]
    exact h

theorem Reorder.Tracks.flush (hrange : s.rbuf.InRange) (h : s.Tracks) (hsafe : s.Safe .flush) :
    (s.step .flush).Tracks := by
  obtain ⟨h₀, hmax⟩ := hrange
  obtain ⟨r, hrun, hgap, hdrains⟩ := flushBuffer_run h.wellFormed.window_pos h₀ (by omega)
  have hseqs := hdrains.mem_seqs
  have hheld := hdrains.holds_iff hrun
  refine ⟨flushBuffer_wellFormed h.wellFormed, ?_, ?_⟩
  · intro n
    simp only [Reorder.step, List.mem_filter, decide_eq_true_eq, h.pending_iff, hheld, hseqs]
  · intro n hn
    simp only [Reorder.step, List.mem_filter, decide_eq_true_eq, hseqs] at hn ⊢
    obtain ⟨hn, hout⟩ := hn
    have hstored := (h.pending_iff n).mp hn
    obtain ⟨hlow, hhigh⟩ := h.range n hn
    rw [hdrains.expected, hdrains.windowSize]
    have hfirst : n ≠ s.rbuf.expected := by
      rintro rfl
      exact hsafe hstored
    have hlast : n ≠ s.rbuf.expected + 1 + r := by
      rintro rfl
      exact hgap hstored
    omega

theorem Reorder.not_kept_of_shared (hrange : s.rbuf.InRange) (h : s.Tracks) {m : Int}
    (hbytes : 0 < receivedBytes) (hlow : s.rbuf.expected ≤ (seqOf recvBuffer).toNat)
    (hhigh : (seqOf recvBuffer).toNat ≤ s.rbuf.expected + s.rbuf.windowSize)
    (hm : s.rbuf.Holds m) (hne : m ≠ (seqOf recvBuffer).toNat)
    (hres : m % s.rbuf.windowSize = (seqOf recvBuffer).toNat % s.rbuf.windowSize) :
    ¬(s.step (.insert recvBuffer receivedBytes)).Kept := by
  obtain ⟨h₀, hmax⟩ := hrange
  have hpos := h.wellFormed.window_pos
  have hexp := toU32_toNat_of_range (x := s.rbuf.expected) h₀ (by omega)
  have hedge := toU32_toNat_of_range (x := s.rbuf.expected + s.rbuf.windowSize) (by omega)
    (by omega)
  have hnew : ¬seqOf recvBuffer < toU32 s.rbuf.expected := by
    rw [UInt32.lt_iff_toNat_lt]
    omega
  have haccept : s.rbuf.Accepts recvBuffer receivedBytes := by
    refine ⟨hbytes, ?_⟩
    rw [i32_of_range (by omega) (by omega), UInt32.lt_iff_toNat_lt]
    omega
  intro hkept
  rw [Reorder.step, if_neg hnew, if_pos haccept] at hkept
  obtain ⟨hheld, -⟩ := hkept m (List.mem_cons_of_mem _ ((h.pending_iff m).mpr hm))
  rcases (holds_inserted ⟨h₀, hmax⟩ h.wellFormed hnew haccept m).mp hheld with heq | ⟨-, hother⟩
  · exact hne heq
  · exact hother hres

theorem Reorder.not_kept_insert (hrange : s.rbuf.InRange) (h : s.Tracks)
    (hsafe : ¬s.Safe (.insert recvBuffer receivedBytes)) :
    ¬(s.step (.insert recvBuffer receivedBytes)).Kept := by
  have hpos := h.wellFormed.window_pos
  obtain ⟨hbytes, hshared⟩ := Classical.not_imp.mp hsafe
  rw [not_and_or, not_not, not_not] at hshared
  rcases hshared with ⟨hseq, hm⟩ | ⟨hseq, hm⟩
  · exact Reorder.not_kept_of_shared hrange h hbytes (by omega) (by omega) hm (by omega)
      (by rw [hseq, Int.add_emod_right])
  · exact Reorder.not_kept_of_shared hrange h hbytes (by omega) (by omega) hm (by omega)
      (by rw [hseq, Int.add_emod_right])

/-- The packet that a flush steps over is still pending when `expected` has passed it. -/
theorem Reorder.not_kept_flush (hrange : s.rbuf.InRange) (h : s.Tracks) (hsafe : ¬s.Safe .flush) :
    ¬(s.step .flush).Kept := by
  obtain ⟨h₀, hmax⟩ := hrange
  obtain ⟨r, -, -, hdrains⟩ := flushBuffer_run h.wellFormed.window_pos h₀ (by omega)
  have hstored : s.rbuf.expected ∈ s.pending := (h.pending_iff _).mpr (not_not.mp hsafe)
  have hpending : s.rbuf.expected ∈ (s.step .flush).pending := by
    simp only [Reorder.step, List.mem_filter, decide_eq_true_eq, hdrains.mem_seqs]
    exact ⟨hstored, by omega⟩
  intro hkept
  have hpassed := (hkept _ hpending).2
  rw [Reorder.step, hdrains.expected] at hpassed
  omega

end Steps

/-- From `initReceiverBuffer` on, every accepted packet stays in its slot until a
flush writes it exactly when no call stores one of the two numbers of one slot over
the other and no flush steps over a stored packet. -/
theorem accepted_kept_iff (raw : ReceiverBuffer) (bufferSize windowSize : Int)
    (calls : List ReorderCall) (hw : 1 ≤ windowSize)
    (hrange : Runs.EveryStep Reorder.step (fun s _ => s.rbuf.InRange)
      (enterReorder raw bufferSize windowSize) calls) :
    Runs.Always Reorder.step Reorder.Kept (enterReorder raw bufferSize windowSize) calls ↔
      Runs.EveryStep Reorder.step Reorder.Safe (enterReorder raw bufferSize windowSize) calls := by
  refine Runs.always_iff_everyStep_of_guard hrange (enterReorder_tracks raw bufferSize hw)
    (fun s h => h.kept) ?_ ?_
  · intro s call hrange h hsafe
    cases call with
    | insert recvBuffer receivedBytes => exact h.insert hrange hsafe
    | flush => exact h.flush hrange hsafe
  · intro s call hrange h hsafe
    cases call with
    | insert recvBuffer receivedBytes => exact Reorder.not_kept_insert hrange h hsafe
    | flush => exact Reorder.not_kept_flush hrange h hsafe

theorem accepted_kept_flushed :
    Runs.Always Reorder.step Reorder.Kept (enterReorder freshBuffer 1 2)
      [.insert [0, 0, 0, 1, 0, 0, 16, 65] 8, .flush] ↔
    Runs.EveryStep Reorder.step Reorder.Safe (enterReorder freshBuffer 1 2)
      [.insert [0, 0, 0, 1, 0, 0, 16, 65] 8, .flush] :=
  accepted_kept_iff freshBuffer 1 2 _ (by decide) (by decide)

/-- In a window of two slots packet 2 is stored over packet 0. -/
theorem accepted_overwritten :
    ¬ ∀ (raw : ReceiverBuffer) (bufferSize windowSize : Int) (calls : List ReorderCall),
      1 ≤ windowSize →
      Runs.EveryStep Reorder.step (fun s _ => s.rbuf.InRange)
        (enterReorder raw bufferSize windowSize) calls →
      Runs.Always Reorder.step Reorder.Kept (enterReorder raw bufferSize windowSize) calls := by
  intro h
  have hkept := (h freshBuffer 1 2
    [.insert [0, 0, 0, 0, 0, 0, 16, 65] 8, .insert [0, 0, 0, 2, 0, 0, 16, 66] 8]
    (by decide) (by decide)).last
  obtain ⟨⟨p, hp, -, hnum⟩, -⟩ := hkept 0 (by decide)
  have hother := congrArg (Option.map Packet.sequenceNumber) hp
  rw [Option.map_some, hnum] at hother
  revert hother
  decide

end Rcopy
