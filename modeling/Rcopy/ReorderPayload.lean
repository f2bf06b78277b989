import Rcopy.ReceiverFlush

/-!
# Payloads through the reorder buffer

`insertReceiverPacket` stores the whole datagram but the size without the header,
and `flushBuffer` takes the header off that size again. What it passes to
`fwrite` is the payload length less seven, as a `size_t`.
-/

namespace Rcopy

open Bytes

/-- The datagrams with the numbers behind `e`, in this order, with payloads of 1 to
1400 bytes. -/
def Consecutive (e : Int) (ps : List (List UInt8)) : Prop :=
  ∀ (j : ℕ) (d : List UInt8), ps[j]? = some d →
    ((seqOf d).toNat : Int) = e + 1 + j ∧ 8 ≤ d.length ∧ d.length ≤ 1407

def payloadOf (d : List UInt8) : List UInt8 := d.drop 7

/-- The writes are the payloads one after the other, and every length is possible. -/
def PayloadsWritten (ps : List (List UInt8)) (writes : List FWrite) : Prop :=
  fileBytes writes = some (ps.map payloadOf).flatten ∧ ∀ w ∈ writes, w.count ≤ 1400

instance (ps : List (List UInt8)) (writes : List FWrite) :
    Decidable (PayloadsWritten ps writes) :=
  inferInstanceAs (Decidable (_ ∧ _))

theorem length_fileBytes {ws : List FWrite} {b : List UInt8} (h : fileBytes ws = some b) :
    b.length = (ws.map FWrite.count).sum := by
  induction ws generalizing b with
  | nil =>
    obtain rfl := Option.some.inj h
    rfl
  | cons w ws ih =>
    simp only [fileBytes, FWrite.bytes] at h
    split_ifs at h with hcount
    · rw [Option.bind_some, Option.map_eq_some_iff] at h
      obtain ⟨rest, hrest, rfl⟩ := h
      rw [List.length_append, List.length_take, Nat.min_eq_left hcount, ih hrest, List.map_cons,
        List.sum_cons]
    · cases h

theorem filterMap_range_getElem? {α β : Type*} (l : List α) (f : α → β) :
    (List.range l.length).filterMap (fun j => l[j]?.map f) = l.map f := by
  induction l with
  | nil => rfl
  | cons a l ih =>
    simp only [List.length_cons, List.range_succ_eq_map, List.filterMap_cons, List.filterMap_map]
    simpa using ih

theorem sum_map_add_const {α : Type*} {l : List α} {f g : α → ℕ} {c : ℕ}
    (h : ∀ x ∈ l, f x + c = g x) : (l.map f).sum + c * l.length = (l.map g).sum := by
  induction l with
  | nil => rfl
  | cons x l ih =>
    rw [List.forall_mem_cons] at h
    have hrest := ih h.2
    simp only [List.map_cons, List.sum_cons, List.length_cons, Nat.mul_add]
    omega

theorem insertAll_slot {rb : ReceiverBuffer} (h₀ : 0 ≤ rb.expected) (hw : 1 ≤ rb.windowSize)
    (hmax : rb.expected + rb.windowSize < 2147483648) {ds : List (List UInt8)}
    (hds : ∀ d ∈ ds, 7 ≤ d.length ∧ rb.expected < (seqOf d).toNat ∧
      ((seqOf d).toNat : Int) ≤ rb.expected + rb.windowSize)
    (hpair : ds.Pairwise fun d d' => (seqOf d).toNat ≠ (seqOf d').toNat) :
    (insertAll rb ds).expected = rb.expected ∧ (insertAll rb ds).windowSize = rb.windowSize ∧
    (∀ d ∈ ds, (insertAll rb ds).packet (seqOf d).toNat =
      (rb.packet (seqOf d).toNat).map (Packet.store (seqOf d) d d.length)) ∧
    ∀ i, (∀ d ∈ ds, (seqOf d).toNat % rb.windowSize ≠ i) →
      Ring.slot (insertAll rb ds).buffer i = Ring.slot rb.buffer i := by
  induction ds generalizing rb with
  | nil => exact ⟨rfl, rfl, by simp, fun _ _ => rfl⟩
  | cons d ds ih =>
    rw [List.forall_mem_cons] at hds
    rw [List.pairwise_cons] at hpair
    obtain ⟨hd, hds⟩ := hds
    obtain ⟨hne, hpair⟩ := hpair
    have hins := insertReceiverPacket_eq h₀ hw hmax hd.1 hd.2.2
    have hexp := insertReceiverPacket_expected rb d d.length
    have hsize := insertReceiverPacket_windowSize rb d d.length
    obtain ⟨hexp', hsize', hstored, hkept⟩ := @ih (insertReceiverPacket rb d d.length)
      (by rwa [hexp]) (by rwa [hsize]) (by rwa [hexp, hsize]) (by rwa [hexp, hsize]) hpair
    have hother : ∀ d' ∈ ds,
        ((seqOf d').toNat : Int) % rb.windowSize ≠ (seqOf d).toNat % rb.windowSize := by
      intro d' hd'
      have hseq := hds d' hd'
      have hdiff := hne d' hd'
      exact Ring.emod_ne_of_lt (by omega) (by omega) (by omega)
    rw [hsize] at hkept
    refine ⟨hexp'.trans hexp, hsize'.trans hsize, ?_, ?_⟩
    · rw [List.forall_mem_cons]
      constructor
      · rw [insertAll, List.foldl_cons, ← insertAll, ReceiverBuffer.packet, hsize', hsize,
          hkept _ hother, hins]
        exact Ring.slot_update_self _ _ _
      · intro d' hd'
        rw [insertAll, List.foldl_cons, ← insertAll, hstored d' hd', hins]
        have hsame : { rb with
            buffer := Ring.update rb.buffer ((seqOf d).toNat % rb.windowSize)
              (Packet.store (seqOf d) d d.length)
            highest := raiseHighest rb.highest (seqOf d) }.packet (seqOf d').toNat =
            rb.packet (seqOf d').toNat := Ring.slot_update_ne (hother d' hd').symm _ _
        rw [hsame]
    · intro i hi
      rw [List.forall_mem_cons] at hi
      rw [insertAll, List.foldl_cons, ← insertAll, hkept i hi.2, hins]
      exact Ring.slot_update_ne hi.1 _ _

/-- A buffer without a valid slot meets the datagrams `ps` behind `expected`, in the
order `order`; the sums that `insertReceiverPacket` and `flushBuffer` form are in the
range of an `int`. -/
structure Reordered (rb : ReceiverBuffer) (ps order : List (List UInt8)) : Prop where
  wellFormed : rb.WellFormed
  invalid : ∀ i p, Ring.slot rb.buffer i = some p → p.valid = 0
  expected_nonneg : 0 ≤ rb.expected
  window_lt : rb.expected + rb.windowSize < 2147483648
  last_lt : rb.expected + 1 + ps.length < 2147483648
  length_le : ps.length ≤ rb.windowSize
  consecutive : Consecutive rb.expected ps
  order : order.Perm ps

section Reordered

variable {rb : ReceiverBuffer} {ps order : List (List UInt8)}

theorem Consecutive.pairwise {e : Int} (h : Consecutive e ps) :
    ps.Pairwise fun d d' => (seqOf d).toNat ≠ (seqOf d').toNat := by
  rw [List.pairwise_iff_getElem]
  intro i j hi hj hlt heq
  have hseq := (h i _ (List.getElem?_eq_getElem hi)).1
  have hseq' := (h j _ (List.getElem?_eq_getElem hj)).1
  omega

theorem Reordered.inserted (h : Reordered rb ps order) :
    (insertAll rb order).expected = rb.expected ∧
    (insertAll rb order).windowSize = rb.windowSize ∧
    (∀ d ∈ ps, ∃ p, (insertAll rb order).packet (seqOf d).toNat =
      some (Packet.store (seqOf d) d d.length p)) ∧
    ∀ i, (∀ d ∈ ps, (seqOf d).toNat % rb.windowSize ≠ i) →
      Ring.slot (insertAll rb order).buffer i = Ring.slot rb.buffer i := by
  have hpos := h.wellFormed.window_pos
  have hlen := h.length_le
  have hds : ∀ d ∈ order, 7 ≤ d.length ∧ rb.expected < (seqOf d).toNat ∧
      ((seqOf d).toNat : Int) ≤ rb.expected + rb.windowSize := by
    intro d hd
    obtain ⟨j, hj, rfl⟩ := List.mem_iff_getElem.mp (h.order.mem_iff.mp hd)
    have hseq := h.consecutive j _ (List.getElem?_eq_getElem hj)
    omega
  have hpair := (h.order.pairwise_iff fun hne => Ne.symm hne).mpr h.consecutive.pairwise
  obtain ⟨hexp, hsize, hstored, hkept⟩ :=
    insertAll_slot h.expected_nonneg hpos h.window_lt hds hpair
  refine ⟨hexp, hsize, ?_, ?_⟩
  · intro d hd
    have hlow : 0 ≤ ((seqOf d).toNat : Int) % rb.windowSize := Int.emod_nonneg _ (by omega)
    have hhigh : ((seqOf d).toNat : Int) % rb.windowSize < rb.windowSize :=
      Int.emod_lt_of_pos _ (by omega)
    obtain ⟨p, hp⟩ := h.wellFormed.allocated _ hlow (by rw [h.wellFormed.length]; exact hhigh)
    refine ⟨p, ?_⟩
    rw [hstored d (h.order.mem_iff.mpr hd), ReceiverBuffer.packet, hp, Option.map_some]
  · intro i hi
    exact hkept i fun d hd => hi d (h.order.mem_iff.mp hd)

/-- After the insertions the ring holds exactly the run of the datagrams. -/
theorem Reordered.run (h : Reordered rb ps order) :
    (∀ j : ℕ, j < ps.length → (insertAll rb order).Holds (rb.expected + 1 + j)) ∧
    ¬(insertAll rb order).Holds (rb.expected + 1 + ps.length) := by
  obtain ⟨hexp, hsize, hstored, hkept⟩ := h.inserted
  have hmax := h.last_lt
  have hheld : ∀ d ∈ ps, (insertAll rb order).Holds (seqOf d).toNat := by
    intro d hd
    obtain ⟨p, hp⟩ := hstored d hd
    obtain ⟨j, hj, rfl⟩ := List.mem_iff_getElem.mp hd
    have hseq := (h.consecutive j _ (List.getElem?_eq_getElem hj)).1
    exact ⟨_, hp, rfl, toI32_of_lt (by omega)⟩
  constructor
  · intro j hj
    have hseq := (h.consecutive j _ (List.getElem?_eq_getElem hj)).1
    rw [← hseq]
    exact hheld _ (List.getElem_mem hj)
  · intro hnext
    -- the slot behind the run holds another number of it or was not written
    by_cases hslot : ∃ d ∈ ps, ((seqOf d).toNat : Int) % rb.windowSize =
        (rb.expected + 1 + ps.length) % rb.windowSize
    · obtain ⟨d, hd, hres⟩ := hslot
      obtain ⟨j, hj, rfl⟩ := List.mem_iff_getElem.mp hd
      have hseq := (h.consecutive j _ (List.getElem?_eq_getElem hj)).1
      have heq := (hheld _ hd).unique hnext (by rw [hsize]; exact hres)
      omega
    · push Not at hslot
      obtain ⟨p, hp, hvalid, -⟩ := hnext
      rw [ReceiverBuffer.packet, hsize, hkept _ hslot] at hp
      have hzero := h.invalid _ p hp
      omega

theorem Reordered.counts (h : Reordered rb ps order) :
    (flushBuffer (insertAll rb order)).writes.map FWrite.count =
      ps.map fun d => toSize (i32 (d.length - 7 - 7)) := by
  obtain ⟨hexp, hsize, hstored, -⟩ := h.inserted
  obtain ⟨hrun, hgap⟩ := h.run
  have hpos := h.wellFormed.window_pos
  rw [← hexp] at hrun hgap
  have hflush := flushBuffer_of_run (by rw [hsize]; exact hpos)
    (by rw [hexp]; exact h.expected_nonneg) (by rw [hexp]; exact h.last_lt) hrun hgap
  have hcount : ∀ j ∈ List.range ps.length,
      (((insertAll rb order).packet ((insertAll rb order).expected + 1 + j)).map
        Packet.fwrite).map FWrite.count =
      (ps[j]?).map fun d => toSize (i32 (d.length - 7 - 7)) := by
    intro j hj
    have hj := List.mem_range.mp hj
    obtain ⟨hseq, -, hlen⟩ := h.consecutive j _ (List.getElem?_eq_getElem hj)
    obtain ⟨p, hp⟩ := hstored _ (List.getElem_mem hj)
    rw [hexp, ← hseq, hp, List.getElem?_eq_getElem hj]
    have hstored : i32 ((ps[j].length : Int) - 7) = ps[j].length - 7 :=
      i32_of_range (by omega) (by omega)
    simp only [Option.map_some, Packet.fwrite, Packet.store, hstored]
  rw [hflush, ReceiverBuffer.drained, List.map_filterMap]
  exact (List.filterMap_congr hcount).trans (filterMap_range_getElem? ps _)

/-- The payloads survive the buffer exactly when there are none: of each the flush
drops the last seven bytes, or it passes a count of almost 2^64. -/
theorem payloads_written_iff (h : Reordered rb ps order) :
    PayloadsWritten ps (flushBuffer (insertAll rb order)).writes ↔ ps = [] := by
  have hcounts := h.counts
  constructor
  · rintro ⟨hbytes, hle⟩
    have hall : ∀ d ∈ ps, toSize (i32 (d.length - 7 - 7)) ≤ 1400 := by
      intro d hd
      have hmem : toSize (i32 (d.length - 7 - 7)) ∈
          (flushBuffer (insertAll rb order)).writes.map FWrite.count := by
        rw [hcounts]
        exact List.mem_map_of_mem hd
      obtain ⟨w, hw, hcount⟩ := List.mem_map.mp hmem
      rw [← hcount]
      exact hle w hw
    have hlen : ∀ d ∈ ps, toSize (i32 (d.length - 7 - 7)) + 7 = (payloadOf d).length := by
      intro d hd
      obtain ⟨j, hj, rfl⟩ := List.mem_iff_getElem.mp hd
      obtain ⟨-, hlow, hhigh⟩ := h.consecutive j _ (List.getElem?_eq_getElem hj)
      have hsmall := hall _ hd
      rw [i32_of_range (by omega) (by omega), toSize] at hsmall ⊢
      rw [payloadOf, List.length_drop]
      omega
    have hsum := length_fileBytes hbytes
    rw [hcounts, List.length_flatten, List.map_map] at hsum
    have hshort : (ps.map fun d => toSize (i32 (d.length - 7 - 7))).sum + 7 * ps.length =
        (ps.map (List.length ∘ payloadOf)).sum := sum_map_add_const hlen
    rw [← List.length_eq_zero_iff]
    omega
  · rintro rfl
    rw [List.map_nil, List.map_eq_nil_iff] at hcounts
    rw [hcounts]
    exact ⟨rfl, by simp⟩

end Reordered

theorem reordered_swapped :
    Reordered freshBuffer [[0, 0, 0, 1, 0, 0, 16, 65], [0, 0, 0, 2, 0, 0, 16, 66]]
      [[0, 0, 0, 2, 0, 0, 16, 66], [0, 0, 0, 1, 0, 0, 16, 65]] where
  wellFormed := initReceiverBuffer_wellFormed _ _ (by decide)
  invalid := by
    intro i p hp
    rw [initReceiverBuffer_slot hp]
    rfl
  expected_nonneg := by decide
  window_lt := by decide
  last_lt := by decide
  length_le := by decide
  consecutive := by
    intro j d hd
    match j with
    | 0 =>
      obtain rfl := Option.some.inj hd
      decide
    | 1 =>
      obtain rfl := Option.some.inj hd
      decide
    | j + 2 => cases hd
  order := List.Perm.swap _ _ _

theorem payloads_written_swapped :
    PayloadsWritten [[0, 0, 0, 1, 0, 0, 16, 65], [0, 0, 0, 2, 0, 0, 16, 66]]
      (flushBuffer (insertAll freshBuffer
        [[0, 0, 0, 2, 0, 0, 16, 66], [0, 0, 0, 1, 0, 0, 16, 65]])).writes ↔
    [[0, 0, 0, 1, 0, 0, 16, (65 : UInt8)], [0, 0, 0, 2, 0, 0, 16, 66]] = [] :=
  payloads_written_iff reordered_swapped

/-- A payload of one byte reaches `fwrite` with a count of 2^64 - 6. -/
theorem payloads_written_lost :
    ¬ ∀ (rb : ReceiverBuffer) (ps order : List (List UInt8)), Reordered rb ps order →
      PayloadsWritten ps (flushBuffer (insertAll rb order)).writes := by
  intro h
  have hcounts := List.forall_mem_map (P := (· ≤ 1400)).mpr (h _ _ _ reordered_swapped).2
  rw [reordered_swapped.counts] at hcounts
  revert hcounts
  decide

end Rcopy
