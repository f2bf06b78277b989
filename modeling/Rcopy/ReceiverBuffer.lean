import Rcopy.Lib.CommutingFold
import Rcopy.Lib.Ring
import Rcopy.Machine

/-!
# The reorder buffer of the receiver

The receiver half of window.c. The ring keeps whole datagrams, header included,
in the slot of their number modulo the window size. `flushBuffer` steps over the
number it is called for and drains the run of consecutive packets after it.

A call of `fwrite` is recorded with the packet it is made for, the memory from
its pointer to the end of the object, and the byte count as a `size_t`. The bytes
that reach the file are determined only when the count stays inside the object.
-/

namespace Rcopy

open Bytes

structure Packet where
  sequenceNumber : Int
  dataSize : Int
  valid : Int
  ack : Int
  data : List UInt8
deriving DecidableEq

structure ReceiverBuffer where
  buffer : List (Option Packet)
  bufferSize : Int
  windowSize : Int
  expected : Int
  highest : Int
  lastControlPacket : List UInt8
  lastControlPacketSize : Int
  hasLastControl : Int
deriving DecidableEq

structure FWrite where
  seq : Int
  src : List UInt8
  count : ℕ
deriving DecidableEq

/-- The bytes of one `fwrite`, undetermined when it reads past the end of its object. -/
def FWrite.bytes (w : FWrite) : Option (List UInt8) :=
  if w.count ≤ w.src.length then some (w.src.take w.count) else none

def fileBytes : List FWrite → Option (List UInt8)
  | [] => some []
  | w :: ws => (w.bytes).bind fun b => (fileBytes ws).map (b ++ ·)

theorem fileBytes_append (ws vs : List FWrite) :
    fileBytes (ws ++ vs) =
      (fileBytes ws).bind fun b => (fileBytes vs).map (b ++ ·) := by
  induction ws with
  | nil => cases h : fileBytes vs <;> simp [fileBytes, h]
  | cons w ws ih =>
    simp only [List.cons_append, fileBytes, ih]
    cases w.bytes <;> cases fileBytes ws <;> cases fileBytes vs <;> simp

/-- `memset(data, 0, MAX_PACKET_SIZE)`. -/
def zeroData : List UInt8 := List.replicate 1407 0

def emptyPacket : Packet where
  sequenceNumber := -1
  dataSize := 0
  valid := 0
  ack := 0
  data := zeroData

/-- `raw` is the structure as `malloc` returns it; the three `lastControl` fields
are not initialised. Every allocation is taken to succeed. -/
def initReceiverBuffer (raw : ReceiverBuffer) (bufferSize windowSize : Int) : ReceiverBuffer :=
  { raw with
    buffer := List.replicate windowSize.toNat (some emptyPacket)
    bufferSize := bufferSize
    windowSize := windowSize
    expected := 0
    highest := -1 }

def Packet.store (seq : UInt32) (recvBuffer : List UInt8) (receivedBytes : Int) (p : Packet) :
    Packet where
  sequenceNumber := toI32 seq
  dataSize := i32 (receivedBytes - 7)
  valid := 1
  ack := 0
  data := memcpy p.data 0 (recvBuffer.take receivedBytes.toNat)

/-- `int index = seq % window_size` for an unsigned `seq`. -/
def unsignedIndex (seq : UInt32) (windowSize : Int) : Int := (seq % toU32 windowSize).toNat

/-- `if (seq > highest) highest = seq`, an unsigned comparison. -/
def raiseHighest (highest : Int) (seq : UInt32) : Int :=
  if toU32 highest < seq then toI32 seq else highest

def insertReceiverPacket (rb : ReceiverBuffer) (recvBuffer : List UInt8) (receivedBytes : Int) :
    ReceiverBuffer :=
  if receivedBytes ≤ 0 then rb
  else
    let seq := seqOf recvBuffer
    if toU32 (i32 (rb.expected + rb.windowSize)) < seq then rb
    else
      { rb with
        buffer := Ring.update rb.buffer (unsignedIndex seq rb.windowSize)
          (Packet.store seq recvBuffer receivedBytes)
        highest := raiseHighest rb.highest seq }

def Packet.clear (p : Packet) : Packet :=
  { p with
    data := zeroData
    sequenceNumber := -1
    valid := 0
    dataSize := 0 }

def flushStep (rb : ReceiverBuffer) : Option (ReceiverBuffer × FWrite) :=
  let index := rb.expected.tmod rb.windowSize
  match Ring.slot rb.buffer index with
  | none => none
  | some p =>
    if p.sequenceNumber = rb.expected ∧ p.valid = 1 then
      some ({ rb with
              buffer := Ring.update rb.buffer index Packet.clear
              expected := i32 (rb.expected + 1) },
            { seq := p.sequenceNumber
              src := p.data.drop 7
              count := toSize (i32 (p.dataSize - 7)) })
    else none

structure Flushed where
  rbuf : ReceiverBuffer
  writes : List FWrite
  packetsFlushed : ℕ
deriving DecidableEq

/-- The loop of `flushBuffer`, for at most `n` packets. -/
def flushLoop : ℕ → ReceiverBuffer → Flushed
  | 0, rb => ⟨rb, [], 0⟩
  | n + 1, rb =>
    match flushStep rb with
    | none => ⟨rb, [], 0⟩
    | some (rb', w) =>
      let r := flushLoop n rb'
      ⟨r.rbuf, w :: r.writes, r.packetsFlushed + 1⟩

/-- A ring of `window_size` slots holds no more packets than the bound of the
loop, see `flushBuffer_stops`. -/
def flushBuffer (rb : ReceiverBuffer) : Flushed :=
  flushLoop (rb.windowSize.toNat + 1) { rb with expected := i32 (rb.expected + 1) }

structure ReceiverBuffer.WellFormed (rb : ReceiverBuffer) : Prop where
  window_pos : 1 ≤ rb.windowSize
  length : (rb.buffer.length : Int) = rb.windowSize
  allocated : Ring.Allocated rb.buffer

theorem initReceiverBuffer_wellFormed (raw : ReceiverBuffer) (bufferSize : Int) {windowSize : Int}
    (hw : 1 ≤ windowSize) : (initReceiverBuffer raw bufferSize windowSize).WellFormed := by
  refine ⟨hw, ?_, ?_⟩
  · simp only [initReceiverBuffer, List.length_replicate]
    omega
  · intro i hi₀ hi
    simp only [initReceiverBuffer, List.length_replicate] at hi ⊢
    exact ⟨emptyPacket, Ring.slot_eq_some_iff.mpr ⟨hi₀, by
      rw [List.getElem?_replicate, if_pos (by omega)]⟩⟩

theorem insertReceiverPacket_cases (rb : ReceiverBuffer) (recvBuffer : List UInt8)
    (receivedBytes : Int) :
    insertReceiverPacket rb recvBuffer receivedBytes = rb ∨
    insertReceiverPacket rb recvBuffer receivedBytes =
      { rb with
        buffer := Ring.update rb.buffer (unsignedIndex (seqOf recvBuffer) rb.windowSize)
          (Packet.store (seqOf recvBuffer) recvBuffer receivedBytes)
        highest := raiseHighest rb.highest (seqOf recvBuffer) } := by
  simp only [insertReceiverPacket]
  split_ifs
  · exact Or.inl rfl
  · exact Or.inl rfl
  · exact Or.inr rfl

theorem initReceiverBuffer_slot {raw : ReceiverBuffer} {bufferSize windowSize i : Int} {p : Packet}
    (h : Ring.slot (initReceiverBuffer raw bufferSize windowSize).buffer i = some p) :
    p = emptyPacket := by
  obtain ⟨-, hget⟩ := Ring.slot_eq_some_iff.mp h
  have hmem := List.mem_of_getElem? hget
  simp only [initReceiverBuffer, List.mem_replicate, Option.some.injEq] at hmem
  exact hmem.2

theorem insertReceiverPacket_wellFormed {rb : ReceiverBuffer} (h : rb.WellFormed)
    (recvBuffer : List UInt8) (receivedBytes : Int) :
    (insertReceiverPacket rb recvBuffer receivedBytes).WellFormed := by
  rcases insertReceiverPacket_cases rb recvBuffer receivedBytes with he | he
  · rw [he]
    exact h
  · rw [he]
    refine ⟨h.window_pos, ?_, ?_⟩
    · simpa only [Ring.length_update] using h.length
    · dsimp only
      exact h.allocated.update _ _

theorem insertReceiverPacket_expected (rb : ReceiverBuffer) (recvBuffer : List UInt8)
    (receivedBytes : Int) :
    (insertReceiverPacket rb recvBuffer receivedBytes).expected = rb.expected := by
  rcases insertReceiverPacket_cases rb recvBuffer receivedBytes with he | he <;> rw [he]

theorem insertReceiverPacket_windowSize (rb : ReceiverBuffer) (recvBuffer : List UInt8)
    (receivedBytes : Int) :
    (insertReceiverPacket rb recvBuffer receivedBytes).windowSize = rb.windowSize := by
  rcases insertReceiverPacket_cases rb recvBuffer receivedBytes with he | he <;> rw [he]

theorem unsignedIndex_eq (seq : UInt32) {windowSize : Int} (h₁ : 1 ≤ windowSize)
    (h₂ : windowSize < 4294967296) : unsignedIndex seq windowSize = seq.toNat % windowSize := by
  have h := toU32_toNat_of_range (x := windowSize) (by omega) h₂
  rw [unsignedIndex, UInt32.toNat_mod, Int.natCast_emod, h]

/-! ## The flush loop -/

theorem flushStep_cases {rb rb' : ReceiverBuffer} {w : FWrite}
    (h : flushStep rb = some (rb', w)) :
    ∃ p, Ring.slot rb.buffer (rb.expected.tmod rb.windowSize) = some p ∧
      p.sequenceNumber = rb.expected ∧ p.valid = 1 ∧
      rb' = { rb with
        buffer := Ring.update rb.buffer (rb.expected.tmod rb.windowSize) Packet.clear
        expected := i32 (rb.expected + 1) } ∧
      w = { seq := p.sequenceNumber
            src := p.data.drop 7
            count := toSize (i32 (p.dataSize - 7)) } := by
  simp only [flushStep] at h
  split at h
  · exact absurd h (by simp)
  · rename_i p hp
    split_ifs at h with hc
    obtain ⟨rfl, rfl⟩ := Prod.mk.inj (Option.some.inj h)
    exact ⟨p, hp, hc.1, hc.2, rfl, rfl⟩

theorem flushLoop_keep {P : ReceiverBuffer → Prop}
    (keep : ∀ rb rb' w, P rb → flushStep rb = some (rb', w) → P rb') (n : ℕ)
    {rb : ReceiverBuffer} (h : P rb) : P (flushLoop n rb).rbuf := by
  induction n generalizing rb with
  | zero => exact h
  | succ n ih =>
    simp only [flushLoop]
    cases hs : flushStep rb with
    | none => exact h
    | some r => exact ih (keep rb r.1 r.2 h hs)

theorem flushLoop_wellFormed (n : ℕ) {rb : ReceiverBuffer} (h : rb.WellFormed) :
    (flushLoop n rb).rbuf.WellFormed := by
  refine flushLoop_keep (P := ReceiverBuffer.WellFormed) ?_ n h
  intro rb rb' w hwf hs
  obtain ⟨p, -, -, -, rfl, -⟩ := flushStep_cases hs
  refine ⟨hwf.window_pos, ?_, ?_⟩
  · simpa only [Ring.length_update] using hwf.length
  · dsimp only
    exact hwf.allocated.update _ _

theorem flushBuffer_wellFormed {rb : ReceiverBuffer} (h : rb.WellFormed) :
    (flushBuffer rb).rbuf.WellFormed :=
  flushLoop_wellFormed _ ⟨h.window_pos, h.length, h.allocated⟩

theorem flushLoop_frame (n : ℕ) (rb : ReceiverBuffer) :
    ∃ buffer expected, (flushLoop n rb).rbuf =
      { rb with buffer := buffer, expected := expected } := by
  refine flushLoop_keep
    (P := fun r => ∃ buffer expected, r = { rb with buffer := buffer, expected := expected })
    ?_ n ⟨rb.buffer, rb.expected, rfl⟩
  rintro _ rb' w ⟨buffer, expected, rfl⟩ hs
  obtain ⟨p, -, -, -, rfl, -⟩ := flushStep_cases hs
  exact ⟨_, _, rfl⟩

def liveCount (rb : ReceiverBuffer) : ℕ := Ring.count (fun p => p.valid = 1) rb.buffer

theorem flushStep_liveCount_lt {rb rb' : ReceiverBuffer} {w : FWrite}
    (h : flushStep rb = some (rb', w)) : liveCount rb' < liveCount rb := by
  obtain ⟨p, hp, -, hvalid, rfl, -⟩ := flushStep_cases h
  exact Ring.count_update_lt hp (by simpa using hvalid) rfl

theorem flushLoop_stops {n : ℕ} {rb : ReceiverBuffer} (hn : liveCount rb < n) :
    flushStep (flushLoop n rb).rbuf = none := by
  induction n generalizing rb with
  | zero => omega
  | succ n ih =>
    simp only [flushLoop]
    cases hs : flushStep rb with
    | none => exact hs
    | some r =>
      have hlt := flushStep_liveCount_lt hs
      exact ih (by omega)

theorem liveCount_le {rb : ReceiverBuffer} (h : rb.WellFormed) :
    (liveCount rb : Int) ≤ rb.windowSize := by
  have := Ring.count_le_length (fun p : Packet => p.valid = 1) rb.buffer
  rw [← h.length]
  exact_mod_cast this

theorem flushLoop_seqs (n : ℕ) {rb : ReceiverBuffer} (h₀ : 0 ≤ rb.expected)
    (h : rb.expected + liveCount rb < 2147483648) :
    (flushLoop n rb).rbuf.expected = rb.expected + (flushLoop n rb).packetsFlushed ∧
    (flushLoop n rb).writes.map FWrite.seq =
      (List.range (flushLoop n rb).packetsFlushed).map fun j : ℕ => rb.expected + j := by
  induction n generalizing rb with
  | zero => simp [flushLoop]
  | succ n ih =>
    simp only [flushLoop]
    cases hs : flushStep rb with
    | none => simp
    | some r =>
      have hlt := flushStep_liveCount_lt hs
      obtain ⟨p, hp, hseq, -, hr, hw⟩ := flushStep_cases hs
      have hexp : r.1.expected = rb.expected + 1 := by
        rw [hr]
        exact i32_of_range (by omega) (by omega)
      obtain ⟨ih₁, ih₂⟩ := @ih r.1 (by omega) (by omega)
      refine ⟨?_, ?_⟩
      · simp only [ih₁, hexp]
        push_cast
        ring
      · simp only [List.map_cons, ih₂, hexp, List.range_succ_eq_map, List.map_map, hw, hseq]
        congr 1
        · simp
        · refine List.map_congr_left fun k _ => ?_
          simp only [Function.comp_apply]
          push_cast
          ring

/-- `flushBuffer` ends because the next packet is missing, not at the bound of its loop. -/
theorem flushBuffer_stops {rb : ReceiverBuffer} (h : rb.WellFormed) :
    flushStep (flushBuffer rb).rbuf = none := by
  have hlive := liveCount_le h
  apply flushLoop_stops
  rw [liveCount] at hlive ⊢
  dsimp only
  omega

theorem flushBuffer_seqs {rb : ReceiverBuffer} (hw : rb.WellFormed) (h₀ : 0 ≤ rb.expected)
    (h : rb.expected + 1 + rb.windowSize < 2147483648) :
    ∃ n : ℕ, (flushBuffer rb).rbuf.expected = rb.expected + 1 + n ∧
      (flushBuffer rb).writes.map FWrite.seq =
        (List.range n).map fun j : ℕ => rb.expected + 1 + j := by
  have hlive := liveCount_le hw
  have he : i32 (rb.expected + 1) = rb.expected + 1 := i32_of_range (by omega) (by omega)
  have hseqs := @flushLoop_seqs (rb.windowSize.toNat + 1)
    { rb with expected := i32 (rb.expected + 1) }
    (by dsimp only; omega)
    (by
      rw [liveCount] at hlive ⊢
      dsimp only
      omega)
  dsimp only at hseqs
  rw [he] at hseqs
  rw [flushBuffer, he]
  exact ⟨_, hseqs⟩

/-! ## Arrival order and repetition -/

def insertAll (rb : ReceiverBuffer) (ps : List (List UInt8)) : ReceiverBuffer :=
  ps.foldl (fun rb p => insertReceiverPacket rb p p.length) rb

theorem insertReceiverPacket_eq {rb : ReceiverBuffer} {p : List UInt8}
    (h₀ : 0 ≤ rb.expected) (hw : 1 ≤ rb.windowSize)
    (hmax : rb.expected + rb.windowSize < 2147483648) (hp : 7 ≤ p.length)
    (hseq : ((seqOf p).toNat : Int) ≤ rb.expected + rb.windowSize) :
    insertReceiverPacket rb p p.length =
      { rb with
        buffer := Ring.update rb.buffer ((seqOf p).toNat % rb.windowSize)
          (Packet.store (seqOf p) p p.length)
        highest := raiseHighest rb.highest (seqOf p) } := by
  have hedge := toU32_toNat_of_range (x := rb.expected + rb.windowSize) (by omega) (by omega)
  have hin : ¬toU32 (i32 (rb.expected + rb.windowSize)) < seqOf p := by
    rw [i32_of_range (by omega) (by omega), UInt32.lt_iff_toNat_lt]
    omega
  rw [insertReceiverPacket, if_neg (by omega), if_neg hin, unsignedIndex_eq _ hw (by omega)]

theorem Packet.store_store (seq : UInt32) (b : List UInt8) (n : Int) :
    Packet.store seq b n ∘ Packet.store seq b n = Packet.store seq b n := by
  funext p
  simp [Packet.store, memcpy_zero]

theorem raiseHighest_comm (h : Int) {s t : UInt32} (hs : s.toNat < 2147483648)
    (ht : t.toNat < 2147483648) :
    raiseHighest (raiseHighest h s) t = raiseHighest (raiseHighest h t) s := by
  have hst : toU32 (toI32 s) = s := toU32_toI32 s
  have htt : toU32 (toI32 t) = t := toU32_toI32 t
  unfold raiseHighest
  split_ifs <;> simp_all [UInt32.lt_iff_toNat_lt, toI32_of_lt] <;> omega

theorem raiseHighest_idem (h : Int) (s : UInt32) :
    raiseHighest (raiseHighest h s) s = raiseHighest h s := by
  unfold raiseHighest
  split_ifs with h₁ h₂
  · rfl
  · rfl
  · rfl

theorem insert_absorbing {e w : Int} (h₀ : 0 ≤ e) (hw : 1 ≤ w) (hmax : e + w < 2147483648)
    {S : List UInt8 → Prop} (hlen : ∀ p, S p → 7 ≤ p.length)
    (hseq : ∀ p, S p → e < (seqOf p).toNat ∧ ((seqOf p).toNat : Int) ≤ e + w)
    (hdist : ∀ p q, S p → S q → seqOf p = seqOf q → p = q) :
    CommutingFold.Absorbing (fun rb p => insertReceiverPacket rb p p.length)
      (fun rb => rb.expected = e ∧ rb.windowSize = w) S := by
  have hins : ∀ rb p, (rb.expected = e ∧ rb.windowSize = w) → S p →
      insertReceiverPacket rb p p.length =
        { rb with
          buffer := Ring.update rb.buffer ((seqOf p).toNat % w)
            (Packet.store (seqOf p) p p.length)
          highest := raiseHighest rb.highest (seqOf p) } := by
    rintro rb p ⟨rfl, rfl⟩ hp
    exact insertReceiverPacket_eq h₀ hw hmax (hlen p hp) (hseq p hp).2
  have hkeep : ∀ rb (p : List UInt8), (rb.expected = e ∧ rb.windowSize = w) →
      (insertReceiverPacket rb p p.length).expected = e ∧
        (insertReceiverPacket rb p p.length).windowSize = w := by
    intro rb p hI
    rwa [insertReceiverPacket_expected, insertReceiverPacket_windowSize]
  refine ⟨fun rb p hI _ => hkeep rb p hI, ?_, ?_⟩
  · intro rb p q hI hp hq
    rw [hins _ q (hkeep rb p hI) hq, hins _ p (hkeep rb q hI) hp, hins rb p hI hp, hins rb q hI hq]
    by_cases hpq : seqOf p = seqOf q
    · rw [hdist p q hp hq hpq]
    · have hp' := hseq p hp
      have hq' := hseq q hq
      have hne : ((seqOf p).toNat : Int) ≠ (seqOf q).toNat := by
        intro h
        exact hpq (UInt32.toNat_inj.mp (by exact_mod_cast h))
      have hslot := Ring.emod_ne_of_lt (w := w) hne (by omega) (by omega)
      simp only [Ring.update_comm hslot,
        raiseHighest_comm rb.highest (s := seqOf p) (t := seqOf q) (by omega) (by omega)]
  · intro rb p hI hp
    rw [hins _ p (hkeep rb p hI) hp, hins rb p hI hp]
    simp only [Ring.update_update, Packet.store_store, raiseHighest_idem]

/-- The flush after two sequences of insertions of the same packets gives the
same writes, result and buffer, whatever their order and repetitions. -/
theorem flush_insertAll_eq (rb : ReceiverBuffer) (hw : 1 ≤ rb.windowSize)
    (h₀ : 0 ≤ rb.expected) (hmax : rb.expected + rb.windowSize + 1 < 2147483648)
    (ps qs : List (List UInt8)) (hsame : ∀ p, p ∈ ps ↔ p ∈ qs)
    (hlen : ∀ p ∈ ps, 7 ≤ p.length ∧ p.length ≤ 1407)
    (hseq : ∀ p ∈ ps, rb.expected < (seqOf p).toNat ∧
      ((seqOf p).toNat : Int) ≤ rb.expected + rb.windowSize)
    (hdist : ∀ p ∈ ps, ∀ q ∈ ps, p ≠ q → seqOf p ≠ seqOf q) :
    flushBuffer (insertAll rb ps) = flushBuffer (insertAll rb qs) := by
  have habs := insert_absorbing h₀ hw (by omega) (S := (· ∈ ps)) (fun p hp => (hlen p hp).1) hseq
    (fun p q hp hq h => by_contra fun hne => hdist p hp q hq hne h)
  rw [insertAll, insertAll, habs.foldl_eq hsame (fun p hp => hp) ⟨rfl, rfl⟩]

def freshBuffer : ReceiverBuffer :=
  initReceiverBuffer ⟨[], 0, 0, 0, 0, List.replicate 11 0, 0, 0⟩ 1 2

theorem flush_insertAll_eq_two :
    flushBuffer (insertAll freshBuffer
      [[0, 0, 0, 2, 0, 0, 16, 66], [0, 0, 0, 1, 0, 0, 16, 65], [0, 0, 0, 1, 0, 0, 16, 65]]) =
    flushBuffer (insertAll freshBuffer
      [[0, 0, 0, 1, 0, 0, 16, 65], [0, 0, 0, 2, 0, 0, 16, 66]]) :=
  flush_insertAll_eq freshBuffer (by decide) (by decide) (by decide) _ _
    (fun p => by simp [or_comm]) (by decide) (by decide) (by decide)

end Rcopy
