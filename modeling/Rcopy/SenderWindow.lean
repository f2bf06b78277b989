import Rcopy.ReceiverBuffer

/-!
# The window of the sender

The sender half of window.c. An access outside the pointer array, through a null
pointer or past the memory of a slot ends the process with a `Fault`, as does a
remainder by zero.

The slots are allocated once, when the window is made. `advanceSenderWindow`
frees the slots it passes and nothing allocates them again: the null slots are
those whose index lies below the lower edge.
-/

namespace Rcopy

open Bytes

inductive Fault
  | divByZero
  | outOfBounds
  | nullPointer
deriving DecidableEq

structure SenderWindow where
  buffer : List (Option Packet)
  windowSize : Int
  lower : Int
  upper : Int
  current : Int
deriving DecidableEq

/-- A slot in memory as `malloc` returns it; the data runs to the end of the block. -/
def Packet.ofMemory (b : List UInt8) : Packet where
  sequenceNumber := toI32 (load32 b)
  dataSize := toI32 (load32 (b.drop 4))
  valid := toI32 (load32 (b.drop 8))
  ack := toI32 (load32 (b.drop 12))
  data := b.drop 16

def packetStructSize : ℕ := 1424

/-- `heap i` is the memory under the slot `i`. Every allocation is taken to succeed. -/
def initSenderWindow (windowSize bufferSize : Int) (heap : ℕ → ℕ → UInt8) : SenderWindow where
  buffer := (List.range windowSize.toNat).map fun i =>
    some (Packet.ofMemory (uninit (heap i) (packetStructSize + bufferSize.toNat + 7)))
  windowSize := windowSize
  lower := 0
  upper := windowSize
  current := 0

namespace SenderWindow

def index (w : SenderWindow) (n : Int) : Except Fault Int :=
  if w.windowSize = 0 then .error .divByZero else .ok (n.tmod w.windowSize)

def indexU32 (w : SenderWindow) (n : UInt32) : Except Fault Int :=
  if toU32 w.windowSize = 0 then .error .divByZero else .ok (Rcopy.unsignedIndex n w.windowSize)

def read (w : SenderWindow) (index : Int) : Except Fault (Option Packet) :=
  if 0 ≤ index ∧ index < w.buffer.length then .ok (Ring.slot w.buffer index)
  else .error .outOfBounds

/-- `*window->buffer[index]`. -/
def deref (w : SenderWindow) (index : Int) : Except Fault Packet :=
  match w.read index with
  | .error f => .error f
  | .ok none => .error .nullPointer
  | .ok (some p) => .ok p

end SenderWindow

def Packet.fill (sequenceNumber : Int) (data : List UInt8) (dataSize : Int) (p : Packet) :
    Packet :=
  { p with
    sequenceNumber := sequenceNumber
    data := memcpy p.data 0 (data.take dataSize.toNat)
    dataSize := dataSize
    ack := 0 }

def insertPacketIntoWindow (w : SenderWindow) (sequenceNumber : Int) (data : List UInt8)
    (dataSize : Int) : Except Fault SenderWindow := do
  let index ← w.index sequenceNumber
  let p ← w.deref index
  if (p.data.length : Int) < dataSize then .error .outOfBounds
  else
    .ok { w with
      buffer := Ring.update w.buffer index (Packet.fill sequenceNumber data dataSize) }

def Packet.acked (p : Packet) : Packet := { p with ack := 1 }

def acknowledgePacket (w : SenderWindow) (sequenceNumber : Int) : Except Fault SenderWindow := do
  let index ← w.index sequenceNumber
  match ← w.read index with
  | some _ => .ok { w with buffer := Ring.update w.buffer index Packet.acked }
  | none => .ok w

def checkPacketACKStatus (w : SenderWindow) (sequenceNumber : Int) : Except Fault Int := do
  let index ← w.index sequenceNumber
  match ← w.read index with
  | some p => .ok p.ack
  | none => .ok 0

def freeSlots : ℕ → Int → SenderWindow → Except Fault SenderWindow
  | 0, _, w => .ok w
  | n + 1, i, w => do
    let index ← w.index i
    match ← w.read index with
    | some _ => freeSlots n (i + 1) { w with buffer := Ring.release w.buffer index }
    | none => freeSlots n (i + 1) w

def advanceSenderWindow (w : SenderWindow) (newLower : Int) : Except Fault SenderWindow :=
  if w.lower < newLower then do
    let w ← freeSlots (newLower - w.lower).toNat w.lower w
    .ok { w with lower := newLower, upper := i32 (newLower + w.windowSize - 1) }
  else .ok w

def canSendMorePackets (w : SenderWindow) : Bool := w.current < w.upper

theorem canSendMorePackets_iff {w : SenderWindow} :
    canSendMorePackets w = true ↔ w.current < w.upper := by
  simp [canSendMorePackets]

namespace SenderWindow

/-- The pointer array has `window_size` entries, and those that are null are the
ones below the lower edge. -/
structure WellFormed (w : SenderWindow) : Prop where
  window_pos : 1 ≤ w.windowSize
  window_lt : w.windowSize < 2147483648
  length : (w.buffer.length : Int) = w.windowSize
  lower_nonneg : 0 ≤ w.lower
  null_iff : ∀ i, 0 ≤ i → i < w.windowSize → (Ring.slot w.buffer i = none ↔ i < w.lower)

variable {w : SenderWindow}

theorem index_eq (h : w.WellFormed) {n : Int} (hn : 0 ≤ n) :
    w.index n = .ok (n % w.windowSize) := by
  have hpos := h.window_pos
  rw [index, if_neg (by omega), Int.tmod_eq_emod_of_nonneg hn]

theorem indexU32_eq (h : w.WellFormed) (n : UInt32) :
    w.indexU32 n = .ok (n.toNat % w.windowSize) := by
  have hpos := h.window_pos
  have hlt := h.window_lt
  have hne : toU32 w.windowSize ≠ 0 := by
    intro h0
    have := toU32_toNat_of_range (x := w.windowSize) (by omega) (by omega)
    rw [h0] at this
    simp at this
    omega
  rw [indexU32, if_neg hne, unsignedIndex_eq n hpos (by omega)]

theorem read_eq (h : w.WellFormed) {i : Int} (h₀ : 0 ≤ i) (h₁ : i < w.windowSize) :
    w.read i = .ok (Ring.slot w.buffer i) := by
  rw [read, if_pos ⟨h₀, by rw [h.length]; exact h₁⟩]

theorem deref_of_slot (h : w.WellFormed) {i : Int} (h₀ : 0 ≤ i) (h₁ : i < w.windowSize)
    {p : Packet} (hp : Ring.slot w.buffer i = some p) : w.deref i = .ok p := by
  rw [deref, read_eq h h₀ h₁, hp]

theorem deref_of_null (h : w.WellFormed) {i : Int} (h₀ : 0 ≤ i) (h₁ : i < w.windowSize)
    (hp : Ring.slot w.buffer i = none) : w.deref i = .error .nullPointer := by
  rw [deref, read_eq h h₀ h₁, hp]

theorem index_range (h : w.WellFormed) (n : Int) :
    0 ≤ n % w.windowSize ∧ n % w.windowSize < w.windowSize := by
  have hpos := h.window_pos
  exact ⟨Int.emod_nonneg _ (by omega), Int.emod_lt_of_pos _ (by omega)⟩

end SenderWindow

theorem initSenderWindow_wellFormed {windowSize : Int} (bufferSize : Int) (heap : ℕ → ℕ → UInt8)
    (h₁ : 1 ≤ windowSize) (h₂ : windowSize < 2147483648) :
    (initSenderWindow windowSize bufferSize heap).WellFormed := by
  refine ⟨h₁, h₂, ?_, le_refl 0, ?_⟩
  · simp only [initSenderWindow, List.length_map, List.length_range]
    omega
  · intro i hi₀ hi
    simp only [initSenderWindow] at hi ⊢
    have hlt : i.toNat < windowSize.toNat := by omega
    rw [Ring.slot, if_pos hi₀, List.getElem?_map, List.getElem?_range hlt]
    simpa using hi₀

section Operations

variable {w : SenderWindow}

theorem SenderWindow.WellFormed.update (h : w.WellFormed) (i : Int) (f : Packet → Packet) :
    { w with buffer := Ring.update w.buffer i f }.WellFormed := by
  refine ⟨h.window_pos, h.window_lt, ?_, h.lower_nonneg, ?_⟩
  · dsimp only
    rw [Ring.length_update, h.length]
  · intro j hj₀ hj
    dsimp only at hj ⊢
    rw [Ring.slot_update_eq_none_iff]
    exact h.null_iff j hj₀ hj

theorem insertPacketIntoWindow_of_slot (h : w.WellFormed) {n : Int} (hn : 0 ≤ n) {p : Packet}
    (hp : Ring.slot w.buffer (n % w.windowSize) = some p) (data : List UInt8) (dataSize : Int)
    (hsize : dataSize ≤ p.data.length) :
    insertPacketIntoWindow w n data dataSize =
      .ok { w with
        buffer := Ring.update w.buffer (n % w.windowSize) (Packet.fill n data dataSize) } := by
  obtain ⟨h₀, h₁⟩ := SenderWindow.index_range h n
  simp only [insertPacketIntoWindow, SenderWindow.index_eq h hn,
    SenderWindow.deref_of_slot h h₀ h₁ hp, bind, Except.bind]
  rw [if_neg (by omega)]

theorem insertPacketIntoWindow_of_null (h : w.WellFormed) {n : Int} (hn : 0 ≤ n)
    (hp : Ring.slot w.buffer (n % w.windowSize) = none) (data : List UInt8) (dataSize : Int) :
    insertPacketIntoWindow w n data dataSize = .error .nullPointer := by
  obtain ⟨h₀, h₁⟩ := SenderWindow.index_range h n
  simp only [insertPacketIntoWindow, SenderWindow.index_eq h hn,
    SenderWindow.deref_of_null h h₀ h₁ hp, bind, Except.bind]

/-- A slot in range is read as it is, whether it is allocated or not. -/
theorem index_read_eq (hw : 1 ≤ w.windowSize) (hlen : (w.buffer.length : Int) = w.windowSize)
    {n : Int} (hn : 0 ≤ n) :
    w.index n = .ok (n % w.windowSize) ∧
      w.read (n % w.windowSize) = .ok (Ring.slot w.buffer (n % w.windowSize)) := by
  have h₀ : 0 ≤ n % w.windowSize := Int.emod_nonneg _ (by omega)
  have h₁ : n % w.windowSize < w.windowSize := Int.emod_lt_of_pos _ (by omega)
  constructor
  · rw [SenderWindow.index, if_neg (by omega), Int.tmod_eq_emod_of_nonneg hn]
  · rw [SenderWindow.read, if_pos ⟨h₀, by rw [hlen]; exact h₁⟩]

theorem acknowledgePacket_of_nonneg (hw : 1 ≤ w.windowSize)
    (hlen : (w.buffer.length : Int) = w.windowSize) {n : Int} (hn : 0 ≤ n) :
    acknowledgePacket w n =
      .ok { w with buffer := Ring.update w.buffer (n % w.windowSize) Packet.acked } := by
  obtain ⟨hindex, hread⟩ := index_read_eq hw hlen hn
  simp only [acknowledgePacket, hindex, hread, bind, Except.bind]
  cases hp : Ring.slot w.buffer (n % w.windowSize) with
  | none =>
    dsimp only
    rw [Ring.update_of_null hp]
  | some p => rfl

theorem acknowledgePacket_eq (h : w.WellFormed) {n : Int} (hn : 0 ≤ n) :
    acknowledgePacket w n =
      .ok { w with buffer := Ring.update w.buffer (n % w.windowSize) Packet.acked } :=
  acknowledgePacket_of_nonneg h.window_pos h.length hn

theorem checkPacketACKStatus_of_slot (h : w.WellFormed) {n : Int} (hn : 0 ≤ n) {p : Packet}
    (hp : Ring.slot w.buffer (n % w.windowSize) = some p) :
    checkPacketACKStatus w n = .ok p.ack := by
  obtain ⟨hindex, hread⟩ := index_read_eq h.window_pos h.length hn
  simp only [checkPacketACKStatus, hindex, hread, hp, bind, Except.bind]

theorem acknowledgePacket_cases (h : w.WellFormed) (n : Int) :
    (∃ i, acknowledgePacket w n = .ok { w with buffer := Ring.update w.buffer i Packet.acked }) ∨
    (n < 0 ∧ acknowledgePacket w n = .error .outOfBounds) := by
  have hpos := h.window_pos
  by_cases hn : 0 ≤ n
  · exact Or.inl ⟨_, acknowledgePacket_eq h hn⟩
  · have hindex : w.index n = .ok (n.tmod w.windowSize) := by
      rw [SenderWindow.index, if_neg (by omega)]
    by_cases hi : 0 ≤ n.tmod w.windowSize
    · left
      refine ⟨n.tmod w.windowSize, ?_⟩
      have hlt : n.tmod w.windowSize < w.windowSize := Int.tmod_lt_of_pos _ (by omega)
      simp only [acknowledgePacket, hindex, SenderWindow.read_eq h hi hlt, bind, Except.bind]
      cases hp : Ring.slot w.buffer (n.tmod w.windowSize) with
      | none =>
        dsimp only
        rw [Ring.update_of_null hp]
      | some p => rfl
    · right
      refine ⟨by omega, ?_⟩
      have hread : w.read (n.tmod w.windowSize) = .error .outOfBounds := by
        rw [SenderWindow.read, if_neg (by omega)]
      simp only [acknowledgePacket, hindex, hread, bind, Except.bind]

theorem freeSlots_succ (hw : 1 ≤ w.windowSize) (hlen : (w.buffer.length : Int) = w.windowSize)
    {i : Int} (hi : 0 ≤ i) (n : ℕ) :
    freeSlots (n + 1) i w =
      freeSlots n (i + 1) { w with buffer := Ring.release w.buffer (i % w.windowSize) } := by
  have h₁ : i % w.windowSize < w.windowSize := Int.emod_lt_of_pos _ (by omega)
  obtain ⟨hindex, hread⟩ := index_read_eq hw hlen hi
  simp only [freeSlots, hindex, hread, bind, Except.bind]
  cases hp : Ring.slot w.buffer (i % w.windowSize) with
  | none =>
    dsimp only
    rw [Ring.release_of_null hp (by omega)]
  | some p => rfl

theorem freeSlots_eq_releaseRange (n : ℕ) {w : SenderWindow} (hw : 1 ≤ w.windowSize)
    (hlen : (w.buffer.length : Int) = w.windowSize) {i : Int} (hi : 0 ≤ i) :
    freeSlots n i w =
      .ok { w with buffer := Ring.releaseRange w.windowSize n i w.buffer } := by
  induction n generalizing w i with
  | zero => rfl
  | succ n ih =>
    have hlen' : ((Ring.release w.buffer (i % w.windowSize)).length : Int) = w.windowSize := by
      rw [Ring.length_release, hlen]
    rw [freeSlots_succ hw hlen hi, Ring.releaseRange]
    exact ih (w := { w with buffer := Ring.release w.buffer (i % w.windowSize) }) hw hlen' (by omega)

theorem advanceSenderWindow_cases (h : w.WellFormed) (newLower : Int) :
    (newLower ≤ w.lower ∧ advanceSenderWindow w newLower = .ok w) ∨
    (w.lower < newLower ∧ ∃ w', advanceSenderWindow w newLower = .ok w' ∧ w'.WellFormed ∧
      w'.windowSize = w.windowSize ∧ w'.lower = newLower ∧
      w'.upper = i32 (newLower + w.windowSize - 1) ∧ w'.current = w.current ∧
      ∀ k p, Ring.slot w'.buffer k = some p → Ring.slot w.buffer k = some p) := by
  have hpos := h.window_pos
  have hlow := h.lower_nonneg
  by_cases hlt : w.lower < newLower
  · right
    have hf := freeSlots_eq_releaseRange (newLower - w.lower).toNat hpos h.length hlow
    refine ⟨hlt, { w with
      buffer := Ring.releaseRange w.windowSize (newLower - w.lower).toNat w.lower w.buffer
      lower := newLower
      upper := i32 (newLower + w.windowSize - 1) }, ?_, ⟨hpos, h.window_lt, ?_, ?_, ?_⟩,
      rfl, rfl, rfl, rfl, fun k p => Ring.slot_releaseRange_eq_some⟩
    · simp only [advanceSenderWindow, if_pos hlt, hf, bind, Except.bind]
    · rw [Ring.length_releaseRange]
      exact h.length
    · dsimp only
      omega
    · intro k hk₀ hk
      dsimp only at hk ⊢
      rw [Ring.slot_releaseRange_eq_none_iff, h.null_iff k hk₀ hk]
      constructor
      · rintro (hk | ⟨j, h₁, h₂, rfl⟩)
        · omega
        · have hdiv := Int.mul_ediv_add_emod j w.windowSize
          have hmul : 0 ≤ w.windowSize * (j / w.windowSize) :=
            Int.mul_nonneg (by omega) (Int.ediv_nonneg (by omega) (by omega))
          omega
      · intro hk'
        by_cases hkl : k < w.lower
        · exact Or.inl hkl
        · exact Or.inr ⟨k, by omega, by omega, Int.emod_eq_of_lt hk₀ hk⟩
  · left
    refine ⟨by omega, ?_⟩
    rw [advanceSenderWindow, if_neg hlt]

end Operations

end Rcopy
