import Rcopy.Lib.Outcome
import Rcopy.MainServer
import Rcopy.Send

/-!
# The divisor of the slot indices

Every slot index of the server is a remainder by `window_size`, which comes out of
the filename request: a `uint32_t` on the wire, a `uint16_t` in `main`, an `int` in
the window. Nothing tests it. A window size that narrows to zero divides by zero as
soon as an RR, an SREJ or a timeout is handled.
-/

namespace Rcopy

open Outcome

/-- The session that `startFSM` begins for a request, on the file it names. -/
def sessionOf (request : Request) (file : List UInt8) : Session where
  bufferSize := request.hostBufferSize
  windowSize := request.hostWindowSize.toUInt32
  file := file

/-- The window size is a `uint16_t` in `main`, so it is no negative `int`. -/
theorem sessionOf_windowSize (request : Request) (file : List UInt8) :
    0 ≤ toI32 (sessionOf request file).windowSize := by
  have hlt := request.hostWindowSize.toNat_lt
  have hnat : (sessionOf request file).windowSize.toNat = request.hostWindowSize.toNat :=
    UInt16.toNat_toUInt32 _
  rw [toI32_of_lt (by omega)]
  exact Int.natCast_nonneg _

def Undivided (f : Fault) : Prop := f ≠ .divByZero

instance : DecidablePred Undivided := fun _ => inferInstanceAs (Decidable (_ ≠ _))

/-- A divisor that is zero neither as an `int` nor as a `uint32_t`. -/
structure Divisor (n : Int) : Prop where
  int : n ≠ 0
  unsigned : toU32 n ≠ 0

section Window

variable {n : Int} {w : SenderWindow}

theorem index_meets (hn : Divisor n) (hw : w.windowSize = n) (i : Int) :
    Meets Undivided (fun _ => True) (w.index i) := by
  rw [SenderWindow.index, if_neg (by rw [hw]; exact hn.int)]
  trivial

theorem indexU32_meets (hn : Divisor n) (hw : w.windowSize = n) (i : UInt32) :
    Meets Undivided (fun _ => True) (w.indexU32 i) := by
  rw [SenderWindow.indexU32, if_neg (by rw [hw]; exact hn.unsigned)]
  trivial

theorem read_meets (i : Int) : Meets Undivided (fun _ => True) (w.read i) := by
  rw [SenderWindow.read]
  split_ifs
  · trivial
  · exact meets_error (by decide)

theorem deref_meets (i : Int) : Meets Undivided (fun _ => True) (w.deref i) := by
  have hread := read_meets (w := w) i
  rw [SenderWindow.deref]
  cases hr : w.read i with
  | error f =>
    rw [hr] at hread
    exact hread
  | ok o =>
    cases o with
    | none => exact meets_error (by decide)
    | some p => trivial

theorem insertPacketIntoWindow_meets (hn : Divisor n) (hw : w.windowSize = n) (i : Int)
    (data : List UInt8) (dataSize : Int) :
    Meets Undivided (fun w' => w'.windowSize = n) (insertPacketIntoWindow w i data dataSize) := by
  refine (index_meets hn hw i).bind fun index _ => (deref_meets index).bind fun p _ => ?_
  split_ifs
  · exact meets_error (by decide)
  · exact meets_ok hw

theorem acknowledgePacket_meets (hn : Divisor n) (hw : w.windowSize = n) (i : Int) :
    Meets Undivided (fun w' => w'.windowSize = n) (acknowledgePacket w i) := by
  refine (index_meets hn hw i).bind fun index _ => (read_meets index).bind fun o _ => ?_
  cases o with
  | none => exact meets_ok hw
  | some p => exact meets_ok hw

theorem freeSlots_meets (hn : Divisor n) (k : ℕ) (hw : w.windowSize = n) (i : Int) :
    Meets Undivided (fun w' => w'.windowSize = n) (freeSlots k i w) := by
  induction k generalizing w i with
  | zero => exact meets_ok hw
  | succ k ih =>
    refine (index_meets hn hw i).bind fun index _ => (read_meets index).bind fun o _ => ?_
    cases o with
    | none => exact ih hw (i + 1)
    | some p => exact ih (w := { w with buffer := Ring.release w.buffer index }) hw (i + 1)

theorem advanceSenderWindow_meets (hn : Divisor n) (hw : w.windowSize = n) (newLower : Int) :
    Meets Undivided (fun w' => w'.windowSize = n) (advanceSenderWindow w newLower) := by
  rw [advanceSenderWindow]
  split_ifs
  · exact (freeSlots_meets hn _ hw _).bind fun w' hw' => meets_ok hw'
  · exact meets_ok hw

theorem findUnacked_meets (hn : Divisor n) (hw : w.windowSize = n) (k : ℕ) (seq : Int) :
    Meets Undivided (fun _ => True) (findUnacked w k seq) := by
  induction k generalizing seq with
  | zero => trivial
  | succ k ih =>
    refine (index_meets hn hw seq).bind fun index _ => (read_meets index).bind fun o _ => ?_
    cases o with
    | none => exact ih (seq + 1)
    | some p =>
      dsimp only
      split_ifs
      · trivial
      · exact ih (seq + 1)

end Window

def NoDivision (s : SendData) : Prop := s.phase ≠ .crashed .divByZero

instance : DecidablePred NoDivision := fun _ => inferInstanceAs (Decidable (_ ≠ _))

section Turns

variable {n : Int} {p : Session} {s : SendData} {t : SendTurn}

theorem NoDivision.of_phase {s' : SendData} (hs : NoDivision s) (h : s'.phase = s.phase) :
    NoDivision s' := by
  rw [NoDivision, h]
  exact hs

theorem noDivision_of_meets {α : Type} {P : α → Prop} {x : Except Fault α} {f : Fault}
    (h : Meets Undivided P x) (hx : x = .error f) (hphase : s.phase = .crashed f) :
    NoDivision s := by
  rw [hx] at h
  intro hdiv
  rw [hphase] at hdiv
  exact h (Phase.crashed.inj hdiv)

theorem fillTurn_noDivision (hn : Divisor n) (hw : s.window.windowSize = n) (hs : NoDivision s) :
    (fillTurn p s t).window.windowSize = n ∧ NoDivision (fillTurn p s t) := by
  simp only [fillTurn]
  generalize getDataChunk s.file p.bufferSize.toNat t.chunkHeap = chunk
  by_cases heof : chunk.bytesRead = 0
  · rw [if_pos heof]
    exact ⟨hw, by simp [NoDivision]⟩
  rw [if_neg heof]
  have hinserted : Meets Undivided (fun x : SenderWindow × Packet => x.1.windowSize = n) (do
      let window ← insertPacketIntoWindow s.window (toI32 s.dataSequenceNumber) (freshPdu p s t)
        (chunk.bytesRead + 7)
      let index ← window.indexU32 s.dataSequenceNumber
      let packet ← window.deref index
      .ok (window, packet)) := by
    refine (insertPacketIntoWindow_meets hn hw _ _ _).bind fun window hwindow => ?_
    refine (indexU32_meets hn hwindow _).bind fun index _ => ?_
    exact (deref_meets index).bind fun packet _ => meets_ok hwindow
  revert hinserted
  generalize (do
      let window ← insertPacketIntoWindow s.window (toI32 s.dataSequenceNumber) (freshPdu p s t)
        (chunk.bytesRead + 7)
      let index ← window.indexU32 s.dataSequenceNumber
      let packet ← window.deref index
      .ok (window, packet) : Except Fault (SenderWindow × Packet)) = x
  intro hinserted
  cases x with
  | error f => exact ⟨hw, noDivision_of_meets hinserted rfl rfl⟩
  | ok inserted =>
    have hsize : inserted.1.windowSize = n := hinserted
    by_cases hneg : t.sent < 0
    · simp only [if_pos hneg]
      exact ⟨hsize, by simp [NoDivision]⟩
    · simp only [if_neg hneg]
      exact ⟨hsize, hs.of_phase rfl⟩

theorem controlTurn_noDivision (hn : Divisor n) (hw : s.window.windowSize = n)
    (hs : NoDivision s) :
    (controlTurn s t).window.windowSize = n ∧ NoDivision (controlTurn s t) := by
  cases hc : t.control with
  | none =>
    simp only [controlTurn, hc]
    exact ⟨hw, hs⟩
  | some c =>
    cases c with
    | rr receivedSeq =>
      simp only [controlTurn, hc]
      generalize toI32 receivedSeq = seq
      generalize toI32 (receivedSeq + 1) = newLower
      have hslid : Meets Undivided (fun w' : SenderWindow => w'.windowSize = n) (do
          let window ← acknowledgePacket s.window seq
          advanceSenderWindow window newLower) := by
        refine (acknowledgePacket_meets hn hw seq).bind fun window hwindow => ?_
        exact advanceSenderWindow_meets hn hwindow newLower
      split
      · rename_i f hf
        exact ⟨hw, noDivision_of_meets hslid hf rfl⟩
      · rename_i window hok
        rw [hok] at hslid
        have hsize : window.windowSize = n := hslid
        exact ⟨hsize, hs.of_phase rfl⟩
    | srej receivedSeq =>
      have hfound : Meets Undivided (fun _ => True) (do
          let index ← s.window.indexU32 receivedSeq
          s.window.deref index) :=
        (indexU32_meets hn hw _).bind fun index _ => deref_meets index
      simp only [controlTurn, hc]
      split
      · rename_i f hf
        exact ⟨hw, noDivision_of_meets hfound hf rfl⟩
      · exact ⟨hw, hs.of_phase rfl⟩
    | other =>
      simp only [controlTurn, hc]
      exact ⟨hw, hs⟩

theorem timeoutTurn_noDivision (hn : Divisor n) (hw : s.window.windowSize = n)
    (hs : NoDivision s) :
    (timeoutTurn s t).window.windowSize = n ∧ NoDivision (timeoutTurn s t) := by
  have hfound := findUnacked_meets hn hw (s.window.upper - s.window.lower + 1).toNat s.window.lower
  rw [timeoutTurn]
  split
  · rename_i f hf
    exact ⟨hw, noDivision_of_meets hfound hf rfl⟩
  · exact ⟨hw, hs⟩
  · exact ⟨hw, hs.of_phase rfl⟩

theorem sendTurn_noDivision (hn : Divisor n)
    (h : s.window.windowSize = n ∧ NoDivision s) :
    (sendTurn p s t).window.windowSize = n ∧ NoDivision (sendTurn p s t) := by
  obtain ⟨hw, hs⟩ := h
  cases hphase : s.phase with
  | fill =>
    simp only [sendTurn, hphase]
    split_ifs
    · exact fillTurn_noDivision hn hw hs
    · exact ⟨hw, by simp [NoDivision]⟩
  | poll =>
    simp only [sendTurn, hphase]
    split_ifs
    · exact controlTurn_noDivision hn hw hs
    · exact ⟨hw, by simp [NoDivision]⟩
  | wait =>
    simp only [sendTurn, hphase]
    split_ifs
    · exact ⟨hw, by simp [NoDivision]⟩
    · exact controlTurn_noDivision hn hw hs
    · exact timeoutTurn_noDivision hn hw hs
  | returned state =>
    simp only [sendTurn, hphase]
    exact ⟨hw, hs⟩
  | crashed fault =>
    simp only [sendTurn, hphase]
    exact ⟨hw, hs⟩

end Turns

/-- `doSendDataState` at its start, with the `data_sequence_number` of the process. -/
def enterSendDataAt (p : Session) (heap : ℕ → ℕ → UInt8) (dataSequenceNumber : UInt32) :
    SendData :=
  { enterSendData p heap with dataSequenceNumber := dataSequenceNumber }

theorem divisor_of_ne_zero {x : UInt32} (h : x ≠ 0) : Divisor (toI32 x) := by
  have hback := toU32_toI32 x
  refine ⟨?_, by rwa [hback]⟩
  intro hzero
  rw [hzero] at hback
  exact h hback.symm

/-! ## A window size that narrows to zero -/

/-- The window has no slots, and nothing has been sent. -/
structure Idle (s : SendData) : Prop where
  windowSize : s.window.windowSize = 0
  buffer : s.window.buffer = []
  lower : s.window.lower = 0
  upper : s.window.upper = 0
  current : s.window.current = 0
  sent : s.sent = []
  phase : ∀ state, s.phase ≠ .returned state

section ZeroWindow

variable {p : Session} {s : SendData} {t : SendTurn}

theorem Idle.of_phase (h : Idle s) {phase : Phase} (hphase : ∀ state, phase ≠ .returned state) :
    Idle { s with phase := phase } :=
  ⟨h.windowSize, h.buffer, h.lower, h.upper, h.current, h.sent, hphase⟩

theorem Idle.closed (h : Idle s) : canSendMorePackets s.window = false := by
  rw [canSendMorePackets, h.current, h.upper]
  decide

theorem Idle.slot (h : Idle s) (i : Int) : Ring.slot s.window.buffer i = none := by
  rw [h.buffer, Ring.slot]
  simp

theorem Idle.index (h : Idle s) (i : Int) : s.window.index i = .error .divByZero := by
  rw [SenderWindow.index, if_pos h.windowSize]

theorem Idle.indexU32 (h : Idle s) (i : UInt32) : s.window.indexU32 i = .error .divByZero := by
  rw [SenderWindow.indexU32, h.windowSize, if_pos (by decide)]

theorem Idle.controlTurn (h : Idle s) : Idle (controlTurn s t) := by
  cases hc : t.control with
  | none =>
    simp only [Rcopy.controlTurn, hc]
    exact h
  | some c =>
    cases c with
    | rr receivedSeq =>
      have hack : acknowledgePacket s.window (toI32 receivedSeq) = .error .divByZero := by
        simp only [acknowledgePacket, h.index, bind, Except.bind]
      simp only [Rcopy.controlTurn, hc, hack, bind, Except.bind]
      exact h.of_phase (by simp)
    | srej receivedSeq =>
      simp only [Rcopy.controlTurn, hc, h.indexU32, bind, Except.bind]
      exact h.of_phase (by simp)
    | other =>
      simp only [Rcopy.controlTurn, hc]
      exact h

theorem Idle.timeoutTurn_eq (h : Idle s) :
    timeoutTurn s t = { s with phase := .crashed .divByZero } := by
  have hfind : findUnacked s.window (s.window.upper - s.window.lower + 1).toNat s.window.lower =
      .error .divByZero := by
    rw [h.upper, h.lower, show ((0 : Int) - 0 + 1).toNat = 1 from rfl]
    simp only [findUnacked, h.index, bind, Except.bind]
  simp only [timeoutTurn, hfind]

theorem Idle.step (h : Idle s) (t : SendTurn) : Idle (sendTurn p s t) := by
  have hopen : ¬canSendMorePackets s.window = true := by simp [h.closed]
  cases hphase : s.phase with
  | fill =>
    simp only [sendTurn, hphase, if_neg hopen]
    exact h.of_phase (by simp)
  | poll =>
    simp only [sendTurn, hphase]
    split_ifs
    · exact h.controlTurn
    · exact h.of_phase (by simp)
  | wait =>
    simp only [sendTurn, hphase, if_neg hopen]
    split_ifs
    · exact h.controlTurn
    · rw [h.timeoutTurn_eq]
      exact h.of_phase (by simp)
  | returned state => exact absurd hphase (h.phase state)
  | crashed fault =>
    simp only [sendTurn, hphase]
    exact h

/-- Without slots the window is closed, and the first timeout divides by zero. -/
theorem Idle.exec_divides (h : Idle s) (hphase : s.phase = .fill) (hpoll : t.poll ≤ 0) :
    ¬NoDivision (Runs.exec (sendTurn p) s [t, t, t]) := by
  have hsilent := not_lt.mpr hpoll
  have hfill : sendTurn p s t = { s with phase := .poll } :=
    sendTurn_fill_closed hphase h.closed
  have hdone : sendTurn p { s with phase := .poll } t = { s with phase := .wait } :=
    sendTurn_poll_silent rfl hsilent
  have hwaiting : Idle { s with phase := .wait } := h.of_phase (by simp)
  have hwait : sendTurn p { s with phase := .wait } t =
      { s with phase := .crashed .divByZero } := by
    rw [sendTurn_wait_timeout rfl hwaiting.closed hsilent, hwaiting.timeoutTurn_eq]
  rw [Runs.exec_cons, hfill, Runs.exec_cons, hdone, Runs.exec_cons, hwait]
  exact not_not.mpr rfl

theorem enterSendDataAt_idle (hw : toI32 p.windowSize = 0) (heap : ℕ → ℕ → UInt8) (n : UInt32) :
    Idle (enterSendDataAt p heap n) := by
  refine ⟨hw, ?_, rfl, hw, rfl, rfl, fun _ => Phase.noConfusion⟩
  simp only [enterSendDataAt, enterSendData, initSenderWindow, hw]
  rfl

end ZeroWindow

theorem toI32_zero : toI32 0 = 0 := by
  rw [toI32, UInt32.toNat_zero]
  decide

theorem mainTurn_hostWindowSize {buffer datagram buffer' : List UInt8} {request : Request}
    (h : mainTurn buffer datagram = (buffer', some request)) :
    request.hostWindowSize = (windowSizeIn buffer').toUInt16 := by
  obtain ⟨-, hrequest⟩ := mainTurn_eq_some_iff.mp ⟨buffer', h⟩
  have hbuffer : buffer' = recvInto buffer 114 datagram := by
    simp only [mainTurn] at h
    split_ifs at h <;> exact (Prod.mk.inj h).1.symm
  rw [hrequest, hbuffer]
  rfl

/-- No run of the session divides by zero exactly when the window size in the buffer of
`main` is no multiple of 2^16. -/
theorem noDivision_iff {buffer datagram buffer' : List UInt8} {request : Request}
    (h : mainTurn buffer datagram = (buffer', some request)) :
    (∀ (file : List UInt8) (heap : ℕ → ℕ → UInt8) (n : UInt32) (turns : List SendTurn),
      Runs.Always (sendTurn (sessionOf request file)) NoDivision
        (enterSendDataAt (sessionOf request file) heap n) turns) ↔
      (windowSizeIn buffer').toNat % 65536 ≠ 0 := by
  have hsize := mainTurn_hostWindowSize h
  have hnat : request.hostWindowSize.toNat = (windowSizeIn buffer').toNat % 65536 := by
    rw [hsize, UInt32.toNat_toUInt16]
  have hzero : request.hostWindowSize = 0 ↔ (windowSizeIn buffer').toNat % 65536 = 0 := by
    rw [← hnat, ← UInt16.toNat_inj, UInt16.toNat_zero]
  rw [Ne, ← hzero]
  constructor
  · intro hall hwindow
    have hp : (sessionOf request []).windowSize = 0 := by
      rw [sessionOf, hwindow]
      rfl
    have hidle := enterSendDataAt_idle (p := sessionOf request []) (by rw [hp, toI32_zero])
      (fun _ _ => 0) 0
    exact hidle.exec_divides (t := quietTurn none) rfl (by decide) (hall [] (fun _ _ => 0) 0 _).last
  · intro hwindow file heap n turns
    have hne : (sessionOf request file).windowSize ≠ 0 := by
      intro hz
      apply hwindow
      apply UInt16.toNat_inj.mp
      have hnat := congrArg UInt32.toNat hz
      rwa [sessionOf, UInt16.toNat_toUInt32] at hnat
    refine Runs.Always.mono (fun s => And.right) (Runs.always_of_step
      (fun s t => sendTurn_noDivision (divisor_of_ne_zero hne)) ⟨rfl, ?_⟩)
    exact Phase.noConfusion

theorem noDivision_single :
    (∀ (file : List UInt8) (heap : ℕ → ℕ → UInt8) (n : UInt32) (turns : List SendTurn),
      Runs.Always (sendTurn (sessionOf (requestOf (filenameDatagram (paramsOf digitOne) 0)) file))
        NoDivision
        (enterSendDataAt (sessionOf (requestOf (filenameDatagram (paramsOf digitOne) 0)) file)
          heap n) turns) ↔
      (windowSizeIn (filenameDatagram (paramsOf digitOne) 0)).toNat % 65536 ≠ 0 :=
  noDivision_iff (mainTurn_filenameDatagram (paramsOf digitOne) 0
    (List.length_replicate (n := 114) (a := 0)))

def twoToSixteen : CString := ⟨[54, 53, 53, 51, 54], by decide⟩

/-- rcopy accepts a window size of 65536, and the server divides by zero. -/
theorem noDivision_lost :
    ¬ ∀ (buffer datagram buffer' : List UInt8) (request : Request),
      mainTurn buffer datagram = (buffer', some request) →
      ∀ (file : List UInt8) (heap : ℕ → ℕ → UInt8) (n : UInt32) (turns : List SendTurn),
        Runs.Always (sendTurn (sessionOf request file)) NoDivision
          (enterSendDataAt (sessionOf request file) heap n) turns := by
  intro h
  have hrun := h _ _ _ _ (mainTurn_filenameDatagram (paramsOf twoToSixteen) 0
    (List.length_replicate (n := 114) (a := 0))) [] (fun _ _ => 0) 0
    [quietTurn none, quietTurn none, quietTurn none]
  have hwindow : (toU32 (paramsOf twoToSixteen).windowSize).toUInt16.toUInt32 = 0 := by decide
  have hp : (sessionOf (requestOf (filenameDatagram (paramsOf twoToSixteen) 0)) []).windowSize =
      0 := by
    rw [requestOf_filenameDatagram]
    exact hwindow
  have hidle := enterSendDataAt_idle
    (p := sessionOf (requestOf (filenameDatagram (paramsOf twoToSixteen) 0)) [])
    (by rw [hp, toI32_zero]) (fun _ _ => 0) 0
  exact hidle.exec_divides (t := quietTurn none) rfl (by decide) hrun.last

end Rcopy
