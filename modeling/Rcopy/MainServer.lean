import Rcopy.FilenamePdu
import Rcopy.Lib.Runs

/-!
# The accept loop of the server

The loop of the server's `main`. Its receive buffer lives as long as the process,
and neither the number of bytes received nor the flag is looked at: a datagram too
short to be a request is checked together with what earlier ones have left behind
it in the buffer.
-/

namespace Rcopy

open Bytes

/-- The variables of `main` that outlive a turn of its loop, and the calls of
`startFSM`, each with the datagram that has just been received. -/
structure MainServer where
  buffer : List UInt8
  calls : List (List UInt8 × Request)
  exited : Bool
deriving DecidableEq

/-- How `pollCall` and `recvfrom` come back. -/
inductive MainEvent
  | pollFailed
  | recvFailed
  | received (datagram : List UInt8)
deriving DecidableEq

def enterMain (stack : ℕ → UInt8) : MainServer where
  buffer := uninit stack 114
  calls := []
  exited := false

def mainLoopTurn (s : MainServer) (e : MainEvent) : MainServer :=
  if s.exited then s
  else
    match e with
    | .pollFailed => { s with exited := true }
    | .recvFailed => s
    | .received d =>
      match mainTurn s.buffer d with
      | (buffer, none) => { s with buffer := buffer }
      | (buffer, some request) => { s with buffer := buffer, calls := s.calls ++ [(d, request)] }

def windowSizeIn (d : List UInt8) : UInt32 := ntohl (load32 (d.drop 109))

/-- The datagram is a filename PDU by its length, flag and checksum, and the request
holds the name and the sizes that are in it. -/
structure CompleteRequest (d : List UInt8) (request : Request) : Prop where
  length : 113 ≤ d.length
  flag : flagOf d = 8
  checksum : calculateFilenameChecksumFILENAME d = 0
  filename : request.filename = (d.drop 7).take 100
  bufferSize : request.hostBufferSize = ntohs (load16 (d.drop 107))
  windowSize : request.hostWindowSize.toNat = (windowSizeIn d).toNat

/-- What the checksum has to keep out: a datagram of full length with another flag or
with a window size of more than 16 bits, and a short one together with what it leaves
in the buffer. -/
def RefusesIncomplete (s : MainServer) (e : MainEvent) : Prop :=
  s.exited = false → ∀ d, e = .received d →
    (113 ≤ d.length → calculateFilenameChecksumFILENAME d = 0 →
      flagOf d = 8 ∧ (windowSizeIn d).toNat < 65536) ∧
    (d.length < 113 → calculateFilenameChecksumFILENAME (d ++ s.buffer.drop d.length) ≠ 0)

section Loop

variable {buffer d : List UInt8} {s : MainServer}

theorem staticCksum_of_take_eq {words len : ℕ} {a b : List UInt8} (h : a.take len = b.take len) :
    staticCksum words len a = staticCksum words len b := by
  simp only [staticCksum, h]

theorem requestOf_of_take_eq {a b : List UInt8} (h : a.take 113 = b.take 113) :
    requestOf a = requestOf b := by
  have hname := take_drop_of_take_eq (i := 7) (k := 100) h (by omega)
  have hbuffer := take_drop_of_take_eq (i := 107) (k := 2) h (by omega)
  have hwindow := take_drop_of_take_eq (i := 109) (k := 4) h (by omega)
  simp only [requestOf, load16, load32, hname, hbuffer, hwindow]

theorem take_recvInto (buffer : List UInt8) (hd : 113 ≤ d.length) :
    (recvInto buffer 114 d).take 113 = d.take 113 := by
  have hlen : 113 ≤ (d.take 114).length := by
    rw [List.length_take]
    omega
  rw [recvInto, memcpy_zero, List.take_append_of_le_length hlen, List.take_take,
    Nat.min_eq_left (by omega)]

theorem mainTurn_eq_some_iff {request : Request} :
    (∃ buffer', mainTurn buffer d = (buffer', some request)) ↔
      calculateFilenameChecksumFILENAME (recvInto buffer 114 d) = 0 ∧
        request = requestOf (recvInto buffer 114 d) := by
  simp only [mainTurn]
  split_ifs with hsum
  · simp [hsum]
  · simp only [Prod.mk.injEq, Option.some.injEq, exists_eq_left', not_not.mp hsum, true_and]
    exact eq_comm

theorem mainTurn_complete {buffer' : List UInt8} {request : Request}
    (h : mainTurn buffer d = (buffer', some request)) :
    CompleteRequest d request ↔
      113 ≤ d.length ∧ flagOf d = 8 ∧ (windowSizeIn d).toNat < 65536 := by
  obtain ⟨hsum, hreq⟩ := mainTurn_eq_some_iff.mp ⟨buffer', h⟩
  have hwindow : 113 ≤ d.length → request.hostWindowSize = (windowSizeIn d).toUInt16 := by
    intro hlen
    rw [hreq, requestOf_of_take_eq (take_recvInto buffer hlen)]
    rfl
  constructor
  · intro hc
    have hsize := hc.windowSize
    have hlt := request.hostWindowSize.toNat_lt
    exact ⟨hc.length, hc.flag, by omega⟩
  · rintro ⟨hlen, hflag, hlt⟩
    have htake := take_recvInto buffer hlen
    refine ⟨hlen, hflag, ?_, ?_, ?_, ?_⟩
    · rw [calculateFilenameChecksumFILENAME] at hsum ⊢
      rw [← staticCksum_of_take_eq htake, hsum]
    · rw [hreq, requestOf_of_take_eq htake]
      rfl
    · rw [hreq, requestOf_of_take_eq htake]
      rfl
    · rw [hwindow hlen, UInt32.toNat_toUInt16]
      omega

/-- A step refuses what is incomplete exactly when it starts no session for it. -/
theorem refusesIncomplete_iff (hs : s.exited = false) :
    RefusesIncomplete s (.received d) ↔
      ∀ buffer request, mainTurn s.buffer d = (buffer, some request) →
        113 ≤ d.length ∧ flagOf d = 8 ∧ (windowSizeIn d).toNat < 65536 := by
  have hstart : (∃ buffer request, mainTurn s.buffer d = (buffer, some request)) ↔
      calculateFilenameChecksumFILENAME (recvInto s.buffer 114 d) = 0 := by
    rw [exists_comm]
    simp only [mainTurn_eq_some_iff, exists_and_left, exists_eq, and_true]
  have hstarts : (∀ buffer request, mainTurn s.buffer d = (buffer, some request) →
      113 ≤ d.length ∧ flagOf d = 8 ∧ (windowSizeIn d).toNat < 65536) ↔
      (calculateFilenameChecksumFILENAME (recvInto s.buffer 114 d) = 0 →
        113 ≤ d.length ∧ flagOf d = 8 ∧ (windowSizeIn d).toNat < 65536) := by
    rw [← hstart]
    simp only [forall_exists_index]
  rw [hstarts]
  by_cases hlen : 113 ≤ d.length
  · have hsum : calculateFilenameChecksumFILENAME (recvInto s.buffer 114 d) =
        calculateFilenameChecksumFILENAME d := staticCksum_of_take_eq (take_recvInto s.buffer hlen)
    have hshort : ¬d.length < 113 := not_lt.mpr hlen
    simp only [RefusesIncomplete, hs, hsum, hlen, hshort, MainEvent.received.injEq,
      forall_eq', true_implies, true_and, false_implies, and_true]
  · have hbuf : recvInto s.buffer 114 d = d ++ s.buffer.drop d.length := recvInto_eq (by omega)
    have hshort : d.length < 113 := not_le.mp hlen
    simp only [RefusesIncomplete, hs, hbuf, hlen, hshort, MainEvent.received.injEq,
      forall_eq', true_implies, false_implies, true_and, false_and, imp_false]

theorem mainLoopTurn_received (hs : s.exited = false) :
    (∃ buffer, mainTurn s.buffer d = (buffer, none) ∧
      mainLoopTurn s (.received d) = { s with buffer := buffer }) ∨
    ∃ buffer request, mainTurn s.buffer d = (buffer, some request) ∧
      mainLoopTurn s (.received d) =
        { s with buffer := buffer, calls := s.calls ++ [(d, request)] } := by
  simp only [mainLoopTurn, hs]
  rcases hturn : mainTurn s.buffer d with ⟨buffer, _ | request⟩
  · exact Or.inl ⟨buffer, rfl, rfl⟩
  · exact Or.inr ⟨buffer, request, rfl, rfl⟩

theorem mainLoopTurn_length (e : MainEvent) (hs : s.buffer.length = 114) :
    (mainLoopTurn s e).buffer.length = 114 := by
  have hrecv : ∀ d, (recvInto s.buffer 114 d).length = 114 := by
    intro d
    have hle := List.length_take_le 114 d
    rw [recvInto, length_memcpy (by omega), hs]
  simp only [mainLoopTurn]
  split_ifs
  · exact hs
  · cases e with
    | pollFailed => exact hs
    | recvFailed => exact hs
    | received d =>
      simp only [mainTurn]
      split_ifs <;> exact hrecv d

def CallsComplete (s : MainServer) : Prop := ∀ call ∈ s.calls, CompleteRequest call.1 call.2

theorem CallsComplete.turn {e : MainEvent} (h : CallsComplete s) (he : RefusesIncomplete s e) :
    CallsComplete (mainLoopTurn s e) := by
  by_cases hexit : s.exited = true
  · simpa [mainLoopTurn, hexit] using h
  · have hs : s.exited = false := Bool.not_eq_true _ ▸ hexit
    cases e with
    | pollFailed => simpa [mainLoopTurn, hs, CallsComplete] using h
    | recvFailed => simpa [mainLoopTurn, hs] using h
    | received d =>
      rcases mainLoopTurn_received (d := d) hs with
        ⟨buffer, -, hstep⟩ | ⟨buffer, request, hturn, hstep⟩
      · rw [hstep]
        exact h
      · have hstart := (refusesIncomplete_iff hs).mp he buffer request hturn
        rw [hstep]
        intro call hcall
        rcases List.mem_append.mp hcall with hold | hnew
        · exact h call hold
        · rw [List.mem_singleton.mp hnew]
          exact (mainTurn_complete hturn).mpr hstart

theorem not_callsComplete {e : MainEvent} (he : ¬RefusesIncomplete s e) :
    ¬CallsComplete (mainLoopTurn s e) := by
  have hs : s.exited = false := by
    by_contra hexit
    exact he fun h => absurd h hexit
  obtain ⟨d, rfl⟩ : ∃ d, e = .received d := by
    by_contra hother
    exact he fun _ d hd => absurd ⟨d, hd⟩ hother
  rw [refusesIncomplete_iff hs] at he
  push Not at he
  obtain ⟨buffer, request, hturn, hbad⟩ := he
  intro h
  rcases mainLoopTurn_received (d := d) hs with
    ⟨buffer', hnone, -⟩ | ⟨buffer', request', hturn', hstep⟩
  · rw [hturn] at hnone
    cases hnone
  · rw [hstep] at h
    have hcall := h (d, request') (List.mem_append_right _ (List.mem_singleton_self _))
    obtain ⟨hlen, hflag, hwindow⟩ := (mainTurn_complete hturn').mp hcall
    exact absurd hwindow (not_lt.mpr (hbad hlen hflag))

end Loop

/-- In a run of the accept loop every call of `startFSM` is for a complete request in
the datagram just received exactly when the checksum refuses every other datagram. -/
theorem callsComplete_iff (stack : ℕ → UInt8) (events : List MainEvent) :
    Runs.Always mainLoopTurn CallsComplete (enterMain stack) events ↔
      Runs.EveryStep mainLoopTurn RefusesIncomplete (enterMain stack) events := by
  refine Runs.always_iff_everyStep (I := CallsComplete) ?_ (fun _ h => h) ?_ ?_
  · intro call hcall
    cases hcall
  · intro s e h he
    exact h.turn he
  · intro s e _ he
    exact not_callsComplete he

theorem recvInto_prefix {buffer d : List UInt8} (h : d <+: buffer) (hlen : buffer.length ≤ 114) :
    recvInto buffer 114 d = buffer := by
  have hd := h.length_le
  obtain ⟨rest, rfl⟩ := h
  rw [recvInto_eq (by omega), List.drop_left]

/-- After a request, a datagram of one byte is taken for the same request again. -/
theorem callsComplete_lost :
    ¬Runs.Always mainLoopTurn CallsComplete (enterMain fun _ => 0)
      [.received (filenameDatagram (paramsOf digitOne) 0), .received [0]] := by
  intro h
  have hlen : (filenameDatagram (paramsOf digitOne) 0).length = 114 := by
    simp [filenameDatagram, length_sealFilename]
  have hprefix : [0] <+: filenameDatagram (paramsOf digitOne) 0 := by
    rw [filenameDatagram, sealFilename_eq]
    exact ⟨_, rfl⟩
  have hfirst := mainTurn_filenameDatagram (paramsOf digitOne) 0 (length_uninit (fun _ => 0) 114)
  have hagain := mainTurn_filenameDatagram (paramsOf digitOne) 0 hlen
  generalize filenameDatagram (paramsOf digitOne) 0 = pdu at *
  have hsecond : mainTurn pdu [0] = (pdu, some (requestOf pdu)) := by
    rw [← hagain]
    simp only [mainTurn, recvInto_prefix hprefix hlen.le,
      recvInto_prefix (List.prefix_refl pdu) hlen.le]
  have hstep₁ : mainLoopTurn (enterMain fun _ => 0) (.received pdu) =
      { buffer := pdu, calls := [(pdu, requestOf pdu)], exited := false } := by
    simp [mainLoopTurn, enterMain, hfirst]
  have hstep₂ : mainLoopTurn { buffer := pdu, calls := [(pdu, requestOf pdu)], exited := false }
      (.received [0]) =
      { buffer := pdu
        calls := [(pdu, requestOf pdu), ([0], requestOf pdu)]
        exited := false } := by
    simp [mainLoopTurn, hsecond]
  have hlast := h.last
  rw [Runs.exec_cons, hstep₁, Runs.exec_cons, hstep₂, Runs.exec_nil] at hlast
  have hshort := (hlast ([0], requestOf pdu) (by simp)).length
  exact absurd hshort (by simp)

end Rcopy
