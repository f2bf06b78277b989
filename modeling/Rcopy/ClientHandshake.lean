import Rcopy.FilenamePdu
import Rcopy.Lib.Runs

/-!
# The handshake of rcopy

`doSendFilenameState` and `doFileValidState` under the state loop of rcopy's `main`.
A turn runs from one `pollCall` to the next, with all that is sent in between.

Both functions share the address of the server, and every `recvfrom` overwrites it
with the sender of what has arrived. When the second function gives up, the first
one sends the filename PDU to that address.
-/

namespace Rcopy

open Bytes

structure SockAddr where
  addr : BitVec 128
  port : UInt16
deriving DecidableEq

/-- How `pollCall` and the `recvfrom` after it come back. -/
inductive Poll
  | timeout
  | recvFailed
  | received (source : SockAddr) (datagram : List UInt8)
deriving DecidableEq

/-- A call of `sendtoErr`. -/
structure Sendto where
  dest : SockAddr
  pdu : List UInt8
  result : Int
deriving DecidableEq

/-- The `pollCall` at which rcopy waits, or how the handshake ended. -/
inductive ClientPhase
  | awaitTalk (sendsAttempted : ℕ)
  | awaitValid (retries : ℕ)
  | getData
  | done
deriving DecidableEq

/-- The variables of rcopy during the handshake, and what it has sent and received.
`destFile` is what `checkDestFile` has left in the destination file. -/
structure ClientMain where
  server : SockAddr
  recvBuffer : List UInt8
  destFile : Option (List UInt8)
  sent : List Sendto
  received : List (SockAddr × List UInt8)
  phase : ClientPhase
deriving DecidableEq

/-- The results of the system calls of one turn and the memory it meets: under a new
`recv_buffer`, and the byte after the filename PDU. -/
structure ClientTurn where
  poll : Poll
  stack : ℕ → UInt8
  beyond : UInt8
  sent : Int
  opened : Bool

def ClientMain.sendto (s : ClientMain) (pdu : List UInt8) (result : Int) : ClientMain :=
  { s with sent := s.sent ++ [⟨s.server, pdu, result⟩] }

def ClientMain.recvfrom (s : ClientMain) (source : SockAddr) (d : List UInt8) : ClientMain :=
  { s with
    server := source
    recvBuffer := recvInto s.recvBuffer 7 d
    received := s.received ++ [(source, d)] }

def ClientMain.request (params : RcopyParams) (s : ClientMain) (sendsAttempted : ℕ)
    (t : ClientTurn) : ClientMain :=
  { s.sendto (filenameDatagram params t.beyond) t.sent with
    phase := if t.sent < 0 then .done else .awaitTalk sendsAttempted }

/-- The head of the loop in `doSendFilenameState`, up to its `pollCall`. -/
def sendFilenameHead (params : RcopyParams) (s : ClientMain) (sendsAttempted : ℕ)
    (t : ClientTurn) : ClientMain :=
  if sendsAttempted < 9 then s.request params sendsAttempted t else { s with phase := .done }

def doSendFilenameState (params : RcopyParams) (s : ClientMain) (t : ClientTurn) : ClientMain :=
  sendFilenameHead params { s with recvBuffer := uninit t.stack 7 } 0 t

/-- `checkDestFile` creates the destination file or cuts it to nothing. -/
def doFileValidState (s : ClientMain) (t : ClientTurn) : ClientMain :=
  if t.opened then
    { s with recvBuffer := uninit t.stack 7, destFile := some [], phase := .awaitValid 0 }
  else { s with phase := .done }

def sendFilenameTurn (params : RcopyParams) (s : ClientMain) (sendsAttempted : ℕ)
    (t : ClientTurn) : ClientMain :=
  match t.poll with
  | .timeout => sendFilenameHead params s (sendsAttempted + 1) t
  | .recvFailed => { s with phase := .done }
  | .received source d =>
    let s := s.recvfrom source d
    if flagOf s.recvBuffer = 33 then doFileValidState s t else { s with phase := .done }

/-- The head of the loop in `doFileValidState`; after the last retry it returns
`SEND_FILENAME`. -/
def fileValidHead (params : RcopyParams) (s : ClientMain) (retries : ℕ) (t : ClientTurn) :
    ClientMain :=
  if retries < 9 then { s with phase := .awaitValid retries } else doSendFilenameState params s t

/-- A failed `recvfrom` does not count as a retry. -/
def fileValidTurn (params : RcopyParams) (s : ClientMain) (retries : ℕ) (t : ClientTurn) :
    ClientMain :=
  match t.poll with
  | .timeout => fileValidHead params s (retries + 1) t
  | .recvFailed => s
  | .received source d =>
    let s := s.recvfrom source d
    if flagOf s.recvBuffer = 9 then { s with phase := .getData }
    else if flagOf s.recvBuffer = 32 then
      { s.sendto (sealHandshake (makeFilenameACKBeforeChecksum 33)) t.sent with phase := .done }
    else fileValidHead params s (retries + 1) t

def clientTurn (params : RcopyParams) (s : ClientMain) (t : ClientTurn) : ClientMain :=
  match s.phase with
  | .awaitTalk sendsAttempted => sendFilenameTurn params s sendsAttempted t
  | .awaitValid retries => fileValidTurn params s retries t
  | .getData => s
  | .done => s

/-- `setupUdpClientToServer` leaves the port of the command line in the address. -/
def mainServer (params : RcopyParams) (host : BitVec 128) : SockAddr where
  addr := host
  port := toU16 params.remotePort

/-- The main loop up to the first `pollCall`. -/
def enterClientMain (params : RcopyParams) (host : BitVec 128) (t : ClientTurn) : ClientMain :=
  doSendFilenameState params
    { server := mainServer params host
      recvBuffer := []
      destFile := none
      sent := []
      received := []
      phase := .awaitTalk 0 } t

section Steps

variable {params : RcopyParams} {s : ClientMain} {t : ClientTurn}

theorem flagOf_filenameDatagram (params : RcopyParams) (beyond : UInt8) :
    flagOf (filenameDatagram params beyond) = 8 := by
  have hheader : (store32 (ntohl 1) ++
      store16 (calculateFilenameChecksum (makeFilenamePDUBeforeChecksum params))).length = 6 := by
    simp
  rw [flagOf, filenameDatagram, sealFilename_eq, List.append_assoc,
    List.getD_eq_getElem?_getD, List.getElem?_append_right hheader.le, hheader]
  rfl

def ClientMain.polled (s : ClientMain) : Poll → ClientMain
  | .received source d => s.recvfrom source d
  | _ => s

/-- What `doFileValidState` counts as a retry. -/
def ClientMain.Unanswered (s : ClientMain) : Poll → Prop
  | .timeout => True
  | .recvFailed => False
  | .received _ d => flagOf (recvInto s.recvBuffer 7 d) ≠ 9 ∧ flagOf (recvInto s.recvBuffer 7 d) ≠ 32

/-- The cases of one turn of rcopy. -/
inductive ClientStep (params : RcopyParams) (s : ClientMain) (t : ClientTurn) : ClientMain → Prop
  | ended (n : ℕ) (hphase : s.phase = .awaitTalk n) : ClientStep params s t { s with phase := .done }
  | resent (n : ℕ) (hphase : s.phase = .awaitTalk n) (hn : n + 1 < 9) :
      ClientStep params s t (s.request params (n + 1) t)
  | refused (n : ℕ) (hphase : s.phase = .awaitTalk n) (source : SockAddr) (d : List UInt8)
      (hpoll : t.poll = .received source d) :
      ClientStep params s t { s.recvfrom source d with phase := .done }
  | redirected (n : ℕ) (hphase : s.phase = .awaitTalk n) (source : SockAddr) (d : List UInt8)
      (hpoll : t.poll = .received source d) (hflag : flagOf (recvInto s.recvBuffer 7 d) = 33) :
      ClientStep params s t
        { s.recvfrom source d with
          recvBuffer := uninit t.stack 7
          destFile := some []
          phase := .awaitValid 0 }
  | valid (r : ℕ) (hphase : s.phase = .awaitValid r) (source : SockAddr) (d : List UInt8)
      (hpoll : t.poll = .received source d) (hflag : flagOf (recvInto s.recvBuffer 7 d) = 9) :
      ClientStep params s t { s.recvfrom source d with phase := .getData }
  | invalid (r : ℕ) (hphase : s.phase = .awaitValid r) (source : SockAddr) (d : List UInt8)
      (hpoll : t.poll = .received source d) (hflag : flagOf (recvInto s.recvBuffer 7 d) = 32) :
      ClientStep params s t
        { (s.recvfrom source d).sendto (sealHandshake (makeFilenameACKBeforeChecksum 33)) t.sent with
          phase := .done }
  | retried (r : ℕ) (hphase : s.phase = .awaitValid r) (hnone : s.Unanswered t.poll)
      (hr : r + 1 < 9) :
      ClientStep params s t { s.polled t.poll with phase := .awaitValid (r + 1) }
  | gaveUp (r : ℕ) (hphase : s.phase = .awaitValid r) (hnone : s.Unanswered t.poll)
      (hr : 9 ≤ r + 1) : ClientStep params s t (doSendFilenameState params (s.polled t.poll) t)
  | ignored : ClientStep params s t s

theorem doSendFilenameState_eq (params : RcopyParams) (s : ClientMain) (t : ClientTurn) :
    doSendFilenameState params s t = { s with recvBuffer := uninit t.stack 7 }.request params 0 t := by
  simp [doSendFilenameState, sendFilenameHead]

theorem clientTurn_unanswered {r : ℕ} (hphase : s.phase = .awaitValid r)
    (hnone : s.Unanswered t.poll) :
    clientTurn params s t = fileValidHead params (s.polled t.poll) (r + 1) t := by
  simp only [clientTurn, hphase, fileValidTurn]
  cases hpoll : t.poll with
  | timeout => rfl
  | recvFailed =>
    rw [hpoll] at hnone
    exact absurd hnone id
  | received source d =>
    rw [hpoll] at hnone
    obtain ⟨hvalid, hinvalid⟩ := hnone
    exact (if_neg hvalid).trans (if_neg hinvalid)

theorem sendFilenameTurn_step {n : ℕ} (hphase : s.phase = .awaitTalk n) :
    ClientStep params s t (sendFilenameTurn params s n t) := by
  simp only [sendFilenameTurn]
  cases hpoll : t.poll with
  | timeout =>
    dsimp only [sendFilenameHead]
    split_ifs with hn
    · exact .resent n hphase hn
    · exact .ended n hphase
  | recvFailed => exact .ended n hphase
  | received source d =>
    dsimp only [doFileValidState]
    split_ifs with hflag hopened
    · exact .redirected n hphase source d hpoll hflag
    · exact .refused n hphase source d hpoll
    · exact .refused n hphase source d hpoll

theorem fileValidHead_step {r : ℕ} (hphase : s.phase = .awaitValid r)
    (hnone : s.Unanswered t.poll) :
    ClientStep params s t (fileValidHead params (s.polled t.poll) (r + 1) t) := by
  rw [fileValidHead]
  split_ifs with hr
  · exact .retried r hphase hnone hr
  · exact .gaveUp r hphase hnone (not_lt.mp hr)

theorem clientTurn_step (params : RcopyParams) (s : ClientMain) (t : ClientTurn) :
    ClientStep params s t (clientTurn params s t) := by
  cases hphase : s.phase with
  | awaitTalk n =>
    simp only [clientTurn, hphase]
    exact sendFilenameTurn_step hphase
  | awaitValid r =>
    by_cases hnone : s.Unanswered t.poll
    · rw [clientTurn_unanswered hphase hnone]
      exact fileValidHead_step hphase hnone
    · simp only [clientTurn, hphase, fileValidTurn]
      cases hpoll : t.poll with
      | timeout =>
        rw [hpoll] at hnone
        exact absurd trivial hnone
      | recvFailed => exact .ignored
      | received source d =>
        rw [hpoll] at hnone
        dsimp only
        split_ifs with hvalid hinvalid
        · exact .valid r hphase source d hpoll hvalid
        · exact .invalid r hphase source d hpoll hinvalid
        · exact absurd ⟨hvalid, hinvalid⟩ hnone
  | getData =>
    simp only [clientTurn, hphase]
    exact .ignored
  | done =>
    simp only [clientTurn, hphase]
    exact .ignored

end Steps

/-! ## Where the requests go -/

/-- Every filename PDU has been sent to the port of the main server. -/
def RequestsToMain (params : RcopyParams) (s : ClientMain) : Prop :=
  ∀ m ∈ s.sent, flagOf m.pdu = 8 → m.dest.port = toU16 params.remotePort

/-- The turn uses up the last retry of `doFileValidState`. -/
def ClientMain.GivesUp (s : ClientMain) (t : ClientTurn) : Prop :=
  s.phase = .awaitValid 8 ∧ s.Unanswered t.poll

/-- When `doFileValidState` gives up, the last datagram came from the main server. -/
def GivesUpAtMain (params : RcopyParams) (s : ClientMain) (t : ClientTurn) : Prop :=
  s.GivesUp t → (s.polled t.poll).server.port = toU16 params.remotePort

structure Requesting (params : RcopyParams) (s : ClientMain) : Prop where
  requests : RequestsToMain params s
  server : ∀ n, s.phase = .awaitTalk n → s.server.port = toU16 params.remotePort
  retries : ∀ r, s.phase = .awaitValid r → r ≤ 8

section Requests

variable {params : RcopyParams} {s : ClientMain} {t : ClientTurn}

theorem requestsToMain_request {n : ℕ} :
    RequestsToMain params (s.request params n t) ↔
      RequestsToMain params s ∧ s.server.port = toU16 params.remotePort := by
  have hflag := flagOf_filenameDatagram params t.beyond
  simp only [RequestsToMain, ClientMain.request, ClientMain.sendto, List.forall_mem_append,
    List.forall_mem_singleton, hflag, true_implies]

theorem Requesting.request {n : ℕ} (h : RequestsToMain params s)
    (hserver : s.server.port = toU16 params.remotePort) :
    Requesting params (s.request params n t) := by
  refine ⟨requestsToMain_request.mpr ⟨h, hserver⟩, fun _ _ => hserver, ?_⟩
  intro r hr
  simp only [ClientMain.request] at hr
  split_ifs at hr

theorem Requesting.stopped (h : RequestsToMain params s)
    (hphase : s.phase = .getData ∨ s.phase = .done) : Requesting params s := by
  refine ⟨h, ?_, ?_⟩
  · intro n hn
    rcases hphase with hphase | hphase <;> rw [hphase] at hn <;> cases hn
  · intro r hr
    rcases hphase with hphase | hphase <;> rw [hphase] at hr <;> cases hr

theorem Requesting.waiting {r : ℕ} (h : RequestsToMain params s) (hphase : s.phase = .awaitValid r)
    (hr : r ≤ 8) : Requesting params s := by
  refine ⟨h, ?_, ?_⟩
  · intro n hn
    rw [hphase] at hn
    cases hn
  · intro r' hr'
    rw [hphase] at hr'
    cases hr'
    exact hr

theorem ClientMain.polled_sent (s : ClientMain) (poll : Poll) : (s.polled poll).sent = s.sent := by
  cases poll <;> rfl

theorem ClientStep.requesting {s' : ClientMain} (h : Requesting params s)
    (hstep : ClientStep params s t s') (hgood : GivesUpAtMain params s t) :
    Requesting params s' := by
  cases hstep with
  | ended n hphase => exact .stopped h.requests (Or.inr rfl)
  | resent n hphase hn => exact .request h.requests (h.server n hphase)
  | refused n hphase source d hpoll => exact .stopped h.requests (Or.inr rfl)
  | redirected n hphase source d hpoll hflag => exact .waiting h.requests rfl (Nat.zero_le 8)
  | valid r hphase source d hpoll hflag => exact .stopped h.requests (Or.inl rfl)
  | invalid r hphase source d hpoll hflag =>
    refine .stopped ?_ (Or.inr rfl)
    intro m hm hm8
    rcases List.mem_append.mp hm with hold | hack
    · exact h.requests m hold hm8
    · have hne : (33 : UInt8) ≠ 8 := by decide
      rw [List.mem_singleton.mp hack] at hm8
      exact absurd hm8 hne
  | retried r hphase hnone hr =>
    refine .waiting ?_ rfl (by omega)
    rw [RequestsToMain, ClientMain.polled_sent]
    exact h.requests
  | gaveUp r hphase hnone hr =>
    have hle := h.retries r hphase
    obtain rfl : r = 8 := by omega
    rw [doSendFilenameState_eq]
    refine .request ?_ (hgood ⟨hphase, hnone⟩)
    rw [RequestsToMain, ClientMain.polled_sent]
    exact h.requests
  | ignored => exact h

theorem not_requestsToMain (hbad : ¬GivesUpAtMain params s t) :
    ¬RequestsToMain params (clientTurn params s t) := by
  rw [GivesUpAtMain, Classical.not_imp] at hbad
  obtain ⟨⟨hphase, hnone⟩, hserver⟩ := hbad
  rw [clientTurn_unanswered hphase hnone, fileValidHead, if_neg (by decide),
    doSendFilenameState_eq, requestsToMain_request]
  exact fun h => hserver h.2

end Requests

/-- In a run of rcopy every filename PDU goes to the main server exactly when
`doFileValidState` never gives up on a server whose address came with a datagram of
another process. -/
theorem requestsToMain_iff (params : RcopyParams) (host : BitVec 128) (t : ClientTurn)
    (turns : List ClientTurn) :
    Runs.Always (clientTurn params) (RequestsToMain params) (enterClientMain params host t) turns ↔
      Runs.EveryStep (clientTurn params) (GivesUpAtMain params) (enterClientMain params host t)
        turns := by
  refine Runs.always_iff_everyStep (I := Requesting params) ?_ (fun _ h => h.requests) ?_ ?_
  · rw [enterClientMain, doSendFilenameState_eq]
    refine .request ?_ rfl
    intro m hm
    cases hm
  · intro s t h hgood
    exact (clientTurn_step params s t).requesting h hgood
  · intro s t _ hbad
    exact not_requestsToMain hbad

/-- A turn of rcopy in which no send and no `fopen` fails. -/
def clientTurnOf (poll : Poll) : ClientTurn where
  poll := poll
  stack := fun _ => 0
  beyond := 0
  sent := 114
  opened := true

/-- A child server says where to talk and is then silent for nine seconds. -/
theorem requestsToMain_lost :
    ¬Runs.Always (clientTurn (paramsOf digitOne)) (RequestsToMain (paramsOf digitOne))
      (enterClientMain (paramsOf digitOne) 0 (clientTurnOf .timeout))
      (clientTurnOf (.received ⟨0, 5000⟩ (sealHandshake makeTalkHereNowBeforeChecksum)) ::
        List.replicate 9 (clientTurnOf .timeout)) := by
  intro h
  have hport := h.last ⟨⟨0, 5000⟩, filenameDatagram (paramsOf digitOne) 0, 114⟩ (by decide +kernel)
    (flagOf_filenameDatagram _ _)
  exact absurd hport (by decide)

end Rcopy
