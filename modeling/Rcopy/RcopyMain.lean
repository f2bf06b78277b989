import Rcopy.ClientHandshake
import Rcopy.DatagramLengths
import Rcopy.PollSet
import Rcopy.ReceiveOutput

/-!
# rcopy and its poll set

The states of rcopy under its `main`, where every `pollCall` answers for the socket in
the poll set. The source asks in three ways whether there is something to receive: the
handshake compares the result with -1, the receive loop with 0 and the handlers with the
number of the socket. When descriptor 0 has hung up, `pollCall` returns 0 at once: the
handshake then waits in `recvfrom`, and the receive loop takes it for a timeout.
-/

namespace Rcopy

/-- `getData` is there once `GET_DATA` has been entered. -/
structure RcopyMain where
  pollSet : Except PollFault PollLib
  handshake : ClientMain
  getData : Option GetData

/-- One turn of rcopy: what `poll` finds, and what the other system calls return. The
results of `pollCall` in `ClientTurn`, `Turn` and `Attempt` are not used. -/
inductive RcopyEvent
  | handshake (cond : Conditions) (recv : Option (SockAddr × List UInt8)) (t : ClientTurn)
      (heap : ℕ → PollFd)
  | enter (opened : Bool) (raw : ReceiverBuffer)
  | receive (cond : Conditions) (attempts : ℕ → Conditions) (t : Turn)

/-- `pollCall`, unless it ends rcopy. -/
def RcopyMain.poll (s : RcopyMain) (cond : Conditions) : Option Int :=
  (s.pollSet >>= (pollCall · (some cond))).toOption

/-- The handshake calls `recvfrom` unless the result is -1. -/
def clientPoll (pollResult : Int) (recv : Option (SockAddr × List UInt8)) : Poll :=
  if pollResult = -1 then .timeout
  else
    match recv with
    | none => .recvFailed
    | some (source, d) => .received source d

/-- `doSendFilenameState` is entered again. -/
def reenters : ClientPhase → ClientPhase → Bool
  | .awaitValid _, .awaitTalk _ => true
  | _, _ => false

/-- `doSendFilenameState` puts the socket into the poll set each time. That it is taken
out before `DONE` is left out: there is no `pollCall` after that. -/
def RcopyMain.handshakeTurn (params : RcopyParams) (socketNum : Int) (s : RcopyMain)
    (pollResult : Int) (recv : Option (SockAddr × List UInt8)) (t : ClientTurn)
    (heap : ℕ → PollFd) : RcopyMain :=
  let handshake := clientTurn params s.handshake { t with poll := clientPoll pollResult recv }
  { s with
    pollSet :=
      if reenters s.handshake.phase handshake.phase then addSocket heap s.pollSet socketNum
      else s.pollSet
    handshake := handshake }

/-- Once the call in the loop has returned, those of the handlers do too. -/
def RcopyMain.polledTurn (s : RcopyMain) (pollResult : Int) (attempts : ℕ → Conditions) (t : Turn) :
    Turn :=
  { t with
    poll := pollResult
    attempts := fun i => { t.attempts i with poll := (s.poll (attempts i)).getD (-1) } }

def RcopyMain.turn (params : RcopyParams) (socketNum : Int) (s : RcopyMain) (e : RcopyEvent) :
    RcopyMain :=
  match e with
  | .handshake cond recv t heap =>
    match s.poll cond with
    | none => s
    | some pollResult => s.handshakeTurn params socketNum pollResult recv t heap
  | .enter opened raw =>
    if s.handshake.phase = .getData ∧ s.getData = none ∧ opened = true then
      { s with getData := some (enterGetData (clientOf params socketNum) raw) }
    else s
  | .receive cond attempts t =>
    match s.poll cond, s.getData with
    | some pollResult, some g =>
      { s with
        getData := some (receiveTurn (clientOf params socketNum) g
          (s.polledTurn pollResult attempts t)) }
    | _, _ => s

def enterRcopyMain (params : RcopyParams) (socketNum : Int) (host : BitVec 128) (t : ClientTurn)
    (heap : ℕ → PollFd) : RcopyMain where
  pollSet := addSocket heap (.ok setupPollSet) socketNum
  handshake := enterClientMain params host t
  getData := none

/-- `pollCall` finds descriptor 0 hung up. -/
def RcopyEvent.HungUp : RcopyEvent → Prop
  | .handshake cond _ _ _ => Rcopy.HungUp cond
  | .enter _ _ => True
  | .receive cond _ _ => Rcopy.HungUp cond

instance (e : RcopyEvent) : Decidable e.HungUp :=
  match e with
  | .handshake cond _ _ _ => inferInstanceAs (Decidable (Rcopy.HungUp cond))
  | .enter _ _ => inferInstanceAs (Decidable True)
  | .receive cond _ _ => inferInstanceAs (Decidable (Rcopy.HungUp cond))

section Polls

variable {params : RcopyParams} {n : Int} {s : RcopyMain} {cond : Conditions}

theorem PollsOnly.poll (h : PollsOnly n s.pollSet) (cond : Conditions) :
    s.poll cond = some (pollsOne n cond) := by
  rw [RcopyMain.poll, h.pollCall]
  rfl

theorem turn_pollsOnly (h : PollsOnly n s.pollSet) (h0 : 0 ≤ n) (hn : n + pollSetSize < 2147483648)
    (e : RcopyEvent) : PollsOnly n (s.turn params n e).pollSet := by
  cases e with
  | handshake cond recv t heap =>
    simp only [RcopyMain.turn, h.poll, RcopyMain.handshakeTurn]
    split_ifs
    · exact h.addSocket heap h0 hn
    · exact h
  | enter opened raw =>
    simp only [RcopyMain.turn]
    split_ifs
    · exact h
    · exact h
  | receive cond attempts t =>
    simp only [RcopyMain.turn, h.poll]
    cases s.getData with
    | none => exact h
    | some g => exact h

theorem exec_pollsOnly (host : BitVec 128) (t : ClientTurn) (heap : ℕ → PollFd)
    (events : List RcopyEvent) (h0 : 0 ≤ n) (hn : n + pollSetSize < 2147483648) :
    PollsOnly n (Runs.exec (RcopyMain.turn params n)
      (enterRcopyMain params n host t heap) events).pollSet := by
  apply Runs.exec_of_keep (I := fun s : RcopyMain => PollsOnly n s.pollSet)
  · intro s e h
    exact turn_pollsOnly h h0 hn e
  · exact pollsOnly_setup heap h0 hn

/-- What `enterGetData` begins with and the turns of the receive loop keep. -/
theorem RcopyMain.getData_turn {P : GetData → Prop} {e : RcopyEvent}
    (h : ∀ g, s.getData = some g → P g) (henter : ∀ raw, P (enterGetData (clientOf params n) raw))
    (hreceive : ∀ cond attempts t pollResult g, e = .receive cond attempts t → P g →
      P (receiveTurn (clientOf params n) g (s.polledTurn pollResult attempts t))) :
    ∀ g, (s.turn params n e).getData = some g → P g := by
  intro g hg
  cases e with
  | handshake cond recv t heap =>
    simp only [RcopyMain.turn] at hg
    cases hpoll : s.poll cond with
    | none =>
      rw [hpoll] at hg
      exact h g hg
    | some pollResult =>
      rw [hpoll] at hg
      exact h g hg
  | enter opened raw =>
    simp only [RcopyMain.turn] at hg
    split_ifs at hg
    · rw [← Option.some.inj hg]
      exact henter raw
    · exact h g hg
  | receive cond attempts t =>
    simp only [RcopyMain.turn] at hg
    cases hpoll : s.poll cond with
    | none =>
      rw [hpoll] at hg
      exact h g hg
    | some pollResult =>
      cases hdata : s.getData with
      | none =>
        rw [hpoll, hdata] at hg
        cases hg.symm.trans hdata
      | some g' =>
        rw [hpoll, hdata] at hg
        rw [← Option.some.inj hg]
        exact hreceive cond attempts t pollResult g' rfl (h g' hdata)

end Polls

/-- The ways in which the source asks whether the socket has something to receive. -/
structure TestsAgree (socketNum pollResult : Int) : Prop where
  receiveLoop : pollResult ≠ -1 ↔ 0 < pollResult
  handlers : pollResult ≠ -1 ↔ pollResult = socketNum

/-- In every state of rcopy the three tests agree exactly when descriptor 0 has not hung
up and the socket is not itself descriptor 0, with something to report. -/
theorem poll_tests_agree_iff (params : RcopyParams) (socketNum : Int) (host : BitVec 128)
    (t : ClientTurn) (heap : ℕ → PollFd) (events : List RcopyEvent) (h0 : 0 ≤ socketNum)
    (hn : socketNum + pollSetSize < 2147483648) (cond : Conditions) :
    ∃ pollResult, (Runs.exec (RcopyMain.turn params socketNum)
        (enterRcopyMain params socketNum host t heap) events).poll cond = some pollResult ∧
      (TestsAgree socketNum pollResult ↔
        ¬HungUp cond ∧ ¬(socketNum = 0 ∧ Ready cond 0)) := by
  refine ⟨_, (exec_pollsOnly host t heap events h0 hn).poll cond, ?_⟩
  rw [pollsOne]
  split_ifs with hhung hready
  · refine iff_of_false ?_ fun h => h.1 hhung
    intro h
    exact absurd (h.receiveLoop.mp (by decide)) (lt_irrefl 0)
  · by_cases hzero : socketNum = 0
    · subst hzero
      refine iff_of_false ?_ fun h => h.2 ⟨rfl, hready⟩
      intro h
      exact absurd (h.receiveLoop.mp (by decide)) (lt_irrefl 0)
    · refine iff_of_true ?_ ⟨hhung, fun h => hzero h.1⟩
      constructor <;> omega
  · refine iff_of_true ?_ ⟨hhung, ?_⟩
    · constructor <;> omega
    · intro h
      rw [h.1] at hready
      exact hready h.2

theorem poll_tests_agree_three :
    ∃ pollResult, (Runs.exec (RcopyMain.turn (paramsOf digitOne) 3)
        (enterRcopyMain (paramsOf digitOne) 3 0 (clientTurnOf .timeout) fun _ => ⟨0, 0⟩) []).poll
          (fun _ => pollIn) = some pollResult ∧
      (TestsAgree 3 pollResult ↔
        ¬HungUp (fun _ => pollIn) ∧ ¬((3 : Int) = 0 ∧ Ready (fun _ => pollIn) 0)) :=
  poll_tests_agree_iff (paramsOf digitOne) 3 0 (clientTurnOf .timeout) (fun _ => ⟨0, 0⟩) []
    (by decide) (by decide) fun _ => pollIn

/-! ## The parts of a run -/

/-- The handshake of rcopy is a run of `clientTurn`, and its receive loop is one of
`receiveTurn`. -/
structure RunsItsParts (params : RcopyParams) (socketNum : Int) (host : BitVec 128) (t : ClientTurn)
    (s : RcopyMain) : Prop where
  handshake : ∃ turns, s.handshake =
    Runs.exec (clientTurn params) (enterClientMain params host t) turns
  receives : ∀ g, s.getData = some g → s.handshake.phase = .getData ∧
    ∃ raw turns, g = Runs.exec (receiveTurn (clientOf params socketNum))
      (enterGetData (clientOf params socketNum) raw) turns

section Parts

variable {params : RcopyParams} {n : Int} {host : BitVec 128} {t : ClientTurn} {s : RcopyMain}

theorem clientTurn_getData {turn : ClientTurn} {c : ClientMain} (h : c.phase = .getData) :
    clientTurn params c turn = c := by
  simp only [clientTurn, h]

theorem RunsItsParts.turn (h : RunsItsParts params n host t s) (e : RcopyEvent) :
    RunsItsParts params n host t (s.turn params n e) := by
  cases e with
  | handshake cond recv t' heap =>
    simp only [RcopyMain.turn]
    cases hpoll : s.poll cond with
    | none => exact h
    | some pollResult =>
      obtain ⟨turns, hturns⟩ := h.handshake
      constructor
      · refine ⟨turns ++ [{ t' with poll := clientPoll pollResult recv }], ?_⟩
        rw [Runs.exec_concat, ← hturns]
        rfl
      · intro g hg
        obtain ⟨hphase, hruns⟩ := h.receives g hg
        refine ⟨?_, hruns⟩
        simp only [RcopyMain.handshakeTurn, clientTurn_getData hphase, hphase]
  | enter opened raw =>
    simp only [RcopyMain.turn]
    split_ifs with henter
    · refine ⟨h.handshake, ?_⟩
      intro g hg
      obtain rfl := Option.some.inj hg
      exact ⟨henter.1, raw, [], rfl⟩
    · exact h
  | receive cond attempts t' =>
    simp only [RcopyMain.turn]
    cases hpoll : s.poll cond with
    | none => exact h
    | some pollResult =>
      cases hdata : s.getData with
      | none => exact h
      | some g =>
        obtain ⟨hphase, raw, turns, hturns⟩ := h.receives g hdata
        refine ⟨h.handshake, ?_⟩
        intro g' hg'
        obtain rfl := Option.some.inj hg'
        refine ⟨hphase, raw, turns ++ [s.polledTurn pollResult attempts t'], ?_⟩
        rw [Runs.exec_concat, ← hturns]

end Parts

/-- What rcopy has appended to the destination file, unless that is undetermined. -/
def RcopyMain.output (s : RcopyMain) : Option (List UInt8) :=
  match s.getData with
  | none => some []
  | some g => fileBytes g.receiver.file

/-- A child accepts the request and sends a packet of one byte, each with the conditions
that `poll` finds. -/
def oneByteEvents (cond : Conditions) : List RcopyEvent :=
  [.handshake cond (some (⟨0, 5000⟩, sealHandshake makeTalkHereNowBeforeChecksum))
      (clientTurnOf .timeout) fun _ => ⟨0, 0⟩,
    .handshake cond (some (⟨0, 5000⟩, sealHandshake makeVALIDFilenameACKBeforeChecksum))
      (clientTurnOf .timeout) fun _ => ⟨0, 0⟩,
    .enter true freshBuffer,
    .receive cond (fun _ => cond)
      ⟨3, fun _ => 0, some [0, 0, 0, 0, 0, 0, 16, 1], fun _ => ⟨11, 3, fun _ => 0, none⟩⟩]

def ClientMain.requests (s : ClientMain) : ℕ := s.sent.countP fun m => flagOf m.pdu = 8

/-- Every filename PDU but the first follows ten datagrams that have been received. -/
structure RequestsAnswered (s : ClientMain) : Prop where
  bound : 10 * s.requests ≤ s.received.length + 10
  retries : ∀ r, s.phase = .awaitValid r →
    r ≤ 8 ∧ 10 * s.requests + r + 1 ≤ s.received.length + 10

section Requests

variable {params : RcopyParams} {s : ClientMain} {t : ClientTurn} {source : SockAddr}
  {d : List UInt8}

theorem requests_request (s : ClientMain) (k : ℕ) :
    (s.request params k t).requests = s.requests + 1 := by
  simp [ClientMain.requests, ClientMain.request, ClientMain.sendto, flagOf_filenameDatagram]

theorem requests_ack (s : ClientMain) (result : Int) :
    (s.sendto (sealHandshake (makeFilenameACKBeforeChecksum 33)) result).requests = s.requests := by
  have hflag : flagOf (sealHandshake (makeFilenameACKBeforeChecksum 33)) = 33 := rfl
  simp [ClientMain.requests, ClientMain.sendto, hflag]

theorem request_answered (k : ℕ) (h : 10 * s.requests ≤ s.received.length) :
    RequestsAnswered (s.request params k t) := by
  constructor
  · rw [requests_request]
    change 10 * (s.requests + 1) ≤ s.received.length + 10
    omega
  · intro r hr
    simp only [ClientMain.request] at hr
    split_ifs at hr

theorem RequestsAnswered.stop (h : RequestsAnswered s) {phase : ClientPhase}
    (hphase : ∀ r, phase ≠ .awaitValid r) : RequestsAnswered { s with phase := phase } where
  bound := h.bound
  retries := fun r hr => absurd hr (hphase r)

theorem RequestsAnswered.recvfrom (h : RequestsAnswered s) (source : SockAddr) (d : List UInt8)
    (phase : ClientPhase) (hphase : ∀ r, phase ≠ .awaitValid r) :
    RequestsAnswered { s.recvfrom source d with phase := phase } where
  bound := by
    have hbound := h.bound
    simp only [ClientMain.requests, ClientMain.recvfrom, List.length_append,
      List.length_singleton] at hbound ⊢
    omega
  retries := fun r hr => absurd hr (hphase r)

theorem RequestsAnswered.sendFilename (h : RequestsAnswered s) (k : ℕ) (hpoll : t.poll ≠ .timeout) :
    RequestsAnswered (sendFilenameTurn params s k t) := by
  simp only [sendFilenameTurn]
  cases hp : t.poll with
  | timeout => exact absurd hp hpoll
  | recvFailed => exact h.stop (by simp)
  | received source d =>
    dsimp only [doFileValidState]
    split_ifs
    · have hbound := h.bound
      constructor
      · simp only [ClientMain.requests, ClientMain.recvfrom, List.length_append,
          List.length_singleton] at hbound ⊢
        omega
      · intro r hr
        obtain rfl : 0 = r := by simpa using hr
        simp only [ClientMain.requests, ClientMain.recvfrom, List.length_append,
          List.length_singleton] at hbound ⊢
        omega
    · exact h.recvfrom source d _ (by simp)
    · exact h.recvfrom source d _ (by simp)

/-- The last retry is used up by the tenth datagram since the request. -/
theorem RequestsAnswered.fileValidHead {r : ℕ} (h : RequestsAnswered s)
    (hphase : s.phase = .awaitValid r) (source : SockAddr) (d : List UInt8) :
    RequestsAnswered (fileValidHead params (s.recvfrom source d) (r + 1) t) := by
  obtain ⟨hle, hretries⟩ := h.retries r hphase
  have hbound := h.bound
  simp only [Rcopy.fileValidHead]
  split_ifs with hmore
  · constructor
    · simp only [ClientMain.requests, ClientMain.recvfrom, List.length_append,
        List.length_singleton] at hbound ⊢
      omega
    · intro r' hr'
      obtain rfl : r + 1 = r' := by simpa using hr'
      simp only [ClientMain.requests, ClientMain.recvfrom, List.length_append,
        List.length_singleton] at hretries ⊢
      omega
  · rw [doSendFilenameState_eq]
    apply request_answered
    simp only [ClientMain.requests, ClientMain.recvfrom, List.length_append,
      List.length_singleton] at hretries ⊢
    omega

theorem RequestsAnswered.fileValid {r : ℕ} (h : RequestsAnswered s)
    (hphase : s.phase = .awaitValid r) (hpoll : t.poll ≠ .timeout) :
    RequestsAnswered (fileValidTurn params s r t) := by
  simp only [fileValidTurn]
  cases hp : t.poll with
  | timeout => exact absurd hp hpoll
  | recvFailed => exact h
  | received source d =>
    dsimp only
    split_ifs
    · exact h.recvfrom source d _ (by simp)
    · have hreceived := h.recvfrom source d .done (by simp)
      constructor
      · have hbound := hreceived.bound
        have hack := requests_ack (s.recvfrom source d) t.sent
        simp only [ClientMain.requests, ClientMain.sendto] at hbound hack ⊢
        rw [hack]
        exact hbound
      · intro r' hr'
        simp at hr'
    · exact h.fileValidHead hphase source d

/-- Without timeouts rcopy sends a request only after ten datagrams. -/
theorem RequestsAnswered.turn (h : RequestsAnswered s) (hpoll : t.poll ≠ .timeout) :
    RequestsAnswered (clientTurn params s t) := by
  cases hphase : s.phase with
  | awaitTalk k =>
    simp only [clientTurn, hphase]
    exact h.sendFilename k hpoll
  | awaitValid r =>
    simp only [clientTurn, hphase]
    exact h.fileValid hphase hpoll
  | getData =>
    simp only [clientTurn, hphase]
    exact h
  | done =>
    simp only [clientTurn, hphase]
    exact h

end Requests

/-- rcopy with a hang-up on descriptor 0: it does not repeat itself, and receives nothing. -/
structure Deaf (params : RcopyParams) (n : Int) (s : RcopyMain) : Prop where
  polls : PollsOnly n s.pollSet
  requests : RequestsAnswered s.handshake
  receives : ∀ g, s.getData = some g → ∃ raw,
    g.receiver = (enterGetData (clientOf params n) raw).receiver

section Deaf

variable {params : RcopyParams} {n : Int} {s : RcopyMain}

theorem clientPoll_ne_timeout {r : Int} (hr : r ≠ -1) (recv : Option (SockAddr × List UInt8)) :
    clientPoll r recv ≠ .timeout := by
  simp only [clientPoll, if_neg hr]
  cases recv <;> simp

theorem receiveTurn_of_not_pos (c : Client) (g : GetData) (t : Turn) (hpoll : ¬0 < t.poll) :
    (receiveTurn c g t).receiver = g.receiver := by
  simp only [receiveTurn]
  cases g.exit with
  | some _ => rfl
  | none =>
    dsimp only
    rw [if_neg hpoll]
    split_ifs <;> rfl

theorem Deaf.turn (h : Deaf params n s) (h0 : 0 ≤ n) (hn : n + pollSetSize < 2147483648)
    {e : RcopyEvent} (he : e.HungUp) : Deaf params n (s.turn params n e) := by
  refine ⟨turn_pollsOnly h.polls h0 hn e, ?_, ?_⟩
  · cases e with
    | handshake cond recv t heap =>
      have hzero : (0 : Int) ≠ -1 := by decide
      simp only [RcopyMain.turn, h.polls.poll, pollsOne, if_pos (show Rcopy.HungUp cond from he)]
      exact h.requests.turn (clientPoll_ne_timeout hzero recv)
    | enter opened raw =>
      simp only [RcopyMain.turn]
      split_ifs
      · exact h.requests
      · exact h.requests
    | receive cond attempts t =>
      simp only [RcopyMain.turn, h.polls.poll]
      cases s.getData with
      | none => exact h.requests
      | some g => exact h.requests
  · cases e with
    | handshake cond recv t heap =>
      simp only [RcopyMain.turn, h.polls.poll]
      exact h.receives
    | enter opened raw =>
      simp only [RcopyMain.turn]
      split_ifs
      · intro g hg
        obtain rfl := Option.some.inj hg
        exact ⟨raw, rfl⟩
      · exact h.receives
    | receive cond attempts t =>
      simp only [RcopyMain.turn, h.polls.poll]
      cases hdata : s.getData with
      | none =>
        intro g hg
        cases hdata.symm.trans hg
      | some g =>
        intro g' hg'
        obtain rfl := Option.some.inj hg'
        obtain ⟨raw, hraw⟩ := h.receives g hdata
        refine ⟨raw, ?_⟩
        rw [receiveTurn_of_not_pos, hraw]
        simp only [RcopyMain.polledTurn, pollsOne, if_pos (show Rcopy.HungUp cond from he)]
        exact lt_irrefl 0

end Deaf

/-- While descriptor 0 is hung up, as it is when rcopy reads from a pipe whose writer has
ended, rcopy writes and acknowledges nothing, whatever the server sends, and sends one
filename PDU more for every ten datagrams it receives, so never after a loss. -/
theorem hung_up_copies_nothing (params : RcopyParams) (socketNum : Int) (host : BitVec 128)
    (t : ClientTurn) (heap : ℕ → PollFd) (events : List RcopyEvent) (h0 : 0 ≤ socketNum)
    (hn : socketNum + pollSetSize < 2147483648) (hhung : ∀ e ∈ events, e.HungUp) :
    (∀ g, (Runs.exec (RcopyMain.turn params socketNum)
        (enterRcopyMain params socketNum host t heap) events).getData = some g →
      g.receiver.file = [] ∧ g.receiver.sent = []) ∧
    10 * (Runs.exec (RcopyMain.turn params socketNum)
        (enterRcopyMain params socketNum host t heap) events).handshake.requests ≤
      (Runs.exec (RcopyMain.turn params socketNum)
        (enterRcopyMain params socketNum host t heap) events).handshake.received.length + 10 := by
  have hdeaf : Deaf params socketNum (Runs.exec (RcopyMain.turn params socketNum)
      (enterRcopyMain params socketNum host t heap) events) := by
    apply (Runs.always_of_keep (I := Deaf params socketNum)
      (C := fun _ (e : RcopyEvent) => e.HungUp) ?_ ?_ ?_).last
    · intro s e h he
      exact h.turn h0 hn he
    · refine ⟨pollsOnly_setup heap h0 hn, ?_, ?_⟩
      · simp only [enterRcopyMain, enterClientMain, doSendFilenameState_eq]
        exact request_answered 0 (Nat.le_refl 0)
      · intro g hg
        cases hg
    · exact Runs.everyStep_of_forall hhung fun _ _ he => he
  refine ⟨?_, hdeaf.requests.bound⟩
  intro g hg
  obtain ⟨raw, hraw⟩ := hdeaf.receives g hg
  rw [hraw]
  exact ⟨rfl, rfl⟩

/-- A pipe whose writer has ended under descriptor 0, and a datagram on every socket. -/
def pipeClosed : Conditions := fun fd => if fd = 0 then 0x10 else pollIn

theorem hung_up_copies_nothing_pipe :
    (∀ g, (Runs.exec (RcopyMain.turn (paramsOf digitOne) 3)
        (enterRcopyMain (paramsOf digitOne) 3 0 (clientTurnOf .timeout) fun _ => ⟨0, 0⟩)
        (oneByteEvents pipeClosed)).getData = some g → g.receiver.file = [] ∧ g.receiver.sent = []) ∧
    10 * (Runs.exec (RcopyMain.turn (paramsOf digitOne) 3)
        (enterRcopyMain (paramsOf digitOne) 3 0 (clientTurnOf .timeout) fun _ => ⟨0, 0⟩)
        (oneByteEvents pipeClosed)).handshake.requests ≤
      (Runs.exec (RcopyMain.turn (paramsOf digitOne) 3)
        (enterRcopyMain (paramsOf digitOne) 3 0 (clientTurnOf .timeout) fun _ => ⟨0, 0⟩)
        (oneByteEvents pipeClosed)).handshake.received.length + 10 :=
  hung_up_copies_nothing (paramsOf digitOne) 3 0 (clientTurnOf .timeout) (fun _ => ⟨0, 0⟩)
    (oneByteEvents pipeClosed) (by decide) (by decide) (by decide)

end Rcopy
