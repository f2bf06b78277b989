import Rcopy.SystemCopy
import Rcopy.WireSends

/-!
# A transfer in the system

rcopy and one child of the main server get from the command line to the two loops of a
transfer, and from there on every run of the transfer is part of a run of the system. So
what a transfer can copy the system can, and what the system can copy whole is known.
-/

namespace Rcopy

open Bytes

/-- No `sendtoErr` of rcopy fails in its receive loop. -/
def SystemEvent.Sends : SystemEvent → Prop
  | .rcopy (.receive _ _ t) => ∀ i, 0 ≤ (t.attempts i).sent
  | _ => True

/-! ## What the receive loop asks of `pollCall` -/

section Polls

variable {c : Client} {a a' : ℕ → Attempt}

/-- What a resend loop sees of its attempts. -/
def SameAttempts (c : Client) (a a' : ℕ → Attempt) : Prop :=
  ∀ i, (a i).sent = (a' i).sent ∧ (a i).response c = (a' i).response c

theorem SameAttempts.brings (h : SameAttempts c a a') (i : ℕ) (expected : UInt32) :
    (a i).brings c expected = (a' i).brings c expected := by
  rw [Attempt.brings, Attempt.brings, (h i).2]

theorem resendRR_same (h : SameAttempts c a a') (pdu : List UInt8) (n i : ℕ) (r : Receiver) :
    resendRR c pdu a n i r = resendRR c pdu a' n i r := by
  induction n generalizing i r with
  | zero => rfl
  | succ n ih => simp only [resendRR, (h i).1, h.brings, ih]

theorem resendSREJ_same (h : SameAttempts c a a') (seqExpected : UInt32) (n i : ℕ) (r : Receiver) :
    resendSREJ c seqExpected a n i r = resendSREJ c seqExpected a' n i r := by
  induction n generalizing i r with
  | zero => rfl
  | succ n ih => simp only [resendSREJ, (h i).1, h.brings, ih]

theorem handleDataPacket_same (h : SameAttempts c a a') (st : ReceiveState) (r : Receiver)
    (buffer : List UInt8) : handleDataPacket c st r buffer a = handleDataPacket c st r buffer a' := by
  cases st <;>
    simp only [handleDataPacket, doInOrderState, doBufferState, (h 0).1, resendRR_same h,
      resendSREJ_same h]

theorem receiveTurn_same {t t' : Turn} (g : GetData) (hpoll : 0 < t.poll ↔ 0 < t'.poll)
    (hheap : t.heap = t'.heap) (hrecv : t.recv = t'.recv)
    (h : SameAttempts c t.attempts t'.attempts) : receiveTurn c g t = receiveTurn c g t' := by
  obtain ⟨poll, heap, recv, attempts⟩ := t
  obtain ⟨poll', heap', recv', attempts'⟩ := t'
  dsimp only at hpoll hheap hrecv h
  subst hheap hrecv
  simp only [receiveTurn, Turn.received, handleDataPacket_same h]
  cases g.exit with
  | some e => rfl
  | none =>
    by_cases hready : 0 < poll'
    · rw [if_pos hready, if_pos (hpoll.mpr hready)]
      rfl
    · rw [if_neg hready, if_neg (mt hpoll.mp hready)]

/-- A datagram waits on socket `n`, or nothing does. -/
def onlyReady (n : Int) (ready : Bool) : Conditions :=
  fun fd => if fd = n ∧ ready = true then pollIn else 0

theorem pollsOne_onlyReady {n : Int} (hn : 0 < n) (ready : Bool) :
    pollsOne n (onlyReady n ready) = if ready = true then n else -1 := by
  have hquiet : ¬HungUp (onlyReady n ready) := by
    have hne : ¬((0 : Int) = n ∧ ready = true) := fun h => absurd h.1 hn.ne
    simp [HungUp, onlyReady, hne]
  rw [pollsOne, if_neg hquiet]
  cases ready with
  | true =>
    have hready : Ready (onlyReady n true) n := by
      simp only [Ready, onlyReady, and_self, if_true]
      decide
    rw [if_pos hready, if_pos rfl]
  | false =>
    have hready : ¬Ready (onlyReady n false) n := by simp [Ready, onlyReady]
    rw [if_neg hready, if_neg Bool.false_ne_true]

end Polls

/-! ## The two loops in the system -/

theorem SendStep.delivered_grows {p : Session} {s s' : SendData} {t : SendTurn}
    (h : SendStep p s t s') : s.delivered <+: s'.delivered := by
  have happend : ∀ (tr : Transmission) (s' : SendData), s'.sent = s.sent ++ [tr] →
      s.delivered <+: s'.delivered := by
    intro tr s' hs'
    rw [SendData.delivered, SendData.delivered, hs', List.filter_append, List.filterMap_append]
    exact List.prefix_append _ _
  cases h with
  | moved _ _ => exact List.prefix_rfl
  | eof _ => exact List.prefix_rfl
  | fresh _ _ _ _ _ _ => exact happend _ _ rfl
  | crashed _ _ => exact List.prefix_rfl
  | slid _ _ _ _ => exact List.prefix_rfl
  | resent _ _ _ _ _ _ _ => exact happend _ _ rfl
  | ignored => exact List.prefix_rfl

/-- rcopy is in its receive loop, and process 1, with its socket at `port`, sends it the
file or has come to its end. -/
structure Carries (c : SystemSetup) (file : List UInt8) (port : SockAddr) (w : Transfer)
    (s : System) : Prop where
  sockets : s.sockets = [⟨c.mainAddr, none, 0⟩, ⟨port, some c.clientAddr, 0⟩]
  process : ∃ root p, s.server.processes = [root, p] ∧
    (w.sender.Running → p.location = .doSendDataState (serverSession c.params 0 file) w.sender)
  sends : SendsPackets (serverSession c.params 0 file)
    (toI32 (serverSession c.params 0 file).windowSize) w.sender
  served : ∀ d ∈ w.sender.delivered, (port, c.clientAddr, d) ∈ s.served
  polls : PollsOnly c.socketNum s.rcopy.pollSet
  getData : s.rcopy.getData = some w.receiver

/-- The events of a run that carries a transfer. With `q` no send of rcopy fails. -/
def SystemEvent.Carries (q : Prop) (e : SystemEvent) : Prop := e.TakesData ∧ (q → e.Sends)

section Transfer

variable {c : SystemSetup} {file : List UInt8} {port : SockAddr} {w : Transfer} {s : System}
  {q : Prop}

/-- The main server has forked the child. -/
theorem Carries.noneForked (h : Carries c file port w s) : s.NoneForked c := by
  intro k hk hforked
  rw [h.sockets] at hk hforked
  have hparent : k.parent = 0 := by
    rcases List.mem_pair.mp hk with rfl | rfl
    · rfl
    · rfl
  rw [hparent] at hforked
  cases hforked

theorem Carries.output (h : Carries c file port w s) :
    s.rcopy.output = fileBytes w.receiver.receiver.file := by
  rw [RcopyMain.output, h.getData]

theorem Carries.fromServer (h : Carries c file port w s) {pick : Option ℕ} {d : List UInt8}
    (hd : fromWire w.sender.delivered pick = some d) :
    (port, c.clientAddr, d) ∈ s.network c ∧ flagOf d = 16 := by
  have hmem := mem_of_fromWire hd
  exact ⟨List.mem_append_left _ (h.served d hmem), (h.sends.isPacket hmem).flag⟩

/-- A turn of a process that forks nothing. -/
theorem System.step_server {i : ℕ} {p : Process} {k : Socket} {t : ProcessTurn}
    (hp : s.server.processes[i]? = some p) (hk : s.sockets[i]? = some k)
    (ht : t.FromHosts (s.network c) c.clientAddr k.addr)
    (hforked : (p.turn (t.onDisk c.disk p)).forked = []) (addr : SockAddr) :
    s.step c (.server i t addr) =
      { s with
        server := s.server.step (i, t.onDisk c.disk p)
        served := s.served ++ p.sends k (t.onDisk c.disk p) } := by
  simp only [System.step, hp, hk]
  rw [if_pos ⟨ht, Or.inl hforked⟩, System.serve, hforked, List.map_nil, List.append_nil]

theorem step_pair {tree : ProcessTree} {root p : Process} {t : ProcessTurn}
    (hprocesses : tree.processes = [root, p]) (hforked : (p.turn t).forked = []) :
    (tree.step (1, t)).processes = [root, (p.turn t).process] := by
  have hp : tree.processes[1]? = some p := by
    rw [hprocesses]
    rfl
  rw [step_processes hp, hprocesses, hforked, List.append_nil]
  rfl

theorem Process.sendTurn_location (p : Process) {session : Session} {sender : SendData} {t : SendTurn}
    (hrun : (Rcopy.sendTurn session sender t).Running) :
    (p.sendTurn session sender t).location =
      .doSendDataState session (Rcopy.sendTurn session sender t) := by
  simp only [Process.sendTurn]
  cases hphase : (Rcopy.sendTurn session sender t).phase with
  | returned state => simp [SendData.Running, hphase] at hrun
  | crashed fault => simp [SendData.Running, hphase] at hrun
  | _ => rfl

theorem Carries.server (h : Carries c file port w s) (t : SendTurn) (pick : Option ℕ) :
    ∃ es, (∀ e ∈ es, SystemEvent.Carries q e) ∧
      Carries c file port
        (wireTurn (serverSession c.params 0 file) (clientOf c.params c.socketNum) w
          (.server t pick))
        (Runs.exec (System.step c) s es) := by
  obtain ⟨root, p, hprocesses, hlocation⟩ := h.process
  by_cases hrun : w.sender.Running
  · have hlocation := hlocation hrun
    have hsending := h.sends.sending hrun
    have hp : s.server.processes[1]? = some p := by
      rw [hprocesses]
      rfl
    have hk : s.sockets[1]? = some ⟨port, some c.clientAddr, 0⟩ := by
      rw [h.sockets]
      rfl
    have hturn : p.turn (.send (w.serverReceives t pick)) =
        (p.sendTurn (serverSession c.params 0 file) w.sender (w.serverReceives t pick)).stay := by
      simp only [Process.turn, hlocation]
    have hforked : (p.turn (.send (w.serverReceives t pick))).forked = [] := by
      rw [hturn]
      rfl
    obtain ⟨new, hnew⟩ := (sendTurn_step (t := w.serverReceives t pick) hsending
      hrun).delivered_grows
    refine ⟨[.server 1 (.send (w.serverReceives t pick)) port], ?_, ?_⟩
    · intro e he
      rw [List.mem_singleton.mp he]
      exact ⟨trivial, fun _ => trivial⟩
    rw [Runs.exec_cons, Runs.exec_nil, System.step_server (t := .send (w.serverReceives t pick)) hp hk
      trivial hforked]
    constructor
    · exact h.sockets
    · refine ⟨root, _, step_pair hprocesses hforked, ?_⟩
      intro hrun'
      simp only [ProcessTurn.onDisk, hturn]
      exact p.sendTurn_location hrun'
    · exact h.sends.turn _
    · intro d hd
      have hsends : p.sends ⟨port, some c.clientAddr, 0⟩ (.send (w.serverReceives t pick)) =
          new.map fun d => (port, c.clientAddr, d) := by
        simp only [Process.sends, hlocation]
        rw [← hnew, List.drop_left]
      simp only [wireTurn, ← hnew] at hd
      simp only [ProcessTurn.onDisk, hsends]
      rcases List.mem_append.mp hd with hold | hlast
      · exact List.mem_append_left _ (h.served d hold)
      · exact List.mem_append_right _ (List.mem_map_of_mem hlast)
    · exact h.polls
    · exact h.getData
  · -- a child that has come to its end does nothing
    refine ⟨[], fun _ he => absurd he List.not_mem_nil, ?_⟩
    have hsame := sendTurn_of_not_running (p := serverSession c.params 0 file)
      (t := w.serverReceives t pick) hrun
    simp only [wireTurn, hsame]
    exact h

/-- The receive loop under a poll set that holds the socket. -/
theorem receiveTurn_polled {s : RcopyMain} (h : PollsOnly c.socketNum s.pollSet)
    (hn : 0 < c.socketNum) (g : GetData) (t : Turn) :
    receiveTurn (clientOf c.params c.socketNum) g
        (s.polledTurn (if decide (0 < t.poll) = true then c.socketNum else -1)
          (fun i => onlyReady c.socketNum (decide ((t.attempts i).poll = c.socketNum))) t) =
      receiveTurn (clientOf c.params c.socketNum) g t := by
  have hsocket : (clientOf c.params c.socketNum).socketNum = c.socketNum := rfl
  apply receiveTurn_same
  · simp only [RcopyMain.polledTurn, decide_eq_true_eq]
    split_ifs with hpoll
    · exact iff_of_true hn hpoll
    · exact iff_of_false (by decide) hpoll
  · rfl
  · rfl
  · intro i
    refine ⟨rfl, ?_⟩
    simp only [RcopyMain.polledTurn, h.poll, pollsOne_onlyReady hn, Option.getD_some,
      decide_eq_true_eq, Attempt.response, hsocket]
    by_cases hready : (t.attempts i).poll = c.socketNum
    · rw [if_pos hready, if_pos hready, if_pos rfl]
    · have hne : (-1 : Int) ≠ c.socketNum := by omega
      rw [if_neg hready, if_neg hready, if_neg hne]

theorem Carries.receive (h : Carries c file port w s) (hn : 0 < c.socketNum) {t : Turn}
    {pick : Option ℕ} {picks : ℕ → Option ℕ} (hsent : q → (WireTurn.rcopy t pick picks).Sends) :
    ∃ es, (∀ e ∈ es, SystemEvent.Carries q e) ∧
      Carries c file port
        (wireTurn (serverSession c.params 0 file) (clientOf c.params c.socketNum) w
          (.rcopy t pick picks))
        (Runs.exec (System.step c) s es) := by
  let event : RcopyEvent := .receive (onlyReady c.socketNum (decide (0 < t.poll)))
    (fun i => onlyReady c.socketNum (decide ((t.attempts i).poll = c.socketNum)))
    (w.rcopyReceives t pick picks)
  have hbrings : event.Brings (s.network c) c.clientAddr := by
    intro d hd
    exact ⟨_, (h.fromServer hd).1, rfl⟩
  have hturn : s.rcopy.turn c.params c.socketNum event =
      { s.rcopy with
        getData := some (receiveTurn (clientOf c.params c.socketNum) w.receiver
          (w.rcopyReceives t pick picks)) } := by
    have hpolled := receiveTurn_polled h.polls hn w.receiver (w.rcopyReceives t pick picks)
    simp only [event, RcopyMain.turn, h.polls.poll, h.getData, pollsOne_onlyReady hn]
    rw [← hpolled]
    rfl
  refine ⟨[.rcopy event], ?_, ?_⟩
  · intro e he
    rw [List.mem_singleton.mp he]
    exact ⟨fun d hd => (h.fromServer hd).2, hsent⟩
  · rw [Runs.exec_cons, Runs.exec_nil, System.step, if_pos hbrings, hturn]
    exact ⟨h.sockets, h.process, h.sends, h.served, h.polls, rfl⟩

/-- What a transfer does the system does. -/
theorem Carries.run (h : Carries c file port w s) (hn : 0 < c.socketNum) {turns : List WireTurn}
    (hsent : ∀ t ∈ turns, q → t.Sends) :
    ∃ es, (∀ e ∈ es, SystemEvent.Carries q e) ∧
      Carries c file port
        (Runs.exec (wireTurn (serverSession c.params 0 file) (clientOf c.params c.socketNum)) w
          turns)
        (Runs.exec (System.step c) s es) := by
  apply Runs.exists_exec_of_simulates_events (E := fun t : WireTurn => q → t.Sends)
    (R := Carries c file port) _ hsent h
  intro w s t ht hR
  cases t with
  | server t pick => exact hR.server t pick
  | rcopy t pick picks => exact hR.receive hn ht

end Transfer

/-! ## From the command line to the loops -/

/-- Process 1 answers rcopy, which has come as far as `r`. -/
structure Connecting (c : SystemSetup) (port : SockAddr) (child : Child) (r : RcopyMain)
    (s : System) : Prop where
  sockets : s.sockets = [⟨c.mainAddr, none, 0⟩, ⟨port, some c.clientAddr, 0⟩]
  process : ∃ root p, s.server.processes = [root, p] ∧ p.dataSequenceNumber = 0 ∧
    p.location = .startFSM (requestOf (filenameDatagram c.params 0)) child
  served : ∀ m ∈ child.sent, 0 ≤ m.result → (port, m.dest, m.pdu) ∈ s.served
  rcopy : s.rcopy = r

/-- The handshake of rcopy has come to a phase. -/
structure Reached (c : SystemSetup) (phase : ClientPhase) (r : RcopyMain) : Prop where
  phase : r.handshake.phase = phase
  getData : r.getData = none
  polls : PollsOnly c.socketNum r.pollSet

/-- The socket of rcopy is neither standard input nor beyond the poll set. -/
structure Polls (c : SystemSetup) : Prop where
  pos : 0 < c.socketNum
  lt : c.socketNum + pollSetSize < 2147483648

section Connect

variable {c : SystemSetup} {file d : List UInt8} {port : SockAddr} {child : Child} {r : RcopyMain}
  {s : System} {k : ℕ} {t : ClientTurn}

/-- rcopy receives a handshake PDU. -/
def answerEvent (c : SystemSetup) (port : SockAddr) (d : List UInt8) (t : ClientTurn) : RcopyEvent :=
  .handshake (onlyReady c.socketNum true) (some (port, d)) t fun _ => ⟨0, 0⟩

theorem Reached.answered {phase phase' : ClientPhase} (h : Reached c phase r) (hc : Polls c)
    (hphase : (clientTurn c.params r.handshake { t with poll := .received port d }).phase = phase') :
    Reached c phase' (r.turn c.params c.socketNum (answerEvent c port d t)) := by
  have hpolls : PollsOnly c.socketNum
      (r.turn c.params c.socketNum (answerEvent c port d t)).pollSet :=
    turn_pollsOnly h.polls hc.pos.le hc.lt _
  have hne : ¬c.socketNum = -1 := by
    have hpos := hc.pos
    omega
  refine ⟨?_, ?_, hpolls⟩
  · simp only [answerEvent, RcopyMain.turn, h.polls.poll, pollsOne_onlyReady hc.pos,
      RcopyMain.handshakeTurn, clientPoll, if_pos, if_neg hne]
    exact hphase
  · simp only [answerEvent, RcopyMain.turn, h.polls.poll, RcopyMain.handshakeTurn]
    exact h.getData

theorem Reached.talk (h : Reached c (.awaitTalk k) r) (hc : Polls c) (hopened : t.opened = true)
    (hd : 7 ≤ d.length) (hflag : flagOf d = 33) (port : SockAddr) :
    Reached c (.awaitValid 0) (r.turn c.params c.socketNum (answerEvent c port d t)) := by
  apply h.answered hc
  simp only [clientTurn, h.phase, sendFilenameTurn, ClientMain.recvfrom, flagOf_recvInto hd, hflag,
    if_true, doFileValidState, hopened]

theorem Reached.valid (h : Reached c (.awaitValid k) r) (hc : Polls c) (hd : 7 ≤ d.length)
    (hflag : flagOf d = 9) (port : SockAddr) :
    Reached c .getData (r.turn c.params c.socketNum (answerEvent c port d t)) := by
  apply h.answered hc
  simp only [clientTurn, h.phase, fileValidTurn, ClientMain.recvfrom, flagOf_recvInto hd, hflag,
    if_true]

theorem Connecting.answered (h : Connecting c port child r s)
    (hd : ∃ m ∈ child.sent, m.Carries c.clientAddr d) (t : ClientTurn) :
    Connecting c port child (r.turn c.params c.socketNum (answerEvent c port d t))
      (s.step c (.rcopy (answerEvent c port d t))) := by
  obtain ⟨m, hm, hresult, hdest, hpdu⟩ := hd
  have hbrings : (answerEvent c port d t).Brings (s.network c) c.clientAddr := by
    rw [← hpdu, ← hdest]
    exact List.mem_append_left _ (h.served m hm hresult)
  rw [System.step, if_pos hbrings]
  exact ⟨h.sockets, h.process, h.served, by rw [h.rcopy]⟩

theorem Connecting.child_turn (h : Connecting c port child r s) (hphase : child.phase ≠ .sendData)
    (hdone : (childTurn (fun name => (c.disk name).isSome) child (childTurnOf .timeout)).phase ≠
      .done) :
    Connecting c port (childTurn (fun name => (c.disk name).isSome) child (childTurnOf .timeout)) r
      (s.step c (.server 1 (childReply 7) port)) := by
  obtain ⟨root, p, hprocesses, hfresh, hlocation⟩ := h.process
  have hp : s.server.processes[1]? = some p := by
    rw [hprocesses]
    rfl
  have hk : s.sockets[1]? = some ⟨port, some c.clientAddr, 0⟩ := by
    rw [h.sockets]
    rfl
  have hturn : p.turn ((childReply 7).onDisk c.disk p) =
      (p.childTurn (requestOf (filenameDatagram c.params 0)) child
        (fun name => (c.disk name).isSome) (childTurnOf .timeout)).stay := by
    simp only [childReply, ProcessTurn.onDisk, Process.turn, hlocation, if_neg hphase]
    rfl
  have hforked : (p.turn ((childReply 7).onDisk c.disk p)).forked = [] := by
    rw [hturn]
    rfl
  rw [System.step_server (t := childReply 7) hp hk trivial hforked]
  constructor
  · exact h.sockets
  · refine ⟨root, _, step_pair hprocesses hforked, ?_, ?_⟩
    · rw [hturn, Process.childTurn, if_neg hdone]
      exact hfresh
    · rw [hturn, Process.childTurn, if_neg hdone]
      rfl
  · intro m hm hresult
    obtain ⟨new, hnew⟩ := childTurn_sent_grows (fun name => (c.disk name).isSome) child
      (childTurnOf .timeout)
    have hsends : p.sends ⟨port, some c.clientAddr, 0⟩ ((childReply 7).onDisk c.disk p) =
        new.filterMap (Sendto.datagram port) := by
      have hdrop : (childTurn (fun name => (c.disk name).isSome) child
          (childTurnOf .timeout)).sent.drop child.sent.length = new := by
        rw [← hnew, List.drop_left]
      simp only [Process.sends, childReply, ProcessTurn.onDisk, hlocation, if_neg hphase]
      exact congrArg (List.filterMap (Sendto.datagram port)) hdrop
    rw [hsends]
    rw [← hnew] at hm
    rcases List.mem_append.mp hm with hold | hlast
    · exact List.mem_append_left _ (h.served m hold hresult)
    · apply List.mem_append_right
      exact List.mem_filterMap.mpr ⟨m, hlast, if_pos hresult⟩
  · exact h.rcopy

theorem enterRcopyMain_reached (hc : Polls c) (hsent : 0 ≤ t.sent) (heap : ℕ → PollFd) :
    Reached c (.awaitTalk 0) (enterRcopyMain c.params c.socketNum c.host t heap) := by
  refine ⟨?_, rfl, pollsOnly_setup heap hc.pos.le hc.lt⟩
  simp only [enterRcopyMain, enterClientMain, doSendFilenameState_eq, ClientMain.request,
    if_neg (not_lt.mpr hsent)]

/-- The child that the main server forks for the first request of rcopy. -/
def startedChild (c : SystemSetup) : Child :=
  ⟨c.clientAddr, c.params.srcFilename.take 100, [], .started⟩

theorem enterSystem_connecting (hsent : 0 ≤ t.sent) (hclient : port ≠ c.clientAddr)
    (hmain : port ≠ c.mainAddr) (stack : ℕ → UInt8) (heap : ℕ → PollFd) :
    Connecting c port (startedChild c) (enterRcopyMain c.params c.socketNum c.host t heap)
      ((enterSystem c stack t heap).step c (.server 0
        (.main (.received c.clientAddr (filenameDatagram c.params t.beyond)) true) port)) := by
  have hturn := mainTurn_filenameDatagram c.params t.beyond (length_uninit stack 114)
  have hrequest := requestOf_beyond c.params t.beyond
  have hname : (requestOf (filenameDatagram c.params 0)).filename =
      c.params.srcFilename.take 100 := by
    rw [requestOf_filenameDatagram]
  have hbrings : (c.clientAddr, c.mainAddr, filenameDatagram c.params t.beyond) ∈
      (enterSystem c stack t heap).network c := by
    apply List.mem_append_right
    apply List.mem_append_left
    apply mem_filterMap_datagram.mpr
    refine ⟨rfl, ⟨c.mainAddr, filenameDatagram c.params t.beyond, t.sent⟩, ?_, hsent, rfl, rfl⟩
    simp only [enterSystem, enterRcopyMain, enterClientMain, doSendFilenameState_eq,
      ClientMain.request]
    exact List.mem_singleton_self _
  have hfree : (enterSystem c stack t heap).Free c port := by
    refine ⟨hclient, ?_⟩
    intro k hk
    rw [List.mem_singleton.mp hk]
    exact hmain.symm
  have hstep : (enterSystem c stack t heap).step c (.server 0
      (.main (.received c.clientAddr (filenameDatagram c.params t.beyond)) true) port) =
      (enterSystem c stack t heap).serve 0 ⟨enterMain stack, 0, .main⟩ ⟨c.mainAddr, none, 0⟩
        (.main (.received c.clientAddr (filenameDatagram c.params t.beyond)) true) port := by
    simp only [System.step]
    exact if_pos ⟨fun _ => hbrings, Or.inr hfree⟩
  obtain ⟨after, hadvanced⟩ : ∃ after, (Process.mk (enterMain stack) 0 .main).turn
      (.main (.received c.clientAddr (filenameDatagram c.params t.beyond)) true) =
      { process := ⟨after, 0, .main⟩
        forked := [⟨after, 0,
          .startFSM (requestOf (filenameDatagram c.params 0)) (startedChild c)⟩]
        begun := none } := by
    refine ⟨mainLoopTurn (enterMain stack) (.received (filenameDatagram c.params t.beyond)), ?_⟩
    simp only [Process.turn, Process.acceptTurn, enterMain, hturn, hrequest]
    simp only [startFSM, if_true, List.nil_append, List.map_cons, List.map_nil, hname, startedChild]
  rw [hstep]
  constructor
  · simp only [System.serve, hadvanced, enterSystem]
    rfl
  · refine ⟨⟨after, 0, .main⟩, ⟨after, 0,
      .startFSM (requestOf (filenameDatagram c.params 0)) (startedChild c)⟩, ?_, rfl, rfl⟩
    have hp : (enterSystem c stack t heap).server.processes[0]? =
        some ⟨enterMain stack, 0, .main⟩ := rfl
    simp only [System.serve]
    rw [step_processes hp, hadvanced]
    rfl
  · intro m hm
    cases hm
  · rfl

/-- `fopen` opens the file, and rcopy is in its receive loop. -/
theorem Connecting.carries (h : Connecting c port child r s) (hasks : Asks c file)
    (hmod : c.params.windowSize % 65536 ≠ 0) (hphase : child.phase = .sendData)
    (heap : ℕ → ℕ → UInt8) (raw : ReceiverBuffer) (hpolls : PollsOnly c.socketNum r.pollSet)
    (hget : r.getData = some (enterGetData (clientOf c.params c.socketNum) raw)) :
    Carries c file port
      (enterTransfer (serverSession c.params 0 file) (clientOf c.params c.socketNum) heap raw)
      (s.step c (.server 1 (.fopen none true heap) port)) := by
  obtain ⟨root, p, hprocesses, hfresh, hlocation⟩ := h.process
  have hp : s.server.processes[1]? = some p := by
    rw [hprocesses]
    rfl
  have hk : s.sockets[1]? = some ⟨port, some c.clientAddr, 0⟩ := by
    rw [h.sockets]
    rfl
  have hfile : c.disk (requestOf (filenameDatagram c.params 0)).filename = some file := by
    rw [requestOf_filenameDatagram]
    exact hasks.disk
  have hturn : p.turn ((ProcessTurn.fopen none true heap).onDisk c.disk p) =
      ⟨{ p with
          location := .doSendDataState (serverSession c.params 0 file)
            (enterSendData (serverSession c.params 0 file) heap) }, [],
        some p.dataSequenceNumber⟩ := by
    simp only [ProcessTurn.onDisk, Process.turn, hlocation, if_pos hphase, hfile, Process.enterTurn,
      hfresh]
    rfl
  have hforked : (p.turn ((ProcessTurn.fopen none true heap).onDisk c.disk p)).forked = [] := by
    rw [hturn]
  have hwindow := Asks.windowSize c file
  have hbegin := enterSendData_sendsPackets (p := serverSession c.params 0 file) heap (by omega)
  rw [System.step_server (t := .fopen none true heap) hp hk trivial hforked]
  constructor
  · exact h.sockets
  · refine ⟨root, _, step_pair hprocesses hforked, ?_⟩
    intro _
    rw [hturn]
    rfl
  · exact hbegin
  · intro d hd
    cases hd
  · rw [← h.rcopy] at hpolls
    exact hpolls
  · rw [← h.rcopy] at hget
    exact hget

theorem Connecting.enter (h : Connecting c port child r s) (hr : Reached c .getData r)
    (raw : ReceiverBuffer) :
    Connecting c port child (r.turn c.params c.socketNum (.enter true raw))
        (s.step c (.rcopy (.enter true raw))) ∧
      PollsOnly c.socketNum (r.turn c.params c.socketNum (.enter true raw)).pollSet ∧
      (r.turn c.params c.socketNum (.enter true raw)).getData =
        some (enterGetData (clientOf c.params c.socketNum) raw) := by
  have hturn : r.turn c.params c.socketNum (.enter true raw) =
      { r with getData := some (enterGetData (clientOf c.params c.socketNum) raw) } := by
    rw [RcopyMain.turn, if_pos ⟨hr.phase, hr.getData, rfl⟩]
  have hbrings : RcopyEvent.Brings (s.network c) c.clientAddr (.enter true raw) := trivial
  rw [System.step, if_pos hbrings, h.rcopy, hturn]
  exact ⟨⟨h.sockets, h.process, h.served, rfl⟩, hr.polls, rfl⟩

/-- The handshake without a loss. -/
def connectEvents (c : SystemSetup) (port : SockAddr) (t : ClientTurn) (heap : ℕ → ℕ → UInt8)
    (raw : ReceiverBuffer) : List SystemEvent :=
  [.server 0 (.main (.received c.clientAddr (filenameDatagram c.params t.beyond)) true) port,
    .server 1 (childReply 7) port, .server 1 (childReply 7) port,
    .rcopy (answerEvent c port (sealHandshake makeTalkHereNowBeforeChecksum)
      (clientTurnOf .timeout)),
    .rcopy (answerEvent c port (sealHandshake makeVALIDFilenameACKBeforeChecksum)
      (clientTurnOf .timeout)),
    .server 1 (childReply 7) port, .rcopy (.enter true raw),
    .server 1 (.fopen none true heap) port]

theorem connectEvents_carries (q : Prop) (heap : ℕ → ℕ → UInt8) (raw : ReceiverBuffer) :
    ∀ e ∈ connectEvents c port t heap raw, SystemEvent.Carries q e := by
  simp [connectEvents, answerEvent, SystemEvent.Carries, SystemEvent.TakesData, SystemEvent.Sends]

theorem exec_connectEvents (hasks : Asks c file) (hc : Polls c)
    (hmod : c.params.windowSize % 65536 ≠ 0) (hclient : port ≠ c.clientAddr)
    (hmain : port ≠ c.mainAddr) (hsent : 0 ≤ t.sent) (stack : ℕ → UInt8) (fds : ℕ → PollFd)
    (heap : ℕ → ℕ → UInt8) (raw : ReceiverBuffer) :
    Carries c file port
      (enterTransfer (serverSession c.params 0 file) (clientOf c.params c.socketNum) heap raw)
      (Runs.exec (System.step c) (enterSystem c stack t fds) (connectEvents c port t heap raw)) := by
  have hopenable : (c.disk (c.params.srcFilename.take 100)).isSome = true := by
    rw [hasks.disk]
    rfl
  -- what the child sends, and its phases
  let talk : Sendto := ⟨c.clientAddr, sealHandshake makeTalkHereNowBeforeChecksum, 7⟩
  let valid : Sendto := ⟨c.clientAddr, sealHandshake makeVALIDFilenameACKBeforeChecksum, 7⟩
  have hgetFilename : childTurn (fun name => (c.disk name).isSome)
      ⟨c.clientAddr, c.params.srcFilename.take 100, [talk], .getFilename⟩ (childTurnOf .timeout) =
      ⟨c.clientAddr, c.params.srcFilename.take 100, [talk, valid], .validSent 7⟩ := by
    simp only [childTurn, doGetFilenameState, hopenable, if_true]
    rfl
  have h₁ := enterSystem_connecting hsent hclient hmain stack fds
  have h₂ : Connecting c port ⟨c.clientAddr, c.params.srcFilename.take 100, [talk], .getFilename⟩ _ _ :=
    h₁.child_turn ChildPhase.noConfusion ChildPhase.noConfusion
  have h₃ := h₂.child_turn ChildPhase.noConfusion (by
    rw [hgetFilename]
    exact ChildPhase.noConfusion)
  rw [hgetFilename] at h₃
  have h₄ := h₃.answered ⟨talk, by simp, show (0 : Int) ≤ 7 by decide, rfl, rfl⟩
    (clientTurnOf .timeout)
  have h₅ := h₄.answered ⟨valid, by simp, show (0 : Int) ≤ 7 by decide, rfl, rfl⟩
    (clientTurnOf .timeout)
  have h₆ : Connecting c port
      ⟨c.clientAddr, c.params.srcFilename.take 100, [talk, valid], .sendData⟩ _ _ :=
    h₅.child_turn ChildPhase.noConfusion ChildPhase.noConfusion
  have hr₁ := enterRcopyMain_reached hc hsent fds
  have hr₂ : Reached c (.awaitValid 0) _ :=
    hr₁.talk (t := clientTurnOf .timeout) hc rfl (le_refl talk.pdu.length) rfl port
  have hr₃ : Reached c .getData _ :=
    hr₂.valid (t := clientTurnOf .timeout) hc (le_refl valid.pdu.length) rfl port
  obtain ⟨h₇, hpolls, hget⟩ := h₆.enter hr₃ raw
  simp only [connectEvents, Runs.exec_cons, Runs.exec_nil]
  exact h₇.carries hasks hmod rfl heap raw hpolls hget

end Connect

/-! ## Whole files -/

/-- There is an address for the child: only two are taken. -/
theorem exists_port (c : SystemSetup) : ∃ port, port ≠ c.clientAddr ∧ port ≠ c.mainAddr := by
  by_contra hnone
  push Not at hnone
  have h₀ := hnone ⟨0, 0⟩
  have h₁ := hnone ⟨0, 1⟩
  have h₂ := hnone ⟨0, 2⟩
  by_cases hzero : c.clientAddr = ⟨0, 0⟩
  · have h₁ := h₁ (by rw [hzero]; decide)
    have h₂ := h₂ (by rw [hzero]; decide)
    exact absurd (h₁.trans h₂.symm) (by decide)
  · have h₀ := h₀ (Ne.symm hzero)
    by_cases hone : c.clientAddr = ⟨0, 1⟩
    · have h₂ := h₂ (by rw [hone]; decide)
      exact absurd (h₀.trans h₂.symm) (by decide)
    · have h₁ := h₁ (Ne.symm hone)
      exact absurd (h₀.trans h₁.symm) (by decide)

section Whole

variable {c : SystemSetup} {file : List UInt8} {t : ClientTurn}

/-- What rcopy writes in a transfer it writes in a run of the system. -/
theorem exists_run_of_transfer (hasks : Asks c file) (hc : Polls c)
    (hmod : c.params.windowSize % 65536 ≠ 0) (hsent : 0 ≤ t.sent) (stack : ℕ → UInt8)
    (fds : ℕ → PollFd) (q : Prop) (heap : ℕ → ℕ → UInt8) (raw : ReceiverBuffer)
    {turns : List WireTurn} (hturns : ∀ t ∈ turns, q → t.Sends) :
    ∃ events, (∀ e ∈ events, SystemEvent.Carries q e) ∧
      (Runs.exec (System.step c) (enterSystem c stack t fds) events).NoneForked c ∧
      (Runs.exec (System.step c) (enterSystem c stack t fds) events).rcopy.output =
        fileBytes (Runs.exec
          (wireTurn (serverSession c.params 0 file) (clientOf c.params c.socketNum))
          (enterTransfer (serverSession c.params 0 file) (clientOf c.params c.socketNum) heap raw)
          turns).receiver.receiver.file := by
  obtain ⟨port, hclient, hmain⟩ := exists_port c
  have hconnected := exec_connectEvents hasks hc hmod hclient hmain hsent stack fds heap raw
  obtain ⟨es, hes, hcarries⟩ := hconnected.run hc.pos hturns
  rw [← Runs.exec_append] at hcarries
  refine ⟨connectEvents c port t heap raw ++ es, ?_, hcarries.noneForked, hcarries.output⟩
  intro e he
  exact (List.mem_append.mp he).elim (connectEvents_carries q heap raw e) (hes e)

theorem enterSystem_noneForked (c : SystemSetup) (stack : ℕ → UInt8) (t : ClientTurn)
    (heap : ℕ → PollFd) : (enterSystem c stack t heap).NoneForked c := by
  intro k hk hforked
  rw [List.mem_singleton.mp hk] at hforked
  cases hforked

/-- Without a window only the empty file arrives, else what arrives in the transfer. -/
theorem exists_copy (hasks : Asks c file) (hc : Polls c) (hsent : 0 ≤ t.sent) (stack : ℕ → UInt8)
    (fds : ℕ → PollFd) (q : Prop)
    (h : file = [] ∨ c.params.windowSize % 65536 ≠ 0 ∧ ∃ turns, (∀ t ∈ turns, q → WireTurn.Sends t) ∧
      fileBytes (Runs.exec
        (wireTurn (serverSession c.params 0 file) (clientOf c.params c.socketNum))
        (enterTransfer (serverSession c.params 0 file) (clientOf c.params c.socketNum)
          (fun _ _ => 0) freshBuffer) turns).receiver.receiver.file = some file) :
    ∃ events, (∀ e ∈ events, SystemEvent.Carries q e) ∧
      (Runs.exec (System.step c) (enterSystem c stack t fds) events).NoneForked c ∧
      (Runs.exec (System.step c) (enterSystem c stack t fds) events).rcopy.output = some file := by
  rcases h with hnil | ⟨hmod, turns, hturns, hfile⟩
  · -- nothing has to be sent
    refine ⟨[], fun _ he => absurd he List.not_mem_nil, enterSystem_noneForked c stack t fds, ?_⟩
    rw [hnil]
    rfl
  · have hrun := exists_run_of_transfer hasks hc hmod hsent stack fds q (fun _ _ => 0) freshBuffer
      hturns
    rw [hfile] at hrun
    exact hrun

/-- A file of one buffer arrives in some run without a failing send. -/
theorem exists_whole_copy_sending (hasks : Asks c file) (hc : Polls c) (hsent : 0 ≤ t.sent)
    (hfile : file = [] ∨
      c.params.windowSize % 65536 ≠ 0 ∧ (file.length : Int) = c.params.bufferSize)
    (stack : ℕ → UInt8) (fds : ℕ → PollFd) :
    ∃ events, (∀ e ∈ events, SystemEvent.Carries True e) ∧
      (Runs.exec (System.step c) (enterSystem c stack t fds) events).NoneForked c ∧
      (Runs.exec (System.step c) (enterSystem c stack t fds) events).rcopy.output = some file := by
  have hb₀ := hasks.buffer_pos
  have hle := hasks.buffer_le
  apply exists_copy hasks hc hsent stack fds True
  refine hfile.imp_right ?_
  rintro ⟨hmod, hlen⟩
  have hsizes := sameSizes_serverSession c.params 0 file c.socketNum hasks.window_pos hb₀
    (by omega) hmod
  have hbuffer := serverSession_bufferSize c.params 0 file hb₀ (by omega)
  obtain ⟨turns, hturns, hcopied⟩ := (transferable_sending_iff (serverSession c.params 0 file)
    (clientOf c.params c.socketNum) (fun _ _ => 0) freshBuffer hsizes (by omega)).mpr
    (Or.inr (show file.length = _ by omega))
  exact ⟨hmod, turns, fun t ht _ => hturns t ht, hcopied⟩

theorem firstWindow_fits (hasks : Asks c file) {s : System} (h : s.Serves c file)
    (hfile : s.rcopy.output = some file) :
    c.params.bufferSize ∣ (file.length : Int) ∧
      (file.length : Int) ≤ firstWindow c.params.windowSize * c.params.bufferSize := by
  obtain ⟨hdvd, ks, padding, hsel⟩ := h.output hasks hfile
  have hb₀ := hasks.buffer_pos
  have hbuffer : (c.params.bufferSize.toNat : Int) = c.params.bufferSize := by omega
  have hfirst : ((firstWindow c.params.windowSize).toNat : Int) =
      firstWindow c.params.windowSize := by
    have hpos := (firstWindow_lt c.params.windowSize).1
    omega
  constructor
  · rw [← hbuffer]
    exact Int.natCast_dvd_natCast.mpr hdvd
  · rw [← hbuffer, ← hfirst]
    exact_mod_cast hsel.length_le

/-- Without a failing send rcopy writes one buffer at most. -/
theorem exec_writesOneBuffer (stack : ℕ → UInt8) (heap : ℕ → PollFd) (events : List SystemEvent)
    (hsends : ∀ e ∈ events, e.Sends) :
    ∀ g, (Runs.exec (System.step c) (enterSystem c stack t heap) events).rcopy.getData = some g →
      OneBuffer (clientOf c.params c.socketNum) g := by
  have hrun : Runs.Always (System.step c)
      (fun s => ∀ g, s.rcopy.getData = some g → OneBuffer (clientOf c.params c.socketNum) g)
      (enterSystem c stack t heap) events := by
    apply Runs.always_of_keep (C := fun _ (e : SystemEvent) => e.Sends)
    · intro s e hs he
      cases e with
      | rcopy e =>
        simp only [System.step]
        split_ifs
        · apply RcopyMain.getData_turn hs (enterGetData_oneBuffer _)
          rintro cond attempts t pollResult g rfl hg
          exact hg.turn he
        · exact hs
      | server i t port =>
        simp only [System.step]
        split
        · split_ifs
          · exact hs
          · exact hs
        · exact hs
    · intro g hg
      cases hg
    · exact Runs.everyStep_of_forall hsends fun _ _ he => he
  exact hrun.last

theorem output_oneBuffer {s : System} {b : List UInt8}
    (h : ∀ g, s.rcopy.getData = some g → OneBuffer (clientOf c.params c.socketNum) g)
    (hb : s.rcopy.output = some b) : b = [] ∨ b.length = c.params.bufferSize.toNat := by
  rw [RcopyMain.output] at hb
  cases hget : s.rcopy.getData with
  | none =>
    rw [hget] at hb
    exact Or.inl (Option.some.inj hb).symm
  | some g =>
    rw [hget] at hb
    exact (h g hget).output hb

end Whole

/-- In the whole system with no failing sends of rcopy the file can arrive only if it is
empty, or if it is one buffer and there is a window. -/
theorem system_copyable_sending_iff (c : SystemSetup) (rateRejected : CString → Bool)
    (prog src dest window buffer rate machine port : CString)
    (h : checkArgs rateRejected [prog, src, dest, window, buffer, rate, machine, port] =
      some c.params)
    (hbyte : c.params.bufferSize ≤ 255) (file : List UInt8)
    (hdisk : c.disk (c.params.srcFilename.take 100) = some file)
    (h0 : 0 < c.socketNum) (hn : c.socketNum + pollSetSize < 2147483648) (stack : ℕ → UInt8)
    (t : ClientTurn) (hsent : 0 ≤ t.sent) (heap : ℕ → PollFd) :
    (∃ events, (∀ e ∈ events, SystemEvent.TakesData e ∧ e.Sends) ∧
      (Runs.exec (System.step c) (enterSystem c stack t heap) events).NoneForked c ∧
      (Runs.exec (System.step c) (enterSystem c stack t heap) events).rcopy.output = some file) ↔
      file = [] ∨
        c.params.windowSize % 65536 ≠ 0 ∧ (file.length : Int) = c.params.bufferSize := by
  obtain ⟨-, hw₀, hb₀, -, -, -⟩ := checkArgs_some h
  have hasks : Asks c file := ⟨hdisk, hw₀, hb₀, hbyte⟩
  constructor
  · intro hrun
    obtain ⟨events, hevents, hforked, hfile⟩ := hrun
    have hserves := exec_serves hasks stack t heap events (fun e he => (hevents e he).1) hforked
    have hfits := (firstWindow_fits hasks hserves hfile).2
    refine (output_oneBuffer (exec_writesOneBuffer stack heap events fun e he => (hevents e he).2)
      hfile).imp_right ?_
    intro hlen
    refine ⟨?_, by omega⟩
    intro hmod
    rw [firstWindow, if_pos hmod, zero_mul] at hfits
    omega
  · intro hfile
    obtain ⟨events, hevents, hrun⟩ :=
      exists_whole_copy_sending hasks ⟨h0, hn⟩ hsent hfile stack heap
    exact ⟨events, fun e he => ⟨(hevents e he).1, (hevents e he).2 trivial⟩, hrun⟩

/-- The server has one file of two bytes. -/
def twoFile : SystemSetup := { oneFile with disk := fun _ => some [7, 8] }

theorem system_copyable_sending_never_two :
    ¬∃ events, (∀ e ∈ events, SystemEvent.TakesData e ∧ e.Sends) ∧
      (Runs.exec (System.step twoFile) (enterSystem twoFile (fun _ => 0) (clientTurnOf .timeout)
        fun _ => ⟨0, 0⟩) events).NoneForked twoFile ∧
      (Runs.exec (System.step twoFile) (enterSystem twoFile (fun _ => 0) (clientTurnOf .timeout)
        fun _ => ⟨0, 0⟩) events).rcopy.output = some [7, 8] :=
  fun hrun => absurd ((system_copyable_sending_iff twoFile (fun _ => false) letterA letterA letterA
    digitOne digitOne digitOne letterA digitOne (checkArgs_paramsOf (by decide)) (by decide) [7, 8]
    rfl (by decide) (by decide) (fun _ => 0) (clientTurnOf .timeout) (by decide)
    fun _ => ⟨0, 0⟩).mp hrun) (by decide)

end Rcopy
