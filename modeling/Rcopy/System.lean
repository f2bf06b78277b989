import Rcopy.CopiedChunks
import Rcopy.RcopyMain
import Rcopy.ServerTree
import Rcopy.SessionSizes

/-!
# rcopy, the server and other hosts

rcopy from its command line on, and every process of the server, with the sockets
between them. The network loses, repeats and reorders what has been sent. Other hosts
may send anything to the server, and have sessions of their own with it, but send
nothing to rcopy. A process of the server does not look at the address of a control
PDU, so what it receives while it sends data is left open, and so is what the wait
loops of rcopy read.
-/

namespace Rcopy

open Bytes

/-- The arguments of rcopy, its socket and the files of the server. -/
structure SystemSetup where
  params : RcopyParams
  host : BitVec 128
  clientAddr : SockAddr
  socketNum : Int
  disk : List UInt8 → Option (List UInt8)
  client_ne_main : clientAddr ≠ mainServer params host

def SystemSetup.mainAddr (c : SystemSetup) : SockAddr := mainServer c.params c.host

/-- The address of the socket of a process, the client that the process has been forked
for, and the process that has forked it. -/
structure Socket where
  addr : SockAddr
  client : Option SockAddr
  parent : ℕ
deriving DecidableEq

/-- `sockets` belongs to the processes of the server one by one. `served` is what they
have sent, each datagram with its source and destination. -/
structure System where
  rcopy : RcopyMain
  server : ProcessTree
  sockets : List Socket
  served : List (SockAddr × SockAddr × List UInt8)

/-- A turn of rcopy or of process `i` of the server. A child that is forked in the turn
gets `port` from `udpServerSetup(0)`. -/
inductive SystemEvent
  | rcopy (e : RcopyEvent)
  | server (i : ℕ) (t : ProcessTurn) (port : SockAddr)

/-- What rcopy has sent. In `doGetDataState` it sends to where the handshake has ended. -/
def RcopyMain.network (addr : SockAddr) (s : RcopyMain) :
    List (SockAddr × SockAddr × List UInt8) :=
  s.handshake.sent.filterMap (Sendto.datagram addr) ++
    match s.getData with
    | none => []
    | some g => g.receiver.delivered.map fun d => (addr, s.handshake.server, d)

def System.network (c : SystemSetup) (s : System) : List (SockAddr × SockAddr × List UInt8) :=
  s.served ++ s.rcopy.network c.clientAddr

/-- rcopy receives only what has been sent to it. -/
def RcopyEvent.Brings (network : List (SockAddr × SockAddr × List UInt8)) (dest : SockAddr) :
    RcopyEvent → Prop
  | .handshake _ (some (source, d)) _ _ => (source, dest, d) ∈ network
  | .handshake _ none _ _ => True
  | .enter _ _ => True
  | .receive _ _ t => ∀ d ∈ t.recv, ∃ m ∈ network, m.2 = (dest, d)

instance (network : List (SockAddr × SockAddr × List UInt8)) (dest : SockAddr) (e : RcopyEvent) :
    Decidable (e.Brings network dest) :=
  match e with
  | .handshake _ (some (source, d)) _ _ => inferInstanceAs (Decidable ((source, dest, d) ∈ network))
  | .handshake _ none _ _ => inferInstanceAs (Decidable True)
  | .enter _ _ => inferInstanceAs (Decidable True)
  | .receive _ _ t => inferInstanceAs (Decidable (∀ d ∈ t.recv, ∃ m ∈ network, m.2 = (dest, d)))

/-- What a socket of the server receives from `client` has been sent by it. -/
def Poll.FromHosts (network : List (SockAddr × SockAddr × List UInt8)) (client dest : SockAddr) :
    Poll → Prop
  | .received source d => source = client → (source, dest, d) ∈ network
  | _ => True

instance (network : List (SockAddr × SockAddr × List UInt8)) (client dest : SockAddr) (poll : Poll) :
    Decidable (poll.FromHosts network client dest) :=
  match poll with
  | .received source d => inferInstanceAs (Decidable (source = client → (source, dest, d) ∈ network))
  | .timeout => inferInstanceAs (Decidable True)
  | .recvFailed => inferInstanceAs (Decidable True)

def ProcessTurn.FromHosts (network : List (SockAddr × SockAddr × List UInt8))
    (client dest : SockAddr) : ProcessTurn → Prop
  | .main poll _ => poll.FromHosts network client dest
  | .child _ t => t.poll.FromHosts network client dest
  | _ => True

instance (network : List (SockAddr × SockAddr × List UInt8)) (client dest : SockAddr)
    (t : ProcessTurn) : Decidable (t.FromHosts network client dest) :=
  match t with
  | .main poll _ => inferInstanceAs (Decidable (poll.FromHosts network client dest))
  | .child _ t => inferInstanceAs (Decidable (t.poll.FromHosts network client dest))
  | .fopen _ _ _ => inferInstanceAs (Decidable True)
  | .send _ => inferInstanceAs (Decidable True)

/-- `fopen` finds what is on the disk. -/
def ProcessTurn.onDisk (disk : List UInt8 → Option (List UInt8)) (p : Process) :
    ProcessTurn → ProcessTurn
  | .child _ t => .child (fun name => (disk name).isSome) t
  | .fopen _ allocated heap =>
    match p.location with
    | .startFSM request _ => .fopen (disk request.filename) allocated heap
    | _ => .fopen none allocated heap
  | t => t

/-- The client that a child answers in `doGetFilenameState`. -/
def Location.client : Location → Option SockAddr
  | .startFSM _ child => some child.client
  | _ => none

/-- What a process sends in a turn. -/
def Process.sends (k : Socket) (p : Process) (t : ProcessTurn) :
    List (SockAddr × SockAddr × List UInt8) :=
  match p.location, t with
  | .startFSM _ child, .child openable t =>
    if child.phase = .sendData then []
    else
      ((Rcopy.childTurn openable child t).sent.drop child.sent.length).filterMap
        (Sendto.datagram k.addr)
  | .doSendDataState session s, .send t =>
    match k.client with
    | none => []
    | some client =>
      ((Rcopy.sendTurn session s t).delivered.drop s.delivered.length).map fun d =>
        (k.addr, client, d)
  | _, _ => []

/-- No socket has the address yet. -/
def System.Free (c : SystemSetup) (s : System) (addr : SockAddr) : Prop :=
  addr ≠ c.clientAddr ∧ ∀ k ∈ s.sockets, k.addr ≠ addr

instance (c : SystemSetup) (s : System) (addr : SockAddr) : Decidable (s.Free c addr) :=
  inferInstanceAs (Decidable (addr ≠ c.clientAddr ∧ ∀ k ∈ s.sockets, k.addr ≠ addr))

def System.serve (s : System) (i : ℕ) (p : Process) (k : Socket) (t : ProcessTurn)
    (port : SockAddr) : System :=
  { s with
    server := s.server.step (i, t)
    sockets := s.sockets ++ (p.turn t).forked.map fun q => ⟨port, q.location.client, i⟩
    served := s.served ++ p.sends k t }

def System.step (c : SystemSetup) (s : System) : SystemEvent → System
  | .rcopy e =>
    if e.Brings (s.network c) c.clientAddr then
      { s with rcopy := s.rcopy.turn c.params c.socketNum e }
    else s
  | .server i t port =>
    match s.server.processes[i]?, s.sockets[i]? with
    | some p, some k =>
      if t.FromHosts (s.network c) c.clientAddr k.addr ∧
          ((p.turn (t.onDisk c.disk p)).forked = [] ∨ s.Free c port) then
        s.serve i p k (t.onDisk c.disk p) port
      else s
    | _, _ => s

def enterSystem (c : SystemSetup) (stack : ℕ → UInt8) (t : ClientTurn) (heap : ℕ → PollFd) :
    System where
  rcopy := enterRcopyMain c.params c.socketNum c.host t heap
  server := enterTree stack
  sockets := [⟨c.mainAddr, none, 0⟩]
  served := []

/-! ## What rcopy sends -/

/-- A process at the address has been forked for a request of rcopy. -/
def Serving (c : SystemSetup) (sockets : List Socket) (addr : SockAddr) : Prop :=
  ∃ k ∈ sockets, k.addr = addr ∧ k.client = some c.clientAddr

/-- rcopy sends to the processes that serve it, and requests to the main server. -/
def SentTo (c : SystemSetup) (sockets : List Socket) (m : Sendto) : Prop :=
  Serving c sockets m.dest ∨
    m.dest = c.mainAddr ∧ ∃ beyond, m.pdu = filenameDatagram c.params beyond

structure Requests (c : SystemSetup) (sockets : List Socket) (s : ClientMain) : Prop where
  server : Serving c sockets s.server ∨ s.server = c.mainAddr
  sent : ∀ m ∈ s.sent, SentTo c sockets m
  getData : s.phase = .getData → Serving c sockets s.server

section Client

variable {c : SystemSetup} {sockets new : List Socket} {s s' : ClientMain} {t : ClientTurn}
  {source : SockAddr} {d : List UInt8} {phase : ClientPhase} {poll : Poll}

theorem Serving.append {addr : SockAddr} (h : Serving c sockets addr) :
    Serving c (sockets ++ new) addr := by
  obtain ⟨k, hk, haddr⟩ := h
  exact ⟨k, List.mem_append_left new hk, haddr⟩

theorem SentTo.append {m : Sendto} (h : SentTo c sockets m) : SentTo c (sockets ++ new) m :=
  h.imp_left Serving.append

theorem Requests.append (h : Requests c sockets s) : Requests c (sockets ++ new) s where
  server := h.server.imp_left Serving.append
  sent := fun m hm => (h.sent m hm).append
  getData := fun hphase => (h.getData hphase).append

theorem Requests.sendto (h : Requests c sockets s) {pdu : List UInt8} {result : Int}
    (hpdu : Serving c sockets s.server ∨ ∃ beyond, pdu = filenameDatagram c.params beyond) :
    ∀ m ∈ (s.sendto pdu result).sent, SentTo c sockets m := by
  intro m hm
  rcases List.mem_append.mp hm with hold | hnew
  · exact h.sent m hold
  · rw [List.mem_singleton.mp hnew]
    rcases h.server with hserving | hmain
    · exact Or.inl hserving
    · exact hpdu.imp_right fun hrequest => ⟨hmain, hrequest⟩

theorem Requests.request (h : Requests c sockets s) (n : ℕ) :
    Requests c sockets (s.request c.params n t) := by
  refine ⟨h.server, h.sendto (Or.inr ⟨_, rfl⟩), ?_⟩
  intro hphase
  simp only [ClientMain.request] at hphase
  split_ifs at hphase

theorem Requests.stop (h : Requests c sockets s) (hphase : phase ≠ .getData) :
    Requests c sockets { s with phase := phase } :=
  ⟨h.server, h.sent, fun hget => absurd hget hphase⟩

/-- After a datagram rcopy sends to where it has come from. -/
theorem Requests.recvfrom (h : Requests c sockets s) (hsource : Serving c sockets source) :
    Requests c sockets (s.recvfrom source d) :=
  ⟨Or.inl hsource, h.sent, fun _ => hsource⟩

theorem Requests.polled (h : Requests c sockets s)
    (hpoll : ∀ source d, poll = .received source d → Serving c sockets source) :
    Requests c sockets (s.polled poll) := by
  cases poll with
  | timeout => exact h
  | recvFailed => exact h
  | received source d => exact h.recvfrom (hpoll source d rfl)

theorem ClientStep.requests (hstep : ClientStep c.params s t s') (h : Requests c sockets s)
    (hpoll : ∀ source d, t.poll = .received source d → Serving c sockets source) :
    Requests c sockets s' := by
  cases hstep with
  | ended n _ => exact h.stop (by decide)
  | resent n _ _ => exact h.request _
  | refused n _ source d hp => exact (h.recvfrom (hpoll source d hp)).stop (by decide)
  | redirected n _ source d hp _ =>
    have hrecv := h.recvfrom (d := d) (hpoll source d hp)
    exact ⟨hrecv.server, hrecv.sent, fun _ => hpoll source d hp⟩
  | valid r _ source d hp _ =>
    have hrecv := h.recvfrom (d := d) (hpoll source d hp)
    exact ⟨hrecv.server, hrecv.sent, fun _ => hpoll source d hp⟩
  | invalid r _ source d hp _ =>
    have hrecv := h.recvfrom (d := d) (hpoll source d hp)
    exact ⟨hrecv.server, hrecv.sendto (Or.inl (hpoll source d hp)), fun _ => hpoll source d hp⟩
  | retried r _ _ _ => exact (h.polled hpoll).stop (by simp)
  | gaveUp r _ _ _ =>
    have hpolled := h.polled hpoll
    have hfresh : Requests c sockets { s.polled t.poll with recvBuffer := uninit t.stack 7 } :=
      ⟨hpolled.server, hpolled.sent, hpolled.getData⟩
    rw [doSendFilenameState_eq]
    exact hfresh.request 0
  | ignored => exact h

theorem enterClientMain_requests (c : SystemSetup) (sockets : List Socket) (t : ClientTurn) :
    Requests c sockets (enterClientMain c.params c.host t) := by
  rw [enterClientMain, doSendFilenameState_eq]
  apply Requests.request
  refine ⟨Or.inr rfl, ?_, ?_⟩
  · intro m hm
    cases hm
  · intro hphase
    cases hphase

end Client

structure SendsToServer (c : SystemSetup) (sockets : List Socket) (s : RcopyMain) : Prop where
  requests : Requests c sockets s.handshake
  getData : ∀ g, s.getData = some g → s.handshake.phase = .getData

section Client

variable {c : SystemSetup} {sockets new : List Socket} {s : RcopyMain} {source dest : SockAddr}
  {d : List UInt8} {network : List (SockAddr × SockAddr × List UInt8)} {e : RcopyEvent}

theorem SendsToServer.append (h : SendsToServer c sockets s) :
    SendsToServer c (sockets ++ new) s := ⟨h.requests.append, h.getData⟩

theorem SendsToServer.of_mem_network (h : SendsToServer c sockets s)
    (hd : (source, dest, d) ∈ s.network c.clientAddr) :
    source = c.clientAddr ∧
      (Serving c sockets dest ∨
        dest = c.mainAddr ∧ ∃ beyond, d = filenameDatagram c.params beyond) := by
  rcases List.mem_append.mp hd with hsent | hcontrol
  · obtain ⟨hsource, m, hm, -, rfl, rfl⟩ := mem_filterMap_datagram.mp hsent
    exact ⟨hsource, h.requests.sent m hm⟩
  · cases hdata : s.getData with
    | none =>
      rw [hdata] at hcontrol
      cases hcontrol
    | some g =>
      rw [hdata] at hcontrol
      obtain ⟨d', -, heq⟩ := List.mem_map.mp hcontrol
      obtain ⟨rfl, rfl, rfl⟩ := Prod.mk.inj heq |>.imp_right Prod.mk.inj
      exact ⟨rfl, Or.inl (h.requests.getData (h.getData g hdata))⟩

theorem clientPoll_received {pollResult : Int} {recv : Option (SockAddr × List UInt8)}
    (h : clientPoll pollResult recv = .received source d) : recv = some (source, d) := by
  simp only [clientPoll] at h
  split_ifs at h
  cases recv with
  | none => cases h
  | some m =>
    obtain ⟨rfl, rfl⟩ := Poll.received.inj h
    rfl

theorem SendsToServer.turn (h : SendsToServer c sockets s)
    (hfrom : ∀ source d, (source, c.clientAddr, d) ∈ network → Serving c sockets source)
    (hbrings : e.Brings network c.clientAddr) :
    SendsToServer c sockets (s.turn c.params c.socketNum e) := by
  cases e with
  | handshake cond recv t heap =>
    simp only [RcopyMain.turn]
    cases s.poll cond with
    | none => exact h
    | some pollResult =>
      constructor
      · apply (clientTurn_step c.params s.handshake _).requests h.requests
        intro source d hpoll
        obtain rfl := clientPoll_received hpoll
        exact hfrom source d hbrings
      · intro g hg
        have hphase := h.getData g hg
        simp only [RcopyMain.handshakeTurn, clientTurn_getData hphase, hphase]
  | enter opened raw =>
    simp only [RcopyMain.turn]
    split_ifs with henter
    · exact ⟨h.requests, fun _ _ => henter.1⟩
    · exact h
  | receive cond attempts t =>
    simp only [RcopyMain.turn]
    cases s.poll cond with
    | none => exact h
    | some pollResult =>
      cases hdata : s.getData with
      | none => exact h
      | some g => exact ⟨h.requests, fun _ _ => h.getData g hdata⟩

end Client

/-! ## What the server sends to rcopy -/

/-- What rcopy may take for data: a packet of the first window, with its chunk. -/
def OfFile (c : SystemSetup) (file d : List UInt8) : Prop :=
  IsPacket (firstWindow c.params.windowSize - 1) d ∧ CarriesChunk (serverSession c.params 0 file) d

/-- A process that has returned from `startFSM` sends rcopy nothing any more. -/
def Location.Serves (c : SystemSetup) (file : List UInt8) : Location → Prop
  | .main => True
  | .startFSM request _ => request = requestOf (filenameDatagram c.params 0)
  | .doSendDataState session s =>
    session = serverSession c.params 0 file ∧
      (Idle s ∨ c.params.windowSize % 65536 ≠ 0 ∧ SendsChunks session s)
  | .exited => True

/-- A process that has been forked for rcopy sends it the file. -/
structure Process.Serves (c : SystemSetup) (file : List UInt8) (p : Process) : Prop where
  confined : p.location ≠ .main → p.Confined
  location : p.location.Serves c file

/-- The file that rcopy asks for, and arguments that `checkArgs` accepts. -/
structure Asks (c : SystemSetup) (file : List UInt8) : Prop where
  disk : c.disk (c.params.srcFilename.take 100) = some file
  window_pos : 0 < c.params.windowSize
  buffer_pos : 0 < c.params.bufferSize
  buffer_le : c.params.bufferSize ≤ 255

section Server

variable {c : SystemSetup} {file : List UInt8} {p : Process} {t t' : ProcessTurn} {session : Session}
  {s : SendData}

theorem Asks.fitsByte (h : Asks c file) : FitsByte (serverSession c.params 0 file) := by
  have hbuffer := serverSession_bufferSize c.params 0 file h.buffer_pos (by
    have hle := h.buffer_le
    omega)
  have hle := h.buffer_le
  exact Or.inl (by omega)

theorem Asks.windowSize (c : SystemSetup) (file : List UInt8) :
    toI32 (serverSession c.params 0 file).windowSize = c.params.windowSize % 65536 := by
  have hwindow := serverSession_windowSize c.params 0 file
  rw [toI32_of_lt (by omega)]
  exact hwindow

/-- `doSendDataState` begins with a window, or with none. -/
theorem enterSendDataAt_serves (c : SystemSetup) (file : List UInt8) (heap : ℕ → ℕ → UInt8) :
    (Location.doSendDataState (serverSession c.params 0 file)
      (enterSendDataAt (serverSession c.params 0 file) heap 0)).Serves c file := by
  refine ⟨rfl, ?_⟩
  have hwindow := Asks.windowSize c file
  by_cases hmod : c.params.windowSize % 65536 = 0
  · exact Or.inl (enterSendDataAt_idle (by omega) heap 0)
  · exact Or.inr ⟨hmod, enterSendData_sendsChunks heap (by omega)⟩

theorem Location.Serves.sendTurn (h : (Location.doSendDataState session s).Serves c file)
    (hasks : Asks c file) (t : SendTurn) :
    (Location.doSendDataState session (Rcopy.sendTurn session s t)).Serves c file := by
  obtain ⟨rfl, hidle | ⟨hmod, hsends⟩⟩ := h
  · exact ⟨rfl, Or.inl (hidle.step t)⟩
  · exact ⟨rfl, Or.inr ⟨hmod, hsends.turn hasks.fitsByte t⟩⟩

theorem onDisk_fopen {disk : List UInt8 → Option (List UInt8)} {opened : Option (List UInt8)}
    {allocated : Bool} {heap : ℕ → ℕ → UInt8} {request : Request} {child : Child}
    (ht : t.onDisk disk p = .fopen opened allocated heap)
    (hlocation : p.location = .startFSM request child) : opened = disk request.filename := by
  cases t with
  | fopen _ _ _ =>
    simp only [ProcessTurn.onDisk, hlocation, ProcessTurn.fopen.injEq] at ht
    exact ht.1.symm
  | _ => cases ht

theorem Process.Serves.turn (h : p.Serves c file) (hasks : Asks c file) :
    (p.turn (t.onDisk c.disk p)).process.Serves c file := by
  by_cases hmain : p.location = .main
  · have hstays := (p.turn_main hmain (t.onDisk c.disk p)).1
    constructor
    · exact fun hne => absurd hstays hne
    · rw [hstays]
      trivial
  have hconfined := h.confined hmain
  by_cases hdone : p.ReachesDone (t.onDisk c.disk p)
  · have hreturned := (hconfined.inLoop _ hdone).1
    constructor
    · exact fun hne => absurd hreturned hne
    · rw [hreturned]
      trivial
  refine ⟨fun _ => (hconfined.turn _ hdone).1, ?_⟩
  have hserves := h.location
  have hfresh := hconfined.fresh
  have hstep := p.turn_cases (t.onDisk c.disk p)
  generalize p.turn (t.onDisk c.disk p) = advanced at hstep ⊢
  generalize ht : t.onDisk c.disk p = t' at hstep
  cases hstep with
  | accept poll forked hlocation => exact absurd hlocation hmain
  | child request child openable t hlocation _ =>
    rw [hlocation] at hserves
    simp only [Process.stay, Process.childTurn]
    split_ifs
    · trivial
    · exact hserves
  | fopen request child opened allocated heap hlocation _ =>
    rw [hlocation] at hserves
    obtain rfl := onDisk_fopen ht hlocation
    have hfile : c.disk request.filename = some file := by
      rw [hserves, requestOf_filenameDatagram]
      exact hasks.disk
    rw [hfile]
    cases allocated with
    | false => trivial
    | true =>
      rw [hserves]
      simp only [Process.enterTurn, hfresh]
      exact enterSendDataAt_serves c file heap
  | send session s t hlocation =>
    rw [hlocation] at hserves
    have hnext := hserves.sendTurn hasks t
    simp only [Process.stay, Process.sendTurn]
    split
    · trivial
    · trivial
    · trivial
    · exact hnext
  | stay t _ => exact hserves

end Server

section Sends

variable {c : SystemSetup} {file d : List UInt8} {k : Socket} {p : Process} {t : ProcessTurn}
  {source dest : SockAddr}

/-- Before it sends data a child sends handshake PDUs, to the client it answers. -/
theorem childTurn_sends {openable : List UInt8 → Bool} {child : Child} {t : ChildTurn} {m : Sendto}
    (hphase : child.phase ≠ .sendData)
    (hm : m ∈ (childTurn openable child t).sent.drop child.sent.length) :
    m.dest = child.client ∧ flagOf m.pdu ≠ 16 := by
  have hflag : ∀ flag, flagOf (sealHandshake (makeHandshake flag)) = flag := fun _ => rfl
  have hnone : m ∉ child.sent.drop child.sent.length := by
    rw [List.drop_length]
    exact List.not_mem_nil
  have hlast : ∀ (flag : UInt8) (result : Int), flag ≠ 16 →
      m ∈ (child.sendto (sealHandshake (makeHandshake flag)) result).sent.drop child.sent.length →
      m.dest = child.client ∧ flagOf m.pdu ≠ 16 := by
    intro flag result hne hmem
    rw [Child.sendto, List.drop_left, List.mem_singleton] at hmem
    rw [hmem]
    exact ⟨rfl, (hflag flag).trans_ne hne⟩
  cases hchild : child.phase with
  | started =>
    simp only [childTurn, hchild] at hm
    exact hlast 33 t.sent (by decide) hm
  | getFilename =>
    simp only [childTurn, hchild, doGetFilenameState] at hm
    by_cases hopen : openable child.filename = true
    · rw [if_pos hopen] at hm
      exact hlast 9 t.sent (by decide) hm
    · rw [if_neg hopen] at hm
      exact hlast 32 t.sent (by decide) hm
  | validSent bytesSent =>
    simp only [childTurn, hchild] at hm
    exact absurd hm hnone
  | awaitAck retries =>
    simp only [childTurn, hchild, awaitAckTurn] at hm
    split_ifs at hm
    · cases hpoll : t.poll <;> simp only [hpoll] at hm <;> exact absurd hm hnone
    · exact absurd hm hnone
  | sendData => exact absurd hchild hphase
  | done =>
    simp only [childTurn, hchild] at hm
    exact absurd hm hnone

/-- What a process sends goes to the client of its request, unless that has changed while
it waited for an answer to an error; and all but the data has another flag. -/
theorem mem_sends (hd : (source, dest, d) ∈ p.sends k t) :
    source = k.addr ∧ ((p.location.client = some dest ∧ flagOf d ≠ 16) ∨
      ∃ session s t', p.location = .doSendDataState session s ∧ k.client = some dest ∧
        d ∈ (Rcopy.sendTurn session s t').delivered) := by
  unfold Process.sends at hd
  split at hd
  · next request child openable t hlocation =>
    split_ifs at hd with hphase
    · cases hd
    · obtain ⟨hsource, m, hm, -, rfl, rfl⟩ := mem_filterMap_datagram.mp hd
      obtain ⟨hdest, hflag⟩ := childTurn_sends hphase hm
      refine ⟨hsource, Or.inl ⟨?_, hflag⟩⟩
      rw [hlocation, hdest]
      rfl
  · next session s t hlocation =>
    cases hclient : k.client with
    | none =>
      rw [hclient] at hd
      cases hd
    | some client =>
      rw [hclient] at hd
      obtain ⟨d', hd', heq⟩ := List.mem_map.mp hd
      obtain ⟨rfl, rfl, rfl⟩ := Prod.mk.inj heq |>.imp_right Prod.mk.inj
      exact ⟨rfl, Or.inr ⟨session, s, t, hlocation, rfl, List.mem_of_mem_drop hd'⟩⟩
  · cases hd

/-- Data from a process that serves rcopy is of the file. -/
theorem Process.Serves.ofFile (h : p.Serves c file) (hasks : Asks c file)
    (hd : (source, dest, d) ∈ p.sends k t) (hflag : flagOf d = 16) : OfFile c file d := by
  rcases (mem_sends hd).2 with ⟨-, hother⟩ | ⟨session, s, t, hlocation, -, hdata⟩
  · exact absurd hflag hother
  · have hserves := h.location
    rw [hlocation] at hserves
    obtain ⟨rfl, hidle | ⟨hmod, hsends⟩⟩ := hserves.sendTurn hasks t
    · rw [SendData.delivered, hidle.sent] at hdata
      cases hdata
    · have hpacket := hsends.packets.isPacket hdata
      have hfirst : firstWindow c.params.windowSize - 1 = c.params.windowSize % 65536 := by
        rw [firstWindow, if_neg hmod]
        omega
      rw [Asks.windowSize, ← hfirst] at hpacket
      exact ⟨hpacket, hsends.delivered hdata⟩

end Sends

/-! ## The processes of the server -/

/-- The main server takes requests, and other processes have clients of their own or
serve rcopy. -/
structure Process.Attends (c : SystemSetup) (file : List UInt8) (i : ℕ) (k : Socket) (p : Process) :
    Prop where
  root : i = 0 → p.Parent ∧ p.main.buffer.length = 114
  serves : k.client = some c.clientAddr → p.Serves c file
  others : k.client ≠ some c.clientAddr → p.location.client ≠ some c.clientAddr

section Processes

variable {c : SystemSetup} {file d : List UInt8} {k : Socket} {p q : Process} {t : ProcessTurn}
  {network : List (SockAddr × SockAddr × List UInt8)} {client addr : SockAddr} {i : ℕ}

theorem onDisk_fromHosts (disk : List UInt8 → Option (List UInt8)) (p : Process) :
    (t.onDisk disk p).FromHosts network client addr ↔ t.FromHosts network client addr := by
  cases t with
  | fopen opened allocated heap =>
    simp only [ProcessTurn.onDisk]
    split <;> exact Iff.rfl
  | _ => exact Iff.rfl

theorem childTurn_client (openable : List UInt8 → Bool) (child : Child) (t : ChildTurn) :
    (childTurn openable child t).client = child.client ∨
      ∃ d, t.poll = .received (childTurn openable child t).client d := by
  cases hchild : child.phase with
  | started =>
    left
    simp only [childTurn, hchild, Child.sendto]
  | getFilename =>
    left
    simp only [childTurn, hchild, doGetFilenameState]
    split_ifs <;> rfl
  | validSent bytesSent =>
    left
    simp only [childTurn, hchild]
  | awaitAck retries =>
    simp only [childTurn, hchild, awaitAckTurn]
    split_ifs
    · cases hpoll : t.poll with
      | received source d => exact Or.inr ⟨d, rfl⟩
      | _ => exact Or.inl rfl
    · exact Or.inl rfl
  | sendData =>
    left
    simp only [childTurn, hchild, Child.sendto]
  | done =>
    left
    simp only [childTurn, hchild]

/-- A turn forks nothing, or the child for a request that has just been received. -/
theorem Process.turn_forked_cases (p : Process) (t : ProcessTurn) :
    (p.turn t).forked = [] ∨
      ∃ source d request q, p.location = .main ∧ t = .main (.received source d) true ∧
        (mainTurn p.main.buffer d).2 = some request ∧ (p.turn t).forked = [q] ∧
        q.location = .startFSM request ⟨source, request.filename, [], .started⟩ := by
  have hstep := p.turn_cases t
  generalize p.turn t = advanced at hstep
  cases hstep with
  | accept poll forked hlocation =>
    cases poll with
    | timeout => exact Or.inl rfl
    | recvFailed => exact Or.inl rfl
    | received source d =>
      simp only [Process.acceptTurn]
      split
      · next request _ hrequest =>
        cases forked with
        | false => exact Or.inl rfl
        | true => exact Or.inr ⟨source, d, request, _, hlocation, rfl, hrequest, rfl, rfl⟩
      · exact Or.inl rfl
  | child _ _ _ _ _ _ => exact Or.inl rfl
  | fopen _ _ _ _ _ _ _ => exact Or.inl rfl
  | send _ _ _ _ => exact Or.inl rfl
  | stay _ _ => exact Or.inl rfl

theorem Process.Parent.turn_buffer (h : p.Parent) (hbuffer : p.main.buffer.length = 114)
    (t : ProcessTurn) : (p.turn t).process.main.buffer.length = 114 := by
  have hmain := h.location
  have hstep := p.turn_cases t
  generalize p.turn t = advanced at hstep
  cases hstep with
  | accept poll forked hlocation =>
    cases poll with
    | timeout => exact mainLoopTurn_length _ hbuffer
    | recvFailed => exact mainLoopTurn_length _ hbuffer
    | received source d =>
      simp only [Process.acceptTurn]
      split <;> exact mainLoopTurn_length _ hbuffer
  | child _ _ _ _ hlocation _ => cases hmain.symm.trans hlocation
  | fopen _ _ _ _ _ hlocation _ => cases hmain.symm.trans hlocation
  | send _ _ _ hlocation => cases hmain.symm.trans hlocation
  | stay _ _ => exact hbuffer

/-- A child takes another client only from a datagram. -/
theorem Process.turn_client (h : (p.turn t).process.location.client = some client)
    (hold : p.location.client ≠ some client) :
    ∃ request child openable t' d, p.location = .startFSM request child ∧
      t = .child openable t' ∧ t'.poll = .received client d := by
  have hstep := p.turn_cases t
  generalize p.turn t = advanced at hstep h
  cases hstep with
  | accept poll forked hlocation =>
    rw [p.acceptTurn_location] at h
    exact absurd h hold
  | child request child openable t hlocation _ =>
    simp only [Process.stay, Process.childTurn] at h
    split_ifs at h
    · cases h
    · rcases childTurn_client openable child t with hsame | ⟨d, hpoll⟩
      · rw [hlocation] at hold
        exact absurd ((congrArg some hsame).symm.trans h) hold
      · rw [Option.some.inj h] at hpoll
        exact ⟨request, child, openable, t, d, hlocation, rfl, hpoll⟩
  | fopen request child opened allocated heap hlocation _ =>
    simp only [Process.enterTurn] at h
    split at h <;> cases h
  | send session s t hlocation =>
    simp only [Process.stay, Process.sendTurn] at h
    split at h <;> cases h
  | stay _ _ => exact absurd h hold

end Processes

end Rcopy
