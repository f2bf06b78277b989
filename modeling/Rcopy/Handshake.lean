import Rcopy.ClientHandshake
import Rcopy.DataPdu
import Rcopy.MainServer

/-!
# The filename handshake

One rcopy, the server's main loop and the children it forks, one for every filename
PDU that reaches it. The network may deliver every datagram any number of times, in
any order, or never: a process receives anything that has ever been sent to it.

The disk of the server does not change, and is not the one that rcopy writes to.
-/

namespace Rcopy

open Bytes

/-- Where a child of the server is in `startFSM` and `doGetFilenameState`. -/
inductive ChildPhase
  | started
  | getFilename
  | validSent (bytesSent : Int)
  | awaitAck (retries : ℕ)
  | sendData
  | done
deriving DecidableEq

structure Child where
  client : SockAddr
  filename : List UInt8
  sent : List Sendto
  phase : ChildPhase
deriving DecidableEq

/-- The results of the system calls of a turn, and the data PDU that
`doSendDataState` sends in it. -/
structure ChildTurn where
  poll : Poll
  sent : Int
  seq : UInt32
  checksum : UInt16
  payload : List UInt8

def Child.sendto (c : Child) (pdu : List UInt8) (result : Int) : Child :=
  { c with sent := c.sent ++ [⟨c.client, pdu, result⟩] }

def doGetFilenameState (openable : List UInt8 → Bool) (c : Child) (t : ChildTurn) : Child :=
  if openable c.filename then
    { c.sendto (sealHandshake makeVALIDFilenameACKBeforeChecksum) t.sent with
      phase := .validSent t.sent }
  else
    { c.sendto (sealHandshake makeERRORFilenameACKBeforeChecksum) t.sent with
      phase := if t.sent < 0 then .done else .awaitAck 0 }

/-- The loop in `doGetFilenameState` that waits for the client's answer to an error. -/
def awaitAckTurn (c : Child) (retries : ℕ) (t : ChildTurn) : Child :=
  if retries < 10 then
    match t.poll with
    | .received source d =>
      { c with client := source, phase := if d = [] then .awaitAck (retries + 1) else .done }
    | _ => { c with phase := .awaitAck (retries + 1) }
  else { c with phase := .done }

def childTurn (openable : List UInt8 → Bool) (c : Child) (t : ChildTurn) : Child :=
  match c.phase with
  -- a failed send sets the state to `DONE`, and the next line sets it to `GET_FILENAME`
  | .started =>
    { c.sendto (sealHandshake makeTalkHereNowBeforeChecksum) t.sent with phase := .getFilename }
  | .getFilename => doGetFilenameState openable c t
  | .validSent bytesSent => { c with phase := if bytesSent < 0 then .done else .sendData }
  | .awaitAck retries => awaitAckTurn c retries t
  | .sendData => c.sendto (dataPdu t.seq t.checksum t.payload) t.sent
  | .done => c

/-- The addresses of the sockets, pairwise apart as far as the main server is
concerned, and the files that `fopen` opens on the server. -/
structure HandshakeSetup where
  params : RcopyParams
  host : BitVec 128
  clientAddr : SockAddr
  childAddr : ℕ → SockAddr
  openable : List UInt8 → Bool
  client_ne_main : clientAddr ≠ mainServer params host
  child_ne_main : ∀ i, childAddr i ≠ mainServer params host
  child_ne_client : ∀ i, childAddr i ≠ clientAddr

def HandshakeSetup.mainAddr (h : HandshakeSetup) : SockAddr := mainServer h.params h.host

structure Handshake where
  client : ClientMain
  main : MainServer
  children : List Child

inductive HandshakeTurn
  | client (t : ClientTurn)
  | main (poll : Poll) (forked : Bool)
  | child (i : ℕ) (t : ChildTurn)

def Sendto.datagram (source : SockAddr) (m : Sendto) : Option (SockAddr × SockAddr × List UInt8) :=
  if 0 ≤ m.result then some (source, m.dest, m.pdu) else none

def Handshake.fromChildren (h : HandshakeSetup) (s : Handshake) :
    List (SockAddr × SockAddr × List UInt8) :=
  s.children.zipIdx.flatMap fun (c, i) => c.sent.filterMap (Sendto.datagram (h.childAddr i))

def Handshake.network (h : HandshakeSetup) (s : Handshake) :
    List (SockAddr × SockAddr × List UInt8) :=
  s.client.sent.filterMap (Sendto.datagram h.clientAddr) ++ s.fromChildren h

/-- A poll at `dest` brings only what has been sent there. -/
def Poll.Brings (poll : Poll) (network : List (SockAddr × SockAddr × List UInt8))
    (dest : SockAddr) : Prop :=
  match poll with
  | .received source d => (source, dest, d) ∈ network
  | _ => True

instance (poll : Poll) (network : List (SockAddr × SockAddr × List UInt8)) (dest : SockAddr) :
    Decidable (poll.Brings network dest) :=
  match poll with
  | .received source d => inferInstanceAs (Decidable ((source, dest, d) ∈ network))
  | .timeout => inferInstanceAs (Decidable True)
  | .recvFailed => inferInstanceAs (Decidable True)

/-- The child that `startFSM` forks, if `fork` succeeds. -/
def startFSM (children : List Child) (request : Request) (client : SockAddr) (forked : Bool) :
    List Child :=
  if forked then children ++ [⟨client, request.filename, [], .started⟩] else children

def acceptTurn (s : Handshake) (poll : Poll) (forked : Bool) : Handshake :=
  match poll with
  | .timeout => { s with main := mainLoopTurn s.main .pollFailed }
  | .recvFailed => { s with main := mainLoopTurn s.main .recvFailed }
  | .received source d =>
    { s with
      main := mainLoopTurn s.main (.received d)
      children :=
        match s.main.exited, (mainTurn s.main.buffer d).2 with
        | false, some request => startFSM s.children request source forked
        | _, _ => s.children }

def handshakeTurn (h : HandshakeSetup) (s : Handshake) : HandshakeTurn → Handshake
  | .client t =>
    if t.poll.Brings (s.network h) h.clientAddr then
      { s with client := clientTurn h.params s.client t }
    else s
  | .main poll forked =>
    if poll.Brings (s.network h) h.mainAddr then acceptTurn s poll forked else s
  | .child i t =>
    match s.children[i]? with
    | some c =>
      if t.poll.Brings (s.network h) (h.childAddr i) then
        { s with children := s.children.set i (childTurn h.openable c t) }
      else s
    | none => s

section Network

variable {h : HandshakeSetup} {s : Handshake} {source dest : SockAddr} {d : List UInt8}

def Sendto.Carries (m : Sendto) (dest : SockAddr) (d : List UInt8) : Prop :=
  0 ≤ m.result ∧ m.dest = dest ∧ m.pdu = d

theorem mem_filterMap_datagram {addr : SockAddr} {l : List Sendto} :
    (source, dest, d) ∈ l.filterMap (Sendto.datagram addr) ↔
      source = addr ∧ ∃ m ∈ l, m.Carries dest d := by
  rw [List.mem_filterMap]
  constructor
  · rintro ⟨m, hm, hd⟩
    simp only [Sendto.datagram] at hd
    split_ifs at hd with hres
    obtain ⟨rfl, rfl, rfl⟩ := Prod.mk.inj (Option.some.inj hd) |>.imp_right Prod.mk.inj
    exact ⟨rfl, m, hm, hres, rfl, rfl⟩
  · rintro ⟨rfl, m, hm, hres, rfl, rfl⟩
    exact ⟨m, hm, if_pos hres⟩

theorem mem_fromChildren :
    (source, dest, d) ∈ s.fromChildren h ↔
      ∃ i c, s.children[i]? = some c ∧ source = h.childAddr i ∧ ∃ m ∈ c.sent, m.Carries dest d := by
  simp only [Handshake.fromChildren, List.mem_flatMap, Prod.exists,
    List.mem_zipIdx_iff_getElem?, mem_filterMap_datagram]
  exact exists_comm

theorem mem_network :
    (source, dest, d) ∈ s.network h ↔
      (source = h.clientAddr ∧ ∃ m ∈ s.client.sent, m.Carries dest d) ∨
      (source, dest, d) ∈ s.fromChildren h := by
  rw [Handshake.network, List.mem_append, mem_filterMap_datagram]

end Network

/-! ## What the children have sent -/

/-- The 9 has been sent, and `doGetFilenameState` returns `SEND_DATA`. -/
def ChildPhase.Serving (phase : ChildPhase) : Prop :=
  phase = .sendData ∨ ∃ bytesSent, phase = .validSent bytesSent ∧ 0 ≤ bytesSent

def ChildPhase.Early (phase : ChildPhase) : Prop := phase = .started ∨ phase = .getFilename

structure ChildSent (h : HandshakeSetup) (c : Child) (m : Sendto) : Prop where
  dest : m.dest = h.clientAddr
  length : 7 ≤ m.pdu.length
  valid : flagOf m.pdu = 9 → h.openable c.filename = true ∧ (0 ≤ m.result → c.phase.Serving)
  invalid : flagOf m.pdu = 32 → h.openable c.filename = false

structure ChildServes (h : HandshakeSetup) (c : Child) : Prop where
  filename : c.filename = h.params.srcFilename.take 100
  client : c.phase ≠ .done → c.client = h.clientAddr
  early : c.phase.Early → ∀ m ∈ c.sent, flagOf m.pdu ≠ 9
  sent : ∀ m ∈ c.sent, ChildSent h c m

section Children

variable {h : HandshakeSetup} {c : Child} {t : ChildTurn} {phase : ChildPhase}

theorem ChildServes.moved {client : SockAddr} (hc : ChildServes h c)
    (hclient : phase ≠ .done → client = h.clientAddr) (hearly : ¬phase.Early)
    (hserving : c.phase.Serving → phase.Serving) :
    ChildServes h { c with client := client, phase := phase } := by
  refine ⟨hc.filename, hclient, fun he => absurd he hearly, ?_⟩
  intro m hm
  have hsent := hc.sent m hm
  exact ⟨hsent.dest, hsent.length,
    fun hf => ⟨(hsent.valid hf).1, fun hr => hserving ((hsent.valid hf).2 hr)⟩, hsent.invalid⟩

theorem ChildServes.sends {pdu : List UInt8} {result : Int} (hc : ChildServes h c)
    (hrun : c.phase ≠ .done) (hlen : 7 ≤ pdu.length)
    (hvalid : flagOf pdu = 9 →
      h.openable c.filename = true ∧ ¬phase.Early ∧ (0 ≤ result → phase.Serving))
    (hinvalid : flagOf pdu = 32 → h.openable c.filename = false)
    (hearly : phase.Early → c.phase.Early) (hserving : c.phase.Serving → phase.Serving) :
    ChildServes h { c.sendto pdu result with phase := phase } := by
  refine ⟨hc.filename, fun _ => hc.client hrun, ?_, ?_⟩
  · intro he m hm
    rcases List.mem_append.mp hm with hold | hnew
    · exact hc.early (hearly he) m hold
    · rw [List.mem_singleton.mp hnew]
      exact fun hf => (hvalid hf).2.1 he
  · intro m hm
    rcases List.mem_append.mp hm with hold | hnew
    · have hsent := hc.sent m hold
      exact ⟨hsent.dest, hsent.length,
        fun hf => ⟨(hsent.valid hf).1, fun hr => hserving ((hsent.valid hf).2 hr)⟩, hsent.invalid⟩
    · rw [List.mem_singleton.mp hnew]
      exact ⟨hc.client hrun, hlen, fun hf => ⟨(hvalid hf).1, (hvalid hf).2.2⟩, hinvalid⟩

theorem ChildServes.sends_other {pdu : List UInt8} {result : Int} (hc : ChildServes h c)
    (hrun : c.phase ≠ .done) (hlen : 7 ≤ pdu.length) (hvalid : flagOf pdu ≠ 9)
    (hinvalid : flagOf pdu ≠ 32) (hearly : phase.Early → c.phase.Early)
    (hserving : c.phase.Serving → phase.Serving) :
    ChildServes h { c.sendto pdu result with phase := phase } :=
  hc.sends hrun hlen (fun hf => absurd hf hvalid) (fun hf => absurd hf hinvalid) hearly hserving

theorem not_serving_of_early (he : phase.Early) : ¬phase.Serving := by
  rintro (hs | ⟨_, hs, -⟩) <;> rcases he with he | he <;> rw [he] at hs <;> cases hs

theorem doGetFilenameState_serves (hc : ChildServes h c) (hphase : c.phase = .getFilename) :
    ChildServes h (doGetFilenameState h.openable c t) := by
  have hrun : c.phase ≠ .done := by
    rw [hphase]
    decide
  have hserving : ¬c.phase.Serving := not_serving_of_early (Or.inr hphase)
  have hflag : ∀ flag, flagOf (sealHandshake (makeHandshake flag)) = flag := fun _ => rfl
  rw [doGetFilenameState]
  by_cases hopen : h.openable c.filename = true
  · rw [if_pos hopen]
    refine hc.sends hrun le_rfl (fun _ => ⟨hopen, ?_, ?_⟩) ?_ (fun _ => Or.inr hphase)
      (fun hs => absurd hs hserving)
    · rintro (he | he) <;> cases he
    · exact fun hr => Or.inr ⟨_, rfl, hr⟩
    · rw [makeVALIDFilenameACKBeforeChecksum, hflag]
      exact fun hf => absurd hf (by decide)
  · rw [if_neg hopen]
    refine hc.sends hrun le_rfl ?_ (fun _ => Bool.not_eq_true _ ▸ hopen) (fun _ => Or.inr hphase)
      (fun hs => absurd hs hserving)
    rw [makeERRORFilenameACKBeforeChecksum, hflag]
    exact fun hf => absurd hf (by decide)

theorem awaitAckTurn_serves (hc : ChildServes h c) {retries : ℕ}
    (hphase : c.phase = .awaitAck retries)
    (hpoll : ∀ source d, t.poll = .received source d → source = h.clientAddr) :
    ChildServes h (awaitAckTurn c retries t) := by
  have hserving : ¬c.phase.Serving := by
    rw [hphase]
    rintro (hs | ⟨_, hs, -⟩) <;> cases hs
  have hclient := hc.client (by rw [hphase]; simp)
  have hwait : ∀ n, ¬(ChildPhase.awaitAck n).Early := by
    rintro n (he | he) <;> cases he
  have hdone : ¬ChildPhase.done.Early := by
    rintro (he | he) <;> cases he
  rw [awaitAckTurn]
  split_ifs
  · cases hp : t.poll with
    | timeout => exact hc.moved (fun _ => hclient) (hwait _) fun hs => absurd hs hserving
    | recvFailed => exact hc.moved (fun _ => hclient) (hwait _) fun hs => absurd hs hserving
    | received source d =>
      refine hc.moved (fun _ => hpoll source d hp) ?_ fun hs => absurd hs hserving
      split_ifs
      · exact hwait _
      · exact hdone
  · exact hc.moved (fun _ => hclient) hdone fun hs => absurd hs hserving

theorem childTurn_serves (hc : ChildServes h c)
    (hpoll : ∀ source d, t.poll = .received source d → source = h.clientAddr) :
    ChildServes h (childTurn h.openable c t) := by
  cases hphase : c.phase with
  | started =>
    have hrun : c.phase ≠ .done := by
      rw [hphase]
      decide
    have hflag : flagOf (sealHandshake makeTalkHereNowBeforeChecksum) = 33 := rfl
    simp only [childTurn, hphase]
    refine hc.sends_other hrun le_rfl ?_ ?_ (fun _ => Or.inl hphase) ?_
    · rw [hflag]
      decide
    · rw [hflag]
      decide
    · exact fun hs => absurd hs (not_serving_of_early (Or.inl hphase))
  | getFilename =>
    simp only [childTurn, hphase]
    exact doGetFilenameState_serves hc hphase
  | validSent bytesSent =>
    simp only [childTurn, hphase]
    refine hc.moved (fun _ => hc.client (by rw [hphase]; simp)) ?_ ?_
    · split_ifs <;> rintro (he | he) <;> cases he
    · rw [hphase]
      rintro (hs | ⟨b, hs, hb⟩)
      · cases hs
      · cases hs
        rw [if_neg (not_lt.mpr hb)]
        exact Or.inl rfl
  | awaitAck retries =>
    simp only [childTurn, hphase]
    exact awaitAckTurn_serves hc hphase hpoll
  | sendData =>
    have hrun : c.phase ≠ .done := by
      rw [hphase]
      decide
    have hflag := flagOf_dataPdu t.seq t.checksum t.payload
    have hsame : childTurn h.openable c t =
        { c.sendto (dataPdu t.seq t.checksum t.payload) t.sent with phase := c.phase } := by
      simp only [childTurn, hphase, Child.sendto]
    rw [hsame]
    refine hc.sends_other hrun ?_ ?_ ?_ id id
    · rw [length_dataPdu]
      omega
    · rw [hflag]
      decide
    · rw [hflag]
      decide
  | done =>
    simp only [childTurn, hphase]
    exact hc

theorem childTurn_sent_grows (openable : List UInt8 → Bool) (c : Child) (t : ChildTurn) :
    c.sent <+: (childTurn openable c t).sent := by
  cases hphase : c.phase with
  | started => simp [childTurn, hphase, Child.sendto]
  | getFilename =>
    simp only [childTurn, hphase, doGetFilenameState]
    split_ifs <;> simp [Child.sendto]
  | validSent bytesSent => simp [childTurn, hphase]
  | awaitAck retries =>
    simp only [childTurn, hphase, awaitAckTurn]
    split_ifs
    · cases t.poll <;> simp
    · simp
  | sendData => simp [childTurn, hphase, Child.sendto]
  | done => simp [childTurn, hphase]

end Children

/-! ## What the client has received -/

/-- The client sends to no one but the servers, and only requests to the main one. -/
structure Addressed (h : HandshakeSetup) (s : ClientMain) : Prop where
  server : s.server ≠ h.clientAddr
  dests : ∀ m ∈ s.sent, m.dest ≠ h.clientAddr
  requests : ∀ m ∈ s.sent, m.dest = h.mainAddr → ∃ beyond, m.pdu = filenameDatagram h.params beyond

structure Answered (h : HandshakeSetup) (s : ClientMain) : Prop where
  addressed : Addressed h s
  talked : ∀ r, s.phase = .awaitValid r → s.destFile = some [] ∧ ∃ m ∈ s.received, flagOf m.2 = 33
  getData : s.phase = .getData → s.destFile = some [] ∧
    ∃ before last, s.received = before ++ [last] ∧ (∃ m ∈ before, flagOf m.2 = 33) ∧
      flagOf last.2 = 9

/-- What the network brings to the client comes from a child and has a header. -/
def FromChild (h : HandshakeSetup) (poll : Poll) : Prop :=
  ∀ source d, poll = .received source d →
    source ≠ h.clientAddr ∧ source ≠ h.mainAddr ∧ 7 ≤ d.length

section Client

variable {h : HandshakeSetup} {s s' : ClientMain} {t : ClientTurn}

theorem flagOf_recvInto {buffer d : List UInt8} (hd : 7 ≤ d.length) :
    flagOf (recvInto buffer 7 d) = flagOf d := by
  have hlen : 7 ≤ (d.take 7).length := by
    rw [List.length_take]
    omega
  rw [recvInto, memcpy_zero, flagOf_append _ hlen, flagOf_take le_rfl]

theorem Addressed.sendto (hs : Addressed h s) (pdu : List UInt8) (result : Int)
    (hpdu : s.server = h.mainAddr → ∃ beyond, pdu = filenameDatagram h.params beyond) :
    Addressed h (s.sendto pdu result) := by
  refine ⟨hs.server, ?_, ?_⟩
  · intro m hm
    rcases List.mem_append.mp hm with hold | hnew
    · exact hs.dests m hold
    · rw [List.mem_singleton.mp hnew]
      exact hs.server
  · intro m hm hdest
    rcases List.mem_append.mp hm with hold | hnew
    · exact hs.requests m hold hdest
    · rw [List.mem_singleton.mp hnew] at hdest ⊢
      exact hpdu hdest

theorem Addressed.polled (hs : Addressed h s) {poll : Poll} (hpoll : FromChild h poll) :
    Addressed h (s.polled poll) := by
  cases poll with
  | timeout => exact hs
  | recvFailed => exact hs
  | received source d => exact ⟨(hpoll source d rfl).1, hs.dests, hs.requests⟩

theorem Addressed.request (hs : Addressed h s) (n : ℕ) (t : ClientTurn) :
    Answered h (s.request h.params n t) := by
  have hsent := hs.sendto (filenameDatagram h.params t.beyond) t.sent fun _ => ⟨_, rfl⟩
  refine ⟨⟨hsent.server, hsent.dests, hsent.requests⟩, ?_, ?_⟩
  · intro r hr
    simp only [ClientMain.request] at hr
    split_ifs at hr
  · intro hget
    simp only [ClientMain.request] at hget
    split_ifs at hget

theorem Answered.ended (hs : Addressed h s) (hphase : s.phase = .done) : Answered h s := by
  refine ⟨hs, ?_, ?_⟩
  · intro r hr
    rw [hphase] at hr
    cases hr
  · intro hget
    rw [hphase] at hget
    cases hget

theorem ClientMain.received_polled (s : ClientMain) (poll : Poll) {m : SockAddr × List UInt8}
    (hm : m ∈ (s.polled poll).received) : m ∈ s.received ∨ poll = .received m.1 m.2 := by
  cases poll with
  | timeout => exact Or.inl hm
  | recvFailed => exact Or.inl hm
  | received source d =>
    rcases List.mem_append.mp hm with hold | hnew
    · exact Or.inl hold
    · rw [List.mem_singleton.mp hnew]
      exact Or.inr rfl

theorem ClientMain.received_of_polled (s : ClientMain) (poll : Poll) {m : SockAddr × List UInt8}
    (hm : m ∈ s.received) : m ∈ (s.polled poll).received := by
  cases poll with
  | timeout => exact hm
  | recvFailed => exact hm
  | received source d => exact List.mem_append_left _ hm

theorem ClientMain.polled_destFile (s : ClientMain) (poll : Poll) :
    (s.polled poll).destFile = s.destFile := by
  cases poll <;> rfl

theorem ClientStep.received_mem (hstep : ClientStep h.params s t s') {m : SockAddr × List UInt8}
    (hm : m ∈ s'.received) : m ∈ s.received ∨ t.poll = .received m.1 m.2 := by
  have hpolled := fun hm => s.received_polled t.poll (m := m) hm
  cases hstep with
  | ended n _ => exact Or.inl hm
  | resent n _ _ => exact Or.inl hm
  | refused n _ source d hpoll =>
    rw [hpoll] at hpolled ⊢
    exact hpolled hm
  | redirected n _ source d hpoll _ =>
    rw [hpoll] at hpolled ⊢
    exact hpolled hm
  | valid r _ source d hpoll _ =>
    rw [hpoll] at hpolled ⊢
    exact hpolled hm
  | invalid r _ source d hpoll _ =>
    rw [hpoll] at hpolled ⊢
    exact hpolled hm
  | retried r _ _ _ => exact hpolled hm
  | gaveUp r _ _ _ =>
    rw [doSendFilenameState_eq] at hm
    exact hpolled hm
  | ignored => exact Or.inl hm

theorem ClientStep.answered (hs : Answered h s) (hstep : ClientStep h.params s t s')
    (hpoll : FromChild h t.poll) : Answered h s' := by
  have hpolled := hs.addressed.polled hpoll
  cases hstep with
  | ended n _ => exact .ended ⟨hs.addressed.server, hs.addressed.dests, hs.addressed.requests⟩ rfl
  | resent n _ _ => exact hs.addressed.request _ _
  | refused n _ source d hp =>
    rw [hp] at hpolled
    exact .ended ⟨hpolled.server, hpolled.dests, hpolled.requests⟩ rfl
  | redirected n _ source d hp hflag =>
    rw [hp] at hpolled
    rw [flagOf_recvInto (hpoll source d hp).2.2] at hflag
    refine ⟨⟨hpolled.server, hpolled.dests, hpolled.requests⟩, ?_, fun hget => by cases hget⟩
    intro r _
    exact ⟨rfl, (source, d), List.mem_append_right _ (List.mem_singleton_self _), hflag⟩
  | valid r hphase source d hp hflag =>
    obtain ⟨hdest, htalk⟩ := hs.talked r hphase
    rw [hp] at hpolled
    rw [flagOf_recvInto (hpoll source d hp).2.2] at hflag
    refine ⟨⟨hpolled.server, hpolled.dests, hpolled.requests⟩, ?_, ?_⟩
    · intro r' hr'
      cases hr'
    · intro _
      exact ⟨hdest, s.received, (source, d), rfl, htalk, hflag⟩
  | invalid r _ source d hp _ =>
    obtain ⟨-, hmain, -⟩ := hpoll source d hp
    rw [hp] at hpolled
    have hsent := hpolled.sendto (sealHandshake (makeFilenameACKBeforeChecksum 33)) t.sent
      fun hserver => absurd hserver hmain
    exact .ended ⟨hsent.server, hsent.dests, hsent.requests⟩ rfl
  | retried r hphase _ _ =>
    obtain ⟨hdest, m, hm, hflag⟩ := hs.talked r hphase
    refine ⟨⟨hpolled.server, hpolled.dests, hpolled.requests⟩, ?_, fun hget => by cases hget⟩
    intro _ _
    exact ⟨(s.polled_destFile t.poll).trans hdest, m, s.received_of_polled t.poll hm, hflag⟩
  | gaveUp r _ _ _ =>
    have hs' : Addressed h { s.polled t.poll with recvBuffer := uninit t.stack 7 } :=
      ⟨hpolled.server, hpolled.dests, hpolled.requests⟩
    rw [doSendFilenameState_eq]
    exact hs'.request 0 t
  | ignored => exact hs

end Client

/-! ## Runs of all of them -/

structure Handshaken (h : HandshakeSetup) (s : Handshake) : Prop where
  client : Answered h s.client
  children : ∀ c ∈ s.children, ChildServes h c
  buffer : s.main.buffer.length = 114
  received : ∀ m ∈ s.client.received, (m.1, h.clientAddr, m.2) ∈ s.fromChildren h

section Both

variable {h : HandshakeSetup} {s : Handshake}

theorem Handshaken.fromChild (hs : Handshaken h s) {poll : Poll}
    (hpoll : poll.Brings (s.network h) h.clientAddr) : FromChild h poll := by
  rintro source d rfl
  rcases mem_network.mp hpoll with ⟨-, m, hm, -, hto, -⟩ | hchild
  · exact absurd hto (hs.client.addressed.dests m hm)
  · obtain ⟨i, c, hc, rfl, m, hm, -, -, hpdu⟩ := mem_fromChildren.mp hchild
    have hsent := (hs.children c (List.mem_of_getElem? hc)).sent m hm
    exact ⟨h.child_ne_client i, h.child_ne_main i, by rw [← hpdu]; exact hsent.length⟩

theorem Handshaken.fromClient (hs : Handshaken h s) {source dest : SockAddr} {d : List UInt8}
    (hd : (source, dest, d) ∈ s.network h) (hdest : dest ≠ h.clientAddr) :
    source = h.clientAddr ∧ ∃ m ∈ s.client.sent, m.Carries dest d := by
  rcases mem_network.mp hd with hclient | hchild
  · exact hclient
  · obtain ⟨i, c, hc, -, m, hm, -, hto, -⟩ := mem_fromChildren.mp hchild
    have hsent := (hs.children c (List.mem_of_getElem? hc)).sent m hm
    exact absurd (hto.symm.trans hsent.dest) hdest

theorem Handshaken.clientStep (hs : Handshaken h s) {t : ClientTurn}
    (hpoll : t.poll.Brings (s.network h) h.clientAddr) :
    Handshaken h { s with client := clientTurn h.params s.client t } := by
  have hstep := clientTurn_step h.params s.client t
  refine ⟨hstep.answered hs.client (hs.fromChild hpoll), hs.children, hs.buffer, ?_⟩
  intro m hm
  rcases hstep.received_mem hm with hold | hnew
  · exact hs.received m hold
  · rw [hnew] at hpoll
    rcases mem_network.mp hpoll with ⟨-, o, ho, -, hto, -⟩ | hchild
    · exact absurd hto (hs.client.addressed.dests o ho)
    · exact hchild

theorem Handshaken.startFSM (hs : Handshaken h s) {d : List UInt8} (forked : Bool) {request : Request}
    (hd : (h.clientAddr, h.mainAddr, d) ∈ s.network h)
    (hturn : (mainTurn s.main.buffer d).2 = some request) :
    (∀ c ∈ startFSM s.children request h.clientAddr forked, ChildServes h c) ∧
      s.children <+: startFSM s.children request h.clientAddr forked := by
  obtain ⟨-, m, hm, -, hto, hpdu⟩ := hs.fromClient hd h.client_ne_main.symm
  obtain ⟨beyond, hrequest⟩ := hs.client.addressed.requests m hm hto
  rw [← hpdu, hrequest, mainTurn_filenameDatagram _ _ hs.buffer, requestOf_filenameDatagram,
    Option.some.injEq] at hturn
  rw [Rcopy.startFSM]
  cases forked with
  | false => exact ⟨hs.children, List.prefix_refl _⟩
  | true =>
    refine ⟨?_, List.prefix_append _ _⟩
    intro c hc
    rcases List.mem_append.mp hc with hold | hnew
    · exact hs.children c hold
    · rw [List.mem_singleton.mp hnew, ← hturn]
      refine ⟨rfl, fun _ => rfl, ?_, ?_⟩
      · intro _ m hm
        cases hm
      · intro m hm
        cases hm

theorem mem_fromChildren_set {i : ℕ} {c c' : Child} (hc : s.children[i]? = some c)
    (hsent : c.sent <+: c'.sent) {m : SockAddr × SockAddr × List UInt8}
    (hm : m ∈ s.fromChildren h) :
    m ∈ Handshake.fromChildren h { s with children := s.children.set i c' } := by
  obtain ⟨source, dest, d⟩ := m
  obtain ⟨j, cj, hcj, hsource, o, ho, hcarries⟩ := mem_fromChildren.mp hm
  refine mem_fromChildren.mpr ?_
  by_cases hij : i = j
  · subst hij
    rw [hc] at hcj
    obtain rfl := Option.some.inj hcj
    have hlt := (List.getElem?_eq_some_iff.mp hc).1
    exact ⟨i, c', List.getElem?_set_self hlt, hsource, o, hsent.subset ho, hcarries⟩
  · exact ⟨j, cj, (List.getElem?_set_ne hij).trans hcj, hsource, o, ho, hcarries⟩

theorem Handshaken.childStep (hs : Handshaken h s) {i : ℕ} {c : Child} {t : ChildTurn}
    (hc : s.children[i]? = some c) (hpoll : t.poll.Brings (s.network h) (h.childAddr i)) :
    Handshaken h { s with children := s.children.set i (childTurn h.openable c t) } := by
  refine ⟨hs.client, ?_, hs.buffer, ?_⟩
  · intro c' hc'
    rcases List.mem_or_eq_of_mem_set hc' with hold | rfl
    · exact hs.children c' hold
    · refine childTurn_serves (hs.children c (List.mem_of_getElem? hc)) ?_
      intro source d hp
      rw [hp] at hpoll
      exact (hs.fromClient hpoll (h.child_ne_client i)).1
  · intro m hm
    exact mem_fromChildren_set hc (childTurn_sent_grows _ _ _) (hs.received m hm)

end Both

/-- The main server at port 1, every child at port 5000, and a file that can be opened. -/
def openSetup : HandshakeSetup where
  params := paramsOf digitOne
  host := 0
  clientAddr := ⟨1, 4000⟩
  childAddr := fun _ => ⟨0, 5000⟩
  openable := fun _ => true
  client_ne_main := by decide
  child_ne_main := fun _ => by decide
  child_ne_client := fun _ => by decide

def childTurnOf (poll : Poll) : ChildTurn where
  poll := poll
  sent := 7
  seq := 0
  checksum := 0
  payload := []

end Rcopy
