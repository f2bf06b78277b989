import Rcopy.Handshake

/-!
# The handshake over a lossy network

The parties of the handshake over a network that drops what a given pattern says
and delivers the rest in order, within the second that rcopy waits. The replies 33
and 9 of a child come back to back and are not acknowledged. A handshake survives
the loss of both, but not of one of them.
-/

namespace Rcopy

open Bytes

/-- `lost k 0` says whether the `k`-th filename PDU is dropped, and `lost k (j + 1)`
whether datagram `j` of the child that answers it is. -/
abbrev Losses := ℕ → ℕ → Bool

/-- `socket` is what has arrived at rcopy and is not read yet; every child comes with
the number of its filename PDU. -/
structure LossyHandshake where
  client : ClientMain
  socket : List (SockAddr × List UInt8)
  mainBuffer : List UInt8
  children : List (ℕ × Child)

inductive LossyTurn
  | client (t : ClientTurn)
  | child (i : ℕ) (t : ChildTurn)

def LossyHandshake.arrived (s : LossyHandshake) : List (SockAddr × List UInt8) :=
  s.client.received ++ s.socket

/-- `pollCall` brings what has arrived, and else times out after all that is on its way. -/
def LossyHandshake.poll (s : LossyHandshake) : Poll :=
  match s.socket with
  | [] => .timeout
  | (source, d) :: _ => .received source d

instance (phase : ChildPhase) : Decidable phase.Early :=
  inferInstanceAs (Decidable (phase = .started ∨ phase = .getFilename))

def LossyHandshake.Ready (s : LossyHandshake) : Prop :=
  s.socket ≠ [] ∨ ∀ x ∈ s.children, ¬x.2.phase.Early

instance (s : LossyHandshake) : Decidable s.Ready :=
  inferInstanceAs (Decidable (s.socket ≠ [] ∨ ∀ x ∈ s.children, ¬x.2.phase.Early))

/-- The turn of a client whose sends succeed and whose destination file can be opened. -/
def LossyHandshake.turnOf (s : LossyHandshake) (t : ClientTurn) : ClientTurn :=
  { t with poll := s.poll, sent := 114, opened := true }

/-- The main server receives the `n`-th datagram of rcopy, if that is sent there and
not lost, and forks a child for it. -/
def deliverRequest (h : HandshakeSetup) (lost : Losses) (n : ℕ) (m : Option Sendto)
    (s : LossyHandshake) : LossyHandshake :=
  match m with
  | none => s
  | some m =>
    if m.dest = h.mainAddr ∧ lost n 0 = false then
      match mainTurn s.mainBuffer m.pdu with
      | (buffer, none) => { s with mainBuffer := buffer }
      | (buffer, some request) =>
        { s with
          mainBuffer := buffer
          children := s.children ++ [(n, ⟨h.clientAddr, request.filename, [], .started⟩)] }
    else s

def lossyClientTurn (h : HandshakeSetup) (lost : Losses) (s : LossyHandshake) (t : ClientTurn) :
    LossyHandshake :=
  if s.Ready then
    let client := clientTurn h.params s.client (s.turnOf t)
    deliverRequest h lost s.client.sent.length client.sent[s.client.sent.length]?
      { s with
        client := client
        socket := s.socket.drop (client.received.length - s.client.received.length) }
  else s

/-- What a child sends for the first time in a turn, unless it is lost. -/
def arrives (h : HandshakeSetup) (lost : Losses) (i n : ℕ) (c c' : Child) :
    List (SockAddr × List UInt8) :=
  match c'.sent[c.sent.length]? with
  | none => []
  | some m =>
    if m.dest = h.clientAddr ∧ lost n (c.sent.length + 1) = false then [(h.childAddr i, m.pdu)]
    else []

def lossyChildTurn (h : HandshakeSetup) (lost : Losses) (s : LossyHandshake) (i : ℕ)
    (t : ChildTurn) : LossyHandshake :=
  match s.children[i]? with
  | none => s
  | some (n, c) =>
    let c' := childTurn h.openable c { t with poll := .timeout, sent := 7 }
    { s with
      socket := s.socket ++ arrives h lost i n c c'
      children := s.children.set i (n, c') }

def lossyTurn (h : HandshakeSetup) (lost : Losses) (s : LossyHandshake) :
    LossyTurn → LossyHandshake
  | .client t => lossyClientTurn h lost s t
  | .child i t => lossyChildTurn h lost s i t

def enterLossy (h : HandshakeSetup) (lost : Losses) (t : ClientTurn) (stack : ℕ → UInt8) :
    LossyHandshake :=
  let client := enterClientMain h.params h.host { t with sent := 114, opened := true }
  deliverRequest h lost 0 client.sent[0]?
    { client := client, socket := [], mainBuffer := uninit stack 114, children := [] }

/-- The first datagram of a child that gets through is a 33, the 9 of that child gets
through as well, and fewer than nine other datagrams come in between. -/
structure RepliesWhole (lost : Losses) (s : LossyHandshake) (n : ℕ) (c : Child) : Prop where
  first : s.arrived = [] → lost n (c.sent.length + 1) = false →
    c.phase ≠ .getFilename ∧ c.phase ≠ .sendData
  second : s.arrived ≠ [] → c.phase = .getFilename → lost n (c.sent.length + 1) = false
  between : s.arrived ≠ [] → c.phase = .sendData → lost n (c.sent.length + 1) = false →
    s.arrived.length < 9 ∨ ∃ m ∈ s.arrived, flagOf m.2 = 9

def KeepsHandshake (lost : Losses) (s : LossyHandshake) : LossyTurn → Prop
  | .client _ => True
  | .child i _ => ∀ n c, s.children[i]? = some (n, c) → RepliesWhole lost s n c

theorem getElem?_set_cases {α : Type*} {l : List α} {i j : ℕ} {a x : α}
    (h : (l.set i a)[j]? = some x) : (i = j ∧ x = a) ∨ (i ≠ j ∧ l[j]? = some x) := by
  by_cases hij : i = j
  · subst hij
    have hlt := (List.getElem?_eq_some_iff.mp h).1
    rw [List.length_set] at hlt
    rw [List.getElem?_set_self hlt] at h
    exact Or.inl ⟨rfl, (Option.some.inj h).symm⟩
  · rw [List.getElem?_set_ne hij] at h
    exact Or.inr ⟨hij, h⟩

/-! ## What a child sends -/

structure ChildProgress (h : HandshakeSetup) (c : Child) : Prop where
  client : c.client = h.clientAddr
  filename : c.filename = h.params.srcFilename.take 100
  stage : (c.phase = .started ∧ c.sent = []) ∨ (c.phase = .getFilename ∧ c.sent.length = 1) ∨
    (2 ≤ c.sent.length ∧ (c.phase = .validSent 7 ∨ c.phase = .sendData))

inductive ChildMoves (c c' : Child) : Option (List UInt8) → Prop
  | talks (pdu : List UInt8) (hphase : c.phase = .started) (hnext : c'.phase = .getFilename)
      (hflag : flagOf pdu = 33) : ChildMoves c c' (some pdu)
  | validates (pdu : List UInt8) (hphase : c.phase = .getFilename)
      (hnext : c'.phase = .validSent 7) (hflag : flagOf pdu = 9) : ChildMoves c c' (some pdu)
  | returns (hphase : c.phase = .validSent 7) (hnext : c'.phase = .sendData) : ChildMoves c c' none
  | streams (pdu : List UInt8) (hphase : c.phase = .sendData) (hnext : c'.phase = .sendData)
      (hflag : flagOf pdu = 16) : ChildMoves c c' (some pdu)

section Children

variable {h : HandshakeSetup} {lost : Losses} {c c' : Child} {t : ChildTurn}

theorem childTurn_moves (hc : ChildProgress h c)
    (hopen : h.openable (h.params.srcFilename.take 100) = true) (ht : t.sent = 7) :
    ∃ pdu, ChildMoves c (childTurn h.openable c t) pdu ∧
      (childTurn h.openable c t).sent = c.sent ++ (pdu.map fun p => ⟨h.clientAddr, p, 7⟩).toList ∧
      (∀ p, pdu = some p → 7 ≤ p.length) ∧ ChildProgress h (childTurn h.openable c t) := by
  have hclient := hc.client
  have hname := hc.filename
  rcases hc.stage with ⟨hphase, hsent⟩ | ⟨hphase, hsent⟩ | ⟨hsent, hphase | hphase⟩
  · refine ⟨some (sealHandshake makeTalkHereNowBeforeChecksum), ?_, ?_, ?_, ?_⟩
    · simp only [childTurn, hphase]
      exact .talks _ hphase rfl rfl
    · simp [childTurn, hphase, Child.sendto, hclient, ht]
    · intro p hp
      rw [← Option.some.inj hp]
      exact le_rfl
    · simp only [childTurn, hphase]
      exact ⟨hclient, hname, Or.inr (Or.inl ⟨rfl, by simp [Child.sendto, hsent]⟩)⟩
  · have hopened : h.openable c.filename = true := by rw [hname, hopen]
    refine ⟨some (sealHandshake makeVALIDFilenameACKBeforeChecksum), ?_, ?_, ?_, ?_⟩
    · simp only [childTurn, hphase, doGetFilenameState, if_pos hopened]
      exact .validates _ hphase (by rw [ht]) rfl
    · simp [childTurn, hphase, doGetFilenameState, hopened, Child.sendto, hclient, ht]
    · intro p hp
      rw [← Option.some.inj hp]
      exact le_rfl
    · simp only [childTurn, hphase, doGetFilenameState, if_pos hopened]
      exact ⟨hclient, hname, Or.inr (Or.inr ⟨by simp [Child.sendto, hsent], Or.inl (by rw [ht])⟩)⟩
  · refine ⟨none, ?_, ?_, ?_, ?_⟩
    · simp only [childTurn, hphase]
      exact .returns hphase rfl
    · simp [childTurn, hphase]
    · intro p hp
      cases hp
    · simp only [childTurn, hphase]
      exact ⟨hclient, hname, Or.inr (Or.inr ⟨hsent, Or.inr rfl⟩)⟩
  · refine ⟨some (dataPdu t.seq t.checksum t.payload), ?_, ?_, ?_, ?_⟩
    · simp only [childTurn, hphase]
      exact .streams _ hphase hphase (flagOf_dataPdu _ _ _)
    · simp [childTurn, hphase, Child.sendto, hclient, ht]
    · intro p hp
      rw [← Option.some.inj hp, length_dataPdu]
      omega
    · simp only [childTurn, hphase]
      refine ⟨hclient, hname, Or.inr (Or.inr ⟨?_, Or.inr hphase⟩)⟩
      simp only [Child.sendto, List.length_append, List.length_singleton]
      omega

theorem ChildMoves.not_started {pdu : Option (List UInt8)} (hmoves : ChildMoves c c' pdu) :
    c'.phase ≠ .started := by
  cases hmoves with
  | talks _ _ hnext _ => rw [hnext]; decide
  | validates _ _ hnext _ => rw [hnext]; decide
  | returns _ hnext => rw [hnext]; decide
  | streams _ _ hnext _ => rw [hnext]; decide

theorem ChildMoves.settled {pdu : Option (List UInt8)} (hmoves : ChildMoves c c' pdu)
    (hc : ¬c.phase.Early) : ¬c'.phase.Early := by
  cases hmoves with
  | talks _ hphase _ _ => exact absurd (Or.inl hphase) hc
  | validates _ hphase _ _ => exact absurd (Or.inr hphase) hc
  | returns _ hnext => rw [hnext]; decide
  | streams _ _ hnext _ => rw [hnext]; decide

theorem ChildMoves.settled_twice {c'' : Child} {pdu pdu' : Option (List UInt8)}
    (hmoves : ChildMoves c c' pdu) (hmoves' : ChildMoves c' c'' pdu') : ¬c''.phase.Early := by
  cases hmoves with
  | talks _ _ hnext _ =>
    cases hmoves' with
    | talks _ hphase _ _ => rw [hnext] at hphase; cases hphase
    | validates _ _ hnext' _ => rw [hnext']; decide
    | returns _ hnext' => rw [hnext']; decide
    | streams _ _ hnext' _ => rw [hnext']; decide
  | validates _ _ hnext _ => exact hmoves'.settled (by rw [hnext]; decide)
  | returns _ hnext => exact hmoves'.settled (by rw [hnext]; decide)
  | streams _ _ hnext _ => exact hmoves'.settled (by rw [hnext]; decide)

theorem arrives_eq {pdu : Option (List UInt8)} {i n : ℕ}
    (hsent : c'.sent = c.sent ++ (pdu.map fun p => (⟨h.clientAddr, p, 7⟩ : Sendto)).toList) :
    arrives h lost i n c c' =
      if lost n (c.sent.length + 1) = false then (pdu.map fun p => (h.childAddr i, p)).toList
      else [] := by
  rw [arrives, hsent, List.getElem?_append_right le_rfl, Nat.sub_self]
  cases pdu with
  | none => simp
  | some p => simp

end Children

/-! ## What a turn does -/

structure LossyBase (h : HandshakeSetup) (s : LossyHandshake) : Prop where
  buffer : s.mainBuffer.length = 114
  children : ∀ x ∈ s.children, ChildProgress h x.2
  socket : ∀ m ∈ s.socket, m.1 ≠ h.mainAddr ∧ 7 ≤ m.2.length ∧ flagOf m.2 ≠ 32

/-- The poll of rcopy has been answered by what arrived first. -/
def LossyHandshake.read (s : LossyHandshake) : LossyHandshake :=
  { s with client := s.client.polled s.poll, socket := s.socket.tail }

def LossyHandshake.moved (s : LossyHandshake) (phase : ClientPhase) : LossyHandshake :=
  { s with client := { s.client with phase := phase } }

/-- The cases of a turn of rcopy; `buffer` is the memory under its `recv_buffer`. -/
inductive LossyClientStep (h : HandshakeSetup) (lost : Losses) (s : LossyHandshake)
    (t : ClientTurn) : LossyHandshake → Prop
  | waits (hready : ¬s.Ready) : LossyClientStep h lost s t s
  | stopped (hphase : s.client.phase = .getData ∨ s.client.phase = .done) :
      LossyClientStep h lost s t s
  | resent (n : ℕ) (hphase : s.client.phase = .awaitTalk n) (hready : s.Ready)
      (hsocket : s.socket = []) (hn : n + 1 < 9) :
      LossyClientStep h lost s t
        (deliverRequest h lost s.client.sent.length
          (some ⟨s.client.server, filenameDatagram h.params t.beyond, 114⟩)
          { s with client := s.client.request h.params (n + 1) (s.turnOf t) })
  | exhausted (n : ℕ) (hphase : s.client.phase = .awaitTalk n) (hready : s.Ready)
      (hsocket : s.socket = []) (hn : 9 ≤ n + 1) : LossyClientStep h lost s t (s.moved .done)
  | redirected (n : ℕ) (m : SockAddr × List UInt8) (rest : List (SockAddr × List UInt8))
      (hphase : s.client.phase = .awaitTalk n) (hsocket : s.socket = m :: rest)
      (hflag : flagOf m.2 = 33) (buffer : List UInt8) :
      LossyClientStep h lost s t
        { s.read with
          client := { s.read.client with
            recvBuffer := buffer, destFile := some [], phase := .awaitValid 0 } }
  | refused (n : ℕ) (m : SockAddr × List UInt8) (rest : List (SockAddr × List UInt8))
      (hphase : s.client.phase = .awaitTalk n) (hsocket : s.socket = m :: rest)
      (hflag : flagOf m.2 ≠ 33) : LossyClientStep h lost s t (s.read.moved .done)
  | valid (r : ℕ) (m : SockAddr × List UInt8) (rest : List (SockAddr × List UInt8))
      (hphase : s.client.phase = .awaitValid r) (hsocket : s.socket = m :: rest)
      (hflag : flagOf m.2 = 9) : LossyClientStep h lost s t (s.read.moved .getData)
  | retried (r : ℕ) (hphase : s.client.phase = .awaitValid r) (hready : s.Ready)
      (hflag : ∀ m ∈ s.socket.head?, flagOf m.2 ≠ 9) (hr : r + 1 < 9) :
      LossyClientStep h lost s t (s.read.moved (.awaitValid (r + 1)))
  | gaveUp (r : ℕ) (hphase : s.client.phase = .awaitValid r) (hready : s.Ready)
      (hflag : ∀ m ∈ s.socket.head?, flagOf m.2 ≠ 9) (hr : 9 ≤ r + 1) (buffer : List UInt8) :
      LossyClientStep h lost s t
        (deliverRequest h lost s.client.sent.length
          (some ⟨s.read.client.server, filenameDatagram h.params t.beyond, 114⟩)
          { s.read with
            client := { s.read.client with recvBuffer := buffer }.request h.params 0 (s.turnOf t) })

section Client

variable {h : HandshakeSetup} {lost : Losses} {s : LossyHandshake} {t : ClientTurn}

theorem LossyHandshake.read_arrived (s : LossyHandshake) : s.read.arrived = s.arrived := by
  unfold LossyHandshake.read LossyHandshake.arrived LossyHandshake.poll
  cases s.socket with
  | nil => rfl
  | cons m rest => simp [ClientMain.polled, ClientMain.recvfrom]

theorem LossyHandshake.read_sent (s : LossyHandshake) : s.read.client.sent = s.client.sent :=
  s.client.polled_sent s.poll

theorem LossyBase.head (hbase : LossyBase h s) {m : SockAddr × List UInt8}
    {rest : List (SockAddr × List UInt8)} (hsocket : s.socket = m :: rest) :
    m.1 ≠ h.mainAddr ∧ 7 ≤ m.2.length ∧ flagOf m.2 ≠ 32 :=
  hbase.socket m (by rw [hsocket]; exact List.mem_cons_self)

theorem unanswered_poll (hbase : LossyBase h s) (hflag : ∀ m ∈ s.socket.head?, flagOf m.2 ≠ 9) :
    s.client.Unanswered s.poll := by
  cases hsocket : s.socket with
  | nil => simp [LossyHandshake.poll, hsocket, ClientMain.Unanswered]
  | cons m rest =>
    obtain ⟨-, hlen, herror⟩ := hbase.head hsocket
    rw [hsocket, List.head?_cons] at hflag
    simp only [LossyHandshake.poll, hsocket, ClientMain.Unanswered, flagOf_recvInto hlen]
    exact ⟨hflag m rfl, herror⟩

theorem lossyClientTurn_eq (hready : s.Ready) {client : ClientMain} (new : Option Sendto)
    (hturn : clientTurn h.params s.client (s.turnOf t) = client)
    (hsent : client.sent = s.client.sent ++ new.toList)
    (hrec : client.received = s.read.client.received) :
    lossyClientTurn h lost s t = deliverRequest h lost s.client.sent.length new
      { s with client := client, socket := s.socket.tail } := by
  have hnew : client.sent[s.client.sent.length]? = new := by
    rw [hsent, List.getElem?_append_right le_rfl, Nat.sub_self]
    cases new <;> rfl
  have hsocket : s.socket.drop (client.received.length - s.client.received.length) =
      s.socket.tail := by
    rw [hrec]
    unfold LossyHandshake.read LossyHandshake.poll
    cases s.socket with
    | nil => simp
    | cons m rest => simp [ClientMain.polled, ClientMain.recvfrom]
  simp only [lossyClientTurn, if_pos hready, hturn, hnew, hsocket]

theorem LossyHandshake.read_of_nil (hsocket : s.socket = []) : s.read = s := by
  obtain ⟨client, socket, mainBuffer, children⟩ := s
  obtain rfl : socket = [] := hsocket
  rfl

theorem LossyHandshake.read_of_cons {m : SockAddr × List UInt8}
    {rest : List (SockAddr × List UInt8)} (hsocket : s.socket = m :: rest) :
    s.read = { s with client := s.client.recvfrom m.1 m.2, socket := rest } := by
  obtain ⟨client, socket, mainBuffer, children⟩ := s
  obtain rfl : socket = m :: rest := hsocket
  rfl

/-- Once rcopy talks to a child it never comes back to the main server. -/
theorem LossyBase.read_server (hbase : LossyBase h s) (hserver : s.client.server ≠ h.mainAddr) :
    s.read.client.server ≠ h.mainAddr := by
  cases hsocket : s.socket with
  | nil =>
    rw [LossyHandshake.read_of_nil hsocket]
    exact hserver
  | cons m rest =>
    rw [LossyHandshake.read_of_cons hsocket]
    exact (hbase.head hsocket).1

theorem polled_turnOf {source : SockAddr} {d : List UInt8} {rest : List (SockAddr × List UInt8)}
    (hsocket : s.socket = (source, d) :: rest) :
    (s.turnOf t).poll = .received source d ∧ s.read.client = s.client.recvfrom source d := by
  simp only [LossyHandshake.turnOf, LossyHandshake.read, LossyHandshake.poll, hsocket,
    ClientMain.polled, and_self]

theorem lossyClientTurn_stopped (hphase : s.client.phase = .getData ∨ s.client.phase = .done) :
    lossyClientTurn h lost s t = s := by
  have hturn : clientTurn h.params s.client (s.turnOf t) = s.client := by
    rcases hphase with hphase | hphase <;> simp only [clientTurn, hphase]
  simp [lossyClientTurn, hturn, deliverRequest]

theorem lossyTalk_step (hbase : LossyBase h s) {n : ℕ} (hready : s.Ready)
    (hphase : s.client.phase = .awaitTalk n) :
    LossyClientStep h lost s t (lossyClientTurn h lost s t) := by
  have hturn : clientTurn h.params s.client (s.turnOf t) =
      sendFilenameTurn h.params s.client n (s.turnOf t) := by
    simp only [clientTurn, hphase]
  cases hsocket : s.socket with
  | nil =>
    have hpoll : (s.turnOf t).poll = .timeout := by
      simp only [LossyHandshake.turnOf, LossyHandshake.poll, hsocket]
    have htail : s.socket.tail = s.socket := by rw [hsocket, List.tail_nil]
    simp only [sendFilenameTurn, hpoll, sendFilenameHead] at hturn
    by_cases hn : n + 1 < 9
    · rw [if_pos hn] at hturn
      rw [lossyClientTurn_eq hready (some ⟨s.client.server, filenameDatagram h.params t.beyond, 114⟩)
        hturn rfl (by rw [LossyHandshake.read_of_nil hsocket]; rfl), htail]
      exact .resent n hphase hready hsocket hn
    · rw [if_neg hn] at hturn
      rw [lossyClientTurn_eq hready none hturn (List.append_nil _).symm
        (by rw [LossyHandshake.read_of_nil hsocket]), htail]
      exact .exhausted n hphase hready hsocket (not_lt.mp hn)
  | cons m rest =>
    obtain ⟨source, d⟩ := m
    obtain ⟨hpoll, hread⟩ := polled_turnOf (t := t) hsocket
    have hflag : flagOf (s.client.recvfrom source d).recvBuffer = flagOf d :=
      flagOf_recvInto (hbase.head hsocket).2.1
    simp only [sendFilenameTurn, hpoll, hflag] at hturn
    rw [← hread] at hturn
    by_cases h33 : flagOf d = 33
    · rw [if_pos h33] at hturn
      rw [lossyClientTurn_eq hready none hturn (s.read_sent.trans (List.append_nil _).symm) rfl]
      exact .redirected n (source, d) rest hphase hsocket h33 (uninit t.stack 7)
    · rw [if_neg h33] at hturn
      rw [lossyClientTurn_eq hready none hturn (s.read_sent.trans (List.append_nil _).symm) rfl]
      exact .refused n (source, d) rest hphase hsocket h33

theorem lossyRetry_step (hbase : LossyBase h s) {r : ℕ} (hready : s.Ready)
    (hphase : s.client.phase = .awaitValid r) (hflag : ∀ m ∈ s.socket.head?, flagOf m.2 ≠ 9) :
    LossyClientStep h lost s t (lossyClientTurn h lost s t) := by
  have hturn : clientTurn h.params s.client (s.turnOf t) = _ :=
    clientTurn_unanswered hphase (unanswered_poll hbase hflag)
  rw [fileValidHead] at hturn
  by_cases hr : r + 1 < 9
  · rw [if_pos hr] at hturn
    rw [lossyClientTurn_eq hready none hturn
      ((s.client.polled_sent s.poll).trans (List.append_nil _).symm) rfl]
    exact .retried r hphase hready hflag hr
  · rw [if_neg hr, doSendFilenameState_eq] at hturn
    rw [lossyClientTurn_eq hready
      (some ⟨s.read.client.server, filenameDatagram h.params t.beyond, 114⟩) hturn
      (by rw [← s.client.polled_sent s.poll]; rfl) rfl]
    exact .gaveUp r hphase hready hflag (not_lt.mp hr) _

theorem lossyClientTurn_step (hbase : LossyBase h s) (lost : Losses) (t : ClientTurn) :
    LossyClientStep h lost s t (lossyClientTurn h lost s t) := by
  by_cases hready : s.Ready
  · cases hphase : s.client.phase with
    | awaitTalk n => exact lossyTalk_step hbase hready hphase
    | awaitValid r =>
      by_cases hflag : ∀ m ∈ s.socket.head?, flagOf m.2 ≠ 9
      · exact lossyRetry_step hbase hready hphase hflag
      · push Not at hflag
        obtain ⟨⟨source, d⟩, hm, h9⟩ := hflag
        obtain ⟨rest, hsocket⟩ : ∃ rest, s.socket = (source, d) :: rest := by
          rw [Option.mem_def, List.head?_eq_some_iff] at hm
          exact hm
        obtain ⟨hpoll, hread⟩ := polled_turnOf (t := t) hsocket
        have hflag : flagOf (s.client.recvfrom source d).recvBuffer = flagOf d :=
          flagOf_recvInto (hbase.head hsocket).2.1
        have hturn : clientTurn h.params s.client (s.turnOf t) =
            { s.client.recvfrom source d with phase := .getData } := by
          simp only [clientTurn, hphase, fileValidTurn, hpoll, hflag]
          rw [if_pos h9]
        rw [← hread] at hturn
        rw [lossyClientTurn_eq hready none hturn (s.read_sent.trans (List.append_nil _).symm) rfl]
        exact .valid r (source, d) rest hphase hsocket h9
    | getData =>
      rw [lossyClientTurn_stopped (Or.inl hphase)]
      exact .stopped (Or.inl hphase)
    | done =>
      rw [lossyClientTurn_stopped (Or.inr hphase)]
      exact .stopped (Or.inr hphase)
  · rw [lossyClientTurn, if_neg hready]
    exact .waits hready

end Client

/-- The cases of a turn of child `i`, with the PDU that it sends. -/
inductive LossyChildStep (h : HandshakeSetup) (lost : Losses) (s : LossyHandshake) (i : ℕ) :
    LossyHandshake → Prop
  | absent (hnone : s.children[i]? = none) : LossyChildStep h lost s i s
  | moved (n : ℕ) (c c' : Child) (pdu : Option (List UInt8)) (hc : s.children[i]? = some (n, c))
      (hmoves : ChildMoves c c' pdu) (hlen : ∀ p, pdu = some p → 7 ≤ p.length)
      (hsent : c'.sent.length = c.sent.length + pdu.toList.length) (hnext : ChildProgress h c') :
      LossyChildStep h lost s i
        { s with
          socket := s.socket ++
            if lost n (c.sent.length + 1) = false then (pdu.map fun p => (h.childAddr i, p)).toList
            else []
          children := s.children.set i (n, c') }

section Turns

variable {h : HandshakeSetup} {lost : Losses} {s s' : LossyHandshake}

theorem lossyChildTurn_step (hbase : LossyBase h s)
    (hopen : h.openable (h.params.srcFilename.take 100) = true) (lost : Losses) (i : ℕ)
    (t : ChildTurn) : LossyChildStep h lost s i (lossyChildTurn h lost s i t) := by
  cases hc : s.children[i]? with
  | none =>
    simp only [lossyChildTurn, hc]
    exact .absent hc
  | some x =>
    obtain ⟨n, c⟩ := x
    obtain ⟨pdu, hmoves, hsent, hlen, hnext⟩ := childTurn_moves
      (t := { t with poll := .timeout, sent := 7 }) (hbase.children _ (List.mem_of_getElem? hc))
      hopen rfl
    simp only [lossyChildTurn, hc, arrives_eq hsent]
    refine .moved n c _ pdu hc hmoves hlen ?_ hnext
    rw [hsent, List.length_append]
    cases pdu <;> rfl

theorem deliverRequest_other {n : ℕ} {m : Sendto} (hdest : m.dest ≠ h.mainAddr) :
    deliverRequest h lost n (some m) s = s := by
  simp [deliverRequest, hdest]

theorem deliverRequest_main (hbuffer : s.mainBuffer.length = 114) (n : ℕ) (beyond : UInt8)
    (result : Int) :
    deliverRequest h lost n (some ⟨h.mainAddr, filenameDatagram h.params beyond, result⟩) s =
      if lost n 0 = false then
        { s with
          mainBuffer := filenameDatagram h.params beyond
          children := s.children ++
            [(n, ⟨h.clientAddr, h.params.srcFilename.take 100, [], .started⟩)] }
      else s := by
  simp only [deliverRequest, mainTurn_filenameDatagram _ _ hbuffer, requestOf_filenameDatagram,
    true_and]

theorem LossyBase.deliverRequest (hbase : LossyBase h s) (n : ℕ) (dest : SockAddr) (beyond : UInt8)
    (result : Int) : LossyBase h
      (deliverRequest h lost n (some ⟨dest, filenameDatagram h.params beyond, result⟩) s) := by
  by_cases hdest : dest = h.mainAddr
  · subst hdest
    rw [deliverRequest_main hbase.buffer]
    split_ifs
    · refine ⟨by simp [filenameDatagram, length_sealFilename], ?_, hbase.socket⟩
      intro x hx
      rcases List.mem_append.mp hx with hold | hnew
      · exact hbase.children x hold
      · rw [List.mem_singleton.mp hnew]
        exact ⟨rfl, rfl, Or.inl ⟨rfl, rfl⟩⟩
    · exact hbase
  · rw [deliverRequest_other hdest]
    exact hbase

theorem LossyBase.read (hbase : LossyBase h s) (client : ClientMain) :
    LossyBase h { s.read with client := client } :=
  ⟨hbase.buffer, hbase.children, fun m hm => hbase.socket m (List.mem_of_mem_tail hm)⟩

theorem LossyClientStep.base {t : ClientTurn} (hbase : LossyBase h s)
    (hstep : LossyClientStep h lost s t s') : LossyBase h s' := by
  cases hstep with
  | waits _ => exact hbase
  | stopped _ => exact hbase
  | resent n _ _ _ _ =>
    have hsent : LossyBase h
        { s with client := s.client.request h.params (n + 1) (s.turnOf t) } :=
      ⟨hbase.buffer, hbase.children, hbase.socket⟩
    exact hsent.deliverRequest s.client.sent.length s.client.server t.beyond 114
  | exhausted n _ _ _ _ => exact ⟨hbase.buffer, hbase.children, hbase.socket⟩
  | redirected n m rest _ _ _ buffer => exact hbase.read _
  | refused n m rest _ _ _ => exact hbase.read _
  | valid r m rest _ _ _ => exact hbase.read _
  | retried r _ _ _ _ => exact hbase.read _
  | gaveUp r _ _ _ _ buffer =>
    exact (hbase.read _).deliverRequest s.client.sent.length s.read.client.server t.beyond 114

theorem ChildMoves.flag_ne {c c' : Child} {pdu : List UInt8} (hmoves : ChildMoves c c' (some pdu)) :
    flagOf pdu ≠ 32 := by
  cases hmoves with
  | talks _ _ _ hflag => rw [hflag]; decide
  | validates _ _ _ hflag => rw [hflag]; decide
  | streams _ _ _ hflag => rw [hflag]; decide

theorem LossyChildStep.base {i : ℕ} (hbase : LossyBase h s) (hstep : LossyChildStep h lost s i s') :
    LossyBase h s' := by
  cases hstep with
  | absent _ => exact hbase
  | moved n c c' pdu hc hmoves hlen hsent hnext =>
    refine ⟨hbase.buffer, ?_, ?_⟩
    · intro x hx
      rcases List.mem_or_eq_of_mem_set hx with hold | rfl
      · exact hbase.children x hold
      · exact hnext
    · intro m hm
      rcases List.mem_append.mp hm with hold | hnew
      · exact hbase.socket m hold
      · split_ifs at hnew
        · cases pdu with
          | none => cases hnew
          | some p =>
            rw [Option.map_some, Option.toList_some, List.mem_singleton] at hnew
            rw [hnew]
            exact ⟨h.child_ne_main i, hlen p rfl, hmoves.flag_ne⟩
        · cases hnew

end Turns

/-! ## Polls come back -/

def PollReturns (s : LossyHandshake) : LossyTurn → Prop
  | .client _ => s.Ready
  | .child _ _ => False

instance (s : LossyHandshake) (e : LossyTurn) : Decidable (PollReturns s e) :=
  match e with
  | .client _ => inferInstanceAs (Decidable s.Ready)
  | .child _ _ => inferInstanceAs (Decidable False)

/-- The first `k` children have sent their replies. -/
def SettledBelow (k : ℕ) (s : LossyHandshake) : Prop :=
  ∀ i x, s.children[i]? = some x → i < k → ¬x.2.phase.Early

section Polls

variable {h : HandshakeSetup} {s s' : LossyHandshake} {i k : ℕ}

theorem LossyChildStep.settledBelow {lost : Losses} (hstep : LossyChildStep h lost s i s')
    (hs : SettledBelow k s) : SettledBelow k s' := by
  cases hstep with
  | absent _ => exact hs
  | moved n c c' pdu hc hmoves _ _ _ =>
    intro j x hj hlt
    rcases getElem?_set_cases hj with ⟨rfl, rfl⟩ | ⟨-, hj⟩
    · exact hmoves.settled (hs i (n, c) hc hlt)
    · exact hs j x hj hlt

theorem LossyChildStep.length_children {lost : Losses} (hstep : LossyChildStep h lost s i s') :
    s'.children.length = s.children.length := by
  cases hstep with
  | absent _ => rfl
  | moved _ _ _ _ _ _ _ _ _ => exact List.length_set

theorem LossyChildStep.child {lost : Losses} {x : ℕ × Child} (hstep : LossyChildStep h lost s i s')
    (hx : s'.children[i]? = some x) :
    ∃ n c c' pdu, s.children[i]? = some (n, c) ∧ x = (n, c') ∧ ChildMoves c c' pdu := by
  cases hstep with
  | absent hnone =>
    rw [hnone] at hx
    cases hx
  | moved n c c' pdu hc hmoves _ _ _ =>
    rcases getElem?_set_cases hx with ⟨-, hx⟩ | ⟨hne, -⟩
    · exact ⟨n, c, c', pdu, hc, hx, hmoves⟩
    · exact absurd rfl hne

theorem SettledBelow.succ {lost : Losses} {s'' : LossyHandshake} (hs : SettledBelow k s)
    (hstep : LossyChildStep h lost s k s') (hstep' : LossyChildStep h lost s' k s'') :
    SettledBelow (k + 1) s'' := by
  intro j x hj hlt
  rcases Nat.lt_or_eq_of_le (Nat.le_of_lt_succ hlt) with hbelow | rfl
  · exact hstep'.settledBelow (hstep.settledBelow hs) j x hj hbelow
  · obtain ⟨n, c', c'', pdu', hc', rfl, hmoves'⟩ := hstep'.child hj
    obtain ⟨m, c, c₁, pdu, -, hsame, hmoves⟩ := hstep.child hc'
    cases hsame
    exact hmoves.settled_twice hmoves'

theorem exists_settledBelow (hbase : LossyBase h s)
    (hopen : h.openable (h.params.srcFilename.take 100) = true) (lost : Losses) (k : ℕ) :
    ∃ turns, LossyBase h (Runs.exec (lossyTurn h lost) s turns) ∧
      (Runs.exec (lossyTurn h lost) s turns).children.length = s.children.length ∧
      SettledBelow k (Runs.exec (lossyTurn h lost) s turns) := by
  induction k with
  | zero => exact ⟨[], hbase, rfl, fun _ _ _ hlt => absurd hlt (Nat.not_lt_zero _)⟩
  | succ k ih =>
    obtain ⟨turns, hbase', hlength, hsettled⟩ := ih
    have hstep := lossyChildTurn_step hbase' hopen lost k (childTurnOf .timeout)
    have hstep' := lossyChildTurn_step (hstep.base hbase') hopen lost k (childTurnOf .timeout)
    refine ⟨turns ++ [.child k (childTurnOf .timeout), .child k (childTurnOf .timeout)], ?_⟩
    rw [Runs.exec_append]
    refine ⟨hstep'.base (hstep.base hbase'), ?_, hsettled.succ hstep hstep'⟩
    exact (hstep'.length_children.trans hstep.length_children).trans hlength

/-- The children never keep a poll of rcopy waiting for good. -/
theorem exists_polls (hbase : LossyBase h s)
    (hopen : h.openable (h.params.srcFilename.take 100) = true) (lost : Losses) (t : ClientTurn)
    (n : ℕ) : ∃ turns, n ≤ Runs.tally (lossyTurn h lost) PollReturns s turns := by
  induction n generalizing s with
  | zero => exact ⟨[], Nat.zero_le _⟩
  | succ n ih =>
    obtain ⟨turns, hbase', hlength, hsettled⟩ :=
      exists_settledBelow hbase hopen lost s.children.length
    have hready : (Runs.exec (lossyTurn h lost) s turns).Ready := by
      refine Or.inr fun x hx => ?_
      obtain ⟨j, hj⟩ := List.mem_iff_getElem?.mp hx
      have hlt := (List.getElem?_eq_some_iff.mp hj).1
      exact hsettled j x hj (by omega)
    obtain ⟨rest, hrest⟩ := ih ((lossyClientTurn_step hbase' lost t).base hbase')
    refine ⟨turns ++ .client t :: rest, ?_⟩
    have hone : PollReturns (Runs.exec (lossyTurn h lost) s turns) (.client t) := hready
    have hcount : n ≤ Runs.tally (lossyTurn h lost) PollReturns
        (lossyTurn h lost (Runs.exec (lossyTurn h lost) s turns) (.client t)) rest := hrest
    rw [Runs.tally_append, Runs.tally, if_pos hone]
    omega

end Polls

end Rcopy
