import Rcopy.HandshakeLoss

/-!
# How a lossy handshake ends

Until a datagram of a child gets through, rcopy repeats its request. The first one
that does decides: a 33 whose 9 follows leads to `GET_DATA`, anything else to `DONE`,
at once or after nine retries and a request that goes to the child.
-/

namespace Rcopy

def NoFlag (flag : UInt8) (l : List (SockAddr × List UInt8)) : Prop := ∀ m ∈ l, flagOf m.2 ≠ flag

/-- Only the last child may still be on its way to `SEND_DATA`. -/
def SettledButLast (s : LossyHandshake) : Prop :=
  ∀ i x, s.children[i]? = some x → i + 1 < s.children.length → ¬x.2.phase.Early

/-- Nothing has reached rcopy, which waits after its `n`-th request. -/
structure Silent (h : HandshakeSetup) (lost : Losses) (s : LossyHandshake) (n : ℕ) : Prop where
  phase : s.client.phase = .awaitTalk n
  le : n ≤ 8
  server : s.client.server = h.mainAddr
  sent : s.client.sent.length = n + 1
  arrived : s.arrived = []
  dropped : ∀ x ∈ s.children, ∀ j < x.2.sent.length, lost x.1 (j + 1) = true
  delivered : ∀ k ≤ n, lost k 0 = false → ∃ x ∈ s.children, x.1 = k
  settled : SettledButLast s

inductive Heard (h : HandshakeSetup) (s : LossyHandshake) : Prop
  | talk (n : ℕ) (m : SockAddr × List UInt8) (rest : List (SockAddr × List UInt8))
      (hphase : s.client.phase = .awaitTalk n) (hn : n ≤ 8) (hreceived : s.client.received = [])
      (hsocket : s.socket = m :: rest) (hflag : flagOf m.2 = 33)
  | valid (r : ℕ) (hphase : s.client.phase = .awaitValid r) (hr : r ≤ 8)
      (hreceived : s.client.received.length = r + 1) (hnone : NoFlag 9 s.client.received)
      (hserver : s.client.server ≠ h.mainAddr)
  | getData (hphase : s.client.phase = .getData) (hvalid : ∃ m ∈ s.arrived, flagOf m.2 = 9)

structure ValidPending (s : LossyHandshake) : Prop where
  length : s.arrived.length ≤ 9
  noValid : NoFlag 9 s.arrived
  child : ∃ (j n : ℕ) (c : Child), s.children[j]? = some (n, c) ∧ c.phase = .getFilename

structure ValidSent (s : LossyHandshake) : Prop where
  arrived : ∃ pre m post, s.arrived = pre ++ m :: post ∧ NoFlag 9 pre ∧ pre.length ≤ 9 ∧
    flagOf m.2 = 9
  settled : ∀ x ∈ s.children, ¬x.2.phase.Early

/-- The 33 of a child has got through, and its 9 has or will. -/
structure Talked (h : HandshakeSetup) (s : LossyHandshake) : Prop where
  heard : Heard h s
  valid : ValidPending s ∨ ValidSent s
  once : NoFlag 33 s.arrived.tail
  noStarted : ∀ x ∈ s.children, x.2.phase ≠ .started
  settled : SettledButLast s

def Undecided (h : HandshakeSetup) (lost : Losses) (s : LossyHandshake) : Prop :=
  LossyBase h s ∧ ((∃ n, Silent h lost s n) ∨ Talked h s)

/-- Some request among the first nine has its replies 33 and 9 undropped. -/
def WholeAttempt (lost : Losses) : Prop :=
  ∃ k < 9, lost k 0 = false ∧ lost k 1 = false ∧ lost k 2 = false

/-- How many more polls rcopy may need. -/
def LossyHandshake.rank (s : LossyHandshake) : ℕ :=
  match s.client.phase with
  | .awaitTalk n => 18 - n
  | .awaitValid r => 9 - r
  | .getData => 0
  | .done => 0

section Steps

variable {h : HandshakeSetup} {lost : Losses} {s s' : LossyHandshake} {t : ClientTurn}

theorem LossyHandshake.arrived_eq_nil (harrived : s.arrived = []) :
    s.client.received = [] ∧ s.socket = [] := List.append_eq_nil_iff.mp harrived

theorem ChildProgress.two_le {c : Child} (hc : ChildProgress h c) (hearly : ¬c.phase.Early) :
    2 ≤ c.sent.length := by
  rcases hc.stage with ⟨hphase, -⟩ | ⟨hphase, -⟩ | ⟨hsent, -⟩
  · exact absurd (Or.inl hphase) hearly
  · exact absurd (Or.inr hphase) hearly
  · exact hsent

/-- A request whose child has answered in vain was not the whole one. -/
theorem Silent.lt_nine {n : ℕ} (hbase : LossyBase h s) (hs : Silent h lost s n)
    (hwhole : WholeAttempt lost) (hquiet : ∀ x ∈ s.children, ¬x.2.phase.Early) : n + 1 < 9 := by
  by_contra hn
  obtain ⟨k, hk, hrequest, htalk, -⟩ := hwhole
  obtain ⟨x, hx, rfl⟩ := hs.delivered k (by omega) hrequest
  have htwo := (hbase.children x hx).two_le (hquiet x hx)
  have hlost := hs.dropped x hx 0 (by omega)
  rw [htalk] at hlost
  cases hlost

/-- The `n`-th request leaves rcopy waiting in silence, when no child is about to answer. -/
theorem silent_deliverRequest {n : ℕ} (hbuffer : s.mainBuffer.length = 114)
    (hphase : s.client.phase = .awaitTalk n) (hn : n ≤ 8) (hserver : s.client.server = h.mainAddr)
    (hsent : s.client.sent.length = n + 1) (harrived : s.arrived = [])
    (hdropped : ∀ x ∈ s.children, ∀ j < x.2.sent.length, lost x.1 (j + 1) = true)
    (hdelivered : ∀ k < n, lost k 0 = false → ∃ x ∈ s.children, x.1 = k)
    (hquiet : ∀ x ∈ s.children, ¬x.2.phase.Early) (beyond : UInt8) :
    Silent h lost
      (deliverRequest h lost n (some ⟨h.mainAddr, filenameDatagram h.params beyond, 114⟩) s) n := by
  rw [deliverRequest_main hbuffer]
  split_ifs with hlost
  · refine ⟨hphase, hn, hserver, hsent, harrived, ?_, ?_, ?_⟩
    · intro x hx j hj
      rcases List.mem_append.mp hx with hold | hnew
      · exact hdropped x hold j hj
      · rw [List.mem_singleton.mp hnew] at hj
        exact absurd hj (Nat.not_lt_zero j)
    · intro k hk hrequest
      rcases Nat.lt_or_eq_of_le hk with hlt | rfl
      · obtain ⟨x, hx, hxk⟩ := hdelivered k hlt hrequest
        exact ⟨x, List.mem_append_left _ hx, hxk⟩
      · exact ⟨_, List.mem_append_right _ (List.mem_singleton_self _), rfl⟩
    · intro i x hx hi
      dsimp only at hx hi
      rw [List.length_append, List.length_singleton] at hi
      rw [List.getElem?_append_left (by omega)] at hx
      exact hquiet x (List.mem_of_getElem? hx)
  · refine ⟨hphase, hn, hserver, hsent, harrived, hdropped, ?_,
      fun i x hx _ => hquiet x (List.mem_of_getElem? hx)⟩
    intro k hk hrequest
    rcases Nat.lt_or_eq_of_le hk with hlt | rfl
    · exact hdelivered k hlt hrequest
    · exact absurd hrequest hlost

theorem Silent.resent {n : ℕ} (hbase : LossyBase h s) (hs : Silent h lost s n)
    (hquiet : ∀ x ∈ s.children, ¬x.2.phase.Early) (hn : n + 1 < 9) :
    Silent h lost (deliverRequest h lost s.client.sent.length
      (some ⟨s.client.server, filenameDatagram h.params t.beyond, 114⟩)
      { s with client := s.client.request h.params (n + 1) (s.turnOf t) }) (n + 1) := by
  have hphase : (s.client.request h.params (n + 1) (s.turnOf t)).phase = .awaitTalk (n + 1) := rfl
  have hsent : (s.client.request h.params (n + 1) (s.turnOf t)).sent.length = n + 1 + 1 := by
    rw [ClientMain.request, ClientMain.sendto, List.length_append, hs.sent, List.length_singleton]
  have hdelivered : ∀ k < n + 1, lost k 0 = false → ∃ x ∈ s.children, x.1 = k :=
    fun k hk => hs.delivered k (by omega)
  rw [hs.server, hs.sent]
  exact silent_deliverRequest
    (s := { s with client := s.client.request h.params (n + 1) (s.turnOf t) })
    hbase.buffer hphase (by omega) hs.server hsent hs.arrived hs.dropped hdelivered hquiet t.beyond

theorem Silent.clientStep {n : ℕ} (hbase : LossyBase h s) (hs : Silent h lost s n)
    (hwhole : WholeAttempt lost) (hstep : LossyClientStep h lost s t s') :
    (¬s.Ready ∧ s' = s) ∨ Silent h lost s' (n + 1) := by
  obtain ⟨-, hsocket⟩ := LossyHandshake.arrived_eq_nil hs.arrived
  have hphase := hs.phase
  have hquiet : s.Ready → ∀ x ∈ s.children, ¬x.2.phase.Early :=
    fun hready => hready.resolve_left fun hne => hne hsocket
  cases hstep with
  | waits hready => exact Or.inl ⟨hready, rfl⟩
  | stopped hstop => rcases hstop with hstop | hstop <;> rw [hphase] at hstop <;> cases hstop
  | resent m hm hready _ hn =>
    rw [hphase] at hm
    cases hm
    exact Or.inr (hs.resent hbase (hquiet hready) hn)
  | exhausted m hm hready _ hn =>
    rw [hphase] at hm
    cases hm
    have hlt := hs.lt_nine hbase hwhole (hquiet hready)
    omega
  | redirected m d rest _ hd _ _ => rw [hsocket] at hd; cases hd
  | refused m d rest _ hd _ => rw [hsocket] at hd; cases hd
  | valid r d rest hr _ _ => rw [hphase] at hr; cases hr
  | retried r hr _ _ _ => rw [hphase] at hr; cases hr
  | gaveUp r hr _ _ _ _ => rw [hphase] at hr; cases hr

theorem ValidPending.congr (hs : ValidPending s) (harrived : s'.arrived = s.arrived)
    (hchildren : s'.children = s.children) : ValidPending s' := by
  obtain ⟨hlength, hno, hchild⟩ := hs
  exact ⟨by rw [harrived]; exact hlength, by rw [harrived]; exact hno,
    by rw [hchildren]; exact hchild⟩

theorem ValidSent.congr (hs : ValidSent s) (harrived : s'.arrived = s.arrived)
    (hchildren : s'.children = s.children) : ValidSent s' := by
  obtain ⟨hvalid, hsettled⟩ := hs
  exact ⟨by rw [harrived]; exact hvalid, by rw [hchildren]; exact hsettled⟩

theorem Talked.congr (hs : Talked h s) (hheard : Heard h s') (harrived : s'.arrived = s.arrived)
    (hchildren : s'.children = s.children) : Talked h s' := by
  refine ⟨hheard, ?_, ?_, ?_, ?_⟩
  · rcases hs.valid with hpending | hsent
    · exact Or.inl (hpending.congr harrived hchildren)
    · exact Or.inr (hsent.congr harrived hchildren)
  · rw [harrived]
    exact hs.once
  · rw [hchildren]
    exact hs.noStarted
  · rw [SettledButLast, hchildren]
    exact hs.settled

/-- A poll of `doFileValidState` that does not bring the 9 brings something else, and
rcopy has not yet received eight of these. -/
theorem Talked.unanswered {r : ℕ} (hs : Talked h s)
    (hlength : s.client.received.length = r + 1) (hnone : NoFlag 9 s.client.received)
    (hready : s.Ready) (hflag : ∀ m ∈ s.socket.head?, flagOf m.2 ≠ 9) :
    r + 1 < 9 ∧ ∃ m rest, s.socket = m :: rest ∧ flagOf m.2 ≠ 9 := by
  have harrived : s.arrived = s.client.received ++ s.socket := rfl
  rcases hs.valid with hpending | hsent
  · obtain ⟨j, n, c, hj, hphase⟩ := hpending.child
    cases hsocket : s.socket with
    | nil =>
      have hquiet := hready.resolve_left fun hne => hne hsocket
      exact absurd (Or.inr hphase) (hquiet (n, c) (List.mem_of_getElem? hj))
    | cons m rest =>
      rw [hsocket] at hflag
      have hle := hpending.length
      rw [harrived, hsocket, List.length_append, List.length_cons, hlength] at hle
      exact ⟨by omega, m, rest, rfl, hflag m rfl⟩
  · obtain ⟨pre, v, post, hsplit, -, hpre, hvalid⟩ := hsent.arrived
    rw [harrived] at hsplit
    -- the 9 is still in the socket, since rcopy has received none
    rcases List.append_eq_append_iff.mp hsplit with ⟨mid, rfl, hsocket⟩ | ⟨mid, hmid, hsocket⟩
    · rw [List.length_append, hlength] at hpre
      cases mid with
      | nil =>
        rw [hsocket] at hflag
        exact absurd hvalid (hflag v rfl)
      | cons m rest =>
        rw [hsocket] at hflag
        rw [List.length_cons] at hpre
        exact ⟨by omega, m, rest ++ v :: post, hsocket, hflag m rfl⟩
    · cases mid with
      | nil =>
        rw [List.nil_append] at hsocket
        rw [← hsocket] at hflag
        exact absurd hvalid (hflag v rfl)
      | cons m rest =>
        rw [List.cons_append, List.cons.injEq] at hsocket
        refine absurd hvalid (hnone v ?_)
        rw [hmid, hsocket.1]
        exact List.mem_append_right _ List.mem_cons_self

/-- A poll that returns brings rcopy closer to `GET_DATA`. -/
def Closer (s s' : LossyHandshake) : Prop :=
  s'.rank ≤ s.rank ∧ (s.Ready → s'.rank ≤ s.rank - 1)

theorem LossyHandshake.rank_le (s : LossyHandshake) : s.rank ≤ 18 := by
  unfold LossyHandshake.rank
  split <;> omega

theorem LossyHandshake.closer {k : ℕ} (hrank : s.rank = k + 1) (hlt : s'.rank ≤ k) : Closer s s' := by
  refine ⟨by omega, fun _ => ?_⟩
  omega

theorem Heard.awaitTalk {n : ℕ} (hheard : Heard h s) (hphase : s.client.phase = .awaitTalk n) :
    n ≤ 8 ∧ s.client.received = [] ∧ ∃ m rest, s.socket = m :: rest ∧ flagOf m.2 = 33 := by
  cases hheard with
  | talk n' m rest hn' hle hreceived hsocket hflag =>
    rw [hphase] at hn'
    cases hn'
    exact ⟨hle, hreceived, m, rest, hsocket, hflag⟩
  | valid r hr _ _ _ _ => rw [hphase] at hr; cases hr
  | getData hget _ => rw [hphase] at hget; cases hget

theorem Heard.awaitValid {r : ℕ} (hheard : Heard h s) (hphase : s.client.phase = .awaitValid r) :
    r ≤ 8 ∧ s.client.received.length = r + 1 ∧ NoFlag 9 s.client.received ∧
      s.client.server ≠ h.mainAddr := by
  cases hheard with
  | talk n m rest hn _ _ _ _ => rw [hphase] at hn; cases hn
  | valid r' hr' hle hlength hnone hserver =>
    rw [hphase] at hr'
    cases hr'
    exact ⟨hle, hlength, hnone, hserver⟩
  | getData hget _ => rw [hphase] at hget; cases hget

theorem Heard.not_done (hheard : Heard h s) : s.client.phase ≠ .done := by
  intro hdone
  cases hheard with
  | talk n _ _ hn _ _ _ _ => rw [hdone] at hn; cases hn
  | valid r hr _ _ _ _ => rw [hdone] at hr; cases hr
  | getData hget _ => rw [hdone] at hget; cases hget

theorem Heard.redirected {n : ℕ} {m : SockAddr × List UInt8}
    {rest : List (SockAddr × List UInt8)} (hbase : LossyBase h s) (hheard : Heard h s)
    (hphase : s.client.phase = .awaitTalk n) (hsocket : s.socket = m :: rest)
    (hflag : flagOf m.2 = 33) (buffer : List UInt8) :
    Heard h { s.read with
      client := { s.read.client with
        recvBuffer := buffer, destFile := some [], phase := .awaitValid 0 } } := by
  have hreceived := (hheard.awaitTalk hphase).2.1
  rw [LossyHandshake.read_of_cons hsocket]
  refine .valid 0 rfl (Nat.zero_le 8) ?_ ?_ (hbase.head hsocket).1
  · simp [ClientMain.recvfrom, hreceived]
  · intro m' hm'
    dsimp only [ClientMain.recvfrom] at hm'
    rw [hreceived, List.nil_append, List.mem_singleton] at hm'
    rw [hm', hflag]
    decide

theorem Talked.retried {r : ℕ} (hbase : LossyBase h s) (hs : Talked h s)
    (hphase : s.client.phase = .awaitValid r) (hready : s.Ready)
    (hflag : ∀ m ∈ s.socket.head?, flagOf m.2 ≠ 9) :
    r + 1 < 9 ∧ Heard h (s.read.moved (.awaitValid (r + 1))) := by
  obtain ⟨-, hlength, hnone, hserver⟩ := hs.heard.awaitValid hphase
  obtain ⟨hr, m, rest, hsocket, hm⟩ := hs.unanswered hlength hnone hready hflag
  refine ⟨hr, .valid (r + 1) rfl (by omega) ?_ ?_ (hbase.read_server hserver)⟩
  · rw [LossyHandshake.read_of_cons hsocket]
    simp [LossyHandshake.moved, ClientMain.recvfrom, hlength]
  · rw [LossyHandshake.read_of_cons hsocket]
    intro m' hm'
    rcases List.mem_append.mp hm' with hold | hnew
    · exact hnone m' hold
    · rw [List.mem_singleton.mp hnew]
      exact hm

theorem Talked.clientStep (hbase : LossyBase h s) (hs : Talked h s)
    (hstep : LossyClientStep h lost s t s') : Talked h s' ∧ Closer s s' := by
  cases hstep with
  | waits hready => exact ⟨hs, le_rfl, fun hr => absurd hr hready⟩
  | stopped hstop =>
    have hget := hstop.resolve_right hs.heard.not_done
    exact ⟨hs, le_rfl, fun _ => by simp [LossyHandshake.rank, hget]⟩
  | resent n hphase _ hsocket _ =>
    obtain ⟨-, -, m, rest, hsome, -⟩ := hs.heard.awaitTalk hphase
    rw [hsocket] at hsome
    cases hsome
  | exhausted n hphase _ hsocket _ =>
    obtain ⟨-, -, m, rest, hsome, -⟩ := hs.heard.awaitTalk hphase
    rw [hsocket] at hsome
    cases hsome
  | redirected n m rest hphase hsocket hflag buffer =>
    have hn := (hs.heard.awaitTalk hphase).1
    have hheard := hs.heard.redirected hbase hphase hsocket hflag buffer
    refine ⟨hs.congr hheard s.read_arrived rfl, LossyHandshake.closer (k := 17 - n) ?_ ?_⟩
    · simp only [LossyHandshake.rank, hphase]
      omega
    · simp only [LossyHandshake.rank]
      omega
  | refused n m rest hphase hsocket hflag =>
    obtain ⟨-, -, m', rest', hsome, htalk⟩ := hs.heard.awaitTalk hphase
    rw [hsocket] at hsome
    cases hsome
    exact absurd htalk hflag
  | valid r m rest hphase hsocket hflag =>
    have hmem : m ∈ s.arrived :=
      List.mem_append_right _ (by rw [hsocket]; exact List.mem_cons_self)
    have harrived : (s.read.moved .getData).arrived = s.arrived := s.read_arrived
    refine ⟨hs.congr (.getData rfl ⟨m, by rw [harrived]; exact hmem, hflag⟩) harrived rfl, ?_⟩
    exact ⟨Nat.zero_le _, fun _ => Nat.zero_le _⟩
  | retried r hphase hready hflag _ =>
    obtain ⟨hr, hheard⟩ := hs.retried hbase hphase hready hflag
    refine ⟨hs.congr hheard s.read_arrived rfl, LossyHandshake.closer (k := 8 - r) ?_ ?_⟩
    · simp only [LossyHandshake.rank, hphase]
      omega
    · simp only [LossyHandshake.rank, LossyHandshake.moved]
      omega
  | gaveUp r hphase hready hflag hr buffer =>
    have hlt := (hs.retried hbase hphase hready hflag).1
    omega

theorem Silent.closer {n : ℕ} (hs : Silent h lost s n) (hs' : Silent h lost s' (n + 1)) :
    Closer s s' := by
  have hle := hs.le
  refine LossyHandshake.closer (k := 17 - n) ?_ ?_
  · simp only [LossyHandshake.rank, hs.phase]
    omega
  · simp only [LossyHandshake.rank, hs'.phase]
    omega

end Steps

section ChildSteps

variable {h : HandshakeSetup} {lost : Losses} {s s' : LossyHandshake} {i n : ℕ} {c c' : Child}
  {pdu : Option (List UInt8)}

/-- A child that has sent its 33 sends no other. -/
theorem ChildMoves.noTalk (hmoves : ChildMoves c c' pdu) (hc : c.phase ≠ .started) (addr : SockAddr)
    (delivered : Prop) [Decidable delivered] :
    NoFlag 33 (if delivered then (pdu.map fun p => (addr, p)).toList else []) := by
  intro m hm
  split_ifs at hm
  · cases hmoves with
    | talks p hphase _ _ => exact absurd hphase hc
    | validates p _ _ hflag => rw [List.mem_singleton.mp hm, hflag]; decide
    | returns _ _ => cases hm
    | streams p _ _ hflag => rw [List.mem_singleton.mp hm, hflag]; decide
  · cases hm

theorem ChildMoves.noValid (hmoves : ChildMoves c c' pdu) (hc : c.phase ≠ .getFilename)
    (addr : SockAddr) (delivered : Prop) [Decidable delivered] :
    NoFlag 9 (if delivered then (pdu.map fun p => (addr, p)).toList else []) := by
  intro m hm
  split_ifs at hm
  · cases hmoves with
    | talks p _ _ hflag => rw [List.mem_singleton.mp hm, hflag]; decide
    | validates p hphase _ _ => exact absurd hphase hc
    | returns _ _ => cases hm
    | streams p _ _ hflag => rw [List.mem_singleton.mp hm, hflag]; decide
  · cases hm

theorem mem_children_set {x : ℕ × Child} (hx : x ∈ s.children.set i (n, c')) :
    (∃ j ≠ i, s.children[j]? = some x) ∨ x = (n, c') := by
  obtain ⟨j, hj⟩ := List.mem_iff_getElem?.mp hx
  rcases getElem?_set_cases hj with ⟨-, hx⟩ | ⟨hij, hj⟩
  · exact Or.inr hx
  · exact Or.inl ⟨j, hij.symm, hj⟩

theorem SettledButLast.moved (hs : SettledButLast s) (hc : s.children[i]? = some (n, c))
    (hmoves : ChildMoves c c' pdu) (socket : List (SockAddr × List UInt8)) :
    SettledButLast { s with socket := socket, children := s.children.set i (n, c') } := by
  intro j x hj hlast
  dsimp only at hj hlast
  rw [List.length_set] at hlast
  rcases getElem?_set_cases hj with ⟨rfl, rfl⟩ | ⟨-, hj⟩
  · exact hmoves.settled (hs i (n, c) hc hlast)
  · exact hs j x hj hlast

theorem SettledButLast.others (hs : SettledButLast s) (hc : s.children[i]? = some (n, c))
    (hearly : c.phase.Early) {j : ℕ} {x : ℕ × Child} (hji : j ≠ i)
    (hj : s.children[j]? = some x) : ¬x.2.phase.Early := by
  have hi := (List.getElem?_eq_some_iff.mp hc).1
  have hlt := (List.getElem?_eq_some_iff.mp hj).1
  have hlast : s.children.length ≤ i + 1 := by
    by_contra hlt'
    exact hs i (n, c) hc (not_le.mp hlt') hearly
  exact hs j x hj (by omega)

theorem Silent.dropped_moved {m : ℕ} (hs : Silent h lost s m) (hc : s.children[i]? = some (n, c))
    (hmoves : ChildMoves c c' pdu)
    (hsent : c'.sent.length = c.sent.length + pdu.toList.length)
    (hlost : pdu = none ∨ lost n (c.sent.length + 1) = true) :
    Silent h lost { s with children := s.children.set i (n, c') } m := by
  refine ⟨hs.phase, hs.le, hs.server, hs.sent, hs.arrived, ?_, ?_, hs.settled.moved hc hmoves _⟩
  · intro x hx j hj
    rcases mem_children_set hx with ⟨k, -, hk⟩ | rfl
    · exact hs.dropped x (List.mem_of_getElem? hk) j hj
    · have hold := hs.dropped (n, c) (List.mem_of_getElem? hc)
      dsimp only at hj hold ⊢
      rcases hlost with rfl | hlost
      · rw [Option.toList_none, List.length_nil, Nat.add_zero] at hsent
        exact hold j (by omega)
      · rcases Nat.lt_or_ge j c.sent.length with hlt | hge
        · exact hold j hlt
        · have hone : pdu.toList.length ≤ 1 := by cases pdu <;> simp
          obtain rfl : j = c.sent.length := by omega
          exact hlost
  · intro k hk hrequest
    obtain ⟨x, hx, hxk⟩ := hs.delivered k hk hrequest
    obtain ⟨j, hj⟩ := List.mem_iff_getElem?.mp hx
    by_cases hij : i = j
    · subst hij
      rw [hc] at hj
      obtain rfl := Option.some.inj hj
      have hlt := (List.getElem?_eq_some_iff.mp hc).1
      exact ⟨(n, c'), List.mem_of_getElem? (List.getElem?_set_self hlt), hxk⟩
    · exact ⟨x, List.mem_of_getElem? ((List.getElem?_set_ne hij).trans hj), hxk⟩

theorem Silent.talks {m : ℕ} (hs : Silent h lost s m) (hc : s.children[i]? = some (n, c))
    {p : List UInt8} (hphase : c.phase = .started) (hnext : c'.phase = .getFilename)
    (hmoves : ChildMoves c c' pdu) (hflag : flagOf p = 33) :
    Talked h { s with socket := [(h.childAddr i, p)], children := s.children.set i (n, c') } := by
  obtain ⟨hreceived, hsocket⟩ := LossyHandshake.arrived_eq_nil hs.arrived
  have hlt := (List.getElem?_eq_some_iff.mp hc).1
  have harrived : LossyHandshake.arrived
      { s with socket := [(h.childAddr i, p)], children := s.children.set i (n, c') } =
        [(h.childAddr i, p)] := by
    rw [LossyHandshake.arrived, hreceived, List.nil_append]
  refine ⟨.talk m (h.childAddr i, p) [] hs.phase hs.le hreceived rfl hflag, Or.inl ⟨?_, ?_, ?_⟩,
    ?_, ?_, hs.settled.moved hc hmoves _⟩
  · rw [harrived, List.length_singleton]
    decide
  · rw [harrived]
    intro m' hm'
    rw [List.mem_singleton.mp hm', hflag]
    decide
  · exact ⟨i, n, c', List.getElem?_set_self hlt, hnext⟩
  · rw [harrived]
    intro m' hm'
    cases hm'
  · intro x hx hstarted
    rcases mem_children_set hx with ⟨j, hji, hj⟩ | rfl
    · exact hs.settled.others hc (Or.inl hphase) hji hj (Or.inl hstarted)
    · exact hmoves.not_started hstarted

theorem Silent.childStep {m : ℕ} (hs : Silent h lost s m)
    (hkeep : ∀ n c, s.children[i]? = some (n, c) → RepliesWhole lost s n c)
    (hstep : LossyChildStep h lost s i s') : Silent h lost s' m ∨ Talked h s' := by
  have hsocket := (LossyHandshake.arrived_eq_nil hs.arrived).2
  cases hstep with
  | absent _ => exact Or.inl hs
  | moved n c c' pdu hc hmoves hlen hsent hnext =>
    rw [hsocket, List.nil_append]
    by_cases hlost : lost n (c.sent.length + 1) = false
    · rw [if_pos hlost]
      obtain ⟨hnotValid, hnotData⟩ := (hkeep n c hc).first hs.arrived hlost
      have hcopy := hmoves
      cases hmoves with
      | talks p hphase hnext' hflag => exact Or.inr (hs.talks hc hphase hnext' hcopy hflag)
      | validates p hphase _ _ => exact absurd hphase hnotValid
      | returns hphase hnext' =>
        have hsilent := hs.dropped_moved hc hcopy hsent (Or.inl rfl)
        rw [hsocket] at hsilent
        exact Or.inl hsilent
      | streams p hphase _ _ => exact absurd hphase hnotData
    · rw [if_neg hlost]
      have hsilent := hs.dropped_moved hc hmoves hsent (Or.inr (by simpa using hlost))
      rw [hsocket] at hsilent
      exact Or.inl hsilent

/-- `new` has arrived after all else. -/
def LossyHandshake.childMoved (s : LossyHandshake) (i n : ℕ) (c' : Child)
    (new : List (SockAddr × List UInt8)) : LossyHandshake :=
  { s with socket := s.socket ++ new, children := s.children.set i (n, c') }

theorem LossyHandshake.childMoved_arrived (s : LossyHandshake) (i n : ℕ) (c' : Child)
    (new : List (SockAddr × List UInt8)) : (s.childMoved i n c' new).arrived = s.arrived ++ new :=
  (List.append_assoc _ _ _).symm

theorem Heard.childMoved (hheard : Heard h s) (i n : ℕ) (c' : Child)
    (new : List (SockAddr × List UInt8)) : Heard h (s.childMoved i n c' new) := by
  cases hheard with
  | talk m d rest hphase hm hreceived hsocket hflag =>
    refine .talk m d (rest ++ new) hphase hm hreceived ?_ hflag
    rw [LossyHandshake.childMoved, hsocket, List.cons_append]
  | valid r hphase hr hreceived hnone hserver => exact .valid r hphase hr hreceived hnone hserver
  | getData hphase hvalid =>
    obtain ⟨m, hm, hflag⟩ := hvalid
    refine .getData hphase ⟨m, ?_, hflag⟩
    rw [LossyHandshake.childMoved_arrived]
    exact List.mem_append_left _ hm

theorem Heard.arrived_ne_nil (hheard : Heard h s) : s.arrived ≠ [] := by
  cases hheard with
  | talk m d rest _ _ _ hsocket _ => simp [LossyHandshake.arrived, hsocket]
  | valid r _ _ hreceived _ _ =>
    intro hnil
    rw [(LossyHandshake.arrived_eq_nil hnil).1] at hreceived
    cases hreceived
  | getData _ hvalid =>
    obtain ⟨m, hm, -⟩ := hvalid
    exact List.ne_nil_of_mem hm

theorem NoFlag.append {flag : UInt8} {l new : List (SockAddr × List UInt8)} (hl : NoFlag flag l)
    (hnew : NoFlag flag new) : NoFlag flag (l ++ new) :=
  List.forall_mem_append.mpr ⟨hl, hnew⟩

theorem Talked.once_childMoved {new : List (SockAddr × List UInt8)} (hs : Talked h s)
    (hnew : NoFlag 33 new) (i n : ℕ) (c' : Child) :
    NoFlag 33 (s.childMoved i n c' new).arrived.tail := by
  rw [LossyHandshake.childMoved_arrived, List.tail_append_of_ne_nil hs.heard.arrived_ne_nil]
  exact hs.once.append hnew

theorem Talked.noStarted_childMoved (hs : Talked h s) (hmoves : ChildMoves c c' pdu) (i n : ℕ)
    (new : List (SockAddr × List UInt8)) :
    ∀ x ∈ (s.childMoved i n c' new).children, x.2.phase ≠ .started := by
  intro x hx
  rcases mem_children_set hx with ⟨j, -, hj⟩ | rfl
  · exact hs.noStarted x (List.mem_of_getElem? hj)
  · exact hmoves.not_started

theorem ValidSent.childMoved {new : List (SockAddr × List UInt8)} (hs : ValidSent s)
    (hc : s.children[i]? = some (n, c)) (hmoves : ChildMoves c c' pdu) :
    ValidSent (s.childMoved i n c' new) := by
  obtain ⟨pre, v, post, hsplit, hpre⟩ := hs.arrived
  refine ⟨⟨pre, v, post ++ new, ?_, hpre⟩, ?_⟩
  · rw [LossyHandshake.childMoved_arrived, hsplit, List.append_assoc, List.cons_append]
  · intro x hx
    rcases mem_children_set hx with ⟨j, -, hj⟩ | rfl
    · exact hs.settled x (List.mem_of_getElem? hj)
    · exact hmoves.settled (hs.settled (n, c) (List.mem_of_getElem? hc))

theorem ValidPending.childMoved {new : List (SockAddr × List UInt8)} (hs : ValidPending s)
    (hc : s.children[i]? = some (n, c)) (hphase : c.phase ≠ .getFilename)
    (hnew : NoFlag 9 new) (hlen : s.arrived.length + new.length ≤ 9) :
    ValidPending (s.childMoved i n c' new) := by
  obtain ⟨j, k, c₁, hj, hwaits⟩ := hs.child
  refine ⟨?_, ?_, j, k, c₁, ?_, hwaits⟩
  · rw [LossyHandshake.childMoved_arrived, List.length_append]
    exact hlen
  · rw [LossyHandshake.childMoved_arrived]
    exact hs.noValid.append hnew
  · rw [LossyHandshake.childMoved, List.getElem?_set_ne, hj]
    rintro rfl
    rw [hc] at hj
    cases hj
    exact hphase hwaits

theorem Talked.validates (hs : Talked h s) (hc : s.children[i]? = some (n, c)) {p : List UInt8}
    (hpending : ValidPending s) (hphase : c.phase = .getFilename) (hnext : c'.phase = .validSent 7)
    (hflag : flagOf p = 9) : ValidSent (s.childMoved i n c' [(h.childAddr i, p)]) := by
  refine ⟨⟨s.arrived, (h.childAddr i, p), [], s.childMoved_arrived i n c' _, hpending.noValid,
    hpending.length, hflag⟩, ?_⟩
  intro x hx
  rcases mem_children_set hx with ⟨j, hji, hj⟩ | rfl
  · exact hs.settled.others hc (Or.inr hphase) hji hj
  · rw [hnext]
    decide

theorem Talked.pending (hs : Talked h s) (hc : s.children[i]? = some (n, c))
    (hphase : c.phase = .getFilename) : ValidPending s :=
  hs.valid.resolve_right fun hvalid =>
    hvalid.settled (n, c) (List.mem_of_getElem? hc) (Or.inr hphase)

theorem Talked.childStep (hs : Talked h s)
    (hkeep : ∀ n c, s.children[i]? = some (n, c) → RepliesWhole lost s n c)
    (hstep : LossyChildStep h lost s i s') : Talked h s' := by
  cases hstep with
  | absent _ => exact hs
  | moved n c c' pdu hc hmoves hlen hsent hnext =>
    have hreplies := hkeep n c hc
    have hsome := hs.heard.arrived_ne_nil
    have hnotStarted := hs.noStarted (n, c) (List.mem_of_getElem? hc)
    have htalk := hmoves.noTalk hnotStarted (h.childAddr i) (lost n (c.sent.length + 1) = false)
    refine ⟨hs.heard.childMoved i n c' _, ?_, hs.once_childMoved htalk i n c',
      hs.noStarted_childMoved hmoves i n _, hs.settled.moved hc hmoves _⟩
    by_cases hphase : c.phase = .getFilename
    · have hpending := hs.pending hc hphase
      rw [if_pos (hreplies.second hsome hphase)]
      cases hmoves with
      | talks p hstarted _ _ => exact absurd hstarted hnotStarted
      | validates p _ hnext' hflag =>
        exact Or.inr (hs.validates hc hpending hphase hnext' hflag)
      | returns hreturned _ => rw [hphase] at hreturned; cases hreturned
      | streams p hstreams _ _ => rw [hphase] at hstreams; cases hstreams
    · rcases hs.valid with hpending | hvalid
      · have hvalid := hmoves.noValid hphase (h.childAddr i) (lost n (c.sent.length + 1) = false)
        refine Or.inl (hpending.childMoved hc hphase hvalid ?_)
        have hlength := hpending.length
        split_ifs with hlost
        · cases hmoves with
          | talks p hstarted _ _ => exact absurd hstarted hnotStarted
          | validates p hvalidates _ _ => exact absurd hvalidates hphase
          | returns _ _ => exact hlength
          | streams p hstreams _ _ =>
            rcases hreplies.between hsome hstreams hlost with hfew | ⟨m, hm, hm9⟩
            · exact hfew
            · exact absurd hm9 (hpending.noValid m hm)
        · exact hlength
      · exact Or.inr (hvalid.childMoved hc hmoves)

end ChildSteps

section Runs

variable {h : HandshakeSetup} {lost : Losses} {s : LossyHandshake}

theorem Undecided.turn (hopen : h.openable (h.params.srcFilename.take 100) = true)
    (hwhole : WholeAttempt lost) (hs : Undecided h lost s) (e : LossyTurn)
    (hkeep : KeepsHandshake lost s e) :
    Undecided h lost (lossyTurn h lost s e) ∧
      (lossyTurn h lost s e).rank ≤ s.rank ∧
      (PollReturns s e → (lossyTurn h lost s e).rank ≤ s.rank - 1) := by
  obtain ⟨hbase, hs⟩ := hs
  cases e with
  | client t =>
    have hstep := lossyClientTurn_step hbase lost t
    suffices hnext : ((∃ n, Silent h lost (lossyClientTurn h lost s t) n) ∨
        Talked h (lossyClientTurn h lost s t)) ∧ Closer s (lossyClientTurn h lost s t) from
      ⟨⟨hstep.base hbase, hnext.1⟩, hnext.2⟩
    rcases hs with ⟨n, hsilent⟩ | htalked
    · rcases hsilent.clientStep hbase hwhole hstep with ⟨hready, hsame⟩ | hnext
      · rw [hsame]
        exact ⟨Or.inl ⟨n, hsilent⟩, le_rfl, fun hr => absurd hr hready⟩
      · exact ⟨Or.inl ⟨n + 1, hnext⟩, hsilent.closer hnext⟩
    · obtain ⟨hnext, hcloser⟩ := htalked.clientStep hbase hstep
      exact ⟨Or.inr hnext, hcloser⟩
  | child i t =>
    have hstep := lossyChildTurn_step hbase hopen lost i t
    have hrank : (lossyChildTurn h lost s i t).rank = s.rank := by
      unfold lossyChildTurn
      split <;> rfl
    refine ⟨⟨hstep.base hbase, ?_⟩, hrank.le, fun hpoll => absurd hpoll id⟩
    rcases hs with ⟨n, hsilent⟩ | htalked
    · rcases hsilent.childStep hkeep hstep with hnext | hnext
      · exact Or.inl ⟨n, hnext⟩
      · exact Or.inr hnext
    · exact Or.inr (htalked.childStep hkeep hstep)

theorem Undecided.getData (hs : Undecided h lost s) (hrank : s.rank = 0) :
    s.client.phase = .getData := by
  rcases hs.2 with ⟨n, hsilent⟩ | htalked
  · have hle := hsilent.le
    simp only [LossyHandshake.rank, hsilent.phase] at hrank
    omega
  · cases hphase : s.client.phase with
    | awaitTalk n =>
      have hle := (htalked.heard.awaitTalk hphase).1
      simp only [LossyHandshake.rank, hphase] at hrank
      omega
    | awaitValid r =>
      have hle := (htalked.heard.awaitValid hphase).1
      simp only [LossyHandshake.rank, hphase] at hrank
      omega
    | getData => rfl
    | done => exact absurd hphase htalked.heard.not_done

theorem enterLossy_undecided (h : HandshakeSetup) (lost : Losses) (t : ClientTurn)
    (stack : ℕ → UInt8) : Undecided h lost (enterLossy h lost t stack) := by
  have hnone : ∀ (k : ℕ) (c : Child), (k, c) ∉ ([] : List (ℕ × Child)) :=
    fun _ _ => List.not_mem_nil
  rw [enterLossy, enterClientMain, doSendFilenameState_eq]
  refine ⟨LossyBase.deliverRequest ⟨length_uninit _ _, ?_, ?_⟩ 0 h.mainAddr t.beyond 114,
    Or.inl ⟨0, silent_deliverRequest (length_uninit _ _) rfl (Nat.zero_le 8) rfl rfl rfl ?_ ?_ ?_
      t.beyond⟩⟩
  · exact fun x hx => absurd hx (hnone x.1 x.2)
  · intro m hm
    cases hm
  · exact fun x hx => absurd hx (hnone x.1 x.2)
  · exact fun k hk => absurd hk (Nat.not_lt_zero k)
  · exact fun x hx => absurd hx (hnone x.1 x.2)

end Runs

end Rcopy
