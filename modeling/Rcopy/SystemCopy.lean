import Rcopy.System

/-!
# A copy in the whole system

However many sessions the server has, with rcopy and with other hosts, and whatever these
send to it, rcopy writes chunks of its own file only, in order. That rests on three
things: the processes that serve rcopy send nothing else as data, no other process hears
of rcopy, and rcopy sends only to the main server and to those that serve it.
-/

namespace Rcopy

open Bytes

/-- The receive loop takes data only: a handshake PDU that comes late would be written
to the file as packet 1. -/
def SystemEvent.TakesData : SystemEvent → Prop
  | .rcopy (.receive _ _ t) => ∀ d ∈ t.recv, flagOf d = 16
  | _ => True

/-- No process that has been forked for rcopy has forked another. -/
def System.NoneForked (c : SystemSetup) (s : System) : Prop :=
  ∀ k ∈ s.sockets, (s.sockets[k.parent]?).bind (·.client) ≠ some c.clientAddr

instance (e : SystemEvent) : Decidable e.TakesData :=
  match e with
  | .rcopy (.receive _ _ t) => inferInstanceAs (Decidable (∀ d ∈ t.recv, flagOf d = 16))
  | .rcopy (.handshake _ _ _ _) => inferInstanceAs (Decidable True)
  | .rcopy (.enter _ _) => inferInstanceAs (Decidable True)
  | .server _ _ _ => inferInstanceAs (Decidable True)

instance (c : SystemSetup) (s : System) : Decidable (s.NoneForked c) :=
  inferInstanceAs (Decidable (∀ k ∈ s.sockets,
    (s.sockets[k.parent]?).bind (·.client) ≠ some c.clientAddr))

/-- The main server has the first socket, and every process one of its own. -/
structure Sockets (c : SystemSetup) (sockets : List Socket) : Prop where
  main : sockets[0]? = some ⟨c.mainAddr, none, 0⟩
  distinct : ∀ (i j : ℕ) (k l : Socket), sockets[i]? = some k → sockets[j]? = some l →
    k.addr = l.addr → i = j
  ne_client : ∀ k ∈ sockets, k.addr ≠ c.clientAddr

/-- What a process has sent comes from its socket, and to rcopy from one that serves it. -/
structure Served (c : SystemSetup) (file : List UInt8) (sockets : List Socket)
    (m : SockAddr × SockAddr × List UInt8) : Prop where
  source : m.1 ≠ c.clientAddr
  serving : m.2.1 = c.clientAddr → Serving c sockets m.1
  ofFile : m.2.1 = c.clientAddr → flagOf m.2.2 = 16 → OfFile c file m.2.2

/-- What rcopy has taken is of the file. -/
structure Fetches (c : SystemSetup) (file : List UInt8) (g : GetData) : Prop where
  expects : ExpectsNumbered (firstWindow c.params.windowSize - 1) g.receiver.rbuf
  output : WholeBuffers (clientOf c.params c.socketNum) (fun _ => True) g.receiver
  copies : CopiesChunks (clientOf c.params c.socketNum) file g.receiver

structure System.Serves (c : SystemSetup) (file : List UInt8) (s : System) : Prop where
  length : s.sockets.length = s.server.processes.length
  sockets : Sockets c s.sockets
  processes : ∀ (i : ℕ) (p : Process) k, s.server.processes[i]? = some p → s.sockets[i]? = some k →
    p.Attends c file i k
  served : ∀ m ∈ s.served, Served c file s.sockets m
  rcopy : SendsToServer c s.sockets s.rcopy
  fetches : ∀ g, s.rcopy.getData = some g → Fetches c file g

section Sockets

variable {c : SystemSetup} {file d : List UInt8} {sockets : List Socket} {k : Socket} {s : System}
  {source dest addr : SockAddr} {i : ℕ} {m : SockAddr × SockAddr × List UInt8}

theorem Sockets.append (h : Sockets c sockets) {new : Socket} (hne : new.addr ≠ c.clientAddr)
    (hfree : ∀ k ∈ sockets, k.addr ≠ new.addr) : Sockets c (sockets ++ [new]) := by
  have hpos : 0 < sockets.length := (List.getElem?_eq_some_iff.mp h.main).1
  have hcases : ∀ j l, (sockets ++ [new])[j]? = some l →
      sockets[j]? = some l ∨ j = sockets.length ∧ l = new := by
    intro j l hj
    by_cases hlt : j < sockets.length
    · rw [List.getElem?_append_left hlt] at hj
      exact Or.inl hj
    · rw [List.getElem?_append_right (not_lt.mp hlt), List.getElem?_singleton] at hj
      split_ifs at hj with hlast
      exact Or.inr ⟨by omega, (Option.some.inj hj).symm⟩
  constructor
  · rw [List.getElem?_append_left hpos]
    exact h.main
  · intro i j k l hk hl heq
    rcases hcases i k hk with hk | ⟨hi, hk⟩
    · rcases hcases j l hl with hl | ⟨-, hl⟩
      · exact h.distinct i j k l hk hl heq
      · rw [hl] at heq
        exact absurd heq (hfree k (List.mem_of_getElem? hk))
    · rcases hcases j l hl with hl | ⟨hj, -⟩
      · rw [hk] at heq
        exact absurd heq.symm (hfree l (List.mem_of_getElem? hl))
      · exact hi.trans hj.symm
  · intro k hk
    rcases List.mem_append.mp hk with hold | hnew
    · exact h.ne_client k hold
    · rw [List.mem_singleton.mp hnew]
      exact hne

/-- What rcopy has sent to a socket is for a process that serves it, or a request. -/
theorem Sockets.client_of_dest (h : Sockets c sockets) (hk : sockets[i]? = some k)
    (hdest : Serving c sockets k.addr ∨
      k.addr = c.mainAddr ∧ ∃ beyond, d = filenameDatagram c.params beyond) :
    k.client = some c.clientAddr ∨ i = 0 ∧ ∃ beyond, d = filenameDatagram c.params beyond := by
  rcases hdest with hserving | ⟨hmain, hrequest⟩
  · obtain ⟨l, hl, haddr, hclient⟩ := hserving
    obtain ⟨j, hj⟩ := List.mem_iff_getElem?.mp hl
    obtain rfl := h.distinct i j k l hk hj haddr.symm
    rw [Option.some.inj (hk.symm.trans hj)]
    exact Or.inl hclient
  · exact Or.inr ⟨h.distinct i 0 k _ hk h.main hmain, hrequest⟩

theorem Served.append (h : Served c file sockets m) (new : List Socket) :
    Served c file (sockets ++ new) m :=
  ⟨h.source, fun hdest => (h.serving hdest).append, h.ofFile⟩

theorem System.Serves.toRcopy (h : s.Serves c file)
    (hm : (source, c.clientAddr, d) ∈ s.network c) :
    Serving c s.sockets source ∧ (flagOf d = 16 → OfFile c file d) := by
  rcases List.mem_append.mp hm with hserved | hsent
  · have hs := h.served _ hserved
    exact ⟨hs.serving rfl, hs.ofFile rfl⟩
  · rcases (h.rcopy.of_mem_network hsent).2 with ⟨k, hk, haddr, -⟩ | ⟨hmain, -⟩
    · exact absurd haddr (h.sockets.ne_client k hk)
    · exact absurd hmain c.client_ne_main

theorem System.Serves.fromRcopy (h : s.Serves c file)
    (hm : (c.clientAddr, dest, d) ∈ s.network c) :
    Serving c s.sockets dest ∨
      dest = c.mainAddr ∧ ∃ beyond, d = filenameDatagram c.params beyond := by
  rcases List.mem_append.mp hm with hserved | hsent
  · exact absurd rfl (h.served _ hserved).source
  · exact (h.rcopy.of_mem_network hsent).2

end Sockets

/-! ## A turn of rcopy -/

section Receiver

variable {c : SystemSetup} {file : List UInt8} {g : GetData} {t : Turn} {s : System} {e : RcopyEvent}

theorem Asks.accepted (h : Asks c file) : (clientOf c.params c.socketNum).Accepted := by
  have hw := h.window_pos
  have hb := h.buffer_pos
  have hle := h.buffer_le
  exact ⟨hw, hb, show c.params.bufferSize ≤ 1400 by omega⟩

theorem firstWindow_lt (w : Int) : 0 ≤ firstWindow w ∧ firstWindow w ≤ 65536 := by
  rw [firstWindow]
  split_ifs <;> omega

theorem enterGetData_fetches (hasks : Asks c file) (raw : ReceiverBuffer) :
    Fetches c file (enterGetData (clientOf c.params c.socketNum) raw) := by
  have hfirst := (firstWindow_lt c.params.windowSize).1
  constructor
  · exact initReceiverBuffer_expectsNumbered (by omega) raw _ _
  · exact enterGetData_wholeBuffers _ raw trivial
  · intro b hb
    rw [← Option.some.inj hb]
    have hpos := hasks.buffer_pos
    exact ⟨[], [], Chunks.selects_nil (show 0 < c.params.bufferSize.toNat by omega)⟩

theorem Fetches.turn (h : Fetches c file g) (hasks : Asks c file)
    (hrecv : ∀ d, t.recv = some d → OfFile c file d) :
    Fetches c file (receiveTurn (clientOf c.params c.socketNum) g t) := by
  have hfirst := (firstWindow_lt c.params.windowSize).2
  have hsize := serverSession_bufferSize c.params 0 file hasks.buffer_pos (by
    have hle := hasks.buffer_le
    omega)
  have heq : (serverSession c.params 0 file).bufferSize.toNat =
      (clientOf c.params c.socketNum).bufferSize.toNat := by
    have hclient : (clientOf c.params c.socketNum).bufferSize = c.params.bufferSize := rfl
    omega
  have hcopies := h.copies
  refine ⟨?_, h.output.turn, ?_⟩
  · rcases receiveTurn_cases (clientOf c.params c.socketNum) g t with
      ⟨hsame, -, -⟩ | ⟨d, -, -, hd, -, hturn⟩
    · rw [hsame]
      exact h.expects
    · obtain ⟨hpacket, -⟩ := hrecv d hd
      have hseq := (header_received (clientOf c.params c.socketNum) t hpacket.length).1
      have hhandled := handleDataPacket_handled (clientOf c.params c.socketNum) g.subState
        g.receiver (t.received (clientOf c.params c.socketNum) d) t.attempts
      rw [hturn]
      exact (hhandled.expectsNumbered (by omega) h.expects (by
        rw [hseq]
        exact hpacket.seq_le)).1
  · exact CopiesChunks.turn (p := serverSession c.params 0 file) h.copies hasks.accepted heq
      (w := firstWindow c.params.windowSize - 1) (by omega) h.expects h.output.stored hrecv

theorem System.Serves.rcopy_turn (h : s.Serves c file) (hasks : Asks c file)
    (hbrings : e.Brings (s.network c) c.clientAddr) (hdata : SystemEvent.TakesData (.rcopy e)) :
    System.Serves c file { s with rcopy := s.rcopy.turn c.params c.socketNum e } := by
  refine ⟨h.length, h.sockets, h.processes, h.served, ?_, ?_⟩
  · exact h.rcopy.turn (fun source d hm => (h.toRcopy hm).1) hbrings
  · apply RcopyMain.getData_turn h.fetches (enterGetData_fetches hasks)
    rintro cond attempts t pollResult g rfl hg
    apply hg.turn hasks
    intro d hd
    obtain ⟨⟨source, dest, d'⟩, hm, heq⟩ := hbrings d hd
    obtain ⟨rfl, rfl⟩ := Prod.mk.inj heq
    exact (h.toRcopy hm).2 (hdata d' hd)

end Receiver

/-! ## A turn of the server -/

section Processes

variable {c : SystemSetup} {file : List UInt8} {p q : Process} {k : Socket} {t : ProcessTurn} {i : ℕ}
  {network : List (SockAddr × SockAddr × List UInt8)} {s : System} {port : SockAddr}

/-- What rcopy can have sent to socket `k` of process `i`. -/
def FromRcopy (c : SystemSetup) (network : List (SockAddr × SockAddr × List UInt8)) (i : ℕ)
    (k : Socket) : Prop :=
  ∀ d, (c.clientAddr, k.addr, d) ∈ network →
    k.client = some c.clientAddr ∨ i = 0 ∧ ∃ beyond, d = filenameDatagram c.params beyond

theorem Process.Attends.turn (h : p.Attends c file i k) (hasks : Asks c file)
    (hfrom : FromRcopy c network i k) (ht : t.FromHosts network c.clientAddr k.addr) :
    (p.turn (t.onDisk c.disk p)).process.Attends c file i k := by
  constructor
  · intro hzero
    obtain ⟨hparent, hbuffer⟩ := h.root hzero
    exact ⟨(hparent.turn _).1, hparent.turn_buffer hbuffer _⟩
  · intro hclient
    exact (h.serves hclient).turn hasks
  · intro hne hnew
    obtain ⟨request, child, openable, t', d, hlocation, heq, hpoll⟩ :=
      Process.turn_client hnew (h.others hne)
    rw [← onDisk_fromHosts c.disk p, heq] at ht
    simp only [ProcessTurn.FromHosts, hpoll] at ht
    rcases hfrom d (ht rfl) with hclient | ⟨hzero, -⟩
    · exact hne hclient
    · -- the main server is in no `startFSM`
      have hmain := (h.root hzero).1.location
      rw [hlocation] at hmain
      cases hmain

/-- The child for a request: that of rcopy serves it, and another has another client. -/
theorem Process.Attends.forked (h : p.Attends c file i k) (hfrom : FromRcopy c network i k)
    (ht : t.FromHosts network c.clientAddr k.addr) (hother : k.client ≠ some c.clientAddr)
    (hq : (p.turn (t.onDisk c.disk p)).forked = [q]) {n : ℕ} (hn : n ≠ 0) :
    q.Attends c file n ⟨port, q.location.client, i⟩ := by
  rcases p.turn_forked_cases (t.onDisk c.disk p) with
    hnone | ⟨source, d, request, q', -, heq, hrequest, hforked, hlocation⟩
  · rw [hnone] at hq
    cases hq
  obtain rfl := List.singleton_inj.mp (hforked.symm.trans hq)
  rw [← onDisk_fromHosts c.disk p, heq] at ht
  simp only [ProcessTurn.FromHosts, Poll.FromHosts] at ht
  refine ⟨fun hzero => absurd hzero hn, ?_, fun hne => hne⟩
  intro hclient
  rw [hlocation] at hclient
  obtain rfl : source = c.clientAddr := Option.some.inj hclient
  rcases hfrom d (ht rfl) with hserving | ⟨hzero, beyond, rfl⟩
  · exact absurd hserving hother
  · obtain ⟨hparent, hbuffer⟩ := h.root hzero
    constructor
    · intro _
      apply (hparent.turn (t.onDisk c.disk p)).2.1
      rw [hq]
      exact List.mem_singleton_self _
    · rw [mainTurn_filenameDatagram _ _ hbuffer] at hrequest
      rw [hlocation, ← Option.some.inj hrequest]
      exact requestOf_beyond c.params beyond

theorem System.Serves.fromRcopy_socket (h : s.Serves c file) (hk : s.sockets[i]? = some k) :
    FromRcopy c (s.network c) i k :=
  fun _ hd => h.sockets.client_of_dest hk (h.fromRcopy hd)

theorem System.Serves.attends_set (h : s.Serves c file) (hp : s.server.processes[i]? = some p)
    (hk : s.sockets[i]? = some k) (hq : q.Attends c file i k) {j : ℕ} {r : Process} {l : Socket}
    (hr : (s.server.processes.set i q)[j]? = some r) (hl : s.sockets[j]? = some l) :
    r.Attends c file j l := by
  by_cases hij : i = j
  · subst hij
    have hlt := (List.getElem?_eq_some_iff.mp hp).1
    rw [List.getElem?_set_self hlt] at hr
    rw [← Option.some.inj hr, ← Option.some.inj (hk.symm.trans hl)]
    exact hq
  · rw [List.getElem?_set_ne hij] at hr
    exact h.processes j r l hr hl

/-- What process `i` sends in a turn. -/
theorem System.Serves.sends (h : s.Serves c file) (hasks : Asks c file)
    (hp : s.server.processes[i]? = some p) (hk : s.sockets[i]? = some k)
    {m : SockAddr × SockAddr × List UInt8} (hm : m ∈ p.sends k t) : Served c file s.sockets m := by
  obtain ⟨source, dest, d⟩ := m
  have hattends := h.processes i p k hp hk
  have hmem := List.mem_of_getElem? hk
  obtain ⟨rfl, hcases⟩ := mem_sends hm
  -- a process that sends to rcopy has been forked for it
  have hclient : dest = c.clientAddr → k.client = some c.clientAddr := by
    rintro rfl
    rcases hcases with ⟨hlocation, -⟩ | ⟨-, -, -, -, hclient, -⟩
    · by_contra hne
      exact hattends.others hne hlocation
    · exact hclient
  refine ⟨h.sockets.ne_client k hmem, ?_, ?_⟩
  · exact fun hdest => ⟨k, hmem, rfl, hclient hdest⟩
  · intro hdest hflag
    exact (hattends.serves (hclient hdest)).ofFile hasks hm hflag

theorem System.Serves.serve (h : s.Serves c file) (hasks : Asks c file)
    (hp : s.server.processes[i]? = some p) (hk : s.sockets[i]? = some k)
    (ht : t.FromHosts (s.network c) c.clientAddr k.addr)
    (hfree : (p.turn (t.onDisk c.disk p)).forked = [] ∨ s.Free c port)
    (hother : (p.turn (t.onDisk c.disk p)).forked = [] ∨ k.client ≠ some c.clientAddr) :
    (s.serve i p k (t.onDisk c.disk p) port).Serves c file := by
  have hattends := h.processes i p k hp hk
  have hfrom := h.fromRcopy_socket hk
  have hturn := hattends.turn hasks hfrom ht
  have hserved : ∀ m ∈ s.served ++ p.sends k (t.onDisk c.disk p), Served c file s.sockets m := by
    intro m hm
    rcases List.mem_append.mp hm with hold | hnew
    · exact h.served m hold
    · exact h.sends hasks hp hk hnew
  have hprocesses := step_processes hp (t.onDisk c.disk p)
  rcases p.turn_forked_cases (t.onDisk c.disk p) with hnone | ⟨_, _, _, q, -, -, -, hforked, -⟩
  · rw [hnone, List.append_nil] at hprocesses
    have hsockets : (s.serve i p k (t.onDisk c.disk p) port).sockets = s.sockets := by
      simp [System.serve, hnone]
    constructor
    · rw [hsockets, System.serve, hprocesses, List.length_set]
      exact h.length
    · rw [hsockets]
      exact h.sockets
    · intro j r l hr hl
      rw [System.serve, hprocesses] at hr
      rw [hsockets] at hl
      exact h.attends_set hp hk hturn hr hl
    · rw [hsockets]
      exact hserved
    · rw [hsockets]
      exact h.rcopy
    · exact h.fetches
  · rw [hforked] at hprocesses hfree hother
    obtain ⟨hne, hfresh⟩ := hfree.resolve_left (List.cons_ne_nil _ _)
    have hother := hother.resolve_left (List.cons_ne_nil _ _)
    have hsockets : (s.serve i p k (t.onDisk c.disk p) port).sockets =
        s.sockets ++ [⟨port, q.location.client, i⟩] := by
      simp [System.serve, hforked]
    constructor
    · rw [hsockets, System.serve, hprocesses, List.length_append, List.length_append,
        List.length_set, h.length]
      rfl
    · rw [hsockets]
      exact h.sockets.append hne hfresh
    · intro j r l hr hl
      rw [System.serve, hprocesses] at hr
      rw [hsockets] at hl
      by_cases hlt : j < s.sockets.length
      · rw [List.getElem?_append_left (by rwa [List.length_set, ← h.length])] at hr
        rw [List.getElem?_append_left hlt] at hl
        exact h.attends_set hp hk hturn hr hl
      · rw [List.getElem?_append_right (by
          rw [List.length_set, ← h.length]
          exact not_lt.mp hlt), List.getElem?_singleton] at hr
        rw [List.getElem?_append_right (not_lt.mp hlt), List.getElem?_singleton] at hl
        split_ifs at hr hl
        rw [← Option.some.inj hr, ← Option.some.inj hl]
        have hpos := (List.getElem?_eq_some_iff.mp h.sockets.main).1
        exact hattends.forked hfrom ht hother hforked (by omega)
    · rw [hsockets]
      intro m hm
      exact (hserved m hm).append _
    · rw [hsockets]
      exact h.rcopy.append
    · exact h.fetches

end Processes

/-! ## Runs -/

section Runs

variable {c : SystemSetup} {file : List UInt8} {s : System} {e : SystemEvent} {p : Process}
  {k : Socket} {t : ProcessTurn} {port : SockAddr} {i : ℕ}

theorem serve_sockets {j : ℕ} {l : Socket} (hl : s.sockets[j]? = some l) :
    (s.serve i p k t port).sockets[j]? = some l := by
  rw [System.serve, List.getElem?_append_left (List.getElem?_eq_some_iff.mp hl).1]
  exact hl

/-- The sockets that there are stay. -/
theorem step_sockets (c : SystemSetup) (s : System) (e : SystemEvent) :
    s.sockets <+: (s.step c e).sockets := by
  cases e with
  | rcopy e =>
    simp only [System.step]
    split_ifs
    · exact List.prefix_rfl
    · exact List.prefix_rfl
  | server i t port =>
    simp only [System.step]
    split
    · split_ifs
      · exact List.prefix_append _ _
      · exact List.prefix_rfl
    · exact List.prefix_rfl

theorem System.NoneForked.of_step (h : (s.step c e).NoneForked c) : s.NoneForked c := by
  obtain ⟨new, hnew⟩ := step_sockets c s e
  rw [System.NoneForked, ← hnew] at h
  intro k hk hforked
  obtain ⟨l, hl, hclient⟩ := Option.bind_eq_some_iff.mp hforked
  apply h k (List.mem_append_left new hk)
  rw [List.getElem?_append_left (List.getElem?_eq_some_iff.mp hl).1, hl]
  exact hclient

theorem System.NoneForked.forked (h : (s.serve i p k t port).NoneForked c)
    (hk : s.sockets[i]? = some k) : (p.turn t).forked = [] ∨ k.client ≠ some c.clientAddr := by
  rcases (p.turn t).forked.eq_nil_or_concat with hnone | ⟨qs, q, hqs⟩
  · exact Or.inl hnone
  · right
    intro hclient
    apply h ⟨port, q.location.client, i⟩
    · rw [System.serve, hqs]
      simp
    · rw [serve_sockets hk]
      exact hclient

theorem System.Serves.step (h : s.Serves c file) (hasks : Asks c file) (hdata : e.TakesData)
    (hforked : (s.step c e).NoneForked c) : (s.step c e).Serves c file := by
  cases e with
  | rcopy e =>
    simp only [System.step]
    split_ifs with hbrings
    · exact h.rcopy_turn hasks hbrings hdata
    · exact h
  | server i t port =>
    simp only [System.step] at hforked ⊢
    split at hforked
    · next p k hp hk =>
      split_ifs at hforked ⊢ with hguard
      · exact h.serve hasks hp hk hguard.1 hguard.2 (hforked.forked hk)
      · exact h
    · exact h

theorem enterSystem_serves (c : SystemSetup) (file : List UInt8) (stack : ℕ → UInt8)
    (t : ClientTurn) (heap : ℕ → PollFd) : (enterSystem c stack t heap).Serves c file := by
  have hzero : ∀ {α : Type} {x y : α} {j : ℕ}, [x][j]? = some y → j = 0 ∧ y = x := by
    intro α x y j hj
    rw [List.getElem?_singleton] at hj
    split_ifs at hj with hj₀
    exact ⟨hj₀, (Option.some.inj hj).symm⟩
  refine ⟨rfl, ⟨rfl, ?_, ?_⟩, ?_, ?_, ⟨enterClientMain_requests c _ t, ?_⟩, ?_⟩
  · intro i j k l hk hl _
    rw [(hzero hk).1, (hzero hl).1]
  · intro k hk
    rw [List.mem_singleton.mp hk]
    exact c.client_ne_main.symm
  · intro i p k hp hk
    rw [(hzero hp).2, (hzero hk).2]
    refine ⟨fun _ => ⟨⟨rfl, rfl⟩, length_uninit stack 114⟩, ?_, ?_⟩
    · intro hclient
      cases hclient
    · intro _ hclient
      cases hclient
  · intro m hm
    cases hm
  · intro g hg
    cases hg
  · intro g hg
    cases hg

theorem exec_serves (hasks : Asks c file) (stack : ℕ → UInt8) (t : ClientTurn)
    (heap : ℕ → PollFd) (events : List SystemEvent) (hdata : ∀ e ∈ events, e.TakesData)
    (hforked : (Runs.exec (System.step c) (enterSystem c stack t heap) events).NoneForked c) :
    (Runs.exec (System.step c) (enterSystem c stack t heap) events).Serves c file := by
  have hrun : Runs.Always (System.step c) (fun s => s.NoneForked c → s.Serves c file)
      (enterSystem c stack t heap) events := by
    apply Runs.always_of_keep (C := fun _ (e : SystemEvent) => e.TakesData)
    · intro s e hs he hafter
      exact (hs hafter.of_step).step hasks he hafter
    · exact fun _ => enterSystem_serves c file stack t heap
    · exact Runs.everyStep_of_forall hdata fun _ _ he => he
  exact hrun.last hforked

/-- What is determined of the output, and that it is whole buffers. -/
theorem System.Serves.output (h : s.Serves c file) (hasks : Asks c file) {b : List UInt8}
    (hb : s.rcopy.output = some b) :
    c.params.bufferSize.toNat ∣ b.length ∧ ∃ ks padding,
      Chunks.Selects file c.params.bufferSize.toNat (firstWindow c.params.windowSize).toNat ks
        padding b := by
  have hpos := hasks.buffer_pos
  rw [RcopyMain.output] at hb
  cases hget : s.rcopy.getData with
  | none =>
    rw [hget] at hb
    rw [← Option.some.inj hb]
    exact ⟨Nat.dvd_zero _, [], [], Chunks.selects_nil (by omega)⟩
  | some g =>
    rw [hget] at hb
    have hfetches := h.fetches g hget
    obtain ⟨n, -, hlen⟩ := hfetches.output.bytes b hb
    obtain ⟨ks, padding, hsel⟩ := hfetches.copies b hb
    have hle := hfetches.expects.expected_le
    have hmono := hsel.mono (Int.toNat_le_toNat (hle.trans (sub_add_cancel _ 1).le))
    exact ⟨Dvd.intro_left n hlen.symm, ks, padding, hmono⟩

end Runs

theorem oneFile_client : (⟨1, 4000⟩ : SockAddr) ≠ mainServer (paramsOf digitOne) 0 := by decide

/-- The server has one file of one byte. -/
def oneFile : SystemSetup where
  params := paramsOf digitOne
  host := 0
  clientAddr := ⟨1, 4000⟩
  socketNum := 3
  disk := fun _ => some [7]
  client_ne_main := oneFile_client

end Rcopy
