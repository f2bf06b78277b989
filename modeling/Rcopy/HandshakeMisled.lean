import Rcopy.HandshakeOutcome

/-!
# How a lossy handshake is misled

What rcopy does when the first datagram that gets through is not a 33, or its 9 is
lost or comes too late. It then never reaches `GET_DATA`, since no child says 33
twice and the retry of `doFileValidState` does not go to the main server.
-/

namespace Rcopy

/-- No 33 will come, and no 9 in time for `doFileValidState` after `r` retries. -/
structure Hopeless (children : List (ℕ × Child)) (r : ℕ) (socket : List (SockAddr × List UInt8)) :
    Prop where
  noTalk : NoFlag 33 socket
  noStarted : ∀ x ∈ children, x.2.phase ≠ .started
  noValid : (NoFlag 9 socket ∧ ∀ x ∈ children, x.2.phase ≠ .getFilename) ∨
    (9 ≤ r + socket.length ∧ NoFlag 9 (socket.take (9 - r)))

inductive Doomed (h : HandshakeSetup) (s : LossyHandshake) : Prop
  | done (hphase : s.client.phase = .done)
  | misled (n : ℕ) (m : SockAddr × List UInt8) (rest : List (SockAddr × List UInt8))
      (hphase : s.client.phase = .awaitTalk n) (hsocket : s.socket = m :: rest)
      (hflag : flagOf m.2 ≠ 33 ∨ Hopeless s.children 0 rest)
  | astray (n : ℕ) (hphase : s.client.phase = .awaitTalk n) (hserver : s.client.server ≠ h.mainAddr)
      (htalk : NoFlag 33 s.socket) (hstarted : ∀ x ∈ s.children, x.2.phase ≠ .started)
  | waiting (r : ℕ) (hphase : s.client.phase = .awaitValid r) (hr : r ≤ 8)
      (hserver : s.client.server ≠ h.mainAddr) (hvalid : Hopeless s.children r s.socket)

section Steps

variable {h : HandshakeSetup} {lost : Losses} {s s' : LossyHandshake} {t : ClientTurn}
  {children : List (ℕ × Child)} {r : ℕ} {socket : List (SockAddr × List UInt8)}

theorem Doomed.not_getData (hs : Doomed h s) : s.client.phase ≠ .getData := by
  intro hget
  cases hs with
  | done hphase => rw [hget] at hphase; cases hphase
  | misled n m rest hphase _ _ => rw [hget] at hphase; cases hphase
  | astray n hphase _ _ _ => rw [hget] at hphase; cases hphase
  | waiting r hphase _ _ _ => rw [hget] at hphase; cases hphase

theorem Hopeless.head {m : SockAddr × List UInt8} (hs : Hopeless children r (m :: socket))
    (hr : r ≤ 8) : flagOf m.2 ≠ 9 := by
  rcases hs.noValid with ⟨hnone, -⟩ | ⟨-, hnone⟩
  · exact hnone m List.mem_cons_self
  · obtain ⟨k, hk⟩ : ∃ k, 9 - r = k + 1 := ⟨8 - r, by omega⟩
    rw [hk, List.take_succ_cons] at hnone
    exact hnone m List.mem_cons_self

theorem Hopeless.tail (hs : Hopeless children r socket) (hr : r ≤ 8) :
    Hopeless children (r + 1) socket.tail := by
  refine ⟨fun m hm => hs.noTalk m (List.mem_of_mem_tail hm), hs.noStarted, ?_⟩
  rcases hs.noValid with ⟨hnone, hsettled⟩ | ⟨hlate, hnone⟩
  · exact Or.inl ⟨fun m hm => hnone m (List.mem_of_mem_tail hm), hsettled⟩
  · right
    cases socket with
    | nil => simp only [List.length_nil] at hlate; omega
    | cons m rest =>
      obtain ⟨k, hk⟩ : ∃ k, 9 - r = k + 1 := ⟨8 - r, by omega⟩
      rw [hk, List.take_succ_cons] at hnone
      rw [List.length_cons] at hlate
      obtain rfl : k = 9 - (r + 1) := by omega
      exact ⟨by rw [List.tail_cons]; omega, fun m hm => hnone m (List.mem_cons_of_mem _ hm)⟩

theorem Doomed.awaitTalk {n : ℕ} (hs : Doomed h s) (hphase : s.client.phase = .awaitTalk n) :
    (∃ m rest, s.socket = m :: rest ∧ (flagOf m.2 ≠ 33 ∨ Hopeless s.children 0 rest)) ∨
      (s.client.server ≠ h.mainAddr ∧ NoFlag 33 s.socket ∧
        ∀ x ∈ s.children, x.2.phase ≠ .started) := by
  cases hs with
  | done hdone => rw [hphase] at hdone; cases hdone
  | misled n m rest _ hsocket hflag => exact Or.inl ⟨m, rest, hsocket, hflag⟩
  | astray n _ hserver htalk hstarted => exact Or.inr ⟨hserver, htalk, hstarted⟩
  | waiting r hr _ _ _ => rw [hphase] at hr; cases hr

theorem Doomed.awaitValid (hs : Doomed h s) (hphase : s.client.phase = .awaitValid r) :
    r ≤ 8 ∧ s.client.server ≠ h.mainAddr ∧ Hopeless s.children r s.socket := by
  cases hs with
  | done hdone => rw [hphase] at hdone; cases hdone
  | misled n m rest hn _ _ => rw [hphase] at hn; cases hn
  | astray n hn _ _ _ => rw [hphase] at hn; cases hn
  | waiting r' hr' hle hserver hvalid =>
    rw [hphase] at hr'
    cases hr'
    exact ⟨hle, hserver, hvalid⟩

theorem Doomed.clientStep (hbase : LossyBase h s) (hs : Doomed h s)
    (hstep : LossyClientStep h lost s t s') : Doomed h s' := by
  cases hstep with
  | waits _ => exact hs
  | stopped _ => exact hs
  | resent n hphase _ hsocket _ =>
    rcases hs.awaitTalk hphase with ⟨m, rest, hsome, -⟩ | ⟨hserver, htalk, hstarted⟩
    · rw [hsocket] at hsome
      cases hsome
    · rw [deliverRequest_other hserver]
      exact .astray (n + 1) rfl hserver htalk hstarted
  | exhausted n _ _ _ _ => exact .done rfl
  | redirected n m rest hphase hsocket hflag buffer =>
    have hmain := (hbase.head hsocket).1
    rcases hs.awaitTalk hphase with ⟨m', rest', hsome, hdead⟩ | ⟨-, htalk, -⟩
    · rw [hsocket] at hsome
      cases hsome
      rw [LossyHandshake.read_of_cons hsocket]
      exact .waiting 0 rfl (Nat.zero_le 8) hmain (hdead.resolve_left fun hne => hne hflag)
    · exact absurd hflag (htalk m (by rw [hsocket]; exact List.mem_cons_self))
  | refused n m rest _ _ _ => exact .done rfl
  | valid r m rest hphase hsocket hflag =>
    obtain ⟨hr, -, hhope⟩ := hs.awaitValid hphase
    rw [hsocket] at hhope
    exact absurd hflag (hhope.head hr)
  | retried r hphase _ _ hr =>
    obtain ⟨hle, hserver, hhope⟩ := hs.awaitValid hphase
    exact .waiting (r + 1) rfl (by omega) (hbase.read_server hserver) (hhope.tail hle)
  | gaveUp r hphase _ _ _ buffer =>
    obtain ⟨hle, hserver, hhope⟩ := hs.awaitValid hphase
    have hmain := hbase.read_server hserver
    rw [deliverRequest_other hmain]
    exact .astray 0 rfl hmain (hhope.tail hle).noTalk hhope.noStarted

end Steps

section ChildSteps

variable {h : HandshakeSetup} {lost : Losses} {s s' : LossyHandshake} {i n : ℕ} {c c' : Child}
  {pdu : Option (List UInt8)}

theorem Hopeless.childMoved {r : ℕ} {socket : List (SockAddr × List UInt8)}
    (hs : Hopeless s.children r socket) (hc : s.children[i]? = some (n, c))
    (hmoves : ChildMoves c c' pdu) (delivered : Prop) [Decidable delivered] (addr : SockAddr) :
    Hopeless (s.children.set i (n, c')) r
      (socket ++ if delivered then (pdu.map fun p => (addr, p)).toList else []) := by
  have hmem := List.mem_of_getElem? hc
  refine ⟨hs.noTalk.append (hmoves.noTalk (hs.noStarted (n, c) hmem) addr delivered), ?_, ?_⟩
  · intro x hx
    rcases List.mem_or_eq_of_mem_set hx with hold | rfl
    · exact hs.noStarted x hold
    · exact hmoves.not_started
  · rcases hs.noValid with ⟨hnone, hsettled⟩ | ⟨hlate, hnone⟩
    · left
      refine ⟨hnone.append (hmoves.noValid (hsettled (n, c) hmem) addr delivered), ?_⟩
      intro x hx
      rcases List.mem_or_eq_of_mem_set hx with hold | rfl
      · exact hsettled x hold
      · cases hmoves with
        | talks _ hphase _ _ => exact absurd hphase (hs.noStarted (n, c) hmem)
        | validates _ _ hnext _ => rw [hnext]; decide
        | returns _ hnext => rw [hnext]; decide
        | streams _ _ hnext _ => rw [hnext]; decide
    · right
      rw [List.length_append, List.take_append_of_le_length (by omega)]
      exact ⟨by omega, hnone⟩

theorem Doomed.childStep (hs : Doomed h s) (hstep : LossyChildStep h lost s i s') : Doomed h s' := by
  cases hstep with
  | absent _ => exact hs
  | moved n c c' pdu hc hmoves hlen hsent hnext =>
    have hmem := List.mem_of_getElem? hc
    cases hs with
    | done hphase => exact .done hphase
    | misled m d rest hphase hsocket hflag =>
      refine .misled m d _ hphase (by rw [hsocket, List.cons_append]) ?_
      rcases hflag with hflag | hhope
      · exact Or.inl hflag
      · exact Or.inr (hhope.childMoved hc hmoves _ _)
    | astray m hphase hserver htalk hstarted =>
      refine .astray m hphase hserver
        (htalk.append (hmoves.noTalk (hstarted (n, c) hmem) (h.childAddr i) _)) ?_
      intro x hx
      rcases List.mem_or_eq_of_mem_set hx with hold | rfl
      · exact hstarted x hold
      · exact hmoves.not_started
    | waiting r hphase hr hserver hhope =>
      exact .waiting r hphase hr hserver (hhope.childMoved hc hmoves _ _)

/-- What rcopy has heard is not enough when no 9 is among it and none will be in time. -/
theorem Heard.doomed (hheard : Heard h s) (honce : NoFlag 33 s.arrived.tail)
    (hstarted : ∀ x ∈ s.children, x.2.phase ≠ .started) (hnone : NoFlag 9 s.arrived)
    (hlate : (∀ x ∈ s.children, x.2.phase ≠ .getFilename) ∨ 10 ≤ s.arrived.length) :
    Doomed h s := by
  have harrived : s.arrived = s.client.received ++ s.socket := rfl
  cases hheard with
  | talk n m rest hphase hn hreceived hsocket hflag =>
    rw [hreceived, hsocket, List.nil_append] at harrived
    rw [harrived] at honce hnone hlate
    have hrest : NoFlag 9 rest := fun m' hm' => hnone m' (List.mem_cons_of_mem _ hm')
    refine .misled n m rest hphase hsocket (Or.inr ⟨honce, hstarted, ?_⟩)
    rcases hlate with hsettled | hlate
    · exact Or.inl ⟨hrest, hsettled⟩
    · rw [List.length_cons] at hlate
      exact Or.inr ⟨by omega, fun m' hm' => hrest m' (List.mem_of_mem_take hm')⟩
  | valid r hphase hr hreceived hno hserver =>
    have hsome : s.client.received ≠ [] := by
      intro hnil
      rw [hnil] at hreceived
      cases hreceived
    rw [harrived, List.tail_append_of_ne_nil hsome] at honce
    rw [harrived] at hnone hlate
    have hrest : NoFlag 9 s.socket := fun m' hm' => hnone m' (List.mem_append_right _ hm')
    refine .waiting r hphase hr hserver
      ⟨fun m' hm' => honce m' (List.mem_append_right _ hm'), hstarted, ?_⟩
    rcases hlate with hsettled | hlate
    · exact Or.inl ⟨hrest, hsettled⟩
    · rw [List.length_append, hreceived] at hlate
      exact Or.inr ⟨by omega, fun m' hm' => hrest m' (List.mem_of_mem_take hm')⟩
  | getData hphase hvalid =>
    obtain ⟨m, hm, hflag⟩ := hvalid
    exact absurd hflag (hnone m hm)

theorem Silent.missed {m : ℕ} (hs : Silent h lost s m) (hmiss : ¬RepliesWhole lost s n c)
    (hmoves : ChildMoves c c' pdu) :
    Doomed h (s.childMoved i n c' (if lost n (c.sent.length + 1) = false then
      (pdu.map fun p => (h.childAddr i, p)).toList else [])) := by
  have harrived := hs.arrived
  have hsocket := (LossyHandshake.arrived_eq_nil harrived).2
  obtain ⟨hlost, hphase⟩ : lost n (c.sent.length + 1) = false ∧
      (c.phase = .getFilename ∨ c.phase = .sendData) := by
    by_contra hfine
    rw [not_and_or, not_or] at hfine
    exact hmiss ⟨fun _ hl => hfine.resolve_left fun hne => hne hl,
      fun hne => absurd harrived hne, fun hne => absurd harrived hne⟩
  rw [if_pos hlost]
  cases hmoves with
  | talks p hstarted _ _ =>
    rcases hphase with hphase | hphase <;> rw [hstarted] at hphase <;> cases hphase
  | validates p _ _ hflag =>
    refine .misled m (h.childAddr i, p) [] hs.phase ?_ (Or.inl ?_)
    · rw [LossyHandshake.childMoved, hsocket]
      rfl
    · rw [hflag]
      decide
  | returns hreturned _ =>
    rcases hphase with hphase | hphase <;> rw [hreturned] at hphase <;> cases hphase
  | streams p _ _ hflag =>
    refine .misled m (h.childAddr i, p) [] hs.phase ?_ (Or.inl ?_)
    · rw [LossyHandshake.childMoved, hsocket]
      rfl
    · rw [hflag]
      decide

theorem Talked.validLost (hs : Talked h s) (hc : s.children[i]? = some (n, c))
    (hphase : c.phase = .getFilename) (hmoves : ChildMoves c c' pdu) :
    Doomed h (s.childMoved i n c' []) := by
  have hnone : NoFlag 33 [] := fun m hm => absurd hm List.not_mem_nil
  refine (hs.heard.childMoved i n c' []).doomed (hs.once_childMoved hnone i n c')
    (hs.noStarted_childMoved hmoves i n []) ?_ (Or.inl ?_)
  · rw [LossyHandshake.childMoved_arrived, List.append_nil]
    exact (hs.pending hc hphase).noValid
  · intro x hx
    rcases mem_children_set hx with ⟨j, hji, hj⟩ | rfl
    · exact fun hx => hs.settled.others hc (Or.inr hphase) hji hj (Or.inr hx)
    · cases hmoves with
      | talks p hstarted _ _ => rw [hphase] at hstarted; cases hstarted
      | validates p _ hnext _ => rw [hnext]; decide
      | returns _ hnext => rw [hnext]; decide
      | streams p hstreams _ _ => rw [hphase] at hstreams; cases hstreams

theorem Talked.validLate {p : List UInt8} (hs : Talked h s)
    (hmoves : ChildMoves c c' (some p)) (hflag : flagOf p = 16)
    (hlength : 9 ≤ s.arrived.length) (hnone : NoFlag 9 s.arrived) :
    Doomed h (s.childMoved i n c' [(h.childAddr i, p)]) := by
  have hother : ∀ flag, flag ≠ 16 → NoFlag flag [(h.childAddr i, p)] := by
    intro flag hne m hm
    rw [List.mem_singleton.mp hm, hflag]
    exact hne.symm
  refine (hs.heard.childMoved i n c' _).doomed (hs.once_childMoved (hother 33 (by decide)) i n c')
    (hs.noStarted_childMoved hmoves i n _) ?_ (Or.inr ?_)
  · rw [LossyHandshake.childMoved_arrived]
    exact hnone.append (hother 9 (by decide))
  · rw [LossyHandshake.childMoved_arrived, List.length_append, List.length_singleton]
    omega

theorem Talked.missed (hs : Talked h s) (hc : s.children[i]? = some (n, c))
    (hmiss : ¬RepliesWhole lost s n c) (hmoves : ChildMoves c c' pdu) :
    Doomed h (s.childMoved i n c' (if lost n (c.sent.length + 1) = false then
      (pdu.map fun p => (h.childAddr i, p)).toList else [])) := by
  have hsome := hs.heard.arrived_ne_nil
  by_cases hphase : c.phase = .getFilename
  · have hlost : ¬lost n (c.sent.length + 1) = false := by
      intro hl
      exact hmiss ⟨fun hnil => absurd hnil hsome, fun _ _ => hl,
        fun _ hstreams => by rw [hphase] at hstreams; cases hstreams⟩
    rw [if_neg hlost]
    exact hs.validLost hc hphase hmoves
  · obtain ⟨hstreams, hlost, hlate⟩ : c.phase = .sendData ∧ lost n (c.sent.length + 1) = false ∧
        ¬(s.arrived.length < 9 ∨ ∃ m ∈ s.arrived, flagOf m.2 = 9) := by
      by_contra hfine
      refine hmiss ⟨fun hnil => absurd hnil hsome, fun _ hwaits => absurd hwaits hphase, ?_⟩
      intro _ hstreams hlost
      by_contra hlate
      exact hfine ⟨hstreams, hlost, hlate⟩
    rw [not_or, not_lt] at hlate
    have hnone : NoFlag 9 s.arrived := fun m hm hm9 => hlate.2 ⟨m, hm, hm9⟩
    rw [if_pos hlost]
    have hcopy := hmoves
    cases hmoves with
    | talks p hstarted _ _ => rw [hstreams] at hstarted; cases hstarted
    | validates p hwaits _ _ => exact absurd hwaits hphase
    | returns hreturned _ => rw [hstreams] at hreturned; cases hreturned
    | streams p _ _ hflag => exact hs.validLate hcopy hflag hlate.1 hnone

end ChildSteps

section Runs

variable {h : HandshakeSetup} {lost : Losses} {s : LossyHandshake}

theorem Doomed.turn (hopen : h.openable (h.params.srcFilename.take 100) = true)
    (hs : LossyBase h s ∧ Doomed h s) (e : LossyTurn) :
    LossyBase h (lossyTurn h lost s e) ∧ Doomed h (lossyTurn h lost s e) := by
  obtain ⟨hbase, hs⟩ := hs
  cases e with
  | client t =>
    have hstep := lossyClientTurn_step hbase lost t
    exact ⟨hstep.base hbase, hs.clientStep hbase hstep⟩
  | child i t =>
    have hstep := lossyChildTurn_step hbase hopen lost i t
    exact ⟨hstep.base hbase, hs.childStep hstep⟩

theorem Undecided.missed (hopen : h.openable (h.params.srcFilename.take 100) = true)
    (hs : Undecided h lost s) {e : LossyTurn} (hmiss : ¬KeepsHandshake lost s e) :
    LossyBase h (lossyTurn h lost s e) ∧ Doomed h (lossyTurn h lost s e) := by
  obtain ⟨hbase, hs⟩ := hs
  cases e with
  | client t => exact absurd trivial hmiss
  | child i t =>
    have hstep := lossyChildTurn_step hbase hopen lost i t
    refine ⟨hstep.base hbase, ?_⟩
    simp only [KeepsHandshake, not_forall] at hmiss
    obtain ⟨n, c, hc, hmiss⟩ := hmiss
    simp only [lossyTurn]
    generalize lossyChildTurn h lost s i t = s' at hstep
    cases hstep with
    | absent hnone => rw [hc] at hnone; cases hnone
    | moved n' c₁ c' pdu hc' hmoves _ _ _ =>
      rw [hc] at hc'
      cases hc'
      rcases hs with ⟨m, hsilent⟩ | htalked
      · exact hsilent.missed hmiss hmoves
      · exact htalked.missed hc hmiss hmoves

end Runs

/-- With a whole attempt among the first nine requests, rcopy is in `GET_DATA` after
eighteen polls exactly when the run keeps the replies of the child that it hears first. -/
theorem lossyHandshake_getData_iff (h : HandshakeSetup) (lost : Losses) (t : ClientTurn)
    (stack : ℕ → UInt8) (turns : List LossyTurn)
    (hopen : h.openable (h.params.srcFilename.take 100) = true) (hwhole : WholeAttempt lost)
    (hpolls : 18 ≤ Runs.tally (lossyTurn h lost) PollReturns (enterLossy h lost t stack) turns) :
    (Runs.exec (lossyTurn h lost) (enterLossy h lost t stack) turns).client.phase = .getData ↔
      Runs.EveryStep (lossyTurn h lost) (KeepsHandshake lost) (enterLossy h lost t stack) turns := by
  have hstart := enterLossy_undecided h lost t stack
  have hkept : ∀ s e, Undecided h lost s → KeepsHandshake lost s e →
      Undecided h lost (lossyTurn h lost s e) :=
    fun s e hs hkeep => (hs.turn hopen hwhole e hkeep).1
  constructor
  · intro hget
    have hend : Runs.EveryStep (lossyTurn h lost) (KeepsHandshake lost) _ turns ∨ _ :=
      Runs.everyStep_or_exec (J := fun s => LossyBase h s ∧ Doomed h s) hkept
        (fun _ _ hs hmiss => hs.missed hopen hmiss) (fun _ e hs => Doomed.turn hopen hs e) hstart
    exact hend.resolve_right fun hdoom => hdoom.2.not_getData hget
  · intro hkeeps
    have hend : Undecided h lost (Runs.exec (lossyTurn h lost) _ turns) :=
      (Runs.always_of_keep hkept hstart hkeeps).last
    have hrank : LossyHandshake.rank (Runs.exec (lossyTurn h lost) _ turns) ≤ _ - _ :=
      Runs.rank_exec_le (C := PollReturns) hkept
        (fun s e hs hkeep => (hs.turn hopen hwhole e hkeep).2.1)
        (fun s e hs hkeep => (hs.turn hopen hwhole e hkeep).2.2) hstart hkeeps
    have hle := (enterLossy h lost t stack).rank_le
    exact hend.getData (by omega)

/-- A child whose two replies are read, and the polls that are left to rcopy. -/
def heardTurns : List LossyTurn :=
  [.child 0 (childTurnOf .timeout), .child 0 (childTurnOf .timeout)] ++
    List.replicate 18 (.client (clientTurnOf .timeout))

theorem lossyHandshake_getData_all :
    Runs.EveryStep (lossyTurn openSetup fun _ _ => false) (KeepsHandshake fun _ _ => false)
      (enterLossy openSetup (fun _ _ => false) (clientTurnOf .timeout) fun _ => 0) heardTurns :=
  (lossyHandshake_getData_iff openSetup (fun _ _ => false) (clientTurnOf .timeout) (fun _ => 0)
    heardTurns rfl ⟨0, by decide⟩ (by decide +kernel)).mp (by decide +kernel)

/-- The 33 of the first child is lost and its 9 is not. -/
theorem lossyHandshake_getData_lost :
    ¬∀ (h : HandshakeSetup) (lost : Losses) (t : ClientTurn) (stack : ℕ → UInt8)
      (turns : List LossyTurn), h.openable (h.params.srcFilename.take 100) = true →
      WholeAttempt lost →
      18 ≤ Runs.tally (lossyTurn h lost) PollReturns (enterLossy h lost t stack) turns →
      (Runs.exec (lossyTurn h lost) (enterLossy h lost t stack) turns).client.phase = .getData := by
  intro hall
  have hget := hall openSetup (fun k j => k = 0 && j = 1) (clientTurnOf .timeout) (fun _ => 0)
    heardTurns rfl ⟨1, by decide⟩ (by decide +kernel)
  exact absurd hget (by decide +kernel)

end Rcopy
