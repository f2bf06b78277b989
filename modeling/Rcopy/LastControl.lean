import Rcopy.Lib.Runs
import Rcopy.ReceiveProgress

/-!
# The last RR of rcopy

`expected` moves on in two places: `doInOrderState` saves an RR for the new number and
sends it, `doFlushingState` does neither. After the first the sub-state is `done`, in
which nothing moves any more, so the RR is stale only after a flush or when it could
not be sent.
-/

namespace Rcopy

open Bytes

/-- The control PDUs whose `sendtoErr` has succeeded. -/
def Receiver.delivered (r : Receiver) : List (List UInt8) :=
  (r.sent.filter fun m => 0 ≤ m.result).map Sent.pdu

/-- The last RR carries `expected`, and the saved copy is what was sent last. -/
structure Position (r : Receiver) : Prop where
  lastRR : (r.delivered.filterMap rrNumber).getLast? = some (toU32 r.rbuf.expected)
  initialised : r.rbuf.hasLastControl ≠ 0
  saved : r.delivered.getLast? =
    some (r.rbuf.lastControlPacket.take r.rbuf.lastControlPacketSize.toNat)

/-- At a head of the receive loop that has an `expected` above 0. -/
def NeverStale (s : GetData) : Prop :=
  s.exit = none → 0 < s.receiver.rbuf.expected → Position s.receiver

/-- Of at most `n` attempts one succeeds, before any of them has brought the packet. -/
def SendsRR (c : Client) (expected : UInt32) (attempts : ℕ → Attempt) (n : ℕ) : Prop :=
  ∃ k < n, 0 ≤ (attempts k).sent ∧ ∀ j < k, (attempts j).brings c expected = false

/-- The turn receives a datagram and the loop goes on after it. -/
structure Receives (c : Client) (s : GetData) (t : Turn) (d : List UInt8) : Prop where
  exit : s.exit = none
  poll : 0 < t.poll
  recv : t.recv = some d
  nonempty : d ≠ []
  goesOn : flagOf (t.received c d) ≠ 10

/-- The RR for a packet that arrives in order is sent, and no new packet is handled in
the flushing sub-state. -/
def Acknowledges (c : Client) (s : GetData) (t : Turn) : Prop :=
  ∀ d, Receives c s t d →
    (s.subState = .inOrder → seqOf (t.received c d) = toU32 s.receiver.rbuf.expected →
      SendsRR c (toU32 (i32 (s.receiver.rbuf.expected + 1))) t.attempts 9) ∧
    (s.subState = .flushing → seqOf (t.received c d) < toU32 s.receiver.rbuf.expected)

section Pdus

variable (flag : UInt8) (l n : UInt32)

theorem rrNumber_sealControl : rrNumber (sealControl (makeControlPacket flag l n)) =
    if flag = 5 then some n else none := by
  rw [sealControl_eq]
  generalize calculateRR_SREJPacketChecksum _ = checksum
  have hflag : flagOf (store32 (htonl l) ++ store16 checksum ++ (flag :: store32 (htonl n))) =
      flag := rfl
  have hheader : (store32 (htonl l) ++ store16 checksum ++ [flag]).length = 7 := by simp
  have hseq := seqOf_store32 n []
  rw [List.append_nil] at hseq
  rw [rrNumber, hflag, List.append_cons, List.drop_left' hheader, hseq]

end Pdus

section Sends

variable {c : Client} {attempts : ℕ → Attempt} {r : Receiver}

theorem delivered_append (r : Receiver) (pdu : List UInt8) (result : Int) :
    Receiver.delivered { r with sent := r.sent ++ [⟨pdu, result⟩] } =
      if 0 ≤ result then r.delivered ++ [pdu] else r.delivered := by
  simp only [Receiver.delivered, List.filter_append, List.map_append]
  split_ifs with hresult <;> simp [hresult]

theorem sendsRR_succ (attempts : ℕ → Attempt) {expected : UInt32} {n : ℕ}
    (hsent : (attempts 0).sent < 0) :
    SendsRR c expected attempts (n + 1) ↔ (attempts 0).brings c expected = false ∧
      SendsRR c expected (fun k => attempts (k + 1)) n := by
  constructor
  · rintro ⟨k, hk, hok, hnone⟩
    cases k with
    | zero => omega
    | succ k =>
      refine ⟨hnone 0 (by omega), k, by omega, hok, ?_⟩
      intro j hj
      exact hnone (j + 1) (by omega)
  · rintro ⟨hfirst, k, hk, hok, hnone⟩
    refine ⟨k + 1, by omega, hok, ?_⟩
    intro j hj
    cases j with
    | zero => exact hfirst
    | succ j => exact hnone j (by omega)

theorem resendRR_delivered (c : Client) (pdu : List UInt8) (attempts : ℕ → Attempt) (n i : ℕ)
    (r : Receiver) :
    (SendsRR c (toU32 r.rbuf.expected) (fun k => attempts (i + k)) n ∧
      (resendRR c pdu attempts n i r).1 = .done ∧
      (resendRR c pdu attempts n i r).2.delivered = r.delivered ++ [pdu]) ∨
    (¬SendsRR c (toU32 r.rbuf.expected) (fun k => attempts (i + k)) n ∧
      (resendRR c pdu attempts n i r).2.delivered = r.delivered) := by
  induction n generalizing i r with
  | zero =>
    refine Or.inr ⟨?_, rfl⟩
    rintro ⟨k, hk, -⟩
    omega
  | succ n ih =>
    have hdelivered := delivered_append r pdu (attempts i).sent
    by_cases hsent : 0 ≤ (attempts i).sent
    · left
      rw [if_pos hsent] at hdelivered
      simp only [resendRR, if_pos hsent]
      exact ⟨⟨0, by omega, hsent, by omega⟩, trivial, hdelivered⟩
    · rw [if_neg hsent] at hdelivered
      have hshift : (fun k => attempts (i + (k + 1))) = fun k => attempts (i + 1 + k) := by
        funext k
        rw [Nat.add_assoc, Nat.add_comm 1 k]
      rw [sendsRR_succ (fun k => attempts (i + k)) (not_le.mp hsent), hshift]
      simp only [resendRR, if_neg hsent]
      by_cases hbrings : (attempts i).brings c (toU32 r.rbuf.expected) = true
      · right
        simp only [if_pos hbrings]
        refine ⟨?_, hdelivered⟩
        rintro ⟨hnone, -⟩
        exact absurd hbrings (by simpa using hnone)
      · have hfalse : (attempts i).brings c (toU32 r.rbuf.expected) = false := by
          simpa using hbrings
        simp only [if_neg hbrings]
        have hrest := ih (i + 1)
          { r with sent := r.sent ++ [⟨pdu, (attempts i).sent⟩], rrSeqNum := r.rrSeqNum + 1 }
        have hsame : Receiver.delivered
            { r with sent := r.sent ++ [⟨pdu, (attempts i).sent⟩], rrSeqNum := r.rrSeqNum + 1 } =
            r.delivered := hdelivered
        rw [hsame] at hrest
        rcases hrest with ⟨hsends, hdone, hlast⟩ | ⟨hnone, hlast⟩
        · exact Or.inl ⟨⟨hfalse, hsends⟩, hdone, hlast⟩
        · exact Or.inr ⟨fun h => hnone h.2, hlast⟩

theorem resendSREJ_rrNumbers (seq : UInt32) (n i : ℕ) (r : Receiver) :
    (resendSREJ c seq attempts n i r).2.delivered.filterMap rrNumber =
      r.delivered.filterMap rrNumber := by
  induction n generalizing i r with
  | zero => rfl
  | succ n ih =>
    have hone : (Receiver.delivered
        { r with
          sent := r.sent ++
            [⟨sealControl (makeSREJPacketBeforeChecksum r.srejSeqNum seq), (attempts i).sent⟩]
          srejSeqNum := r.srejSeqNum + 1 }).filterMap rrNumber =
        r.delivered.filterMap rrNumber := by
      have hdelivered := delivered_append r
        (sealControl (makeSREJPacketBeforeChecksum r.srejSeqNum seq)) (attempts i).sent
      refine (congrArg (List.filterMap rrNumber) hdelivered).trans ?_
      split_ifs
      · simp [makeSREJPacketBeforeChecksum, rrNumber_sealControl]
      · rfl
    simp only [resendSREJ]
    split_ifs
    · exact hone
    · exact (ih _ _).trans hone

theorem resendLastControl_position (h : Position r) (result : Int) :
    Position (resendLastControl r result) := by
  have hdelivered := delivered_append r
    (r.rbuf.lastControlPacket.take r.rbuf.lastControlPacketSize.toNat) result
  have hsaved := h.saved
  rw [resendLastControl, if_pos h.initialised]
  by_cases hresult : 0 ≤ result
  · rw [if_pos hresult] at hdelivered
    obtain ⟨before, hbefore⟩ := List.getLast?_eq_some_iff.mp hsaved
    refine ⟨?_, h.initialised, ?_⟩
    · -- the copy is the control PDU sent last, so the last RR keeps its number
      have hlast := h.lastRR
      rw [hdelivered]
      rw [hbefore] at hlast ⊢
      rw [List.filterMap_append] at hlast
      simp only [List.filterMap_append]
      generalize hcopy : [r.rbuf.lastControlPacket.take
        r.rbuf.lastControlPacketSize.toNat].filterMap rrNumber = copy at hlast ⊢
      cases copy with
      | nil => simpa using hlast
      | cons number rest =>
        rw [List.getLast?_append_of_ne_nil _ (List.cons_ne_nil _ _)] at hlast ⊢
        exact hlast
    · rw [hdelivered, List.getLast?_concat]
  · rw [if_neg hresult] at hdelivered
    refine ⟨?_, h.initialised, ?_⟩ <;> rw [hdelivered]
    exacts [h.lastRR, hsaved]

end Sends

/-! ## Runs of the receive loop -/

theorem liveCount_init (raw : ReceiverBuffer) (bufferSize windowSize : Int) :
    liveCount (initReceiverBuffer raw bufferSize windowSize) = 0 := by
  simp [liveCount, Ring.count, initReceiverBuffer, emptyPacket, List.countP_replicate]

theorem liveCount_insert_le (rb : ReceiverBuffer) (recvBuffer : List UInt8) (receivedBytes : Int) :
    liveCount (insertReceiverPacket rb recvBuffer receivedBytes) ≤ liveCount rb + 1 := by
  rcases insertReceiverPacket_cases rb recvBuffer receivedBytes with he | he <;> rw [he]
  · exact Nat.le_succ _
  · dsimp only [liveCount]
    exact Ring.count_update_le _ _ _ _

/-- Packet 0 has not been passed, no RR has been sent, and a flush would find one
packet at most. -/
structure Waiting (s : GetData) : Prop where
  expected : s.receiver.rbuf.expected = 0
  noRR : s.receiver.delivered.filterMap rrNumber = []
  noneStored : s.subState = .inOrder ∨ s.subState = .buffering → liveCount s.receiver.rbuf = 0
  oneStored : s.subState = .flushing → liveCount s.receiver.rbuf ≤ 1

def Tracking (s : GetData) : Prop :=
  s.exit = none → Waiting s ∨ (s.subState = .done ∧ Position s.receiver)

section Handlers

variable {c : Client} {r : Receiver} {buffer : List UInt8} {attempts : ℕ → Attempt}

theorem doInOrderState_expected (c : Client) (attempts : ℕ → Attempt)
    (hseq : seqOf buffer = toU32 r.rbuf.expected) :
    (doInOrderState c r buffer attempts).2.rbuf.expected = i32 (r.rbuf.expected + 1) ∧
    ((SendsRR c (toU32 (i32 (r.rbuf.expected + 1))) attempts 9 ∧
        (doInOrderState c r buffer attempts).1 = .done ∧
        Position (doInOrderState c r buffer attempts).2) ∨
      (¬SendsRR c (toU32 (i32 (r.rbuf.expected + 1))) attempts 9 ∧
        (doInOrderState c r buffer attempts).2.delivered = r.delivered)) := by
  have hcopy : (sealControl (makeRRPacketBeforeChecksum r.rrSeqNum
      (toU32 (i32 (r.rbuf.expected + 1))))).take (11 : Int).toNat =
      sealControl (makeRRPacketBeforeChecksum r.rrSeqNum (toU32 (i32 (r.rbuf.expected + 1)))) :=
    List.take_of_length_le (length_sealControl _ _ _).le
  simp only [doInOrderState, if_pos hseq]
  generalize hrr : sealControl (makeRRPacketBeforeChecksum r.rrSeqNum
    (toU32 (i32 (r.rbuf.expected + 1)))) = finalRRBuff at hcopy ⊢
  have hnumber : rrNumber finalRRBuff = some (toU32 (i32 (r.rbuf.expected + 1))) := by
    rw [← hrr, makeRRPacketBeforeChecksum, rrNumber_sealControl, if_pos rfl]
  generalize hsaved : { r with
    file := r.file ++ writePayloadToFile c buffer
    rbuf := { r.rbuf with
      expected := i32 (r.rbuf.expected + 1)
      lastControlPacket := finalRRBuff
      lastControlPacketSize := 11
      hasLastControl := 1 } } = r₀
  have hexp : r₀.rbuf.expected = i32 (r.rbuf.expected + 1) := by rw [← hsaved]
  have hbefore : r₀.delivered = r.delivered := by rw [← hsaved]; rfl
  have hframe := (resendRR_frame c finalRRBuff attempts 9 0 r₀).1
  have hsends := resendRR_delivered c finalRRBuff attempts 9 0 r₀
  simp only [Nat.zero_add, hexp, hbefore] at hsends
  refine ⟨by rw [hframe, hexp], ?_⟩
  rcases hsends with ⟨hok, hdone, hlast⟩ | ⟨hfail, hlast⟩
  · refine Or.inl ⟨hok, hdone, ?_, ?_, ?_⟩
    · rw [hlast, hframe, hexp, List.filterMap_append]
      simp [hnumber]
    · rw [hframe, ← hsaved]
      exact one_ne_zero
    · rw [hlast, hframe, List.getLast?_concat, ← hsaved]
      exact congrArg some hcopy.symm
  · exact Or.inr ⟨hfail, hlast⟩

theorem doBufferState_waiting (c : Client) (buffer : List UInt8) (attempts : ℕ → Attempt)
    (hexp : r.rbuf.expected = 0)
    (hnone : r.delivered.filterMap rrNumber = []) (hlive : liveCount r.rbuf = 0) :
    (doBufferState c r buffer attempts).2.rbuf.expected = 0 ∧
    (doBufferState c r buffer attempts).2.delivered.filterMap rrNumber = [] ∧
    liveCount (doBufferState c r buffer attempts).2.rbuf ≤ 1 ∧
    ((doBufferState c r buffer attempts).1 = .done ∨
      (doBufferState c r buffer attempts).1 = .flushing) := by
  have hinsert := liveCount_insert_le r.rbuf buffer pointerSize
  have hkeep := insertReceiverPacket_expected r.rbuf buffer pointerSize
  have hframe := (doBufferState_frame c r buffer attempts).1
  refine ⟨?_, ?_, ?_, ?_⟩
  · rw [hframe, hkeep, hexp]
  · simp only [doBufferState]
    rw [resendSREJ_rrNumbers]
    exact hnone
  · rw [hlive, liveCount] at hinsert
    rw [hframe, liveCount]
    exact hinsert
  · exact (resendSREJ_state c (toU32 r.rbuf.expected) attempts 10 0 _).imp_right And.left

/-- A flush moves `expected` on and sends nothing. -/
theorem doFlushingState_stale (hexp : r.rbuf.expected = 0)
    (hnone : r.delivered.filterMap rrNumber = []) (hlive : liveCount r.rbuf ≤ 1) :
    0 < (doFlushingState r).2.rbuf.expected ∧ ¬Position (doFlushingState r).2 := by
  have hone : i32 (r.rbuf.expected + 1) = 1 := by
    rw [hexp]
    rfl
  have hseqs := @flushLoop_seqs (r.rbuf.windowSize.toNat + 1)
    { r.rbuf with expected := i32 (r.rbuf.expected + 1) } (by
      dsimp only
      omega) (by
      rw [liveCount] at hlive ⊢
      dsimp only
      omega)
  have hpassed : 0 < (flushBuffer r.rbuf).rbuf.expected := by
    rw [flushBuffer, hseqs.1]
    dsimp only
    omega
  have hsilent : (doFlushingState r).2.delivered = r.delivered ∧
      (doFlushingState r).2.rbuf = (flushBuffer r.rbuf).rbuf := by
    simp only [doFlushingState]
    split_ifs <;> exact ⟨rfl, rfl⟩
  refine ⟨by rwa [hsilent.2], ?_⟩
  intro hpos
  have hlast := hpos.lastRR
  rw [hsilent.1, hnone] at hlast
  cases hlast

end Handlers

section Steps

variable {c : Client} {s : GetData} {t : Turn} {d : List UInt8}

theorem receiveTurn_receives (h : Receives c s t d) :
    receiveTurn c s t =
      { s with
        subState := (handleDataPacket c s.subState s.receiver (t.received c d) t.attempts).1
        receiver := (handleDataPacket c s.subState s.receiver (t.received c d) t.attempts).2 } := by
  rw [receiveTurn_data h.exit h.poll h.recv h.nonempty, if_neg h.goesOn, h.exit]

theorem receives_of_exit (h : (receiveTurn c s t).exit = none) : ∃ d, Receives c s t d := by
  rcases receiveTurn_cases c s t with ⟨-, -, hexit⟩ | ⟨d, hexit, hpoll, hrecv, hd, hstep⟩
  · exact absurd h hexit
  · refine ⟨d, hexit, hpoll, hrecv, hd, ?_⟩
    intro heof
    rw [hstep, if_pos heof] at h
    cases h

theorem not_lt_of_expected (hexp : s.receiver.rbuf.expected = 0) (b : List UInt8) :
    ¬seqOf b < toU32 s.receiver.rbuf.expected := by
  rw [hexp]
  exact UInt32.not_lt_zero

theorem Waiting.step (h : Waiting s) (hd : Receives c s t d) (hgood : Acknowledges c s t) :
    Waiting (receiveTurn c s t) ∨
      ((receiveTurn c s t).subState = .done ∧ Position (receiveTurn c s t).receiver) := by
  have hnew := not_lt_of_expected h.expected (t.received c d)
  obtain ⟨hack, hflush⟩ := hgood d hd
  rw [receiveTurn_receives hd]
  unfold handleDataPacket
  rw [if_neg hnew]
  cases hsub : s.subState with
  | inOrder =>
    have hlive := h.noneStored (Or.inl hsub)
    dsimp only
    by_cases heq : seqOf (t.received c d) = toU32 s.receiver.rbuf.expected
    · obtain ⟨-, ⟨-, hdone, hpos⟩ | ⟨hfail, -⟩⟩ := doInOrderState_expected c t.attempts heq
      · exact Or.inr ⟨hdone, hpos⟩
      · exact absurd (hack hsub heq) hfail
    · have hkeep : ∀ st, doInOrderState c s.receiver (t.received c d) t.attempts =
          (st, s.receiver) → st ≠ .flushing →
          Waiting { s with
            subState := (doInOrderState c s.receiver (t.received c d) t.attempts).1
            receiver := (doInOrderState c s.receiver (t.received c d) t.attempts).2 } := by
        intro st hst hne
        rw [hst]
        exact ⟨h.expected, h.noRR, fun _ => hlive, fun hf => absurd hf hne⟩
      left
      by_cases hgap : toU32 s.receiver.rbuf.expected < seqOf (t.received c d)
      · exact hkeep .buffering (by simp only [doInOrderState, if_neg heq, if_pos hgap]) (by decide)
      · exact hkeep .inOrder (by simp only [doInOrderState, if_neg heq, if_neg hgap]) (by decide)
  | buffering =>
    obtain ⟨hexp, hnone, hlive, hst⟩ := doBufferState_waiting c (t.received c d) t.attempts
      h.expected h.noRR (h.noneStored (Or.inr hsub))
    left
    refine ⟨hexp, hnone, ?_, fun _ => hlive⟩
    rintro (hst' | hst') <;> rcases hst with hst | hst <;> exact absurd (hst.symm.trans hst')
      (by decide)
  | flushing => exact absurd (hflush hsub) hnew
  | done =>
    left
    refine ⟨h.expected, h.noRR, ?_, ?_⟩
    · rintro (hst | hst) <;> cases hst
    · intro hst
      cases hst

theorem done_step (hsub : s.subState = .done) (hpos : Position s.receiver)
    (hd : Receives c s t d) :
    (receiveTurn c s t).subState = .done ∧ Position (receiveTurn c s t).receiver := by
  rw [receiveTurn_receives hd, hsub]
  unfold handleDataPacket
  split_ifs
  · exact ⟨rfl, resendLastControl_position hpos _⟩
  · exact ⟨rfl, hpos⟩

theorem Tracking.step (h : Tracking s) (hgood : Acknowledges c s t) :
    Tracking (receiveTurn c s t) := by
  intro hexit
  obtain ⟨d, hd⟩ := receives_of_exit hexit
  rcases h hd.exit with hwait | ⟨hsub, hpos⟩
  · exact hwait.step hd hgood
  · exact Or.inr (done_step hsub hpos hd)

theorem Tracking.neverStale (h : Tracking s) : NeverStale s := by
  intro hexit hpassed
  rcases h hexit with hwait | ⟨-, hpos⟩
  · have hexp := hwait.expected
    omega
  · exact hpos

theorem Tracking.not_neverStale (h : Tracking s) (hbad : ¬Acknowledges c s t) :
    ¬NeverStale (receiveTurn c s t) := by
  rw [Acknowledges, not_forall] at hbad
  obtain ⟨d, hbad⟩ := hbad
  obtain ⟨hd, hbad⟩ := Classical.not_imp.mp hbad
  have hturn := receiveTurn_receives hd
  intro hfresh
  rw [hturn] at hfresh
  rcases h hd.exit with hwait | ⟨hsub, -⟩
  · have hnew := not_lt_of_expected hwait.expected (t.received c d)
    unfold handleDataPacket at hfresh
    rw [if_neg hnew] at hfresh
    rw [not_and_or] at hbad
    rcases hbad with hbad | hbad
    · obtain ⟨hsub, hbad⟩ := Classical.not_imp.mp hbad
      obtain ⟨heq, hfail⟩ := Classical.not_imp.mp hbad
      obtain ⟨hexp, ⟨hok, -⟩ | ⟨-, hsame⟩⟩ := doInOrderState_expected c t.attempts heq
      · exact hfail hok
      · rw [hsub] at hfresh
        have hpos := hfresh hd.exit (by
          dsimp only
          rw [hexp, hwait.expected]
          decide)
        have hlast := hpos.lastRR
        dsimp only at hlast
        rw [hsame, hwait.noRR] at hlast
        cases hlast
    · obtain ⟨hsub, -⟩ := Classical.not_imp.mp hbad
      obtain ⟨hpassed, hstale⟩ := doFlushingState_stale hwait.expected hwait.noRR
        (hwait.oneStored hsub)
      rw [hsub] at hfresh
      exact hstale (hfresh hd.exit hpassed)
  · refine hbad ⟨?_, ?_⟩ <;> intro hst <;> rw [hsub] at hst <;> cases hst

end Steps

/-- In a run of the receive loop the last RR is never stale exactly when each packet
that arrives in order is acknowledged and none is handled in the flushing sub-state. -/
theorem neverStale_iff (c : Client) (raw : ReceiverBuffer) (turns : List Turn) :
    Runs.Always (receiveTurn c) NeverStale (enterGetData c raw) turns ↔
    Runs.EveryStep (receiveTurn c) (Acknowledges c) (enterGetData c raw) turns := by
  refine Runs.always_iff_everyStep (I := Tracking) ?_ (fun s h => h.neverStale) ?_ ?_
  · intro _
    left
    have hlive := liveCount_init raw c.bufferSize c.windowSize
    exact ⟨rfl, rfl, fun _ => hlive, fun h => by cases h⟩
  · exact fun s t h hgood => h.step hgood
  · exact fun s t h hbad => h.not_neverStale hbad

/-- A turn that receives packet 1; at the first attempt packet 0 arrives. -/
def answeredTurn : Turn where
  poll := 3
  heap := fun _ => 0
  recv := some [0, 0, 0, 1, 0, 0, 16, 66]
  attempts := fun _ => ⟨11, 3, fun _ => 0, some [0, 0, 0, 0, 0, 0, 16, 65]⟩

/-- Packet 1 opens the gap, is stored while packet 0 arrives, and is flushed: `expected`
is 2 and no RR has been sent. -/
theorem neverStale_flushed :
    ¬ ∀ (c : Client) (raw : ReceiverBuffer) (turns : List Turn),
      Runs.Always (receiveTurn c) NeverStale (enterGetData c raw) turns := by
  intro h
  have hlast := (h ⟨3, 2, 1⟩ freshBuffer [answeredTurn, answeredTurn, answeredTurn]).last
  have hpos := (hlast (by decide +kernel) (by decide +kernel)).lastRR
  revert hpos
  decide +kernel

end Rcopy
