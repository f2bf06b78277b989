import Rcopy.Wire

/-!
# The counters on the wire

The server takes the number of an RR or SREJ from the first four bytes, where rcopy
has put a counter. The counter of the RRs goes up only after a send that fails, the
counter of the SREJs after every send. So as long as no send of rcopy fails, all RRs
are read as RR 0 and the window never opens again.
-/

namespace Rcopy

open Bytes

def IsRR (P : UInt32 → Prop) (pdu : List UInt8) : Prop :=
  ∃ l n, P l ∧ pdu = sealControl (makeRRPacketBeforeChecksum l n)

/-- What the server makes of a control PDU that it reads into `recv_buffer`. -/
def readAs (stack : ℕ → UInt8) (pdu : List UInt8) : Control := decodeControl (recvControl stack pdu)

def srejRead (stack : ℕ → UInt8) (pdu : List UInt8) : Option UInt32 :=
  match readAs stack pdu with
  | .srej n => some n
  | .rr _ => none
  | .other => none

section Pdus

variable {P : UInt32 → Prop} {pdu : List UInt8}

theorem IsRR.readAs (h : IsRR P pdu) (stack : ℕ → UInt8) :
    ∃ l, P l ∧ readAs stack pdu = .rr l := by
  obtain ⟨l, n, hl, rfl⟩ := h
  refine ⟨l, hl, ?_⟩
  rw [Rcopy.readAs, makeRRPacketBeforeChecksum, decodeControl_sealed]
  rfl

theorem IsRR.srejRead (h : IsRR P pdu) (stack : ℕ → UInt8) : srejRead stack pdu = none := by
  obtain ⟨l, -, hread⟩ := h.readAs stack
  simp only [Rcopy.srejRead, hread]

theorem readAs_srej (stack : ℕ → UInt8) (l n : UInt32) :
    readAs stack (sealControl (makeSREJPacketBeforeChecksum l n)) = .srej l := by
  rw [readAs, makeSREJPacketBeforeChecksum, decodeControl_sealed]
  rfl

theorem IsRR.take (h : IsRR P pdu) : IsRR P (pdu.take 11) := by
  obtain ⟨l, n, hl, rfl⟩ := h
  refine ⟨l, n, hl, ?_⟩
  rw [List.take_of_length_le]
  exact (length_sealControl 5 l n).le

end Pdus

/-- The control PDUs sent so far and the saved one, with RR counters that `P` allows
and SREJ counters from 0 on. -/
structure Counts (P : UInt32 → Prop) (r : Receiver) (k : ℕ) : Prop where
  rrs : ∀ m ∈ r.sent, IsRR P m.pdu ∨ ∃ l n, m.pdu = sealControl (makeSREJPacketBeforeChecksum l n)
  rrCounter : P r.rrSeqNum
  srejs : ∀ stack, r.sent.filterMap (fun m => srejRead stack m.pdu) =
    (List.range k).map UInt32.ofNat
  srejCounter : r.srejSeqNum = UInt32.ofNat k
  saved : r.rbuf.hasLastControl ≠ 0 →
    IsRR P r.rbuf.lastControlPacket ∧ r.rbuf.lastControlPacketSize = 11

section Handlers

variable {P : UInt32 → Prop} {c : Client} {r r' : Receiver} {k : ℕ} {pdu : List UInt8}
  {attempts : ℕ → Attempt}

theorem Counts.rbuf (h : Counts P r k) (hsent : r'.sent = r.sent) (hrr : r'.rrSeqNum = r.rrSeqNum)
    (hsrej : r'.srejSeqNum = r.srejSeqNum)
    (hsaved : r'.rbuf.hasLastControl ≠ 0 →
      IsRR P r'.rbuf.lastControlPacket ∧ r'.rbuf.lastControlPacketSize = 11) : Counts P r' k := by
  constructor
  · rw [hsent]
    exact h.rrs
  · rw [hrr]
    exact h.rrCounter
  · rw [hsent]
    exact h.srejs
  · rw [hsrej]
    exact h.srejCounter
  · exact hsaved

theorem Counts.sendRR (h : Counts P r k) (hpdu : IsRR P pdu) (result : Int) :
    Counts P { r with sent := r.sent ++ [⟨pdu, result⟩] } k := by
  constructor
  · intro m hm
    rcases List.mem_append.mp hm with hm | hm
    · exact h.rrs m hm
    · rw [List.mem_singleton.mp hm]
      exact Or.inl hpdu
  · exact h.rrCounter
  · intro stack
    rw [List.filterMap_append, h.srejs stack, List.filterMap_cons, hpdu.srejRead stack]
    exact List.append_nil _
  · exact h.srejCounter
  · exact h.saved

theorem Counts.sendSREJ (h : Counts P r k) (n : UInt32) (result : Int) :
    Counts P
      { r with
        sent := r.sent ++ [⟨sealControl (makeSREJPacketBeforeChecksum r.srejSeqNum n), result⟩]
        srejSeqNum := r.srejSeqNum + 1 } (k + 1) := by
  constructor
  · intro m hm
    rcases List.mem_append.mp hm with hm | hm
    · exact h.rrs m hm
    · rw [List.mem_singleton.mp hm]
      exact Or.inr ⟨_, _, rfl⟩
  · exact h.rrCounter
  · intro stack
    rw [List.filterMap_append, h.srejs stack, List.filterMap_cons, srejRead, readAs_srej,
      h.srejCounter, List.range_succ, List.map_append]
    rfl
  · rw [h.srejCounter]
    exact (UInt32.ofNat_add k 1).symm
  · exact h.saved

theorem resendRR_counts (hP : (∃ i, (attempts i).sent < 0) → ∀ l, P l → P (l + 1))
    (hpdu : IsRR P pdu) (n i : ℕ) (h : Counts P r k) :
    Counts P (resendRR c pdu attempts n i r).2 k := by
  induction n generalizing i r with
  | zero => exact h
  | succ n ih =>
    simp only [resendRR]
    have hsent := h.sendRR hpdu (attempts i).sent
    split_ifs with hok hbrings
    · exact hsent
    · exact ⟨hsent.rrs, hP ⟨i, not_le.mp hok⟩ _ h.rrCounter, hsent.srejs, hsent.srejCounter,
        hsent.saved⟩
    · apply ih
      exact ⟨hsent.rrs, hP ⟨i, not_le.mp hok⟩ _ h.rrCounter, hsent.srejs, hsent.srejCounter,
        hsent.saved⟩

theorem resendSREJ_counts (seq : UInt32) (n i : ℕ) (h : Counts P r k) :
    ∃ k', Counts P (resendSREJ c seq attempts n i r).2 k' := by
  induction n generalizing i r k with
  | zero => exact ⟨k, h⟩
  | succ n ih =>
    simp only [resendSREJ]
    have hsent := h.sendSREJ seq (attempts i).sent
    split_ifs with hbrings
    · exact ⟨k + 1, hsent⟩
    · exact ih (i + 1) hsent

theorem insertReceiverPacket_lastControl (rb : ReceiverBuffer) (recvBuffer : List UInt8)
    (receivedBytes : Int) :
    ∃ buffer highest, insertReceiverPacket rb recvBuffer receivedBytes =
      { rb with buffer := buffer, highest := highest } := by
  rcases insertReceiverPacket_cases rb recvBuffer receivedBytes with he | he
  · exact ⟨rb.buffer, rb.highest, he⟩
  · exact ⟨_, _, he⟩

theorem handleDataPacket_counts (hP : (∃ i, (attempts i).sent < 0) → ∀ l, P l → P (l + 1))
    (st : ReceiveState) (buffer : List UInt8) (h : Counts P r k) :
    ∃ k', Counts P (handleDataPacket c st r buffer attempts).2 k' := by
  unfold handleDataPacket
  split_ifs with hold
  · unfold resendLastControl
    split_ifs with hlast
    · obtain ⟨hrr, hsize⟩ := h.saved hlast
      rw [hsize]
      exact ⟨k, h.sendRR hrr.take _⟩
    · exact ⟨k, h⟩
  · cases st with
    | inOrder =>
      simp only [doInOrderState]
      split_ifs with heq hgt
      · have hpdu : IsRR P (sealControl (makeRRPacketBeforeChecksum r.rrSeqNum
            (toU32 (i32 (r.rbuf.expected + 1))))) := ⟨_, _, h.rrCounter, rfl⟩
        refine ⟨k, resendRR_counts hP hpdu 9 0 (h.rbuf rfl rfl rfl ?_)⟩
        intro _
        exact ⟨hpdu, rfl⟩
      · exact ⟨k, h⟩
      · exact ⟨k, h⟩
    | buffering =>
      obtain ⟨slots, highest, hinsert⟩ := insertReceiverPacket_lastControl r.rbuf buffer pointerSize
      simp only [doBufferState, hinsert]
      exact resendSREJ_counts _ 10 0 (h.rbuf rfl rfl rfl h.saved)
    | flushing =>
      obtain ⟨slots, expected, hflush⟩ := flushLoop_frame (r.rbuf.windowSize.toNat + 1)
        { r.rbuf with expected := i32 (r.rbuf.expected + 1) }
      have hsaved : (flushBuffer r.rbuf).rbuf.hasLastControl ≠ 0 →
          IsRR P (flushBuffer r.rbuf).rbuf.lastControlPacket ∧
            (flushBuffer r.rbuf).rbuf.lastControlPacketSize = 11 := by
        rw [flushBuffer, hflush]
        exact h.saved
      simp only [doFlushingState]
      split_ifs <;> exact ⟨k, h.rbuf rfl rfl rfl hsaved⟩
    | done => exact ⟨k, h⟩

theorem receiveTurn_counts {s : GetData} {t : Turn}
    (hP : (∃ i, (t.attempts i).sent < 0) → ∀ l, P l → P (l + 1))
    (h : ∃ k, Counts P s.receiver k) : ∃ k, Counts P (receiveTurn c s t).receiver k := by
  rcases receiveTurn_cases c s t with ⟨hsame, -, -⟩ | ⟨d, -, -, -, -, hturn⟩
  · rw [hsame]
    exact h
  · obtain ⟨k, hk⟩ := h
    rw [hturn]
    exact handleDataPacket_counts hP s.subState (t.received c d) hk

theorem enterGetData_counts (c : Client) {raw : ReceiverBuffer} (hraw : raw.hasLastControl = 0)
    (hzero : P 0) : Counts P (enterGetData c raw).receiver 0 := by
  constructor
  · intro m hm
    cases hm
  · exact hzero
  · intro stack
    rfl
  · rfl
  · intro hlast
    exact absurd hraw hlast

end Handlers

/-- The server reads the SREJs of rcopy as requests for packets 0, 1, 2 and so on,
whichever packets are missing. -/
theorem srejs_count_up (c : Client) (raw : ReceiverBuffer) (turns : List Turn)
    (hraw : raw.hasLastControl = 0) (stack : ℕ → UInt8) :
    ∃ k, (Runs.exec (receiveTurn c) (enterGetData c raw) turns).receiver.sent.filterMap
      (fun m => srejRead stack m.pdu) = (List.range k).map UInt32.ofNat := by
  have hkeep : ∃ k, Counts (fun _ => True)
      (Runs.exec (receiveTurn c) (enterGetData c raw) turns).receiver k :=
    Runs.exec_of_keep (I := fun s : GetData => ∃ k, Counts (fun _ => True) s.receiver k)
      (fun s t h => receiveTurn_counts (fun _ _ _ => trivial) h)
      ⟨0, enterGetData_counts c hraw trivial⟩
  obtain ⟨k, hk⟩ := hkeep
  exact ⟨k, hk.srejs stack⟩

theorem srejs_count_up_gap :
    ∃ k, (Runs.exec (receiveTurn shortClient) (enterGetData shortClient freshBuffer)
      [shortTurn 1, shortTurn 2, shortTurn 1, shortTurn 2]).receiver.sent.filterMap
        (fun m => srejRead (fun _ => 0) m.pdu) = (List.range k).map UInt32.ofNat :=
  srejs_count_up shortClient freshBuffer [shortTurn 1, shortTurn 2, shortTurn 1, shortTurn 2] rfl
    fun _ => 0

/-! ## Runs in which no send of rcopy fails -/

/-- The window has slid by one at most, so the child returns only for a file that it has
read to the end within the first window. -/
structure NeverOpens (p : Session) (s : SendData) : Prop where
  reading : s.Running → Reading p s ∧ s.window.lower ≤ 1
  ended : s.phase = .returned .waitOnEofAck → p.bufferSize.toNat = 0 ∨
    (p.file.length : Int) ≤ toI32 p.windowSize * p.bufferSize.toNat

section Sender

variable {p : Session} {w : Int} {s s' : SendData} {t : SendTurn}

theorem SendStep.lower_le_one (h : s.window.lower ≤ 1) (hrr : ∀ n, s.HandlesRR t n → n = 0)
    (hstep : SendStep p s t s') : s'.window.lower ≤ 1 := by
  cases hstep with
  | moved _ _ => exact h
  | eof _ => exact h
  | fresh _ _ _ _ _ _ => exact h
  | crashed _ _ => exact h
  | slid n window hhandles hslid =>
    have hone : toI32 (n + 1) = 1 := by
      rw [hrr n hhandles]
      decide
    dsimp only
    rcases hslid.edges with ⟨-, hkeep, -⟩ | ⟨-, hnew, -⟩
    · rw [hkeep]
      exact h
    · rw [hnew, hone]
  | resent _ _ _ _ _ _ _ => exact h
  | ignored => exact h

theorem Reading.fits_of_atEof (h : Reading p s) (hlower : s.window.lower ≤ 1) (heof : s.AtEof p) :
    p.bufferSize.toNat = 0 ∨
      (p.file.length : Int) ≤ toI32 p.windowSize * p.bufferSize.toNat := by
  obtain ⟨-, hopen, hfile⟩ := heof
  have hzero : s.window.lower = 0 := by
    by_contra hne
    have htwo := (h.sending.two_le_lower hne hopen).1
    omega
  have hnum := (h.sending.open_of_lower_zero hzero).mp hopen
  rcases h.take_eq_nil_iff.mp hfile with hnone | hend
  · exact Or.inl hnone
  · right
    calc (p.file.length : Int) ≤ s.dataSequenceNumber.toNat * p.bufferSize.toNat := by
          exact_mod_cast hend
      _ ≤ toI32 p.windowSize * p.bufferSize.toNat :=
          Int.mul_le_mul_of_nonneg_right hnum (by omega)

theorem NeverOpens.turn (h : NeverOpens p s) (hrr : ∀ n, s.HandlesRR t n → n = 0) :
    NeverOpens p (sendTurn p s t) := by
  by_cases hrun : s.Running
  · obtain ⟨hreading, hlower⟩ := h.reading hrun
    have hstep := sendTurn_step (t := t) hreading.sending hrun
    constructor
    · intro hrun'
      exact ⟨hstep.reading hreading hrun', hstep.lower_le_one hlower hrr⟩
    · intro hret
      exact hreading.fits_of_atEof hlower (atEof_of_returned hreading.sending hrun hret)
  · rw [sendTurn_of_not_running hrun]
    exact h

theorem enterSendData_neverOpens (heap : ℕ → ℕ → UInt8) (hw : 1 ≤ toI32 p.windowSize) :
    NeverOpens p (enterSendData p heap) := by
  constructor
  · intro _
    exact ⟨enterSendData_reading hw, show (0 : Int) ≤ 1 by decide⟩
  · intro hret
    cases hret

end Sender

/-- Every RR on the wire carries the counter 0, and the child has not got past the window
that RR 0 leaves. -/
structure AllZero (p : Session) (s : Transfer) : Prop where
  counts : ∃ k, Counts (fun l => l = 0) s.receiver.receiver k
  sender : NeverOpens p s.sender

section Wire

variable {p : Session} {c : Client} {heap : ℕ → ℕ → UInt8} {raw : ReceiverBuffer} {s : Transfer}

theorem AllZero.handlesRR (h : AllZero p s) {t : SendTurn} {pick : Option ℕ} {n : UInt32}
    (hrr : s.sender.HandlesRR (s.serverReceives t pick) n) : n = 0 := by
  obtain ⟨k, hk⟩ := h.counts
  have hcontrol := hrr.2
  simp only [SendTurn.control, Transfer.serverReceives] at hcontrol
  cases hwire : fromWire s.receiver.receiver.delivered pick with
  | none =>
    rw [hwire] at hcontrol
    cases hcontrol
  | some d =>
    simp only [hwire] at hcontrol
    split_ifs at hcontrol with hd
    obtain ⟨m, hm, hpdu⟩ := List.mem_map.mp (mem_of_fromWire hwire)
    rw [← hpdu] at hcontrol
    have hread := Option.some.inj hcontrol
    rcases hk.rrs m (List.mem_filter.mp hm).1 with hisrr | ⟨l, i, hsrej⟩
    · obtain ⟨l, hl, hreads⟩ := hisrr.readAs t.stack
      rw [readAs, hread] at hreads
      rw [Control.rr.inj hreads]
      exact hl
    · have hreads := readAs_srej t.stack l i
      rw [← hsrej, readAs, hread] at hreads
      cases hreads

theorem AllZero.turn (h : AllZero p s) {t : WireTurn} (ht : t.Sends) :
    AllZero p (wireTurn p c s t) := by
  cases t with
  | server t pick =>
    constructor
    · exact h.counts
    · exact h.sender.turn fun n hn => h.handlesRR hn
  | rcopy t pick picks =>
    constructor
    · apply receiveTurn_counts _ h.counts
      intro hfails
      obtain ⟨i, hi⟩ := hfails
      exact absurd (ht i) (not_le.mpr hi)
    · exact h.sender

theorem SameSizes.allZero (h : SameSizes p c) (heap : ℕ → ℕ → UInt8) (hraw : raw.hasLastControl = 0)
    {turns : List WireTurn} (ht : ∀ t ∈ turns, t.Sends) :
    AllZero p (Runs.exec (wireTurn p c) (enterTransfer p c heap raw) turns) := by
  have hpos := h.window_pos
  have hwindow := h.windowSize
  have hstart : AllZero p (enterTransfer p c heap raw) := by
    constructor
    · exact ⟨0, enterGetData_counts c hraw rfl⟩
    · exact enterSendData_neverOpens heap (by omega)
  exact (Runs.always_of_keep (I := AllZero p) (C := fun _ (t : WireTurn) => t.Sends)
    (fun s t hs ht => hs.turn ht) hstart (Runs.everyStep_of_forall ht fun _ _ h => h)).last

/-- The least number of chunks that hold the file. -/
theorem exists_chunks {b : ℕ} (hb : 1 ≤ b) (n : ℕ) : ∃ k, n ≤ k * b ∧ ∀ i < k, i * b < n := by
  have hex : ∃ k, n ≤ k * b := ⟨n, Nat.le_mul_of_pos_right n hb⟩
  exact ⟨Nat.find hex, Nat.find_spec hex, fun i hi => not_le.mp (Nat.find_min hex hi)⟩

theorem oneBuffer_exec {turns : List WireTurn} (ht : ∀ t ∈ turns, t.Sends) :
    OneBuffer c (Runs.exec (wireTurn p c) (enterTransfer p c heap raw) turns).receiver := by
  have hkeep : Runs.Always (wireTurn p c) (fun s => OneBuffer c s.receiver)
      (enterTransfer p c heap raw) turns := by
    apply Runs.always_of_keep (C := fun _ (t : WireTurn) => t.Sends)
    · intro s t hs ht
      cases t with
      | server t pick => exact hs
      | rcopy t pick picks => exact hs.turn ht
    · exact enterGetData_oneBuffer c raw
    · exact Runs.everyStep_of_forall ht fun _ _ h => h
  exact hkeep.last

/-- The wire with the only packet of the file on it, and the turn that takes it. -/
theorem exists_one_delivery (h : SameSizes p c) (hbyte : p.bufferSize.toNat ≤ 255)
    (hlen : p.file.length = p.bufferSize.toNat) :
    ∃ turns, (∀ t ∈ turns, WireTurn.Sends t) ∧
      fileBytes (Runs.exec (wireTurn p c) (enterTransfer p c heap raw)
        turns).receiver.receiver.file = some p.file := by
  have hbuf := h.client.buffer_pos
  have heq := h.buffer
  have hsize : p.bufferSize.toNat = c.bufferSize.toNat := by omega
  obtain ⟨hload, hrcopy⟩ := exec_loaded h heap raw 1 (by omega) (by
    intro i hi
    rw [Nat.lt_one_iff.mp hi, Nat.zero_mul]
    omega)
  let fetch : Turn := { refusedTurn c with attempts := fun _ => ⟨11, 3, fun _ => 0, none⟩ }
  refine ⟨List.replicate 1 (.server (quietTurn none) none) ++ [.rcopy fetch (some 0) fun _ => none],
    ?_, ?_⟩
  · intro t ht
    rcases List.mem_append.mp ht with ht | ht
    · rw [List.eq_of_mem_replicate ht]
      trivial
    · rw [List.mem_singleton.mp ht]
      intro i
      exact show (0 : Int) ≤ 11 by decide
  · rw [Runs.exec_concat]
    obtain ⟨checksum, hrecv⟩ := hload.fromWire (Or.inl (by omega)) Nat.one_pos
    have hfetched := enterGetData_fetched c p.file raw 1
    rw [← hrcopy] at hfetched
    have htake := hfetched.turn h.client (t := Transfer.rcopyReceives _ fetch (some 0) fun _ => none)
      Nat.one_pos (by decide) (by omega) Int.one_pos hrecv (by rw [hsize]) (by omega)
    simp only [wireTurn]
    rw [htake.writes.bytes, payloads, htake.expected, Int.toNat_natCast,
      Chunks.upTo_eq_self (by omega)]

end Wire

/-- With no failing sends of rcopy the child gets as far as waiting for the EOF ACK
exactly for the files that leave a packet of the first window free. -/
theorem waitOnEofAck_iff (p : Session) (c : Client) (heap : ℕ → ℕ → UInt8) (raw : ReceiverBuffer)
    (h : SameSizes p c) (hraw : raw.hasLastControl = 0) :
    (∃ turns, (∀ t ∈ turns, WireTurn.Sends t) ∧
      (Runs.exec (wireTurn p c) (enterTransfer p c heap raw) turns).sender.phase =
        .returned .waitOnEofAck) ↔
      p.file.length ≤ p.windowSize.toNat * p.bufferSize.toNat := by
  have hbuf := h.client.buffer_pos
  have heq := h.buffer
  have hwindow := h.windowSize
  constructor
  · intro hrun
    obtain ⟨turns, ht, hret⟩ := hrun
    have hzero := h.allZero heap hraw ht
    rcases hzero.sender.ended hret with hnone | hfits
    · omega
    · rw [hwindow] at hfits
      exact_mod_cast hfits
  · intro hfits
    obtain ⟨k, hend, hmore⟩ := exists_chunks (b := p.bufferSize.toNat) (by omega) p.file.length
    have hk : k ≤ p.windowSize.toNat := by
      by_contra hgt
      have hlast := hmore p.windowSize.toNat (by omega)
      omega
    obtain ⟨hload, -⟩ := exec_loaded h heap raw k (by omega) hmore
    refine ⟨List.replicate k (.server (quietTurn none) none) ++ [.server (quietTurn none) none],
      ?_, ?_⟩
    · intro t ht
      rcases List.mem_append.mp ht with ht | ht
      · rw [List.eq_of_mem_replicate ht]
        trivial
      · rw [List.mem_singleton.mp ht]
        trivial
    · rw [Runs.exec_concat]
      have hs := hload.filling.reading.sending
      have hnum := hload.filling.number
      have hopen := (hs.open_of_lower_zero hload.filling.lower).mpr (by omega)
      have heof : SendData.AtEof p _ := ⟨hload.filling.phase, hopen, by
        rw [hload.filling.reading.take_eq_nil_iff, hnum]
        exact Or.inr hend⟩
      simp only [wireTurn]
      rw [sendTurn_atEof heof]

theorem waitOnEofAck_never_short :
    ¬∃ turns, (∀ t ∈ turns, WireTurn.Sends t) ∧
      (Runs.exec (wireTurn shortSession shortClient)
        (enterTransfer shortSession shortClient (fun _ _ => 0) freshBuffer) turns).sender.phase =
        .returned .waitOnEofAck :=
  fun hrun => absurd ((waitOnEofAck_iff shortSession shortClient (fun _ _ => 0) freshBuffer
    sameSizes_short rfl).mp hrun) (by decide)

/-- With no failing sends of rcopy a file can arrive only as nothing or as one buffer. -/
theorem transferable_sending_iff (p : Session) (c : Client) (heap : ℕ → ℕ → UInt8)
    (raw : ReceiverBuffer) (h : SameSizes p c) (hbyte : p.bufferSize.toNat ≤ 255) :
    (∃ turns, (∀ t ∈ turns, WireTurn.Sends t) ∧
      fileBytes (Runs.exec (wireTurn p c) (enterTransfer p c heap raw)
        turns).receiver.receiver.file = some p.file) ↔
      p.file = [] ∨ p.file.length = p.bufferSize.toNat := by
  have hbuf := h.client.buffer_pos
  have heq := h.buffer
  constructor
  · intro hrun
    obtain ⟨turns, ht, hfile⟩ := hrun
    apply (oneBuffer_exec ht).output hfile |>.imp_right
    intro hlen
    rw [hlen, heq, Int.toNat_natCast]
  · intro hfile
    rcases hfile with hnil | hlen
    · refine ⟨[], ?_, ?_⟩
      · intro t ht
        cases ht
      · rw [hnil]
        rfl
    · exact exists_one_delivery h hbyte hlen

end Rcopy
