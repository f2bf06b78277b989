import Rcopy.SendFile

/-!
# What the sender sends again

An SREJ and a timeout send the packet of a slot with `data_size + 7` bytes, but
the size stored at insertion already counts the header: the datagram is seven
bytes longer than the one sent first. And `W + 1` numbers share `W` slots, so an
SREJ for packet 0 finds packet `W`.
-/

namespace Rcopy

open Bytes

/-- The packet that the search after a timeout stops at. -/
structure LowestUnacked (w : SenderWindow) (seq : Int) (q : Packet) : Prop where
  lower_le : w.lower ≤ seq
  le_upper : seq ≤ w.upper
  slot : Ring.slot w.buffer (seq % w.windowSize) = some q
  unacked : q.ack = 0
  acked : ∀ i, w.lower ≤ i → i < seq → ∀ q', Ring.slot w.buffer (i % w.windowSize) = some q' →
    q'.ack ≠ 0

/-- The turn sends the packet of an allocated slot again. -/
inductive Resends (s : SendData) (t : SendTurn) : Cause → Int → Packet → Prop
  | srej (n : UInt32) (q : Packet) (hlisten : s.Listens t) (hcontrol : t.control = some (.srej n))
      (hslot : Ring.slot s.window.buffer (n.toNat % s.window.windowSize) = some q) :
      Resends s t .srej n.toNat q
  | timeout (seq : Int) (q : Packet) (hphase : s.phase = .wait)
      (hclosed : canSendMorePackets s.window = false) (hpoll : ¬0 < t.poll)
      (hlowest : LowestUnacked s.window seq q) : Resends s t .timeout seq q

/-- The datagram of the `k`-th chunk of the file, as it is sent first. -/
structure FirstOf (p : Session) (k : ℕ) (tr : Transmission) : Prop where
  seq : tr.seq = k
  len : tr.len = (Chunks.chunk p.file p.bufferSize.toNat k).length + 7
  bytes : ∃ d, tr.bytes = some d ∧ 4 ≤ d.length ∧ (seqOf d).toNat = k

/-- Every slot that has been filled holds the packet of some first transmission, with
its length as the size. -/
structure Stored (p : Session) (s : SendData) : Prop where
  file : s.Running → s.file = p.file.drop (s.dataSequenceNumber.toNat * p.bufferSize.toNat)
  first : ∀ tr ∈ s.fresh, ∃ k, FirstOf p k tr
  slots : s.Running → ∀ i q, Ring.slot s.window.buffer i = some q →
    i < s.dataSequenceNumber.toNat → ∃ tr ∈ s.fresh, 0 ≤ tr.result ∧ q.dataSize = tr.len ∧
      4 ≤ q.data.length ∧ ((seqOf q.data).toNat : Int) = tr.seq

section Search

variable {w : SenderWindow}

theorem findUnacked_cases (h : w.WellFormed) (n : ℕ) {seq : Int} (hseq : 0 ≤ seq) :
    (findUnacked w n seq = .ok none ∧ ∀ i, seq ≤ i → i < seq + n →
      ∀ q, Ring.slot w.buffer (i % w.windowSize) = some q → q.ack ≠ 0) ∨
    ∃ k q, findUnacked w n seq = .ok (some (k, q)) ∧ seq ≤ k ∧ k < seq + n ∧
      Ring.slot w.buffer (k % w.windowSize) = some q ∧ q.ack = 0 ∧
      ∀ i, seq ≤ i → i < k → ∀ q', Ring.slot w.buffer (i % w.windowSize) = some q' →
        q'.ack ≠ 0 := by
  induction n generalizing seq with
  | zero =>
    refine Or.inl ⟨rfl, ?_⟩
    intro i h₁ h₂
    omega
  | succ n ih =>
    obtain ⟨h₀, h₁⟩ := SenderWindow.index_range h seq
    by_cases hhere : ∃ q, Ring.slot w.buffer (seq % w.windowSize) = some q ∧ q.ack = 0
    · obtain ⟨q, hslot, hack⟩ := hhere
      refine Or.inr ⟨seq, q, ?_, le_refl _, by omega, hslot, hack, ?_⟩
      · simp only [findUnacked, SenderWindow.index_eq h hseq, SenderWindow.read_eq h h₀ h₁, hslot,
          hack, bind, Except.bind, if_true]
      · intro i h₂ h₃
        omega
    · -- the packet of this number does not stop the search
      have hpass : ∀ q, Ring.slot w.buffer (seq % w.windowSize) = some q → q.ack ≠ 0 := by
        intro q hslot hack
        exact hhere ⟨q, hslot, hack⟩
      have hnext : findUnacked w (n + 1) seq = findUnacked w n (seq + 1) := by
        simp only [findUnacked, SenderWindow.index_eq h hseq, SenderWindow.read_eq h h₀ h₁, bind,
          Except.bind]
        cases hslot : Ring.slot w.buffer (seq % w.windowSize) with
        | none => rfl
        | some q =>
          dsimp only
          rw [if_neg (hpass q hslot)]
      have hskip : ∀ (k : Int), (∀ i, seq + 1 ≤ i → i < k →
          ∀ q, Ring.slot w.buffer (i % w.windowSize) = some q → q.ack ≠ 0) →
          ∀ i, seq ≤ i → i < k → ∀ q, Ring.slot w.buffer (i % w.windowSize) = some q →
            q.ack ≠ 0 := by
        intro k hk i hi hik
        by_cases heq : i = seq
        · rw [heq]
          exact hpass
        · exact hk i (by omega) hik
      rw [hnext]
      rcases @ih (seq + 1) (by omega) with ⟨hnone, hall⟩ | ⟨k, q, hsome, hle, hlt, hq⟩
      · refine Or.inl ⟨hnone, ?_⟩
        intro i hi hik
        exact hskip (seq + 1 + n) hall i hi (by push_cast at hik; omega)
      · exact Or.inr ⟨k, q, hsome, by omega, by push_cast; omega, hq.1, hq.2.1,
          hskip k hq.2.2⟩

theorem findUnacked_window (h : w.WellFormed) :
    (findUnacked w (w.upper - w.lower + 1).toNat w.lower = .ok none ∧
      ∀ seq q, ¬LowestUnacked w seq q) ∨
    ∃ seq q, findUnacked w (w.upper - w.lower + 1).toNat w.lower = .ok (some (seq, q)) ∧
      LowestUnacked w seq q := by
  rcases findUnacked_cases h (w.upper - w.lower + 1).toNat h.lower_nonneg with
    ⟨hnone, hall⟩ | ⟨seq, q, hsome, hle, hlt, hslot, hack, hbefore⟩
  · refine Or.inl ⟨hnone, ?_⟩
    intro seq q hlow
    have hle := hlow.le_upper
    exact hall seq hlow.lower_le (by omega) q hlow.slot hlow.unacked
  · exact Or.inr ⟨seq, q, hsome, hle, by omega, hslot, hack, hbefore⟩

theorem LowestUnacked.unique {seq seq' : Int} {q q' : Packet} (h : LowestUnacked w seq q)
    (h' : LowestUnacked w seq' q') : seq = seq' ∧ q = q' := by
  have heq : seq = seq' := by
    by_contra hne
    rcases lt_or_gt_of_ne hne with hlt | hlt
    · exact h'.acked seq h.lower_le hlt q h.slot h.unacked
    · exact h.acked seq' h'.lower_le hlt q' h'.slot h'.unacked
  subst heq
  exact ⟨rfl, Option.some.inj (h.slot.symm.trans h'.slot)⟩

end Search

section Turns

variable {p : Session} {w : Int} {s s' : SendData} {t : SendTurn}

theorem Resends.phase {cause : Cause} {seq : Int} {q : Packet} (h : Resends s t cause seq q) :
    s.phase ≠ .fill := by
  cases h with
  | srej n q hlisten _ _ => exact hlisten.not_fill
  | timeout _ _ hphase _ _ _ =>
    rw [hphase]
    decide

theorem Resends.running {cause : Cause} {seq : Int} {q : Packet} (h : Resends s t cause seq q) :
    s.Running := by
  cases h with
  | srej n q hlisten _ _ => exact hlisten.running
  | timeout _ _ hphase _ _ _ => exact Or.inr (Or.inr hphase)

theorem Resends.slot {cause : Cause} {seq : Int} {q : Packet} (h : Resends s t cause seq q) :
    Ring.slot s.window.buffer (seq % s.window.windowSize) = some q := by
  cases h with
  | srej n q _ _ hslot => exact hslot
  | timeout _ _ _ _ _ hlowest => exact hlowest.slot

theorem sendTurn_resends (hw : s.window.WellFormed) {cause : Cause} {seq : Int} {q : Packet}
    (h : Resends s t cause seq q) : sendTurn p s t = s.resend cause seq q t := by
  cases h with
  | srej n q hlisten hcontrol hslot =>
    obtain ⟨h₀, h₁⟩ := SenderWindow.index_range hw n.toNat
    rw [sendTurn_listens hlisten]
    simp only [controlTurn, hcontrol, SenderWindow.indexU32_eq hw, bind, Except.bind,
      SenderWindow.deref_of_slot hw h₀ h₁ hslot]
  | timeout _ _ hphase hclosed hpoll hlowest =>
    rcases findUnacked_window hw with ⟨-, hall⟩ | ⟨seq', q', hsome, hlowest'⟩
    · exact absurd hlowest (hall seq q)
    · obtain ⟨rfl, rfl⟩ := hlowest.unique hlowest'
      rw [sendTurn_wait_timeout hphase hclosed hpoll]
      simp only [timeoutTurn, hsome]

theorem controlTurn_sent (hw : s.window.WellFormed) (hlisten : s.Listens t)
    (hnone : ∀ cause seq q, ¬Resends s t cause seq q) : (controlTurn s t).sent = s.sent := by
  cases hrecv : t.control with
  | none => simp only [controlTurn, hrecv]
  | some c =>
    cases c with
    | rr n =>
      rcases controlTurn_rr hw hrecv with ⟨window, hstep, -⟩ | ⟨-, hstep⟩ <;> rw [hstep]
    | srej n =>
      obtain ⟨h₀, h₁⟩ := SenderWindow.index_range hw n.toNat
      cases hslot : Ring.slot s.window.buffer (n.toNat % s.window.windowSize) with
      | some q => exact absurd (.srej n q hlisten hrecv hslot) (hnone .srej n.toNat q)
      | none =>
        simp only [controlTurn, hrecv, SenderWindow.indexU32_eq hw, bind, Except.bind,
          SenderWindow.deref_of_null hw h₀ h₁ hslot]
    | other => simp only [controlTurn, hrecv]

/-- Outside the fill loop nothing else is sent. -/
theorem sendTurn_sent (hw : s.window.WellFormed) (hphase : s.phase ≠ .fill)
    (hnone : ∀ cause seq q, ¬Resends s t cause seq q) :
    (sendTurn p s t).sent = s.sent := by
  by_cases hlisten : s.Listens t
  · rw [sendTurn_listens hlisten]
    exact controlTurn_sent hw hlisten hnone
  cases hp : s.phase with
  | fill => exact absurd hp hphase
  | poll =>
    have hpoll : ¬0 < t.poll := fun hpoll => hlisten ⟨hpoll, Or.inl hp⟩
    rw [sendTurn_poll_silent hp hpoll]
  | wait =>
    by_cases hopen : canSendMorePackets s.window = true
    · rw [sendTurn_wait_open hp hopen]
    · have hclosed : canSendMorePackets s.window = false := by simpa using hopen
      have hpoll : ¬0 < t.poll := fun hpoll => hlisten ⟨hpoll, Or.inr ⟨hp, hclosed⟩⟩
      rw [sendTurn_wait_timeout hp hclosed hpoll]
      rcases findUnacked_window hw with ⟨hsearch, -⟩ | ⟨seq, q, -, hlowest⟩
      · simp only [timeoutTurn, hsearch]
      · exact absurd (.timeout seq q hp hclosed hpoll hlowest) (hnone .timeout seq q)
  | returned state => simp only [sendTurn, hp]
  | crashed fault => simp only [sendTurn, hp]

/-! ## What the slots hold -/

theorem firstOf_sendFresh
    (hfile : s.file = p.file.drop (s.dataSequenceNumber.toNat * p.bufferSize.toNat)) {q : Packet}
    (hroom : (freshPdu p s t).length ≤ q.data.length) :
    FirstOf p s.dataSequenceNumber.toNat
      { cause := .fill
        seq := s.dataSequenceNumber.toNat
        src := memcpy q.data 0 (freshPdu p s t)
        len := (s.file.take p.bufferSize.toNat).length + 7
        result := t.sent } := by
  have hchunk : s.file.take p.bufferSize.toNat =
      Chunks.chunk p.file p.bufferSize.toNat s.dataSequenceNumber.toNat := by
    rw [hfile, Chunks.chunk]
  refine ⟨rfl, ?_, freshPdu p s t, bytes_sendFresh hroom, ?_, ?_⟩
  · rw [hchunk]
  · rw [length_freshPdu]
    omega
  · obtain ⟨checksum, hpdu⟩ := freshPdu_eq p s t
    rw [hpdu, seqOf_dataPdu]

theorem Stored.sendFresh (hs : Sending p w s) (h : Stored p s) (hrun : s.Running) {q : Packet}
    (hlower : s.window.lower = 0)
    (hnumber : (s.dataSequenceNumber.toNat : Int) ≤ s.window.windowSize)
    (hphase : s.phase = .fill)
    (hslot : Ring.slot s.window.buffer (s.dataSequenceNumber.toNat % s.window.windowSize) =
      some q) : Stored p (s.sendFresh p t q) := by
  have hfirst := firstOf_sendFresh (h.file hrun) (hs.room t hslot)
  refine ⟨?_, ?_, ?_⟩
  · intro hrun'
    obtain ⟨-, hnext⟩ := hs.sendFresh (q := q) hlower hnumber hphase
      (SendData.sent_nonneg_of_running hrun')
    rw [hnext, Nat.succ_mul, ← List.drop_drop, ← h.file hrun]
    rfl
  · intro tr htr
    rw [SendData.fresh_sendFresh, List.mem_append, List.mem_singleton] at htr
    rcases htr with htr | rfl
    · exact h.first tr htr
    · exact ⟨_, hfirst⟩
  · intro hrun' i q' hq' hi
    rw [SendData.fresh_sendFresh]
    rcases hs.slot_sendFresh hnumber hq' hi with ⟨hlen, junk, hdata⟩ | ⟨hi, hq'⟩
    · obtain ⟨checksum, hpdu⟩ := freshPdu_eq p s t
      refine ⟨_, List.mem_append_right _ (List.mem_singleton_self _),
        SendData.sent_nonneg_of_running hrun', hlen, ?_, ?_⟩
      · rw [hdata, List.length_append, length_freshPdu]
        omega
      · rw [hdata, hpdu, seqOf_dataPdu_append]
    · obtain ⟨tr, htr, hrest⟩ := h.slots hrun i q' hq' hi
      exact ⟨tr, List.mem_append_left _ htr, hrest⟩

theorem SendStep.stored (hs : Sending p w s) (h : Stored p s) (hrun : s.Running)
    (hstep : SendStep p s t s') : Stored p s' := by
  cases hstep with
  | moved phase hmove => exact ⟨fun _ => h.file hrun, h.first, fun _ => h.slots hrun⟩
  | eof _ =>
    refine ⟨?_, h.first, fun _ => h.slots hrun⟩
    intro hrun'
    simp [SendData.Running] at hrun'
  | fresh q hphase hlower hnumber _ hslot => exact h.sendFresh hs hrun hlower hnumber hphase hslot
  | crashed file fault =>
    refine ⟨?_, h.first, fun _ => h.slots hrun⟩
    intro hrun'
    simp [SendData.Running] at hrun'
  | slid n window _ hslid =>
    refine ⟨fun _ => h.file hrun, h.first, ?_⟩
    intro _ i q hq hi
    obtain ⟨q', hq', hdata, hsize⟩ := hslid.slots i q hq
    rw [hdata, hsize]
    exact h.slots hrun i q' hq' hi
  | resent cause seq index q _ hcause _ =>
    have hfresh := SendData.fresh_resend (s := s) (t := t) hcause seq q
    refine ⟨fun _ => h.file hrun, ?_, ?_⟩
    · rw [hfresh]
      exact h.first
    · rw [hfresh]
      exact fun _ => h.slots hrun
  | ignored => exact h

end Turns

/-- The function runs with a window of `w` numbers, or it has ended. -/
structure Transmitting (p : Session) (w : Int) (s : SendData) : Prop where
  sending : s.Running → Sending p w s
  stored : Stored p s

theorem enterSendData_transmitting {p : Session} (heap : ℕ → ℕ → UInt8)
    (hw : 1 ≤ toI32 p.windowSize) : Transmitting p (toI32 p.windowSize) (enterSendData p heap) := by
  refine ⟨fun _ => enterSendData_sending heap hw, ?_, ?_, ?_⟩
  · intro _
    simp [enterSendData]
  · intro tr htr
    simp [SendData.fresh, enterSendData] at htr
  · intro _ i q hq hi
    obtain ⟨hi₀, -⟩ := Ring.slot_eq_some_iff.mp hq
    simp only [enterSendData, UInt32.toNat_zero] at hi
    omega

theorem Transmitting.step {p : Session} {w : Int} {s : SendData} (h : Transmitting p w s)
    (t : SendTurn) : Transmitting p w (sendTurn p s t) := by
  by_cases hrun : s.Running
  · have hs := h.sending hrun
    have hstep := sendTurn_step (t := t) hs hrun
    exact ⟨hstep.sending hs, hstep.stored hs h.stored hrun⟩
  · rw [sendTurn_of_not_running hrun]
    exact h

/-! ## Faithful retransmissions -/

def SameDatagram (a b : Transmission) : Prop :=
  a.len = b.len ∧ ∃ d, a.bytes = some d ∧ b.bytes = some d

def SendData.Outstanding (s : SendData) (k : Int) : Prop :=
  s.window.lower ≤ k ∧ k < s.dataSequenceNumber.toNat

def SendData.Unacked (s : SendData) (k : Int) : Prop :=
  ∀ q, Ring.slot s.window.buffer (k % s.window.windowSize) = some q → q.ack = 0

/-- The turn sends `tr`. -/
def Sends (p : Session) (s : SendData) (t : SendTurn) (tr : Transmission) : Prop :=
  (sendTurn p s t).sent = s.sent ++ [tr] ∧ 0 ≤ tr.result

def RepeatsFirst (s : SendData) (k : Int) (tr : Transmission) : Prop :=
  ∃ first ∈ s.fresh, first.seq = k ∧ SameDatagram tr first

/-- What the turn sends for an outstanding packet, or after a timeout, is the datagram
sent first. -/
structure Faithful (p : Session) (s : SendData) (t : SendTurn) : Prop where
  srej : ∀ n tr, s.Listens t → t.control = some (.srej n) → s.Outstanding n.toNat →
    Sends p s t tr → RepeatsFirst s n.toNat tr
  timeout : ∀ tr, s.phase = .wait → canSendMorePackets s.window = false → ¬0 < t.poll →
    Sends p s t tr → ∃ k, s.Outstanding k ∧ s.Unacked k ∧
      (∀ j, s.Outstanding j → s.Unacked j → k ≤ j) ∧ RepeatsFirst s k tr

/-- Nothing is sent again but for an SREJ that names no outstanding packet. -/
def NoResend (s : SendData) (t : SendTurn) : Prop :=
  ∀ cause seq q, Resends s t cause seq q → 0 ≤ t.sent → cause = .srej ∧ ¬s.Outstanding seq

section Faithful

variable {p : Session} {w : Int} {s : SendData} {t : SendTurn}

/-- A datagram that is sent again carries the number of the packet in its slot and
seven bytes more than that packet had. -/
theorem Transmitting.resent (h : Transmitting p w s) {cause : Cause} {seq : Int} {q : Packet}
    (hres : Resends s t cause seq q) :
    ∃ tr ∈ s.fresh, 0 ≤ tr.result ∧ i32 (q.dataSize + 7) = tr.len + 7 ∧ 4 ≤ q.data.length ∧
      ((seqOf q.data).toNat : Int) = tr.seq := by
  have hs := h.sending hres.running
  obtain ⟨-, hlt⟩ := SenderWindow.index_range hs.window seq
  have hnum := hs.number_eq hres.phase
  have hsize := hs.windowSize
  obtain ⟨tr, htr, hresult, hq, hdata, hseq⟩ := h.stored.slots hres.running _ q hres.slot (by omega)
  obtain ⟨k, hk⟩ := h.stored.first tr htr
  have hchunk := Chunks.length_chunk_le p.file p.bufferSize.toNat k
  have hmax := p.bufferSize.toNat_lt
  have hlen := hk.len
  refine ⟨tr, htr, hresult, ?_, hdata, hseq⟩
  rw [i32_of_range (by omega) (by omega), hq]

theorem Transmitting.resend_differs (h : Transmitting p w s) {cause : Cause} {seq : Int}
    {q : Packet} (hres : Resends s t cause seq q) {first : Transmission} (hfirst : first ∈ s.fresh) :
    ¬SameDatagram ⟨cause, seq, q.data, i32 (q.dataSize + 7), t.sent⟩ first := by
  rintro ⟨hlen, d, hd, hd'⟩
  obtain ⟨tr, htr, -, hlonger, hdata, hseq⟩ := h.resent hres
  obtain ⟨k, hk⟩ := h.stored.first tr htr
  obtain ⟨m, hm⟩ := h.stored.first first hfirst
  have hklen := hk.len
  have hmlen := hm.len
  -- the two headers carry one number, so the two packets have one length
  have hkm : k = m := by
    obtain ⟨d₀, hd₀, -, hnumber⟩ := hm.bytes
    have hkseq := hk.seq
    simp only [Transmission.bytes, hlonger] at hd
    split_ifs at hd with hroom
    obtain rfl := Option.some.inj hd
    obtain rfl := Option.some.inj (hd₀.symm.trans hd')
    rw [seqOf_take (by omega)] at hnumber
    omega
  dsimp only at hlen
  rw [hkm] at hklen
  omega

/-- A turn that sends something outside the fill loop sends a packet again. -/
theorem Sends.resends {tr : Transmission} (hsends : Sends p s t tr) (hw : s.window.WellFormed)
    (hphase : s.phase ≠ .fill) : ∃ cause seq q, Resends s t cause seq q ∧ 0 ≤ t.sent := by
  by_cases hres : ∃ cause seq q, Resends s t cause seq q
  · obtain ⟨cause, seq, q, hres⟩ := hres
    rw [Sends, sendTurn_resends hw hres, SendData.resend, List.append_cancel_left_eq] at hsends
    obtain ⟨htr, hresult⟩ := hsends
    obtain rfl := (List.cons.inj htr).1
    exact ⟨cause, seq, q, hres, hresult⟩
  · exfalso
    have hsame := sendTurn_sent (p := p) hw hphase fun cause seq q hr => hres ⟨cause, seq, q, hr⟩
    have hlen := congrArg List.length (hsame.symm.trans hsends.1)
    simp at hlen

theorem Transmitting.faithful_iff (h : Transmitting p w s) : Faithful p s t ↔ NoResend s t := by
  constructor
  · intro hfaithful cause seq q hres hsent
    have hturn := sendTurn_resends (p := p) (h.sending hres.running).window hres
    have hsends : Sends p s t ⟨cause, seq, q.data, i32 (q.dataSize + 7), t.sent⟩ := by
      rw [Sends, hturn]
      exact ⟨rfl, hsent⟩
    cases hres with
    | srej n q hlisten hcontrol hslot =>
      refine ⟨rfl, ?_⟩
      intro hout
      obtain ⟨first, hfirst, -, hsame⟩ := hfaithful.srej n _ hlisten hcontrol hout hsends
      exact h.resend_differs (.srej n q hlisten hcontrol hslot) hfirst hsame
    | timeout seq q hphase hclosed hpoll hlowest =>
      obtain ⟨k, -, -, -, first, hfirst, -, hsame⟩ :=
        hfaithful.timeout _ hphase hclosed hpoll hsends
      exact absurd hsame (h.resend_differs (.timeout seq q hphase hclosed hpoll hlowest) hfirst)
  · intro hnone
    refine ⟨?_, ?_⟩
    · intro n tr hlisten hcontrol hout hsends
      obtain ⟨cause, seq, q, hres, hsent⟩ :=
        hsends.resends (h.sending hlisten.running).window hlisten.not_fill
      obtain ⟨-, hnot⟩ := hnone cause seq q hres hsent
      cases hres with
      | srej n' q _ hcontrol' _ =>
        obtain rfl : n = n' := by simpa using hcontrol.symm.trans hcontrol'
        exact absurd hout hnot
      | timeout _ _ hphase hclosed hpoll _ => exact absurd hlisten.1 hpoll
    · intro tr hphase hclosed hpoll hsends
      obtain ⟨cause, seq, q, hres, hsent⟩ :=
        hsends.resends (h.sending (Or.inr (Or.inr hphase))).window (by rw [hphase]; decide)
      obtain ⟨hcause, -⟩ := hnone cause seq q hres hsent
      cases hres with
      | srej n q hlisten _ _ => exact absurd hlisten.1 hpoll
      | timeout => cases hcause

end Faithful

/-- The retransmissions of a run are faithful exactly when it makes none. -/
theorem retransmissions_faithful_iff (p : Session) (heap : ℕ → ℕ → UInt8) (turns : List SendTurn)
    (hw : 1 ≤ toI32 p.windowSize) :
    Runs.EveryStep (sendTurn p) (Faithful p) (enterSendData p heap) turns ↔
    Runs.EveryStep (sendTurn p) NoResend (enterSendData p heap) turns := by
  refine Runs.everyStep_congr (I := Transmitting p (toI32 p.windowSize)) ?_ ?_ ?_
  · exact enterSendData_transmitting heap hw
  · intro s t h
    exact h.faithful_iff
  · intro s t h _
    exact h.step t

theorem retransmissions_faithful_first :
    Runs.EveryStep (sendTurn shortSession) (Faithful shortSession)
      (enterSendData shortSession fun _ _ => 0) [quietTurn none] :=
  (retransmissions_faithful_iff shortSession (fun _ _ => 0) [quietTurn none] (by decide)).mpr
    ⟨fun _ _ _ hres => absurd rfl hres.phase, trivial⟩

/-- The window of two is full after three packets of eight bytes, and the first timeout
sends fifteen bytes from the slot of packet 2. -/
theorem retransmission_longer :
    ¬ ∀ (p : Session) (heap : ℕ → ℕ → UInt8) (turns : List SendTurn), 1 ≤ toI32 p.windowSize →
      Runs.EveryStep (sendTurn p) (Faithful p) (enterSendData p heap) turns := by
  intro h
  have hturn := (h shortSession (fun _ _ => 0) (List.replicate 5 (quietTurn none) ++
    [quietTurn none]) (by decide)).concat
  have hsends : ∃ tr, Sends shortSession (Runs.exec (sendTurn shortSession)
        (enterSendData shortSession fun _ _ => 0) (List.replicate 5 (quietTurn none)))
        (quietTurn none) tr ∧
      ∀ first ∈ (Runs.exec (sendTurn shortSession) (enterSendData shortSession fun _ _ => 0)
        (List.replicate 5 (quietTurn none))).fresh, tr.len ≠ first.len := by
    refine ⟨⟨.timeout, 0, ((Ring.slot (Runs.exec (sendTurn shortSession)
      (enterSendData shortSession fun _ _ => 0) (List.replicate 5 (quietTurn none))).window.buffer
        0).map Packet.data).getD [], 15, 8⟩, ⟨?_, by decide⟩, ?_⟩ <;> decide +kernel
  obtain ⟨tr, hsends, hlen⟩ := hsends
  obtain ⟨k, -, -, -, first, hfirst, -, hsame⟩ :=
    hturn.timeout tr (by decide +kernel) (by decide +kernel) (by decide) hsends
  exact hlen first hfirst hsame.1

end Rcopy
