import Rcopy.Receive
import Rcopy.Retransmission
import Rcopy.SendDivision

/-!
# The length of a datagram at the receiver

rcopy allocates `7 + buffer_size` bytes for a datagram, lets `recvfrom` store up to
`sizeof(RPacket)` and writes `buffer_size` bytes of payload, whatever has arrived.
Only a datagram of exactly `7 + buffer_size` bytes fits all three, and only up to a
buffer size of 1400, which `checkArgs` does not ask for. The last chunk is shorter,
and every packet sent again is seven bytes longer.
-/

namespace Rcopy

open Bytes

def clientOf (params : RcopyParams) (socketNum : Int) : Client where
  socketNum := socketNum
  windowSize := params.windowSize
  bufferSize := params.bufferSize

/-- The session that the server runs on a file for a request of rcopy. -/
def serverSession (params : RcopyParams) (beyond : UInt8) (file : List UInt8) : Session :=
  sessionOf (requestOf (filenameDatagram params beyond)) file

/-- What rcopy does with a datagram of `n` bytes stays inside its memory and inside the
datagram. -/
structure Fits (c : Client) (n : Int) : Prop where
  stored : min n 1407 ≤ c.packetSize
  whole : n ≤ 1407
  copied : pointerSize ≤ zeroData.length
  read : ∀ buffer, ∀ w ∈ writePayloadToFile c buffer, 7 + (w.count : Int) ≤ min n 1407

def SentFit (c : Client) (s : SendData) : Prop :=
  ∀ tr ∈ s.sent, 0 ≤ tr.result → Fits c tr.len

/-- A packet that the turn sends first carries `buffer_size` bytes, 1400 at most, and
the turn sends none again. -/
structure FullAndOnce (p : Session) (bufferSize : Int) (s : SendData) (t : SendTurn) : Prop where
  full : HasNext p s → 0 ≤ t.sent →
    ((s.file.take p.bufferSize.toNat).length : Int) = bufferSize ∧ bufferSize ≤ 1400
  once : ∀ cause seq q, Resends s t cause seq q → t.sent < 0

theorem fits_iff {c : Client} (hc : 0 < c.bufferSize) {n : Int} :
    Fits c n ↔ n = 7 + c.bufferSize ∧ c.bufferSize ≤ 1400 := by
  have hsize : (c.packetSize : Int) = 7 + c.bufferSize := by
    rw [Client.packetSize]
    omega
  have hcopied : pointerSize ≤ zeroData.length := by
    rw [zeroData, List.length_replicate, pointerSize]
    decide
  constructor
  · intro h
    have hstored := h.stored
    have hwhole := h.whole
    have hread := h.read [] ⟨(seqOf []).toNat, [], c.bufferSize.toNat⟩ (by
      rw [writePayloadToFile, if_neg (by omega)]
      exact List.mem_singleton_self _)
    dsimp only at hread
    omega
  · rintro ⟨hn, hmax⟩
    refine ⟨by omega, by omega, hcopied, ?_⟩
    intro buffer w hw
    rw [writePayloadToFile, if_neg (by omega), List.mem_singleton] at hw
    subst hw
    dsimp only
    omega

section Turns

variable {p : Session} {w : Int} {s : SendData} {t : SendTurn} {c : Client}

theorem SentFit.sendFresh (hc : 0 < c.bufferSize) (h : SentFit c s) (q : Packet)
    (hfull : 0 ≤ t.sent → ((s.file.take p.bufferSize.toNat).length : Int) = c.bufferSize ∧
      c.bufferSize ≤ 1400) : SentFit c (s.sendFresh p t q) := by
  intro tr htr hresult
  simp only [SendData.sendFresh, List.mem_append, List.mem_singleton] at htr
  rcases htr with htr | rfl
  · exact h tr htr hresult
  · rw [fits_iff hc]
    obtain ⟨hlen, hmax⟩ := hfull hresult
    dsimp only
    omega

theorem SentFit.step (hc : 0 < c.bufferSize) (h : Transmitting p w s) (hfit : SentFit c s)
    (hgood : FullAndOnce p c.bufferSize s t) : SentFit c (sendTurn p s t) := by
  by_cases hrun : s.Running
  · have hs := h.sending hrun
    by_cases hphase : s.phase = .fill
    · rcases sendTurn_fill_cases (t := t) hs hphase with ⟨q, hnext, hturn⟩ | ⟨-, hsame, -⟩
      · rw [hturn]
        exact hfit.sendFresh hc q fun hsent => hgood.full hnext hsent
      · rw [SentFit, hsame]
        exact hfit
    · by_cases hres : ∃ cause seq q, Resends s t cause seq q
      · obtain ⟨cause, seq, q, hres⟩ := hres
        have hfail := hgood.once cause seq q hres
        rw [sendTurn_resends hs.window hres]
        intro tr htr hresult
        simp only [SendData.resend, List.mem_append, List.mem_singleton] at htr
        rcases htr with htr | rfl
        · exact hfit tr htr hresult
        · exact absurd hresult (by dsimp only; omega)
      · have hsame := sendTurn_sent (p := p) hs.window hphase fun cause seq q hr =>
          hres ⟨cause, seq, q, hr⟩
        rw [SentFit, hsame]
        exact hfit
  · rw [sendTurn_of_not_running hrun]
    exact hfit

theorem not_sentFit_of_first (hc : 0 < c.bufferSize) (h : Transmitting p w s)
    (hnext : HasNext p s) (hsent : 0 ≤ t.sent)
    (hbad : ¬(((s.file.take p.bufferSize.toNat).length : Int) = c.bufferSize ∧
      c.bufferSize ≤ 1400)) : ¬SentFit c (sendTurn p s t) := by
  intro hfit
  have hs := h.sending (Or.inl hnext.phase)
  rcases sendTurn_fill_cases (t := t) hs hnext.phase with ⟨q, -, hturn⟩ | ⟨hnot, -⟩
  · rw [hturn] at hfit
    have hlen := (fits_iff hc).mp (hfit _
      (List.mem_append_right _ (List.mem_singleton_self _)) hsent)
    dsimp only at hlen
    omega
  · exact hnot hnext

theorem not_sentFit_of_resend (hc : 0 < c.bufferSize) (h : Transmitting p w s)
    (hfit : SentFit c s) {cause : Cause} {seq : Int} {q : Packet}
    (hres : Resends s t cause seq q) (hsent : 0 ≤ t.sent) : ¬SentFit c (sendTurn p s t) := by
  obtain ⟨tr, htr, hresult, hlonger, -⟩ := h.resent hres
  have hfirst := ((fits_iff hc).mp (hfit tr (List.mem_filter.mp htr).1 hresult)).1
  intro hfit'
  rw [sendTurn_resends (h.sending hres.running).window hres] at hfit'
  have hagain := ((fits_iff hc).mp (hfit' _
    (List.mem_append_right _ (List.mem_singleton_self _)) hsent)).1
  dsimp only at hagain
  omega

theorem not_sentFit_of_not_fullAndOnce (hc : 0 < c.bufferSize) (h : Transmitting p w s)
    (hfit : SentFit c s) (hbad : ¬FullAndOnce p c.bufferSize s t) :
    ¬SentFit c (sendTurn p s t) := by
  intro hnext
  refine hbad ⟨?_, ?_⟩
  · intro hfirst hsent
    by_contra hnot
    exact not_sentFit_of_first hc h hfirst hsent hnot hnext
  · intro cause seq q hres
    by_contra hsent
    exact not_sentFit_of_resend hc h hfit hres (by omega) hnext

end Turns

theorem Idle.fullAndOnce {p : Session} {s : SendData} {t : SendTurn} (h : Idle s)
    (bufferSize : Int) : FullAndOnce p bufferSize s t := by
  refine ⟨?_, ?_⟩
  · intro hnext
    have hopen := hnext.room
    rw [h.closed] at hopen
    cases hopen
  · intro cause seq q hres
    have hslot := hres.slot
    rw [h.slot] at hslot
    cases hslot

theorem Idle.sentFit {s : SendData} (h : Idle s) (c : Client) : SentFit c s := by
  intro tr htr
  rw [h.sent] at htr
  cases htr

/-- In a session on arguments that `checkArgs` accepts every datagram sent fits exactly
when each packet sent first is full, of 1400 bytes at most, and none is sent again. -/
theorem sentFit_iff (rateRejected : CString → Bool)
    (prog src dest window buffer rate machine port : CString) (params : RcopyParams)
    (h : checkArgs rateRejected [prog, src, dest, window, buffer, rate, machine, port] =
      some params)
    (socketNum : Int) (beyond : UInt8) (file : List UInt8) (heap : ℕ → ℕ → UInt8)
    (turns : List SendTurn) :
    Runs.Always (sendTurn (serverSession params beyond file)) (SentFit (clientOf params socketNum))
      (enterSendData (serverSession params beyond file) heap) turns ↔
    Runs.EveryStep (sendTurn (serverSession params beyond file))
      (FullAndOnce (serverSession params beyond file) params.bufferSize)
      (enterSendData (serverSession params beyond file) heap) turns := by
  have hc : 0 < (clientOf params socketNum).bufferSize := (checkArgs_some h).2.2.1
  have hwindow : 0 ≤ toI32 (serverSession params beyond file).windowSize :=
    sessionOf_windowSize _ _
  by_cases hzero : toI32 (serverSession params beyond file).windowSize = 0
  · refine Runs.always_iff_everyStep (I := Idle) (enterSendDataAt_idle hzero heap 0) ?_ ?_ ?_
    · exact fun s hs => hs.sentFit _
    · exact fun s t hs _ => hs.step t
    · exact fun s t hs hbad => absurd (hs.fullAndOnce _) hbad
  · refine Runs.always_iff_everyStep (I := fun s =>
      Transmitting (serverSession params beyond file)
        (toI32 (serverSession params beyond file).windowSize) s ∧
      SentFit (clientOf params socketNum) s) ?_ ?_ ?_ ?_
    · refine ⟨enterSendData_transmitting heap (by omega), ?_⟩
      intro tr htr
      simp [enterSendData] at htr
    · exact fun s hs => hs.2
    · rintro s t ⟨htrans, hfit⟩ hgood
      exact ⟨htrans.step t, hfit.step hc htrans hgood⟩
    · rintro s t ⟨htrans, hfit⟩ hbad
      exact not_sentFit_of_not_fullAndOnce hc htrans hfit hbad

theorem sentFit_single :
    Runs.Always (sendTurn (serverSession (paramsOf digitOne) 0 [1, 2, 3]))
      (SentFit (clientOf (paramsOf digitOne) 3))
      (enterSendData (serverSession (paramsOf digitOne) 0 [1, 2, 3]) fun _ _ => 0)
      [quietTurn none] :=
  (sentFit_iff (fun _ => false) letterA letterA letterA digitOne digitOne digitOne letterA digitOne
    (paramsOf digitOne) (checkArgs_paramsOf (by decide)) 3 0 [1, 2, 3] (fun _ _ => 0)
    [quietTurn none]).mpr
    ⟨⟨fun _ _ => by decide +kernel, fun _ _ _ hres => absurd rfl hres.phase⟩, trivial⟩

/-- The first timeout sends fifteen bytes for which rcopy has allocated eight. -/
theorem sentFit_lost :
    ¬ ∀ (rateRejected : CString → Bool)
      (prog src dest window buffer rate machine port : CString) (params : RcopyParams),
      checkArgs rateRejected [prog, src, dest, window, buffer, rate, machine, port] =
        some params →
      ∀ (socketNum : Int) (beyond : UInt8) (file : List UInt8) (heap : ℕ → ℕ → UInt8)
        (turns : List SendTurn),
        Runs.Always (sendTurn (serverSession params beyond file))
          (SentFit (clientOf params socketNum))
          (enterSendData (serverSession params beyond file) heap) turns := by
  intro h
  have hrun := (h (fun _ => false) letterA letterA letterA digitOne digitOne digitOne letterA
    digitOne (paramsOf digitOne) (checkArgs_paramsOf (by decide)) 3 0 [1, 2, 3] (fun _ _ => 0)
    (List.replicate 5 (quietTurn none))).last
  have hlonger : ∃ tr ∈ (Runs.exec (sendTurn (serverSession (paramsOf digitOne) 0 [1, 2, 3]))
      (enterSendData (serverSession (paramsOf digitOne) 0 [1, 2, 3]) fun _ _ => 0)
      (List.replicate 5 (quietTurn none))).sent, 0 ≤ tr.result ∧ tr.len = 15 := by
    decide +kernel
  obtain ⟨tr, htr, hresult, hlen⟩ := hlonger
  have hfits := (fits_iff (by decide)).mp (hrun tr htr hresult)
  rw [hlen] at hfits
  exact absurd hfits.1 (by decide)

end Rcopy
