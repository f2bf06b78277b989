import Rcopy.FileIntegrity
import Rcopy.ReceiveEnd
import Rcopy.ReorderPayload

/-!
# The recovery of a gap

A datagram is taken from the socket at the head of the receive loop or in a wait
loop. The log below records them all. A recovery takes two turns: the one in which
`doBufferState` waits for the missing packet, and the one that runs the flush. The
wait loop looks at the number of the missing packet and drops it.
-/

namespace Rcopy

open Bytes

/-- The datagram that a turn of a wait loop takes. -/
def Attempt.taken (c : Client) (a : Attempt) : List (List UInt8) :=
  if a.poll = c.socketNum then
    match a.recv with
    | none => []
    | some d => if d = [] then [] else [d]
  else []

/-- The datagrams that the wait loop of `resendRR` takes. -/
def takenByRR (c : Client) (expected : UInt32) (attempts : ℕ → Attempt) :
    ℕ → ℕ → List (List UInt8)
  | 0, _ => []
  | n + 1, retries =>
    let a := attempts retries
    if 0 ≤ a.sent then []
    else if a.brings c expected then a.taken c
    else a.taken c ++ takenByRR c expected attempts n (retries + 1)

def takenBySREJ (c : Client) (expected : UInt32) (attempts : ℕ → Attempt) :
    ℕ → ℕ → List (List UInt8)
  | 0, _ => []
  | n + 1, retries =>
    let a := attempts retries
    if a.brings c expected then a.taken c
    else a.taken c ++ takenBySREJ c expected attempts n (retries + 1)

def takenByHandler (c : Client) (currentState : ReceiveState) (rb : ReceiverBuffer)
    (buffer : List UInt8) (attempts : ℕ → Attempt) : List (List UInt8) :=
  if seqOf buffer < toU32 rb.expected then []
  else
    match currentState with
    | .inOrder =>
      if seqOf buffer = toU32 rb.expected then
        takenByRR c (toU32 (i32 (rb.expected + 1))) attempts 9 0
      else []
    | .buffering => takenBySREJ c (toU32 rb.expected) attempts 10 0
    | .flushing => []
    | .done => []

/-- The datagrams that a turn of the receive loop takes from the socket. -/
def Turn.taken (c : Client) (s : GetData) (t : Turn) : List (List UInt8) :=
  if s.exit = none ∧ 0 < t.poll then
    match t.recv with
    | none => []
    | some d =>
      if d = [] then []
      else d :: takenByHandler c s.subState s.receiver.rbuf (t.received c d) t.attempts
  else []

/-- The receive loop with all the datagrams it has taken. -/
structure Logged where
  loop : GetData
  taken : List (List UInt8)

def enterLogged (c : Client) (raw : ReceiverBuffer) : Logged where
  loop := enterGetData c raw
  taken := []

def loggedTurn (c : Client) (s : Logged) (t : Turn) : Logged where
  loop := receiveTurn c s.loop t
  taken := s.taken ++ t.taken c s.loop

def IsDataPdu (c : Client) (d : List UInt8) : Prop :=
  ∃ seq checksum payload, d = dataPdu seq checksum payload ∧ payload ≠ [] ∧
    (payload.length : Int) ≤ c.bufferSize

def InWindow (c : Client) (expected : Int) (d : List UInt8) : Prop :=
  (toU32 expected).toNat ≤ (seqOf d).toNat ∧
    ((seqOf d).toNat : Int) ≤ (toU32 expected).toNat + c.windowSize

/-- The turn receives an in-window data PDU at the head of the loop. -/
structure BringsData (c : Client) (expected : Int) (t : Turn) (d : List UInt8) : Prop where
  poll : 0 < t.poll
  recv : t.recv = some d
  data : IsDataPdu c d
  inWindow : InWindow c expected d

/-- The consecutive packets from `k` on, as far as the log has them. -/
structure LongestRun (c : Client) (log : List (List UInt8)) (k : ℕ) (ds : List (List UInt8)) :
    Prop where
  nonempty : ds ≠ []
  packets : ∀ d ∈ ds, d ∈ log ∧ IsDataPdu c d
  numbers : ds.map (fun d => (seqOf d).toNat) = List.range' k ds.length
  ends : ∀ d ∈ log, IsDataPdu c d → (seqOf d).toNat ≠ k + ds.length

/-- When the wait for the missing packet leads to the flush, the flush leaves the packets
from the missing one on in the file, and what the two turns took is written or stored. -/
def Recovers (c : Client) (s : Logged) (t t' : Turn) : Prop :=
  (loggedTurn c s t).loop.subState = .flushing →
    ∃ ws, (loggedTurn c (loggedTurn c s t) t').loop.receiver.file = s.loop.receiver.file ++ ws ∧
      (∃ ds, LongestRun c (loggedTurn c (loggedTurn c s t) t').taken
          (toU32 s.loop.receiver.rbuf.expected).toNat ds ∧
        fileBytes ws = some (ds.map payloadOf).flatten) ∧
      ∀ d ∈ t.taken c s.loop ++ t'.taken c (loggedTurn c s t).loop,
        InWindow c s.loop.receiver.rbuf.expected d →
          (∃ w ∈ ws, w.seq = (seqOf d).toNat) ∨
            (loggedTurn c (loggedTurn c s t) t').loop.receiver.rbuf.Holds (seqOf d).toNat

theorem flushBuffer_keeps_storedTruncated {rb : ReceiverBuffer} (h : StoredTruncated rb.buffer) :
    StoredTruncated (flushBuffer rb).rbuf.buffer := by
  refine flushLoop_keep (P := fun r => StoredTruncated r.buffer) ?_ _ h
  intro r r' w hr hs
  obtain ⟨p, -, -, -, rfl, -⟩ := flushStep_cases hs
  intro i q hq
  rcases Ring.slot_update_eq_some hq with ⟨-, q', -, rfl⟩ | ⟨-, hq⟩
  · refine ⟨List.length_replicate, ?_⟩
    intro hvalid
    cases hvalid
  · exact hr i q hq

section Turns

variable {c : Client} {s : GetData} {t : Turn} {d : List UInt8}

theorem receiveTurn_storedTruncated (h : StoredTruncated s.receiver.rbuf.buffer) :
    StoredTruncated (receiveTurn c s t).receiver.rbuf.buffer := by
  rcases receiveTurn_cases c s t with ⟨hsame, -, -⟩ | ⟨d, -, -, -, -, hturn⟩
  · rw [hsame]
    exact h
  · have hhandled := handleDataPacket_handled c s.subState s.receiver (t.received c d) t.attempts
    rw [hturn]
    refine hhandled.keep (P := fun rb => StoredTruncated rb.buffer) ?_ ?_ ?_ h
    · exact fun rb _ _ _ hrb => hrb
    · exact fun rb hrb => insertReceiverPacket_storedTruncated hrb (t.received c d)
    · exact fun rb hrb => flushBuffer_keeps_storedTruncated hrb

theorem IsDataPdu.received (h : IsDataPdu c d) (t : Turn) :
    d ≠ [] ∧ seqOf (t.received c d) = seqOf d ∧ flagOf (t.received c d) = 16 := by
  obtain ⟨seq, checksum, payload, rfl, -, -⟩ := h
  obtain ⟨hseq, hflag⟩ := header_received c t (d := dataPdu seq checksum payload) (by
    rw [length_dataPdu]
    omega)
  exact ⟨dataPdu_ne_nil _ _ _, hseq, by rw [hflag, flagOf_dataPdu]⟩

theorem IsDataPdu.payloadOf_ne_nil (h : IsDataPdu c d) : payloadOf d ≠ [] := by
  obtain ⟨seq, checksum, payload, rfl, hpayload, -⟩ := h
  have hdrop := drop_dataPdu_append seq checksum payload []
  rw [List.append_nil, List.append_nil] at hdrop
  rw [payloadOf, hdrop]
  exact hpayload

theorem LongestRun.payloads_ne_nil {log ds : List (List UInt8)} {k : ℕ}
    (h : LongestRun c log k ds) : (ds.map payloadOf).flatten ≠ [] := by
  obtain ⟨d, hd⟩ := List.exists_mem_of_ne_nil ds h.nonempty
  intro hnil
  rw [List.flatten_eq_nil_iff] at hnil
  exact (h.packets d hd).2.payloadOf_ne_nil (hnil _ (List.mem_map_of_mem hd))

theorem BringsData.receives {expected : Int} (h : BringsData c expected t d)
    (hexit : s.exit = none) : Receives c s t d := by
  obtain ⟨hne, -, hflag⟩ := h.data.received t
  exact ⟨hexit, h.poll, h.recv, hne, by rw [hflag]; decide⟩

theorem BringsData.not_old {expected : Int} (h : BringsData c expected t d) :
    ¬seqOf (t.received c d) < toU32 expected := by
  rw [(h.data.received t).2.1, UInt32.lt_iff_toNat_lt]
  exact not_lt.mpr h.inWindow.1

theorem receiveTurn_buffering (hexit : s.exit = none) (hsub : s.subState = .buffering)
    (h : BringsData c s.receiver.rbuf.expected t d) :
    receiveTurn c s t =
      { s with
        subState := (doBufferState c s.receiver (t.received c d) t.attempts).1
        receiver := (doBufferState c s.receiver (t.received c d) t.attempts).2 } := by
  rw [receiveTurn_receives (h.receives hexit)]
  simp only [handleDataPacket, if_neg h.not_old, hsub]

theorem receiveTurn_flushing (hexit : s.exit = none) (hsub : s.subState = .flushing)
    (h : BringsData c s.receiver.rbuf.expected t d) :
    receiveTurn c s t =
      { s with
        subState := (doFlushingState s.receiver).1
        receiver := (doFlushingState s.receiver).2 } := by
  rw [receiveTurn_receives (h.receives hexit)]
  simp only [handleDataPacket, if_neg h.not_old, hsub]

end Turns

section Recovery

variable {c : Client} {s : Logged} {t t' : Turn} {d d' : List UInt8}

theorem doFlushingState_file (r : Receiver) :
    (doFlushingState r).2.file = r.file ++ (flushBuffer r.rbuf).writes := by
  simp only [doFlushingState]
  split_ifs <;> rfl

theorem doBufferState_flushing_iff (c : Client) (r : Receiver) (buffer : List UInt8)
    (attempts : ℕ → Attempt) :
    (doBufferState c r buffer attempts).1 = .flushing ↔
      ¬∀ i < 10, (attempts i).brings c (toU32 r.rbuf.expected) = false := by
  have hstate : (doBufferState c r buffer attempts).1 = .done ∨
      (doBufferState c r buffer attempts).1 = .flushing :=
    (resendSREJ_state c (toU32 r.rbuf.expected) attempts 10 0 _).imp_right And.left
  rw [← doBufferState_done_iff r buffer]
  rcases hstate with hst | hst <;> simp [hst]

/-- The flush that follows the wait does not write the missing packet. -/
theorem not_recovers_of_brings (hexit : s.loop.exit = none) (hsub : s.loop.subState = .buffering)
    (hstored : StoredTruncated s.loop.receiver.rbuf.buffer)
    (hd : BringsData c s.loop.receiver.rbuf.expected t d)
    (hd' : BringsData c s.loop.receiver.rbuf.expected t' d')
    (hbrings : ¬∀ i < 10,
      (t.attempts i).brings c (toU32 s.loop.receiver.rbuf.expected) = false) :
    ¬Recovers c s t t' := by
  have hturn := receiveTurn_buffering hexit hsub hd
  have hflushing := (doBufferState_flushing_iff c s.loop.receiver (t.received c d) t.attempts).mpr
    hbrings
  obtain ⟨hrbuf, hfile⟩ := doBufferState_frame c s.loop.receiver (t.received c d) t.attempts
  have hfirst : (loggedTurn c s t).loop.subState = .flushing := by
    rw [loggedTurn, hturn]
    exact hflushing
  have hexpected : (loggedTurn c s t).loop.receiver.rbuf.expected =
      s.loop.receiver.rbuf.expected := by
    rw [loggedTurn, hturn]
    dsimp only
    rw [hrbuf, insertReceiverPacket_expected]
  have hsecond : (loggedTurn c (loggedTurn c s t) t').loop.receiver.file =
      s.loop.receiver.file ++ (flushBuffer (loggedTurn c s t).loop.receiver.rbuf).writes := by
    have hexit' : (loggedTurn c s t).loop.exit = none := by
      rw [loggedTurn, hturn]
      exact hexit
    have hfile' : (loggedTurn c s t).loop.receiver.file = s.loop.receiver.file := by
      rw [loggedTurn, hturn]
      exact hfile
    rw [← hexpected] at hd'
    rw [loggedTurn, receiveTurn_flushing hexit' hfirst hd', doFlushingState_file, hfile']
  have hstored' : StoredTruncated (loggedTurn c s t).loop.receiver.rbuf.buffer :=
    receiveTurn_storedTruncated hstored
  intro hrecovers
  obtain ⟨ws, hws, ⟨ds, hrun, hbytes⟩, -⟩ := hrecovers hfirst
  rw [hsecond, List.append_cancel_left_eq] at hws
  rw [← hws] at hbytes
  rcases flushBuffer_storedTruncated hstored' with ⟨hnone, -⟩ | hnone
  · rw [hnone] at hbytes
    exact hrun.payloads_ne_nil (Option.some.inj hbytes).symm
  · rw [hnone] at hbytes
    cases hbytes

theorem recovers_iff (hexit : s.loop.exit = none) (hsub : s.loop.subState = .buffering)
    (hstored : StoredTruncated s.loop.receiver.rbuf.buffer)
    (hd : BringsData c s.loop.receiver.rbuf.expected t d)
    (hd' : BringsData c s.loop.receiver.rbuf.expected t' d') :
    Recovers c s t t' ↔
      ∀ i < 10, (t.attempts i).brings c (toU32 s.loop.receiver.rbuf.expected) = false := by
  constructor
  · intro hrecovers
    by_contra hbrings
    exact not_recovers_of_brings hexit hsub hstored hd hd' hbrings hrecovers
  · intro hnone hflushing
    have hwaits := (doBufferState_flushing_iff c s.loop.receiver (t.received c d)
      t.attempts).not_left.mpr hnone
    rw [loggedTurn, receiveTurn_buffering hexit hsub hd] at hflushing
    exact absurd hflushing hwaits

theorem logged_storedTruncated (c : Client) (raw : ReceiverBuffer) (turns : List Turn) :
    Runs.Always (loggedTurn c) (fun s => StoredTruncated s.loop.receiver.rbuf.buffer)
      (enterLogged c raw) turns := by
  apply Runs.always_of_step
  · exact fun s t h => receiveTurn_storedTruncated h
  · exact initReceiverBuffer_storedTruncated _ _ _

end Recovery

/-- From every reachable state of the buffering sub-state a gap is recovered exactly
when the missing packet does not arrive. -/
theorem gap_recovery_iff (c : Client) (raw : ReceiverBuffer) (turns : List Turn) :
    Runs.Always (loggedTurn c)
      (fun s => s.loop.exit = none → s.loop.subState = .buffering →
        ∀ t t' d d', BringsData c s.loop.receiver.rbuf.expected t d →
          BringsData c s.loop.receiver.rbuf.expected t' d' →
          (Recovers c s t t' ↔
            ∀ i < 10, (t.attempts i).brings c (toU32 s.loop.receiver.rbuf.expected) = false))
      (enterLogged c raw) turns := by
  have halways := logged_storedTruncated c raw turns
  exact halways.mono fun s hstored hexit hsub t t' d d' hd hd' =>
    recovers_iff hexit hsub hstored hd hd'

theorem bringsData_promptTurn :
    BringsData ⟨3, 2, 1⟩ 0 (promptTurn 1) [0, 0, 0, 1, 0, 0, 16, 1] :=
  ⟨by decide, rfl, ⟨1, 0, [1], by decide, by decide, by decide⟩, by decide, by decide⟩

theorem gap_recovery_unanswered :
    Recovers ⟨3, 2, 1⟩ (Runs.exec (loggedTurn ⟨3, 2, 1⟩) (enterLogged ⟨3, 2, 1⟩ freshBuffer)
      [promptTurn 1]) (promptTurn 1) (promptTurn 1) :=
  ((gap_recovery_iff ⟨3, 2, 1⟩ freshBuffer [promptTurn 1]).last (by decide +kernel)
    (by decide +kernel) _ _ _ _ bringsData_promptTurn bringsData_promptTurn).mpr
      (by decide +kernel)

theorem bringsData_answeredTurn :
    BringsData ⟨3, 2, 1⟩ 0 answeredTurn [0, 0, 0, 1, 0, 0, 16, 66] :=
  ⟨by decide, rfl, ⟨1, 0, [66], by decide, by decide, by decide⟩, by decide, by decide⟩

/-- The wait for packet 0 ends with packet 0, and the flush leaves nothing that can be
read in the file. -/
theorem gap_not_recovered :
    ¬Recovers ⟨3, 2, 1⟩ (Runs.exec (loggedTurn ⟨3, 2, 1⟩) (enterLogged ⟨3, 2, 1⟩ freshBuffer)
      [answeredTurn]) answeredTurn answeredTurn :=
  not_recovers_of_brings (by decide +kernel) (by decide +kernel)
    (logged_storedTruncated ⟨3, 2, 1⟩ freshBuffer [answeredTurn]).last bringsData_answeredTurn
    bringsData_answeredTurn (by decide +kernel)

end Rcopy
