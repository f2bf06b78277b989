import Rcopy.ErrorInjection
import Rcopy.MainServer
import Rcopy.ReceiveOutput

/-!
# Transfers with error injection

A request that gets through error injection and is accepted is the one that was made:
the checksum keeps out every inverted byte but the one behind the PDU. And a dropped
message counts as sent, so as long as the kernel takes what it is given, no send of
rcopy fails.
-/

namespace Rcopy

open Bytes

/-- A process has sent `buf` by the library, and `datagram` is what the kernel got. -/
def PassedOn (buf datagram : List UInt8) : Prop :=
  ∃ env calls, ∃ m ∈ (Runs.exec ErrProcess.call (enterErrProcess env) calls).log,
    m.buf = buf ∧ m.datagram = some datagram

theorem PassedOn.eq_or_flip {buf datagram : List UInt8} (h : PassedOn buf datagram) :
    datagram = buf ∨ ∃ i < buf.length, datagram = flipByte buf i := by
  obtain ⟨env, calls, m, hm, rfl, hd⟩ := h
  exact ((exec_injected env calls).accounted m hm).passed datagram hd |>.imp_right And.right

section Requests

variable {params : RcopyParams} {beyond : UInt8} {buffer d : List UInt8}

theorem length_filenameDatagram (params : RcopyParams) (beyond : UInt8) :
    (filenameDatagram params beyond).length = 114 := by
  rw [filenameDatagram, List.length_append, length_sealFilename, List.length_singleton]

theorem flipByte_eq_set {buf : List UInt8} {i : ℕ} (hi : i < buf.length) :
    flipByte buf i = buf.set i (buf[i] ^^^ 255) := by
  rw [flipByte, List.modify_eq_set, List.getElem?_eq_getElem hi]
  rfl

theorem cksum_sealFilename (params : RcopyParams) :
    staticCksum 114 113 (sealFilename params) = 0 :=
  staticCksum_sealed (by omega) (by omega) (unsealed_filename params)

/-- An inverted byte of the PDU spoils the checksum, one behind it changes nothing. -/
theorem mainTurn_flipByte (hb : buffer.length = 114) {i : ℕ} (hi : i < 114) :
    (mainTurn buffer (flipByte (filenameDatagram params beyond) i)).2 = none ∨
      (mainTurn buffer (flipByte (filenameDatagram params beyond) i)).2 =
        some (requestOf (filenameDatagram params beyond)) := by
  have hlen := length_filenameDatagram params beyond
  have hseal := length_sealFilename params
  have hfull : recvInto buffer 114 (flipByte (filenameDatagram params beyond) i) =
      flipByte (filenameDatagram params beyond) i := by
    rw [recvInto_eq (by rw [length_flipByte, hlen]), List.drop_of_length_le
      (by rw [length_flipByte, hlen, hb]), List.append_nil]
  by_cases hlast : i = 113
  · right
    subst hlast
    have hflip : flipByte (filenameDatagram params beyond) 113 =
        filenameDatagram params (beyond ^^^ 255) := by
      rw [flipByte_eq_set (by omega)]
      simp only [filenameDatagram]
      rw [List.set_append_right _ _ hseal.le]
      simp [hseal]
    rw [hflip, mainTurn_filenameDatagram _ _ hb, requestOf_filenameDatagram,
      requestOf_filenameDatagram]
  · left
    have hi' : i < (sealFilename params).length := by omega
    have hflip : flipByte (filenameDatagram params beyond) i =
        (sealFilename params).set i ((sealFilename params)[i] ^^^ 255) ++ [beyond] := by
      rw [flipByte_eq_set (by omega)]
      simp only [filenameDatagram]
      rw [List.set_append_left _ _ hi', List.getElem_append_left hi']
    have hsum : staticCksum 114 113 ((sealFilename params).set i ((sealFilename params)[i] ^^^ 255)) ≠
        0 :=
      staticCksum_set_ne_zero (by omega) (by omega) hseal (cksum_sealFilename params) hi'
        (xor_255_ne (sealFilename params)[i])
    have htake : staticCksum 114 113 (flipByte (filenameDatagram params beyond) i) =
        staticCksum 114 113 ((sealFilename params).set i ((sealFilename params)[i] ^^^ 255)) := by
      apply staticCksum_of_take_eq
      rw [hflip, List.take_append_of_le_length (by rw [List.length_set]; omega)]
    simp only [mainTurn, hfull, calculateFilenameChecksumFILENAME, htake, if_pos hsum]

theorem PassedOn.mainTurn (h : PassedOn (filenameDatagram params beyond) d)
    (hb : buffer.length = 114) :
    (mainTurn buffer d).2 = none ∨
      (mainTurn buffer d).2 = some (requestOf (filenameDatagram params beyond)) := by
  rcases h.eq_or_flip with rfl | ⟨i, hi, rfl⟩
  · right
    rw [mainTurn_filenameDatagram params beyond hb]
  · rw [length_filenameDatagram] at hi
    exact mainTurn_flipByte hb hi

end Requests

/-- The requests that the main server has begun to serve are all made by a client. -/
structure Requested (clients : List RcopyParams) (s : MainServer) : Prop where
  buffer : s.buffer.length = 114
  calls : ∀ call ∈ s.calls, ∃ params ∈ clients, call.2 = requestOf (filenameDatagram params 0)

/-- What the main server receives has been sent as a request by one of the clients. -/
def FromClients (clients : List RcopyParams) (e : MainEvent) : Prop :=
  ∀ d, e = .received d → ∃ params ∈ clients, ∃ beyond, PassedOn (filenameDatagram params beyond) d

section Server

variable {clients : List RcopyParams} {s : MainServer} {e : MainEvent}

theorem length_mainTurn {buffer : List UInt8} (d : List UInt8) (hb : buffer.length = 114) :
    (mainTurn buffer d).1.length = 114 := by
  have hlen : (recvInto buffer 114 d).length = 114 := by
    rw [recvInto, length_memcpy, hb]
    rw [hb, List.length_take]
    omega
  simp only [mainTurn]
  split_ifs <;> exact hlen

theorem Requested.turn (h : Requested clients s) (he : FromClients clients e) :
    Requested clients (mainLoopTurn s e) := by
  simp only [mainLoopTurn]
  split_ifs with hexit
  · exact h
  · cases e with
    | pollFailed => exact ⟨h.buffer, h.calls⟩
    | recvFailed => exact h
    | received d =>
      obtain ⟨params, hparams, beyond, hpassed⟩ := he d rfl
      have hlen := length_mainTurn d h.buffer
      have hrequest := hpassed.mainTurn h.buffer
      dsimp only
      generalize mainTurn s.buffer d = result at hlen hrequest
      obtain ⟨buffer, request⟩ := result
      rcases hrequest with rfl | rfl
      · exact ⟨hlen, h.calls⟩
      · refine ⟨hlen, ?_⟩
        intro call hcall
        rcases List.mem_append.mp hcall with hcall | hcall
        · exact h.calls call hcall
        · rw [List.mem_singleton.mp hcall]
          exact ⟨params, hparams, requestOf_beyond params beyond⟩

end Server

/-- The result of a send that goes through the library, when the kernel takes all the
bytes that it is given. -/
def AcceptedResult (result : Int) : Prop :=
  ∃ env calls, ∃ m ∈ (Runs.exec ErrProcess.call (enterErrProcess env) calls).log,
    m.lenSent = m.buf.length ∧ m.result = result

theorem AcceptedResult.nonneg {result : Int} (h : AcceptedResult result) : 0 ≤ result := by
  obtain ⟨env, calls, m, hm, hkernel, rfl⟩ := h
  rw [((exec_injected env calls).accounted m hm).result]
  split_ifs <;> omega

/-- Over such a kernel rcopy writes no more than one buffer, whatever is dropped. -/
theorem injected_output_one_buffer (c : Client) (raw : ReceiverBuffer) (turns : List Turn)
    (hsent : ∀ t ∈ turns, ∀ i, AcceptedResult (t.attempts i).sent) (b : List UInt8)
    (hb : fileBytes (Runs.exec (receiveTurn c) (enterGetData c raw) turns).receiver.file = some b) :
    b.length ≤ c.bufferSize.toNat := by
  rcases (exec_oneBuffer c raw fun t ht i => (hsent t ht i).nonneg).output hb with rfl | hlen
  · exact Nat.zero_le _
  · exact hlen.le

end Rcopy
