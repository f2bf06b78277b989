import Rcopy.Checksum

/-!
# Control and handshake PDUs

The RR and SREJ encoders of rcopy.c, the handshake encoders of both programs,
and the decoding of a control datagram in `doSendDataState`. The server reads
seven bytes of the eleven and takes its number from the first four, where rcopy
puts its own packet counter.
-/

namespace Rcopy

open Bytes

/-- The steps that `makeRRPacketBeforeChecksum` and `makeSREJPacketBeforeChecksum`
share on their static buffer of `CONTROL_BUFF_SIZE` bytes. -/
def makeControlPacket (flag : UInt8) (localSeq number : UInt32) : List UInt8 :=
  let buffer := List.replicate 11 0
  let buffer := memcpy buffer 0 (store32 (htonl localSeq))
  let buffer := memcpy buffer 4 (store16 0)
  let buffer := memcpy buffer 6 [flag]
  memcpy buffer 7 (store32 (htonl number))

def makeRRPacketBeforeChecksum (localSeq rrSequence : UInt32) : List UInt8 :=
  makeControlPacket 5 localSeq rrSequence

def makeSREJPacketBeforeChecksum (localSeq missingPacket : UInt32) : List UInt8 :=
  makeControlPacket 6 localSeq missingPacket

def calculateRR_SREJPacketChecksum (buffer : List UInt8) : UInt16 := staticCksum 12 11 buffer

def makeRR_SREJPacketAfterChecksum (buffer : List UInt8) (calculated_sum : UInt16) : List UInt8 :=
  storeChecksum buffer calculated_sum

def makeHandshake (flag : UInt8) : List UInt8 :=
  let buffer := List.replicate 7 0
  let buffer := memcpy buffer 0 (store32 (ntohl 1))
  let buffer := memcpy buffer 4 (store16 0)
  memcpy buffer 6 [flag]

def makeFilenameACKBeforeChecksum (flag : UInt8) : List UInt8 := makeHandshake flag
def makeVALIDFilenameACKBeforeChecksum : List UInt8 := makeHandshake 9
def makeERRORFilenameACKBeforeChecksum : List UInt8 := makeHandshake 32
def makeTalkHereNowBeforeChecksum : List UInt8 := makeHandshake 33

def calculateFilenameChecksumACK (buffer : List UInt8) : UInt16 := staticCksum 8 7 buffer

def makeFilenameACKAfterChecksum (buffer : List UInt8) (calculated_checksum : UInt16) :
    List UInt8 :=
  storeChecksum buffer calculated_checksum

def sealHandshake (buffer : List UInt8) : List UInt8 :=
  makeFilenameACKAfterChecksum buffer (calculateFilenameChecksumACK buffer)

theorem makeControlPacket_eq (flag : UInt8) (localSeq number : UInt32) :
    makeControlPacket flag localSeq number =
      store32 (htonl localSeq) ++ [0, 0] ++ (flag :: store32 (htonl number)) := rfl

theorem makeHandshake_eq (flag : UInt8) :
    makeHandshake flag = store32 (ntohl 1) ++ [0, 0] ++ [flag] := rfl

theorem unsealed_controlPacket (flag : UInt8) (localSeq number : UInt32) :
    Unsealed (makeControlPacket flag localSeq number) 11 :=
  ⟨rfl, _, _, length_store32 _, makeControlPacket_eq flag localSeq number⟩

theorem unsealed_handshake (flag : UInt8) : Unsealed (makeHandshake flag) 7 :=
  ⟨rfl, _, _, length_store32 _, makeHandshake_eq flag⟩

def sealControl (buffer : List UInt8) : List UInt8 :=
  makeRR_SREJPacketAfterChecksum buffer (calculateRR_SREJPacketChecksum buffer)

theorem sealControl_eq (flag : UInt8) (localSeq number : UInt32) :
    sealControl (makeControlPacket flag localSeq number) =
      store32 (htonl localSeq) ++
        store16 (calculateRR_SREJPacketChecksum (makeControlPacket flag localSeq number)) ++
        (flag :: store32 (htonl number)) := rfl

theorem length_sealControl (flag : UInt8) (localSeq number : UInt32) :
    (sealControl (makeControlPacket flag localSeq number)).length = 11 := by
  simp [sealControl_eq]

def getSequenceFromBuffer (buffer : List UInt8) : UInt32 := seqOf buffer

/-- `recvfrom` into the server's uninitialised `recv_buffer[ACK_BUFF_SIZE]`. -/
def recvControl (stack : ℕ → UInt8) (datagram : List UInt8) : List UInt8 :=
  recvInto (uninit stack 7) 7 datagram

inductive Control
  | rr (receivedSeq : UInt32)
  | srej (receivedSeq : UInt32)
  | other
deriving DecidableEq

def decodeControl (recv_buffer : List UInt8) : Control :=
  if flagOf recv_buffer = 5 then .rr (getSequenceFromBuffer recv_buffer)
  else if flagOf recv_buffer = 6 then .srej (getSequenceFromBuffer recv_buffer)
  else .other

theorem decodeControl_prefix (number : UInt32) (c₁ c₂ flag : UInt8) (rest : List UInt8) :
    decodeControl (store32 (htonl number) ++ (c₁ :: c₂ :: flag :: rest)) =
      if flag = 5 then .rr number else if flag = 6 then .srej number else .other := by
  have hflag : flagOf (store32 (htonl number) ++ (c₁ :: c₂ :: flag :: rest)) = flag := rfl
  rw [decodeControl, getSequenceFromBuffer, hflag, seqOf_store32]

theorem decodeControl_recvControl (stack : ℕ → UInt8) (number : UInt32) (checksum : UInt16)
    (flag : UInt8) (rest : List UInt8) :
    decodeControl (recvControl stack
      (store32 (htonl number) ++ store16 checksum ++ (flag :: rest))) =
      if flag = 5 then .rr number else if flag = 6 then .srej number else .other := by
  have hheader : (store32 (htonl number) ++ store16 checksum).length = 6 := by simp
  have htake : (store32 (htonl number) ++ store16 checksum ++ (flag :: rest)).take 7 =
      store32 (htonl number) ++ (store16 checksum ++ [flag]) := by
    rw [List.take_append, hheader, List.take_of_length_le (by omega)]
    simp
  have hend : (uninit stack 7).drop (store32 (htonl number) ++ (store16 checksum ++ [flag])).length =
      [] := by
    apply List.drop_of_length_le
    simp
  rw [recvControl, recvInto, htake, memcpy_zero, hend, List.append_nil]
  exact decodeControl_prefix number _ _ flag []

/-- The server always takes rcopy's own packet counter for the number. -/
theorem decodeControl_sealed (stack : ℕ → UInt8) (flag : UInt8) (localSeq number : UInt32) :
    decodeControl (recvControl stack (sealControl (makeControlPacket flag localSeq number))) =
      if flag = 5 then .rr localSeq else if flag = 6 then .srej localSeq else .other := by
  rw [sealControl_eq]
  exact decodeControl_recvControl stack localSeq _ flag _

/-- An RR or SREJ reaches the server's handler with its number exactly when that
number equals rcopy's packet counter. -/
theorem controlPdu_recovered_iff (stack : ℕ → UInt8) (l n : UInt32) :
    (decodeControl (recvControl stack (sealControl (makeRRPacketBeforeChecksum l n))) = .rr n ↔
      l = n) ∧
    (decodeControl (recvControl stack (sealControl (makeSREJPacketBeforeChecksum l n))) =
      .srej n ↔ l = n) := by
  rw [makeRRPacketBeforeChecksum, makeSREJPacketBeforeChecksum, decodeControl_sealed,
    decodeControl_sealed]
  simp

theorem controlPdu_first_rr_misread :
    ¬ ∀ (stack : ℕ → UInt8) (l n : UInt32),
      decodeControl (recvControl stack (sealControl (makeRRPacketBeforeChecksum l n))) = .rr n ∧
      decodeControl (recvControl stack (sealControl (makeSREJPacketBeforeChecksum l n))) =
        .srej n := by
  intro h
  exact absurd (h (fun _ => 0) 0 1).1 (by decide)

end Rcopy
