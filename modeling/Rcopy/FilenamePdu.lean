import Rcopy.ControlPdu

/-!
# The filename request

The argument checks of rcopy, its filename PDU, and the decoding in the receive
loop of the server's `main`. The PDU has 113 bytes; rcopy sends 114 from a static
array of 113, so the last byte of the datagram is whatever follows the array.

The sizes narrow on the way: an `int` buffer size becomes a `uint16_t` on the
wire, an `int` window size becomes a `uint32_t` and then a `uint16_t` in `main`,
and a name of 100 characters fills the server's `filename[100]` without a
terminator.
-/

namespace Rcopy

open Bytes

structure CString where
  bytes : List UInt8
  nonzero : 0 ∉ bytes

def isspace (b : UInt8) : Bool := b == 32 || (9 ≤ b && b ≤ 13)
def isdigit (b : UInt8) : Bool := 48 ≤ b && b ≤ 57

/-- `strtol(s, NULL, 10)` with a 64-bit `long`: the result saturates. -/
def strtol (s : List UInt8) : Int :=
  let s := s.dropWhile isspace
  let digits := fun s : List UInt8 =>
    (s.takeWhile isdigit).foldl (fun (v : Int) b => 10 * v + (b.toNat - 48)) 0
  match s with
  | 45 :: s => max (-digits s) (-9223372036854775808)
  | 43 :: s => min (digits s) 9223372036854775807
  | s => min (digits s) 9223372036854775807

/-- `atoi` is `strtol` converted to `int`. -/
def atoi (s : CString) : Int := i32 (strtol s.bytes)

/-- `strncpy` into an array of `n` bytes: cut at `n`, padded with zeros. -/
def strncpy (s : CString) (n : ℕ) : List UInt8 :=
  s.bytes.take n ++ List.replicate (n - s.bytes.length) 0

theorem length_strncpy (s : CString) (n : ℕ) : (strncpy s n).length = n := by
  simp only [strncpy, List.length_append, List.length_take, List.length_replicate]
  omega

def readCString (array : List UInt8) : Option (List UInt8) :=
  if 0 ∈ array then some (array.takeWhile (· ≠ 0)) else none

/-- The arguments of rcopy that the transfer uses; both names are `char[101]`. -/
structure RcopyParams where
  srcFilename : List UInt8
  destFilename : List UInt8
  windowSize : Int
  bufferSize : Int
  remotePort : Int
  srcFilename_length : srcFilename.length = 101
  destFilename_length : destFilename.length = 101

/-- `checkArgs` on the argument vector. `rateRejected` stands for the two
floating-point comparisons on `atof(argv[5])`. -/
def checkArgs (rateRejected : CString → Bool) (argv : List CString) : Option RcopyParams :=
  match argv with
  | [_, src, dest, window, buffer, rate, _, port] =>
    if 100 < src.bytes.length ∨ src.bytes.length = 0 ∨
        100 < dest.bytes.length ∨ dest.bytes.length = 0 then none
    else if atoi window ≤ 0 ∨ atoi buffer ≤ 0 ∨ atoi port ≤ 0 ∨ rateRejected rate then none
    else some
      { srcFilename := strncpy src 100 ++ [0]
        destFilename := strncpy dest 100 ++ [0]
        windowSize := atoi window
        bufferSize := atoi buffer
        remotePort := atoi port
        srcFilename_length := by simp [length_strncpy]
        destFilename_length := by simp [length_strncpy] }
  | _ => none

theorem checkArgs_some {rateRejected : CString → Bool}
    {prog src dest window buffer rate machine port : CString} {params : RcopyParams}
    (h : checkArgs rateRejected [prog, src, dest, window, buffer, rate, machine, port] =
      some params) :
    src.bytes.length ≤ 100 ∧ 0 < params.windowSize ∧ 0 < params.bufferSize ∧
      params.windowSize < 2147483648 ∧ params.bufferSize < 2147483648 ∧
      params.srcFilename = strncpy src 100 ++ [0] := by
  simp only [checkArgs] at h
  split_ifs at h with hnames hvalues
  obtain rfl := Option.some.inj h
  have hw : atoi window < 2147483648 := (i32_range _).2
  have hb : atoi buffer < 2147483648 := (i32_range _).2
  dsimp only
  exact ⟨by omega, by omega, by omega, hw, hb, rfl⟩

def toU16 (x : Int) : UInt16 := UInt16.ofNat (x % 65536).toNat

theorem toU16_toNat (x : Int) : ((toU16 x).toNat : Int) = x % 65536 := by
  simp only [toU16, UInt16.toNat_ofNat']
  omega

def makeFilenamePDUBeforeChecksum (params : RcopyParams) : List UInt8 :=
  let buffer := List.replicate 113 0
  let buffer := memcpy buffer 0 (store32 (ntohl 1))
  let buffer := memcpy buffer 4 (store16 0)
  let buffer := memcpy buffer 6 [8]
  let buffer := memcpy buffer 7 (params.srcFilename.take 100)
  let buffer := memcpy buffer 107 (store16 (htons (toU16 params.bufferSize)))
  memcpy buffer 109 (store32 (htonl (toU32 params.windowSize)))

def calculateFilenameChecksum (buffer : List UInt8) : UInt16 := staticCksum 114 113 buffer

def makeFilenamePDUAfterChecksum (buffer : List UInt8) (calculated_checksum : UInt16) :
    List UInt8 :=
  storeChecksum buffer calculated_checksum

theorem makeFilenamePDUBeforeChecksum_eq (params : RcopyParams) :
    makeFilenamePDUBeforeChecksum params =
      store32 (ntohl 1) ++ [0, 0] ++ (8 :: (params.srcFilename.take 100 ++
        store16 (htons (toU16 params.bufferSize)) ++
        store32 (htonl (toU32 params.windowSize)))) := by
  have hname : (params.srcFilename.take 100).length = 100 := by
    simp [params.srcFilename_length]
  have hhead : memcpy (memcpy (memcpy (List.replicate 113 0) 0 (store32 (ntohl 1))) 4
      (store16 0)) 6 [8] = (store32 (ntohl 1) ++ [0, 0] ++ [8]) ++ List.replicate 100 0 ++
        ([0, 0] ++ [0, 0, 0, 0]) := rfl
  have h₇ := memcpy_middle (store32 (ntohl 1) ++ [0, 0] ++ [8]) (List.replicate 100 0)
    (params.srcFilename.take 100) ([0, 0] ++ [0, 0, 0, 0]) (show _ = 7 from rfl) (by simp [hname])
  have h₁₀₇ := memcpy_middle (store32 (ntohl 1) ++ [0, 0] ++ [8] ++ params.srcFilename.take 100)
    [0, 0] (store16 (htons (toU16 params.bufferSize))) [0, 0, 0, 0]
    (show _ = 107 by simp [hname]) (by simp)
  have h₁₀₉ := memcpy_middle (store32 (ntohl 1) ++ [0, 0] ++ [8] ++ params.srcFilename.take 100 ++
      store16 (htons (toU16 params.bufferSize))) [0, 0, 0, 0]
    (store32 (htonl (toU32 params.windowSize))) [] (show _ = 109 by simp [hname]) (by simp)
  rw [List.append_nil, List.append_nil] at h₁₀₉
  simp only [makeFilenamePDUBeforeChecksum]
  rw [hhead, h₇, ← List.append_assoc, h₁₀₇, h₁₀₉]
  simp

def sealFilename (params : RcopyParams) : List UInt8 :=
  makeFilenamePDUAfterChecksum (makeFilenamePDUBeforeChecksum params)
    (calculateFilenameChecksum (makeFilenamePDUBeforeChecksum params))

theorem unsealed_filename (params : RcopyParams) :
    Unsealed (makeFilenamePDUBeforeChecksum params) 113 := by
  refine ⟨?_, _, _, length_store32 _, makeFilenamePDUBeforeChecksum_eq params⟩
  simp [makeFilenamePDUBeforeChecksum_eq, params.srcFilename_length]

/-- The 114 bytes that `doSendFilenameState` hands to `sendtoErr`. -/
def filenameDatagram (params : RcopyParams) (beyond : UInt8) : List UInt8 :=
  sealFilename params ++ [beyond]

structure Request where
  filename : List UInt8
  hostBufferSize : UInt16
  hostWindowSize : UInt16
deriving DecidableEq

def calculateFilenameChecksumFILENAME (buffer : List UInt8) : UInt16 :=
  staticCksum 114 113 buffer

/-- The fields that `main` reads out of its buffer. `host_window_size` is a `uint16_t`. -/
def requestOf (buffer : List UInt8) : Request where
  filename := (buffer.drop 7).take 100
  hostBufferSize := ntohs (load16 (buffer.drop 107))
  hostWindowSize := (ntohl (load32 (buffer.drop 109))).toUInt16

/-- One received datagram in the loop of the server's `main`: the receive buffer
afterwards, and the request for which `startFSM` is called, if any. -/
def mainTurn (buffer datagram : List UInt8) : List UInt8 × Option Request :=
  let buffer := recvInto buffer 114 datagram
  if calculateFilenameChecksumFILENAME buffer ≠ 0 then (buffer, none)
  else (buffer, some (requestOf buffer))

theorem sealFilename_eq (params : RcopyParams) :
    sealFilename params =
      store32 (ntohl 1) ++
        store16 (calculateFilenameChecksum (makeFilenamePDUBeforeChecksum params)) ++
        (8 :: (params.srcFilename.take 100 ++ store16 (htons (toU16 params.bufferSize)) ++
          store32 (htonl (toU32 params.windowSize)))) := by
  rw [sealFilename, makeFilenamePDUAfterChecksum, storeChecksum]
  nth_rewrite 1 [makeFilenamePDUBeforeChecksum_eq]
  exact memcpy_middle _ _ _ _ (length_store32 _) (by simp)

theorem length_sealFilename (params : RcopyParams) : (sealFilename params).length = 113 :=
  length_storeChecksum (unsealed_filename params) _

theorem recvInto_filenameDatagram (params : RcopyParams) (beyond : UInt8) {buffer : List UInt8}
    (hb : buffer.length = 114) :
    recvInto buffer 114 (filenameDatagram params beyond) = filenameDatagram params beyond := by
  have hl : (filenameDatagram params beyond).length = 114 := by
    simp [filenameDatagram, length_sealFilename]
  rw [recvInto_eq hl.le, List.drop_of_length_le (by omega), List.append_nil]

theorem requestOf_filenameDatagram (params : RcopyParams) (beyond : UInt8) :
    requestOf (filenameDatagram params beyond) =
      { filename := params.srcFilename.take 100
        hostBufferSize := toU16 params.bufferSize
        hostWindowSize := (toU32 params.windowSize).toUInt16 } := by
  have hname : (params.srcFilename.take 100).length = 100 := by
    simp [params.srcFilename_length]
  set pre := store32 (ntohl 1) ++
    store16 (calculateFilenameChecksum (makeFilenamePDUBeforeChecksum params)) ++ [8] with hpre
  have hpre₇ : pre.length = 7 := by simp [hpre]
  have hdata : filenameDatagram params beyond = pre ++ (params.srcFilename.take 100 ++
      (store16 (htons (toU16 params.bufferSize)) ++
        (store32 (htonl (toU32 params.windowSize)) ++ [beyond]))) := by
    simp [filenameDatagram, sealFilename_eq, hpre]
  have h₇ : (filenameDatagram params beyond).drop 7 = params.srcFilename.take 100 ++
      (store16 (htons (toU16 params.bufferSize)) ++
        (store32 (htonl (toU32 params.windowSize)) ++ [beyond])) := by
    rw [hdata, List.drop_left' hpre₇]
  have h₁₀₇ : (filenameDatagram params beyond).drop 107 =
      store16 (htons (toU16 params.bufferSize)) ++
        (store32 (htonl (toU32 params.windowSize)) ++ [beyond]) := by
    rw [show 107 = 7 + 100 from rfl, ← List.drop_drop, h₇, List.drop_left' hname]
  have h₁₀₉ : (filenameDatagram params beyond).drop 109 =
      store32 (htonl (toU32 params.windowSize)) ++ [beyond] := by
    rw [show 109 = 107 + 2 from rfl, ← List.drop_drop, h₁₀₇, List.drop_left' (length_store16 _)]
  rw [requestOf, h₇, h₁₀₇, h₁₀₉, List.take_left' hname, load16_append _ (length_store16 _),
    load32_append _ (length_store32 _), load16_store16, load32_store32, ntohs_htons, ntohl_htonl]

/-- The byte that is sent from behind the PDU does not matter. -/
theorem requestOf_beyond (params : RcopyParams) (beyond : UInt8) :
    requestOf (filenameDatagram params beyond) = requestOf (filenameDatagram params 0) := by
  rw [requestOf_filenameDatagram, requestOf_filenameDatagram]

theorem staticCksum_append {words len : ℕ} {b : List UInt8} (c : List UInt8)
    (hb : b.length = len) : staticCksum words len (b ++ c) = staticCksum words len b := by
  simp only [staticCksum, List.take_left' hb, List.take_of_length_le hb.le]

theorem mainTurn_filenameDatagram (params : RcopyParams) (beyond : UInt8) {buffer : List UInt8}
    (hb : buffer.length = 114) :
    mainTurn buffer (filenameDatagram params beyond) =
      (filenameDatagram params beyond, some (requestOf (filenameDatagram params beyond))) := by
  have hz : calculateFilenameChecksumFILENAME (filenameDatagram params beyond) = 0 := by
    rw [calculateFilenameChecksumFILENAME, filenameDatagram,
      staticCksum_append _ (length_sealFilename params)]
    exact staticCksum_sealed (by omega) (by omega) (unsealed_filename params)
  simp [mainTurn, recvInto_filenameDatagram params beyond hb, hz]

/-! ## The server's view of the parameters -/

theorem readCString_strncpy (s : CString) (hs : s.bytes.length ≤ 100) :
    readCString (strncpy s 100) = some s.bytes ↔ s.bytes.length ≤ 99 := by
  rw [strncpy, List.take_of_length_le hs]
  constructor
  · intro h
    by_contra hlen
    have hz : 100 - s.bytes.length = 0 := by omega
    simp [readCString, hz, s.nonzero] at h
  · intro hlen
    obtain ⟨k, hk⟩ : ∃ k, 100 - s.bytes.length = k + 1 := ⟨99 - s.bytes.length, by omega⟩
    have hall : ∀ b ∈ s.bytes, decide (b ≠ 0) = true := by
      intro b hb
      have hne : b ≠ 0 := fun h => s.nonzero (h ▸ hb)
      simpa using hne
    rw [readCString, hk, List.replicate_succ, if_pos (by simp),
      List.takeWhile_append_of_pos hall]
    simp

theorem hostWindowSize_eq_iff {w : Int} (h₀ : 0 < w) (h₁ : w < 2147483648) :
    ((toU32 w).toUInt16.toNat : Int) = w ↔ w ≤ 65535 := by
  have h := toU32_toNat_of_range (x := w) (by omega) (by omega)
  rw [UInt32.toNat_toUInt16]
  omega

/-- The parameters with which the server starts a session for an accepted set of
arguments are the client's exactly when the name leaves room for a terminator and
both sizes fit in 16 bits. -/
theorem request_agrees_iff (rateRejected : CString → Bool)
    (prog src dest window buffer rate machine port : CString) (params : RcopyParams)
    (h : checkArgs rateRejected [prog, src, dest, window, buffer, rate, machine, port] =
      some params)
    (beyond : UInt8) (mainBuffer : List UInt8) (hb : mainBuffer.length = 114) :
    (∃ request, (mainTurn mainBuffer (filenameDatagram params beyond)).2 = some request ∧
      readCString request.filename = some src.bytes ∧
      (request.hostBufferSize.toNat : Int) = params.bufferSize ∧
      (request.hostWindowSize.toNat : Int) = params.windowSize) ↔
    src.bytes.length ≤ 99 ∧ params.bufferSize ≤ 65535 ∧ params.windowSize ≤ 65535 := by
  obtain ⟨hlen, hw₀, hb₀, hw₁, hb₁, hsrc⟩ := checkArgs_some h
  have hname : params.srcFilename.take 100 = strncpy src 100 := by
    rw [hsrc, List.take_left' (length_strncpy src 100)]
  have hbuf : ((toU16 params.bufferSize).toNat : Int) = params.bufferSize ↔
      params.bufferSize ≤ 65535 := by
    rw [toU16_toNat]
    omega
  rw [mainTurn_filenameDatagram params beyond hb, requestOf_filenameDatagram]
  simp only [Option.some.injEq, exists_eq_left', hname, readCString_strncpy src hlen, hbuf,
    hostWindowSize_eq_iff hw₀ hw₁]

def letterA : CString := ⟨[97], by decide⟩
def digitOne : CString := ⟨[49], by decide⟩
def seventyThousand : CString := ⟨[55, 48, 48, 48, 48], by decide⟩

def paramsOf (window : CString) : RcopyParams where
  srcFilename := strncpy letterA 100 ++ [0]
  destFilename := strncpy letterA 100 ++ [0]
  windowSize := atoi window
  bufferSize := 1
  remotePort := 1
  srcFilename_length := rfl
  destFilename_length := rfl

theorem checkArgs_paramsOf {window : CString} (h : 0 < atoi window) :
    checkArgs (fun _ => false)
      [letterA, letterA, letterA, window, digitOne, digitOne, letterA, digitOne] =
      some (paramsOf window) := by
  have hone : atoi digitOne = 1 := by decide
  simp [checkArgs, paramsOf, hone, h, show letterA.bytes = [97] from rfl]

theorem request_agrees_single :
    (∃ request, (mainTurn (List.replicate 114 0) (filenameDatagram (paramsOf digitOne) 0)).2 =
        some request ∧
      readCString request.filename = some letterA.bytes ∧
      (request.hostBufferSize.toNat : Int) = (paramsOf digitOne).bufferSize ∧
      (request.hostWindowSize.toNat : Int) = (paramsOf digitOne).windowSize) ↔
    letterA.bytes.length ≤ 99 ∧ (paramsOf digitOne).bufferSize ≤ 65535 ∧
      (paramsOf digitOne).windowSize ≤ 65535 :=
  request_agrees_iff (fun _ => false) letterA letterA letterA digitOne digitOne digitOne letterA
    digitOne (paramsOf digitOne) (checkArgs_paramsOf (by decide)) 0 (List.replicate 114 0)
    List.length_replicate

theorem request_window_truncated :
    ¬ ∀ (rateRejected : CString → Bool)
      (prog src dest window buffer rate machine port : CString) (params : RcopyParams),
      checkArgs rateRejected [prog, src, dest, window, buffer, rate, machine, port] =
        some params →
      ∀ (beyond : UInt8) (mainBuffer : List UInt8), mainBuffer.length = 114 →
      ∃ request, (mainTurn mainBuffer (filenameDatagram params beyond)).2 = some request ∧
        readCString request.filename = some src.bytes ∧
        (request.hostBufferSize.toNat : Int) = params.bufferSize ∧
        (request.hostWindowSize.toNat : Int) = params.windowSize := by
  intro h
  obtain ⟨request, hr, -, -, hw⟩ := h (fun _ => false) letterA letterA letterA seventyThousand
    digitOne digitOne letterA digitOne (paramsOf seventyThousand) (checkArgs_paramsOf (by decide))
    0 (List.replicate 114 0) List.length_replicate
  rw [mainTurn_filenameDatagram _ _ List.length_replicate, requestOf_filenameDatagram] at hr
  obtain rfl := Option.some.inj hr
  exact absurd hw (by decide)

/-! ## Sealed PDUs -/

/-- `calculate` accepts `pdu` and rejects it after a change of any one byte. -/
def DetectsOneByte (calculate : List UInt8 → UInt16) (pdu : List UInt8) : Prop :=
  calculate pdu = 0 ∧
    ∀ (i : ℕ) (hi : i < pdu.length) (v : UInt8), v ≠ pdu[i] → calculate (pdu.set i v) ≠ 0

theorem detectsOneByte_sealed {words len : ℕ} (hw : len < words) (hlen : len ≤ 65000)
    {buffer : List UInt8} (h : Unsealed buffer len) :
    DetectsOneByte (staticCksum words len)
      (storeChecksum buffer (staticCksum words len buffer)) := by
  have hz := staticCksum_sealed hw hlen h
  exact ⟨hz, fun i hi v hv =>
    staticCksum_set_ne_zero hw (by omega) (length_storeChecksum h _) hz hi hv⟩

/-- Every sealed filename, handshake, RR and SREJ PDU verifies in both programs,
and none verifies after a change of one byte, the checksum bytes included. -/
theorem sealedPdus_verify_and_detect :
    (∀ params : RcopyParams, (sealFilename params).length = 113 ∧
      DetectsOneByte calculateFilenameChecksum (sealFilename params) ∧
      DetectsOneByte calculateFilenameChecksumFILENAME (sealFilename params) ∧
      ∀ (beyond : UInt8) (mainBuffer : List UInt8), mainBuffer.length = 114 →
        (mainTurn mainBuffer (filenameDatagram params beyond)).2 ≠ none) ∧
    (∀ flag : UInt8, (sealHandshake (makeHandshake flag)).length = 7 ∧
      DetectsOneByte calculateFilenameChecksumACK (sealHandshake (makeHandshake flag))) ∧
    (∀ l n : UInt32, (sealControl (makeRRPacketBeforeChecksum l n)).length = 11 ∧
      DetectsOneByte calculateRR_SREJPacketChecksum
        (sealControl (makeRRPacketBeforeChecksum l n))) ∧
    (∀ l n : UInt32, (sealControl (makeSREJPacketBeforeChecksum l n)).length = 11 ∧
      DetectsOneByte calculateRR_SREJPacketChecksum
        (sealControl (makeSREJPacketBeforeChecksum l n))) := by
  refine ⟨fun params => ⟨length_sealFilename params, ?_, ?_, ?_⟩, fun flag => ⟨rfl, ?_⟩,
    fun l n => ⟨length_sealControl 5 l n, ?_⟩, fun l n => ⟨length_sealControl 6 l n, ?_⟩⟩
  · exact detectsOneByte_sealed (by omega) (by omega) (unsealed_filename params)
  · exact detectsOneByte_sealed (by omega) (by omega) (unsealed_filename params)
  · intro beyond mainBuffer hb
    simp [mainTurn_filenameDatagram params beyond hb]
  · exact detectsOneByte_sealed (by omega) (by omega) (unsealed_handshake flag)
  · exact detectsOneByte_sealed (by omega) (by omega) (unsealed_controlPacket 5 l n)
  · exact detectsOneByte_sealed (by omega) (by omega) (unsealed_controlPacket 6 l n)

end Rcopy
