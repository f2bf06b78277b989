import Rcopy.Lib.Chunks
import Rcopy.Send

/-!
# The file that the sender sends

The payloads of the packets sent for the first time are the chunks of the file,
as long as the chunk length survives the `uint8_t` parameter of
`makeDataPacketBeforeChecksum`. A longer chunk is cut there, and the rest of the
datagram is whatever lies behind the PDU in memory.
-/

namespace Rcopy

open Bytes

def SendData.fresh (s : SendData) : List Transmission := s.sent.filter (·.cause = .fill)

def Transmission.payload (tr : Transmission) : List UInt8 := (tr.bytes.getD []).drop 7

/-- The `k`-th packet sent for the first time is the data PDU of chunk `k`, and at
the end of the file the payloads together are the file. -/
structure CarriesFile (p : Session) (s : SendData) : Prop where
  pdus : ∀ k tr, s.fresh[k]? = some tr → ∃ checksum, tr.bytes =
    some (dataPdu (UInt32.ofNat k) checksum (Chunks.chunk p.file p.bufferSize.toNat k))
  whole : s.phase = .returned .waitOnEofAck → s.fresh.flatMap Transmission.payload = p.file

def FitsByte (p : Session) : Prop :=
  p.bufferSize.toNat ≤ 255 ∨ p.file.length ≤ p.bufferSize.toNat % 256

section Pdu

theorem take_take_append {α : Type*} {l : List α} {n : ℕ} (h : l.length ≤ n) (junk rest : List α) :
    ((l ++ junk).take n ++ rest).take l.length = l := by
  have htake : (l ++ junk).take n = l ++ junk.take (n - l.length) := by
    rw [List.take_append, List.take_of_length_le h]
  rw [htake, List.append_assoc, List.take_left' rfl]

theorem makeDataPacketBeforeChecksum_eq (seq : UInt32) (data_chunk : List UInt8) (n : UInt8)
    (h : n.toNat ≤ data_chunk.length) (heap : ℕ → UInt8) :
    makeDataPacketBeforeChecksum seq data_chunk n heap =
      store32 (htonl seq) ++ [0, 0] ++ (16 :: data_chunk.take n.toNat) := by
  have hlen : (data_chunk.take n.toNat).length = n.toNat := by
    rw [List.length_take]
    omega
  have hzero : store16 0 = [0, 0] := rfl
  have hpre : (store32 (htonl seq) ++ [0, 0]).length = 6 := by simp
  have hpre' : (store32 (htonl seq) ++ [0, 0] ++ [16]).length = 7 := by simp
  simp only [makeDataPacketBeforeChecksum, memcpy_zero, length_store32]
  rw [memcpy_append _ _ (length_store32 _), hzero, ← List.append_assoc, memcpy_append _ _ hpre,
    ← List.append_assoc, memcpy_append _ _ hpre', hlen]
  simp [List.drop_drop]

/-- The PDU that a turn of the fill loop builds: the header, the chunk as far as its
length fits a `uint8_t`, then memory behind the PDU. -/
theorem freshPdu_eq (p : Session) (s : SendData) (t : SendTurn) :
    ∃ checksum, freshPdu p s t = dataPdu s.dataSequenceNumber checksum
      (((getDataChunk s.file p.bufferSize.toNat t.chunkHeap).data.take
          (p.bufferSize.toNat % 256) ++
        uninit t.beyond ((s.file.take p.bufferSize.toNat).length + 7)).take
          (s.file.take p.bufferSize.toNat).length) := by
  have hbyte : p.bufferSize.toUInt8.toNat = p.bufferSize.toNat % 256 := by simp
  have hmod := Nat.mod_le p.bufferSize.toNat 256
  have hlen : (getDataChunk s.file p.bufferSize.toNat t.chunkHeap).data.length =
      p.bufferSize.toNat := by
    simp only [getDataChunk]
    rw [length_memcpy] <;> simp
  have hpdu := makeDataPacketBeforeChecksum_eq s.dataSequenceNumber
    (getDataChunk s.file p.bufferSize.toNat t.chunkHeap).data p.bufferSize.toUInt8 (by omega)
    t.pduHeap
  refine ⟨calculateDataPacketChecksum (makeDataPacketBeforeChecksum s.dataSequenceNumber
    (getDataChunk s.file p.bufferSize.toNat t.chunkHeap).data p.bufferSize.toUInt8 t.pduHeap)
    t.beyond (s.file.take p.bufferSize.toNat).length t.cksumHeap, ?_⟩
  have hread : (getDataChunk s.file p.bufferSize.toNat t.chunkHeap).bytesRead =
      (s.file.take p.bufferSize.toNat).length := rfl
  simp only [freshPdu, hread]
  generalize calculateDataPacketChecksum _ _ _ _ = checksum
  rw [makeDataPacketAfterChecksum, hpdu, storeChecksum, hbyte,
    memcpy_middle _ _ _ _ (length_store32 _) (by simp), readBytes, dataPdu]
  have hheader : (store32 (htonl s.dataSequenceNumber) ++ store16 checksum ++ [16]).length = 7 := by
    simp
  rw [List.append_cons, List.append_assoc _ _ (uninit _ _), List.take_append, hheader,
    List.take_of_length_le (by omega)]
  congr 2

end Pdu

section Runs

variable {p : Session} {w : Int} {s s' : SendData} {t : SendTurn}

theorem freshPdu_of_fits (hfit : (s.file.take p.bufferSize.toNat).length ≤
    p.bufferSize.toNat % 256) :
    ∃ checksum, freshPdu p s t =
      dataPdu s.dataSequenceNumber checksum (s.file.take p.bufferSize.toNat) := by
  obtain ⟨checksum, hpdu⟩ := freshPdu_eq p s t
  have hdata : (getDataChunk s.file p.bufferSize.toNat t.chunkHeap).data =
      s.file.take p.bufferSize.toNat ++ (uninit t.chunkHeap p.bufferSize.toNat).drop
        (s.file.take p.bufferSize.toNat).length := memcpy_zero _ _
  refine ⟨checksum, ?_⟩
  rw [hpdu, hdata, take_take_append hfit]

theorem SendData.fresh_sendFresh (q : Packet) :
    (s.sendFresh p t q).fresh = s.fresh ++
      [{ cause := .fill
         seq := s.dataSequenceNumber.toNat
         src := memcpy q.data 0 (freshPdu p s t)
         len := (s.file.take p.bufferSize.toNat).length + 7
         result := t.sent }] := by
  simp [SendData.fresh, SendData.sendFresh, List.filter_append]

theorem SendData.fresh_resend {cause : Cause} (hcause : cause ≠ .fill) (seq : Int) (q : Packet) :
    (s.resend cause seq q t).fresh = s.fresh := by
  simp [SendData.fresh, SendData.resend, List.filter_append, hcause]

theorem bytes_sendFresh {q : Packet} (hq : (freshPdu p s t).length ≤ q.data.length) :
    Transmission.bytes
      { cause := .fill
        seq := s.dataSequenceNumber.toNat
        src := memcpy q.data 0 (freshPdu p s t)
        len := (s.file.take p.bufferSize.toNat).length + 7
        result := t.sent } = some (freshPdu p s t) := by
  have hlen := length_freshPdu p s t
  have hnat : (((s.file.take p.bufferSize.toNat).length : Int) + 7).toNat =
      (freshPdu p s t).length := by omega
  have hsrc : (memcpy q.data 0 (freshPdu p s t)).length = q.data.length :=
    length_memcpy (by omega)
  simp only [Transmission.bytes, hnat, hsrc]
  rw [if_pos (by omega), memcpy_zero, List.take_left']
  rfl

theorem Sending.room (h : Sending p w s) (t : SendTurn) {i : Int} {q : Packet}
    (hslot : Ring.slot s.window.buffer i = some q) :
    (freshPdu p s t).length ≤ q.data.length := by
  have hread := List.length_take_le p.bufferSize.toNat s.file
  rw [length_freshPdu, h.slots i q hslot, packetStructSize]
  omega

/-- After a packet has been sent first, a filled slot holds it or what it held before. -/
theorem Sending.slot_sendFresh (h : Sending p w s) {q : Packet}
    (hnumber : (s.dataSequenceNumber.toNat : Int) ≤ s.window.windowSize) {i : Int} {q' : Packet}
    (hq' : Ring.slot (s.sendFresh p t q).window.buffer i = some q')
    (hi : i < (s.sendFresh p t q).dataSequenceNumber.toNat) :
    (q'.dataSize = (s.file.take p.bufferSize.toNat).length + 7 ∧
      ∃ junk, q'.data = freshPdu p s t ++ junk) ∨
    (i < s.dataSequenceNumber.toNat ∧ Ring.slot s.window.buffer i = some q') := by
  simp only [SendData.sendFresh] at hq' hi
  rcases Ring.slot_update_eq_some hq' with ⟨-, q₀, -, rfl⟩ | ⟨hindex, hq'⟩
  · have htake : (freshPdu p s t).take
        (((s.file.take p.bufferSize.toNat).length : Int) + 7).toNat = freshPdu p s t := by
      rw [List.take_of_length_le]
      rw [length_freshPdu]
      omega
    refine Or.inl ⟨rfl, q₀.data.drop (freshPdu p s t).length, ?_⟩
    simp only [Packet.fill, htake, memcpy_zero]
  · refine Or.inr ⟨?_, hq'⟩
    -- the slot of the new number is the only one that the bound newly admits
    by_contra hge
    obtain ⟨hi₀, hget⟩ := Ring.slot_eq_some_iff.mp hq'
    have hlt := (List.getElem?_eq_some_iff.mp hget).1
    have hlength := h.window.length
    have hnext : (if t.sent < 0 then s.dataSequenceNumber else s.dataSequenceNumber + 1).toNat ≤
        s.dataSequenceNumber.toNat + 1 := by
      split_ifs
      · omega
      · rw [UInt32.toNat_add, UInt32.toNat_one]
        exact Nat.mod_le _ _
    have hself : i = s.dataSequenceNumber.toNat := by omega
    exact hindex (by rw [← hself]; exact Int.emod_eq_of_lt hi₀ (by omega))

structure Carried (p : Session) (w : Int) (s : SendData) (m : ℕ) : Prop where
  length : s.fresh.length = m
  pdus : ∀ k tr, s.fresh[k]? = some tr → ∃ checksum, tr.bytes =
    some (dataPdu (UInt32.ofNat k) checksum (Chunks.chunk p.file p.bufferSize.toNat k))
  running : s.Running → Sending p w s ∧ s.dataSequenceNumber.toNat = m ∧
    s.file = p.file.drop (m * p.bufferSize.toNat)
  whole : s.phase = .returned .waitOnEofAck → p.file.length ≤ m * p.bufferSize.toNat

theorem FitsByte.length_take_le (hfit : FitsByte p) (m : ℕ) :
    ((p.file.drop m).take p.bufferSize.toNat).length ≤ p.bufferSize.toNat % 256 := by
  rw [List.length_take, List.length_drop]
  rcases hfit with hfit | hfit <;> omega

theorem FitsByte.freshPdu_eq (hfit : FitsByte p) {m : ℕ} (hnum : s.dataSequenceNumber.toNat = m)
    (hfile : s.file = p.file.drop (m * p.bufferSize.toNat)) :
    ∃ checksum, freshPdu p s t =
      dataPdu (UInt32.ofNat m) checksum (Chunks.chunk p.file p.bufferSize.toNat m) := by
  obtain ⟨checksum, hpdu⟩ := freshPdu_of_fits (t := t) (s := s) (p := p) (by
    rw [hfile]
    exact hfit.length_take_le _)
  refine ⟨checksum, ?_⟩
  rw [hpdu, ← hnum, UInt32.ofNat_toNat, Chunks.chunk, hnum, hfile]

theorem Carried.sendFresh {m : ℕ} (hfit : FitsByte p) (h : Carried p w s m) (hrun : s.Running)
    {q : Packet} (hphase : s.phase = .fill) (hlower : s.window.lower = 0)
    (hnumber : (s.dataSequenceNumber.toNat : Int) ≤ s.window.windowSize)
    (hslot : Ring.slot s.window.buffer (s.dataSequenceNumber.toNat % s.window.windowSize) =
      some q) : Carried p w (s.sendFresh p t q) (m + 1) := by
  obtain ⟨hs, hnum, hfile⟩ := h.running hrun
  obtain ⟨checksum, hpdu⟩ := hfit.freshPdu_eq (t := t) hnum hfile
  have hbytes := bytes_sendFresh (hs.room t hslot)
  refine ⟨?_, ?_, ?_, ?_⟩
  · rw [SendData.fresh_sendFresh, List.length_append, h.length, List.length_singleton]
  · intro k tr htr
    rw [SendData.fresh_sendFresh, List.getElem?_append, h.length] at htr
    split_ifs at htr with hk
    · exact h.pdus k tr htr
    · have hkm : k = m := by
        have hlt := (List.getElem?_eq_some_iff.mp htr).1
        rw [List.length_singleton] at hlt
        omega
      rw [hkm, Nat.sub_self, List.getElem?_cons_zero] at htr
      rw [← Option.some.inj htr, hbytes, hpdu, hkm]
      exact ⟨checksum, rfl⟩
  · intro hrun'
    have hsent := SendData.sent_nonneg_of_running hrun'
    obtain ⟨hs', hnext⟩ := hs.sendFresh (q := q) hlower hnumber hphase hsent
    refine ⟨hs', by rw [hnext, hnum], ?_⟩
    simp only [SendData.sendFresh]
    rw [hfile, List.drop_drop, Nat.succ_mul]
  · intro heof
    simp only [SendData.sendFresh] at heof
    split_ifs at heof
    · cases heof
    · rw [hphase] at heof
      cases heof

theorem SendStep.carried {m : ℕ} (hpos : 1 ≤ p.bufferSize.toNat) (hfit : FitsByte p)
    (h : Carried p w s m) (hrun : s.Running) (hstep : SendStep p s t s') :
    ∃ m', Carried p w s' m' := by
  obtain ⟨hs, hnum, hfile⟩ := h.running hrun
  have hkeep := fun hrun' => hstep.sending hs hrun'
  cases hstep with
  | moved phase hmove =>
    refine ⟨m, h.length, h.pdus, fun hrun' => ⟨hkeep hrun', hnum, hfile⟩, ?_⟩
    intro heof
    rcases hmove with ⟨rfl, -⟩ | ⟨rfl, -⟩ | ⟨rfl, -⟩ <;> cases heof
  | eof htake =>
    refine ⟨m, h.length, h.pdus, ?_, ?_⟩
    · intro hrun'
      simp [SendData.Running] at hrun'
    · intro _
      have hlen := congrArg List.length htake
      rw [hfile, List.length_take, List.length_drop, List.length_nil] at hlen
      omega
  | fresh q hphase hlower hnumber _ hslot =>
    exact ⟨m + 1, h.sendFresh hfit hrun hphase hlower hnumber hslot⟩
  | crashed file fault =>
    refine ⟨m, h.length, h.pdus, ?_, ?_⟩
    · intro hrun'
      simp [SendData.Running] at hrun'
    · intro heof
      cases heof
  | slid n window _ _ =>
    exact ⟨m, h.length, h.pdus, fun hrun' => ⟨hkeep hrun', hnum, hfile⟩, h.whole⟩
  | resent cause seq index q _ hcause _ =>
    have hfresh := SendData.fresh_resend (s := s) (t := t) hcause seq q
    refine ⟨m, ?_, ?_, fun hrun' => ⟨hkeep hrun', hnum, hfile⟩, h.whole⟩
    · rw [hfresh, h.length]
    · rw [hfresh]
      exact h.pdus
  | ignored => exact ⟨m, h⟩

theorem enterSendData_carried (heap : ℕ → ℕ → UInt8) (hw : 1 ≤ toI32 p.windowSize) :
    Carried p (toI32 p.windowSize) (enterSendData p heap) 0 := by
  refine ⟨rfl, ?_, fun _ => ⟨enterSendData_sending heap hw, rfl, ?_⟩, ?_⟩
  · intro k tr htr
    simp [SendData.fresh, enterSendData] at htr
  · simp [enterSendData]
  · intro heof
    cases heof

theorem Carried.carriesFile {m : ℕ} (h : Carried p w s m) : CarriesFile p s := by
  refine ⟨h.pdus, ?_⟩
  intro heof
  have hpayloads : s.fresh.flatMap Transmission.payload =
      Chunks.upTo p.file p.bufferSize.toNat m := by
    rw [Chunks.upTo, List.flatMap, List.flatMap]
    congr 1
    refine List.ext_getElem? ?_
    intro k
    rw [List.getElem?_map, List.getElem?_map]
    cases htr : s.fresh[k]? with
    | none =>
      rw [List.getElem?_eq_none_iff, h.length] at htr
      rw [List.getElem?_eq_none (by rw [List.length_range]; exact htr)]
      rfl
    | some tr =>
      have hk : k < m := by
        rw [← h.length]
        exact (List.getElem?_eq_some_iff.mp htr).1
      obtain ⟨checksum, hbytes⟩ := h.pdus k tr htr
      rw [List.getElem?_range hk, Option.map_some, Option.map_some, Transmission.payload, hbytes]
      have hdrop := drop_dataPdu_append (UInt32.ofNat k) checksum
        (Chunks.chunk p.file p.bufferSize.toNat k) []
      rw [List.append_nil, List.append_nil] at hdrop
      rw [Option.getD_some, hdrop]
  rw [hpayloads, Chunks.upTo_eq_self (h.whole heof)]

theorem exec_carried (heap : ℕ → ℕ → UInt8) (turns : List SendTurn) (hw : 1 ≤ toI32 p.windowSize)
    (hpos : 1 ≤ p.bufferSize.toNat) (hfit : FitsByte p) :
    ∃ m, Carried p (toI32 p.windowSize) (Runs.exec (sendTurn p) (enterSendData p heap) turns) m := by
  refine Runs.exec_of_keep (I := fun s => ∃ m, Carried p (toI32 p.windowSize) s m) ?_
    ⟨0, enterSendData_carried heap hw⟩
  rintro s t ⟨m, h⟩
  by_cases hrun : s.Running
  · exact (sendTurn_step (h.running hrun).1 hrun).carried hpos hfit h hrun
  · rw [sendTurn_of_not_running hrun]
    exact ⟨m, h⟩

theorem freshPdu_ne_of_not_fits {x : UInt8} (checksum : UInt16)
    (hx : s.file[p.bufferSize.toNat % 256]? = some x) (hlong : 255 < p.bufferSize.toNat)
    (ht : t.beyond 0 = x + 1) :
    freshPdu p s t ≠
      dataPdu s.dataSequenceNumber checksum (s.file.take p.bufferSize.toNat) := by
  intro heq
  obtain ⟨checksum', hpdu⟩ := freshPdu_eq p s t
  have hlt := (List.getElem?_eq_some_iff.mp hx).1
  have hread : p.bufferSize.toNat % 256 < (s.file.take p.bufferSize.toNat).length := by
    rw [List.length_take]
    omega
  have hdata : ((getDataChunk s.file p.bufferSize.toNat t.chunkHeap).data.take
      (p.bufferSize.toNat % 256)).length = p.bufferSize.toNat % 256 := by
    have hmem : (getDataChunk s.file p.bufferSize.toNat t.chunkHeap).data.length =
        p.bufferSize.toNat := by
      simp only [getDataChunk]
      rw [length_memcpy] <;> simp
    rw [List.length_take, hmem]
    omega
  -- the byte right after the part of the chunk that was copied
  have hbyte := congrArg (fun d => (d.drop 7)[p.bufferSize.toNat % 256]?) (hpdu.symm.trans heq)
  have hdrop := fun c l => drop_dataPdu_append s.dataSequenceNumber c l []
  simp only [List.append_nil] at hdrop
  simp only [hdrop] at hbyte
  rw [List.getElem?_take_of_lt hread, List.getElem?_append_right (by omega), hdata, Nat.sub_self,
    List.getElem?_take_of_lt (by omega), hx, uninit, List.getElem?_map,
    List.getElem?_range (by omega), Option.map_some, ht] at hbyte
  have hnat := congrArg UInt8.toNat (Option.some.inj hbyte)
  have hmax := x.toNat_lt
  rw [UInt8.toNat_add, UInt8.toNat_one] at hnat
  omega

theorem not_carriesFile_of_not_fits {x : UInt8} (hs : Sending p w s) (hphase : s.phase = .fill)
    (hlower : s.window.lower = 0) (hnum : s.dataSequenceNumber = 0) (hfresh : s.fresh = [])
    (hfile : s.file = p.file) (hx : p.file[p.bufferSize.toNat % 256]? = some x)
    (hlong : 255 < p.bufferSize.toNat) (ht : t.beyond 0 = x + 1) :
    ¬CarriesFile p (sendTurn p s t) := by
  intro hcarries
  have hpos := hs.window.window_pos
  have hsize := hs.windowSize
  have hlen := (List.getElem?_eq_some_iff.mp hx).1
  have hopen : canSendMorePackets s.window = true := by
    rw [hs.open_of_lower_zero hlower, hnum, UInt32.toNat_zero]
    omega
  have htake : s.file.take p.bufferSize.toNat ≠ [] := by
    rw [Ne, ← List.length_eq_zero_iff, List.length_take, hfile]
    omega
  obtain ⟨q, hslot, hturn⟩ := sendTurn_fresh (t := t) hs hphase hlower hopen htake
  have hfirst := hcarries.pdus 0
  rw [hturn, SendData.fresh_sendFresh, hfresh] at hfirst
  obtain ⟨checksum, hbytes⟩ := hfirst _ rfl
  rw [bytes_sendFresh (hs.room t hslot)] at hbytes
  have hne := freshPdu_ne_of_not_fits checksum (by rw [hfile]; exact hx) hlong ht
  rw [hnum, hfile] at hne
  refine hne ((Option.some.inj hbytes).trans ?_)
  rw [Chunks.chunk, Nat.zero_mul, List.drop_zero]
  rfl

end Runs

/-- The packets sent for the first time carry the file, in every run and whatever
memory holds, exactly when no chunk is longer than its `uint8_t` length. -/
theorem carriesFile_iff (p : Session) (hw : 1 ≤ toI32 p.windowSize)
    (hpos : 1 ≤ p.bufferSize.toNat) :
    (∀ heap turns, CarriesFile p (Runs.exec (sendTurn p) (enterSendData p heap) turns)) ↔
      FitsByte p := by
  constructor
  · intro hall
    by_contra hfit
    simp only [FitsByte, not_or, not_le] at hfit
    obtain ⟨hlong, hfile⟩ := hfit
    obtain ⟨x, hx⟩ : ∃ x, p.file[p.bufferSize.toNat % 256]? = some x :=
      ⟨_, List.getElem?_eq_getElem hfile⟩
    let t : SendTurn :=
      { chunkHeap := fun _ => 0
        pduHeap := fun _ => 0
        beyond := fun _ => x + 1
        cksumHeap := fun _ => 0
        stack := fun _ => 0
        sent := 0
        poll := 0
        recv := none }
    have hfirst := hall (fun _ _ => 0) [t]
    rw [Runs.exec_cons, Runs.exec_nil] at hfirst
    exact not_carriesFile_of_not_fits (enterSendData_sending (fun _ _ => 0) hw) rfl rfl rfl rfl rfl
      hx hlong rfl hfirst
  · intro hfit heap turns
    obtain ⟨m, h⟩ := exec_carried heap turns hw hpos hfit
    exact h.carriesFile

theorem carriesFile_short :
    CarriesFile shortSession (Runs.exec (sendTurn shortSession)
      (enterSendData shortSession fun _ _ => 0) [quietTurn none]) :=
  (carriesFile_iff shortSession (by decide) (by decide)).mpr (Or.inl (by decide)) (fun _ _ => 0)
    [quietTurn none]

/-- A chunk of 300 bytes, of which 44 are copied into the PDU. -/
def longSession : Session where
  bufferSize := 300
  windowSize := 2
  file := List.replicate 300 1

theorem carriesFile_lost :
    ¬∀ heap turns, CarriesFile longSession (Runs.exec (sendTurn longSession)
      (enterSendData longSession heap) turns) := by
  intro h
  have hfirst := h (fun _ _ => 0) [{ quietTurn none with beyond := fun _ => 2 }]
  rw [Runs.exec_cons, Runs.exec_nil] at hfirst
  refine not_carriesFile_of_not_fits (x := 1) (enterSendData_sending (fun _ _ => 0) (by decide)) rfl
    rfl rfl rfl rfl ?_ (by decide) rfl hfirst
  have hlt : longSession.bufferSize.toNat % 256 < 300 := by decide
  have hfile : longSession.file = List.replicate 300 1 := rfl
  rw [hfile, List.getElem?_replicate, if_pos hlt]

end Rcopy
