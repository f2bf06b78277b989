import Rcopy.Machine

/-!
# The error-injecting sends

`PacketManager` of libcpe464, through which the server and rcopy send. Every message
runs through the standard events in order, until one of them drops it, and then, if a
random number is within the error rate, through one of the random events.

Numbers are drawn from `drand48`; the comparison with the error rate is left open.
-/

namespace Rcopy

/-- A value of `drand48` as its callers use it: `(int)(n * drand48())`. -/
structure Drand48 where
  scaled : ℕ → ℕ
  scaled_lt : ∀ n, 0 < n → scaled n < n

inductive RunResult
  | unchanged
  | changed
  | dropped
deriving DecidableEq

/-- The result of the events run so far and the one after them. -/
def RunResult.after (first rest : RunResult) : RunResult :=
  if rest = .unchanged then first else rest

inductive MsgEvent
  | errorDrop (dropAll : Bool) (dropList : List UInt32)
  | errorFlipBits
  | infoSeqNo (history : List UInt32) (count : List (UInt32 × UInt32))
deriving DecidableEq

/-- `++m_Count[seqNo]` of a `std::map`. -/
def increment : List (UInt32 × UInt32) → UInt32 → List (UInt32 × UInt32)
  | [], seqNo => [(seqNo, 1)]
  | (n, k) :: count, seqNo =>
    if n = seqNo then (n, k + 1) :: count else (n, k) :: increment count seqNo

def flipByte (buf : List UInt8) (i : ℕ) : List UInt8 := buf.modify i (· ^^^ 255)

structure EventRun where
  event : MsgEvent
  buf : List UInt8
  result : RunResult

def MsgEvent.run (e : MsgEvent) (buf : List UInt8) (msgNo : UInt32) (drand48 : Drand48) :
    EventRun :=
  match e with
  | .errorDrop dropAll dropList =>
    ⟨e, buf, if dropAll ∨ msgNo ∈ dropList then .dropped else .unchanged⟩
  | .errorFlipBits => ⟨e, flipByte buf (drand48.scaled buf.length), .changed⟩
  | .infoSeqNo history count =>
    ⟨.infoSeqNo (history ++ [seqOf buf]) (increment count (seqOf buf)), buf, .unchanged⟩

structure EventsRun where
  events : List MsgEvent
  buf : List UInt8
  result : RunResult

def runMsgEvents : List MsgEvent → (ℕ → Drand48) → List UInt8 → UInt32 → EventsRun
  | [], _, buf, _ => ⟨[], buf, .unchanged⟩
  | e :: events, drand48, buf, msgNo =>
    let first := e.run buf msgNo (drand48 0)
    if first.result = .dropped then ⟨first.event :: events, first.buf, .dropped⟩
    else
      let rest := runMsgEvents events (fun i => drand48 (i + 1)) first.buf msgNo
      ⟨first.event :: rest.events, rest.buf, first.result.after rest.result⟩

structure PacketManager where
  msgNo : UInt32
  constant : List MsgEvent
  chance : List MsgEvent

/-- The numbers drawn for one message; `withinRate` is the result of
`randNum <= m_ErrorRate`. -/
structure Draws where
  constant : ℕ → Drand48
  withinRate : Bool
  randCase : Drand48
  chance : Drand48

structure ProcessedEvents where
  manager : PacketManager
  buf : List UInt8
  result : RunResult

def PacketManager.processEvents (m : PacketManager) (buf : List UInt8) (d : Draws) :
    ProcessedEvents :=
  let first := runMsgEvents m.constant d.constant buf m.msgNo
  let m := { m with constant := first.events }
  let randCase := d.randCase.scaled m.chance.length
  match if d.withinRate then m.chance[randCase]? else none with
  | some e =>
    let second := e.run first.buf m.msgNo d.chance
    { manager := { m with chance := m.chance.set randCase second.event }
      buf := second.buf
      result := if first.result = .dropped then .dropped else second.result }
  | none => ⟨m, first.buf, first.result⟩

structure SendtoErr where
  manager : PacketManager
  datagram : Option (List UInt8)
  result : Int

/-- `sendto_Err`, with the datagram that it hands to `sendto` and what that returns.
A message without bytes makes it call `exit`. -/
def PacketManager.sendtoErr (m : PacketManager) (buf : List UInt8) (d : Draws) (lenSent : Int) :
    Option SendtoErr :=
  if buf = [] then none
  else
    let processed := { m with msgNo := m.msgNo + 1 }.processEvents buf d
    match processed.result with
    | .dropped => some ⟨processed.manager, none, buf.length⟩
    | _ =>
      some ⟨processed.manager, some processed.buf,
        if lenSent = processed.buf.length then buf.length else lenSent⟩

/-! ## What the events do to a message -/

section Events

variable {e : MsgEvent} {events : List MsgEvent} {buf : List UInt8} {msgNo : UInt32}

theorem length_flipByte (buf : List UInt8) (i : ℕ) : (flipByte buf i).length = buf.length := by
  rw [flipByte, List.length_modify]

theorem xor_255_ne (b : UInt8) : b ^^^ 255 ≠ b := by
  intro h
  have hzero : b ^^^ 255 = b ^^^ 0 := by
    rw [h, UInt8.xor_zero]
  rw [UInt8.xor_right_inj] at hzero
  exact absurd hzero (by decide)

/-- Only `errorFlipBits` changes the message, and only in one byte. -/
theorem MsgEvent.run_buf (e : MsgEvent) (hbuf : buf ≠ []) (msgNo : UInt32) (drand48 : Drand48) :
    (e.run buf msgNo drand48).buf = buf ∨
      (e = .errorFlipBits ∧ ∃ i < buf.length, (e.run buf msgNo drand48).buf = flipByte buf i) := by
  cases e with
  | errorDrop dropAll dropList => exact Or.inl rfl
  | errorFlipBits =>
    right
    exact ⟨rfl, _, drand48.scaled_lt _ (List.length_pos_iff.mpr hbuf), rfl⟩
  | infoSeqNo history count => exact Or.inl rfl

theorem MsgEvent.run_dropped_iff (e : MsgEvent) (buf : List UInt8) (msgNo : UInt32)
    (drand48 : Drand48) :
    (e.run buf msgNo drand48).result = .dropped ↔
      ∃ dropAll dropList, e = .errorDrop dropAll dropList ∧ (dropAll = true ∨ msgNo ∈ dropList) := by
  cases e with
  | errorDrop dropAll dropList =>
    simp only [MsgEvent.run, MsgEvent.errorDrop.injEq]
    split_ifs with hdrop
    · exact iff_of_true rfl ⟨dropAll, dropList, ⟨rfl, rfl⟩, hdrop⟩
    · apply iff_of_false (by decide)
      intro h
      obtain ⟨_, _, ⟨rfl, rfl⟩, hlist⟩ := h
      exact hdrop hlist
  | errorFlipBits => simp [MsgEvent.run]
  | infoSeqNo history count => simp [MsgEvent.run]

theorem RunResult.after_eq_dropped_iff {first rest : RunResult} (h : first ≠ .dropped) :
    first.after rest = .dropped ↔ rest = .dropped := by
  rw [RunResult.after]
  split_ifs with hrest
  · exact iff_of_false h (by rw [hrest]; decide)
  · exact Iff.rfl

theorem runMsgEvents_buf (drand48 : ℕ → Drand48) (buf : List UInt8) (msgNo : UInt32)
    (h : MsgEvent.errorFlipBits ∉ events) :
    (runMsgEvents events drand48 buf msgNo).buf = buf := by
  induction events generalizing drand48 with
  | nil => rfl
  | cons e events ih =>
    rw [List.mem_cons, not_or] at h
    have hfirst : (e.run buf msgNo (drand48 0)).buf = buf := by
      cases e with
      | errorDrop dropAll dropList => rfl
      | errorFlipBits => exact absurd rfl h.1
      | infoSeqNo history count => rfl
    simp only [runMsgEvents]
    split_ifs
    · exact hfirst
    · rw [hfirst]
      exact ih _ h.2

/-- The list is gone through until an event drops the message. -/
theorem runMsgEvents_dropped_iff (events : List MsgEvent) (drand48 : ℕ → Drand48) (buf : List UInt8) (msgNo : UInt32) :
    (runMsgEvents events drand48 buf msgNo).result = .dropped ↔
      ∃ dropAll dropList, .errorDrop dropAll dropList ∈ events ∧
        (dropAll = true ∨ msgNo ∈ dropList) := by
  induction events generalizing drand48 buf with
  | nil => simp [runMsgEvents]
  | cons e events ih =>
    have hfirst := e.run_dropped_iff buf msgNo (drand48 0)
    simp only [runMsgEvents]
    split_ifs with hdrop
    · obtain ⟨dropAll, dropList, rfl, hlist⟩ := hfirst.mp hdrop
      exact iff_of_true rfl ⟨dropAll, dropList, List.mem_cons_self, hlist⟩
    · rw [RunResult.after_eq_dropped_iff hdrop, ih]
      constructor
      · intro h
        obtain ⟨dropAll, dropList, hmem, hlist⟩ := h
        exact ⟨dropAll, dropList, List.mem_cons_of_mem _ hmem, hlist⟩
      · intro h
        obtain ⟨dropAll, dropList, hmem, hlist⟩ := h
        rcases List.mem_cons.mp hmem with heq | hmem
        · exact absurd (hfirst.mpr ⟨dropAll, dropList, heq.symm, hlist⟩) hdrop
        · exact ⟨dropAll, dropList, hmem, hlist⟩

/-- The event without what `infoSeqNo` has noted. -/
def MsgEvent.kind : MsgEvent → MsgEvent
  | .infoSeqNo _ _ => .infoSeqNo [] []
  | e => e

theorem MsgEvent.kind_run (e : MsgEvent) (buf : List UInt8) (msgNo : UInt32) (drand48 : Drand48) :
    (e.run buf msgNo drand48).event.kind = e.kind := by
  cases e <;> rfl

theorem map_kind_runMsgEvents (events : List MsgEvent) (drand48 : ℕ → Drand48) (buf : List UInt8) (msgNo : UInt32) :
    (runMsgEvents events drand48 buf msgNo).events.map MsgEvent.kind =
      events.map MsgEvent.kind := by
  induction events generalizing drand48 buf with
  | nil => rfl
  | cons e events ih =>
    have hfirst := e.kind_run buf msgNo (drand48 0)
    simp only [runMsgEvents]
    split_ifs
    · rw [List.map_cons, List.map_cons, hfirst]
    · rw [List.map_cons, List.map_cons, hfirst, ih]

theorem errorFlipBits_mem_kinds :
    .errorFlipBits ∈ events.map MsgEvent.kind ↔ .errorFlipBits ∈ events := by
  rw [List.mem_map]
  constructor
  · intro h
    obtain ⟨e, he, hkind⟩ := h
    cases e with
    | errorDrop dropAll dropList => cases hkind
    | errorFlipBits => exact he
    | infoSeqNo history count => cases hkind
  · intro h
    exact ⟨_, h, rfl⟩

theorem errorDrop_mem_kinds {dropAll : Bool} {dropList : List UInt32} :
    .errorDrop dropAll dropList ∈ events.map MsgEvent.kind ↔
      .errorDrop dropAll dropList ∈ events := by
  rw [List.mem_map]
  constructor
  · intro h
    obtain ⟨e, he, hkind⟩ := h
    cases e with
    | errorDrop dropAll' dropList' =>
      rw [← hkind]
      exact he
    | errorFlipBits => cases hkind
    | infoSeqNo history count => cases hkind
  · intro h
    exact ⟨_, h, rfl⟩

end Events

/-! ## What a message becomes -/

section Messages

variable {m : PacketManager} {buf : List UInt8} {d : Draws} {lenSent : Int} {r : SendtoErr}

/-- The random event that the numbers drawn choose. -/
def Draws.picks (d : Draws) (m : PacketManager) : Option MsgEvent :=
  if d.withinRate then m.chance[d.randCase.scaled m.chance.length]? else none

theorem Draws.mem_of_picks {e : MsgEvent} (h : d.picks m = some e) : e ∈ m.chance := by
  simp only [Draws.picks] at h
  split_ifs at h
  exact List.mem_of_getElem? h

/-- A message with this number is dropped by a standard event. -/
def PacketManager.Lists (m : PacketManager) (msgNo : UInt32) : Prop :=
  ∃ dropAll dropList, .errorDrop dropAll dropList ∈ m.constant ∧
    (dropAll = true ∨ msgNo ∈ dropList)

theorem processEvents_dropped_iff (m : PacketManager) (buf : List UInt8) (d : Draws) :
    (m.processEvents buf d).result = .dropped ↔ m.Lists m.msgNo ∨
      ∃ dropAll dropList, d.picks m = some (.errorDrop dropAll dropList) ∧
        (dropAll = true ∨ m.msgNo ∈ dropList) := by
  have hfirst := runMsgEvents_dropped_iff m.constant d.constant buf m.msgNo
  simp only [PacketManager.processEvents, PacketManager.Lists, Draws.picks]
  cases hpick : (if d.withinRate then m.chance[d.randCase.scaled m.chance.length]? else none) with
  | none => simp [hfirst]
  | some e =>
    have hsecond := e.run_dropped_iff (runMsgEvents m.constant d.constant buf m.msgNo).buf m.msgNo
      d.chance
    dsimp only
    split_ifs with hdrop
    · exact iff_of_true rfl (Or.inl (hfirst.mp hdrop))
    · rw [hsecond, ← hfirst]
      simp [hdrop]

theorem processEvents_buf (hconst : .errorFlipBits ∉ m.constant) (hbuf : buf ≠ []) :
    (m.processEvents buf d).buf = buf ∨
      (d.picks m = some .errorFlipBits ∧
        ∃ i < buf.length, (m.processEvents buf d).buf = flipByte buf i) := by
  have hfirst := runMsgEvents_buf d.constant buf m.msgNo hconst
  simp only [PacketManager.processEvents, Draws.picks]
  cases hpick : (if d.withinRate then m.chance[d.randCase.scaled m.chance.length]? else none) with
  | none => exact Or.inl hfirst
  | some e =>
    dsimp only
    rw [hfirst]
    exact (e.run_buf hbuf m.msgNo d.chance).imp_right fun h => ⟨congrArg some h.1, h.2⟩

theorem processEvents_manager (m : PacketManager) (buf : List UInt8) (d : Draws) :
    (m.processEvents buf d).manager.msgNo = m.msgNo ∧
      (m.processEvents buf d).manager.constant.map MsgEvent.kind = m.constant.map MsgEvent.kind ∧
      (m.processEvents buf d).manager.chance.map MsgEvent.kind = m.chance.map MsgEvent.kind := by
  have hfirst := map_kind_runMsgEvents m.constant d.constant buf m.msgNo
  simp only [PacketManager.processEvents]
  cases hpick : (if d.withinRate then m.chance[d.randCase.scaled m.chance.length]? else none) with
  | none => exact ⟨rfl, hfirst, rfl⟩
  | some e =>
    refine ⟨rfl, hfirst, ?_⟩
    have hget : m.chance[d.randCase.scaled m.chance.length]? = some e := by
      split_ifs at hpick
      exact hpick
    obtain ⟨hlt, hget⟩ := List.getElem?_eq_some_iff.mp hget
    have hlt' : d.randCase.scaled m.chance.length < (m.chance.map MsgEvent.kind).length := by
      rwa [List.length_map]
    have hkind : e.kind = (m.chance.map MsgEvent.kind)[d.randCase.scaled m.chance.length] := by
      rw [List.getElem_map, hget]
    dsimp only
    rw [List.map_set, MsgEvent.kind_run, hkind, List.set_getElem_self]

/-- What a call of `sendto_Err` does with a message. -/
structure SendtoErr.Sends (m : PacketManager) (buf : List UInt8) (d : Draws) (lenSent : Int)
    (r : SendtoErr) : Prop where
  dropped : r.datagram = none ↔ m.Lists (m.msgNo + 1) ∨
    ∃ dropAll dropList, d.picks m = some (.errorDrop dropAll dropList) ∧
      (dropAll = true ∨ m.msgNo + 1 ∈ dropList)
  passed : ∀ datagram, r.datagram = some datagram → datagram = buf ∨
    (d.picks m = some .errorFlipBits ∧ ∃ i < buf.length, datagram = flipByte buf i)
  result : r.result = if r.datagram = none then (buf.length : Int) else lenSent
  msgNo : r.manager.msgNo = m.msgNo + 1
  constant : r.manager.constant.map MsgEvent.kind = m.constant.map MsgEvent.kind
  chance : r.manager.chance.map MsgEvent.kind = m.chance.map MsgEvent.kind

theorem sendtoErr_sends (hconst : .errorFlipBits ∉ m.constant)
    (h : m.sendtoErr buf d lenSent = some r) : r.Sends m buf d lenSent := by
  have hbuf : buf ≠ [] := by
    intro hnil
    rw [PacketManager.sendtoErr, if_pos hnil] at h
    cases h
  rw [PacketManager.sendtoErr, if_neg hbuf] at h
  have hdrop := processEvents_dropped_iff { m with msgNo := m.msgNo + 1 } buf d
  have hpass := processEvents_buf (m := { m with msgNo := m.msgNo + 1 }) (d := d) hconst hbuf
  obtain ⟨hno, hconstant, hchance⟩ :=
    processEvents_manager { m with msgNo := m.msgNo + 1 } buf d
  generalize { m with msgNo := m.msgNo + 1 }.processEvents buf d = processed at *
  have hlen : processed.buf.length = buf.length := by
    rcases hpass with hsame | ⟨-, i, -, hflip⟩
    · rw [hsame]
    · rw [hflip, length_flipByte]
  dsimp only at h
  by_cases hdropped : processed.result = .dropped
  · rw [hdropped] at h
    obtain rfl := Option.some.inj h
    refine ⟨iff_of_true rfl (hdrop.mp hdropped), ?_, rfl, hno, hconstant, hchance⟩
    intro datagram hd
    cases hd
  · have hr : r = ⟨processed.manager, some processed.buf,
        if lenSent = processed.buf.length then buf.length else lenSent⟩ := by
      split at h
      · exact absurd ‹_› hdropped
      · exact (Option.some.inj h).symm
    rw [hr]
    refine ⟨iff_of_false (by simp) fun hlist => hdropped (hdrop.mpr hlist), ?_, ?_, hno, hconstant,
      hchance⟩
    · intro datagram hd
      rw [← Option.some.inj hd]
      exact hpass
    · dsimp only
      rw [if_neg (Option.some_ne_none _), hlen]
      split_ifs with hall
      · exact hall.symm
      · rfl

theorem sendtoErr_eq_none_iff : m.sendtoErr buf d lenSent = none ↔ buf = [] := by
  rw [PacketManager.sendtoErr]
  split_ifs with hbuf
  · exact iff_of_true rfl hbuf
  · apply iff_of_false _ hbuf
    dsimp only
    split <;> simp

end Messages

end Rcopy
