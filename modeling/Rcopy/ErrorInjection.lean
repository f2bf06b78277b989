import Rcopy.SettingsManager

/-!
# What the error injection can do

Whatever the environment and the flags, a message that is sent is dropped, handed to
the kernel as it is, or handed over with one byte inverted. A list of numbers decides
the drops alone: the messages with these numbers are dropped and no others. Without a
list, and with the flags that the server and rcopy use, any choice of messages can be
dropped, and nothing else happens.
-/

namespace Rcopy

/-- The numbers of the messages to drop. -/
def Env.dropNumbers (env : Env) : List UInt32 :=
  parserLong2Uint32 ((env.errDrop.map parser2ListLong).getD [])

/-- The random event that inverts a byte is added before `main` or by one of the calls. -/
def FlipsOn (env : Env) (calls : List ErrCall) : Prop :=
  (∃ str, env.errFlip = some str ∧ parserLong2Uint32 (parser2ListLong str) = []) ∨
  (env.errFlip = none ∧ ∃ drop_flag, .sendErr_init drop_flag true ∈ calls)

/-- The events that the calls made so far can have added; `F` says that bytes are inverted. -/
structure PacketManager.Holds (env : Env) (F : Prop) (m : PacketManager) : Prop where
  constant : ∀ e ∈ m.constant.map MsgEvent.kind,
    e = .errorDrop false env.dropNumbers ∨ e = .infoSeqNo [] []
  chance : ∀ e ∈ m.chance.map MsgEvent.kind,
    (e = .errorDrop true [] ∧ env.dropNumbers = []) ∨ (e = .errorFlipBits ∧ F)

structure Injects (env : Env) (F : Prop) (s : ErrProcess) : Prop where
  settings : s.settings = loadEnvData env
  holds : s.manager.Holds env F
  listed : env.dropNumbers ≠ [] →
    .errorDrop false env.dropNumbers ∈ s.manager.constant.map MsgEvent.kind
  msgNo : s.manager.msgNo = UInt32.ofNat s.log.length

section Settings

variable {env : Env} {F : Prop} {m : PacketManager} {s : ErrProcess}

theorem PacketManager.Holds.addStandard (h : m.Holds env F) {e : MsgEvent}
    (he : e.kind = .errorDrop false env.dropNumbers ∨ e.kind = .infoSeqNo [] []) :
    (m.addMsgEvent_Standard e).Holds env F := by
  constructor
  · intro e' he'
    rw [PacketManager.addMsgEvent_Standard, List.map_append, List.mem_append] at he'
    rcases he' with he' | he'
    · exact h.constant e' he'
    · rw [List.map_singleton, List.mem_singleton] at he'
      rw [he']
      exact he
  · exact h.chance

theorem PacketManager.Holds.addRandom (h : m.Holds env F) {e : MsgEvent}
    (he : (e.kind = .errorDrop true [] ∧ env.dropNumbers = []) ∨ (e.kind = .errorFlipBits ∧ F)) :
    (m.addMsgEvent_Random e).Holds env F := by
  constructor
  · exact h.constant
  · intro e' he'
    rw [PacketManager.addMsgEvent_Random, List.map_append, List.mem_append] at he'
    rcases he' with he' | he'
    · exact h.chance e' he'
    · rw [List.map_singleton, List.mem_singleton] at he'
      rw [he']
      exact he

theorem Env.dropNumbers_of_none (h : env.errDrop = none) : env.dropNumbers = [] := by
  rw [Env.dropNumbers, h]
  rfl

theorem loadEnvData_ErrDrop_holds (h : m.Holds env F) :
    ((loadEnvData env).loadEnvData_ErrDrop m).Holds env F ∧
      (env.dropNumbers ≠ [] → .errorDrop false env.dropNumbers ∈
        ((loadEnvData env).loadEnvData_ErrDrop m).constant.map MsgEvent.kind) ∧
      ((loadEnvData env).loadEnvData_ErrDrop m).msgNo = m.msgNo := by
  cases hdrop : env.errDrop with
  | none =>
    simp only [SettingsManager.loadEnvData_ErrDrop, loadEnvData, hdrop, Option.map_none]
    exact ⟨h, fun hne => absurd (Env.dropNumbers_of_none hdrop) hne, trivial⟩
  | some str =>
    have hnumbers : env.dropNumbers = parserLong2Uint32 (parser2ListLong str) := by
      rw [Env.dropNumbers, hdrop]
      rfl
    simp only [SettingsManager.loadEnvData_ErrDrop, loadEnvData, hdrop, Option.map_some]
    rw [← hnumbers]
    split_ifs with hnil
    · exact ⟨h.addRandom (Or.inl ⟨rfl, hnil⟩), fun hne => absurd hnil hne, rfl⟩
    · refine ⟨h.addStandard (Or.inl rfl), fun _ => ?_, rfl⟩
      simp [PacketManager.addMsgEvent_Standard, MsgEvent.kind]

theorem loadEnvData_ErrFlip_holds (h : m.Holds env F)
    (hF : ∀ str, env.errFlip = some str → parserLong2Uint32 (parser2ListLong str) = [] → F) :
    ((loadEnvData env).loadEnvData_ErrFlip m).Holds env F ∧
      ((loadEnvData env).loadEnvData_ErrFlip m).constant = m.constant ∧
      ((loadEnvData env).loadEnvData_ErrFlip m).msgNo = m.msgNo := by
  cases hflip : env.errFlip with
  | none =>
    simp only [SettingsManager.loadEnvData_ErrFlip, loadEnvData, hflip, Option.map_none]
    exact ⟨h, trivial, trivial⟩
  | some str =>
    simp only [SettingsManager.loadEnvData_ErrFlip, loadEnvData, hflip, Option.map_some]
    split_ifs with hnil
    · exact ⟨h.addRandom (Or.inr ⟨rfl, hF str hflip hnil⟩), rfl, rfl⟩
    · exact ⟨h, rfl, rfl⟩

theorem enterErrProcess_injects
    (hF : ∀ str, env.errFlip = some str → parserLong2Uint32 (parser2ListLong str) = [] → F) :
    Injects env F (enterErrProcess env) := by
  have hempty : PacketManager.Holds env F { msgNo := 0, constant := [], chance := [] } := by
    constructor
    · intro e he
      cases he
    · intro e he
      cases he
  obtain ⟨hdrop, hlisted, hno'⟩ := loadEnvData_ErrDrop_holds hempty
  obtain ⟨hflip, hconstant, hno⟩ := loadEnvData_ErrFlip_holds hdrop hF
  constructor
  · rfl
  · exact hflip
  · simp only [enterErrProcess, hconstant]
    exact hlisted
  · exact hno.trans hno'

theorem setUserMode_ErrDrop_holds (h : m.Holds env F) (isEnabled : Bool) :
    ((loadEnvData env).setUserMode_ErrDrop m isEnabled).Holds env F := by
  simp only [SettingsManager.setUserMode_ErrDrop]
  split_ifs with hset hon
  · exact h
  · refine h.addRandom (Or.inl ⟨rfl, Env.dropNumbers_of_none ?_⟩)
    simpa [loadEnvData] using hset
  · exact h

theorem setUserMode_ErrFlip_holds (h : m.Holds env F) {isEnabled : Bool}
    (hF : env.errFlip = none → isEnabled = true → F) :
    ((loadEnvData env).setUserMode_ErrFlip m isEnabled).Holds env F := by
  simp only [SettingsManager.setUserMode_ErrFlip]
  split_ifs with hset hon
  · exact h
  · refine h.addRandom (Or.inr ⟨rfl, hF ?_ hon⟩)
    simpa [loadEnvData] using hset
  · exact h

/-- Calls of `sendErr_init` add no standard event but `infoSeqNo`. -/
theorem sendErr_init_manager (s : ErrProcess) (drop_flag flip_flag : Bool) :
    (s.sendErr_init drop_flag flip_flag).manager.constant =
        s.manager.constant ++ [.infoSeqNo [] []] ∧
      (s.sendErr_init drop_flag flip_flag).manager.msgNo = s.manager.msgNo := by
  simp only [ErrProcess.sendErr_init, SettingsManager.setUserMode_ErrDrop,
    SettingsManager.setUserMode_ErrFlip]
  split_ifs <;> exact ⟨rfl, rfl⟩

theorem Injects.sendErr_init (h : Injects env F s) (drop_flag flip_flag : Bool)
    (hF : env.errFlip = none → flip_flag = true → F) :
    Injects env F (s.sendErr_init drop_flag flip_flag) := by
  obtain ⟨hconstant, hno⟩ := sendErr_init_manager s drop_flag flip_flag
  constructor
  · exact h.settings
  · simp only [ErrProcess.sendErr_init, h.settings]
    exact setUserMode_ErrFlip_holds
      (setUserMode_ErrDrop_holds (h.holds.addStandard (Or.inr rfl)) drop_flag) hF
  · intro hne
    rw [hconstant, List.map_append]
    exact List.mem_append_left _ (h.listed hne)
  · rw [hno]
    exact h.msgNo

end Settings

section Steps

variable {env : Env} {F : Prop} {s : ErrProcess}

theorem Injects.no_flip (h : Injects env F s) : .errorFlipBits ∉ s.manager.constant := by
  intro hmem
  rcases h.holds.constant _ (errorFlipBits_mem_kinds.mpr hmem) with heq | heq <;> cases heq

/-- The standard events drop exactly the messages of the list. -/
theorem Injects.lists_iff (h : Injects env F s) (n : UInt32) :
    s.manager.Lists n ↔ n ∈ env.dropNumbers := by
  constructor
  · intro hlists
    obtain ⟨dropAll, dropList, hmem, hlist⟩ := hlists
    rcases h.holds.constant _ (errorDrop_mem_kinds.mpr hmem) with heq | heq
    · cases heq
      exact hlist.resolve_left (by decide)
    · cases heq
  · intro hn
    have hmem := h.listed (List.ne_nil_of_mem hn)
    exact ⟨false, _, errorDrop_mem_kinds.mp hmem, Or.inr hn⟩

/-- What has become of a message. -/
structure Message.Accounted (F : Prop) (m : Message) : Prop where
  passed : ∀ datagram, m.datagram = some datagram → datagram = m.buf ∨
    (F ∧ ∃ i < m.buf.length, datagram = flipByte m.buf i)
  result : m.result = if m.datagram = none then (m.buf.length : Int) else m.lenSent

/-- With a list of numbers the messages of the list have been dropped. -/
def ErrProcess.DropsListed (env : Env) (s : ErrProcess) : Prop :=
  env.dropNumbers ≠ [] → ∀ i m, s.log[i]? = some m →
    (m.datagram = none ↔ UInt32.ofNat (i + 1) ∈ env.dropNumbers)

structure Injected (env : Env) (F : Prop) (s : ErrProcess) : Prop where
  injects : Injects env F s
  accounted : ∀ m ∈ s.log, m.Accounted F
  drops : s.DropsListed env

theorem Injects.picks (h : Injects env F s) {d : Draws} {e : MsgEvent}
    (hpick : d.picks s.manager = some e) :
    (e = .errorDrop true [] ∧ env.dropNumbers = []) ∨ (e = .errorFlipBits ∧ F) := by
  have hmem := Draws.mem_of_picks hpick
  have hkind := h.holds.chance e.kind (List.mem_map_of_mem hmem)
  cases e with
  | errorDrop dropAll dropList => exact hkind
  | errorFlipBits => exact hkind
  | infoSeqNo history count => rcases hkind with ⟨heq, -⟩ | ⟨heq, -⟩ <;> cases heq

theorem Injects.sends (h : Injects env F s) {buf : List UInt8} {d : Draws} {lenSent : Int}
    {r : SendtoErr} (hr : r.Sends s.manager buf d lenSent) :
    Message.Accounted F ⟨buf, r.datagram, lenSent, r.result⟩ ∧
      (env.dropNumbers ≠ [] →
        (r.datagram = none ↔ UInt32.ofNat (s.log.length + 1) ∈ env.dropNumbers)) := by
  refine ⟨⟨?_, hr.result⟩, ?_⟩
  · intro datagram hd
    rcases hr.passed datagram hd with hsame | ⟨hpick, hflip⟩
    · exact Or.inl hsame
    · rcases h.picks hpick with ⟨heq, -⟩ | ⟨-, hF⟩
      · cases heq
      · exact Or.inr ⟨hF, hflip⟩
  · intro hne
    have hno : s.manager.msgNo + 1 = UInt32.ofNat (s.log.length + 1) := by
      rw [h.msgNo, UInt32.ofNat_add]
      rfl
    rw [hr.dropped, h.lists_iff, hno]
    constructor
    · intro hdrop
      rcases hdrop with hlist | ⟨dropAll, dropList, hpick, -⟩
      · exact hlist
      · rcases h.picks hpick with ⟨-, hnil⟩ | ⟨heq, -⟩
        · exact absurd hnil hne
        · cases heq
    · exact Or.inl

theorem Injects.sent (h : Injects env F s) {buf : List UInt8} {d : Draws} {lenSent : Int}
    {r : SendtoErr} (hr : r.Sends s.manager buf d lenSent) :
    Injects env F
      { s with manager := r.manager, log := s.log ++ [⟨buf, r.datagram, lenSent, r.result⟩] } := by
  refine ⟨h.settings, ⟨?_, ?_⟩, ?_, ?_⟩ <;> dsimp only
  · rw [hr.constant]
    exact h.holds.constant
  · rw [hr.chance]
    exact h.holds.chance
  · rw [hr.constant]
    exact h.listed
  · rw [hr.msgNo, h.msgNo, List.length_append, List.length_singleton, UInt32.ofNat_add]
    rfl

theorem Injected.call (h : Injected env F s) {c : ErrCall}
    (hF : env.errFlip = none → ∀ drop_flag, c = .sendErr_init drop_flag true → F) :
    Injected env F (s.call c) := by
  simp only [ErrProcess.call]
  split_ifs with hexit
  · exact h
  · cases c with
    | sendErr_init drop_flag flip_flag =>
      refine ⟨h.injects.sendErr_init drop_flag flip_flag ?_, h.accounted, h.drops⟩
      intro hnone hon
      exact hF hnone drop_flag (by rw [hon])
    | sendtoErr buf draws lenSent =>
      dsimp only
      cases hsend : s.manager.sendtoErr buf draws lenSent with
      | none =>
        exact ⟨⟨h.injects.settings, h.injects.holds, h.injects.listed, h.injects.msgNo⟩,
          h.accounted, h.drops⟩
      | some r =>
        have hr := sendtoErr_sends h.injects.no_flip hsend
        obtain ⟨haccounted, hlisted⟩ := h.injects.sends hr
        refine ⟨h.injects.sent hr, ?_, ?_⟩
        · intro m hm
          rcases List.mem_append.mp hm with hm | hm
          · exact h.accounted m hm
          · rw [List.mem_singleton.mp hm]
            exact haccounted
        · intro hne i m hm
          dsimp only at hm
          by_cases hi : i < s.log.length
          · rw [List.getElem?_append_left hi] at hm
            exact h.drops hne i m hm
          · have hlast : i = s.log.length := by
              have hlt := (List.getElem?_eq_some_iff.mp hm).1
              rw [List.length_append, List.length_singleton] at hlt
              omega
            rw [hlast, List.getElem?_concat_length] at hm
            rw [hlast, ← Option.some.inj hm]
            exact hlisted hne

theorem exec_injected (env : Env) (calls : List ErrCall) :
    Injected env (FlipsOn env calls) (Runs.exec ErrProcess.call (enterErrProcess env) calls) := by
  have hstart : Injected env (FlipsOn env calls) (enterErrProcess env) := by
    refine ⟨enterErrProcess_injects ?_, ?_, ?_⟩
    · intro str hstr hnil
      exact Or.inl ⟨str, hstr, hnil⟩
    · intro m hm
      cases hm
    · intro _ i m hm
      cases hm
  refine (Runs.always_of_keep (I := Injected env (FlipsOn env calls)) (C := fun _ c => c ∈ calls)
    ?_ hstart (Runs.everyStep_of_forall (fun c hc => hc) fun _ _ hc => hc)).last
  intro s c hs hc
  apply hs.call
  intro hnone drop_flag hinit
  right
  rw [hinit] at hc
  exact ⟨hnone, drop_flag, hc⟩

end Steps

/-- `drand48()` returns 0. -/
def zeroDrand48 : Drand48 where
  scaled := fun _ => 0
  scaled_lt := fun _ h => h

/-- Numbers that keep a message or drop it. -/
def lossDraws (keep : Bool) : Draws where
  constant := fun _ => zeroDrand48
  withinRate := !keep
  randCase := zeroDrand48
  chance := zeroDrand48

/-- Every message is dropped and reported as sent, or handed to the kernel with at most
one byte inverted, and with none when bytes are not inverted. -/
theorem messages_accounted (env : Env) (calls : List ErrCall) :
    ∀ m ∈ (Runs.exec ErrProcess.call (enterErrProcess env) calls).log,
      m.Accounted (FlipsOn env calls) :=
  (exec_injected env calls).accounted

theorem messages_accounted_one :
    Message.Accounted (FlipsOn ⟨none, none⟩ [.sendErr_init true false,
      .sendtoErr [0, 0, 0, 1, 0, 0, 16] (lossDraws true) 7])
      ⟨[0, 0, 0, 1, 0, 0, 16], some [0, 0, 0, 1, 0, 0, 16], 7, 7⟩ :=
  messages_accounted ⟨none, none⟩ [.sendErr_init true false,
    .sendtoErr [0, 0, 0, 1, 0, 0, 16] (lossDraws true) 7] _ List.mem_cons_self

/-- A list of numbers in the environment decides which messages are dropped, whatever
the flags and the error rate. -/
theorem listed_messages_dropped (ns : List Int) (errFlip : Option (List UInt8))
    (calls : List ErrCall) (hlong : ∀ n ∈ ns, IsLong n) (hns : ∃ n ∈ ns, 0 ≤ n) (i : ℕ)
    (m : Message)
    (hm : (Runs.exec ErrProcess.call (enterErrProcess ⟨some (listString ns), errFlip⟩)
      calls).log[i]? = some m) :
    m.datagram = none ↔ ∃ n ∈ ns, 0 ≤ n ∧ toU32 n = UInt32.ofNat (i + 1) := by
  have hnumbers : Env.dropNumbers ⟨some (listString ns), errFlip⟩ =
      (ns.filter (0 ≤ ·)).map toU32 := by
    rw [Env.dropNumbers, Option.map_some, Option.getD_some, parser2ListLong_listString ns hlong,
      parserLong2Uint32]
  have hne : Env.dropNumbers ⟨some (listString ns), errFlip⟩ ≠ [] := by
    obtain ⟨n, hn, hpos⟩ := hns
    rw [hnumbers]
    exact List.ne_nil_of_mem (List.mem_map_of_mem (List.mem_filter.mpr ⟨hn, decide_eq_true hpos⟩))
  rw [(exec_injected _ calls).drops hne i m hm, hnumbers, List.mem_map]
  constructor
  · intro h
    obtain ⟨n, hn, heq⟩ := h
    obtain ⟨hmem, hpos⟩ := List.mem_filter.mp hn
    exact ⟨n, hmem, of_decide_eq_true hpos, heq⟩
  · intro h
    obtain ⟨n, hmem, hpos, heq⟩ := h
    exact ⟨n, List.mem_filter.mpr ⟨hmem, decide_eq_true hpos⟩, heq⟩

theorem listed_messages_dropped_second :
    (none : Option (List UInt8)) = none ↔
      ∃ n ∈ ([2, -5] : List Int), 0 ≤ n ∧ toU32 n = UInt32.ofNat (1 + 1) :=
  listed_messages_dropped [2, -5] none [.sendErr_init true false,
    .sendtoErr [0, 0, 0, 1, 0, 0, 16] (lossDraws false) 7,
    .sendtoErr [0, 0, 0, 2, 0, 0, 16] (lossDraws true) 7]
    (by
      intro n hn
      rcases List.mem_pair.mp hn with rfl | rfl <;> exact ⟨by decide, by decide⟩)
    ⟨2, List.mem_cons_self, by decide⟩ 1 ⟨[0, 0, 0, 2, 0, 0, 16], none, 7, 7⟩ rfl

/-! ## Losses -/

/-- A message to send, whether it is to be kept, and what `sendto` returns for it. -/
structure LossySend where
  buf : List UInt8
  keep : Bool
  lenSent : Int
  nonempty : buf ≠ []

def LossySend.call (x : LossySend) : ErrCall := .sendtoErr x.buf (lossDraws x.keep) x.lenSent

def LossySend.message (x : LossySend) : Message where
  buf := x.buf
  datagram := if x.keep then some x.buf else none
  lenSent := x.lenSent
  result := if x.keep then x.lenSent else x.buf.length

/-- The only random events are those that drop a message. -/
structure Lossy (s : ErrProcess) : Prop where
  injects : Injects ⟨none, none⟩ False s
  chance : s.manager.chance ≠ []
  running : s.exited = false

section Losses

variable {s : ErrProcess}

theorem Lossy.picks (h : Lossy s) (keep : Bool) :
    (lossDraws keep).picks s.manager = if keep then none else some (.errorDrop true []) := by
  cases keep with
  | true => rfl
  | false =>
    cases hchance : s.manager.chance with
    | nil => exact absurd hchance h.chance
    | cons e events =>
      have hpick : (lossDraws false).picks s.manager = some e := by
        simp only [Draws.picks, lossDraws, zeroDrand48, hchance]
        rfl
      rcases h.injects.picks hpick with ⟨heq, -⟩ | ⟨-, hF⟩
      · rw [hpick, heq]
        rfl
      · exact absurd hF id

theorem Lossy.send (h : Lossy s) (x : LossySend) :
    (s.call x.call).log = s.log ++ [x.message] ∧ Lossy (s.call x.call) := by
  have hrun : ¬s.exited = true := by
    rw [h.running]
    decide
  simp only [ErrProcess.call, if_neg hrun, LossySend.call]
  cases hsend : s.manager.sendtoErr x.buf (lossDraws x.keep) x.lenSent with
  | none => exact absurd (sendtoErr_eq_none_iff.mp hsend) x.nonempty
  | some r =>
    have hr := sendtoErr_sends h.injects.no_flip hsend
    have hpicks := h.picks x.keep
    have hunlisted : ¬s.manager.Lists (s.manager.msgNo + 1) := by
      rw [h.injects.lists_iff]
      exact List.not_mem_nil
    have hdatagram : r.datagram = if x.keep then some x.buf else none := by
      have hdropped := hr.dropped
      rw [hpicks] at hdropped
      cases hkeep : x.keep with
      | true =>
        rw [hkeep] at hdropped hpicks
        cases hd : r.datagram with
        | none =>
          rcases hdropped.mp hd with hlist | ⟨_, _, heq, -⟩
          · exact absurd hlist hunlisted
          · cases heq
        | some datagram =>
          rcases hr.passed datagram hd with hsame | ⟨hpick, -⟩
          · rw [hsame]
            rfl
          · rw [hkeep, hpicks] at hpick
            cases hpick
      | false =>
        rw [hkeep] at hdropped
        exact hdropped.mpr (Or.inr ⟨true, [], rfl, Or.inl rfl⟩)
    constructor
    · dsimp only
      rw [hr.result, hdatagram]
      cases hkeep : x.keep <;> simp [LossySend.message, hkeep]
    · refine ⟨h.injects.sent hr, ?_, h.running⟩
      have hchance := congrArg List.length hr.chance
      rw [List.length_map, List.length_map] at hchance
      have hpos := List.length_pos_iff.mpr h.chance
      exact List.length_pos_iff.mp (by dsimp only; omega)

theorem Lossy.sendErr_init (h : Injects ⟨none, none⟩ False s) (hrun : s.exited = false) :
    Lossy (s.call (.sendErr_init true false)) := by
  simp only [ErrProcess.call, hrun, Bool.false_eq_true, if_false]
  refine ⟨h.sendErr_init true false (fun _ hon => by cases hon), ?_, hrun⟩
  simp only [ErrProcess.sendErr_init, h.settings]
  exact List.append_ne_nil_of_right_ne_nil _ (List.cons_ne_nil _ _)

end Losses

end Rcopy
