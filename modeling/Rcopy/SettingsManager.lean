import Rcopy.FilenamePdu
import Rcopy.Lib.Decimal
import Rcopy.Lib.Runs
import Rcopy.Lib.Tokens
import Rcopy.PacketManager

/-!
# The settings of the error-injecting sends

`SettingsManager` reads two lists from the environment before `main`. A list that is
set takes the place of the flag that a program hands to `sendErr_init`: numbers in
`CPE464_OVERRIDE_ERR_DROP` make a standard event that drops these messages, and a list
without a number from 0 on adds a random event, as the flag does.

A process may call `sendErr_init` at any time and any number of times: a child of the
server calls it again, with the events and the message counter of its parent.
-/

namespace Rcopy

/-- The values of `getenv`, strings without their terminators. -/
structure Env where
  errDrop : Option (List UInt8)
  errFlip : Option (List UInt8)

/-- `strtol` moves `strEnd` behind the token's start. -/
def strtolConverts (token : List UInt8) : Bool :=
  match token.dropWhile isspace with
  | 45 :: s => (s.takeWhile isdigit) ≠ []
  | 43 :: s => (s.takeWhile isdigit) ≠ []
  | s => (s.takeWhile isdigit) ≠ []

/-- The loop of `parser2ListLong` after `n` calls of `strtok_r` at most. -/
def parserLoop : ℕ → List UInt8 → List Int
  | 0, _ => []
  | n + 1, str =>
    match Tokens.next 44 str with
    | none => []
    | some (token, rest) =>
      if strtolConverts token then strtol token :: parserLoop n rest else []

def parser2ListLong (str : List UInt8) : List Int := parserLoop (str.length + 1) str

def parserLong2Uint32 (lLong : List Int) : List UInt32 := (lLong.filter (0 ≤ ·)).map toU32

/-- The entries of `m_EnvData` for the two lists, when `isSet`. -/
structure SettingsManager where
  errDrop : Option (List Int)
  errFlip : Option (List Int)

def loadEnvData (env : Env) : SettingsManager where
  errDrop := env.errDrop.map parser2ListLong
  errFlip := env.errFlip.map parser2ListLong

def PacketManager.addMsgEvent_Standard (m : PacketManager) (e : MsgEvent) : PacketManager :=
  { m with constant := m.constant ++ [e] }

def PacketManager.addMsgEvent_Random (m : PacketManager) (e : MsgEvent) : PacketManager :=
  { m with chance := m.chance ++ [e] }

def SettingsManager.loadEnvData_ErrDrop (s : SettingsManager) (m : PacketManager) : PacketManager :=
  match s.errDrop with
  | none => m
  | some lLong =>
    let lUint32 := parserLong2Uint32 lLong
    if lUint32 = [] then m.addMsgEvent_Random (.errorDrop true [])
    else m.addMsgEvent_Standard (.errorDrop false lUint32)

/-- A list of numbers is not implemented and adds nothing. -/
def SettingsManager.loadEnvData_ErrFlip (s : SettingsManager) (m : PacketManager) : PacketManager :=
  match s.errFlip with
  | none => m
  | some lLong =>
    if parserLong2Uint32 lLong = [] then m.addMsgEvent_Random .errorFlipBits else m

def SettingsManager.setUserMode_ErrDrop (s : SettingsManager) (m : PacketManager)
    (isEnabled : Bool) : PacketManager :=
  if s.errDrop.isSome then m
  else if isEnabled then m.addMsgEvent_Random (.errorDrop true [])
  else m

def SettingsManager.setUserMode_ErrFlip (s : SettingsManager) (m : PacketManager)
    (isEnabled : Bool) : PacketManager :=
  if s.errFlip.isSome then m
  else if isEnabled then m.addMsgEvent_Random .errorFlipBits
  else m

/-- A message, what the kernel got of it and returned, and the result for the caller. -/
structure Message where
  buf : List UInt8
  datagram : Option (List UInt8)
  lenSent : Int
  result : Int

/-- A process that is linked with the library. -/
structure ErrProcess where
  settings : SettingsManager
  manager : PacketManager
  log : List Message
  exited : Bool

inductive ErrCall
  | sendErr_init (drop_flag flip_flag : Bool)
  | sendtoErr (buf : List UInt8) (draws : Draws) (lenSent : Int)

/-- The constructors of the two managers, which run before `main`. -/
def enterErrProcess (env : Env) : ErrProcess :=
  let settings := loadEnvData env
  let manager : PacketManager := { msgNo := 0, constant := [], chance := [] }
  { settings := settings
    manager := settings.loadEnvData_ErrFlip (settings.loadEnvData_ErrDrop manager)
    log := []
    exited := false }

def ErrProcess.sendErr_init (s : ErrProcess) (drop_flag flip_flag : Bool) : ErrProcess :=
  let manager := s.manager.addMsgEvent_Standard (.infoSeqNo [] [])
  let manager := s.settings.setUserMode_ErrDrop manager drop_flag
  { s with manager := s.settings.setUserMode_ErrFlip manager flip_flag }

def ErrProcess.call (s : ErrProcess) (c : ErrCall) : ErrProcess :=
  if s.exited then s
  else
    match c with
    | .sendErr_init drop_flag flip_flag => s.sendErr_init drop_flag flip_flag
    | .sendtoErr buf draws lenSent =>
      match s.manager.sendtoErr buf draws lenSent with
      | none => { s with exited := true }
      | some r =>
        { s with manager := r.manager, log := s.log ++ [⟨buf, r.datagram, lenSent, r.result⟩] }

/-! ## The lists -/

theorem parserLoop_eq {n : ℕ} {str : List UInt8} (hn : str.length < n) :
    parserLoop n str = ((Tokens.tokens 44 str).takeWhile strtolConverts).map strtol := by
  induction n generalizing str with
  | zero => exact absurd hn (Nat.not_lt_zero _)
  | succ n ih =>
    simp only [parserLoop]
    cases hnext : Tokens.next 44 str with
    | none => simp [Tokens.tokens_of_next_eq_none hnext]
    | some pair =>
      obtain ⟨token, rest⟩ := pair
      obtain ⟨htokens, hlen⟩ := Tokens.tokens_of_next_eq_some hnext
      dsimp only
      rw [htokens]
      split_ifs with hconverts
      · rw [List.takeWhile_cons_of_pos hconverts, List.map_cons, ih (by omega)]
      · rw [List.takeWhile_cons_of_neg hconverts, List.map_nil]

/-- The parser reads the numbers of the tokens before the first that is none. -/
theorem parser2ListLong_eq (str : List UInt8) :
    parser2ListLong str = ((Tokens.tokens 44 str).takeWhile strtolConverts).map strtol :=
  parserLoop_eq (Nat.lt_succ_self _)

theorem isdigit_iff (b : UInt8) : isdigit b = true ↔ Decimal.IsDigit b := by
  simp [isdigit, Decimal.IsDigit]

/-- The values of a `long`. -/
def IsLong (z : Int) : Prop := -9223372036854775808 ≤ z ∧ z ≤ 9223372036854775807

theorem takeWhile_digits (n : ℕ) : (Decimal.digits n).takeWhile isdigit = Decimal.digits n := by
  apply List.takeWhile_eq_self_iff.mpr
  intro b hb
  exact (isdigit_iff b).mpr (Decimal.isDigit_of_mem_digits hb)

theorem foldl_digits (n : ℕ) :
    (Decimal.digits n).foldl (fun (v : Int) b => 10 * v + (b.toNat - 48)) 0 = n :=
  Decimal.value_digits n

/-- The first byte of a numeral is a digit or the minus sign, so nothing is skipped. -/
theorem digits_eq_cons (n : ℕ) : ∃ b s, Decimal.digits n = b :: s ∧ Decimal.IsDigit b := by
  cases hs : Decimal.digits n with
  | nil => exact absurd hs (Decimal.digits_ne_nil n)
  | cons b s =>
    refine ⟨b, s, rfl, Decimal.isDigit_of_mem_digits (n := n) ?_⟩
    rw [hs]
    exact List.mem_cons_self

theorem isspace_of_isDigit {b : UInt8} (h : Decimal.IsDigit b) : isspace b = false := by
  obtain ⟨hge, hle⟩ := h
  rw [UInt8.le_iff_toNat_le] at hge hle
  rw [isspace, Bool.or_eq_false_iff]
  constructor
  · apply beq_false_of_ne
    intro heq
    rw [heq] at hge
    exact absurd hge (by decide)
  · rw [Bool.and_eq_false_iff]
    right
    apply decide_eq_false
    intro hsmall
    rw [UInt8.le_iff_toNat_le] at hsmall
    exact absurd (le_trans hge hsmall) (by decide)

theorem dropWhile_digits (n : ℕ) : (Decimal.digits n).dropWhile isspace = Decimal.digits n := by
  obtain ⟨b, s, hs, hb⟩ := digits_eq_cons n
  rw [hs, List.dropWhile_cons_of_neg (by simp [isspace_of_isDigit hb])]

theorem head_digits_ne {n : ℕ} {c : UInt8} {s : List UInt8} (hc : ¬Decimal.IsDigit c) :
    Decimal.digits n ≠ c :: s := by
  intro hs
  apply hc
  apply Decimal.isDigit_of_mem_digits (n := n)
  rw [hs]
  exact List.mem_cons_self

theorem strtol_digits {n : ℕ} (hn : (n : Int) ≤ 9223372036854775807) :
    strtol (Decimal.digits n) = n := by
  rw [strtol, dropWhile_digits]
  dsimp only
  split
  · exact absurd ‹_› (head_digits_ne (by decide))
  · exact absurd ‹_› (head_digits_ne (by decide))
  · rw [takeWhile_digits, foldl_digits]
    exact min_eq_left hn

theorem strtol_numeral {z : Int} (hz : IsLong z) : strtol (Decimal.numeral z) = z := by
  obtain ⟨hmin, hmax⟩ := hz
  rw [Decimal.numeral]
  split_ifs with hneg
  · have hminus : strtol (45 :: Decimal.digits z.natAbs) =
        max (-((Decimal.digits z.natAbs).takeWhile isdigit).foldl
          (fun (v : Int) b => 10 * v + (b.toNat - 48)) 0) (-9223372036854775808) := rfl
    rw [hminus, takeWhile_digits, foldl_digits]
    omega
  · rw [strtol_digits (by omega)]
    omega

theorem strtolConverts_numeral (z : Int) : strtolConverts (Decimal.numeral z) = true := by
  rw [Decimal.numeral]
  split_ifs with hneg
  · have hminus : strtolConverts (45 :: Decimal.digits z.natAbs) =
        decide ((Decimal.digits z.natAbs).takeWhile isdigit ≠ []) := rfl
    rw [hminus, takeWhile_digits]
    exact decide_eq_true (Decimal.digits_ne_nil _)
  · rw [strtolConverts, dropWhile_digits]
    split
    · exact absurd ‹_› (head_digits_ne (by decide))
    · exact absurd ‹_› (head_digits_ne (by decide))
    · rw [takeWhile_digits]
      exact decide_eq_true (Decimal.digits_ne_nil _)

/-- Numerals with commas between them. -/
def listString (ns : List Int) : List UInt8 := [44].intercalate (ns.map Decimal.numeral)

/-- A list that is printed with commas between its numbers is read as it was. -/
theorem parser2ListLong_listString (ns : List Int) (h : ∀ n ∈ ns, IsLong n) :
    parser2ListLong (listString ns) = ns := by
  have htokens : Tokens.tokens 44 (listString ns) = ns.map Decimal.numeral := by
    apply Tokens.tokens_intercalate
    intro t ht
    obtain ⟨z, -, rfl⟩ := List.mem_map.mp ht
    refine ⟨Decimal.numeral_ne_nil z, ?_⟩
    intro hcomma
    rcases Decimal.mem_numeral hcomma with heq | hdigit
    · exact absurd heq (by decide)
    · exact absurd hdigit (by decide)
  have hconverts : (ns.map Decimal.numeral).takeWhile strtolConverts = ns.map Decimal.numeral := by
    apply List.takeWhile_eq_self_iff.mpr
    intro t ht
    obtain ⟨z, -, rfl⟩ := List.mem_map.mp ht
    exact strtolConverts_numeral z
  rw [parser2ListLong_eq, htokens, hconverts, List.map_map]
  calc ns.map (strtol ∘ Decimal.numeral) = ns.map id := by
        apply List.map_congr_left
        intro n hn
        exact strtol_numeral (h n hn)
    _ = ns := List.map_id ns

/-- The list ends at the first token that is no number: `3,-1,x,7`. -/
example : parser2ListLong [51, 44, 45, 49, 44, 120, 44, 55] = [3, -1] := by decide

end Rcopy
