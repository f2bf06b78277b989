import Rcopy.Lib.Outcome
import Rcopy.Lib.Runs
import Rcopy.Machine
import Mathlib.Data.Finset.Basic
import Mathlib.Order.Bounds.Basic
import Mathlib.Tactic.SplitIfs

/-!
# The poll set

`pollLib.c`: the array that `addToPollSet` grows and `pollCall` hands to `poll`. An
entry without a socket is zero, which is descriptor 0 with no event asked for. So a
hang-up on descriptor 0 is reported there, whatever the set holds.

Descriptors stay below the largest `int` by the size of the set, and `poll` reports
what it is documented to. `pollCall` reads only the `revents` that `poll` has written.
-/

namespace Rcopy

def pollSetSize : Int := 10

def pollIn : BitVec 16 := 0x01

/-- `POLLERR`, `POLLHUP` and `POLLNVAL`, which nobody has to ask for. -/
def pollHangUp : BitVec 16 := 0x08 ||| 0x10 ||| 0x20

structure PollFd where
  fd : Int
  events : BitVec 16
deriving DecidableEq

/-- The ways in which a call does not return. -/
inductive PollFault
  | exit
  | outOfBounds
deriving DecidableEq

/-- The globals of `pollLib.c`. -/
structure PollLib where
  pollFileDescriptors : List PollFd
  maxFileDescriptor : Int
  currentPollSetSize : Int
deriving DecidableEq

def setupPollSet : PollLib where
  pollFileDescriptors := List.replicate pollSetSize.toNat ⟨0, 0⟩
  maxFileDescriptor := 0
  currentPollSetSize := pollSetSize

/-- The loop of `growPollSet`, with the number of entries it still has to zero. -/
def zeroEntries (pollFileDescriptors : List PollFd) (i : ℕ) : ℕ → List PollFd
  | 0 => pollFileDescriptors
  | n + 1 => zeroEntries (pollFileDescriptors.set i ⟨0, 0⟩) (i + 1) n

/-- `heap` is the memory that `srealloc` adds. -/
def growPollSet (s : PollLib) (newSetSize : Int) (heap : ℕ → PollFd) : Except PollFault PollLib :=
  if newSetSize ≤ s.currentPollSetSize then .error .exit
  else
    let added := (newSetSize - s.currentPollSetSize).toNat
    .ok { s with
      pollFileDescriptors := zeroEntries (s.pollFileDescriptors ++ (List.range added).map heap)
        s.currentPollSetSize.toNat added
      currentPollSetSize := newSetSize }

def PollLib.store (s : PollLib) (i : Int) (entry : PollFd) : Except PollFault PollLib :=
  if 0 ≤ i ∧ i < s.pollFileDescriptors.length then
    .ok { s with pollFileDescriptors := s.pollFileDescriptors.set i.toNat entry }
  else .error .outOfBounds

def PollLib.raiseMax (s : PollLib) (socketNumber : Int) : PollLib :=
  if s.maxFileDescriptor ≤ i32 (socketNumber + 1) then
    { s with maxFileDescriptor := i32 (socketNumber + 1) }
  else s

def addToPollSet (s : PollLib) (socketNumber : Int) (heap : ℕ → PollFd) :
    Except PollFault PollLib := do
  let s ← (if s.currentPollSetSize ≤ socketNumber then
      growPollSet s (i32 (socketNumber + pollSetSize)) heap
    else .ok s)
  (s.raiseMax socketNumber).store socketNumber ⟨socketNumber, pollIn⟩

def removeFromPollSet (s : PollLib) (socketNumber : Int) : Except PollFault PollLib :=
  s.store socketNumber ⟨0, 0⟩

/-- What `poll` finds on each descriptor. -/
abbrev Conditions := Int → BitVec 16

/-- What `poll` reports for an entry. -/
def PollFd.revents (p : PollFd) (cond : Conditions) : BitVec 16 :=
  if p.fd < 0 then 0 else cond p.fd &&& (p.events ||| pollHangUp)

/-- The loop of `pollCall`, which breaks at the first entry with a positive `revents`. -/
def firstReady : List (BitVec 16) → ℕ → Int
  | [], _ => -1
  | revents :: rest, i => if 0 < revents.toInt then i else firstReady rest (i + 1)

/-- `cond` is what `poll` finds when it returns, and `none` stands for a failed call. -/
def pollCall (s : PollLib) (cond : Option Conditions) : Except PollFault Int :=
  match cond with
  | none => .error .exit
  | some cond =>
    if s.pollFileDescriptors.length < s.maxFileDescriptor then .error .outOfBounds
    else
      let revents := (s.pollFileDescriptors.take s.maxFileDescriptor.toNat).map (·.revents cond)
      if 0 < revents.countP (· ≠ 0) then .ok (firstReady revents 0) else .ok (-1)

/-! ## The set that the array stands for -/

/-- The sockets that have ever been added, and those that are in the set. -/
structure SocketSet where
  added : Finset Int
  members : Finset Int

inductive PollOp
  | add (socketNumber : Int) (heap : ℕ → PollFd)
  | remove (socketNumber : Int)

def PollLib.apply (s : PollLib) : PollOp → Except PollFault PollLib
  | .add socketNumber heap => addToPollSet s socketNumber heap
  | .remove socketNumber => removeFromPollSet s socketNumber

def pollStep (s : Except PollFault PollLib) (op : PollOp) : Except PollFault PollLib :=
  s >>= (·.apply op)

def SocketSet.step (w : SocketSet) : PollOp → SocketSet
  | .add n _ => ⟨insert n w.added, insert n w.members⟩
  | .remove n => ⟨w.added, w.members.erase n⟩

/-- A descriptor that `socket` can return is added, and one that has been added is removed. -/
def SocketSet.Allows (w : SocketSet) : PollOp → Prop
  | .add n _ => 0 ≤ n ∧ n + pollSetSize < 2147483648
  | .remove n => n ∈ w.added

instance decidableAllows (w : SocketSet) (op : PollOp) : Decidable (w.Allows op) :=
  match op with
  | .add n _ => inferInstanceAs (Decidable (0 ≤ n ∧ n + pollSetSize < 2147483648))
  | .remove n => inferInstanceAs (Decidable (n ∈ w.added))

def entryOf (members : Finset Int) (i : ℕ) : PollFd :=
  if (i : Int) ∈ members then ⟨i, pollIn⟩ else ⟨0, 0⟩

/-- The array holds the set `w`. -/
structure Represents (s : PollLib) (w : SocketSet) : Prop where
  size : s.currentPollSetSize = s.pollFileDescriptors.length
  entries : ∀ i < s.pollFileDescriptors.length,
    s.pollFileDescriptors[i]? = some (entryOf w.members i)
  max_le : s.maxFileDescriptor ≤ s.pollFileDescriptors.length
  added : ∀ n ∈ w.added, 0 ≤ n ∧ n < s.maxFileDescriptor
  members : w.members ⊆ w.added
  empty : w.added = ∅ → s.maxFileDescriptor = 0

section Arrays

theorem length_zeroEntries (fds : List PollFd) (i n : ℕ) :
    (zeroEntries fds i n).length = fds.length := by
  induction n generalizing fds i with
  | zero => rfl
  | succ n ih => rw [zeroEntries, ih, List.length_set]

theorem getElem?_zeroEntries (fds : List PollFd) (i n k : ℕ) (hk : k < fds.length) :
    (zeroEntries fds i n)[k]? = if i ≤ k ∧ k < i + n then some ⟨0, 0⟩ else fds[k]? := by
  induction n generalizing fds i with
  | zero =>
    rw [zeroEntries, if_neg]
    omega
  | succ n ih =>
    rw [zeroEntries, ih _ _ (by rwa [List.length_set])]
    by_cases hik : i = k
    · subst hik
      rw [if_neg (by omega), if_pos (by omega), List.getElem?_set_self hk]
    · rw [List.getElem?_set_ne hik]
      congr 1
      apply propext
      omega

theorem firstReady_spec (rs : List (BitVec 16)) (i : ℕ) :
    (firstReady rs i = -1 ∧ ∀ r ∈ rs, ¬0 < r.toInt) ∨
      ∃ k r, firstReady rs i = (i + k : ℕ) ∧ rs[k]? = some r ∧ 0 < r.toInt ∧
        ∀ j < k, ∀ r', rs[j]? = some r' → ¬0 < r'.toInt := by
  induction rs generalizing i with
  | nil => exact Or.inl ⟨rfl, by simp⟩
  | cons r rs ih =>
    by_cases hr : 0 < r.toInt
    · right
      refine ⟨0, r, ?_, rfl, hr, ?_⟩
      · rw [firstReady, if_pos hr, Nat.add_zero]
      · intro j hj
        omega
    · rw [firstReady, if_neg hr]
      rcases ih (i + 1) with ⟨hnone, hall⟩ | ⟨k, r', hk, hget, hpos, hbefore⟩
      · left
        refine ⟨hnone, ?_⟩
        rw [List.forall_mem_cons]
        exact ⟨hr, hall⟩
      · right
        refine ⟨k + 1, r', ?_, hget, hpos, ?_⟩
        · rw [hk]
          congr 1
          omega
        · intro j hj r'' hr''
          cases j with
          | zero =>
            obtain rfl := Option.some.inj hr''
            exact hr
          | succ j => exact hbefore j (by omega) r'' hr''

end Arrays

/-! ## What the calls do to the set -/

section Steps

variable {s s' : PollLib} {w : SocketSet} {n : Int} {heap : ℕ → PollFd}

theorem setupPollSet_represents : Represents setupPollSet ⟨∅, ∅⟩ where
  size := rfl
  entries := by
    intro i hi
    exact List.getElem?_replicate_of_lt (by simpa [setupPollSet] using hi)
  max_le := by decide
  added := by simp
  members := by simp
  empty := fun _ => rfl

theorem growPollSet_represents (h : Represents s w) (heap : ℕ → PollFd) {size : Int}
    (hsize : s.currentPollSetSize < size) :
    ∃ s', growPollSet s size heap = .ok s' ∧ Represents s' w ∧
      (s'.pollFileDescriptors.length : Int) = size := by
  have hcurrent := h.size
  have hlength : ((zeroEntries (s.pollFileDescriptors ++
      (List.range (size - s.currentPollSetSize).toNat).map heap) s.currentPollSetSize.toNat
      (size - s.currentPollSetSize).toNat).length : Int) = size := by
    rw [length_zeroEntries, List.length_append, List.length_map, List.length_range]
    omega
  refine ⟨_, if_neg (not_le.mpr hsize), ?_, hlength⟩
  constructor
  · exact hlength.symm
  · intro i hi
    dsimp only at hi ⊢
    rw [getElem?_zeroEntries _ _ _ _ (by rwa [length_zeroEntries] at hi)]
    split_ifs with hnew
    · -- a new entry lies beyond every socket that has been added
      have hmember : (i : Int) ∉ w.members := by
        intro hi
        have hlt := (h.added i (h.members hi)).2
        have hle := h.max_le
        omega
      rw [entryOf, if_neg hmember]
    · rw [List.getElem?_append_left (by omega)]
      exact h.entries i (by omega)
  · have hle := h.max_le
    dsimp only
    omega
  · exact h.added
  · exact h.members
  · exact h.empty

/-- The entry is there once the array has grown. -/
theorem grown_represents (h : Represents s w) (heap : ℕ → PollFd) (hn : n + pollSetSize < 2147483648) (h0 : 0 ≤ n) :
    ∃ s', (if s.currentPollSetSize ≤ n then growPollSet s (i32 (n + pollSetSize)) heap
      else .ok s) = .ok s' ∧ Represents s' w ∧ n < s'.pollFileDescriptors.length := by
  have hi32 : i32 (n + pollSetSize) = n + 10 := i32_of_range (by rw [pollSetSize]; omega) hn
  split_ifs with hgrow
  · obtain ⟨s', hs', hrep, hlength⟩ := growPollSet_represents h heap
      (show s.currentPollSetSize < n + 10 by omega)
    refine ⟨s', ?_, hrep, by omega⟩
    rw [hi32]
    exact hs'
  · refine ⟨s, rfl, h, ?_⟩
    have hsize := h.size
    omega

theorem PollLib.raiseMax_eq (s : PollLib) (h0 : 0 ≤ n) (hn : n + 1 < 2147483648) :
    s.raiseMax n = { s with maxFileDescriptor := max s.maxFileDescriptor (n + 1) } := by
  have hi32 : i32 (n + 1) = n + 1 := i32_of_range (by omega) hn
  rw [PollLib.raiseMax, hi32]
  split_ifs with hle
  · rw [max_eq_right hle]
  · rw [max_eq_left (by omega)]

theorem Represents.add (h : Represents s w) (h0 : 0 ≤ n)
    (hlt : n < s.pollFileDescriptors.length) :
    Represents
      { s with
        pollFileDescriptors := s.pollFileDescriptors.set n.toNat ⟨n, pollIn⟩
        maxFileDescriptor := max s.maxFileDescriptor (n + 1) }
      ⟨insert n w.added, insert n w.members⟩ where
  size := by
    simp only [List.length_set]
    exact h.size
  entries := by
    intro i hi
    simp only [List.length_set] at hi
    dsimp only
    by_cases hin : n.toNat = i
    · subst hin
      have hcast : ((n.toNat : ℕ) : Int) = n := Int.toNat_of_nonneg h0
      rw [List.getElem?_set_self hi, entryOf, hcast, if_pos (Finset.mem_insert_self n _)]
    · have hne : (i : Int) ≠ n := by omega
      rw [List.getElem?_set_ne hin, h.entries i hi, entryOf, entryOf]
      simp only [Finset.mem_insert, hne, false_or]
  max_le := by
    have hle := h.max_le
    simp only [List.length_set]
    omega
  added := by
    intro m hm
    rcases Finset.mem_insert.mp hm with rfl | hm
    · dsimp only
      omega
    · have hold := h.added m hm
      dsimp only
      omega
  members := Finset.insert_subset_insert n h.members
  empty := fun hempty => absurd hempty (Finset.insert_ne_empty n _)

theorem Represents.remove (h : Represents s w) (h0 : 0 ≤ n) :
    Represents { s with pollFileDescriptors := s.pollFileDescriptors.set n.toNat ⟨0, 0⟩ }
      ⟨w.added, w.members.erase n⟩ where
  size := by
    simp only [List.length_set]
    exact h.size
  entries := by
    intro i hi
    simp only [List.length_set] at hi
    dsimp only
    by_cases hin : n.toNat = i
    · subst hin
      have hcast : ((n.toNat : ℕ) : Int) = n := Int.toNat_of_nonneg h0
      rw [List.getElem?_set_self hi, entryOf, hcast, if_neg (Finset.notMem_erase n _)]
    · have hne : (i : Int) ≠ n := by omega
      rw [List.getElem?_set_ne hin, h.entries i hi, entryOf, entryOf]
      simp only [Finset.mem_erase, hne, ne_eq, not_false_eq_true, true_and]
  max_le := by
    simp only [List.length_set]
    exact h.max_le
  added := h.added
  members := (Finset.erase_subset n _).trans h.members
  empty := h.empty

/-- A call that is allowed returns, and does to the set what its name says. -/
theorem Represents.apply (h : Represents s w) {op : PollOp} (hop : w.Allows op) :
    ∃ s', s.apply op = .ok s' ∧ Represents s' (w.step op) := by
  cases op with
  | add n heap =>
    obtain ⟨h0, hn⟩ := hop
    obtain ⟨s₁, hs₁, hrep, hlt⟩ := grown_represents h heap hn h0
    refine ⟨_, ?_, hrep.add h0 hlt⟩
    simp only [PollLib.apply, addToPollSet, hs₁]
    change (s₁.raiseMax n).store n ⟨n, pollIn⟩ = _
    rw [s₁.raiseMax_eq h0 (by rw [pollSetSize] at hn; omega), PollLib.store, if_pos ⟨h0, hlt⟩]
  | remove n =>
    have hn := h.added n hop
    refine ⟨_, ?_, h.remove hn.1⟩
    have hle := h.max_le
    simp only [PollLib.apply, removeFromPollSet, PollLib.store]
    rw [if_pos ⟨hn.1, by omega⟩]

theorem Represents.run {ops : List PollOp} (h : Represents s w)
    (hops : Runs.EveryStep SocketSet.step SocketSet.Allows w ops) :
    ∃ s', Runs.exec pollStep (.ok s) ops = .ok s' ∧
      Represents s' (Runs.exec SocketSet.step w ops) := by
  induction ops generalizing s w with
  | nil => exact ⟨s, rfl, h⟩
  | cons op ops ih =>
    obtain ⟨s₁, hs₁, hrep⟩ := h.apply hops.1
    obtain ⟨s', hs', hrep'⟩ := ih hrep hops.2
    refine ⟨s', ?_, hrep'⟩
    rw [Runs.exec_cons]
    change Runs.exec pollStep (s.apply op) ops = .ok s'
    rw [hs₁]
    exact hs'

end Steps

/-! ## What `pollCall` returns -/

/-- `poll` reports descriptor 0 without having been asked. -/
def HungUp (cond : Conditions) : Prop := cond 0 &&& pollHangUp ≠ 0

instance decidableHungUp (cond : Conditions) : Decidable (HungUp cond) :=
  inferInstanceAs (Decidable (cond 0 &&& pollHangUp ≠ 0))

def Ready (cond : Conditions) (n : Int) : Prop := cond n &&& (pollIn ||| pollHangUp) ≠ 0

/-- The value of `pollCall`: descriptor 0 when that has hung up, else the least socket of
the set that is ready, or -1. -/
def SocketSet.Reports (w : SocketSet) (cond : Conditions) (r : Int) : Prop :=
  if HungUp cond ∧ w.added ≠ ∅ then r = 0
  else (r = -1 ∧ ∀ n ∈ w.members, ¬Ready cond n) ∨ IsLeast {n | n ∈ w.members ∧ Ready cond n} r

instance decidableReady (cond : Conditions) (n : Int) : Decidable (Ready cond n) :=
  inferInstanceAs (Decidable (cond n &&& (pollIn ||| pollHangUp) ≠ 0))

section Calls

variable {s : PollLib} {w : SocketSet} {cond : Conditions} {members : Finset Int}

theorem masked_pos_iff (x m : BitVec 16) (hm : m.toNat < 32768) :
    0 < (x &&& m).toInt ↔ x &&& m ≠ 0 := by
  have hle : (x &&& m).toNat ≤ m.toNat := by
    rw [BitVec.toNat_and]
    exact Nat.and_le_right
  have hzero : (0 : BitVec 16).toNat = 0 := rfl
  rw [BitVec.toInt_eq_toNat_of_lt (by omega), ne_eq, ← BitVec.toNat_inj, hzero]
  omega

theorem entryOf_reported_iff (i : ℕ) :
    0 < ((entryOf members i).revents cond).toInt ↔
      if (i : Int) ∈ members then Ready cond i else HungUp cond := by
  rw [entryOf]
  split_ifs with hi
  · rw [PollFd.revents, if_neg (by simp)]
    exact masked_pos_iff (cond i) (pollIn ||| pollHangUp) (by decide)
  · rw [PollFd.revents, if_neg (by simp)]
    exact masked_pos_iff (cond 0) (0 ||| pollHangUp) (by decide)

theorem HungUp.ready (h : HungUp cond) : Ready cond 0 := by
  rw [HungUp] at h
  rw [Ready]
  intro hzero
  apply h
  have hmask : pollHangUp = (pollIn ||| pollHangUp) &&& pollHangUp := by decide
  rw [hmask, ← BitVec.and_assoc, hzero]
  decide

/-- What `poll` writes into the entries that it is given. -/
def PollLib.reports (s : PollLib) (cond : Conditions) : List (BitVec 16) :=
  (s.pollFileDescriptors.take s.maxFileDescriptor.toNat).map (·.revents cond)

theorem Represents.reports (h : Represents s w) (i : ℕ) :
    (s.reports cond)[i]? =
      if i < s.maxFileDescriptor.toNat then some ((entryOf w.members i).revents cond) else none := by
  have hle := h.max_le
  rw [PollLib.reports, List.getElem?_map, List.getElem?_take]
  split_ifs with hi
  · rw [h.entries i (by omega), Option.map_some]
  · rfl

/-- `poll` returns 0 only when no entry has been reported, so the loop decides alone. -/
theorem Represents.pollCall_eq (h : Represents s w) :
    pollCall s (some cond) = .ok (firstReady (s.reports cond) 0) := by
  rw [pollCall, if_neg (not_lt.mpr h.max_le)]
  change (if 0 < (s.reports cond).countP (· ≠ 0) then _ else _) = _
  split_ifs with hcount
  · rfl
  · rcases firstReady_spec (s.reports cond) 0 with ⟨hnone, -⟩ | ⟨k, r, -, hget, hpos, -⟩
    · rw [hnone]
    · exfalso
      apply hcount
      rw [List.countP_pos_iff]
      refine ⟨r, List.mem_of_getElem? hget, ?_⟩
      rw [decide_eq_true_eq]
      intro hzero
      rw [hzero] at hpos
      exact absurd hpos (by decide)

/-- Before the first entry that is reported none is. -/
theorem Represents.scanned (h : Represents s w) (cond : Conditions) :
    (firstReady (s.reports cond) 0 = -1 ∧ ∀ i < s.maxFileDescriptor.toNat,
        ¬if (i : Int) ∈ w.members then Ready cond i else HungUp cond) ∨
      ∃ k : ℕ, firstReady (s.reports cond) 0 = k ∧ k < s.maxFileDescriptor.toNat ∧
        (if (k : Int) ∈ w.members then Ready cond k else HungUp cond) ∧
        ∀ i < k, ¬if (i : Int) ∈ w.members then Ready cond i else HungUp cond := by
  rcases firstReady_spec (s.reports cond) 0 with ⟨hnone, hall⟩ | ⟨k, r, hk, hget, hpos, hbefore⟩
  · left
    refine ⟨hnone, ?_⟩
    intro i hi
    rw [← entryOf_reported_iff]
    apply hall
    apply List.mem_of_getElem? (i := i)
    rw [h.reports, if_pos hi]
  · right
    rw [h.reports] at hget
    split_ifs at hget with hlt
    obtain rfl := Option.some.inj hget
    refine ⟨k, by rw [hk, Nat.zero_add], hlt, entryOf_reported_iff k |>.mp hpos, ?_⟩
    intro i hi
    rw [← entryOf_reported_iff]
    apply hbefore i hi
    rw [h.reports, if_pos (by omega)]

theorem Represents.reports_hungUp (h : Represents s w) (hhung : HungUp cond)
    (hadded : w.added ≠ ∅) : firstReady (s.reports cond) 0 = 0 := by
  obtain ⟨n, hn⟩ := Finset.nonempty_iff_ne_empty.mpr hadded
  have hmax := h.added n hn
  -- descriptor 0 is ready as a socket, and hung up as an empty entry
  have hzero : if ((0 : ℕ) : Int) ∈ w.members then Ready cond (0 : ℕ) else HungUp cond := by
    split_ifs
    · exact hhung.ready
    · exact hhung
  rcases h.scanned cond with ⟨-, hall⟩ | ⟨k, hk, -, -, hbefore⟩
  · exact absurd hzero (hall 0 (by omega))
  · rw [hk]
    by_contra hne
    exact hbefore 0 (by omega) hzero

theorem Represents.pollCall_result (h : Represents s w) (cond : Conditions) :
    ∃ r, pollCall s (some cond) = .ok r ∧ w.Reports cond r := by
  refine ⟨_, h.pollCall_eq, ?_⟩
  rw [SocketSet.Reports]
  split_ifs with hhung
  · exact h.reports_hungUp hhung.1 hhung.2
  have hmember : ∀ i < s.maxFileDescriptor.toNat,
      (if (i : Int) ∈ w.members then Ready cond i else HungUp cond) ↔
        (i : Int) ∈ w.members ∧ Ready cond i := by
    intro i hi
    split_ifs with hi'
    · exact (and_iff_right hi').symm
    · refine iff_of_false (fun h' => hhung ⟨h', ?_⟩) fun h' => hi' h'.1
      intro hempty
      have hmax := h.empty hempty
      omega
  rcases h.scanned cond with ⟨hnone, hall⟩ | ⟨k, hk, hlt, hready, hbefore⟩
  · left
    refine ⟨hnone, ?_⟩
    intro n hn hready
    obtain ⟨h0, hmax⟩ := h.added n (h.members hn)
    obtain ⟨i, rfl⟩ := Int.eq_ofNat_of_zero_le h0
    exact hall i (by omega) ((hmember i (by omega)).mpr ⟨hn, hready⟩)
  · right
    rw [hk]
    constructor
    · exact (hmember k hlt).mp hready
    · intro n hn
      obtain ⟨h0, hmax⟩ := h.added n (h.members hn.1)
      obtain ⟨i, rfl⟩ := Int.eq_ofNat_of_zero_le h0
      by_contra hlt'
      exact hbefore i (by omega) ((hmember i (by omega)).mpr hn)

/-- What `pollCall` returns when the set holds the socket `n` alone. -/
def pollsOne (n : Int) (cond : Conditions) : Int :=
  if HungUp cond then 0 else if Ready cond n then n else -1

theorem SocketSet.reports_singleton {n r : Int} (h : SocketSet.Reports ⟨{n}, {n}⟩ cond r) :
    r = pollsOne n cond := by
  rw [SocketSet.Reports] at h
  rw [pollsOne]
  by_cases hhung : HungUp cond
  · rw [if_pos hhung]
    rwa [if_pos ⟨hhung, Finset.singleton_ne_empty n⟩] at h
  rw [if_neg hhung]
  rw [if_neg fun hboth => hhung hboth.1] at h
  rcases h with ⟨hnone, hall⟩ | hleast
  · rw [if_neg (hall n (Finset.mem_singleton_self n))]
    exact hnone
  · obtain ⟨hmem, hready⟩ := hleast.1
    obtain rfl := Finset.mem_singleton.mp hmem
    rw [if_pos hready]

theorem Represents.pollCall_one {n : Int} (h : Represents s ⟨{n}, {n}⟩) (cond : Conditions) :
    pollCall s (some cond) = .ok (pollsOne n cond) := by
  obtain ⟨r, hr, hreports⟩ := h.pollCall_result cond
  rw [hr, SocketSet.reports_singleton hreports]

end Calls

/-! ## A process with one socket -/

def addSocket (heap : ℕ → PollFd) (pollSet : Except PollFault PollLib) (socketNumber : Int) :
    Except PollFault PollLib :=
  pollSet >>= (addToPollSet · socketNumber heap)

/-- The poll set holds the socket `n` and has held no other. -/
def PollsOnly (n : Int) (pollSet : Except PollFault PollLib) : Prop :=
  ∃ s, pollSet = .ok s ∧ Represents s ⟨{n}, {n}⟩

section OneSocket

variable {n : Int} {heap : ℕ → PollFd} {pollSet : Except PollFault PollLib}

theorem addSocket_represents {s : PollLib} {w : SocketSet} (h : Represents s w) (heap : ℕ → PollFd)
    (h0 : 0 ≤ n)
    (hn : n + pollSetSize < 2147483648) :
    ∃ s', addSocket heap (.ok s) n = .ok s' ∧ Represents s' ⟨insert n w.added, insert n w.members⟩ := by
  have hop : w.Allows (.add n heap) := ⟨h0, hn⟩
  rw [addSocket, Outcome.ok_bind]
  exact h.apply hop

theorem pollsOnly_setup (heap : ℕ → PollFd) (h0 : 0 ≤ n) (hn : n + pollSetSize < 2147483648) :
    PollsOnly n (addSocket heap (.ok setupPollSet) n) :=
  addSocket_represents setupPollSet_represents heap h0 hn

theorem PollsOnly.addSocket (h : PollsOnly n pollSet) (heap : ℕ → PollFd) (h0 : 0 ≤ n)
    (hn : n + pollSetSize < 2147483648) : PollsOnly n (addSocket heap pollSet n) := by
  obtain ⟨s, rfl, hrep⟩ := h
  obtain ⟨s', hs', hrep'⟩ := addSocket_represents hrep heap h0 hn
  rw [Finset.insert_eq_of_mem (Finset.mem_singleton_self n)] at hrep'
  exact ⟨s', hs', hrep'⟩

theorem PollsOnly.pollCall (h : PollsOnly n pollSet) (cond : Conditions) :
    (pollSet >>= (pollCall · (some cond))) = .ok (pollsOne n cond) := by
  obtain ⟨s, rfl, hrep⟩ := h
  rw [Outcome.ok_bind]
  exact hrep.pollCall_one cond

end OneSocket

/-- After any sequence of calls, whatever `srealloc` returns, no access has been outside
the array, `growPollSet` has not given up, and `pollCall` reports the set. -/
theorem pollCall_reports (ops : List PollOp) (cond : Conditions)
    (hops : Runs.EveryStep SocketSet.step SocketSet.Allows ⟨∅, ∅⟩ ops) :
    ∃ s r, Runs.exec pollStep (.ok setupPollSet) ops = .ok s ∧ pollCall s (some cond) = .ok r ∧
      (Runs.exec SocketSet.step ⟨∅, ∅⟩ ops).Reports cond r := by
  obtain ⟨s, hs, hrep⟩ := setupPollSet_represents.run hops
  obtain ⟨r, hr, hreports⟩ := hrep.pollCall_result cond
  exact ⟨s, r, hs, hr, hreports⟩

theorem pollCall_reports_grown :
    ∃ s r, Runs.exec pollStep (.ok setupPollSet)
        [.add 3 fun _ => ⟨9, 9⟩, .add 25 fun _ => ⟨9, 9⟩, .remove 3] = .ok s ∧
      pollCall s (some fun _ => pollIn) = .ok r ∧
      (Runs.exec SocketSet.step ⟨∅, ∅⟩
        [.add 3 fun _ => ⟨9, 9⟩, .add 25 fun _ => ⟨9, 9⟩, .remove 3]).Reports
          (fun _ => pollIn) r :=
  pollCall_reports [.add 3 fun _ => ⟨9, 9⟩, .add 25 fun _ => ⟨9, 9⟩, .remove 3]
    (fun _ => pollIn) (by decide)

end Rcopy
