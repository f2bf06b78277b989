import Rcopy.ProcessTree

/-!
# The end of the server

`main` installs `handleZombies` for `SIGCHLD`, and every child inherits it. The handler
collects what has ended, but a signal that is handled while `pollCall` waits ends the
call of `poll` with an error, whatever the flags of the handler, and `pollCall` exits
then. A process that exits so is itself a child of the process that has forked it.
-/

namespace Rcopy

/-- The process tree, with the process that has forked each. -/
structure ServerTree where
  tree : ProcessTree
  parents : List (Option ℕ)

/-- A turn of a process. `waiting` says which processes in the loop of `main` are in
`poll` with nothing to report, when the turn ends the process. -/
structure ServerEvent where
  process : ℕ
  turn : ProcessTurn
  waiting : ℕ → Bool

def Process.ended (p : Process) : Bool :=
  match p.location with
  | .main => p.main.exited
  | .exited => true
  | _ => false

def Process.accepts (p : Process) : Bool :=
  match p.location with
  | .main => !p.main.exited
  | _ => false

def ProcessTree.ended (s : ProcessTree) (i : ℕ) : Bool := s.processes[i]?.any Process.ended

/-- `poll` fails in process `j`, and `pollCall` exits. -/
def ProcessTree.interrupt (s : ProcessTree) (j : ℕ) : ProcessTree :=
  s.step (j, .main .timeout false)

/-- Process `i` has ended and its parent gets `SIGCHLD`, and so on upwards as long as
the signal ends a process. Parents are older, so `i` steps are enough. -/
def sigchld (waiting : ℕ → Bool) (parents : List (Option ℕ)) : ℕ → ProcessTree → ℕ → ProcessTree
  | 0, s, _ => s
  | n + 1, s, i =>
    match parents[i]?.join with
    | none => s
    | some j =>
      if s.processes[j]?.any Process.accepts && waiting j then
        sigchld waiting parents n (s.interrupt j) j
      else s

/-- The turn itself, before any signal. -/
def ServerTree.turned (s : ServerTree) (e : ServerEvent) : ProcessTree :=
  s.tree.step (e.process, e.turn)

def ServerTree.newParents (s : ServerTree) (e : ServerEvent) : List (Option ℕ) :=
  s.parents ++ List.replicate ((s.turned e).processes.length - s.tree.processes.length)
    (some e.process)

def ServerTree.step (s : ServerTree) (e : ServerEvent) : ServerTree where
  tree :=
    if (s.turned e).ended e.process && !s.tree.ended e.process then
      sigchld e.waiting (s.newParents e) e.process (s.turned e) e.process
    else s.turned e
  parents := s.newParents e

def enterServer (stack : ℕ → UInt8) : ServerTree where
  tree := enterTree stack
  parents := [none]

/-- The process is in the loop of `main`, or has ended there. -/
def ProcessTree.InMain (s : ProcessTree) (j : ℕ) : Prop :=
  ∃ p, s.processes[j]? = some p ∧ p.location = .main

/-- The original parent is the oldest process, and what has forked has stayed in the
loop of `main`. -/
structure Lineage (s : ProcessTree) (parents : List (Option ℕ)) : Prop where
  length : parents.length = s.processes.length
  root : parents[0]? = some none
  original : s.InMain 0
  older : ∀ i j : ℕ, parents[i]? = some (some j) → j < i
  parent : ∀ i : ℕ, 0 < i → i < parents.length → ∃ j, parents[i]? = some (some j)
  forks : ∀ i j : ℕ, parents[i]? = some (some j) → s.InMain j

/-- With a process its parent has ended, but for the process `i`. -/
def EndsUpwards (s : ProcessTree) (parents : List (Option ℕ)) (i : Option ℕ) : Prop :=
  ∀ k j : ℕ, parents[k]? = some (some j) → s.ended k → some k = i ∨ s.ended j

section Interrupts

variable {s : ProcessTree} {parents : List (Option ℕ)} {waiting : ℕ → Bool} {i j k n : ℕ}
  {p : Process}

theorem ProcessTree.ended_of_getElem? (h : s.processes[i]? = some p) : s.ended i = p.ended := by
  rw [ProcessTree.ended, h, Option.any_some]

/-- A process in the loop of `main` accepts or has ended. -/
theorem Process.accepts_iff (h : p.location = .main) : p.accepts = true ↔ ¬p.ended = true := by
  simp [Process.accepts, Process.ended, h]

theorem interrupt_processes (hp : s.processes[j]? = some p) (haccepts : p.accepts = true) :
    (s.interrupt j).processes =
      s.processes.set j { p with main := { p.main with exited := true } } := by
  rcases hlocation : p.location with _ | ⟨request, child⟩ | ⟨session, state⟩ | _
  · have hexited : p.main.exited = false := by simpa [Process.accepts, hlocation] using haccepts
    simp [ProcessTree.interrupt, ProcessTree.step, hp, Process.turn, hlocation, Process.acceptTurn,
      Process.stay, mainLoopTurn, hexited]
  all_goals simp [Process.accepts, hlocation] at haccepts

theorem interrupt_getElem? (hp : s.processes[j]? = some p) (haccepts : p.accepts = true) (k : ℕ) :
    (s.interrupt j).processes[k]? =
      if j = k then some { p with main := { p.main with exited := true } }
      else s.processes[k]? := by
  have hlt := (List.getElem?_eq_some_iff.mp hp).1
  rw [interrupt_processes hp haccepts, List.getElem?_set]
  simp [hlt]

theorem interrupt_ended (hp : s.processes[j]? = some p) (haccepts : p.accepts = true) (k : ℕ) :
    (s.interrupt j).ended k = true ↔ j = k ∨ s.ended k = true := by
  have hlocation : p.location = .main := by
    rcases hlocation : p.location with _ | _ | _ | _
    · rfl
    all_goals simp [Process.accepts, hlocation] at haccepts
  rw [ProcessTree.ended, interrupt_getElem? hp haccepts]
  split_ifs with hjk
  · simp [Process.ended, hlocation, hjk]
  · simp [ProcessTree.ended, hjk]

theorem interrupt_lineage (h : Lineage s parents) (hp : s.processes[j]? = some p)
    (haccepts : p.accepts = true) : Lineage (s.interrupt j) parents := by
  have hlocation : ∀ k, s.InMain k → (s.interrupt j).InMain k := by
    intro k hk
    obtain ⟨q, hq, hmain⟩ := hk
    rw [ProcessTree.InMain, interrupt_getElem? hp haccepts]
    split_ifs with hjk
    · subst hjk
      obtain rfl := Option.some.inj (hp.symm.trans hq)
      exact ⟨_, rfl, hmain⟩
    · exact ⟨q, hq, hmain⟩
  constructor
  · rw [interrupt_processes hp haccepts, List.length_set]
    exact h.length
  · exact h.root
  · exact hlocation 0 h.original
  · exact h.older
  · exact h.parent
  · intro k j' hk
    exact hlocation j' (h.forks k j' hk)

/-- What the signals leave: they end processes and nothing else. -/
structure Signalled (s s' : ProcessTree) (parents : List (Option ℕ)) : Prop where
  lineage : Lineage s' parents
  ended : ∀ k, s.ended k = true → s'.ended k = true

theorem sigchld_signalled (waiting : ℕ → Bool) (h : Lineage s parents) (n i : ℕ) :
    Signalled s (sigchld waiting parents n s i) parents := by
  induction n generalizing s i with
  | zero => exact ⟨h, fun _ hk => hk⟩
  | succ n ih =>
    rw [sigchld]
    split
    · exact ⟨h, fun _ hk => hk⟩
    · next j _ =>
      split_ifs with hwaits
      · rw [Bool.and_eq_true, Option.any_eq_true] at hwaits
        obtain ⟨⟨p, hp, haccepts⟩, -⟩ := hwaits
        obtain ⟨hlineage, hended⟩ := ih (interrupt_lineage h hp haccepts) j
        refine ⟨hlineage, ?_⟩
        intro k hk
        exact hended k ((interrupt_ended hp haccepts k).mpr (Or.inr hk))
      · exact ⟨h, fun _ hk => hk⟩

/-- When every parent waits, the signal goes up to the first process that has ended. -/
theorem sigchld_endsUpwards (h : Lineage s parents) (hwaiting : ∀ j, waiting j = true)
    (hn : i ≤ n) (hup : EndsUpwards s parents (some i)) :
    EndsUpwards (sigchld waiting parents n s i) parents none := by
  induction n generalizing s i with
  | zero =>
    obtain rfl : i = 0 := by omega
    intro k j hk hended
    rcases hup k j hk hended with hki | hj
    · obtain rfl := Option.some.inj hki
      rw [h.root] at hk
      cases hk
    · exact Or.inr hj
  | succ n ih =>
    rw [sigchld]
    split
    · next hnone =>
      intro k j hk hended
      rcases hup k j hk hended with hki | hj
      · obtain rfl := Option.some.inj hki
        rw [hk] at hnone
        cases hnone
      · exact Or.inr hj
    · next j hj =>
      have hij : parents[i]? = some (some j) := Option.join_eq_some_iff.mp hj
      obtain ⟨p, hp, hlocation⟩ := h.forks i j hij
      have haccepts := Process.accepts_iff hlocation
      rw [hp, Option.any_some, hwaiting, Bool.and_true]
      split_ifs with hp'
      · apply ih (interrupt_lineage h hp hp')
        · have hlt := h.older i j hij
          omega
        · intro k j' hk hended
          rw [interrupt_ended hp hp'] at hended ⊢
          rcases hended with rfl | hended
          · exact Or.inl rfl
          · rcases hup k j' hk hended with hki | hj'
            · obtain rfl := Option.some.inj hki
              rw [hij] at hk
              cases hk
              exact Or.inr (Or.inl rfl)
            · exact Or.inr (Or.inr hj')
      · intro k j' hk hended
        right
        rcases hup k j' hk hended with hki | hj'
        · obtain rfl := Option.some.inj hki
          rw [hij] at hk
          cases hk
          rw [s.ended_of_getElem? hp]
          by_contra hnot
          exact hp' (haccepts.mpr hnot)
        · exact hj'

end Interrupts

/-! ## What a turn does to the tree -/

section Turns

variable {s : ProcessTree} {parents : List (Option ℕ)} {i k : ℕ} {t : ProcessTurn}
  {p q : Process}

theorem Process.acceptTurn_location (p : Process) (poll : Poll) (forked : Bool) :
    (p.acceptTurn poll forked).process.location = p.location := by
  cases poll with
  | timeout => rfl
  | recvFailed => rfl
  | received source d =>
    simp only [Process.acceptTurn]
    split <;> rfl

theorem Process.acceptTurn_forked {poll : Poll} {forked : Bool}
    (hq : q ∈ (p.acceptTurn poll forked).forked) : q.ended = false := by
  cases poll with
  | timeout => cases hq
  | recvFailed => cases hq
  | received source d =>
    simp only [Process.acceptTurn] at hq
    split at hq
    · obtain ⟨child, -, rfl⟩ := List.mem_map.mp hq
      rfl
    · cases hq

theorem mainLoopTurn_exited {s : MainServer} {e : MainEvent} (he : e ≠ .pollFailed) :
    (mainLoopTurn s e).exited = s.exited := by
  simp only [mainLoopTurn]
  split_ifs with hexited
  · rfl
  · cases e with
    | pollFailed => exact absurd rfl he
    | recvFailed => rfl
    | received d =>
      dsimp only
      split <;> rfl

theorem Process.acceptTurn_exited {poll : Poll} (hpoll : poll ≠ .timeout) (forked : Bool) :
    (p.acceptTurn poll forked).process.main.exited = p.main.exited := by
  cases poll with
  | timeout => exact absurd rfl hpoll
  | recvFailed => exact mainLoopTurn_exited (by simp)
  | received source d =>
    have hexited : (mainLoopTurn p.main (.received d)).exited = p.main.exited :=
      mainLoopTurn_exited (by simp)
    simp only [Process.acceptTurn]
    split <;> exact hexited

/-- A process in the loop of `main` stays there, and only a failed poll ends it. -/
theorem Process.turn_main (h : p.location = .main) (t : ProcessTurn) :
    (p.turn t).process.location = .main ∧
      ((∀ forked, t ≠ .main .timeout forked) →
        (p.turn t).process.main.exited = p.main.exited) := by
  have hstep := p.turn_cases t
  generalize p.turn t = advanced at hstep
  cases hstep with
  | accept poll forked _ =>
    refine ⟨(p.acceptTurn_location poll forked).trans h, ?_⟩
    intro hpoll
    apply Process.acceptTurn_exited
    intro htimeout
    exact hpoll forked (by rw [htimeout])
  | child _ _ _ _ hlocation _ => cases h.symm.trans hlocation
  | fopen _ _ _ _ _ hlocation _ => cases h.symm.trans hlocation
  | send _ _ _ hlocation => cases h.symm.trans hlocation
  | stay t _ => exact ⟨h, fun _ => rfl⟩

theorem Process.turn_forked (hq : q ∈ (p.turn t).forked) : p.location = .main ∧ q.ended = false := by
  have hstep := p.turn_cases t
  generalize p.turn t = advanced at hstep hq
  cases hstep with
  | accept poll forked hlocation => exact ⟨hlocation, Process.acceptTurn_forked hq⟩
  | child _ _ _ _ _ _ => cases hq
  | fopen _ _ _ _ _ _ _ => cases hq
  | send _ _ _ _ => cases hq
  | stay t _ => cases hq

/-- What has ended takes no turn. -/
theorem Process.turn_ended (h : p.ended = true) (t : ProcessTurn) :
    (p.turn t).process.ended = true := by
  rcases hlocation : p.location with _ | ⟨request, child⟩ | ⟨session, state⟩ | _
  · have hexited : p.main.exited = true := by simpa [Process.ended, hlocation] using h
    cases t with
    | main poll forked =>
      have hmain : (p.turn (.main poll forked)).process.location = .main :=
        (p.turn_main hlocation _).1
      simp only [Process.turn, hlocation] at hmain ⊢
      rw [Process.ended, hmain]
      cases poll <;> simp [Process.acceptTurn, Process.stay, mainLoopTurn, hexited]
    | _ => simpa [Process.turn, hlocation, Process.stay] using h
  · simp [Process.ended, hlocation] at h
  · simp [Process.ended, hlocation] at h
  · simpa [Process.turn, hlocation, Process.stay] using h

theorem step_processes (hp : s.processes[i]? = some p) (t : ProcessTurn) :
    (s.step (i, t)).processes = s.processes.set i (p.turn t).process ++ (p.turn t).forked := by
  simp only [ProcessTree.step, hp]

theorem step_getElem?_self (hp : s.processes[i]? = some p) (t : ProcessTurn) :
    (s.step (i, t)).processes[i]? = some (p.turn t).process := by
  have hlt := (List.getElem?_eq_some_iff.mp hp).1
  rw [step_processes hp, List.getElem?_append_left (by rwa [List.length_set]),
    List.getElem?_set_self hlt]

theorem step_getElem?_ne (hik : i ≠ k) (hk : k < s.processes.length) (t : ProcessTurn) :
    (s.step (i, t)).processes[k]? = s.processes[k]? := by
  cases hp : s.processes[i]? with
  | none => simp only [ProcessTree.step, hp]
  | some p =>
    rw [step_processes hp, List.getElem?_append_left (by rwa [List.length_set]),
      List.getElem?_set_ne hik]

/-- A process that a turn forks has not ended. -/
theorem step_ended_new (hk : s.processes.length ≤ k) (i : ℕ) (t : ProcessTurn) :
    (s.step (i, t)).ended k = false := by
  rw [ProcessTree.ended]
  cases hp : s.processes[i]? with
  | none =>
    simp only [ProcessTree.step, hp]
    rw [List.getElem?_eq_none hk, Option.any_none]
  | some p =>
    rw [step_processes hp, List.getElem?_append_right (by rwa [List.length_set])]
    cases hq : (p.turn t).forked[k - (s.processes.set i (p.turn t).process).length]? with
    | none => rfl
    | some q => exact (Process.turn_forked (List.mem_of_getElem? hq)).2

theorem step_ended_ne (hik : i ≠ k) (t : ProcessTurn) :
    (s.step (i, t)).ended k = true ↔ s.ended k = true := by
  by_cases hk : k < s.processes.length
  · rw [ProcessTree.ended, step_getElem?_ne hik hk, ProcessTree.ended]
  · rw [step_ended_new (not_lt.mp hk), ProcessTree.ended, List.getElem?_eq_none (not_lt.mp hk)]
    rfl

theorem step_ended_of (h : s.ended k = true) (i : ℕ) (t : ProcessTurn) :
    (s.step (i, t)).ended k = true := by
  by_cases hik : i = k
  · subst hik
    rw [ProcessTree.ended, Option.any_eq_true] at h
    obtain ⟨p, hp, hended⟩ := h
    rw [ProcessTree.ended_of_getElem? (step_getElem?_self hp t)]
    exact Process.turn_ended hended t
  · exact (step_ended_ne hik t).mpr h

theorem step_inMain (h : s.InMain k) (i : ℕ) (t : ProcessTurn) : (s.step (i, t)).InMain k := by
  obtain ⟨p, hp, hlocation⟩ := h
  by_cases hik : i = k
  · subst hik
    exact ⟨_, step_getElem?_self hp t, (p.turn_main hlocation t).1⟩
  · have hlt := (List.getElem?_eq_some_iff.mp hp).1
    exact ⟨p, by rw [step_getElem?_ne hik hlt, hp], hlocation⟩

end Turns

/-! ## Runs of the server -/

section Server

variable {s : ProcessTree} {parents : List (Option ℕ)} {i j k n : ℕ} {t : ProcessTurn}

/-- A turn either forks nothing or is one of a process in the loop of `main`. -/
theorem step_forks (s : ProcessTree) (i : ℕ) (t : ProcessTurn) :
    ∃ n, (s.step (i, t)).processes.length = s.processes.length + n ∧
      (0 < n → s.InMain i ∧ i < s.processes.length) := by
  cases hp : s.processes[i]? with
  | none => exact ⟨0, by simp only [ProcessTree.step, hp, Nat.add_zero], fun h => absurd h (by omega)⟩
  | some p =>
    refine ⟨(p.turn t).forked.length, by rw [step_processes hp, List.length_append, List.length_set],
      ?_⟩
    intro hpos
    obtain ⟨q, hq⟩ := List.exists_mem_of_length_pos hpos
    exact ⟨⟨p, hp, (Process.turn_forked hq).1⟩, (List.getElem?_eq_some_iff.mp hp).1⟩

theorem parents_append (hk : (parents ++ List.replicate n (some i))[k]? = some (some j)) :
    parents[k]? = some (some j) ∨ (parents.length ≤ k ∧ 0 < n ∧ i = j) := by
  by_cases hlt : k < parents.length
  · left
    rwa [List.getElem?_append_left hlt] at hk
  · right
    rw [List.getElem?_append_right (not_lt.mp hlt), List.getElem?_replicate] at hk
    split_ifs at hk with hn
    refine ⟨not_lt.mp hlt, by omega, ?_⟩
    exact Option.some.inj (Option.some.inj hk)

theorem Lineage.turn (h : Lineage s parents) (i : ℕ) (t : ProcessTurn) :
    Lineage (s.step (i, t)) (parents ++ List.replicate
      ((s.step (i, t)).processes.length - s.processes.length) (some i)) := by
  obtain ⟨n, hn, hforks⟩ := step_forks s i t
  have hlength := h.length
  rw [hn, Nat.add_sub_cancel_left]
  constructor
  · rw [List.length_append, List.length_replicate, hn, hlength]
  · have hpos : 0 < parents.length := (List.getElem?_eq_some_iff.mp h.root).1
    rw [List.getElem?_append_left hpos]
    exact h.root
  · exact step_inMain h.original i t
  · intro k j hk
    rcases parents_append hk with hold | ⟨hle, hpos, rfl⟩
    · exact h.older k j hold
    · have hlt := (hforks hpos).2
      omega
  · intro k hk hlt
    by_cases hold : k < parents.length
    · rw [List.getElem?_append_left hold]
      exact h.parent k hk hold
    · rw [List.length_append, List.length_replicate] at hlt
      refine ⟨i, ?_⟩
      rw [List.getElem?_append_right (not_lt.mp hold), List.getElem?_replicate, if_pos (by omega)]
  · intro k j hk
    rcases parents_append hk with hold | ⟨-, hpos, rfl⟩
    · exact step_inMain (h.forks k j hold) i t
    · exact step_inMain (hforks hpos).1 i t

/-- After a turn only the process that took it can have ended without its parent. -/
theorem EndsUpwards.turn (h : EndsUpwards s parents none) (hlineage : Lineage s parents) (i : ℕ)
    (t : ProcessTurn) :
    EndsUpwards (s.step (i, t)) (parents ++ List.replicate
      ((s.step (i, t)).processes.length - s.processes.length) (some i)) (some i) := by
  intro k j hk hended
  by_cases hki : i = k
  · exact Or.inl (congrArg some hki.symm)
  · right
    rcases parents_append hk with hold | ⟨hle, -, -⟩
    · rw [step_ended_ne hki] at hended
      rcases h k j hold hended with hnone | hj
      · cases hnone
      · exact step_ended_of hj i t
    · rw [step_ended_new (by rw [← hlineage.length]; exact hle)] at hended
      cases hended

/-- The turn has not ended its process, or the parent had ended before. -/
theorem EndsUpwards.close (h : EndsUpwards s parents (some i))
    (hi : s.ended i = true → ∀ j, parents[i]? = some (some j) → s.ended j = true) :
    EndsUpwards s parents none := by
  intro k j hk hended
  rcases h k j hk hended with hki | hj
  · obtain rfl := Option.some.inj hki
    exact Or.inr (hi hended j hk)
  · exact Or.inr hj

end Server

/-- No process outlives a process that it has forked, and the original parent ends with
the first of them. -/
structure EndsTogether (s : ServerTree) : Prop where
  lineage : Lineage s.tree s.parents
  upwards : EndsUpwards s.tree s.parents none
  caused : s.tree.ended 0 = true → ∃ i, 0 < i ∧ s.tree.ended i = true

section Server

variable {s : ServerTree} {e : ServerEvent}

theorem enterServer_endsTogether (stack : ℕ → UInt8) : EndsTogether (enterServer stack) where
  lineage :=
    { length := rfl
      root := rfl
      original := ⟨_, rfl, rfl⟩
      older := by
        intro i j hi
        rcases i with _ | i <;> cases hi
      parent := by
        intro i hi hlt
        exact absurd hlt (not_lt.mpr hi)
      forks := by
        intro i j hi
        rcases i with _ | i <;> cases hi }
  upwards := by
    intro k j hk
    rcases k with _ | k <;> cases hk
  caused := fun h => by cases h

theorem ServerTree.step_cases (s : ServerTree) (e : ServerEvent) :
    ((s.turned e).ended e.process = true ∧ s.tree.ended e.process = false ∧
      s.step e = ⟨sigchld e.waiting (s.newParents e) e.process (s.turned e) e.process,
        s.newParents e⟩) ∨
    (((s.turned e).ended e.process = true → s.tree.ended e.process = true) ∧
      s.step e = ⟨s.turned e, s.newParents e⟩) := by
  cases hended : (s.turned e).ended e.process with
  | false =>
    right
    refine ⟨by simp, ?_⟩
    simp [ServerTree.step, hended]
  | true =>
    cases hold : s.tree.ended e.process with
    | true =>
      right
      refine ⟨by simp, ?_⟩
      simp [ServerTree.step, hended, hold]
    | false =>
      left
      refine ⟨rfl, rfl, ?_⟩
      simp [ServerTree.step, hended, hold]

/-- What ends the original parent is a failed poll of its own or a signal. -/
theorem EndsTogether.turned_caused (h : EndsTogether s)
    (hpoll : ∀ forked, e.turn ≠ .main .timeout forked) (hended : (s.turned e).ended 0 = true) :
    s.tree.ended 0 = true := by
  by_cases hzero : e.process = 0
  · obtain ⟨p, hp, hlocation⟩ := h.lineage.original
    obtain ⟨hmain, hexited⟩ := p.turn_main hlocation e.turn
    rw [ServerTree.turned, hzero, ProcessTree.ended_of_getElem? (step_getElem?_self hp _),
      Process.ended, hmain] at hended
    rw [ProcessTree.ended_of_getElem? hp, Process.ended, hlocation]
    exact (hexited hpoll).symm.trans hended
  · exact (step_ended_ne hzero e.turn).mp hended

theorem EndsTogether.step (h : EndsTogether s) (hwaiting : ∀ j, e.waiting j = true)
    (hpoll : ∀ forked, e.turn ≠ .main .timeout forked) : EndsTogether (s.step e) := by
  have hlineage : Lineage (s.turned e) (s.newParents e) := h.lineage.turn e.process e.turn
  have hupwards : EndsUpwards (s.turned e) (s.newParents e) (some e.process) :=
    h.upwards.turn h.lineage e.process e.turn
  rcases s.step_cases e with ⟨hended, hold, hstep⟩ | ⟨hkept, hstep⟩
  · rw [hstep]
    have hsignalled := sigchld_signalled e.waiting hlineage e.process e.process
    refine ⟨hsignalled.lineage,
      sigchld_endsUpwards hlineage hwaiting (Nat.le_refl e.process) hupwards, ?_⟩
    -- the process that has just ended is not the original parent, which a turn does not end
    intro _
    refine ⟨e.process, Nat.pos_of_ne_zero ?_, hsignalled.ended e.process hended⟩
    intro hzero
    rw [hzero] at hended hold
    rw [h.turned_caused hpoll hended] at hold
    cases hold
  · rw [hstep]
    refine ⟨hlineage, hupwards.close ?_, ?_⟩
    · intro hended j hj
      rcases parents_append hj with hparent | ⟨hle, -, -⟩
      · rcases h.upwards e.process j hparent (hkept hended) with hnone | hj'
        · cases hnone
        · exact step_ended_of hj' e.process e.turn
      · have hnew : s.tree.processes.length ≤ e.process := by
          rw [← h.lineage.length]
          exact hle
        rw [ServerTree.turned, step_ended_new hnew] at hended
        cases hended
    · intro hended
      obtain ⟨i, hi, hold⟩ := h.caused (h.turned_caused hpoll hended)
      exact ⟨i, hi, step_ended_of hold e.process e.turn⟩

/-- The end goes up from a process to its parent, until it reaches the oldest. -/
theorem EndsTogether.root (h : EndsTogether s) {i : ℕ} (hi : s.tree.ended i = true) :
    s.tree.ended 0 = true := by
  induction i using Nat.strong_induction_on with
  | _ i ih =>
    rcases Nat.eq_zero_or_pos i with rfl | hpos
    · exact hi
    · have hlt : i < s.parents.length := by
        rw [ProcessTree.ended, Option.any_eq_true] at hi
        obtain ⟨p, hp, -⟩ := hi
        rw [h.lineage.length]
        exact (List.getElem?_eq_some_iff.mp hp).1
      obtain ⟨j, hj⟩ := h.lineage.parent i hpos hlt
      rcases h.upwards i j hj hi with hnone | hended
      · cases hnone
      · exact ih j (h.lineage.older i j hj) hended

end Server

/-- When every signal finds the process it goes to in `poll`, and no call of `poll` fails
for another reason, the original parent has ended exactly when one of the processes below
it has: no request is taken after the end of the first session. -/
theorem server_ends_with_first_session (stack : ℕ → UInt8) (es : List ServerEvent)
    (hwaiting : ∀ e ∈ es, ∀ j, e.waiting j = true)
    (hpoll : ∀ e ∈ es, ∀ forked, e.turn ≠ .main .timeout forked) :
    (Runs.exec ServerTree.step (enterServer stack) es).tree.ended 0 = true ↔
      ∃ i, 0 < i ∧ (Runs.exec ServerTree.step (enterServer stack) es).tree.ended i = true := by
  have htogether : EndsTogether (Runs.exec ServerTree.step (enterServer stack) es) := by
    apply (Runs.always_of_keep (I := EndsTogether)
      (C := fun _ (e : ServerEvent) => (∀ j, e.waiting j = true) ∧
        ∀ forked, e.turn ≠ .main .timeout forked) ?_ (enterServer_endsTogether stack) ?_).last
    · intro s e h he
      exact h.step he.1 he.2
    · exact Runs.everyStep_of_forall (E := fun e => e ∈ es) (fun _ he => he)
        fun _ e he => ⟨hwaiting e he, hpoll e he⟩
  constructor
  · exact htogether.caused
  · intro h
    obtain ⟨i, -, hi⟩ := h
    exact htogether.root hi

/-- The server gets one request, and the session ends before an empty file. -/
def emptySession : List ServerEvent :=
  [⟨0, .main (.received ⟨0, 4000⟩ (filenameDatagram (paramsOf digitOne) 0)) true, fun _ => true⟩,
    ⟨1, childReply 7, fun _ => true⟩, ⟨1, childReply 7, fun _ => true⟩,
    ⟨1, childReply 7, fun _ => true⟩, ⟨1, .fopen (some []) true fun _ _ => 0, fun _ => true⟩,
    ⟨1, .send (quietTurn none), fun _ => true⟩]

theorem server_ends_with_first_session_empty :
    (Runs.exec ServerTree.step (enterServer fun _ => 0) emptySession).tree.ended 0 = true :=
  (server_ends_with_first_session (fun _ => 0) emptySession
    (by simp [emptySession]) (by simp [emptySession, childReply])).mpr
    ⟨1, by decide, by decide +kernel⟩

/-- Between the signals the server is the process tree: its runs are runs of the tree. -/
theorem sigchld_exec (waiting : ℕ → Bool) (parents : List (Option ℕ)) (n : ℕ) (s : ProcessTree)
    (i : ℕ) : ∃ turns, sigchld waiting parents n s i = Runs.exec ProcessTree.step s turns := by
  induction n generalizing s i with
  | zero => exact ⟨[], rfl⟩
  | succ n ih =>
    rw [sigchld]
    split
    · exact ⟨[], rfl⟩
    · next j _ =>
      split_ifs
      · obtain ⟨turns, hturns⟩ := ih (s.interrupt j) j
        exact ⟨(j, .main .timeout false) :: turns, hturns⟩
      · exact ⟨[], rfl⟩

theorem serverTree_exec (stack : ℕ → UInt8) (es : List ServerEvent) :
    ∃ turns, (Runs.exec ServerTree.step (enterServer stack) es).tree =
      Runs.exec ProcessTree.step (enterTree stack) turns := by
  apply Runs.exists_exec_of_simulates (R := fun (s : ServerTree) (t : ProcessTree) => s.tree = t)
  · intro s t e h
    subst h
    rcases s.step_cases e with ⟨-, -, hstep⟩ | ⟨-, hstep⟩
    · obtain ⟨turns, hturns⟩ := sigchld_exec e.waiting (s.newParents e) e.process (s.turned e)
        e.process
      refine ⟨(e.process, e.turn) :: turns, ?_⟩
      rw [hstep]
      exact hturns
    · refine ⟨[(e.process, e.turn)], ?_⟩
      rw [hstep]
      rfl
  · rfl

end Rcopy
