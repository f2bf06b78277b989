import Mathlib.Data.Set.Finite.Basic
import Rcopy.PollSet
import Rcopy.ProcessTree

/-!
# The sockets of the server

The descriptors and the poll set of every process of the server. A child closes the
socket of `main`, takes it out of its poll set and opens one of its own, which gets the
lowest number that is free. No process closes a file.

The loop of `main` receives on `main_server_socket` in every process that comes to it,
and `startFSM` on `child_server_socket`.
-/

namespace Rcopy

/-- The descriptors in use, the two variables for sockets and the poll set. -/
structure Descriptors where
  inUse : Finset ℕ
  mainServerSocket : ℕ
  childServerSocket : ℕ
  pollSet : Except PollFault PollLib

/-- `socket` and `fopen` take the lowest number that is free. -/
def lowestFree (inUse : Finset ℕ) : ℕ :=
  Nat.find (Infinite.exists_notMem_finset inUse)

def Descriptors.fopen (d : Descriptors) : Descriptors :=
  { d with inUse := insert (lowestFree d.inUse) d.inUse }

/-- `main` up to its loop; `inUse` is what the shell has opened. -/
def mainDescriptors (heap : ℕ → PollFd) (inUse : Finset ℕ) : Descriptors where
  inUse := insert (lowestFree inUse) inUse
  mainServerSocket := lowestFree inUse
  childServerSocket := 0
  pollSet := addSocket heap (.ok setupPollSet) (lowestFree inUse)

/-- The child in `startFSM`, up to its first datagram. -/
def Descriptors.startFSM (d : Descriptors) (heap : ℕ → PollFd) : Descriptors :=
  let closed := d.inUse.erase d.mainServerSocket
  let socketNumber := lowestFree closed
  { d with
    inUse := insert socketNumber closed
    childServerSocket := socketNumber
    pollSet := addSocket heap (d.pollSet >>= (removeFromPollSet · d.mainServerSocket)) socketNumber }

/-- What a turn of the process `p` opens: the file that `doGetFilenameState` tries, and
the same file again in `doSendDataState`. -/
def Descriptors.turn (d : Descriptors) (p : Process) (t : ProcessTurn) : Descriptors :=
  match p.location, t with
  | .startFSM _ child, .child openable _ =>
    if child.phase = .getFilename ∧ openable child.filename = true then d.fopen else d
  | .startFSM _ child, .fopen (some _) _ _ => if child.phase = .sendData then d.fopen else d
  | _, _ => d

/-- The process tree with the descriptors of every process. -/
structure DescribedTree where
  tree : ProcessTree
  descriptors : List Descriptors

/-- A turn, with the memory that `srealloc` adds. -/
structure DescribedTurn where
  process : ℕ
  turn : ProcessTurn
  heap : ℕ → PollFd

def DescribedTree.step (s : DescribedTree) (e : DescribedTurn) : DescribedTree :=
  { tree := s.tree.step (e.process, e.turn)
    descriptors :=
      match s.tree.processes[e.process]?, s.descriptors[e.process]? with
      | some p, some d =>
        s.descriptors.set e.process (d.turn p e.turn) ++
          (p.turn e.turn).forked.map fun _ => d.startFSM e.heap
      | _, _ => s.descriptors }

def enterDescribed (stack : ℕ → UInt8) (heap : ℕ → PollFd) (inUse : Finset ℕ) : DescribedTree where
  tree := enterTree stack
  descriptors := [mainDescriptors heap inUse]

/-- All sockets of the process have the number `n`, and its poll set holds that number
alone. -/
structure OneSocket (n : ℕ) (d : Descriptors) : Prop where
  main : d.mainServerSocket = n
  lower : ∀ k ≤ n, k ∈ d.inUse
  polls : PollsOnly n d.pollSet

section Numbers

variable {n : ℕ} {d : Descriptors} {p : Process} {t : ProcessTurn} {heap : ℕ → PollFd}
  {inUse : Finset ℕ}

theorem lowestFree_le {k : ℕ} (hk : k ∉ inUse) : lowestFree inUse ≤ k := Nat.find_min' _ hk

theorem mem_of_lt_lowestFree {k : ℕ} (hk : k < lowestFree inUse) : k ∈ inUse := by
  by_contra hfree
  exact absurd (lowestFree_le hfree) (not_le.mpr hk)

/-- A number that has just been given back is the lowest one when all below it are in use. -/
theorem lowestFree_erase (h : ∀ k ≤ n, k ∈ inUse) : lowestFree (inUse.erase n) = n := by
  apply le_antisymm
  · exact lowestFree_le (Finset.notMem_erase n inUse)
  · by_contra hlt
    have hfree : lowestFree (inUse.erase n) ∉ inUse.erase n := Nat.find_spec
      (Infinite.exists_notMem_finset (inUse.erase n))
    apply hfree
    rw [Finset.mem_erase]
    exact ⟨by omega, h _ (by omega)⟩

theorem mainDescriptors_oneSocket (heap : ℕ → PollFd) (inUse : Finset ℕ)
    (hn : (lowestFree inUse : Int) + pollSetSize < 2147483648) :
    OneSocket (lowestFree inUse) (mainDescriptors heap inUse) where
  main := rfl
  lower := by
    intro k hk
    rcases Nat.lt_or_eq_of_le hk with hlt | rfl
    · exact Finset.mem_insert_of_mem (mem_of_lt_lowestFree hlt)
    · exact Finset.mem_insert_self _ _
  polls := pollsOnly_setup heap (Int.natCast_nonneg _) hn

theorem OneSocket.fopen (h : OneSocket n d) : OneSocket n d.fopen where
  main := h.main
  lower := fun k hk => Finset.mem_insert_of_mem (h.lower k hk)
  polls := h.polls

theorem OneSocket.turn (h : OneSocket n d) (p : Process) (t : ProcessTurn) :
    OneSocket n (d.turn p t) := by
  simp only [Descriptors.turn]
  split
  · split_ifs
    · exact h.fopen
    · exact h
  · split_ifs
    · exact h.fopen
    · exact h
  · exact h

/-- The child gets the number back that it has closed. -/
theorem OneSocket.startFSM (h : OneSocket n d) (hn : (n : Int) + pollSetSize < 2147483648)
    (heap : ℕ → PollFd) :
    OneSocket n (d.startFSM heap) ∧ (d.startFSM heap).childServerSocket = n := by
  have hsocket : lowestFree (d.inUse.erase d.mainServerSocket) = n := by
    rw [h.main]
    exact lowestFree_erase h.lower
  refine ⟨⟨h.main, ?_, ?_⟩, hsocket⟩
  · intro k hk
    simp only [Descriptors.startFSM, hsocket]
    by_cases hkn : k = n
    · rw [hkn]
      exact Finset.mem_insert_self _ _
    · rw [h.main]
      exact Finset.mem_insert_of_mem (Finset.mem_erase.mpr ⟨hkn, h.lower k hk⟩)
  · obtain ⟨s, hs, hrep⟩ := h.polls
    have hremove : SocketSet.Allows ⟨{(n : Int)}, {(n : Int)}⟩ (.remove n) :=
      Finset.mem_singleton_self _
    obtain ⟨s₁, hs₁, hrep₁⟩ := hrep.apply hremove
    obtain ⟨s₂, hs₂, hrep₂⟩ := addSocket_represents hrep₁ heap (Int.natCast_nonneg n) hn
    refine ⟨s₂, ?_, ?_⟩
    · have hremoved : (d.pollSet >>= (removeFromPollSet · d.mainServerSocket)) = .ok s₁ := by
        rw [hs, h.main]
        exact hs₁
      simp only [Descriptors.startFSM, hsocket]
      rw [hremoved]
      exact hs₂
    · simpa [SocketSet.step] using hrep₂

end Numbers

/-- Every process has one socket, and they all have the number `n`. -/
structure OneSocketEach (n : ℕ) (s : DescribedTree) : Prop where
  length : s.descriptors.length = s.tree.processes.length
  sockets : ∀ d ∈ s.descriptors, OneSocket n d
  children : ∀ i d, 0 < i → s.descriptors[i]? = some d → d.childServerSocket = n

section Tree

variable {n : ℕ} {s : DescribedTree}

theorem Descriptors.turn_childServerSocket (d : Descriptors) (p : Process) (t : ProcessTurn) :
    (d.turn p t).childServerSocket = d.childServerSocket := by
  simp only [Descriptors.turn]
  split
  · split_ifs <;> rfl
  · split_ifs <;> rfl
  · rfl

theorem OneSocketEach.step (h : OneSocketEach n s) (hn : (n : Int) + pollSetSize < 2147483648)
    (e : DescribedTurn) : OneSocketEach n (s.step e) := by
  have hlength := h.length
  cases hp : s.tree.processes[e.process]? with
  | none =>
    have hsame : s.step e = s := by simp only [DescribedTree.step, ProcessTree.step, hp]
    rw [hsame]
    exact h
  | some p =>
    have hlt := (List.getElem?_eq_some_iff.mp hp).1
    obtain ⟨d, hd⟩ : ∃ d, s.descriptors[e.process]? = some d :=
      ⟨_, List.getElem?_eq_getElem (by omega)⟩
    have hone := h.sockets d (List.mem_of_getElem? hd)
    have hdescriptors : (s.step e).descriptors = s.descriptors.set e.process (d.turn p e.turn) ++
        (p.turn e.turn).forked.map fun _ => d.startFSM e.heap := by
      simp only [DescribedTree.step, hp, hd]
    have htree : (s.step e).tree.processes =
        s.tree.processes.set e.process (p.turn e.turn).process ++ (p.turn e.turn).forked := by
      simp only [DescribedTree.step, ProcessTree.step, hp]
    constructor
    · rw [hdescriptors, htree]
      simp only [List.length_append, List.length_set, List.length_map, hlength]
    · intro d' hd'
      rw [hdescriptors] at hd'
      rcases List.mem_append.mp hd' with hold | hnew
      · rcases List.mem_or_eq_of_mem_set hold with hold | rfl
        · exact h.sockets d' hold
        · exact hone.turn p e.turn
      · obtain ⟨_, -, rfl⟩ := List.mem_map.mp hnew
        exact (hone.startFSM hn e.heap).1
    · intro i d' hi hd'
      rw [hdescriptors] at hd'
      by_cases hold : i < s.descriptors.length
      · rw [List.getElem?_append_left (by rwa [List.length_set])] at hd'
        by_cases hei : e.process = i
        · subst hei
          rw [List.getElem?_set_self hold] at hd'
          obtain rfl := Option.some.inj hd'
          rw [d.turn_childServerSocket]
          exact h.children _ d hi hd
        · rw [List.getElem?_set_ne hei] at hd'
          exact h.children i d' hi hd'
      · rw [List.getElem?_append_right (by rw [List.length_set]; omega), List.getElem?_map] at hd'
        obtain ⟨_, -, rfl⟩ := Option.map_eq_some_iff.mp hd'
        exact (hone.startFSM hn e.heap).2

end Tree

/-- In every process of the server, both variables hold the number of the one socket that
is open there, and `pollCall` answers for that number and no other, but for a hang-up
of descriptor 0. -/
theorem processes_poll_their_socket (stack : ℕ → UInt8) (heap : ℕ → PollFd) (inUse : Finset ℕ)
    (turns : List DescribedTurn) (hn : (lowestFree inUse : Int) + pollSetSize < 2147483648)
    (i : ℕ) (d : Descriptors)
    (hd : (Runs.exec DescribedTree.step (enterDescribed stack heap inUse) turns).descriptors[i]? =
      some d) :
    d.mainServerSocket = lowestFree inUse ∧ (0 < i → d.childServerSocket = lowestFree inUse) ∧
      lowestFree inUse ∈ d.inUse ∧
      ∀ cond, (d.pollSet >>= (pollCall · (some cond))) = .ok (pollsOne (lowestFree inUse) cond) := by
  have hall : OneSocketEach (lowestFree inUse)
      (Runs.exec DescribedTree.step (enterDescribed stack heap inUse) turns) := by
    apply Runs.exec_of_keep
    · intro s e h
      exact h.step hn e
    · refine ⟨rfl, ?_, ?_⟩
      · intro d hd
        rw [List.mem_singleton.mp hd]
        exact mainDescriptors_oneSocket heap inUse hn
      · intro i d hi hd
        rw [enterDescribed, List.getElem?_singleton, if_neg (by omega)] at hd
        cases hd
  have hone := hall.sockets d (List.mem_of_getElem? hd)
  exact ⟨hone.main, fun hi => hall.children i d hi hd, hone.lower _ (Nat.le_refl _),
    hone.polls.pollCall⟩

theorem lowestFree_standard : lowestFree {0, 1, 2} = 3 := by
  rw [lowestFree, Nat.find_eq_iff]
  decide

/-- The server forks once, and the child has opened a socket under the number of the
one it has closed. -/
theorem processes_poll_their_socket_forked :
    ∃ d, (Runs.exec DescribedTree.step (enterDescribed (fun _ => 0) (fun _ => ⟨0, 0⟩) {0, 1, 2})
      [⟨0, .main (.received ⟨0, 4000⟩ (filenameDatagram (paramsOf digitOne) 0)) true,
        fun _ => ⟨0, 0⟩⟩]).descriptors[1]? = some d ∧ d.childServerSocket = lowestFree {0, 1, 2} := by
  have hforked : ((Runs.exec DescribedTree.step
      (enterDescribed (fun _ => 0) (fun _ => ⟨0, 0⟩) {0, 1, 2})
      [⟨0, .main (.received ⟨0, 4000⟩ (filenameDatagram (paramsOf digitOne) 0)) true,
        fun _ => ⟨0, 0⟩⟩]).descriptors[1]?).isSome = true := by decide +kernel
  obtain ⟨d, hd⟩ := Option.isSome_iff_exists.mp hforked
  have hsocket := processes_poll_their_socket (fun _ => 0) (fun _ => ⟨0, 0⟩) {0, 1, 2} _
    (by rw [lowestFree_standard]; decide) 1 d hd
  exact ⟨d, hd, hsocket.2.1 Nat.one_pos⟩

end Rcopy
