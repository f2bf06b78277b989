import Rcopy.Handshake
import Rcopy.SendDivision

/-!
# The processes of the server

`main` and every child that `startFSM` forks, each with its copy of the globals. The
state machine of a child ends with `exit` only when the whole file has been sent.
When it ends in `DONE`, `startFSM` returns, and the child goes on in the loop of
`main`: it takes requests on the socket that it has opened, and forks children of
its own, which inherit its `data_sequence_number`.
-/

namespace Rcopy

open Bytes

inductive Location
  | main
  | startFSM (request : Request) (child : Child)
  | doSendDataState (session : Session) (state : SendData)
  | exited

/-- A process: the variables of `main`, the global `data_sequence_number` and where it
is. In `doSendDataState` the global is the one in the state. -/
structure Process where
  main : MainServer
  dataSequenceNumber : UInt32
  location : Location

/-- The system calls of a turn: of the loop of `main`, of `doGetFilenameState`, of
`doSendDataState` before its loop and of a turn of that loop. -/
inductive ProcessTurn
  | main (poll : Poll) (forked : Bool)
  | child (openable : List UInt8 → Bool) (t : ChildTurn)
  | fopen (file : Option (List UInt8)) (allocated : Bool) (heap : ℕ → ℕ → UInt8)
  | send (t : SendTurn)

/-- What a process becomes in a turn, what it forks, and the `data_sequence_number`
with which it enters `doSendDataState`. -/
structure Advanced where
  process : Process
  forked : List Process
  begun : Option UInt32

def Process.stay (p : Process) : Advanced := ⟨p, [], none⟩

/-- `startFSM` returns into the loop of `main`. -/
def Process.returnToMain (p : Process) (dataSequenceNumber : UInt32) : Process :=
  { p with dataSequenceNumber := dataSequenceNumber, location := .main }

def Process.acceptTurn (p : Process) (poll : Poll) (forked : Bool) : Advanced :=
  match poll with
  | .timeout => Process.stay { p with main := mainLoopTurn p.main .pollFailed }
  | .recvFailed => Process.stay { p with main := mainLoopTurn p.main .recvFailed }
  | .received source d =>
    let p' := { p with main := mainLoopTurn p.main (.received d) }
    match p.main.exited, (mainTurn p.main.buffer d).2 with
    | false, some request =>
      { process := p'
        forked := (startFSM [] request source forked).map fun child =>
          { p' with location := .startFSM request child }
        begun := none }
    | _, _ => p'.stay

def Process.childTurn (p : Process) (request : Request) (child : Child)
    (openable : List UInt8 → Bool) (t : ChildTurn) : Process :=
  let child := Rcopy.childTurn openable child t
  if child.phase = .done then p.returnToMain p.dataSequenceNumber
  else { p with location := .startFSM request child }

/-- `fopen` and `initSenderWindow`; without a file or a window it returns `DONE`. -/
def Process.enterTurn (p : Process) (request : Request) (file : Option (List UInt8))
    (allocated : Bool) (heap : ℕ → ℕ → UInt8) : Process :=
  match file, allocated with
  | some file, true =>
    { p with
      location := .doSendDataState (sessionOf request file)
        (enterSendDataAt (sessionOf request file) heap p.dataSequenceNumber) }
  | _, _ => p.returnToMain p.dataSequenceNumber

/-- `WAIT_ON_EOF_ACK` calls `exit`, and a fault ends the process as well. -/
def Process.sendTurn (p : Process) (session : Session) (s : SendData) (t : SendTurn) : Process :=
  let s := Rcopy.sendTurn session s t
  match s.phase with
  | .returned .done => p.returnToMain s.dataSequenceNumber
  | .returned .waitOnEofAck => { p with location := .exited }
  | .crashed _ => { p with location := .exited }
  | _ => { p with location := .doSendDataState session s }

/-- A turn of a process. Calls that it does not make where it is leave it as it is. -/
def Process.turn (p : Process) (t : ProcessTurn) : Advanced :=
  match p.location, t with
  | .main, .main poll forked => p.acceptTurn poll forked
  | .startFSM request child, .child openable t =>
    if child.phase = .sendData then p.stay
    else (p.childTurn request child openable t).stay
  | .startFSM request child, .fopen file allocated heap =>
    if child.phase = .sendData then
      ⟨p.enterTurn request file allocated heap, [], some p.dataSequenceNumber⟩
    else p.stay
  | .doSendDataState session s, .send t => (p.sendTurn session s t).stay
  | _, _ => p.stay

/-- The processes, the original parent first, and the `data_sequence_number` of every
entry into `doSendDataState`. -/
structure ProcessTree where
  processes : List Process
  begun : List UInt32

def ProcessTree.step (s : ProcessTree) (e : ℕ × ProcessTurn) : ProcessTree :=
  match s.processes[e.1]? with
  | none => s
  | some p =>
    { processes := s.processes.set e.1 (p.turn e.2).process ++ (p.turn e.2).forked
      begun := s.begun ++ (p.turn e.2).begun.toList }

def enterTree (stack : ℕ → UInt8) : ProcessTree where
  processes := [⟨enterMain stack, 0, .main⟩]
  begun := []

/-- The process executes the loop of `main`. -/
def Process.InLoop (p : Process) : Prop := p.location = .main ∧ p.main.exited = false

/-- `doGetFilenameState` returns `DONE`: a send fails, or the client has answered the
error or has let ten polls pass. -/
def Child.Fails (c : Child) (openable : List UInt8 → Bool) (t : ChildTurn) : Prop :=
  (c.phase = .getFilename ∧ openable c.filename = false ∧ t.sent < 0) ∨
  (∃ bytesSent < 0, c.phase = .validSent bytesSent) ∨
  ∃ retries, c.phase = .awaitAck retries ∧
    (10 ≤ retries ∨ ∃ source d, t.poll = .received source d ∧ d ≠ [])

/-- The state machine of a child reaches `DONE`. -/
def Process.ReachesDone (p : Process) (t : ProcessTurn) : Prop :=
  match p.location, t with
  | .startFSM _ child, .child openable t => child.Fails openable t
  | .startFSM _ child, .fopen file allocated _ =>
    child.phase = .sendData ∧ (file = none ∨ allocated = false)
  | .doSendDataState session s, .send t => HasNext session s ∧ t.sent < 0
  | _, _ => False

/-- A child is somewhere in `startFSM`, or has ended. -/
def Location.Inside : Location → Prop
  | .main => False
  | .startFSM _ child => child.phase ≠ .done
  | .doSendDataState session s => s.Running ∧ (Idle s ∨ ∃ w, Sending session w s)
  | .exited => True

structure Process.Confined (p : Process) : Prop where
  accepts : p.main.exited = false
  fresh : p.dataSequenceNumber = 0
  inside : p.location.Inside

/-- What a turn of a process can be. -/
inductive Process.Turns (p : Process) : ProcessTurn → Advanced → Prop
  | accept (poll : Poll) (forked : Bool) (hlocation : p.location = .main) :
      Process.Turns p (.main poll forked) (p.acceptTurn poll forked)
  | child (request : Request) (child : Child) (openable : List UInt8 → Bool) (t : ChildTurn)
      (hlocation : p.location = .startFSM request child) (hphase : child.phase ≠ .sendData) :
      Process.Turns p (.child openable t) (p.childTurn request child openable t).stay
  | fopen (request : Request) (child : Child) (file : Option (List UInt8)) (allocated : Bool)
      (heap : ℕ → ℕ → UInt8) (hlocation : p.location = .startFSM request child)
      (hphase : child.phase = .sendData) :
      Process.Turns p (.fopen file allocated heap)
        ⟨p.enterTurn request file allocated heap, [], some p.dataSequenceNumber⟩
  | send (session : Session) (s : SendData) (t : SendTurn)
      (hlocation : p.location = .doSendDataState session s) :
      Process.Turns p (.send t) (p.sendTurn session s t).stay
  | stay (t : ProcessTurn) (hkeep : ¬p.ReachesDone t) : Process.Turns p t p.stay

section Turns

theorem childTurn_done_iff {openable : List UInt8 → Bool} {c : Child} {t : ChildTurn}
    (hphase : c.phase ≠ .done) :
    (childTurn openable c t).phase = .done ↔ c.Fails openable t := by
  cases hc : c.phase with
  | started => simp [childTurn, Child.Fails, hc]
  | getFilename =>
    cases hopen : openable c.filename <;>
      simp [childTurn, Child.Fails, hc, doGetFilenameState, hopen]
  | validSent bytesSent => simp [childTurn, Child.Fails, hc]
  | awaitAck retries =>
    simp only [childTurn, Child.Fails, hc, awaitAckTurn]
    by_cases hmax : retries < 10
    · have hle : ¬10 ≤ retries := not_le.mpr hmax
      cases t.poll <;> simp [hmax, hle]
    · have hle : 10 ≤ retries := not_lt.mp hmax
      simp [hmax, hle]
  | sendData => simp [childTurn, Child.Fails, hc, Child.sendto]
  | done => exact absurd hc hphase

theorem sendTurn_done_iff {session : Session} {s : SendData} {t : SendTurn} (hrun : s.Running)
    (h : Idle s ∨ ∃ w, Sending session w s) :
    (sendTurn session s t).phase = .returned .done ↔ HasNext session s ∧ t.sent < 0 := by
  rcases h with hidle | ⟨w, hs⟩
  · have hphase := (hidle.step (p := session) t).phase .done
    refine ⟨fun hdone => absurd hdone hphase, ?_⟩
    rintro ⟨hnext, -⟩
    have hopen := hnext.room
    rw [hidle.closed] at hopen
    cases hopen
  by_cases hfill : s.phase = .fill
  · rcases sendTurn_fill_cases (t := t) hs hfill with ⟨q, hnext, hturn⟩ | ⟨hnot, -, hphase⟩
    · rw [hturn]
      simp only [SendData.sendFresh, hfill, hnext, true_and]
      split_ifs with hsent <;> simp [hsent]
    · exact ⟨fun hdone => absurd hdone hphase, fun hnext => absurd hnext.1 hnot⟩
  · refine ⟨?_, fun hnext => absurd hnext.1.phase hfill⟩
    intro hdone
    exfalso
    have hstep := sendTurn_step (t := t) hs hrun
    revert hstep hdone
    generalize sendTurn session s t = s'
    intro hdone hstep
    -- outside the fill loop the phase stays, moves on or becomes a fault
    have hstay : s.phase ≠ .returned .done := by
      intro hphase
      simp [SendData.Running, hphase] at hrun
    cases hstep with
    | moved phase hmove => rcases hmove with ⟨rfl, -⟩ | ⟨rfl, -⟩ | ⟨rfl, -⟩ <;> cases hdone
    | eof _ => cases hdone
    | fresh _ hphase _ _ _ _ => exact hfill hphase
    | crashed _ _ => cases hdone
    | slid _ _ _ _ => exact hstay hdone
    | resent _ _ _ _ _ _ _ => exact hstay hdone
    | ignored => exact hstay hdone

theorem enterSendDataAt_inside (request : Request) (file : List UInt8) (heap : ℕ → ℕ → UInt8) :
    (Location.doSendDataState (sessionOf request file)
      (enterSendDataAt (sessionOf request file) heap 0)).Inside := by
  refine ⟨Or.inl rfl, ?_⟩
  have hwindow := sessionOf_windowSize request file
  by_cases hzero : toI32 (sessionOf request file).windowSize = 0
  · exact Or.inl (enterSendDataAt_idle hzero heap 0)
  · exact Or.inr ⟨_, enterSendData_sending heap (by omega)⟩

theorem Process.sendTurn_confined {p : Process} {session : Session} {s : SendData} (h : p.Confined)
    (hlocation : p.location = .doSendDataState session s) (t : SendTurn)
    (hgood : ¬(HasNext session s ∧ t.sent < 0)) : (p.sendTurn session s t).Confined := by
  have hinside := h.inside
  rw [hlocation] at hinside
  obtain ⟨hrun, hsender⟩ := hinside
  have hdone := mt (sendTurn_done_iff hrun hsender).mp hgood
  have hkeep : (Rcopy.sendTurn session s t).Running →
      (Location.doSendDataState session (Rcopy.sendTurn session s t)).Inside := by
    intro hrun'
    refine ⟨hrun', ?_⟩
    rcases hsender with hidle | ⟨w, hs⟩
    · exact Or.inl (hidle.step t)
    · exact Or.inr ⟨w, sendTurn_sending (fun _ => hs) hrun'⟩
  simp only [Process.sendTurn]
  cases hphase : (Rcopy.sendTurn session s t).phase with
  | fill => exact ⟨h.accepts, h.fresh, hkeep (Or.inl hphase)⟩
  | poll => exact ⟨h.accepts, h.fresh, hkeep (Or.inr (Or.inl hphase))⟩
  | wait => exact ⟨h.accepts, h.fresh, hkeep (Or.inr (Or.inr hphase))⟩
  | returned state =>
    cases state with
    | done => exact absurd hphase hdone
    | waitOnEofAck => exact ⟨h.accepts, h.fresh, trivial⟩
  | crashed fault => exact ⟨h.accepts, h.fresh, trivial⟩

theorem Process.turn_cases (p : Process) (t : ProcessTurn) : p.Turns t (p.turn t) := by
  rcases hlocation : p.location with _ | ⟨request, child⟩ | ⟨session, s⟩ | _
  · cases t with
    | main poll forked =>
      simp only [Process.turn, hlocation]
      exact .accept poll forked hlocation
    | _ =>
      simp only [Process.turn, hlocation]
      exact .stay _ (by simp [Process.ReachesDone, hlocation])
  · cases t with
    | child openable t =>
      simp only [Process.turn, hlocation]
      split_ifs with hphase
      · exact .stay _ (by simp [Process.ReachesDone, hlocation, Child.Fails, hphase])
      · exact .child request child openable t hlocation hphase
    | fopen file allocated heap =>
      simp only [Process.turn, hlocation]
      split_ifs with hphase
      · exact .fopen request child file allocated heap hlocation hphase
      · exact .stay _ (by simp [Process.ReachesDone, hlocation, hphase])
    | _ =>
      simp only [Process.turn, hlocation]
      exact .stay _ (by simp [Process.ReachesDone, hlocation])
  · cases t with
    | send t =>
      simp only [Process.turn, hlocation]
      exact .send session s t hlocation
    | _ =>
      simp only [Process.turn, hlocation]
      exact .stay _ (by simp [Process.ReachesDone, hlocation])
  · cases t <;> simp only [Process.turn, hlocation] <;>
      exact .stay _ (by simp [Process.ReachesDone, hlocation])

/-- A child whose state machine does not reach `DONE` stays in `startFSM` or ends. -/
theorem Process.Confined.turn {p : Process} (h : p.Confined) (t : ProcessTurn)
    (hgood : ¬p.ReachesDone t) :
    (p.turn t).process.Confined ∧ (p.turn t).forked = [] ∧ ∀ n ∈ (p.turn t).begun, n = 0 := by
  have hinside := h.inside
  have hstep := p.turn_cases t
  generalize p.turn t = advanced at hstep ⊢
  cases hstep with
  | accept poll forked hlocation =>
    rw [hlocation] at hinside
    exact absurd hinside id
  | child request child openable t hlocation hphase =>
    rw [hlocation] at hinside
    simp only [Process.ReachesDone, hlocation] at hgood
    have hnext := mt (childTurn_done_iff hinside).mp hgood
    refine ⟨?_, rfl, by simp [Process.stay]⟩
    simp only [Process.stay, Process.childTurn, if_neg hnext]
    exact ⟨h.accepts, h.fresh, hnext⟩
  | fopen request child file allocated heap hlocation hphase =>
    simp only [Process.ReachesDone, hlocation, hphase, true_and, not_or] at hgood
    obtain ⟨hopened, hallocated⟩ := hgood
    obtain ⟨file, rfl⟩ := Option.ne_none_iff_exists'.mp hopened
    obtain rfl : allocated = true := by simpa using hallocated
    refine ⟨⟨h.accepts, h.fresh, ?_⟩, rfl, by simp [h.fresh]⟩
    simp only [Process.enterTurn, h.fresh]
    exact enterSendDataAt_inside request file heap
  | send session s t hlocation =>
    simp only [Process.ReachesDone, hlocation] at hgood
    exact ⟨Process.sendTurn_confined h hlocation t hgood, rfl, by simp [Process.stay]⟩
  | stay t hkeep => exact ⟨h, rfl, by simp [Process.stay]⟩

/-- A child that reaches `DONE` executes the loop of `main` from then on. -/
theorem Process.Confined.inLoop {p : Process} (h : p.Confined) (t : ProcessTurn)
    (hbad : p.ReachesDone t) : (p.turn t).process.InLoop := by
  have hinside := h.inside
  have hstep := p.turn_cases t
  generalize p.turn t = advanced at hstep ⊢
  cases hstep with
  | accept poll forked hlocation =>
    rw [hlocation] at hinside
    exact absurd hinside id
  | child request child openable t hlocation hphase =>
    rw [hlocation] at hinside
    simp only [Process.ReachesDone, hlocation] at hbad
    have hnext := (childTurn_done_iff hinside).mpr hbad
    simp only [Process.stay, Process.childTurn, if_pos hnext]
    exact ⟨rfl, h.accepts⟩
  | fopen request child file allocated heap hlocation hphase =>
    simp only [Process.ReachesDone, hlocation] at hbad
    rcases hbad.2 with rfl | rfl
    · exact ⟨rfl, h.accepts⟩
    · cases file <;> exact ⟨rfl, h.accepts⟩
  | send session s t hlocation =>
    rw [hlocation] at hinside
    simp only [Process.ReachesDone, hlocation] at hbad
    have hnext := (sendTurn_done_iff hinside.1 hinside.2).mpr hbad
    simp only [Process.stay, Process.sendTurn, hnext]
    exact ⟨rfl, h.accepts⟩
  | stay t hkeep => exact absurd hbad hkeep

/-- The process of the original parent. -/
structure Process.Parent (p : Process) : Prop where
  fresh : p.dataSequenceNumber = 0
  location : p.location = .main

theorem Process.Parent.acceptTurn {p : Process} (h : p.Parent) (poll : Poll) (forked : Bool) :
    (p.acceptTurn poll forked).process.Parent ∧
      (∀ q ∈ (p.acceptTurn poll forked).forked, q.Confined) ∧
      (p.acceptTurn poll forked).begun = none := by
  cases poll with
  | timeout => exact ⟨⟨h.fresh, h.location⟩, by simp [Process.acceptTurn, Process.stay], rfl⟩
  | recvFailed => exact ⟨⟨h.fresh, h.location⟩, by simp [Process.acceptTurn, Process.stay], rfl⟩
  | received source d =>
    have hparent : Process.Parent { p with main := mainLoopTurn p.main (.received d) } :=
      ⟨h.fresh, h.location⟩
    simp only [Process.acceptTurn]
    cases hexit : p.main.exited with
    | true => exact ⟨hparent, by simp [Process.stay], rfl⟩
    | false =>
      rcases hrequest : (mainTurn p.main.buffer d).2 with _ | request
      · exact ⟨hparent, by simp [Process.stay], rfl⟩
      · refine ⟨hparent, ?_, rfl⟩
        have hrunning : (mainLoopTurn p.main (.received d)).exited = false := by
          rcases mainLoopTurn_received (d := d) hexit with ⟨_, -, hstep⟩ | ⟨_, _, -, hstep⟩ <;>
            rw [hstep] <;> exact hexit
        intro q hq
        simp only [startFSM] at hq
        split_ifs at hq
        · obtain rfl := List.mem_singleton.mp hq
          exact ⟨hrunning, h.fresh, ChildPhase.noConfusion⟩
        · cases hq

theorem Process.Parent.turn {p : Process} (h : p.Parent) (t : ProcessTurn) :
    (p.turn t).process.Parent ∧ (∀ q ∈ (p.turn t).forked, q.Confined) ∧ (p.turn t).begun = none := by
  have hmain := h.location
  have hstep := p.turn_cases t
  generalize p.turn t = advanced at hstep ⊢
  cases hstep with
  | accept poll forked => exact h.acceptTurn poll forked
  | child _ _ _ _ hlocation _ => cases hmain.symm.trans hlocation
  | fopen _ _ _ _ _ hlocation _ => cases hmain.symm.trans hlocation
  | send _ _ _ hlocation => cases hmain.symm.trans hlocation
  | stay t _ => exact ⟨h, by simp [Process.stay], rfl⟩

end Turns

/-! ## The whole tree -/

/-- The original parent is in the loop of `main`, and all others are its children, none
of which has left `startFSM` but by ending. -/
structure Rooted (s : ProcessTree) : Prop where
  processes : ∃ root children, s.processes = root :: children ∧ root.Parent ∧
    ∀ p ∈ children, p.Confined
  begun : ∀ n ∈ s.begun, n = 0

section Tree

variable {s : ProcessTree} {e : ℕ × ProcessTurn}

theorem Rooted.step (h : Rooted s) (hgood : ∀ p, s.processes[e.1]? = some p → ¬p.ReachesDone e.2) :
    Rooted (s.step e) := by
  obtain ⟨i, t⟩ := e
  obtain ⟨root, children, hprocesses, hroot, hchildren⟩ := h.processes
  rw [ProcessTree.step]
  cases hp : s.processes[i]? with
  | none => exact h
  | some p =>
    have hnot := hgood p hp
    rw [hprocesses] at hp
    dsimp only
    rw [hprocesses]
    cases i with
    | zero =>
      obtain rfl : root = p := Option.some.inj hp
      obtain ⟨hparent, hforked, hbegun⟩ := hroot.turn t
      refine ⟨⟨_, _, rfl, hparent, ?_⟩, by simpa [hbegun] using h.begun⟩
      intro q hq
      rcases List.mem_append.mp hq with hold | hnew
      · exact hchildren q hold
      · exact hforked q hnew
    | succ i =>
      have hchild := hchildren p (List.mem_of_getElem? hp)
      obtain ⟨hconfined, hforked, hbegun⟩ := hchild.turn t hnot
      refine ⟨⟨root, children.set i (p.turn t).process, ?_, hroot, ?_⟩, ?_⟩
      · rw [hforked, List.append_nil]
        rfl
      · intro q hq
        rcases List.mem_or_eq_of_mem_set hq with hold | rfl
        · exact hchildren q hold
        · exact hconfined
      · intro n hn
        rcases List.mem_append.mp hn with hold | hnew
        · exact h.begun n hold
        · exact hbegun n (Option.mem_toList.mp hnew)

end Tree

def childReply (sent : Int) : ProcessTurn :=
  .child (fun _ => true) ⟨.timeout, sent, 0, 0, []⟩

end Rcopy
