import P4Net.ChildProcesses
import P4Net.TransitionRuns

/-!
# The process of a BMv2 switch

A `BMv2Switch` spawns one `simple_switch_grpc`, waits until it serves, and stops it.  Its
methods are called one after another, while the child may end at any time and the rest of
the machine creates and reaps processes of its own.

* `step` are the system calls of the methods, one by one: which one is next is the `Pc`, and
  what the system answers is chosen by the environment.  An interrupt comes before a system
  call, not between `subprocess.Popen` and what `start` records of it.
* A `stop` or `kill` whose last wait times out returns with the child running (`gaveUp`).
* `touches` is the PID that a call signals, or whose `/proc` directory it reads.
* `Inv` says what holds between the calls, and `inv_step` that each of them keeps it.
* `Down` : the child is reaped, the log closed and the boot timestamp reset.
* `switch_safe` collects what holds in every state.
-/

namespace P4Net
namespace Bmv2
namespace Lifecycle

open Runs Processes

/-- The methods that reach the process; `isRunning` stands for `returncode()` too. -/
inductive Method where
  | start
  | waitUntilReady
  | stop
  | kill
  | isRunning
  | enter
  | exit
deriving DecidableEq

/-- How a method ended.  `refused` raised before it touched the child, `failed` after it,
and `gaveUp` left a child behind that does not react to `SIGKILL`. -/
inductive Result where
  | returned
  | refused
  | failed
  | gaveUp
  | interrupted
deriving DecidableEq

inductive Signal where
  | sigterm
  | sigkill
deriving DecidableEq

/-- The next system call of the method. -/
inductive Pc where
  | ended (method : Option (Method × Result))
  /-- `time.time_ns()` -/
  | stamping (method : Method)
  /-- `subprocess.Popen` -/
  | spawning (method : Method)
  /-- the head of the loop of `wait_until_ready` -/
  | polling (method : Method)
  /-- `_listening_inodes` and `_socket_inodes` -/
  | inspecting (method : Method)
  /-- `is_running` after an inspection that raised -/
  | rechecking (method : Method)
  /-- `is_running` after both listeners were seen -/
  | confirming (method : Method)
  /-- `_save_startup_diagnostics` -/
  | diagnosing (method : Method)
  /-- `self.returncode()` of the diagnostics -/
  | diagnosed (method : Method)
  /-- the first `poll` of `stop` and `kill` -/
  | stopping (method : Method)
  /-- the `poll` of `send_signal` -/
  | sending (method : Method) (signal : Signal)
  /-- `os.kill` -/
  | signalling (method : Method) (signal : Signal)
  | waiting (method : Method) (signal : Signal)
  /-- `_cleanup_log` -/
  | cleaning (method : Method)
deriving DecidableEq

/-- A `BMv2Switch` and the processes of the machine. -/
structure Switch where
  table : Processes.Table
  proc : Option Popen := none
  logOpen : Bool := false
  started : Bool := false
  bootTimestampUs : Option Nat := none
  pc : Pc := .ended none

/-- What `subprocess.Popen` does. -/
inductive Spawn where
  | child (pid : Nat)
  | osError
  | otherError

/-- What an inspection of the listeners and of the sockets of the child finds. -/
inductive Inspection where
  | notYet
  | ready
  | inUse
  | unreadable
  | otherError

inductive Act where
  /-- everyone else -/
  | others (act : Others)
  /-- A method is called; `admitted` is false when a check or a call before the process is
  touched raises. -/
  | call (method : Method) (admitted : Bool)
  /-- `time.time_ns() // 1000` -/
  | stamp (now : Nat)
  | spawn (answer : Spawn)
  /-- the head of the loop, and whether the deadline has passed -/
  | turn (expired : Bool)
  | inspect (found : Inspection)
  | diagnose (readable : Bool)
  | poll
  | signal
  /-- the end of `wait`, and whether it is `TimeoutExpired` -/
  | wait (timedOut : Bool)
  /-- `_cleanup_log`, and whether closing the log raises -/
  | clean (raises : Bool)
  | interrupt

/-- An exception in the readiness loop; `__enter__` stops the child before it goes on. -/
def raiseReadiness (method : Method) : Pc :=
  if method = .enter then .stopping .enter else .ended (some (method, .failed))

/-- The end of `stop` and `kill`; `__enter__` raises its exception again. -/
def finish (method : Method) : Pc :=
  .ended (some (method, if method = .enter then .failed else .returned))

/-- `self._proc.poll()`. -/
def Switch.poll (s : Switch) : Switch :=
  match s.proc with
  | some popen =>
      { s with table := (popen.poll s.table).1, proc := some (popen.poll s.table).2 }
  | none => s

/-- The child has been reaped. -/
def Switch.reaped (s : Switch) : Bool :=
  match s.proc with
  | some popen => popen.returncode.isSome
  | none => false

/-- The start of a method. -/
def callStep (s : Switch) (method : Method) (admitted : Bool) : Switch :=
  match method with
  | .start | .enter =>
      if s.started ∨ ¬ admitted then { s with pc := .ended (some (method, .refused)) }
      else { s with logOpen := true, pc := .stamping method }
  | .waitUntilReady =>
      if ¬ s.started ∨ s.proc = none ∨ ¬ admitted then
        { s with pc := .ended (some (method, .refused)) }
      else { s with pc := .polling method }
  | .stop | .exit =>
      if ¬ admitted then { s with pc := .ended (some (method, .refused)) }
      else if s.proc = none then { s with pc := .ended (some (method, .returned)) }
      else { s with pc := .stopping method }
  | .kill =>
      if s.proc = none then { s with pc := .ended (some (method, .returned)) }
      else { s with pc := .stopping method }
  | .isRunning => { s.poll with pc := .ended (some (method, .returned)) }

/-- `subprocess.Popen` in `start`. -/
def spawnStep (s : Switch) (method : Method) : Spawn → Option Switch
  | .child pid =>
      (s.table.fork pid true).map (fun table =>
        { s with
          table := table
          proc := some (s.table.child pid)
          started := true
          pc := if method = .enter then .polling method else .ended (some (method, .returned)) })
  | .osError =>
      some { s with
        logOpen := false, bootTimestampUs := none, pc := .ended (some (method, .refused)) }
  | .otherError => some { s with pc := .ended (some (method, .refused)) }

/-- A `poll` of a method, and what it goes on with. -/
def pollStep (s : Switch) : Option Switch :=
  let polled := s.poll
  match s.pc with
  | .rechecking m =>
      some { polled with pc := if polled.reaped then .polling m else raiseReadiness m }
  | .confirming m =>
      some { polled with pc := if polled.reaped then .polling m else .ended (some (m, .returned)) }
  | .diagnosed m => some { polled with pc := raiseReadiness m }
  | .stopping m =>
      some { polled with
        pc :=
          if polled.reaped then .cleaning m
          else .sending m (if m = .kill then .sigkill else .sigterm) }
  | .sending m signal =>
      some { polled with pc := if polled.reaped then .waiting m signal else .signalling m signal }
  | _ => none

/-- The end of a `wait`. -/
def waitStep (s : Switch) (method : Method) (signal : Signal) (timedOut : Bool) : Option Switch :=
  if timedOut then
    if s.reaped then none
    else
      match signal with
      | .sigterm => some { s with pc := .sending method .sigkill }
      | .sigkill => some { s with pc := .ended (some (method, .gaveUp)) }
  else
    let polled := s.poll
    if polled.reaped then some { polled with pc := .cleaning method } else none

/-- One step; `none` when it is not enabled. -/
def step (s : Switch) : Act → Option Switch
  | .others act => (s.table.others act).map (fun table => { s with table := table })
  | .call method admitted =>
      match s.pc with
      | .ended _ => some (callStep s method admitted)
      | _ => none
  | .stamp now =>
      match s.pc with
      | .stamping m => some { s with bootTimestampUs := some now, pc := .spawning m }
      | _ => none
  | .spawn answer =>
      match s.pc with
      | .spawning m => spawnStep s m answer
      | _ => none
  | .turn expired =>
      match s.pc with
      | .polling m =>
          if expired then some { s with pc := .diagnosing m }
          else some { s.poll with pc := if s.poll.reaped then raiseReadiness m else .inspecting m }
      | _ => none
  | .inspect found =>
      match s.pc with
      | .inspecting m =>
          some { s with
            pc :=
              match found with
              | .notYet => .polling m
              | .ready => .confirming m
              | .unreadable => .rechecking m
              | .inUse | .otherError => raiseReadiness m }
      | _ => none
  | .diagnose readable =>
      match s.pc with
      | .diagnosing m =>
          some { s with pc := if readable then .diagnosed m else raiseReadiness m }
      | _ => none
  | .poll => pollStep s
  | .signal =>
      match s.pc with
      | .signalling m signal => some { s with pc := .waiting m signal }
      | _ => none
  | .wait timedOut =>
      match s.pc with
      | .waiting m signal => waitStep s m signal timedOut
      | _ => none
  | .clean raises =>
      match s.pc with
      | .cleaning m =>
          some { s with
            logOpen := false
            bootTimestampUs := none
            pc := if raises then .ended (some (m, .interrupted)) else finish m }
      | _ => none
  | .interrupt =>
      match s.pc with
      | .ended _ => none
      | .polling m | .inspecting m | .rechecking m | .confirming m | .diagnosing m
      | .diagnosed m => some { s with pc := raiseReadiness m }
      | .stamping m | .spawning m | .stopping m | .sending m _ | .signalling m _
      | .waiting m _ | .cleaning m => some { s with pc := .ended (some (m, .interrupted)) }

/-- The PID that a step signals, or whose `/proc` directory it reads. -/
def touches (s : Switch) : Act → Option Nat
  | .inspect _ =>
      match s.pc with
      | .inspecting _ => s.proc.map Popen.pid
      | _ => none
  | .diagnose _ =>
      match s.pc with
      -- only while the return code is not known
      | .diagnosing _ => if s.reaped then none else s.proc.map Popen.pid
      | _ => none
  | .signal =>
      match s.pc with
      | .signalling _ _ => s.proc.map Popen.pid
      | _ => none
  | _ => none

/-- A switch before its first call. -/
structure Fresh (s : Switch) : Prop where
  proc : s.proc = none
  logOpen : s.logOpen = false
  started : s.started = false
  bootTimestampUs : s.bootTimestampUs = none
  pc : s.pc = .ended none

/-- The child is gone and nothing is left of it. -/
structure Down (s : Switch) : Prop where
  reaped : s.reaped = true
  logOpen : s.logOpen = false
  bootTimestampUs : s.bootTimestampUs = none

/-- What is known at the next call of a method. -/
def PcOk (s : Switch) : Prop :=
  match s.pc with
  | .ended (some (.stop, .returned)) | .ended (some (.exit, .returned))
  | .ended (some (.kill, .returned)) => s.proc = none ∨ Down s
  | .ended (some (.enter, .failed)) => Down s
  | .ended (some (_, .gaveUp)) => s.proc ≠ none ∧ s.reaped = false
  | .ended _ => True
  | .stamping m => s.proc = none ∧ s.logOpen = true ∧ (m = .start ∨ m = .enter)
  | .spawning m =>
      s.proc = none ∧ (s.logOpen = true ∧ s.bootTimestampUs ≠ none) ∧ (m = .start ∨ m = .enter)
  | .inspecting m => s.proc ≠ none ∧ s.reaped = false ∧ (m = .waitUntilReady ∨ m = .enter)
  | .polling m | .rechecking m | .confirming m | .diagnosing m | .diagnosed m =>
      s.proc ≠ none ∧ (m = .waitUntilReady ∨ m = .enter)
  | .stopping _ | .sending _ _ | .waiting _ _ => s.proc ≠ none
  | .signalling _ _ => s.proc ≠ none ∧ s.reaped = false
  | .cleaning _ => s.reaped = true

/-- What holds of a switch at every step of its methods. -/
structure Core (s : Switch) : Prop where
  started : s.started = true ↔ s.proc ≠ none
  own : ∀ popen, s.proc = some popen → popen.Own s.table
  log : s.bootTimestampUs ≠ none → s.logOpen = true
  running : s.proc ≠ none → s.reaped = false → s.bootTimestampUs ≠ none

/-- What holds between the steps of a switch. -/
structure Inv (s : Switch) : Prop where
  core : Core s
  pc : PcOk s

/-! ### A poll -/

section Poll

variable {s : Switch}

@[simp] theorem poll_started : s.poll.started = s.started := by
  unfold Switch.poll
  split <;> rfl

@[simp] theorem poll_logOpen : s.poll.logOpen = s.logOpen := by
  unfold Switch.poll
  split <;> rfl

@[simp] theorem poll_bootTimestampUs : s.poll.bootTimestampUs = s.bootTimestampUs := by
  unfold Switch.poll
  split <;> rfl

@[simp] theorem poll_proc_eq_none : s.poll.proc = none ↔ s.proc = none := by
  unfold Switch.poll
  split <;> simp_all

/-- A poll of a child that was reaped does nothing. -/
theorem poll_of_reaped
    (h : s.reaped = true) :
    s.poll = s := by
  obtain ⟨table, proc, logOpen, started, bootTimestampUs, pc⟩ := s
  cases proc with
  | none => rfl
  | some popen =>
      obtain ⟨code, hcode⟩ := Option.isSome_iff_exists.mp h
      simp only [Switch.poll, poll_of_returncode hcode]

theorem reaped_of_poll
    (h : s.poll.reaped = false) :
    s.reaped = false := by
  by_contra hne
  have hreaped : s.reaped = true := by simpa using hne
  rw [poll_of_reaped hreaped, hreaped] at h
  exact Bool.noConfusion h

/-- Down is down, whatever is polled. -/
theorem Down.poll
    (h : Down s) :
    Down s.poll := by
  rw [poll_of_reaped h.reaped]
  exact h

theorem Core.poll
    (h : Core s) :
    Core s.poll := by
  refine ⟨by simpa using h.started, ?_, by simpa using h.log, ?_⟩
  · intro popen hproc
    cases hs : s.proc with
    | none =>
        have hnone : s.poll.proc = none := by simpa using hs
        rw [hnone] at hproc
        exact absurd hproc (by simp)
    | some before =>
        simp only [Switch.poll, hs, Option.some.injEq] at hproc ⊢
        subst hproc
        exact own_poll (h.own before hs)
  · intro hproc hreaped
    rw [poll_bootTimestampUs]
    exact h.running (by simpa using hproc) (reaped_of_poll hreaped)

theorem Core.withPc
    (h : Core s) (pc : Pc) :
    Core { s with pc := pc } :=
  ⟨h.started, h.own, h.log, h.running⟩

end Poll

/-! ### What one step can do -/

/-- The steps as they change the switch, whatever the method goes on with. -/
inductive Effect (s : Switch) : Switch → Prop
  | others (act : Others) (table : Processes.Table) :
      s.table.others act = some table → Effect s { s with table := table }
  | jump (pc : Pc) : Effect s { s with pc := pc }
  | polled (pc : Pc) : Effect s { s.poll with pc := pc }
  | opened (method : Method) :
      s.started = false → Effect s { s with logOpen := true, pc := .stamping method }
  | stamped (method : Method) (now : Nat) :
      s.pc = .stamping method →
      Effect s { s with bootTimestampUs := some now, pc := .spawning method }
  | spawned (method : Method) (pid : Nat) (table : Processes.Table) (pc : Pc) :
      s.pc = .spawning method → s.table.fork pid true = some table →
      Effect s { s with
        table := table, proc := some (s.table.child pid), started := true, pc := pc }
  | unspawned (method : Method) (pc : Pc) :
      s.pc = .spawning method →
      Effect s { s with logOpen := false, bootTimestampUs := none, pc := pc }
  | cleaned (method : Method) (pc : Pc) :
      s.pc = .cleaning method →
      Effect s { s with logOpen := false, bootTimestampUs := none, pc := pc }

theorem effect_callStep
    (s : Switch) (method : Method) (admitted : Bool) :
    Effect s (callStep s method admitted) := by
  cases method with
  | start | enter =>
      simp only [callStep]
      split_ifs with hrefused
      · exact .jump _
      · exact .opened _ (by simp_all)
  | waitUntilReady =>
      simp only [callStep]
      split_ifs <;> exact .jump _
  | stop | exit =>
      simp only [callStep]
      split_ifs <;> exact .jump _
  | kill =>
      simp only [callStep]
      split_ifs <;> exact .jump _
  | isRunning => exact .polled _

theorem effect_step
    {s t : Switch} {act : Act}
    (h : step s act = some t) :
    Effect s t := by
  cases act with
  | others act =>
      obtain ⟨table, htable, rfl⟩ := Option.map_eq_some_iff.mp h
      exact .others act table htable
  | call method admitted =>
      simp only [step] at h
      split at h
      · obtain rfl := Option.some.inj h
        exact effect_callStep s method admitted
      · simp at h
  | stamp now =>
      simp only [step] at h
      split at h
      · rename_i m hpc
        obtain rfl := Option.some.inj h
        exact .stamped m now hpc
      · simp at h
  | spawn answer =>
      simp only [step] at h
      split at h
      · rename_i m hpc
        cases answer with
        | child pid =>
            obtain ⟨table, htable, rfl⟩ := Option.map_eq_some_iff.mp h
            exact .spawned m pid table _ hpc htable
        | osError =>
            obtain rfl := Option.some.inj h
            exact .unspawned m _ hpc
        | otherError =>
            obtain rfl := Option.some.inj h
            exact .jump _
      · simp at h
  | turn expired =>
      simp only [step] at h
      split at h
      · split_ifs at h
        · obtain rfl := Option.some.inj h
          exact .jump _
        · obtain rfl := Option.some.inj h
          exact .polled _
        · obtain rfl := Option.some.inj h
          exact .polled _
      · simp at h
  | inspect found =>
      simp only [step] at h
      split at h
      · obtain rfl := Option.some.inj h
        exact .jump _
      · simp at h
  | diagnose readable =>
      simp only [step] at h
      split at h
      · obtain rfl := Option.some.inj h
        exact .jump _
      · simp at h
  | poll =>
      simp only [step, pollStep] at h
      split at h
      all_goals first
        | (obtain rfl := Option.some.inj h; exact .polled _)
        | simp at h
  | signal =>
      simp only [step] at h
      split at h
      · obtain rfl := Option.some.inj h
        exact .jump _
      · simp at h
  | wait timedOut =>
      simp only [step] at h
      split at h
      · simp only [waitStep] at h
        split_ifs at h
        · split at h
          · obtain rfl := Option.some.inj h
            exact .jump _
          · obtain rfl := Option.some.inj h
            exact .jump _
        · obtain rfl := Option.some.inj h
          exact .polled _
      · simp at h
  | clean raises =>
      simp only [step] at h
      split at h
      · rename_i m hpc
        obtain rfl := Option.some.inj h
        exact .cleaned m _ hpc
      · simp at h
  | interrupt =>
      simp only [step] at h
      split at h
      all_goals first
        | (obtain rfl := Option.some.inj h; exact .jump _)
        | simp at h

theorem core_step
    {s t : Switch} {act : Act}
    (hs : Inv s) (h : step s act = some t) :
    Core t := by
  obtain ⟨hcore, hpc⟩ := hs
  cases effect_step h with
  | others act table htable =>
      exact ⟨hcore.started, fun popen hproc => own_others htable (hcore.own popen hproc),
        hcore.log, hcore.running⟩
  | jump pc => exact hcore.withPc pc
  | polled pc => exact hcore.poll.withPc pc
  | opened method hstarted => exact ⟨hcore.started, hcore.own, fun _ => rfl, hcore.running⟩
  | stamped method now hstamping =>
      simp only [PcOk, hstamping] at hpc
      exact ⟨hcore.started, hcore.own, fun _ => hpc.2.1, fun _ _ => by simp⟩
  | spawned method pid table pc hspawning htable =>
      simp only [PcOk, hspawning] at hpc
      refine ⟨by simp, fun popen hproc => ?_, hcore.log, fun _ _ => hpc.2.1.2⟩
      obtain rfl := Option.some.inj hproc
      exact own_child htable
  | unspawned method pc hspawning =>
      simp only [PcOk, hspawning] at hpc
      exact ⟨hcore.started, hcore.own, by simp, fun hproc => absurd hpc.1 hproc⟩
  | cleaned method pc hcleaning =>
      simp only [PcOk, hcleaning] at hpc
      refine ⟨hcore.started, hcore.own, by simp, fun _ hreaped => ?_⟩
      exact absurd (hpc.symm.trans hreaped) (by simp)

/-- Down is down for good: `start` refuses a switch that was started. -/
theorem down_step
    {s t : Switch} {act : Act}
    (hs : Inv s) (hdown : Down s) (h : step s act = some t) :
    Down t := by
  have hproc : s.proc ≠ none := by
    intro hnone
    have hreaped := hdown.reaped
    simp [Switch.reaped, hnone] at hreaped
  cases effect_step h with
  | others act table htable => exact ⟨hdown.reaped, hdown.logOpen, hdown.bootTimestampUs⟩
  | jump pc => exact ⟨hdown.reaped, hdown.logOpen, hdown.bootTimestampUs⟩
  | polled pc => exact ⟨hdown.poll.reaped, hdown.poll.logOpen, hdown.poll.bootTimestampUs⟩
  | opened method hstarted =>
      have hstarted' := hs.core.started.mpr hproc
      exact absurd (hstarted.symm.trans hstarted') (by simp)
  | stamped method now hstamping =>
      have hpc := hs.pc
      simp only [PcOk, hstamping] at hpc
      exact absurd hpc.1 hproc
  | spawned method pid table pc hspawning htable =>
      have hpc := hs.pc
      simp only [PcOk, hspawning] at hpc
      exact absurd hpc.1 hproc
  | unspawned method pc hspawning => exact ⟨hdown.reaped, rfl, rfl⟩
  | cleaned method pc hcleaning => exact ⟨hdown.reaped, rfl, rfl⟩

/-- The child is the same one throughout. -/
theorem child_step
    {s t : Switch} {act : Act} {popen : Popen}
    (hs : Inv s) (hproc : s.proc = some popen) (h : step s act = some t) :
    ∃ popen', t.proc = some popen' ∧ popen'.pid = popen.pid ∧ popen'.born = popen.born := by
  cases effect_step h with
  | others act table htable => exact ⟨popen, hproc, rfl, rfl⟩
  | jump pc => exact ⟨popen, hproc, rfl, rfl⟩
  | polled pc =>
      refine ⟨(popen.poll s.table).2, ?_, poll_pid, poll_born⟩
      simp only [Switch.poll, hproc]
  | opened method hstarted => exact ⟨popen, hproc, rfl, rfl⟩
  | stamped method now hstamping => exact ⟨popen, hproc, rfl, rfl⟩
  | spawned method pid table pc hspawning htable =>
      have hpc := hs.pc
      simp only [PcOk, hspawning] at hpc
      exact absurd (hpc.1.symm.trans hproc) (by simp)
  | unspawned method pc hspawning => exact ⟨popen, hproc, rfl, rfl⟩
  | cleaned method pc hcleaning => exact ⟨popen, hproc, rfl, rfl⟩

/-! ### The next call -/

/-- Nothing is known of a method that was refused or interrupted. -/
theorem pcOk_ended
    {s : Switch} {method : Method} {result : Result}
    (hpc : s.pc = .ended (some (method, result)))
    (hresult : result = .refused ∨ result = .interrupted) :
    PcOk s := by
  unfold PcOk
  rw [hpc]
  rcases hresult with rfl | rfl
  · cases method <;> exact True.intro
  · cases method <;> exact True.intro

/-- The child is there when the last wait for it has timed out. -/
theorem pcOk_gaveUp
    {s : Switch} {method : Method}
    (hpc : s.pc = .ended (some (method, .gaveUp))) (hproc : s.proc ≠ none)
    (hreaped : s.reaped = false) :
    PcOk s := by
  unfold PcOk
  rw [hpc]
  cases method <;> exact ⟨hproc, hreaped⟩

/-- What is known of a method of the readiness loop after an exception. -/
theorem pcOk_raiseReadiness
    {s : Switch} {method : Method}
    (hproc : s.proc ≠ none) (hmethod : method = .waitUntilReady ∨ method = .enter)
    (hpc : s.pc = raiseReadiness method) :
    PcOk s := by
  rcases hmethod with rfl | rfl
  · simp [PcOk, hpc, raiseReadiness]
  · simpa [PcOk, hpc, raiseReadiness] using hproc

theorem pcOk_callStep
    {s : Switch} (hcore : Core s) (method : Method) (admitted : Bool) :
    PcOk (callStep s method admitted) := by
  have hnone : s.started = false → s.proc = none := by
    intro hstarted
    by_contra hproc
    exact absurd (hstarted.symm.trans (hcore.started.mpr hproc)) (by simp)
  cases method with
  | start | enter =>
      simp only [callStep]
      split_ifs with hrefused
      · exact True.intro
      · exact ⟨hnone (by simp_all), rfl, by simp⟩
  | waitUntilReady =>
      simp only [callStep]
      split_ifs with hrefused
      · exact True.intro
      · exact ⟨by simp_all, .inl rfl⟩
  | stop | exit =>
      simp only [callStep]
      split_ifs with hadmitted hproc
      · exact .inl hproc
      · exact hproc
      · exact pcOk_ended rfl (.inl rfl)
  | kill =>
      simp only [callStep]
      split_ifs with hproc
      · exact .inl hproc
      · exact hproc
  | isRunning => exact True.intro

theorem Down.others
    {s : Switch} (h : Down s) (table : Processes.Table) (pc : Pc) :
    Down { s with table := table, pc := pc } :=
  ⟨h.reaped, h.logOpen, h.bootTimestampUs⟩

/-- What is known at a call of a method depends on the switch only, not on the others. -/
theorem pcOk_others
    {s : Switch} (h : PcOk s) (table : Processes.Table) :
    PcOk { s with table := table } := by
  unfold PcOk at h ⊢
  cases hpc : s.pc with
  | ended ended =>
      cases ended with
      | none => exact True.intro
      | some last =>
          obtain ⟨method, result⟩ := last
          cases method <;> cases result <;> simp only [hpc] at h ⊢
          all_goals first
            | exact h
            | exact Down.others h table _
            | exact h.imp_right (fun hdown => hdown.others table _)
  | _ =>
      simp only [hpc] at h ⊢
      exact h

theorem pcOk_step
    {s t : Switch} {act : Act}
    (hs : Inv s) (h : step s act = some t) :
    PcOk t := by
  obtain ⟨hcore, hpc⟩ := hs
  cases act with
  | others act =>
      obtain ⟨table, htable, rfl⟩ := Option.map_eq_some_iff.mp h
      exact pcOk_others hpc table
  | call method admitted =>
      simp only [step] at h
      split at h
      · obtain rfl := Option.some.inj h
        exact pcOk_callStep hcore method admitted
      · simp at h
  | stamp now =>
      simp only [step] at h
      split at h
      · rename_i m hstamping
        simp only [PcOk, hstamping] at hpc
        obtain rfl := Option.some.inj h
        exact ⟨hpc.1, ⟨hpc.2.1, by simp⟩, hpc.2.2⟩
      · simp at h
  | spawn answer =>
      simp only [step] at h
      split at h
      · rename_i m hspawning
        simp only [PcOk, hspawning] at hpc
        cases answer with
        | child pid =>
            obtain ⟨table, htable, rfl⟩ := Option.map_eq_some_iff.mp h
            rcases hpc.2.2 with rfl | rfl
            · exact True.intro
            · exact ⟨by simp, .inr rfl⟩
        | osError =>
            obtain rfl := Option.some.inj h
            exact pcOk_ended rfl (.inl rfl)
        | otherError =>
            obtain rfl := Option.some.inj h
            exact pcOk_ended rfl (.inl rfl)
      · simp at h
  | turn expired =>
      simp only [step] at h
      split at h
      · rename_i m hpolling
        simp only [PcOk, hpolling] at hpc
        split_ifs at h with hexpired hreaped
        · obtain rfl := Option.some.inj h
          exact hpc
        · obtain rfl := Option.some.inj h
          exact pcOk_raiseReadiness (by simpa using hpc.1) hpc.2 rfl
        · obtain rfl := Option.some.inj h
          exact ⟨by simpa using hpc.1, Bool.eq_false_iff.mpr hreaped, hpc.2⟩
      · simp at h
  | inspect found =>
      simp only [step] at h
      split at h
      · rename_i m hinspecting
        simp only [PcOk, hinspecting] at hpc
        obtain rfl := Option.some.inj h
        cases found with
        | notYet => exact ⟨hpc.1, hpc.2.2⟩
        | ready => exact ⟨hpc.1, hpc.2.2⟩
        | unreadable => exact ⟨hpc.1, hpc.2.2⟩
        | inUse => exact pcOk_raiseReadiness hpc.1 hpc.2.2 rfl
        | otherError => exact pcOk_raiseReadiness hpc.1 hpc.2.2 rfl
      · simp at h
  | diagnose readable =>
      simp only [step] at h
      split at h
      · rename_i m hdiagnosing
        simp only [PcOk, hdiagnosing] at hpc
        obtain rfl := Option.some.inj h
        cases readable with
        | true => exact hpc
        | false => exact pcOk_raiseReadiness hpc.1 hpc.2 rfl
      · simp at h
  | poll =>
      simp only [step, pollStep] at h
      split at h
      · rename_i m hrechecking
        simp only [PcOk, hrechecking] at hpc
        obtain rfl := Option.some.inj h
        split_ifs with hreaped
        · exact ⟨by simpa using hpc.1, hpc.2⟩
        · exact pcOk_raiseReadiness (by simpa using hpc.1) hpc.2 rfl
      · rename_i m hconfirming
        simp only [PcOk, hconfirming] at hpc
        obtain rfl := Option.some.inj h
        split_ifs with hreaped
        · exact ⟨by simpa using hpc.1, hpc.2⟩
        · rcases hpc.2 with rfl | rfl <;> exact True.intro
      · rename_i m hdiagnosed
        simp only [PcOk, hdiagnosed] at hpc
        obtain rfl := Option.some.inj h
        exact pcOk_raiseReadiness (by simpa using hpc.1) hpc.2 rfl
      · rename_i m hstopping
        simp only [PcOk, hstopping] at hpc
        obtain rfl := Option.some.inj h
        split_ifs with hreaped
        · exact hreaped
        · exact (by simpa using hpc : s.poll.proc ≠ none)
        · exact (by simpa using hpc : s.poll.proc ≠ none)
      · rename_i m signal hsending
        simp only [PcOk, hsending] at hpc
        obtain rfl := Option.some.inj h
        split_ifs with hreaped
        · exact (by simpa using hpc : s.poll.proc ≠ none)
        · exact ⟨by simpa using hpc, Bool.eq_false_iff.mpr hreaped⟩
      · simp at h
  | signal =>
      simp only [step] at h
      split at h
      · rename_i m signal hsignalling
        simp only [PcOk, hsignalling] at hpc
        obtain rfl := Option.some.inj h
        exact hpc.1
      · simp at h
  | wait timedOut =>
      simp only [step] at h
      split at h
      · rename_i m signal hwaiting
        simp only [PcOk, hwaiting] at hpc
        simp only [waitStep] at h
        split_ifs at h with htimedOut hreaped hreaped
        · split at h
          · obtain rfl := Option.some.inj h
            exact hpc
          · obtain rfl := Option.some.inj h
            have hleft : s.reaped = false := by simpa using hreaped
            exact pcOk_gaveUp rfl hpc hleft
        · obtain rfl := Option.some.inj h
          exact hreaped
      · simp at h
  | clean raises =>
      simp only [step] at h
      split at h
      · rename_i m hcleaning
        simp only [PcOk, hcleaning] at hpc
        obtain rfl := Option.some.inj h
        have hdown : ∀ pc, Down
            { s with logOpen := false, bootTimestampUs := none, pc := pc } :=
          fun _ => ⟨hpc, rfl, rfl⟩
        cases raises with
        | true => exact pcOk_ended rfl (.inr rfl)
        | false =>
            cases m with
            | stop => exact .inr (hdown _)
            | exit => exact .inr (hdown _)
            | kill => exact .inr (hdown _)
            | enter => exact hdown _
            | start => exact True.intro
            | waitUntilReady => exact True.intro
            | isRunning => exact True.intro
      · simp at h
  | interrupt =>
      simp only [step] at h
      split at h
      · simp at h
      · rename_i m hpolling
        simp only [PcOk, hpolling] at hpc
        obtain rfl := Option.some.inj h
        exact pcOk_raiseReadiness hpc.1 hpc.2 rfl
      · rename_i m hinspecting
        simp only [PcOk, hinspecting] at hpc
        obtain rfl := Option.some.inj h
        exact pcOk_raiseReadiness hpc.1 hpc.2.2 rfl
      · rename_i m hrechecking
        simp only [PcOk, hrechecking] at hpc
        obtain rfl := Option.some.inj h
        exact pcOk_raiseReadiness hpc.1 hpc.2 rfl
      · rename_i m hconfirming
        simp only [PcOk, hconfirming] at hpc
        obtain rfl := Option.some.inj h
        exact pcOk_raiseReadiness hpc.1 hpc.2 rfl
      · rename_i m hdiagnosing
        simp only [PcOk, hdiagnosing] at hpc
        obtain rfl := Option.some.inj h
        exact pcOk_raiseReadiness hpc.1 hpc.2 rfl
      · rename_i m hdiagnosed
        simp only [PcOk, hdiagnosed] at hpc
        obtain rfl := Option.some.inj h
        exact pcOk_raiseReadiness hpc.1 hpc.2 rfl
      all_goals
        obtain rfl := Option.some.inj h
        exact pcOk_ended rfl (.inr rfl)

theorem inv_step
    {s t : Switch} {act : Act}
    (hs : Inv s) (h : step s act = some t) :
    Inv t :=
  ⟨core_step hs h, pcOk_step hs h⟩

theorem inv_of_fresh
    {s : Switch}
    (h : Fresh s) :
    Inv s := by
  refine ⟨⟨?_, ?_, ?_, ?_⟩, ?_⟩
  · simp [h.started, h.proc]
  · simp [h.proc]
  · simp [h.logOpen, h.bootTimestampUs]
  · simp [h.proc]
  · simp [PcOk, h.pc]

theorem inv_of_run
    {start s : Switch}
    (hstart : Inv start) (h : Reaches step anyStep start s) :
    Inv s :=
  h.invariant hstart (fun _ _ _ hu _ hstep => inv_step hu hstep)

/-- What holds of a switch in a state reached by any calls, while anything else happens. -/
structure SwitchSafe (s : Switch) : Prop where
  /-- A PID that is signalled, or read in `/proc`, belongs to the own child. -/
  own_child : ∀ act pid, touches s act = some pid → ∃ popen p, s.proc = some popen ∧
    s.table.process pid = some p ∧ p.ours = true ∧ p.born = popen.born
  /-- At most one child is ever spawned. -/
  one_child : ∀ t popen, s.proc = some popen → Reaches step anyStep s t →
    ∃ popen', t.proc = some popen' ∧ popen'.pid = popen.pid ∧ popen'.born = popen.born
  /-- The log stays open, and the boot timestamp set, until the child is reaped. -/
  running : s.proc ≠ none → s.reaped = false →
    s.logOpen = true ∧ s.bootTimestampUs ≠ none
  /-- There is no boot timestamp without an open log. -/
  timestamp : s.bootTimestampUs ≠ none → s.logOpen = true
  /-- A method that stopped the switch left nothing of a child behind. -/
  stopped : ∀ method, method = .stop ∨ method = .exit ∨ method = .kill →
    s.pc = .ended (some (method, .returned)) → s.proc = none ∨ Down s
  /-- Neither did `__enter__` when the child did not get ready. -/
  entered : s.pc = .ended (some (.enter, .failed)) → Down s
  /-- A method whose last wait timed out returned and left the child, the log and the timestamp. -/
  gaveUp : ∀ method, s.pc = .ended (some (method, .gaveUp)) → s.proc ≠ none ∧
    s.reaped = false ∧ s.logOpen = true ∧ s.bootTimestampUs ≠ none
  /-- A child that is gone is gone for good, whatever is called. -/
  down : ∀ t, Down s → Reaches step anyStep s t → Down t

/-- Whatever the order of the calls, the answers of the system and the fate of the child. -/
theorem switch_safe
    {start s : Switch}
    (hstart : Fresh start) (h : Reaches step anyStep start s) :
    SwitchSafe s := by
  have hinv := inv_of_run (inv_of_fresh hstart) h
  obtain ⟨hcore, hpc⟩ := hinv
  constructor
  case own_child =>
    have hown : ∀ pid, s.reaped = false → s.proc.map Popen.pid = some pid →
        ∃ popen p, s.proc = some popen ∧ s.table.process pid = some p ∧ p.ours = true ∧
          p.born = popen.born := by
      intro pid hreaped hmap
      obtain ⟨popen, hproc, rfl⟩ := Option.map_eq_some_iff.mp hmap
      have hcode : popen.returncode = none := by
        simpa [Switch.reaped, hproc] using hreaped
      obtain ⟨p, hp, hborn, hours⟩ := hcore.own popen hproc hcode
      exact ⟨popen, p, hproc, hp, hours, hborn⟩
    intro act pid htouches
    cases act with
    | inspect found =>
        simp only [touches] at htouches
        split at htouches
        · rename_i m hinspecting
          simp only [PcOk, hinspecting] at hpc
          exact hown pid hpc.2.1 htouches
        · simp at htouches
    | diagnose readable =>
        simp only [touches] at htouches
        split at htouches
        · split_ifs at htouches with hreaped
          exact hown pid (by simpa using hreaped) htouches
        · simp at htouches
    | signal =>
        simp only [touches] at htouches
        split at htouches
        · rename_i m signal hsignalling
          simp only [PcOk, hsignalling] at hpc
          exact hown pid hpc.2 htouches
        · simp at htouches
    | _ => simp [touches] at htouches
  case one_child =>
    intro t popen hproc hrun
    have hall : Inv t ∧ ∃ popen', t.proc = some popen' ∧ popen'.pid = popen.pid ∧
        popen'.born = popen.born := by
      refine @Reaches.invariant _ _ step anyStep (fun u => Inv u ∧ ∃ popen',
        u.proc = some popen' ∧ popen'.pid = popen.pid ∧ popen'.born = popen.born) s t hrun
        ⟨⟨hcore, hpc⟩, popen, hproc, rfl, rfl⟩ ?_
      intro u act v hu _ hstep
      obtain ⟨hinv, before, hbefore, hpid, hborn⟩ := hu
      obtain ⟨after, hafter, hpid', hborn'⟩ := child_step hinv hbefore hstep
      exact ⟨inv_step hinv hstep, after, hafter, hpid'.trans hpid, hborn'.trans hborn⟩
    exact hall.2
  case running =>
    intro hproc hreaped
    have hstamp := hcore.running hproc hreaped
    exact ⟨hcore.log hstamp, hstamp⟩
  case timestamp => exact hcore.log
  case stopped =>
    intro method hmethod hended
    rcases hmethod with rfl | rfl | rfl
    · simpa only [PcOk, hended] using hpc
    · simpa only [PcOk, hended] using hpc
    · simpa only [PcOk, hended] using hpc
  case entered =>
    intro hended
    simpa only [PcOk, hended] using hpc
  case gaveUp =>
    intro method hended
    have hleft : s.proc ≠ none ∧ s.reaped = false := by
      cases method <;> simpa only [PcOk, hended] using hpc
    have hstamp := hcore.running hleft.1 hleft.2
    exact ⟨hleft.1, hleft.2, hcore.log hstamp, hstamp⟩
  case down =>
    intro t hdown hrun
    have hall : Inv t ∧ Down t := by
      refine @Reaches.invariant _ _ step anyStep (fun u => Inv u ∧ Down u) s t hrun
        ⟨⟨hcore, hpc⟩, hdown⟩ ?_
      exact fun u act v hu _ hstep => ⟨inv_step hu.1 hstep, down_step hu.1 hu.2 hstep⟩
    exact hall.2

/-- A switch that nobody has started, on a machine without other processes. -/
def unstarted : Switch where
  table := { process := fun _ => none, births := 0 }

theorem fresh_unstarted : Fresh unstarted :=
  ⟨rfl, rfl, rfl, rfl, rfl⟩

/-- The child ends before it is ready, and another process gets its PID. -/
def failedEntry : List Act :=
  [.call .enter true, .stamp 1000, .spawn (.child 100), .turn false, .inspect .notYet,
    .others (.exit 100 1), .turn false, .others (.fork 100), .poll, .clean false]

theorem switch_safe_failedEntry :
    ∃ s, execute step unstarted failedEntry = some s ∧
      s.pc = .ended (some (.enter, .failed)) ∧
      s.table.process 100 = some { born := 1, ours := false } ∧ SwitchSafe s := by
  refine ⟨_, rfl, rfl, rfl, switch_safe fresh_unstarted ?_⟩
  have hrun : execute step unstarted failedEntry = some _ := rfl
  exact reaches_of_execute (fun _ _ _ => True.intro) hrun

end Lifecycle
end Bmv2
end P4Net
