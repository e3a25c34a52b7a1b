import Mathlib.Logic.Function.Basic
import Mathlib.Tactic.Cases
import Mathlib.Tactic.SplitIfs

/-!
# Child processes and process numbers

A parent knows its child by its PID.  The kernel keeps the PID of a child that exited until
the parent has reaped it; after that another process can get the same number.

* `Table` are the processes of a machine; `Table.fork`, `Table.exit` and `Table.reap`
  change it.
* `Popen` is what a parent keeps of a child: its PID, and its return code once it has been
  reaped.  `Popen.poll` is a `waitpid` that does not wait.
* `Popen.Own` : while the return code is not known, the PID belongs to the child.
  `own_poll` and `own_others` carry it over what the parent and everyone else can do.

Nothing in this module refers to a particular program.
-/

namespace P4Net
namespace Processes

/-- A process.  `born` tells apart the processes that have one PID after the other, `ours`
marks the children of the parent, and `exited` is the status of a process that ended. -/
structure Process where
  born : Nat
  ours : Bool
  exited : Option Int := none
deriving DecidableEq

/-- The processes by PID, and how many were ever created. -/
structure Table where
  process : Nat → Option Process
  births : Nat

/-- A new process gets a free PID. -/
def Table.fork (table : Table) (pid : Nat) (ours : Bool) : Option Table :=
  match table.process pid with
  | some _ => none
  | none =>
      some
        { process := Function.update table.process pid (some { born := table.births, ours := ours })
          births := table.births + 1 }

/-- A process ends, and keeps its PID. -/
def Table.exit (table : Table) (pid : Nat) (status : Int) : Option Table :=
  match table.process pid with
  | some p =>
      if p.exited = none then
        some { table with
          process := Function.update table.process pid (some { p with exited := some status }) }
      else none
  | none => none

/-- The PID becomes free. -/
def Table.reap (table : Table) (pid : Nat) : Table :=
  { table with process := Function.update table.process pid none }

/-- What happens outside the parent: its children may end, but only it reaps them. -/
inductive Others where
  | fork (pid : Nat)
  | exit (pid : Nat) (status : Int)
  | reap (pid : Nat)
deriving DecidableEq

def Table.others (table : Table) : Others → Option Table
  | .fork pid => table.fork pid false
  | .exit pid status => table.exit pid status
  | .reap pid =>
      match table.process pid with
      | some p => if p.ours = false ∧ p.exited ≠ none then some (table.reap pid) else none
      | none => none

/-- A child as its parent knows it. -/
structure Popen where
  pid : Nat
  born : Nat
  returncode : Option Int := none
deriving DecidableEq

/-- The record of a child that is created under the PID. -/
def Table.child (table : Table) (pid : Nat) : Popen :=
  { pid := pid, born := table.births }

/-- `poll()`; a PID that is not the child's makes `waitpid` raise `ECHILD`, which counts as
a return code of 0. -/
def Popen.poll (popen : Popen) (table : Table) : Table × Popen :=
  match popen.returncode with
  | some _ => (table, popen)
  | none =>
      match table.process popen.pid with
      | some p =>
          if p.born = popen.born then
            match p.exited with
            | some status => (table.reap popen.pid, { popen with returncode := some status })
            | none => (table, popen)
          else (table, { popen with returncode := some 0 })
      | none => (table, { popen with returncode := some 0 })

/-- Until it is reaped, the child has its PID. -/
def Popen.Own (table : Table) (popen : Popen) : Prop :=
  popen.returncode = none →
    ∃ p, table.process popen.pid = some p ∧ p.born = popen.born ∧ p.ours = true

section Facts

variable {table table' : Table} {popen : Popen} {pid : Nat}

theorem own_child
    (h : table.fork pid true = some table') :
    (table.child pid).Own table' := by
  intro _
  unfold Table.fork at h
  split at h
  · simp at h
  · obtain rfl := Option.some.inj h
    exact ⟨_, Function.update_self _ _ _, rfl, rfl⟩

/-- Nobody else frees the PID of a child. -/
theorem own_others
    {act : Others}
    (h : table.others act = some table') (hown : popen.Own table) :
    popen.Own table' := by
  intro hcode
  obtain ⟨p, hp, hborn, hours⟩ := hown hcode
  cases act with
  | fork other =>
      simp only [Table.others, Table.fork] at h
      split at h
      · simp at h
      · rename_i hnone
        obtain rfl := Option.some.inj h
        have hne : popen.pid ≠ other := by
          rintro rfl
          simp [hp] at hnone
        exact ⟨p, by simpa [hne] using hp, hborn, hours⟩
  | exit other status =>
      simp only [Table.others, Table.exit] at h
      split at h
      · rename_i q hq
        split_ifs at h
        obtain rfl := Option.some.inj h
        by_cases hne : popen.pid = other
        · subst hne
          obtain rfl : p = q := Option.some.inj (hp.symm.trans hq)
          exact ⟨_, Function.update_self _ _ _, hborn, hours⟩
        · exact ⟨p, by simpa [hne] using hp, hborn, hours⟩
      · simp at h
  | reap other =>
      simp only [Table.others] at h
      split at h
      · rename_i q hq
        split_ifs at h with hfree
        obtain rfl := Option.some.inj h
        have hne : popen.pid ≠ other := by
          rintro rfl
          obtain rfl : p = q := Option.some.inj (hp.symm.trans hq)
          simp [hours] at hfree
        exact ⟨p, by simpa [Table.reap, hne] using hp, hborn, hours⟩
      · simp at h

/-- A poll leaves the PID with a child that is still there. -/
theorem own_poll
    (hown : popen.Own table) :
    (popen.poll table).2.Own (popen.poll table).1 := by
  intro hcode
  unfold Popen.poll at hcode ⊢
  split
  · rename_i code hsome
    simp [hsome] at hcode
  · rename_i hnone
    obtain ⟨p, hp, hborn, hours⟩ := hown hnone
    cases hexited : p.exited with
    | some status => simp [hnone, hp, hborn, hexited] at hcode
    | none =>
        simp only [hp, hborn, if_true, hexited]
        exact ⟨p, rfl, hborn, hours⟩

@[simp] theorem poll_pid : (popen.poll table).2.pid = popen.pid := by
  unfold Popen.poll
  split
  · rfl
  · split
    · split_ifs
      · split <;> rfl
      · rfl
    · rfl

@[simp] theorem poll_born : (popen.poll table).2.born = popen.born := by
  unfold Popen.poll
  split
  · rfl
  · split
    · split_ifs
      · split <;> rfl
      · rfl
    · rfl

/-- A return code that is known stays. -/
theorem poll_of_returncode
    {code : Int} (h : popen.returncode = some code) :
    popen.poll table = (table, popen) := by
  simp [Popen.poll, h]

end Facts

end Processes
end P4Net
