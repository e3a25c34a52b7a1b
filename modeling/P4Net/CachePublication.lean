import Mathlib.Logic.Function.Iterate
import P4Net.TransitionRuns

/-!
# Publication of compiled artifacts in the cache directory

The cache directory holds one entry for each key.  Writers stage the artifacts of one
build in a directory of their own and publish it under the directory lock, call by
call; a forced writer moves the previous entry into a backup first.  Readers look an
entry up without the lock, one file system call at a time.

* `cacheHitStep` are the calls of `_cache_hit`; `cacheHit` runs them on an entry that
  does not change, as a writer does under the lock.
* `publishStep` are the calls of `_publish_cache` and `_replace_cached_entry` on the
  entry of the writer's key.  Every call that changes the directory may raise.
* `step` interleaves any number of writers and readers.
* `Writer.Ok` says what holds between the calls of the writer that has the lock, and
  `ok_publishStep` that every call keeps it.

A symbolic link is modelled by what a call sees through it; what it points to lies
outside the cache and is not changed by it.
-/

namespace P4Net
namespace CompilerCache

open Runs

/-- A regular file of an entry: the build it came from, and its size. -/
structure Artifact where
  build : Nat
  size : Nat
deriving DecidableEq, Repr

/-- `program.json` and `program.p4info.txtpb`; `none` when there is no such regular file. -/
structure Contents where
  json : Option Artifact
  p4info : Option Artifact
deriving DecidableEq, Repr

/-- What a path leads to once symbolic links were followed. -/
inductive Object where
  | file
  | dir (contents : Contents)
deriving DecidableEq, Repr

/-- What stands under the name of a key. -/
inductive Entry where
  | missing
  | object (o : Object)
  | symlink (target : Option Object)
deriving DecidableEq, Repr

/-- The object that a call sees through the name. -/
def Entry.follow : Entry → Option Object
  | .missing => none
  | .object o => some o
  | .symlink target => target

/-- `final_dir.is_dir()`. -/
def Entry.isDir (e : Entry) : Bool :=
  match e.follow with
  | some (.dir _) => true
  | _ => false

/-- `final_dir.is_symlink()`. -/
def Entry.isSymlink : Entry → Bool
  | .symlink _ => true
  | _ => false

/-- `FileNotFoundError` and `NotADirectoryError`. -/
inductive StatError where
  | notFound
  | notDirectory
deriving DecidableEq, Repr

/-- `path.stat().st_size` of a file of the entry. -/
def Entry.statSize (e : Entry) (name : Contents → Option Artifact) : Except StatError Nat :=
  match e.follow with
  | none => .error .notFound
  | some .file => .error .notDirectory
  | some (.dir contents) =>
      match name contents with
      | none => .error .notFound
      | some artifact => .ok artifact.size

/-- `path.is_file()` of a file of the entry; both errors count as no file. -/
def Entry.isFile (e : Entry) (name : Contents → Option Artifact) : Bool :=
  match e.statSize name with
  | .ok _ => true
  | .error _ => false

/-- Where a call of `_cache_hit` stands. -/
inductive ReadPhase where
  | isDir
  | jsonIsFile
  | jsonStat
  | p4infoIsFile
  | p4infoStat
  | returned (hit : Bool)
  | raised (error : StatError)
deriving DecidableEq, Repr

/-- The next file system call of `_cache_hit`; only `FileNotFoundError` is caught. -/
def cacheHitStep (e : Entry) : ReadPhase → ReadPhase
  | .isDir => if e.isDir then .jsonIsFile else .returned false
  | .jsonIsFile => if e.isFile Contents.json then .jsonStat else .returned false
  | .jsonStat =>
      match e.statSize Contents.json with
      | .ok size => if size = 0 then .returned false else .p4infoIsFile
      | .error .notFound => .returned false
      | .error .notDirectory => .raised .notDirectory
  | .p4infoIsFile => if e.isFile Contents.p4info then .p4infoStat else .returned false
  | .p4infoStat =>
      match e.statSize Contents.p4info with
      | .ok size => .returned (0 < size)
      | .error .notFound => .returned false
      | .error .notDirectory => .raised .notDirectory
  | .returned hit => .returned hit
  | .raised error => .raised error

/-- `_cache_hit` on an entry that does not change while it runs. -/
def cacheHit (e : Entry) : Except StatError Bool :=
  match (cacheHitStep e)^[5] .isDir with
  | .returned hit => .ok hit
  | .raised error => .error error
  | _ => .ok false

/-- Both artifacts are there and not empty. -/
def Entry.Complete (e : Entry) : Prop :=
  ∃ json p4info, e.follow = some (.dir ⟨some json, some p4info⟩) ∧
    0 < json.size ∧ 0 < p4info.size

/-- The artifacts of the entry come from one build. -/
def Entry.SingleBuild (e : Entry) : Prop :=
  ∀ json p4info, e.follow = some (.dir ⟨some json, some p4info⟩) → json.build = p4info.build

/-- The artifacts of one build in its staging directory. -/
structure Staged where
  build : Nat
  jsonSize : Nat
  p4infoSize : Nat
  json_pos : 0 < jsonSize
  p4info_pos : 0 < p4infoSize

/-- The staging directory under the name of the key. -/
def Staged.entry (staged : Staged) : Entry :=
  .object (.dir ⟨some ⟨staged.build, staged.jsonSize⟩, some ⟨staged.build, staged.p4infoSize⟩⟩)

/-- The checks of `_real_compile` on the files that a successful `p4c` run left behind. -/
def stageArtifacts (build : Nat) (jsonSize p4infoSize : Option Nat) : Option Staged :=
  match jsonSize, p4infoSize with
  | some m, some n =>
      if h : 0 < m ∧ 0 < n then some ⟨build, m, n, h.1, h.2⟩ else none
  | _, _ => none

/-- The error number of an `OSError`. -/
inductive Errno where
  | eexist
  | enotempty
  | other
deriving DecidableEq, Repr

/-- How a call ended; a removal that raises may have removed some of the files. -/
inductive CallResult where
  | ok
  | raises (errno : Errno) (jsonGone p4infoGone : Bool)
deriving DecidableEq, Repr

/-- A directory tree of which a removal took some files. -/
def Entry.partlyRemoved (jsonGone p4infoGone : Bool) : Entry → Entry
  | .object (.dir contents) =>
      .object (.dir
        { json := if jsonGone then none else contents.json
          p4info := if p4infoGone then none else contents.p4info })
  | e => e

/-- How a publish ended; `unrestored` means that the restoring rename raised. -/
inductive Outcome where
  | returned
  | raised
  | unrestored
deriving DecidableEq, Repr

/-- The call that a publish makes next. -/
inductive Phase where
  | waiting
  | locked
  | removing
  | publishing
  | backing
  | moving
  | replacing
  | restoring
  | dropping (outcome : Outcome)
  | closing (outcome : Outcome)
  | done (outcome : Outcome)
deriving DecidableEq, Repr

/-- The outcome of a publish that only has to release the lock, or has released it. -/
def Phase.outcome : Phase → Option Outcome
  | .closing o | .done o => some o
  | _ => none

/-- The backup directory of a forced publish. -/
inductive Backup where
  | absent
  | empty
  | holding (previous : Entry)
deriving DecidableEq, Repr

/-- One publish.  `before` records the entry at the time the lock was taken. -/
structure Writer (Key : Type) where
  key : Key
  force : Bool
  staged : Staged
  phase : Phase := .waiting
  before : Entry := .missing
  backup : Backup := .absent
  removalFailed : Bool := false

section Publish

variable {Key : Type}

/-- What `_publish_cache` does first once it holds the lock. -/
def chooseBranch (e : Entry) (force : Bool) : Phase :=
  if force then
    if e.follow.isSome || e.isSymlink then .backing else .removing
  else
    match cacheHit e with
    | .ok true => .closing .returned
    | .ok false => .removing
    | .error _ => .closing .raised

/-- The end of a publish whose rename of the staging directory raised. -/
def renameFailed (e : Entry) (errno : Errno) : Outcome :=
  if errno = .other then .raised
  else
    match cacheHit e with
    | .ok true => .returned
    | _ => .raised

/-- The next call of the writer that holds the lock, on the entry of its key. -/
def publishStep (e : Entry) (p : Writer Key) : CallResult → Option (Entry × Writer Key)
  | .ok =>
      match p.phase with
      | .locked => some (e, { p with phase := chooseBranch e p.force })
      | .removing => some (.missing, { p with phase := .publishing })
      | .publishing =>
          if e = .missing then some (p.staged.entry, { p with phase := .closing .returned })
          else none
      | .backing => some (e, { p with phase := .moving, backup := .empty })
      | .moving => some (.missing, { p with phase := .replacing, backup := .holding e })
      | .replacing =>
          if e = .missing then some (p.staged.entry, { p with phase := .dropping .returned })
          else none
      | .restoring =>
          match p.backup with
          | .holding previous =>
              some (previous, { p with phase := .dropping .raised, backup := .empty })
          | _ => none
      | .dropping o => some (e, { p with phase := .closing o, backup := .absent })
      | .waiting | .closing _ | .done _ => none
  | .raises errno jsonGone p4infoGone =>
      match p.phase with
      | .removing =>
          some (e.partlyRemoved jsonGone p4infoGone, { p with phase := .closing .raised })
      | .publishing => some (e, { p with phase := .closing (renameFailed e errno) })
      | .backing => some (e, { p with phase := .closing .raised })
      | .moving => some (e, { p with phase := .dropping .raised })
      | .replacing => some (e, { p with phase := .restoring })
      | .restoring => some (e, { p with phase := .closing .unrestored })
      -- `ignore_errors=True`
      | .dropping o => some (e, { p with phase := .closing o, removalFailed := true })
      | .locked | .waiting | .closing _ | .done _ => none

end Publish

/-- One lookup of an entry by `compile`. -/
structure Reader (Key : Type) where
  key : Key
  phase : ReadPhase := .isDir

/-- The cache directory with everyone who works on it. -/
structure Cache (Key : Type) where
  entries : Key → Entry
  lock : Option Nat
  writers : Nat → Option (Writer Key)
  readers : Nat → Option (Reader Key)

/-- One step of a writer or a reader. -/
inductive Act (Key : Type) where
  /-- The backend of a compilation succeeded and its artifacts were staged. -/
  | stage (w : Nat) (key : Key) (force : Bool) (jsonSize p4infoSize : Option Nat)
  /-- `os.open` or `flock` raised. -/
  | refuse (w : Nat)
  /-- `flock` returned. -/
  | acquire (w : Nat)
  | call (w : Nat) (result : CallResult)
  /-- `os.close` releases the lock. -/
  | close (w : Nat)
  | lookup (r : Nat) (key : Key)
  | read (r : Nat)

/-- The writer that takes the step. -/
def Act.writer {Key : Type} : Act Key → Option Nat
  | .stage w _ _ _ _ | .refuse w | .acquire w | .call w _ | .close w => some w
  | .lookup _ _ | .read _ => none

section Steps

variable {Key : Type} [DecidableEq Key]

/-- One step; `none` when it is not enabled. -/
def step (s : Cache Key) : Act Key → Option (Cache Key)
  | .stage w key force jsonSize p4infoSize =>
      match s.writers w, stageArtifacts w jsonSize p4infoSize with
      | none, some staged =>
          some { s with
            writers := Function.update s.writers w
              (some { key := key, force := force, staged := staged }) }
      | _, _ => none
  | .refuse w =>
      match s.writers w with
      | some p =>
          if p.phase = .waiting then
            some { s with
              writers := Function.update s.writers w (some { p with phase := .done .raised }) }
          else none
      | none => none
  | .acquire w =>
      match s.writers w with
      | some p =>
          if p.phase = .waiting ∧ s.lock = none then
            some { s with
              lock := some w
              writers := Function.update s.writers w
                (some { p with phase := .locked, before := s.entries p.key }) }
          else none
      | none => none
  | .call w result =>
      match s.writers w with
      | some p =>
          if s.lock = some w then
            (publishStep (s.entries p.key) p result).map (fun q =>
              { s with
                entries := Function.update s.entries p.key q.1
                writers := Function.update s.writers w (some q.2) })
          else none
      | none => none
  | .close w =>
      match s.writers w with
      | some p =>
          match p.phase with
          | .closing o =>
              if s.lock = some w then
                some { s with
                  lock := none
                  writers := Function.update s.writers w (some { p with phase := .done o }) }
              else none
          | _ => none
      | none => none
  | .lookup r key =>
      match s.readers r with
      | none => some { s with readers := Function.update s.readers r (some { key := key }) }
      | some _ => none
  | .read r =>
      match s.readers r with
      | some reader =>
          some { s with
            readers := Function.update s.readers r
              (some { reader with phase := cacheHitStep (s.entries reader.key) reader.phase }) }
      | none => none

end Steps

/-- A lookup of an entry that does not change hits exactly when the entry is complete. -/
theorem cacheHit_eq
    (e : Entry) :
    (cacheHit e = .ok true ∧ e.Complete) ∨ (cacheHit e = .ok false ∧ ¬ e.Complete) := by
  cases hfollow : e.follow with
  | none =>
      refine .inr ⟨?_, by simp [Entry.Complete, hfollow]⟩
      simp [cacheHit, cacheHitStep, Entry.isDir, hfollow]
  | some o =>
      cases o with
      | file =>
          refine .inr ⟨?_, by simp [Entry.Complete, hfollow]⟩
          simp [cacheHit, cacheHitStep, Entry.isDir, hfollow]
      | dir contents =>
          obtain ⟨json, p4info⟩ := contents
          cases json with
          | none =>
              refine .inr ⟨?_, by simp [Entry.Complete, hfollow]⟩
              simp [cacheHit, cacheHitStep, Entry.isDir, Entry.isFile, Entry.statSize, hfollow]
          | some m =>
              cases p4info with
              | none =>
                  refine .inr ⟨?_, by simp [Entry.Complete, hfollow]⟩
                  by_cases hm : m.size = 0
                  · simp [cacheHit, cacheHitStep, Entry.isDir, Entry.isFile, Entry.statSize,
                      hfollow, hm]
                  · simp [cacheHit, cacheHitStep, Entry.isDir, Entry.isFile, Entry.statSize,
                      hfollow, hm]
              | some n =>
                  by_cases hm : m.size = 0
                  · refine .inr ⟨?_, by simp [Entry.Complete, hfollow, hm]⟩
                    simp [cacheHit, cacheHitStep, Entry.isDir, Entry.isFile, Entry.statSize,
                      hfollow, hm]
                  · by_cases hn : n.size = 0
                    · refine .inr ⟨?_, by simp [Entry.Complete, hfollow, hn]⟩
                      simp [cacheHit, cacheHitStep, Entry.isDir, Entry.isFile, Entry.statSize,
                        hfollow, hm, hn]
                    · refine .inl ⟨?_, m, n, hfollow, by omega, by omega⟩
                      simp [cacheHit, cacheHitStep, Entry.isDir, Entry.isFile, Entry.statSize,
                        hfollow, hm, Nat.pos_of_ne_zero hn]

theorem Staged.complete
    (staged : Staged) :
    staged.entry.Complete :=
  ⟨_, _, rfl, staged.json_pos, staged.p4info_pos⟩

theorem Staged.singleBuild
    (staged : Staged) :
    staged.entry.SingleBuild := by
  intro json p4info h
  simp only [Staged.entry, Entry.follow, Option.some.injEq, Object.dir.injEq,
    Contents.mk.injEq] at h
  rw [← h.1, ← h.2]

theorem not_complete_missing : ¬ Entry.missing.Complete := by
  simp [Entry.Complete, Entry.follow]

/-- Removing files does not complete an entry. -/
theorem complete_of_partlyRemoved
    {e : Entry} {jsonGone p4infoGone : Bool}
    (h : (e.partlyRemoved jsonGone p4infoGone).Complete) :
    e.Complete := by
  obtain ⟨json, p4info, hfollow, hjson, hp4info⟩ := h
  cases e with
  | missing => exact ⟨json, p4info, hfollow, hjson, hp4info⟩
  | symlink target => exact ⟨json, p4info, hfollow, hjson, hp4info⟩
  | object o =>
      cases o with
      | file => exact ⟨json, p4info, hfollow, hjson, hp4info⟩
      | dir contents =>
          obtain ⟨m, n⟩ := contents
          refine ⟨json, p4info, ?_, hjson, hp4info⟩
          cases jsonGone <;> cases p4infoGone <;>
            simp_all [Entry.partlyRemoved, Entry.follow]

section Local

variable {Key : Type}

/-- What holds once a publish has only to release the lock. -/
structure Writer.Ending (e : Entry) (p : Writer Key) (o : Outcome) : Prop where
  kept : o ≠ .unrestored → p.before.Complete → e.Complete
  restored : p.force = true → o = .raised → e = p.before
  tidy : o ≠ .unrestored → p.removalFailed = false → p.backup = .absent

/-- What holds before each call of the writer that has the lock, of the entry of its key. -/
def Writer.Ok (e : Entry) (p : Writer Key) : Prop :=
  match p.phase with
  | .waiting => p.backup = .absent
  | .locked => e = p.before ∧ p.backup = .absent
  | .removing =>
      p.backup = .absent ∧ ¬ e.Complete ∧ ¬ p.before.Complete ∧
        (p.force = true → e = .missing ∧ p.before = .missing)
  | .publishing =>
      p.backup = .absent ∧ e = .missing ∧ ¬ p.before.Complete ∧
        (p.force = true → p.before = .missing)
  | .backing => p.force = true ∧ e = p.before ∧ p.backup = .absent
  | .moving => p.force = true ∧ e = p.before ∧ p.backup = .empty
  | .replacing | .restoring => p.force = true ∧ e = .missing ∧ p.backup = .holding p.before
  | .dropping .returned => p.force = true ∧ e = p.staged.entry
  | .dropping .raised => p.force = true ∧ e = p.before
  | .dropping .unrestored => False
  | .closing o => p.Ending e o
  | .done o => o ≠ .unrestored → p.removalFailed = false → p.backup = .absent

/-- The branch that a publish takes is prepared by the entry it found. -/
theorem ok_chooseBranch
    {e : Entry} {p : Writer Key}
    (hbefore : e = p.before) (hbackup : p.backup = .absent) :
    Writer.Ok e { p with phase := chooseBranch e p.force } := by
  cases hforce : p.force with
  | true =>
      by_cases hexists : (e.follow.isSome || e.isSymlink) = true
      · simp only [chooseBranch, if_true, hexists]
        exact ⟨rfl, hbefore, hbackup⟩
      · have hmissing : e = .missing := by
          cases e <;> simp_all [Entry.follow, Entry.isSymlink]
        simp only [chooseBranch, if_true, hexists]
        refine ⟨hbackup, ?_, ?_, fun _ => ⟨hmissing, hbefore ▸ hmissing⟩⟩
        · rw [hmissing]
          exact not_complete_missing
        · rw [← hbefore, hmissing]
          exact not_complete_missing
  | false =>
      rcases cacheHit_eq e with ⟨hhit, hcomplete⟩ | ⟨hmiss, hincomplete⟩
      · simp only [chooseBranch, hhit]
        exact ⟨fun _ _ => hcomplete, nofun, fun _ _ => hbackup⟩
      · simp only [chooseBranch, hmiss]
        exact ⟨hbackup, hincomplete, hbefore ▸ hincomplete, nofun⟩

/-- Under the lock the entry is still missing when the staging directory was not renamed. -/
theorem renameFailed_missing
    (errno : Errno) :
    renameFailed .missing errno = .raised := by
  cases errno <;> rfl

/-- A call that succeeds prepares the next one. -/
theorem ok_publishStep_ok
    {e e' : Entry} {p p' : Writer Key}
    (hok : p.Ok e) (h : publishStep e p .ok = some (e', p')) :
    p'.Ok e' := by
  cases hphase : p.phase with
  | waiting => simp [publishStep, hphase] at h
  | locked =>
      simp only [publishStep, hphase, Option.some.injEq, Prod.mk.injEq] at h
      obtain ⟨rfl, rfl⟩ := h
      simp only [Writer.Ok, hphase] at hok
      exact ok_chooseBranch hok.1 hok.2
  | removing =>
      simp only [publishStep, hphase, Option.some.injEq, Prod.mk.injEq] at h
      obtain ⟨rfl, rfl⟩ := h
      simp only [Writer.Ok, hphase] at hok
      exact ⟨hok.1, rfl, hok.2.2.1, fun hforce => (hok.2.2.2 hforce).2⟩
  | publishing =>
      simp only [Writer.Ok, hphase] at hok
      simp only [publishStep, hphase, hok.2.1, if_true, Option.some.injEq,
        Prod.mk.injEq] at h
      obtain ⟨rfl, rfl⟩ := h
      exact ⟨fun _ _ => p.staged.complete, nofun, fun _ _ => hok.1⟩
  | backing =>
      simp only [publishStep, hphase, Option.some.injEq, Prod.mk.injEq] at h
      obtain ⟨rfl, rfl⟩ := h
      simp only [Writer.Ok, hphase] at hok
      exact ⟨hok.1, hok.2.1, rfl⟩
  | moving =>
      simp only [publishStep, hphase, Option.some.injEq, Prod.mk.injEq] at h
      obtain ⟨rfl, rfl⟩ := h
      simp only [Writer.Ok, hphase] at hok
      exact ⟨hok.1, rfl, congrArg Backup.holding hok.2.1⟩
  | replacing =>
      simp only [Writer.Ok, hphase] at hok
      simp only [publishStep, hphase, hok.2.1, if_true, Option.some.injEq,
        Prod.mk.injEq] at h
      obtain ⟨rfl, rfl⟩ := h
      exact ⟨hok.1, rfl⟩
  | restoring =>
      simp only [Writer.Ok, hphase] at hok
      simp only [publishStep, hphase, hok.2.2, Option.some.injEq, Prod.mk.injEq] at h
      obtain ⟨rfl, rfl⟩ := h
      exact ⟨hok.1, rfl⟩
  | dropping o =>
      simp only [publishStep, hphase, Option.some.injEq, Prod.mk.injEq] at h
      obtain ⟨rfl, rfl⟩ := h
      cases o with
      | returned =>
          simp only [Writer.Ok, hphase] at hok
          refine ⟨fun _ _ => ?_, nofun, fun _ _ => rfl⟩
          rw [hok.2]
          exact p.staged.complete
      | raised =>
          simp only [Writer.Ok, hphase] at hok
          exact ⟨fun _ hcomplete => hok.2 ▸ hcomplete, fun _ _ => hok.2, fun _ _ => rfl⟩
      | unrestored => simp [Writer.Ok, hphase] at hok
  | closing o => simp [publishStep, hphase] at h
  | done o => simp [publishStep, hphase] at h

/-- A call that raises leads to the release of the lock, or to a restoring rename. -/
theorem ok_publishStep_raises
    {e e' : Entry} {p p' : Writer Key} {errno : Errno} {jsonGone p4infoGone : Bool}
    (hok : p.Ok e)
    (h : publishStep e p (.raises errno jsonGone p4infoGone) = some (e', p')) :
    p'.Ok e' := by
  cases hphase : p.phase with
  | waiting => simp [publishStep, hphase] at h
  | locked => simp [publishStep, hphase] at h
  | removing =>
      simp only [publishStep, hphase, Option.some.injEq, Prod.mk.injEq] at h
      obtain ⟨rfl, rfl⟩ := h
      simp only [Writer.Ok, hphase] at hok
      refine ⟨fun _ hcomplete => absurd hcomplete hok.2.2.1, fun hforce _ => ?_,
        fun _ _ => hok.1⟩
      obtain ⟨hmissing, hbefore⟩ := hok.2.2.2 hforce
      rw [hmissing]
      exact hbefore.symm
  | publishing =>
      simp only [Writer.Ok, hphase] at hok
      simp only [publishStep, hphase, hok.2.1, renameFailed_missing, Option.some.injEq,
        Prod.mk.injEq] at h
      obtain ⟨rfl, rfl⟩ := h
      exact ⟨fun _ hcomplete => absurd hcomplete hok.2.2.1,
        fun hforce _ => (hok.2.2.2 hforce).symm, fun _ _ => hok.1⟩
  | backing =>
      simp only [publishStep, hphase, Option.some.injEq, Prod.mk.injEq] at h
      obtain ⟨rfl, rfl⟩ := h
      simp only [Writer.Ok, hphase] at hok
      exact ⟨fun _ hcomplete => hok.2.1 ▸ hcomplete, fun _ _ => hok.2.1,
        fun _ _ => hok.2.2⟩
  | moving =>
      simp only [publishStep, hphase, Option.some.injEq, Prod.mk.injEq] at h
      obtain ⟨rfl, rfl⟩ := h
      simp only [Writer.Ok, hphase] at hok
      exact ⟨hok.1, hok.2.1⟩
  | replacing =>
      simp only [publishStep, hphase, Option.some.injEq, Prod.mk.injEq] at h
      obtain ⟨rfl, rfl⟩ := h
      simp only [Writer.Ok, hphase] at hok
      exact hok
  | restoring =>
      simp only [publishStep, hphase, Option.some.injEq, Prod.mk.injEq] at h
      obtain ⟨rfl, rfl⟩ := h
      exact ⟨fun hne => absurd rfl hne, nofun, fun hne => absurd rfl hne⟩
  | dropping o =>
      simp only [publishStep, hphase, Option.some.injEq, Prod.mk.injEq] at h
      obtain ⟨rfl, rfl⟩ := h
      cases o with
      | returned =>
          simp only [Writer.Ok, hphase] at hok
          refine ⟨fun _ _ => ?_, nofun, nofun⟩
          rw [hok.2]
          exact p.staged.complete
      | raised =>
          simp only [Writer.Ok, hphase] at hok
          exact ⟨fun _ hcomplete => hok.2 ▸ hcomplete, fun _ _ => hok.2, nofun⟩
      | unrestored => simp [Writer.Ok, hphase] at hok
  | closing o => simp [publishStep, hphase] at h
  | done o => simp [publishStep, hphase] at h

/-- Every call of the writer that has the lock prepares its next one. -/
theorem ok_publishStep
    {e e' : Entry} {p p' : Writer Key} {result : CallResult}
    (hok : p.Ok e) (h : publishStep e p result = some (e', p')) :
    p'.Ok e' := by
  cases result with
  | ok => exact ok_publishStep_ok hok h
  | raises errno jsonGone p4infoGone => exact ok_publishStep_raises hok h

end Local

end CompilerCache
end P4Net
