import P4Net.CachePublication

/-!
# Safety of cache publication

What holds in every state of the cache directory, whatever the order of the steps of
the writers and the readers and whichever calls raise.

* `entry_publishStep` lists what one call can do to the entry of its writer.
* `Inv` collects the state of every publish and the origin of every entry;
  `inv_of_run` carries it over whole runs.
* `Kept` is an entry that is complete, or moved into the backup of the writer that has
  the lock; only a restoring rename that raises can lose it.
* `NeverFile` is a name under which no regular file can appear any more, which is what
  a lookup relies on between its calls.
* `publication_safe` collects the guarantees.
-/

namespace P4Net
namespace CompilerCache

open Runs

section Local

variable {Key : Type}

/-- The previous entry is in the backup directory. -/
def Writer.Moved (p : Writer Key) : Prop :=
  p.phase = .replacing ∨ p.phase = .restoring

/-- The writer is not between taking and releasing the lock. -/
def Writer.Idle (p : Writer Key) : Prop :=
  p.phase = .waiting ∨ ∃ o, p.phase = .done o

/-- What a publish is about does not change while it runs. -/
theorem publishStep_constant
    {e e' : Entry} {p p' : Writer Key} {result : CallResult}
    (h : publishStep e p result = some (e', p')) :
    p'.key = p.key ∧ p'.force = p.force ∧ p'.before = p.before := by
  cases result <;> cases hphase : p.phase <;> simp only [publishStep, hphase] at h <;> grind

/-- What one call can do to the entry. -/
theorem entry_publishStep
    {e e' : Entry} {p p' : Writer Key} {result : CallResult}
    (hok : p.Ok e) (h : publishStep e p result = some (e', p')) :
    e' = e ∨
    (¬ e.Complete ∧
      (e' = .missing ∨ e' = p.staged.entry ∨ ∃ a b, e' = e.partlyRemoved a b)) ∨
    (p.force = true ∧ e = p.before ∧ e' = .missing ∧ p'.Moved) ∨
    (p.force = true ∧ e = .missing ∧ e' = p.staged.entry) ∨
    (p.force = true ∧ e = .missing ∧ e' = p.before ∧ p.Moved) := by
  cases result with
  | ok =>
      cases hphase : p.phase with
      | waiting => simp [publishStep, hphase] at h
      | locked =>
          simp only [publishStep, hphase, Option.some.injEq, Prod.mk.injEq] at h
          exact .inl h.1.symm
      | removing =>
          simp only [publishStep, hphase, Option.some.injEq, Prod.mk.injEq] at h
          simp only [Writer.Ok, hphase] at hok
          exact .inr (.inl ⟨hok.2.1, .inl h.1.symm⟩)
      | publishing =>
          simp only [Writer.Ok, hphase] at hok
          simp only [publishStep, hphase, hok.2.1, if_true, Option.some.injEq,
            Prod.mk.injEq] at h
          have hincomplete : ¬ e.Complete := by
            rw [hok.2.1]
            exact not_complete_missing
          exact .inr (.inl ⟨hincomplete, .inr (.inl h.1.symm)⟩)
      | backing =>
          simp only [publishStep, hphase, Option.some.injEq, Prod.mk.injEq] at h
          exact .inl h.1.symm
      | moving =>
          simp only [publishStep, hphase, Option.some.injEq, Prod.mk.injEq] at h
          obtain ⟨rfl, rfl⟩ := h
          simp only [Writer.Ok, hphase] at hok
          exact .inr (.inr (.inl ⟨hok.1, hok.2.1, rfl, .inl rfl⟩))
      | replacing =>
          simp only [Writer.Ok, hphase] at hok
          simp only [publishStep, hphase, hok.2.1, if_true, Option.some.injEq,
            Prod.mk.injEq] at h
          exact .inr (.inr (.inr (.inl ⟨hok.1, hok.2.1, h.1.symm⟩)))
      | restoring =>
          simp only [Writer.Ok, hphase] at hok
          simp only [publishStep, hphase, hok.2.2, Option.some.injEq, Prod.mk.injEq] at h
          exact .inr (.inr (.inr (.inr ⟨hok.1, hok.2.1, h.1.symm, .inr hphase⟩)))
      | dropping o =>
          simp only [publishStep, hphase, Option.some.injEq, Prod.mk.injEq] at h
          exact .inl h.1.symm
      | closing o => simp [publishStep, hphase] at h
      | done o => simp [publishStep, hphase] at h
  | raises errno jsonGone p4infoGone =>
      cases hphase : p.phase with
      | removing =>
          simp only [publishStep, hphase, Option.some.injEq, Prod.mk.injEq] at h
          simp only [Writer.Ok, hphase] at hok
          exact .inr (.inl ⟨hok.2.1, .inr (.inr ⟨_, _, h.1.symm⟩)⟩)
      | waiting => simp [publishStep, hphase] at h
      | locked => simp [publishStep, hphase] at h
      | closing o => simp [publishStep, hphase] at h
      | done o => simp [publishStep, hphase] at h
      | publishing | backing | moving | replacing | restoring | dropping o =>
          simp only [publishStep, hphase, Option.some.injEq, Prod.mk.injEq] at h
          exact .inl h.1.symm

/-- An entry in the backup comes back unless the restoring rename raises. -/
theorem moved_publishStep
    {e e' : Entry} {p p' : Writer Key} {result : CallResult}
    (hok : p.Ok e) (hmoved : p.Moved) (hcomplete : p.before.Complete)
    (hrestores : p.phase = .restoring → result = .ok)
    (h : publishStep e p result = some (e', p')) :
    e'.Complete ∨ p'.Moved := by
  cases hmoved with
  | inl hphase =>
      simp only [Writer.Ok, hphase] at hok
      cases result with
      | ok =>
          simp only [publishStep, hphase, hok.2.1, if_true, Option.some.injEq,
            Prod.mk.injEq] at h
          exact .inl (h.1 ▸ p.staged.complete)
      | raises errno jsonGone p4infoGone =>
          simp only [publishStep, hphase, Option.some.injEq, Prod.mk.injEq] at h
          exact .inr (.inr (h.2 ▸ rfl))
  | inr hphase =>
      simp only [Writer.Ok, hphase] at hok
      rw [hrestores hphase] at h
      simp only [publishStep, hphase, hok.2.2, Option.some.injEq, Prod.mk.injEq] at h
      exact .inl (h.1 ▸ hcomplete)

/-- The state of an idle publish does not depend on the entry. -/
theorem ok_of_idle
    {e e' : Entry} {p : Writer Key}
    (hidle : p.Idle) (hok : p.Ok e) :
    p.Ok e' := by
  cases hidle with
  | inl hphase => simpa only [Writer.Ok, hphase] using hok
  | inr hdone =>
      obtain ⟨o, hphase⟩ := hdone
      simpa only [Writer.Ok, hphase] using hok

/-- Where every publish stands, and the origin of every complete entry. -/
structure Inv (s : Cache Key) : Prop where
  ok : ∀ w p, s.writers w = some p → p.Ok (s.entries p.key)
  idle : ∀ w p, s.writers w = some p → s.lock ≠ some w → p.Idle
  single : ∀ k, (s.entries k).Complete → (s.entries k).SingleBuild
  before : ∀ w p, s.writers w = some p → p.before.Complete → p.before.SingleBuild

/-- A step that only changes the record of one publish. -/
theorem Inv.writer
    {s : Cache Key} {w : Nat} {p' : Writer Key} {lock : Option Nat}
    {readers : Nat → Option (Reader Key)}
    (hs : Inv s)
    (hok : p'.Ok (s.entries p'.key))
    (hidle : lock ≠ some w → p'.Idle)
    (hbefore : p'.before.Complete → p'.before.SingleBuild)
    (hlock : ∀ v, v ≠ w → lock ≠ some v → s.lock ≠ some v) :
    Inv { entries := s.entries, lock := lock
          writers := Function.update s.writers w (some p'), readers := readers } := by
  constructor
  case single => exact hs.single
  all_goals
    intro v p hp
    by_cases hv : v = w
  · obtain rfl : p' = p := by simpa [hv] using hp
    exact hok
  · exact hs.ok v p (by simpa [hv] using hp)
  · obtain rfl : p' = p := by simpa [hv] using hp
    exact fun hne => hidle (hv ▸ hne)
  · exact fun hne => hs.idle v p (by simpa [hv] using hp) (hlock v hv hne)
  · obtain rfl : p' = p := by simpa [hv] using hp
    exact hbefore
  · exact hs.before v p (by simpa [hv] using hp)

/-- A call leaves complete entries that come from one build. -/
theorem single_publishStep
    {e e' : Entry} {p p' : Writer Key} {result : CallResult}
    (hok : p.Ok e) (h : publishStep e p result = some (e', p'))
    (hsingle : e.Complete → e.SingleBuild)
    (hbefore : p.before.Complete → p.before.SingleBuild)
    (hcomplete : e'.Complete) :
    e'.SingleBuild := by
  rcases entry_publishStep hok h with rfl | ⟨hnot, rfl | rfl | ⟨a, b, rfl⟩⟩ |
    ⟨-, -, rfl, -⟩ | ⟨-, -, rfl⟩ | ⟨-, -, rfl, -⟩
  · exact hsingle hcomplete
  · exact absurd hcomplete not_complete_missing
  · exact p.staged.singleBuild
  · exact absurd (complete_of_partlyRemoved hcomplete) hnot
  · exact absurd hcomplete not_complete_missing
  · exact p.staged.singleBuild
  · exact hbefore hcomplete

/-- The steps around the calls of a publish: the new holder of the lock, and the new
record of the writer. -/
inductive Around (s : Cache Key) (w : Nat) : Option Nat → Writer Key → Prop
  | stage (key : Key) (force : Bool) (staged : Staged) :
      s.writers w = none →
      Around s w s.lock { key := key, force := force, staged := staged }
  | refuse (p : Writer Key) :
      s.writers w = some p → p.phase = .waiting →
      Around s w s.lock { p with phase := .done .raised }
  | acquire (p : Writer Key) :
      s.writers w = some p → p.phase = .waiting → s.lock = none →
      Around s w (some w) { p with phase := .locked, before := s.entries p.key }
  | close (p : Writer Key) (o : Outcome) :
      s.writers w = some p → p.phase = .closing o → s.lock = some w →
      Around s w none { p with phase := .done o }

theorem inv_around
    {s : Cache Key} {w : Nat} {lock : Option Nat} {p' : Writer Key}
    {readers : Nat → Option (Reader Key)}
    (hs : Inv s) (h : Around s w lock p') :
    Inv { entries := s.entries, lock := lock
          writers := Function.update s.writers w (some p'), readers := readers } := by
  cases h with
  | stage key force staged hp =>
      exact hs.writer rfl (fun _ => .inl rfl)
        (fun hcomplete => absurd hcomplete not_complete_missing) (fun _ _ hne => hne)
  | refuse p hp hphase =>
      have hok := hs.ok w p hp
      simp only [Writer.Ok, hphase] at hok
      exact hs.writer (fun _ _ => hok) (fun _ => .inr ⟨.raised, rfl⟩) (hs.before w p hp)
        (fun _ _ hne => hne)
  | acquire p hp hphase hlock =>
      have hok := hs.ok w p hp
      simp only [Writer.Ok, hphase] at hok
      refine hs.writer ⟨rfl, hok⟩ (fun hne => absurd rfl hne) (hs.single p.key) ?_
      intro v _ _
      simp [hlock]
  | close p o hp hphase hlock =>
      have hok := hs.ok w p hp
      simp only [Writer.Ok, hphase] at hok
      refine hs.writer hok.tidy (fun _ => .inr ⟨_, rfl⟩) (hs.before w p hp) ?_
      intro v hv _
      rw [hlock]
      exact fun heq => hv (Option.some.inj heq).symm

/-- A complete entry is in its place, or in the backup of the writer that has the lock. -/
def Kept (k : Key) (s : Cache Key) : Prop :=
  (s.entries k).Complete ∨
    ∃ w p, s.lock = some w ∧ s.writers w = some p ∧ p.key = k ∧ p.Moved ∧ p.before.Complete

/-- With the lock free, a kept entry is in its place. -/
theorem complete_of_kept
    {s : Cache Key} {k : Key}
    (hkept : Kept k s) (hlock : s.lock = none) :
    (s.entries k).Complete := by
  rcases hkept with hcomplete | ⟨w, p, hw, -⟩
  · exact hcomplete
  · rw [hlock] at hw
    exact absurd hw (by simp)

/-- An entry gets into the backup from its place only. -/
theorem moved_of_publishStep
    {e e' : Entry} {p p' : Writer Key} {result : CallResult}
    (hok : p.Ok e) (h : publishStep e p result = some (e', p')) (hmoved : p'.Moved) :
    p.Moved ∨ e = p.before := by
  by_cases hphase : p.phase = .moving
  · simp only [Writer.Ok, hphase] at hok
    exact .inr hok.2.1
  · refine .inl ?_
    cases result <;> cases hp : p.phase <;>
      simp only [publishStep, hp, chooseBranch, Writer.Moved] at h hmoved ⊢ <;> grind

/-- A step around the calls puts no entry into a backup. -/
theorem around_moved
    {s : Cache Key} {w v : Nat} {lock : Option Nat} {p' q : Writer Key} {k : Key}
    (h : Around s w lock p')
    (hbackup : ∀ w p, s.lock = some w → s.writers w = some p → p.key = k → p.Moved →
      p.before.follow ≠ some .file)
    (hv : lock = some v) (hq : Function.update s.writers w (some p') v = some q)
    (hk : q.key = k) (hmoved : q.Moved) :
    q.before.follow ≠ some .file := by
  by_cases hvw : v = w
  · obtain rfl : p' = q := by simpa [hvw] using hq
    cases h <;> cases hmoved <;> contradiction
  · refine hbackup v q ?_ (by simpa [hvw] using hq) hk hmoved
    cases h with
    | stage key force staged hp => exact hv
    | refuse p hp hphase => exact hv
    | acquire p hp hphase hlock => exact absurd (Option.some.inj hv).symm hvw
    | close p o hp hphase hlock => exact absurd hv (by simp)

/-- No regular file stands under the name, or can come back from a backup. -/
def NeverFile (k : Key) (s : Cache Key) : Prop :=
  (s.entries k).follow ≠ some .file ∧
    ∀ w p, s.lock = some w → s.writers w = some p → p.key = k → p.Moved →
      p.before.follow ≠ some .file

theorem follow_partlyRemoved
    {e : Entry} {jsonGone p4infoGone : Bool}
    (h : e.follow ≠ some .file) :
    (e.partlyRemoved jsonGone p4infoGone).follow ≠ some .file := by
  cases e with
  | missing => exact h
  | symlink target => exact h
  | object o => cases o <;> simp_all [Entry.partlyRemoved, Entry.follow]

/-- Where a lookup stands; after its first call no regular file can get in its way. -/
def ReaderOk (s : Cache Key) (reader : Reader Key) : Prop :=
  match reader.phase with
  | .isDir | .returned _ => True
  | .jsonIsFile | .jsonStat | .p4infoIsFile | .p4infoStat => NeverFile reader.key s
  | .raised _ => False

theorem statSize_ne_notDirectory
    {e : Entry}
    (h : e.follow ≠ some .file) (name : Contents → Option Artifact) :
    e.statSize name ≠ .error .notDirectory := by
  unfold Entry.statSize
  cases hfollow : e.follow with
  | none => simp
  | some o =>
      cases o with
      | file => exact absurd hfollow h
      | dir contents => cases hname : name contents <;> simp [hname]

/-- A name that leads to a directory now leads to no regular file later. -/
theorem neverFile_of_isDir
    {s : Cache Key} {k : Key}
    (hs : Inv s) (h : (s.entries k).isDir = true) :
    NeverFile k s := by
  refine ⟨fun hfile => by simp [Entry.isDir, hfile] at h, ?_⟩
  intro w p hlock hp hk hmoved
  -- an entry in the backup leaves its name without an entry
  have hok := hs.ok w p hp
  have hmissing : s.entries p.key = .missing := by
    cases hmoved with
    | inl hphase => simp only [Writer.Ok, hphase] at hok; exact hok.2.1
    | inr hphase => simp only [Writer.Ok, hphase] at hok; exact hok.2.1
  rw [← hk, hmissing] at h
  simp [Entry.isDir, Entry.follow] at h

/-- The next call of a lookup does not raise. -/
theorem readerOk_read
    {s : Cache Key} {reader : Reader Key}
    (hs : Inv s) (hok : ReaderOk s reader) :
    ReaderOk s { reader with phase := cacheHitStep (s.entries reader.key) reader.phase } := by
  cases hphase : reader.phase with
  | isDir =>
      by_cases hdir : (s.entries reader.key).isDir = true
      · simp only [cacheHitStep, hdir, if_true]
        exact neverFile_of_isDir hs hdir
      · simp only [cacheHitStep, hdir]
        exact True.intro
  | jsonIsFile =>
      simp only [ReaderOk, hphase] at hok
      simp only [cacheHitStep]
      split_ifs
      · exact hok
      · exact True.intro
  | p4infoIsFile =>
      simp only [ReaderOk, hphase] at hok
      simp only [cacheHitStep]
      split_ifs
      · exact hok
      · exact True.intro
  | jsonStat =>
      simp only [ReaderOk, hphase] at hok
      have hstat := statSize_ne_notDirectory hok.1 Contents.json
      cases hsize : (s.entries reader.key).statSize Contents.json with
      | ok size =>
          simp only [cacheHitStep, hsize]
          split_ifs
          · exact True.intro
          · exact hok
      | error error =>
          cases error with
          | notFound => simp only [cacheHitStep, hsize]; exact True.intro
          | notDirectory => exact absurd hsize hstat
  | p4infoStat =>
      simp only [ReaderOk, hphase] at hok
      have hstat := statSize_ne_notDirectory hok.1 Contents.p4info
      cases hsize : (s.entries reader.key).statSize Contents.p4info with
      | ok size => simp only [cacheHitStep, hsize]; exact True.intro
      | error error =>
          cases error with
          | notFound => simp only [cacheHitStep, hsize]; exact True.intro
          | notDirectory => exact absurd hsize hstat
  | returned hit => exact True.intro
  | raised error => simp [ReaderOk, hphase] at hok

theorem readerOk_mono
    {s t : Cache Key} {reader : Reader Key}
    (h : NeverFile reader.key s → NeverFile reader.key t) (hok : ReaderOk s reader) :
    ReaderOk t reader := by
  unfold ReaderOk at hok ⊢
  cases hphase : reader.phase <;> simp only [hphase] at hok ⊢
  all_goals exact h hok

/-- Nobody works on the cache yet, and its complete entries come from one build each. -/
structure Fresh (s : Cache Key) : Prop where
  lock : s.lock = none
  writers : ∀ w, s.writers w = none
  readers : ∀ r, s.readers r = none
  single : ∀ k, (s.entries k).Complete → (s.entries k).SingleBuild

theorem inv_of_fresh
    {s : Cache Key}
    (h : Fresh s) :
    Inv s := by
  constructor
  case single => exact h.single
  all_goals
    intro w p hp
    rw [h.writers w] at hp
    exact absurd hp (by simp)

end Local

section Runs

variable {Key : Type} [DecidableEq Key]

/-- A call is made by the writer that has the lock, on the entry of its key. -/
theorem step_call
    {s t : Cache Key} {w : Nat} {result : CallResult}
    (h : step s (.call w result) = some t) :
    ∃ p e' p', s.writers w = some p ∧ s.lock = some w ∧
      publishStep (s.entries p.key) p result = some (e', p') ∧
      t = { s with
        entries := Function.update s.entries p.key e'
        writers := Function.update s.writers w (some p') } := by
  cases hp : s.writers w with
  | none => simp [step, hp] at h
  | some p =>
      simp only [step, hp] at h
      split_ifs at h with hlock
      obtain ⟨q, hq, rfl⟩ := Option.map_eq_some_iff.mp h
      exact ⟨p, q.1, q.2, rfl, hlock, hq, rfl⟩

/-- Every other step leaves the entries alone and changes at most one record. -/
theorem step_other
    {s t : Cache Key} {act : Act Key}
    (hact : ∀ w result, act ≠ .call w result)
    (h : step s act = some t) :
    t.entries = s.entries ∧
      ((t.lock = s.lock ∧ t.writers = s.writers) ∨
        ∃ w p', Around s w t.lock p' ∧ t.writers = Function.update s.writers w (some p')) := by
  cases act with
  | call w result => exact absurd rfl (hact w result)
  | stage w key force jsonSize p4infoSize =>
      cases hp : s.writers w with
      | some p => simp [step, hp] at h
      | none =>
          cases hstaged : stageArtifacts w jsonSize p4infoSize with
          | none => simp [step, hp, hstaged] at h
          | some staged =>
              simp only [step, hp, hstaged, Option.some.injEq] at h
              obtain rfl := h
              exact ⟨rfl, .inr ⟨w, _, .stage key force staged hp, rfl⟩⟩
  | refuse w =>
      cases hp : s.writers w with
      | none => simp [step, hp] at h
      | some p =>
          simp only [step, hp] at h
          split_ifs at h with hphase
          obtain rfl := Option.some.inj h
          exact ⟨rfl, .inr ⟨w, _, .refuse p hp hphase, rfl⟩⟩
  | acquire w =>
      cases hp : s.writers w with
      | none => simp [step, hp] at h
      | some p =>
          simp only [step, hp] at h
          split_ifs at h with henabled
          obtain rfl := Option.some.inj h
          exact ⟨rfl, .inr ⟨w, _, .acquire p hp henabled.1 henabled.2, rfl⟩⟩
  | close w =>
      cases hp : s.writers w with
      | none => simp [step, hp] at h
      | some p =>
          cases hphase : p.phase with
          | closing o =>
              simp only [step, hp, hphase] at h
              split_ifs at h with hlock
              obtain rfl := Option.some.inj h
              exact ⟨rfl, .inr ⟨w, _, .close p o hp hphase hlock, rfl⟩⟩
          | _ => simp [step, hp, hphase] at h
  | lookup r key =>
      cases hr : s.readers r with
      | some reader => simp [step, hr] at h
      | none =>
          simp only [step, hr, Option.some.injEq] at h
          obtain rfl := h
          exact ⟨rfl, .inl ⟨rfl, rfl⟩⟩
  | read r =>
      cases hr : s.readers r with
      | none => simp [step, hr] at h
      | some reader =>
          simp only [step, hr, Option.some.injEq] at h
          obtain rfl := h
          exact ⟨rfl, .inl ⟨rfl, rfl⟩⟩

theorem inv_call
    {s t : Cache Key} {w : Nat} {result : CallResult}
    (hs : Inv s) (h : step s (.call w result) = some t) :
    Inv t := by
  obtain ⟨p, e', p', hp, hlock, hstep, rfl⟩ := step_call h
  obtain ⟨hkey, -, hbefore⟩ := publishStep_constant hstep
  have hok' := ok_publishStep (hs.ok w p hp) hstep
  constructor
  case ok =>
    intro v q hq
    by_cases hv : v = w
    · obtain rfl : p' = q := by simpa [hv] using hq
      simpa [hkey] using hok'
    · -- everyone else is idle, so the entry does not matter
      have hq' : s.writers v = some q := by simpa [hv] using hq
      have hne : s.lock ≠ some v := by
        rw [hlock]
        exact fun heq => hv (Option.some.inj heq).symm
      exact ok_of_idle (hs.idle v q hq' hne) (hs.ok v q hq')
  case idle =>
    intro v q hq hne
    have hv : v ≠ w := fun heq => hne (heq ▸ hlock)
    exact hs.idle v q (by simpa [hv] using hq) hne
  case single =>
    intro k hk
    by_cases hkp : k = p.key
    · subst hkp
      simp only [Function.update_self] at hk ⊢
      exact single_publishStep (hs.ok w p hp) hstep (hs.single p.key) (hs.before w p hp) hk
    · simp only [Function.update_of_ne hkp] at hk ⊢
      exact hs.single k hk
  case before =>
    intro v q hq
    by_cases hv : v = w
    · obtain rfl : p' = q := by simpa [hv] using hq
      rw [hbefore]
      exact hs.before w p hp
    · exact hs.before v q (by simpa [hv] using hq)

/-- Every step keeps the invariant. -/
theorem inv_step
    {s t : Cache Key} {act : Act Key}
    (hs : Inv s) (h : step s act = some t) :
    Inv t := by
  by_cases hact : ∃ w result, act = .call w result
  · obtain ⟨w, result, rfl⟩ := hact
    exact inv_call hs h
  · obtain ⟨entries, lock, writers, readers⟩ := t
    have hother : ∀ w result, act ≠ .call w result :=
      fun w result heq => hact ⟨w, result, heq⟩
    obtain ⟨rfl, ⟨rfl, rfl⟩ | ⟨w, p', haround, rfl⟩⟩ := step_other hother h
    · exact ⟨hs.ok, hs.idle, hs.single, hs.before⟩
    · exact inv_around hs haround

theorem inv_of_run
    {start s : Cache Key}
    (hstart : Inv start) (h : Reaches step anyStep start s) :
    Inv s :=
  h.invariant hstart (fun _ _ _ hu _ hstep => inv_step hu hstep)

/-- The step is not a restoring rename of the entry that raises. -/
def Restores (k : Key) (s : Cache Key) (act : Act Key) : Prop :=
  ∀ w result p, act = .call w result → s.writers w = some p → p.key = k →
    p.phase = .restoring → result = .ok

theorem kept_call
    {s t : Cache Key} {k : Key} {w : Nat} {result : CallResult}
    (hs : Inv s) (hkept : Kept k s) (hrestores : Restores k s (.call w result))
    (h : step s (.call w result) = some t) :
    Kept k t := by
  obtain ⟨p, e', p', hp, hlock, hstep, rfl⟩ := step_call h
  obtain ⟨hkey, -, hbefore⟩ := publishStep_constant hstep
  by_cases hk : p.key = k
  · subst hk
    -- what the call does to an entry in its place, and to one in the backup
    have hresult : e'.Complete ∨ (p'.Moved ∧ p'.before.Complete) := by
      rcases hkept with hcomplete | ⟨v, q, hv, hq, -, hmoved, hcomplete⟩
      · rcases entry_publishStep (hs.ok w p hp) hstep with rfl | ⟨hnot, -⟩ |
          ⟨-, heq, -, hmoved⟩ | ⟨-, -, rfl⟩ | ⟨-, hmissing, -⟩
        · exact .inl hcomplete
        · exact absurd hcomplete hnot
        · exact .inr ⟨hmoved, hbefore ▸ heq ▸ hcomplete⟩
        · exact .inl p.staged.complete
        · exact absurd (hmissing ▸ hcomplete) not_complete_missing
      · obtain rfl : w = v := Option.some.inj (hlock.symm.trans hv)
        obtain rfl : p = q := Option.some.inj (hp.symm.trans hq)
        rcases moved_publishStep (hs.ok w p hp) hmoved hcomplete
          (hrestores w result p rfl hp rfl) hstep with hentry | hmoved'
        · exact .inl hentry
        · exact .inr ⟨hmoved', hbefore ▸ hcomplete⟩
    rcases hresult with hcomplete | ⟨hmoved, hcomplete⟩
    · exact .inl (by simpa using hcomplete)
    · exact .inr ⟨w, p', hlock, by simp, hkey, hmoved, hcomplete⟩
  · rcases hkept with hcomplete | ⟨v, q, hv, hq, hqk, -⟩
    · exact .inl (by simpa [Function.update_of_ne (Ne.symm hk)] using hcomplete)
    · obtain rfl : w = v := Option.some.inj (hlock.symm.trans hv)
      exact absurd (Option.some.inj (hp.symm.trans hq) ▸ hqk) hk

/-- Steps around calls neither take the lock nor touch the record of its holder. -/
theorem step_holder
    {s t : Cache Key} {act : Act Key} {w : Nat} {p : Writer Key}
    (hact : ∀ v result, act ≠ .call v result)
    (hlock : s.lock = some w) (hp : s.writers w = some p) (hmoved : p.Moved)
    (h : step s act = some t) :
    t.lock = some w ∧ t.writers w = some p := by
  have hphase : p.phase = .replacing ∨ p.phase = .restoring := hmoved
  obtain ⟨entries, lock, writers, readers⟩ := t
  obtain ⟨-, ⟨rfl, rfl⟩ | ⟨v, p', haround, rfl⟩⟩ := step_other hact h
  · exact ⟨hlock, hp⟩
  · cases haround <;> grind

theorem kept_step
    {s t : Cache Key} {k : Key} {act : Act Key}
    (hs : Inv s) (hkept : Kept k s) (hrestores : Restores k s act)
    (h : step s act = some t) :
    Kept k t := by
  by_cases hact : ∃ w result, act = .call w result
  · obtain ⟨w, result, rfl⟩ := hact
    exact kept_call hs hkept hrestores h
  · have hother : ∀ w result, act ≠ .call w result :=
      fun w result heq => hact ⟨w, result, heq⟩
    rcases hkept with hcomplete | ⟨w, p, hlock, hp, hk, hmoved, hcomplete⟩
    · exact .inl (by rw [(step_other hother h).1]; exact hcomplete)
    · obtain ⟨hlock', hp'⟩ := step_holder hother hlock hp hmoved h
      exact .inr ⟨w, p, hlock', hp', hk, hmoved, hcomplete⟩

/-- An entry that is complete stays complete while its restoring renames succeed. -/
theorem kept_of_run
    {s t : Cache Key} {k : Key}
    (hs : Inv s) (hcomplete : (s.entries k).Complete)
    (h : Reaches step (Restores k) s t) :
    Inv t ∧ Kept k t := by
  refine @Reaches.invariant _ _ step (Restores k) (fun u => Inv u ∧ Kept k u) s t h
    ⟨hs, .inl hcomplete⟩ ?_
  intro u act v hu hok hstep
  exact ⟨inv_step hu.1 hstep, kept_step hu.1 hu.2 hok hstep⟩

theorem neverFile_call
    {s t : Cache Key} {k : Key} {w : Nat} {result : CallResult}
    (hs : Inv s) (hnever : NeverFile k s) (h : step s (.call w result) = some t) :
    NeverFile k t := by
  obtain ⟨hentry, hbackup⟩ := hnever
  obtain ⟨p, e', p', hp, hlock, hstep, rfl⟩ := step_call h
  obtain ⟨hkey, -, hbefore⟩ := publishStep_constant hstep
  by_cases hk : p.key = k
  · subst hk
    have hplace : e'.follow ≠ some .file := by
      rcases entry_publishStep (hs.ok w p hp) hstep with rfl | ⟨-, rfl | rfl | ⟨a, b, rfl⟩⟩ |
        ⟨-, -, rfl, -⟩ | ⟨-, -, rfl⟩ | ⟨-, -, rfl, hmoved⟩
      · exact hentry
      · simp [Entry.follow]
      · simp [Entry.follow, Staged.entry]
      · exact follow_partlyRemoved hentry
      · simp [Entry.follow]
      · simp [Entry.follow, Staged.entry]
      · exact hbackup w p hlock hp rfl hmoved
    refine ⟨by simpa using hplace, ?_⟩
    intro v q hv hq hqk hmoved
    obtain rfl : w = v := Option.some.inj (hlock.symm.trans hv)
    obtain rfl : p' = q := by simpa using hq
    rw [hbefore]
    rcases moved_of_publishStep (hs.ok w p hp) hstep hmoved with hmoved' | heq
    · exact hbackup w p hlock hp rfl hmoved'
    · exact heq ▸ hentry
  · refine ⟨by simpa [Function.update_of_ne (Ne.symm hk)] using hentry, ?_⟩
    intro v q hv hq hqk _
    obtain rfl : w = v := Option.some.inj (hlock.symm.trans hv)
    obtain rfl : p' = q := by simpa using hq
    exact absurd (hkey.symm.trans hqk) hk

theorem neverFile_step
    {s t : Cache Key} {k : Key} {act : Act Key}
    (hs : Inv s) (hnever : NeverFile k s) (h : step s act = some t) :
    NeverFile k t := by
  by_cases hact : ∃ w result, act = .call w result
  · obtain ⟨w, result, rfl⟩ := hact
    exact neverFile_call hs hnever h
  · obtain ⟨entries, lock, writers, readers⟩ := t
    have hother : ∀ w result, act ≠ .call w result :=
      fun w result heq => hact ⟨w, result, heq⟩
    obtain ⟨rfl, ⟨rfl, rfl⟩ | ⟨w, p', haround, rfl⟩⟩ := step_other hother h
    · exact hnever
    · refine ⟨hnever.1, ?_⟩
      intro v q hv hq hqk hmoved
      exact around_moved haround hnever.2 hv hq hqk hmoved

/-- The only steps that change the lookups are their own. -/
theorem step_readers
    {s t : Cache Key} {act : Act Key}
    (h : step s act = some t) :
    t.readers = s.readers ∨
      (∃ r key, s.readers r = none ∧
        t.readers = Function.update s.readers r (some { key := key })) ∨
      (∃ r reader, s.readers r = some reader ∧
        t.readers = Function.update s.readers r
          (some { reader with phase := cacheHitStep (s.entries reader.key) reader.phase })) := by
  cases act with
  | call w result =>
      obtain ⟨p, e', p', -, -, -, rfl⟩ := step_call h
      exact .inl rfl
  | stage w key force jsonSize p4infoSize => simp only [step] at h; grind
  | refuse w => simp only [step] at h; grind
  | acquire w => simp only [step] at h; grind
  | close w => simp only [step] at h; grind
  | lookup r key =>
      cases hr : s.readers r with
      | some reader => simp [step, hr] at h
      | none =>
          simp only [step, hr, Option.some.injEq] at h
          obtain rfl := h
          exact .inr (.inl ⟨r, key, hr, rfl⟩)
  | read r =>
      cases hr : s.readers r with
      | none => simp [step, hr] at h
      | some reader =>
          simp only [step, hr, Option.some.injEq] at h
          obtain rfl := h
          exact .inr (.inr ⟨r, reader, hr, rfl⟩)

/-- Every step keeps the lookups on their way. -/
theorem readerOk_step
    {s t : Cache Key} {act : Act Key}
    (hs : Inv s) (hreaders : ∀ r reader, s.readers r = some reader → ReaderOk s reader)
    (h : step s act = some t) :
    ∀ r reader, t.readers r = some reader → ReaderOk t reader := by
  have hnever : ∀ k, NeverFile k s → NeverFile k t := fun k hk => neverFile_step hs hk h
  intro r reader hr
  rcases step_readers h with heq | ⟨r', key, -, heq⟩ | ⟨r', reader', hr', heq⟩
  · rw [heq] at hr
    exact readerOk_mono (hnever _) (hreaders r reader hr)
  · rw [heq] at hr
    by_cases hrr : r = r'
    · obtain rfl : { key := key } = reader := by simpa [hrr] using hr
      exact True.intro
    · exact readerOk_mono (hnever _) (hreaders r reader (by simpa [hrr] using hr))
  · rw [heq] at hr
    by_cases hrr : r = r'
    · obtain rfl : { reader' with
          phase := cacheHitStep (s.entries reader'.key) reader'.phase } = reader := by
        simpa [hrr] using hr
      exact readerOk_mono (hnever _) (readerOk_read hs (hreaders r' reader' hr'))
    · exact readerOk_mono (hnever _) (hreaders r reader (by simpa [hrr] using hr))

/-- In every state the publishes stand as they should and no lookup has raised. -/
theorem inv_readers_of_run
    {start s : Cache Key}
    (hstart : Fresh start) (h : Reaches step anyStep start s) :
    Inv s ∧ ∀ r reader, s.readers r = some reader → ReaderOk s reader := by
  have hinv : ∀ u, Reaches step anyStep start u → Inv u := fun u hu =>
    inv_of_run (inv_of_fresh hstart) hu
  refine ⟨hinv s h, @Reaches.invariant_with _ _ step anyStep Inv
    (fun u => ∀ r reader, u.readers r = some reader → ReaderOk u reader) start s h ?_ hinv ?_⟩
  · intro r reader hr
    rw [hstart.readers r] at hr
    exact absurd hr (by simp)
  · intro u act v hknown hu _ hstep
    exact readerOk_step hknown hu hstep

/-- What the cache guarantees in a state reached by any steps. -/
structure PublicationSafe (s : Cache Key) : Prop where
  /-- An entry that is complete now is complete whenever the lock is free later on, unless
  a restoring rename of that entry raised. -/
  complete_kept : ∀ k t, (s.entries k).Complete → Reaches step (Restores k) s t →
    t.lock = none → (t.entries k).Complete
  /-- Both artifacts of a complete entry come from one build. -/
  single_build : ∀ k, (s.entries k).Complete → (s.entries k).SingleBuild
  /-- A forced publish that raises releases the lock with the entry as it found it. -/
  forced_failure : ∀ w p, s.writers w = some p → p.force = true →
    p.phase = .closing .raised → s.entries p.key = p.before
  /-- A publish changes nothing while it does not have the lock. -/
  unlocked : ∀ act w t, act.writer = some w → s.lock ≠ some w → step s act = some t →
    t.entries = s.entries
  /-- No step of an unforced publish changes a complete entry. -/
  unforced : ∀ act w p t, act.writer = some w → s.writers w = some p → p.force = false →
    step s act = some t → ∀ k, (s.entries k).Complete → t.entries k = s.entries k
  /-- No lookup raises. -/
  lookup_returns : ∀ r reader error, s.readers r = some reader → reader.phase ≠ .raised error
  /-- A publish that ended leaves no backup unless a removal or a restoring rename raised. -/
  no_backup : ∀ w p o, s.writers w = some p → p.phase.outcome = some o → o ≠ .unrestored →
    p.removalFailed = false → p.backup = .absent

/-- An unforced call leaves a complete entry alone. -/
theorem unforced_call
    {s t : Cache Key} {w : Nat} {p : Writer Key} {result : CallResult}
    (hs : Inv s) (hp : s.writers w = some p) (hforce : p.force = false)
    (h : step s (.call w result) = some t)
    {k : Key} (hk : (s.entries k).Complete) :
    t.entries k = s.entries k := by
  obtain ⟨q, e', q', hq, -, hstep, rfl⟩ := step_call h
  obtain rfl : p = q := Option.some.inj (hp.symm.trans hq)
  by_cases hkey : k = p.key
  · subst hkey
    simp only [Function.update_self]
    rcases entry_publishStep (hs.ok w p hp) hstep with heq | ⟨hnot, -⟩ | ⟨htrue, -⟩ |
      ⟨htrue, -⟩ | ⟨htrue, -⟩
    · exact heq
    · exact absurd hk hnot
    · exact absurd (hforce.symm.trans htrue) (by simp)
    · exact absurd (hforce.symm.trans htrue) (by simp)
    · exact absurd (hforce.symm.trans htrue) (by simp)
  · exact Function.update_of_ne hkey _ _

/-- Publication is safe in every state, whatever the order of steps and the failing calls. -/
theorem publication_safe
    {start s : Cache Key}
    (hstart : Fresh start) (h : Reaches step anyStep start s) :
    PublicationSafe s := by
  obtain ⟨hinv, hreaders⟩ := inv_readers_of_run hstart h
  constructor
  case complete_kept =>
    intro k t hcomplete hrun hlock
    exact complete_of_kept (kept_of_run hinv hcomplete hrun).2 hlock
  case single_build => exact hinv.single
  case forced_failure =>
    intro w p hp hforce hphase
    have hok := hinv.ok w p hp
    simp only [Writer.Ok, hphase] at hok
    exact hok.restored hforce rfl
  case unlocked =>
    intro act w t hact hlock hstep
    by_cases hcall : ∃ v result, act = .call v result
    · obtain ⟨v, result, rfl⟩ := hcall
      obtain ⟨p, e', p', -, hv, -⟩ := step_call hstep
      obtain rfl : v = w := Option.some.inj hact
      exact absurd hv hlock
    · exact (step_other (fun v result heq => hcall ⟨v, result, heq⟩) hstep).1
  case unforced =>
    intro act w p t hact hp hforce hstep k hk
    by_cases hcall : ∃ v result, act = .call v result
    · obtain ⟨v, result, rfl⟩ := hcall
      obtain rfl : v = w := Option.some.inj hact
      exact unforced_call hinv hp hforce hstep hk
    · rw [(step_other (fun v result heq => hcall ⟨v, result, heq⟩) hstep).1]
  case lookup_returns =>
    intro r reader error hr hphase
    have hok := hreaders r reader hr
    simp [ReaderOk, hphase] at hok
  case no_backup =>
    intro w p o hp ho hne hremoved
    have hok := hinv.ok w p hp
    cases hphase : p.phase <;> simp only [Phase.outcome, hphase, reduceCtorEq,
      Option.some.injEq] at ho
    · simp only [Writer.Ok, hphase] at hok
      exact hok.tidy (ho ▸ hne) hremoved
    · simp only [Writer.Ok, hphase] at hok
      exact hok (ho ▸ hne) hremoved

end Runs

/-- A cache with one complete entry and a dangling link. -/
def earlierCache : Cache Nat where
  entries := fun k =>
    if k = 0 then .object (.dir ⟨some ⟨7, 512⟩, some ⟨7, 64⟩⟩)
    else if k = 1 then .symlink none
    else .missing
  lock := none
  writers := fun _ => none
  readers := fun _ => none

theorem fresh_earlierCache : Fresh earlierCache := by
  refine ⟨rfl, fun _ => rfl, fun _ => rfl, ?_⟩
  intro k _ json p4info h
  simp only [earlierCache] at h
  split_ifs at h
  · simp only [Entry.follow, Option.some.injEq, Object.dir.injEq, Contents.mk.injEq] at h
    rw [← h.1, ← h.2]
  · simp [Entry.follow] at h
  · simp [Entry.follow] at h

/-- A forced publish whose second rename raises, while a lookup sees no entry. -/
def failedReplacement : List (Act Nat) :=
  [.stage 1 0 true (some 600) (some 80), .lookup 1 0, .acquire 1, .call 1 .ok, .call 1 .ok,
    .call 1 .ok, .read 1, .call 1 (.raises .other false false), .call 1 .ok, .call 1 .ok,
    .close 1]

theorem publication_safe_restored :
    ∃ s, execute step earlierCache failedReplacement = some s ∧
      s.entries 0 = earlierCache.entries 0 ∧
      (s.readers 1).map Reader.phase = some (.returned false) ∧ PublicationSafe s := by
  refine ⟨_, rfl, rfl, rfl, publication_safe fresh_earlierCache ?_⟩
  have hrun : execute step earlierCache failedReplacement = some _ := rfl
  exact reaches_of_execute (fun _ _ _ => True.intro) hrun

end CompilerCache
end P4Net
