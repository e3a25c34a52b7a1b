import P4Net.CacheSafety

/-!
# Where the files of the cache come from

What a user of the cache relies on, besides the safety of a single publish: which build
left the files that stand under a key, and what a lookup or a publish that ended well
says about them.

* `Everywhere` is a property of the entry of a key and of the one that can come back from
  a backup; `everywhere_step` carries it over a step of anyone.
* `Traced` : every file under a key was there at the start or was staged by a writer of
  that key.
* `P4infoLast` is what the first three calls of a lookup leave for the other two; with it
  a lookup that hits has seen a complete entry, although it makes five separate calls
  without the lock.
* `Available` : once a lookup has hit or a publish has returned, the entry is kept.
-/

namespace P4Net
namespace CompilerCache

open Runs

/-! ### The files of one entry -/

/-- One of the two files under the name comes from the build. -/
def Entry.Holds (e : Entry) (build : Nat) : Prop :=
  ∃ contents a, e.follow = some (.dir contents) ∧
    (contents.json = some a ∨ contents.p4info = some a) ∧ a.build = build

theorem not_holds_missing (build : Nat) : ¬ Entry.missing.Holds build := by
  simp [Entry.Holds, Entry.follow]

theorem stageArtifacts_build
    {build : Nat} {jsonSize p4infoSize : Option Nat} {staged : Staged}
    (h : stageArtifacts build jsonSize p4infoSize = some staged) :
    staged.build = build := by
  unfold stageArtifacts at h
  split at h
  · split_ifs at h
    obtain rfl := Option.some.inj h
    rfl
  · simp at h

theorem Staged.holds
    {staged : Staged} {build : Nat}
    (h : staged.entry.Holds build) :
    build = staged.build := by
  obtain ⟨contents, a, hfollow, hfile, rfl⟩ := h
  simp only [Staged.entry, Entry.follow, Option.some.injEq, Object.dir.injEq] at hfollow
  subst hfollow
  rcases hfile with hfile | hfile
  · rw [← Option.some.inj hfile]
  · rw [← Option.some.inj hfile]

/-- A removal leaves only files that were there. -/
theorem holds_of_partlyRemoved
    {e : Entry} {jsonGone p4infoGone : Bool} {build : Nat}
    (h : (e.partlyRemoved jsonGone p4infoGone).Holds build) :
    e.Holds build := by
  obtain ⟨contents, a, hfollow, hfile, hbuild⟩ := h
  cases e with
  | missing => exact ⟨contents, a, hfollow, hfile, hbuild⟩
  | symlink target => exact ⟨contents, a, hfollow, hfile, hbuild⟩
  | object o =>
      cases o with
      | file => exact ⟨contents, a, hfollow, hfile, hbuild⟩
      | dir before =>
          simp only [Entry.partlyRemoved, Entry.follow, Option.some.injEq,
            Object.dir.injEq] at hfollow
          subst hfollow
          refine ⟨before, a, rfl, ?_, hbuild⟩
          rcases hfile with hfile | hfile
          · exact .inl (by cases jsonGone <;> simp_all)
          · exact .inr (by cases p4infoGone <;> simp_all)

/-- A P4Info file that is not empty stands beside a JSON file that is not empty. -/
def Entry.P4infoLast (e : Entry) : Prop :=
  ∀ contents a, e.follow = some (.dir contents) → contents.p4info = some a → 0 < a.size →
    e.Complete

theorem p4infoLast_missing : Entry.missing.P4infoLast := by
  intro contents a hfollow
  simp [Entry.follow] at hfollow

theorem p4infoLast_partlyRemoved
    {e : Entry} {jsonGone p4infoGone : Bool}
    (hincomplete : ¬ e.Complete) (h : e.P4infoLast) :
    (e.partlyRemoved jsonGone p4infoGone).P4infoLast := by
  intro contents a hfollow hp4info hsize
  cases e with
  | missing => exact h contents a hfollow hp4info hsize
  | symlink target => exact h contents a hfollow hp4info hsize
  | object o =>
      cases o with
      | file => exact h contents a hfollow hp4info hsize
      | dir before =>
          simp only [Entry.partlyRemoved, Entry.follow, Option.some.injEq,
            Object.dir.injEq] at hfollow
          subst hfollow
          have hbefore : before.p4info = some a := by cases p4infoGone <;> simp_all
          exact absurd (h before a rfl hbefore hsize) hincomplete

/-- What `stat` of the JSON file establishes. -/
theorem p4infoLast_of_statSize
    {e : Entry} {size : Nat}
    (h : e.statSize Contents.json = .ok size) (hsize : size ≠ 0) :
    e.P4infoLast := by
  intro contents a hfollow hp4info hpos
  obtain ⟨json, p4info⟩ := contents
  simp only at hp4info
  subst hp4info
  simp only [Entry.statSize, hfollow] at h
  cases json with
  | none => simp at h
  | some m =>
      obtain rfl : m.size = size := by simpa using h
      exact ⟨m, a, hfollow, by omega, hpos⟩

/-- The last call of a lookup hits on a complete entry only. -/
theorem complete_of_hit
    {e : Entry}
    (hlast : e.P4infoLast) (h : cacheHitStep e .p4infoStat = .returned true) :
    e.Complete := by
  cases hfollow : e.follow with
  | none => simp [cacheHitStep, Entry.statSize, hfollow] at h
  | some o =>
      cases o with
      | file => simp [cacheHitStep, Entry.statSize, hfollow] at h
      | dir contents =>
          cases hp4info : contents.p4info with
          | none => simp [cacheHitStep, Entry.statSize, hfollow, hp4info] at h
          | some a =>
              refine hlast contents a hfollow hp4info ?_
              simpa [cacheHitStep, Entry.statSize, hfollow, hp4info] using h

/-- Only the last call of a lookup can hit. -/
theorem phase_of_hit
    {e : Entry} {phase : ReadPhase}
    (h : cacheHitStep e phase = .returned true) :
    phase = .p4infoStat ∨ phase = .returned true := by
  cases phase with
  | isDir =>
      simp only [cacheHitStep] at h
      split_ifs at h
      simp at h
  | jsonIsFile =>
      simp only [cacheHitStep] at h
      split_ifs at h
      simp at h
  | p4infoIsFile =>
      simp only [cacheHitStep] at h
      split_ifs at h
      simp at h
  | jsonStat =>
      simp only [cacheHitStep] at h
      grind
  | p4infoStat => exact .inl rfl
  | returned hit => exact .inr h
  | raised error => simp [cacheHitStep] at h

/-! ### Properties of the entry of a key -/

section Local

variable {Key : Type}

/-- The entry has the property, and so has the one that can come back from a backup. -/
def Everywhere (P : Entry → Prop) (k : Key) (s : Cache Key) : Prop :=
  P (s.entries k) ∧
    ∀ w p, s.lock = some w → s.writers w = some p → p.key = k → p.Moved → P p.before

theorem Everywhere.mono
    {P Q : Entry → Prop} {k : Key} {s : Cache Key}
    (h : Everywhere P k s) (hpq : ∀ e, P e → Q e) :
    Everywhere Q k s :=
  ⟨hpq _ h.1, fun w p hlock hp hk hmoved => hpq _ (h.2 w p hlock hp hk hmoved)⟩

/-- The holder of the lock after a step around the calls, while it has moved an entry. -/
theorem holder_around
    {s : Cache Key} {w v : Nat} {lock : Option Nat} {p' q : Writer Key}
    (h : Around s w lock p')
    (hv : lock = some v) (hq : Function.update s.writers w (some p') v = some q)
    (hmoved : q.Moved) :
    s.lock = some v ∧ s.writers v = some q := by
  by_cases hvw : v = w
  · obtain rfl : p' = q := by simpa [hvw] using hq
    cases h <;> cases hmoved <;> contradiction
  · refine ⟨?_, by simpa [hvw] using hq⟩
    cases h with
    | stage key force staged hp => exact hv
    | refuse p hp hphase => exact hv
    | acquire p hp hphase hlock => exact absurd (Option.some.inj hv).symm hvw
    | close p o hp hphase hlock => exact absurd hv (by simp)

/-- What a publish stages does not change while it runs. -/
theorem publishStep_staged
    {e e' : Entry} {p p' : Writer Key} {result : CallResult}
    (h : publishStep e p result = some (e', p')) :
    p'.staged = p.staged := by
  cases result <;> cases hphase : p.phase <;> simp only [publishStep, hphase] at h <;> grind

/-- A publish returns with a complete entry in its place. -/
theorem complete_of_returned
    {e e' : Entry} {p p' : Writer Key} {result : CallResult}
    (hok : p.Ok e) (h : publishStep e p result = some (e', p'))
    (hreturned : p'.phase.outcome = some .returned) :
    e'.Complete := by
  have hok' := ok_publishStep hok h
  cases result with
  | ok =>
      cases hphase : p.phase with
      | locked =>
          simp only [publishStep, hphase, Option.some.injEq, Prod.mk.injEq] at h
          obtain ⟨rfl, rfl⟩ := h
          simp only [chooseBranch] at hreturned
          split_ifs at hreturned
          · simp [Phase.outcome] at hreturned
          · simp [Phase.outcome] at hreturned
          · rcases cacheHit_eq e with ⟨-, hcomplete⟩ | ⟨hmiss, -⟩
            · exact hcomplete
            · simp [hmiss, Phase.outcome] at hreturned
      | publishing =>
          simp only [Writer.Ok, hphase] at hok
          simp only [publishStep, hphase, hok.2.1, if_true, Option.some.injEq,
            Prod.mk.injEq] at h
          exact h.1 ▸ p.staged.complete
      | dropping o =>
          simp only [publishStep, hphase, Option.some.injEq, Prod.mk.injEq] at h
          obtain ⟨rfl, rfl⟩ := h
          obtain rfl : o = .returned := Option.some.inj hreturned
          simp only [Writer.Ok, hphase] at hok
          exact hok.2 ▸ p.staged.complete
      | restoring =>
          simp only [Writer.Ok, hphase] at hok
          simp only [publishStep, hphase, hok.2.2, Option.some.injEq, Prod.mk.injEq] at h
          obtain ⟨rfl, rfl⟩ := h
          simp [Phase.outcome] at hreturned
      | replacing =>
          simp only [Writer.Ok, hphase] at hok
          simp only [publishStep, hphase, hok.2.1, if_true, Option.some.injEq,
            Prod.mk.injEq] at h
          exact h.1 ▸ p.staged.complete
      | waiting => simp [publishStep, hphase] at h
      | closing o => simp [publishStep, hphase] at h
      | done o => simp [publishStep, hphase] at h
      | removing | backing | moving =>
          simp only [publishStep, hphase, Option.some.injEq, Prod.mk.injEq] at h
          obtain ⟨rfl, rfl⟩ := h
          simp [Phase.outcome] at hreturned
  | raises errno jsonGone p4infoGone =>
      cases hphase : p.phase with
      | publishing =>
          simp only [Writer.Ok, hphase] at hok
          simp only [publishStep, hphase, hok.2.1, renameFailed_missing, Option.some.injEq,
            Prod.mk.injEq] at h
          obtain ⟨rfl, rfl⟩ := h
          simp [Phase.outcome] at hreturned
      | dropping o =>
          simp only [publishStep, hphase, Option.some.injEq, Prod.mk.injEq] at h
          obtain ⟨rfl, rfl⟩ := h
          obtain rfl : o = .returned := Option.some.inj hreturned
          simp only [Writer.Ok, hphase] at hok
          exact hok.2 ▸ p.staged.complete
      | waiting => simp [publishStep, hphase] at h
      | locked => simp [publishStep, hphase] at h
      | closing o => simp [publishStep, hphase] at h
      | done o => simp [publishStep, hphase] at h
      | removing | backing | moving | replacing | restoring =>
          simp only [publishStep, hphase, Option.some.injEq, Prod.mk.injEq] at h
          obtain ⟨rfl, rfl⟩ := h
          simp [Phase.outcome] at hreturned

/-- What a lookup relies on before its last two calls. -/
def HitOk (s : Cache Key) (reader : Reader Key) : Prop :=
  match reader.phase with
  | .p4infoIsFile | .p4infoStat => Everywhere Entry.P4infoLast reader.key s
  | _ => True

/-- The entry is in its place when its JSON file can be seen. -/
theorem everywhere_of_statSize
    {s : Cache Key} {k : Key} {size : Nat}
    (hs : Inv s) (h : (s.entries k).statSize Contents.json = .ok size) (hsize : size ≠ 0) :
    Everywhere Entry.P4infoLast k s := by
  refine ⟨p4infoLast_of_statSize h hsize, ?_⟩
  intro w p hlock hp hk hmoved
  have hok := hs.ok w p hp
  have hmissing : s.entries p.key = .missing := by
    cases hmoved with
    | inl hphase => simp only [Writer.Ok, hphase] at hok; exact hok.2.1
    | inr hphase => simp only [Writer.Ok, hphase] at hok; exact hok.2.1
  rw [← hk, hmissing] at h
  simp [Entry.statSize, Entry.follow] at h

/-- The next call of a lookup. -/
theorem hitOk_read
    {s : Cache Key} {reader : Reader Key}
    (hs : Inv s) (hok : HitOk s reader) :
    HitOk s { reader with phase := cacheHitStep (s.entries reader.key) reader.phase } := by
  cases hphase : reader.phase with
  | jsonStat =>
      simp only [cacheHitStep]
      cases hstat : (s.entries reader.key).statSize Contents.json with
      | ok size =>
          by_cases hsize : size = 0
          · simp only [hsize, if_true]
            exact True.intro
          · simp only [hsize, if_false]
            exact everywhere_of_statSize hs hstat hsize
      | error error => cases error <;> exact True.intro
  | p4infoIsFile =>
      simp only [HitOk, hphase] at hok
      simp only [cacheHitStep]
      split_ifs
      · exact hok
      · exact True.intro
  | p4infoStat =>
      simp only [cacheHitStep]
      cases hstat : (s.entries reader.key).statSize Contents.p4info with
      | ok size => exact True.intro
      | error error => cases error <;> exact True.intro
  | isDir =>
      simp only [cacheHitStep]
      split_ifs <;> exact True.intro
  | jsonIsFile =>
      simp only [cacheHitStep]
      split_ifs <;> exact True.intro
  | returned hit => exact True.intro
  | raised error => exact True.intro

end Local

section Runs

variable {Key : Type} [DecidableEq Key]

/-- A property of the entry of a key is kept when removals keep it and the writers of that
key stage entries that have it. -/
theorem everywhere_step
    {P : Entry → Prop} {s t : Cache Key} {k : Key} {act : Act Key}
    (hs : Inv s) (hmissing : P .missing)
    (hremoved : ∀ e jsonGone p4infoGone, ¬ e.Complete → P e →
      P (e.partlyRemoved jsonGone p4infoGone))
    (hstaged : ∀ w p, s.writers w = some p → p.key = k → P p.staged.entry)
    (hall : Everywhere P k s) (h : step s act = some t) :
    Everywhere P k t := by
  obtain ⟨hentry, hbackup⟩ := hall
  by_cases hact : ∃ w result, act = .call w result
  · obtain ⟨w, result, rfl⟩ := hact
    obtain ⟨p, e', p', hp, hlock, hstep, rfl⟩ := step_call h
    obtain ⟨hkey, -, hbefore⟩ := publishStep_constant hstep
    by_cases hk : p.key = k
    · subst hk
      have hplace : P e' := by
        rcases entry_publishStep (hs.ok w p hp) hstep with rfl |
          ⟨hnot, rfl | rfl | ⟨a, b, rfl⟩⟩ | ⟨-, -, rfl, -⟩ | ⟨-, -, rfl⟩ | ⟨-, -, rfl, hmoved⟩
        · exact hentry
        · exact hmissing
        · exact hstaged w p hp rfl
        · exact hremoved _ a b hnot hentry
        · exact hmissing
        · exact hstaged w p hp rfl
        · exact hbackup w p hlock hp rfl hmoved
      refine ⟨by simpa using hplace, ?_⟩
      intro v q hv hq hqk hmoved
      obtain rfl : w = v := Option.some.inj (hlock.symm.trans hv)
      obtain rfl : p' = q := by simpa using hq
      rw [hbefore]
      rcases moved_of_publishStep (hs.ok w p hp) hstep hmoved with hmoved' | heq
      · exact hbackup w p hlock hp rfl hmoved'
      · exact heq ▸ hentry
    · refine ⟨by simpa [Function.update_of_ne (Ne.symm hk)] using hentry, ?_⟩
      intro v q hv hq hqk _
      obtain rfl : w = v := Option.some.inj (hlock.symm.trans hv)
      obtain rfl : p' = q := by simpa using hq
      exact absurd (hkey.symm.trans hqk) hk
  · obtain ⟨entries, lock, writers, readers⟩ := t
    have hother : ∀ w result, act ≠ .call w result :=
      fun w result heq => hact ⟨w, result, heq⟩
    obtain ⟨rfl, ⟨rfl, rfl⟩ | ⟨w, p', haround, rfl⟩⟩ := step_other hother h
    · exact ⟨hentry, hbackup⟩
    · refine ⟨hentry, fun v q hv hq hqk hmoved => ?_⟩
      obtain ⟨hv', hq'⟩ := holder_around haround hv hq hmoved
      exact hbackup v q hv' hq' hqk hmoved

/-- A writer keeps its key and what it staged. -/
theorem writers_step
    {s t : Cache Key} {act : Act Key} {w : Nat} {p : Writer Key}
    (hp : s.writers w = some p) (h : step s act = some t) :
    ∃ p', t.writers w = some p' ∧ p'.key = p.key ∧ p'.staged = p.staged := by
  by_cases hact : ∃ v result, act = .call v result
  · obtain ⟨v, result, rfl⟩ := hact
    obtain ⟨q, e', q', hq, -, hstep, rfl⟩ := step_call h
    by_cases hvw : w = v
    · subst hvw
      obtain rfl : p = q := Option.some.inj (hp.symm.trans hq)
      exact ⟨q', by simp, (publishStep_constant hstep).1, publishStep_staged hstep⟩
    · exact ⟨p, by simpa [hvw] using hp, rfl, rfl⟩
  · obtain ⟨entries, lock, writers, readers⟩ := t
    obtain ⟨-, ⟨rfl, rfl⟩ | ⟨v, p', haround, rfl⟩⟩ :=
      step_other (fun v result heq => hact ⟨v, result, heq⟩) h
    · exact ⟨p, hp, rfl, rfl⟩
    · by_cases hvw : w = v
      · subst hvw
        refine ⟨p', by simp, ?_⟩
        cases haround <;> simp_all
      · exact ⟨p, by simpa [hvw] using hp, rfl, rfl⟩

/-- A writer that starts has no record, and gets one with what it staged. -/
theorem step_stage
    {s t : Cache Key} {w : Nat} {key : Key} {force : Bool} {jsonSize p4infoSize : Option Nat}
    (h : step s (.stage w key force jsonSize p4infoSize) = some t) :
    s.writers w = none ∧ ∃ staged, stageArtifacts w jsonSize p4infoSize = some staged ∧
      t = { s with
        writers := Function.update s.writers w
          (some { key := key, force := force, staged := staged }) } := by
  cases hp : s.writers w with
  | some p => simp [step, hp] at h
  | none =>
      cases hstaged : stageArtifacts w jsonSize p4infoSize with
      | none => simp [step, hp, hstaged] at h
      | some staged =>
          simp only [step, hp, hstaged, Option.some.injEq] at h
          exact ⟨rfl, staged, rfl, h.symm⟩

/-- A lookup that starts has no record, and gets one with its key. -/
theorem step_lookup
    {s t : Cache Key} {r : Nat} {key : Key}
    (h : step s (.lookup r key) = some t) :
    s.readers r = none ∧
      t = { s with readers := Function.update s.readers r (some { key := key }) } := by
  cases hr : s.readers r with
  | some reader => simp [step, hr] at h
  | none =>
      simp only [step, hr, Option.some.injEq] at h
      exact ⟨rfl, h.symm⟩

/-- A lookup makes its next call on the entry of its key. -/
theorem step_read
    {s t : Cache Key} {r : Nat}
    (h : step s (.read r) = some t) :
    ∃ reader, s.readers r = some reader ∧
      t = { s with
        readers := Function.update s.readers r
          (some { reader with phase := cacheHitStep (s.entries reader.key) reader.phase }) } := by
  cases hr : s.readers r with
  | none => simp [step, hr] at h
  | some reader =>
      simp only [step, hr, Option.some.injEq] at h
      exact ⟨reader, rfl, h.symm⟩

/-- A step changes the record of its writer only, or no record at all. -/
theorem step_record
    {s t : Cache Key} {act : Act Key}
    (h : step s act = some t) :
    (act.writer = none ∧ t.writers = s.writers) ∨
      ∃ w p', act.writer = some w ∧ t.readers = s.readers ∧
        t.writers = Function.update s.writers w (some p') ∧
        (s.writers w = none → p'.staged.build = w) := by
  cases act with
  | stage w key force jsonSize p4infoSize =>
      obtain ⟨-, staged, hstaged, rfl⟩ := step_stage h
      exact .inr ⟨w, _, rfl, rfl, rfl, fun _ => stageArtifacts_build hstaged⟩
  | call w result =>
      obtain ⟨p, e', p', hp, -, -, rfl⟩ := step_call h
      exact .inr ⟨w, p', rfl, rfl, rfl, fun hnone => absurd (hp.symm.trans hnone) (by simp)⟩
  | refuse w =>
      cases hp : s.writers w with
      | none => simp [step, hp] at h
      | some p =>
          simp only [step, hp] at h
          split_ifs at h
          obtain rfl := Option.some.inj h
          exact .inr ⟨w, _, rfl, rfl, rfl, fun hnone => absurd (hp.symm.trans hnone) (by simp)⟩
  | acquire w =>
      cases hp : s.writers w with
      | none => simp [step, hp] at h
      | some p =>
          simp only [step, hp] at h
          split_ifs at h
          obtain rfl := Option.some.inj h
          exact .inr ⟨w, _, rfl, rfl, rfl, fun hnone => absurd (hp.symm.trans hnone) (by simp)⟩
  | close w =>
      cases hp : s.writers w with
      | none => simp [step, hp] at h
      | some p =>
          cases hphase : p.phase with
          | closing o =>
              simp only [step, hp, hphase] at h
              split_ifs at h
              obtain rfl := Option.some.inj h
              exact .inr ⟨w, _, rfl, rfl, rfl,
                fun hnone => absurd (hp.symm.trans hnone) (by simp)⟩
          | _ => simp [step, hp, hphase] at h
  | lookup r key =>
      obtain ⟨-, rfl⟩ := step_lookup h
      exact .inl ⟨rfl, rfl⟩
  | read r =>
      obtain ⟨reader, -, rfl⟩ := step_read h
      exact .inl ⟨rfl, rfl⟩

/-- A writer numbers its build with its own number. -/
theorem staged_step
    {s t : Cache Key} {act : Act Key}
    (hs : ∀ w p, s.writers w = some p → p.staged.build = w) (h : step s act = some t) :
    ∀ w p, t.writers w = some p → p.staged.build = w := by
  intro w p hp
  cases hw : s.writers w with
  | some q =>
      obtain ⟨p', hp', -, hstaged⟩ := writers_step hw h
      obtain rfl : p = p' := Option.some.inj (hp.symm.trans hp')
      rw [hstaged]
      exact hs w q hw
  | none =>
      rcases step_record h with ⟨-, heq⟩ | ⟨v, p', -, -, heq, hbuild⟩
      · simp [heq, hw] at hp
      · by_cases hvw : w = v
        · subst hvw
          obtain rfl : p' = p := by simpa [heq] using hp
          exact hbuild hw
        · simp [heq, hvw, hw] at hp

/-! ### The build of every file -/

/-- The build is one of the earlier ones of the key, or that of a writer of the key. -/
def Origin (old : Key → Nat → Prop) (s : Cache Key) (k : Key) (build : Nat) : Prop :=
  old k build ∨ ∃ p, s.writers build = some p ∧ p.key = k

theorem origin_step
    {old : Key → Nat → Prop} {s t : Cache Key} {act : Act Key} {k : Key} {build : Nat}
    (horigin : Origin old s k build) (h : step s act = some t) :
    Origin old t k build := by
  rcases horigin with hold | ⟨p, hp, hk⟩
  · exact .inl hold
  · obtain ⟨p', hp', hkey, -⟩ := writers_step hp h
    exact .inr ⟨p', hp', hkey.trans hk⟩

/-- Every file under a key comes from a build of that key. -/
structure Traced (old : Key → Nat → Prop) (s : Cache Key) : Prop where
  staged : ∀ w p, s.writers w = some p → p.staged.build = w
  files : ∀ k, Everywhere (fun e => ∀ build, e.Holds build → Origin old s k build) k s

theorem traced_step
    {old : Key → Nat → Prop} {s t : Cache Key} {act : Act Key}
    (hs : Inv s) (htraced : Traced old s) (h : step s act = some t) :
    Traced old t := by
  refine ⟨staged_step htraced.staged h, fun k => ?_⟩
  have hfiles : Everywhere (fun e => ∀ build, e.Holds build → Origin old t k build) k s :=
    (htraced.files k).mono (fun e he build hbuild => origin_step (he build hbuild) h)
  refine everywhere_step hs ?_ ?_ ?_ hfiles h
  · exact fun build hbuild => absurd hbuild (not_holds_missing build)
  · exact fun e a b _ he build hbuild => he build (holds_of_partlyRemoved hbuild)
  · intro w p hp hk build hbuild
    obtain rfl : build = w := (Staged.holds hbuild).trans (htraced.staged w p hp)
    exact origin_step (.inr ⟨p, hp, hk⟩) h

theorem traced_of_run
    {old : Key → Nat → Prop} {start s : Cache Key} {ok : Cache Key → Act Key → Prop}
    (hstart : Fresh start) (hold : ∀ k build, (start.entries k).Holds build → old k build)
    (h : Reaches step ok start s) :
    Traced old s := by
  have hall : Inv s ∧ Traced old s := by
    refine @Reaches.invariant _ _ step ok (fun u => Inv u ∧ Traced old u) start s h ?_ ?_
    · refine ⟨inv_of_fresh hstart, fun w p hp => ?_,
        fun k => ⟨fun build hbuild => .inl (hold k build hbuild), ?_⟩⟩
      · simp [hstart.writers w] at hp
      · intro w p hlock
        simp [hstart.lock] at hlock
    · exact fun u act v hu _ hstep => ⟨inv_step hu.1 hstep, traced_step hu.1 hu.2 hstep⟩
  exact hall.2

/-! ### What a lookup that hits has seen -/

theorem p4infoLast_step
    {s t : Cache Key} {k : Key} {act : Act Key}
    (hs : Inv s) (hlast : Everywhere Entry.P4infoLast k s) (h : step s act = some t) :
    Everywhere Entry.P4infoLast k t :=
  everywhere_step hs p4infoLast_missing (fun _ _ _ hnot he => p4infoLast_partlyRemoved hnot he)
    (fun _ p _ _ _ _ _ _ _ => p.staged.complete) hlast h

theorem hitOk_mono
    {s t : Cache Key} {reader : Reader Key} {act : Act Key}
    (hs : Inv s) (h : step s act = some t) (hok : HitOk s reader) :
    HitOk t reader := by
  unfold HitOk at hok ⊢
  cases hphase : reader.phase <;> simp only [hphase] at hok ⊢
  all_goals exact p4infoLast_step hs hok h

theorem hitOk_step
    {s t : Cache Key} {act : Act Key}
    (hs : Inv s) (hreaders : ∀ r reader, s.readers r = some reader → HitOk s reader)
    (h : step s act = some t) :
    ∀ r reader, t.readers r = some reader → HitOk t reader := by
  intro r reader hr
  rcases step_readers h with heq | ⟨r', key, -, heq⟩ | ⟨r', reader', hr', heq⟩
  · rw [heq] at hr
    exact hitOk_mono hs h (hreaders r reader hr)
  · rw [heq] at hr
    by_cases hrr : r = r'
    · obtain rfl : { key := key } = reader := by simpa [hrr] using hr
      exact True.intro
    · exact hitOk_mono hs h (hreaders r reader (by simpa [hrr] using hr))
  · rw [heq] at hr
    by_cases hrr : r = r'
    · obtain rfl : { reader' with
          phase := cacheHitStep (s.entries reader'.key) reader'.phase } = reader := by
        simpa [hrr] using hr
      exact hitOk_mono hs h (hitOk_read hs (hreaders r' reader' hr'))
    · exact hitOk_mono hs h (hreaders r reader (by simpa [hrr] using hr))

/-! ### The entry of a call that ended well -/

/-- A lookup that hit or a publish that returned leaves the entry of the key kept. -/
structure Available (k : Key) (s : Cache Key) : Prop where
  published : ∀ w p, s.writers w = some p → p.key = k → p.phase.outcome = some .returned →
    Kept k s
  hit : ∀ r reader, s.readers r = some reader → reader.key = k →
    reader.phase = .returned true → Kept k s

theorem published_step
    {s t : Cache Key} {k : Key} {act : Act Key} {w : Nat} {p : Writer Key}
    (hs : Inv s) (havailable : Available k s) (hrestores : Restores k s act)
    (h : step s act = some t)
    (hp : t.writers w = some p) (hk : p.key = k) (hreturned : p.phase.outcome = some .returned) :
    Kept k t := by
  have hkept : Kept k s → Kept k t := fun hk => kept_step hs hk hrestores h
  by_cases hact : ∃ v result, act = .call v result
  · obtain ⟨v, result, rfl⟩ := hact
    obtain ⟨q, e', q', hq, -, hstep, rfl⟩ := step_call h
    by_cases hvw : w = v
    · subst hvw
      obtain rfl : q' = p := by simpa using hp
      have hcomplete := complete_of_returned (hs.ok w q hq) hstep hreturned
      refine .inl ?_
      rw [← hk, (publishStep_constant hstep).1]
      simpa using hcomplete
    · exact hkept (havailable.published w p (by simpa [hvw] using hp) hk hreturned)
  · obtain ⟨entries, lock, writers, readers⟩ := t
    obtain ⟨-, ⟨rfl, rfl⟩ | ⟨v, p', haround, rfl⟩⟩ :=
      step_other (fun v result heq => hact ⟨v, result, heq⟩) h
    · exact hkept (havailable.published w p hp hk hreturned)
    · by_cases hvw : w = v
      · subst hvw
        obtain rfl : p' = p := by simpa using hp
        cases haround with
        | stage key force staged hnone => simp [Phase.outcome] at hreturned
        | refuse q hq hphase => simp [Phase.outcome] at hreturned
        | acquire q hq hphase hlock => simp [Phase.outcome] at hreturned
        | close q o hq hphase hlock =>
            refine hkept (havailable.published w q hq hk ?_)
            rw [hphase]
            exact hreturned
      · exact hkept (havailable.published w p (by simpa [hvw] using hp) hk hreturned)

theorem hit_step
    {s t : Cache Key} {k : Key} {act : Act Key} {r : Nat} {reader : Reader Key}
    (hs : Inv s) (hreaders : ∀ r reader, s.readers r = some reader → HitOk s reader)
    (havailable : Available k s) (hrestores : Restores k s act)
    (h : step s act = some t)
    (hr : t.readers r = some reader) (hk : reader.key = k)
    (hhit : reader.phase = .returned true) :
    Kept k t := by
  have hkept : Kept k s → Kept k t := fun hk => kept_step hs hk hrestores h
  rcases step_readers h with heq | ⟨r', key, -, heq⟩ | ⟨r', reader', hr', heq⟩
  · exact hkept (havailable.hit r reader (heq ▸ hr) hk hhit)
  · rw [heq] at hr
    by_cases hrr : r = r'
    · obtain rfl : { key := key } = reader := by simpa [hrr] using hr
      simp at hhit
    · exact hkept (havailable.hit r reader (by simpa [hrr] using hr) hk hhit)
  · rw [heq] at hr
    by_cases hrr : r = r'
    · obtain rfl : { reader' with
          phase := cacheHitStep (s.entries reader'.key) reader'.phase } = reader := by
        simpa [hrr] using hr
      rcases phase_of_hit hhit with hphase | hphase
      · -- the entry that the last call saw is complete
        have hok := hreaders r' reader' hr'
        simp only [HitOk, hphase] at hok
        simp only [hphase] at hhit
        exact hkept (.inl (hk ▸ complete_of_hit hok.1 hhit))
      · exact hkept (havailable.hit r' reader' hr' hk hphase)
    · exact hkept (havailable.hit r reader (by simpa [hrr] using hr) hk hhit)

/-- While its restoring renames succeed, an entry stays available. -/
theorem available_of_run
    {start s : Cache Key} {k : Key}
    (hstart : Fresh start) (h : Reaches step (Restores k) start s) :
    Inv s ∧ Available k s := by
  have hall : Inv s ∧ (∀ r reader, s.readers r = some reader → HitOk s reader) ∧
      Available k s := by
    refine @Reaches.invariant _ _ step (Restores k) (fun u => Inv u ∧
      (∀ r reader, u.readers r = some reader → HitOk u reader) ∧ Available k u) start s h ?_ ?_
    · refine ⟨inv_of_fresh hstart, fun r reader hr => ?_, fun w p hp => ?_, fun r reader hr => ?_⟩
      · simp [hstart.readers r] at hr
      · simp [hstart.writers w] at hp
      · simp [hstart.readers r] at hr
    · intro u act v hu hok hstep
      refine ⟨inv_step hu.1 hstep, hitOk_step hu.1 hu.2.1 hstep, ?_, ?_⟩
      · exact fun w p hp hk ho => published_step hu.1 hu.2.2 hok hstep hp hk ho
      · exact fun r reader hr hk hhit => hit_step hu.1 hu.2.1 hu.2.2 hok hstep hr hk hhit
  exact ⟨hall.1, hall.2.2⟩

end Runs

end CompilerCache
end P4Net
