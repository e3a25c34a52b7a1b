import P4Net.VethLifecycle

/-!
# What a veth pair leaves behind, and where its ends are

* `place_ok`, `place_error` and `createBody_spec` follow the ends of a new pair from the
  temporary names to their places.
* `Cleanable` is what the cleanup needs to find the pair by the side it chose;
  `cleanup_spec` shows that it then removes the pair and nothing else.
* `CreateSafe` is the guarantee of one call of `create`; `createSafe_iff` says that it
  holds for all outcomes exactly when no position is recorded before.
* `Tracked` says that the recorded positions are the actual ones; `veth_safe` carries
  both over the histories whose creations start without recorded positions.
-/

namespace P4Net
namespace Veth

open TextLiterals Runs

/-- An end of a pair, at a place in the kernel. -/
def At (k : Kernel) (pair : Nat) (side : Side) (scope : Scope) (name : Text) (index : Nat) :
    Prop :=
  ⟨pair, side, scope, name, index⟩ ∈ k.ifaces

/-- Both ends are in the recorded namespaces under the names of the object. -/
def Placed (k : Kernel) (v : VethPair) (pair : Nat) : Prop :=
  ∀ side, ∃ index, At k pair side (v.ns side) (v.names side) index

theorem run_eq_some
    {α : Type} {o : Outcome} {call : Nat → Nat → Option α} {x : α}
    (h : o.run call = some x) :
    ∃ first second, call first second = some x := by
  cases o with
  | fails => simp [Outcome.run] at h
  | succeeds first second => exact ⟨first, second, h⟩

theorem run_of_succeeds
    {α : Type} {o : Outcome} {x : α}
    (ho : o.failed = false) :
    o.run (fun _ _ => some x) = some x := by
  cases o with
  | fails => simp [Outcome.failed] at ho
  | succeeds first second => rfl

/-- A `link("set", …)` that returns puts the end into its new place and leaves the others
alone. -/
theorem run_relink_spec
    {o : Outcome} {k kernel : Kernel} {pair index : Nat} {side : Side} {scope target : Scope}
    {name : Text} {newName : Option Text}
    (hat : At k pair side scope name index)
    (hrun : o.run (fun newIndex _ => k.relink scope index target newName newIndex) =
      some kernel) :
    (∃ index', At kernel pair side target (newName.getD name) index' ∧
        (target = scope → index' = index)) ∧
      (∀ j ∈ k.ifaces, j.side ≠ side → j ∈ kernel.ifaces) ∧
      kernel.others pair = k.others pair := by
  obtain ⟨newIndex, -, hset⟩ := run_eq_some hrun
  obtain ⟨hmoved, hothers, hfilter, -⟩ := Kernel.relink_of_mem hat hset
  refine ⟨⟨_, hmoved, fun htarget => if_pos htarget⟩, ?_, hfilter⟩
  intro j hj hne
  exact hothers j hj (fun heq => hne (by rw [heq]))

/-- A placement that raises has changed nothing. -/
theorem place_error
    {o : CreateOutcomes} {v : VethPair} {side : Side} {p p' : Progress} {e : VethError}
    (h : place o v side p = .error (e, p')) :
    p' = p := by
  unfold place at h
  cases hindex : p.indexes side with
  | none =>
      simp only [hindex] at h
      exact (Prod.mk.inj (Except.error.inj h)).2.symm
  | some index =>
      cases htarget : v.targets side <;> simp only [hindex, htarget] at h <;> grind

/-- A placement that returns has put the end in its place and left the others alone. -/
theorem place_ok
    {o : CreateOutcomes} {v : VethPair} {side : Side} {p p' : Progress} {pair index : Nat}
    {name : Text}
    (hat : At p.kernel pair side none name index) (hindex : p.indexes side = some index)
    (hns : p.ns side = none)
    (h : place o v side p = .ok p') :
    (∃ index', At p'.kernel pair side (v.targets side) (v.names side) index' ∧
        (v.targets side = none → index' = index)) ∧
      (∀ j ∈ p.kernel.ifaces, j.side ≠ side → j ∈ p'.kernel.ifaces) ∧
      p'.kernel.others pair = p.kernel.others pair ∧
      p'.ns = Function.update p.ns side (v.targets side) ∧
      p'.indexes = p.indexes ∧ p'.cleanupSide = side := by
  unfold place at h
  cases htarget : v.targets side with
  | none =>
      simp only [hindex, htarget] at h
      split at h
      next => simp at h
      next kernel hrun =>
        obtain rfl := Except.ok.inj h
        obtain ⟨⟨index', hmoved, hsame⟩, hothers, hfilter⟩ := run_relink_spec hat hrun
        refine ⟨⟨index', hmoved, fun _ => hsame rfl⟩, hothers, hfilter, ?_, rfl, rfl⟩
        rw [← hns, Function.update_eq_self]
  | some target =>
      simp only [hindex, htarget] at h
      split at h
      next => simp at h
      next =>
        split at h
        next => simp at h
        next kernel hrun =>
          obtain rfl := Except.ok.inj h
          obtain ⟨⟨index', hmoved, hsame⟩, hothers, hfilter⟩ := run_relink_spec hat hrun
          exact ⟨⟨index', hmoved, hsame⟩, hothers, hfilter, rfl, rfl, rfl⟩

theorem findIndex_error
    {o : Outcome} {side : Side} {name : Text} {p p' : Progress} {e : VethError}
    (h : findIndex o side name p = .error (e, p')) :
    p' = p := by
  unfold findIndex at h
  split_ifs at h
  · exact (Prod.mk.inj (Except.error.inj h)).2.symm
  · cases hlookup : p.kernel.lookup none name with
    | none =>
        simp only [hlookup] at h
        exact (Prod.mk.inj (Except.error.inj h)).2.symm
    | some index => simp [hlookup] at h

theorem findIndex_ok
    {o : Outcome} {side : Side} {name : Text} {p p' : Progress} {pair index : Nat}
    (hat : At p.kernel pair side none name index)
    (h : findIndex o side name p = .ok p') :
    p' = { p with indexes := Function.update p.indexes side (some index) } := by
  unfold findIndex at h
  split_ifs at h
  rw [show p.kernel.lookup none name = some index from Kernel.lookup_of_mem hat] at h
  exact (Except.ok.inj h).symm

theorem waitUdev_eq
    {o : CreateOutcomes} {v : VethPair} {p : Progress} :
    waitUdev o v p = .ok p ∨ waitUdev o v p = .error (.callFailed, p) := by
  unfold waitUdev
  split_ifs
  · exact .inr rfl
  · exact .inl rfl

/-- Both ends are still in the root namespace under their temporary names. -/
structure Temporary (o : CreateOutcomes) (pair indexA indexB : Nat) (p : Progress) : Prop where
  a : At p.kernel pair .a none (o.temporaryName .a) indexA
  b : At p.kernel pair .b none (o.temporaryName .b) indexB
  ns : ∀ side, p.ns side = none

/-- The cleanup can find an end of the pair by the side it has chosen. -/
inductive Cleanable (o : CreateOutcomes) (v : VethPair) (pair : Nat) (p : Progress) : Prop
  | unnumbered (index : Nat) :
      p.indexes .a = none → p.indexes .b = none →
      At p.kernel pair .a none (o.temporaryName .a) index → Cleanable o v pair p
  | root (name : Text) (index : Nat) :
      p.ns p.cleanupSide = none → p.indexes p.cleanupSide = some index →
      At p.kernel pair p.cleanupSide none name index → Cleanable o v pair p
  | moved (index known : Nat) :
      p.ns p.cleanupSide ≠ none → p.indexes .a = some known →
      At p.kernel pair p.cleanupSide (p.ns p.cleanupSide) (v.names p.cleanupSide) index →
      Cleanable o v pair p

/-- A cleanup that can find the pair removes it and nothing else. -/
theorem cleanup_spec
    {o : CreateOutcomes} {v : VethPair} {pair : Nat} {p : Progress}
    (hclean : Cleanable o v pair p) (ho : o.CleanupSucceeds) :
    ∃ k, cleanup o v p = some k ∧ k.ifaces = p.kernel.others pair := by
  obtain ⟨hopen, hlookup, hdelete⟩ := ho
  cases hclean with
  | unnumbered index ha hb hat =>
      obtain ⟨k, hk, hifaces, -⟩ := Kernel.deleteName_of_mem hat
      refine ⟨k, ?_, hifaces⟩
      have hk' : p.kernel.deleteName none (o.temporaryName .a) = some k := hk
      rw [cleanup, if_pos ⟨ha, hb⟩, hk']
      exact run_of_succeeds hdelete
  | root name index hns hindex hat =>
      obtain ⟨k, hk, hifaces, -⟩ := Kernel.delete_of_mem hat
      refine ⟨k, ?_, hifaces⟩
      have hnumbered : ¬ (p.indexes .a = none ∧ p.indexes .b = none) := by
        rintro ⟨ha, hb⟩
        cases hside : p.cleanupSide with
        | a => simp [hside, ha] at hindex
        | b => simp [hside, hb] at hindex
      have hk' : p.kernel.delete none index = some k := hk
      rw [cleanup, if_neg hnumbered, if_pos hns]
      simp only [hindex, hk']
      exact run_of_succeeds hdelete
  | moved index known hns hindex hat =>
      obtain ⟨k, hk, hifaces, -⟩ := Kernel.delete_of_mem hat
      refine ⟨k, ?_, hifaces⟩
      have hnumbered : ¬ (p.indexes .a = none ∧ p.indexes .b = none) := by
        rintro ⟨ha, -⟩
        simp [ha] at hindex
      have hk' : p.kernel.delete (p.ns p.cleanupSide) index = some k := hk
      have hfound : p.kernel.lookup (p.ns p.cleanupSide) (v.names p.cleanupSide) =
          some index := Kernel.lookup_of_mem hat
      rw [cleanup, if_neg hnumbered, if_neg hns, if_neg (by simp [hopen, hlookup])]
      simp only [hfound, hk']
      exact run_of_succeeds hdelete

/-- With end `a` in its place, and after the placement of end `b`. -/
theorem place_b_spec
    {o : CreateOutcomes} {v : VethPair} {pair indexA indexB : Nat} {p : Progress}
    (ha : At p.kernel pair .a (v.targets .a) (v.names .a) indexA)
    (hb : At p.kernel pair .b none (o.temporaryName .b) indexB)
    (hindexA : ∃ known, p.indexes .a = some known ∧ (v.targets .a = none → known = indexA))
    (hindexB : p.indexes .b = some indexB)
    (hnsA : p.ns .a = v.targets .a) (hnsB : p.ns .b = none) (hside : p.cleanupSide = .a) :
    match place o v .b p with
    | .ok p' =>
        (∀ side, ∃ index, At p'.kernel pair side (v.targets side) (v.names side) index) ∧
          p'.ns = v.targets
    | .error (_, p') =>
        Cleanable o v pair p' ∧ p'.kernel.others pair = p.kernel.others pair := by
  cases h : place o v .b p with
  | ok p' =>
      obtain ⟨⟨index, hat, -⟩, hothers, -, hns, -, -⟩ := place_ok hb hindexB hnsB h
      refine ⟨?_, ?_⟩
      · intro side
        cases side with
        | a => exact ⟨indexA, hothers _ ha (by simp)⟩
        | b => exact ⟨index, hat⟩
      · funext side
        cases side with
        | a => simp [hns, hnsA]
        | b => simp [hns]
  | error failure =>
      obtain ⟨e, p'⟩ := failure
      obtain rfl := place_error h
      refine ⟨?_, rfl⟩
      obtain ⟨known, hknown, hsame⟩ := hindexA
      by_cases htarget : v.targets .a = none
      · refine .root (v.names .a) indexA ?_ ?_ ?_ <;> rw [hside]
        · rw [hnsA, htarget]
        · rw [hknown, hsame htarget]
        · exact htarget ▸ ha
      · refine .moved indexA known ?_ hknown ?_ <;> rw [hside, hnsA]
        · exact htarget
        · exact ha

/-- The placement loop, once both indexes are known. -/
theorem place_both_spec
    {o : CreateOutcomes} {v : VethPair} {pair indexA indexB : Nat} {p : Progress}
    (htemp : Temporary o pair indexA indexB p)
    (hindexA : p.indexes .a = some indexA) (hindexB : p.indexes .b = some indexB) :
    match (place o v .a p).bind (place o v .b) with
    | .ok p' =>
        (∀ side, ∃ index, At p'.kernel pair side (v.targets side) (v.names side) index) ∧
          p'.ns = v.targets
    | .error (_, p') =>
        Cleanable o v pair p' ∧ p'.kernel.others pair = p.kernel.others pair := by
  cases h : place o v .a p with
  | error failure =>
      obtain ⟨e, p'⟩ := failure
      obtain rfl := place_error h
      refine ⟨?_, rfl⟩
      cases hside : p'.cleanupSide with
      | a => exact .root _ indexA (htemp.ns _) (hside ▸ hindexA) (hside ▸ htemp.a)
      | b => exact .root _ indexB (htemp.ns _) (hside ▸ hindexB) (hside ▸ htemp.b)
  | ok p' =>
      obtain ⟨⟨index, hat, hkept⟩, hothers, hfilter, hns, hindexes, hside⟩ :=
        place_ok htemp.a hindexA (htemp.ns .a) h
      have hb := hothers _ htemp.b (by simp)
      have hspec := place_b_spec (o := o) hat hb
        ⟨indexA, by rw [hindexes, hindexA], fun htarget => (hkept htarget).symm⟩
        (by rw [hindexes, hindexB]) (by simp [hns]) (by simp [hns, htemp.ns]) hside
      rw [hfilter] at hspec
      exact hspec

/-- The local variables once both lookups have returned. -/
def numbered (p : Progress) (indexA indexB : Nat) : Progress :=
  { p with
    indexes := Function.update (Function.update p.indexes .a (some indexA)) .b (some indexB) }

theorem chooseCleanupSide_eq
    (v : VethPair) (p : Progress) :
    ∃ side, chooseCleanupSide v p = { p with cleanupSide := side } := by
  unfold chooseCleanupSide
  split_ifs
  · exact ⟨p.cleanupSide, rfl⟩
  · exact ⟨.b, rfl⟩

/-- The guarded statements place both ends, or leave a pair that the cleanup can find. -/
theorem createBody_spec
    {o : CreateOutcomes} {v : VethPair} {pair indexA indexB : Nat} {p : Progress}
    (htemp : Temporary o pair indexA indexB p)
    (hindexes : p.indexes = fun _ => none) (hside : p.cleanupSide = .a) :
    match createBody o v p with
    | .ok p' =>
        (∀ side, ∃ index, At p'.kernel pair side (v.targets side) (v.names side) index) ∧
          p'.ns = v.targets
    | .error (_, p') =>
        Cleanable o v pair p' ∧ p'.kernel.others pair = p.kernel.others pair := by
  unfold createBody
  simp only [bind, Except.bind]
  cases hfirst : findIndex (o.findIndex .a) .a (o.temporaryName .a) p with
  | error failure =>
      obtain ⟨e, p'⟩ := failure
      obtain rfl := findIndex_error hfirst
      exact ⟨.unnumbered indexA (by rw [hindexes]) (by rw [hindexes]) htemp.a, rfl⟩
  | ok p₁ =>
      have hp₁ := findIndex_ok htemp.a hfirst
      have htemp₁ : Temporary o pair indexA indexB p₁ := by
        rw [hp₁]
        exact ⟨htemp.a, htemp.b, htemp.ns⟩
      simp only
      cases hsecond : findIndex (o.findIndex .b) .b (o.temporaryName .b) p₁ with
      | error failure =>
          obtain ⟨e, p'⟩ := failure
          obtain rfl := findIndex_error hsecond
          have hside' : p'.cleanupSide = .a := by rw [hp₁, hside]
          refine ⟨.root _ indexA (htemp₁.ns _) ?_ (hside' ▸ htemp₁.a), by rw [hp₁]⟩
          simp [hp₁, hside]
      | ok p₂ =>
          have hp₂ : p₂ = numbered p indexA indexB := by
            rw [findIndex_ok htemp₁.b hsecond, hp₁]
            rfl
          -- both ends are numbered and in the root namespace, whichever side is chosen
          obtain ⟨side, hchosen⟩ := chooseCleanupSide_eq v p₂
          have htemp₂ : Temporary o pair indexA indexB { p₂ with cleanupSide := side } := by
            rw [hp₂]
            exact ⟨htemp.a, htemp.b, htemp.ns⟩
          have hindexA : p₂.indexes .a = some indexA := by simp [hp₂, numbered]
          have hindexB : p₂.indexes .b = some indexB := by simp [hp₂, numbered]
          have hkernel : p₂.kernel = p.kernel := by rw [hp₂]; rfl
          simp only [hchosen, ← hkernel]
          rcases waitUdev_eq (o := o) (v := v) (p := { p₂ with cleanupSide := side }) with
            hwait | hwait
          · simp only [hwait]
            exact place_both_spec (v := v) htemp₂ hindexA hindexB
          · simp only [hwait, and_true]
            cases side with
            | a => exact .root _ indexA (htemp₂.ns _) hindexA htemp₂.a
            | b => exact .root _ indexB (htemp₂.ns _) hindexB htemp₂.b

/-- A new pair stands in the root namespace under its temporary names. -/
theorem temporary_of_addPair
    {o : CreateOutcomes} {v : VethPair} {k k' : Kernel} {indexA indexB : Nat}
    (hns : ∀ side, v.ns side = none)
    (h : k.addPair (o.temporaryName .a) (o.temporaryName .b) indexA indexB = some k') :
    Temporary o k.nextPair indexA indexB
      { kernel := k', ns := v.ns, indexes := fun _ => none, cleanupSide := .a } := by
  obtain ⟨hifaces, -, -⟩ := Kernel.addPair_spec h
  constructor
  case a => simp [At, hifaces, newPair]
  case b => simp [At, hifaces, newPair]
  case ns => exact hns

theorem eq_with_ns
    {v : VethPair} {ns : Side → Scope}
    (h : v.ns = ns) :
    v = { v with ns := ns } := by
  subst h
  rfl

/-- What the body of a creation does, when no position was recorded before. -/
theorem createIn_spec
    (o : CreateOutcomes) (k : Kernel) {v : VethPair}
    (hns : ∀ side, v.ns side = none) :
    ((createIn o k v).error = none →
      (createIn o k v).veth = { v with ns := v.targets } ∧
        ∀ side, ∃ index,
          At (createIn o k v).kernel k.nextPair side (v.targets side) (v.names side) index) ∧
    ((createIn o k v).error ≠ none → o.CleanupSucceeds →
      (createIn o k v).kernel.ifaces = k.ifaces ∧
        ∀ side, (createIn o k v).veth.ns side = none) := by
  unfold createIn
  by_cases hascii : rootAscii v = true
  · simp only [hascii, if_true]
    have htargets : v.targets .a = none ∧ v.targets .b = none := by
      simp only [rootAscii, Bool.and_eq_true, decide_eq_true_eq] at hascii
      exact hascii.1
    have hall : ∀ side, v.targets side = none := by
      intro side
      cases side with
      | a => exact htargets.1
      | b => exact htargets.2
    have hrecorded : v.ns = v.targets := funext (fun side => by rw [hns, hall])
    cases hadd : o.add.run (fun first second =>
        k.addPair (v.names .a) (v.names .b) first second) with
    | none => exact ⟨by simp, fun _ _ => ⟨rfl, hns⟩⟩
    | some k' =>
        obtain ⟨indexA, indexB, hpair⟩ := run_eq_some hadd
        obtain ⟨hifaces, -, -⟩ := Kernel.addPair_spec hpair
        refine ⟨fun _ => ⟨eq_with_ns hrecorded, ?_⟩, by simp⟩
        intro side
        rw [hall side]
        cases side with
        | a => exact ⟨indexA, by simp [At, hifaces, newPair]⟩
        | b => exact ⟨indexB, by simp [At, hifaces, newPair]⟩
  · simp only [hascii, Bool.false_eq_true, if_false]
    unfold createTemporaryPair
    split_ifs with hudev
    · exact ⟨by simp, fun _ _ => ⟨rfl, hns⟩⟩
    cases hadd : o.add.run (fun first second =>
        k.addPair (o.temporaryName .a) (o.temporaryName .b) first second) with
    | none => exact ⟨by simp, fun _ _ => ⟨rfl, hns⟩⟩
    | some k' =>
        obtain ⟨indexA, indexB, hpair⟩ := run_eq_some hadd
        obtain ⟨-, -, hothers⟩ := Kernel.addPair_spec hpair
        have hbody := createBody_spec (v := v) (temporary_of_addPair hns hpair) rfl rfl
        simp only
        cases hrun : createBody o v
            { kernel := k', ns := v.ns, indexes := fun _ => none, cleanupSide := .a } with
        | ok p =>
            rw [hrun] at hbody
            exact ⟨fun _ => ⟨congrArg (fun ns => { v with ns := ns }) hbody.2, hbody.1⟩, by simp⟩
        | error failure =>
            obtain ⟨e, p⟩ := failure
            rw [hrun] at hbody
            obtain ⟨hclean, hsame⟩ := hbody
            refine ⟨fun herror => ?_, fun _ hsucceeds => ?_⟩
            · simp only at herror
              split at herror <;> simp at herror
            · obtain ⟨kernel, hcleanup, hifaces⟩ := cleanup_spec hclean hsucceeds
              simp only [hcleanup]
              exact ⟨by rw [hifaces, hsame, hothers], fun _ => True.intro⟩

/-- The body of a creation never sets the flag itself. -/
theorem createIn_created
    (o : CreateOutcomes) (k : Kernel) (v : VethPair) :
    (createIn o k v).veth.created = v.created := by
  unfold createIn createTemporaryPair
  split_ifs
  · cases o.add.run (fun first second => k.addPair (v.names .a) (v.names .b) first second) <;> rfl
  · rfl
  · cases o.add.run (fun first second =>
        k.addPair (o.temporaryName .a) (o.temporaryName .b) first second) with
    | none => rfl
    | some k' =>
        simp only
        split
        next => rfl
        next => split <;> rfl

/-- What one call of `create` guarantees. -/
structure CreateSafe (o : CreateOutcomes) (k : Kernel) (v : VethPair) : Prop where
  /-- A pair that exists is left alone. -/
  refused : v.created = true → create o k v = ⟨k, v, some .alreadyCreated⟩
  /-- A creation that raises, and whose cleanup calls succeed, leaves the interfaces of every
  namespace as they were. -/
  raised : v.created = false → (create o k v).error ≠ none → o.CleanupSucceeds →
    (create o k v).kernel.ifaces = k.ifaces ∧ (create o k v).veth.created = false ∧
      ∀ side, (create o k v).veth.ns side = none
  /-- A creation that returns has put both ends of its pair where they are recorded. -/
  placed : (create o k v).error = none →
    (create o k v).veth.created = true ∧
      ∀ side, (create o k v).veth.ns side = v.targets side ∧
        (create o k v).veth.names side = v.names side ∧
        ∃ index, At (create o k v).kernel k.nextPair side (v.targets side) (v.names side) index

/-- A creation returns early, or is decided by its body. -/
theorem create_cases
    (o : CreateOutcomes) (k : Kernel) {v : VethPair}
    (hcreated : v.created = false) :
    (∃ e, create o k v = ⟨k, v, some e⟩) ∨
    ((createIn o k v).error ≠ none ∧ create o k v = createIn o k v) ∨
    ((createIn o k v).error = none ∧ create o k v =
      { createIn o k v with veth := { (createIn o k v).veth with created := true } }) := by
  unfold create
  simp only [hcreated, Bool.false_eq_true, if_false]
  split_ifs
  · exact .inl ⟨_, rfl⟩
  cases checkFree o k v .a with
  | error e => exact .inl ⟨e, rfl⟩
  | ok _ =>
      cases checkFree o k v .b with
      | error e => exact .inl ⟨e, rfl⟩
      | ok _ =>
          cases herror : (createIn o k v).error with
          | none => exact .inr (.inr ⟨rfl, rfl⟩)
          | some e => exact .inr (.inl ⟨by simp, rfl⟩)

/-- A creation is safe when no position is recorded before it. -/
theorem createSafe_of_unrecorded
    (o : CreateOutcomes) (k : Kernel) {v : VethPair}
    (hns : v.created = false → ∀ side, v.ns side = none) :
    CreateSafe o k v := by
  cases hcreated : v.created with
  | true =>
      have hrefused : create o k v = ⟨k, v, some .alreadyCreated⟩ := by
        simp [create, hcreated]
      exact ⟨fun _ => hrefused, fun h => by simp [hcreated] at h,
        fun h => by simp [hrefused] at h⟩
  | false =>
      obtain ⟨hreturns, hraises⟩ := createIn_spec o k (hns hcreated)
      have hflag := createIn_created o k v
      refine ⟨fun h => by simp [hcreated] at h, fun _ herror hsucceeds => ?_, fun herror => ?_⟩
      · rcases create_cases o k hcreated with ⟨e, heq⟩ | ⟨hbody, heq⟩ | ⟨hbody, heq⟩
        · rw [heq]
          exact ⟨rfl, hcreated, hns hcreated⟩
        · rw [heq]
          obtain ⟨hifaces, hpositions⟩ := hraises hbody hsucceeds
          exact ⟨hifaces, hflag.trans hcreated, hpositions⟩
        · rw [heq] at herror
          exact absurd hbody herror
      · rcases create_cases o k hcreated with ⟨e, heq⟩ | ⟨hbody, heq⟩ | ⟨hbody, heq⟩
        · simp [heq] at herror
        · rw [heq] at herror
          exact absurd herror hbody
        · obtain ⟨hveth, hplaced⟩ := hreturns hbody
          rw [heq]
          refine ⟨rfl, fun side => ⟨?_, ?_, hplaced side⟩⟩
          · rw [hveth]
          · rw [hveth]

/-- The recorded positions of a created pair are the actual ones. -/
def Tracked (s : System) : Prop :=
  s.veth.created = true → Placed s.kernel s.veth s.pair

/-- No position is recorded for a pair that is about to be created. -/
def Unrecorded (s : System) (act : Act) : Prop :=
  ∀ o, act = .create o → s.veth.created = false → ∀ side, s.veth.ns side = none

theorem tracked_create
    {s t : System} {o : CreateOutcomes}
    (hs : Tracked s) (hns : s.veth.created = false → ∀ side, s.veth.ns side = none)
    (h : step s (.create o) = some t) :
    Tracked t := by
  obtain rfl := Option.some.inj h
  have hsafe := createSafe_of_unrecorded o s.kernel hns
  intro hcreated side
  cases herror : (create o s.kernel s.veth).error with
  | none =>
      obtain ⟨-, hplaced⟩ := hsafe.placed herror
      obtain ⟨hns', hnames, hat⟩ := hplaced side
      simp only [if_true, hns', hnames]
      exact hat
  | some e =>
      cases hbefore : s.veth.created with
      | true =>
          simp only [hsafe.refused hbefore]
          exact hs hbefore side
      | false =>
          -- a creation that raises does not set the flag
          have hflag : (create o s.kernel s.veth).veth.created = false := by
            rcases create_cases o s.kernel hbefore with ⟨e', heq⟩ | ⟨-, heq⟩ | ⟨hbody, heq⟩
            · rw [heq]
              exact hbefore
            · rw [heq]
              exact (createIn_created o s.kernel s.veth).trans hbefore
            · rw [heq, hbody] at herror
              simp at herror
          exact absurd (hcreated.symm.trans hflag) (by simp)

/-- `destroy` changes nothing, or leaves exactly the interfaces of the other pairs. -/
theorem destroy_spec
    {o : DestroyOutcomes} {k : Kernel} {v : VethPair} {pair : Nat}
    (hplaced : v.created = true → Placed k v pair) :
    ((destroy o k v).kernel = k ∧ (destroy o k v).veth = v ∧ (destroy o k v).error ≠ none) ∨
    ((destroy o k v).error = none ∧ (destroy o k v).kernel.ifaces = k.others pair ∧
      (destroy o k v).veth = { v with created := false, ns := fun _ => none }) := by
  unfold destroy
  split_ifs with hcreated hfailed
  · exact .inl ⟨rfl, rfl, by simp⟩
  · exact .inl ⟨rfl, rfl, by simp⟩
  · obtain ⟨index, hat⟩ := hplaced (by simpa using hcreated) .a
    obtain ⟨k', hdelete, hifaces, -⟩ := Kernel.delete_of_mem hat
    have hdelete' : k.delete (v.ns .a) index = some k' := hdelete
    rw [show k.lookup (v.ns .a) (v.names .a) = some index from Kernel.lookup_of_mem hat]
    simp only [hdelete']
    cases o.delete with
    | fails => exact .inl ⟨rfl, rfl, by simp [Outcome.run]⟩
    | succeeds first second => exact .inr ⟨rfl, hifaces, rfl⟩

/-- `move_to_namespace` changes nothing, or moves the end to the place it records. -/
theorem move_spec
    (o : MoveOutcomes) (side : Side) (target : Scope) {k : Kernel} {v : VethPair} {pair : Nat}
    (hplaced : Placed k v pair) :
    ((moveToNamespace o side target k v).kernel = k ∧
      (moveToNamespace o side target k v).veth = v) ∨
    ((moveToNamespace o side target k v).error = none ∧
      (moveToNamespace o side target k v).veth =
        { v with ns := Function.update v.ns side target } ∧
      Placed (moveToNamespace o side target k v).kernel
        { v with ns := Function.update v.ns side target } pair) := by
  obtain ⟨index, hat⟩ := hplaced side
  unfold moveToNamespace
  by_cases hfailed : (o.openNetlink.failed || o.lookup.failed) = true
  · rw [if_pos hfailed]
    exact .inl ⟨rfl, rfl⟩
  rw [if_neg hfailed]
  rw [show k.lookup (v.ns side) (v.names side) = some index from Kernel.lookup_of_mem hat]
  dsimp only
  by_cases hopen : target ≠ none ∧ o.openNamespace.failed = true
  · rw [if_pos hopen]
    exact .inl ⟨rfl, rfl⟩
  rw [if_neg hopen]
  cases hrun : o.set.run (fun newIndex _ =>
      k.relink (v.ns side) index target none newIndex) with
  | none => exact .inl ⟨rfl, rfl⟩
  | some kernel =>
      obtain ⟨⟨index', hmoved, -⟩, hothers, -⟩ := run_relink_spec hat hrun
      refine .inr ⟨rfl, rfl, ?_⟩
      intro other
      by_cases hother : other = side
      · subst hother
        simp only [Function.update_self]
        exact ⟨index', hmoved⟩
      · obtain ⟨index, hat'⟩ := hplaced other
        simp only [Function.update_of_ne hother]
        exact ⟨index, hothers _ hat' hother⟩

/-- `move_to_namespace` does not touch the flag. -/
theorem move_created
    (o : MoveOutcomes) (side : Side) (target : Scope) (k : Kernel) (v : VethPair) :
    (moveToNamespace o side target k v).veth.created = v.created := by
  unfold moveToNamespace
  by_cases hfailed : (o.openNetlink.failed || o.lookup.failed) = true
  · rw [if_pos hfailed]
  rw [if_neg hfailed]
  cases k.lookup (v.ns side) (v.names side) with
  | none => rfl
  | some index =>
      dsimp only
      split_ifs
      · rfl
      · split <;> rfl

/-- Every method keeps the record in step with the kernel. -/
theorem tracked_step
    {s t : System} {act : Act}
    (hs : Tracked s) (hok : Unrecorded s act) (h : step s act = some t) :
    Tracked t := by
  cases act with
  | create o => exact tracked_create hs (hok o rfl) h
  | destroy o =>
      obtain rfl := Option.some.inj h
      intro hcreated
      rcases destroy_spec (o := o) hs with ⟨hkernel, hveth, -⟩ | ⟨-, -, hveth⟩
      · simp only [hkernel, hveth] at hcreated ⊢
        exact hs hcreated
      · simp [hveth] at hcreated
  | move o side target =>
      obtain rfl := Option.some.inj h
      intro hcreated
      have hbefore := (move_created o side target s.kernel s.veth).symm.trans hcreated
      rcases move_spec o side target (hs hbefore) with
        ⟨hkernel, hveth⟩ | ⟨-, hveth, hplaced⟩
      · simp only [hkernel, hveth]
        exact hs hbefore
      · simp only [hveth]
        exact hplaced

/-- In every history whose creations start without recorded positions, the record of a
created pair is right and every such creation is safe. -/
theorem veth_safe
    {k : Kernel} {names : Side → Text} {targets : Side → Scope}
    {distinct : targets .a = targets .b → names .a ≠ names .b} {s : System}
    (h : Reaches step Unrecorded (initial k names targets distinct) s) :
    Tracked s ∧ ∀ o, Unrecorded s (.create o) → CreateSafe o s.kernel s.veth := by
  refine ⟨?_, fun o ho => createSafe_of_unrecorded o s.kernel (ho o rfl)⟩
  have hinitial : Tracked (initial k names targets distinct) := fun hcreated => by
    simp [initial, VethPair.init] at hcreated
  exact h.invariant hinitial (fun _ _ _ hu hok hstep => tracked_step hu hok hstep)

/-- Calls that succeed and assign the indexes 1 and 2. -/
def succeeding : CreateOutcomes where
  openRoot := .succeeds 0 0
  lookup := fun _ => .succeeds 0 0
  udevActive := false
  udevadm := false
  temporary := ['t', '1']
  add := .succeeds 1 2
  findIndex := fun _ => .succeeds 0 0
  settle := .succeeds 0 0
  openNamespace := fun _ => .succeeds 0 0
  set := fun _ => .succeeds 1 0
  cleanupOpen := .succeeds 0 0
  cleanupLookup := .succeeds 0 0
  cleanupDelete := .succeeds 0 0

/-- Whatever its calls do, a creation is safe exactly when no position is recorded. -/
theorem createSafe_iff
    (k : Kernel) (v : VethPair) :
    (∀ o, CreateSafe o k v) ↔ (v.created = false → ∀ side, v.ns side = none) := by
  refine ⟨fun h hcreated side => ?_, fun hns o => createSafe_of_unrecorded o k hns⟩
  -- a call that raises before anything is created leaves the record as it was
  have hcreate : create { succeeding with openRoot := .fails } k v =
      ⟨k, v, some .callFailed⟩ := by
    simp [create, hcreated, Outcome.failed]
  have hsafe := (h { succeeding with openRoot := .fails }).raised hcreated
    (by simp [hcreate]) ⟨rfl, rfl, rfl⟩
  rw [hcreate] at hsafe
  exact hsafe.2.2 side

/-- The steps that leave no stale record: the cleanup of a creation does its work, and only
a created pair is moved. -/
def LeavesNoRecord (s : System) : Act → Prop
  | .create o => o.CleanupSucceeds
  | .destroy _ => True
  | .move _ _ _ => s.veth.created = true

theorem unrecorded_step
    {s t : System} {act : Act}
    (hs : s.veth.created = false → ∀ side, s.veth.ns side = none) (htracked : Tracked s)
    (hok : LeavesNoRecord s act) (h : step s act = some t) :
    t.veth.created = false → ∀ side, t.veth.ns side = none := by
  intro hcreated
  cases act with
  | create o =>
      obtain rfl := Option.some.inj h
      have hsafe := createSafe_of_unrecorded o s.kernel hs
      cases hbefore : s.veth.created with
      | true =>
          simp only [hsafe.refused hbefore] at hcreated
          exact absurd (hbefore.symm.trans hcreated) (by simp)
      | false =>
          cases herror : (create o s.kernel s.veth).error with
          | none => exact absurd ((hsafe.placed herror).1.symm.trans hcreated) (by simp)
          | some e => exact (hsafe.raised hbefore (by simp [herror]) hok).2.2
  | destroy o =>
      obtain rfl := Option.some.inj h
      rcases destroy_spec (o := o) htracked with ⟨-, hveth, -⟩ | ⟨-, -, hveth⟩
      · simp only [hveth] at hcreated ⊢
        exact hs hcreated
      · simp [hveth]
  | move o side target =>
      obtain rfl := Option.some.inj h
      have hflag := move_created o side target s.kernel s.veth
      exact absurd (hflag.symm.trans hcreated) (by simp [show s.veth.created = true from hok])

/-- A history without the steps that leave a stale record. -/
theorem reaches_unrecorded
    {k : Kernel} {names : Side → Text} {targets : Side → Scope}
    {distinct : targets .a = targets .b → names .a ≠ names .b} {s : System}
    (h : Reaches step LeavesNoRecord (initial k names targets distinct) s) :
    Reaches step Unrecorded (initial k names targets distinct) s ∧
      (s.veth.created = false → ∀ side, s.veth.ns side = none) := by
  induction h with
  | refl => exact ⟨.refl, fun _ _ => rfl⟩
  | tail _ hok hstep ih =>
      obtain ⟨hrun, hns⟩ := ih
      exact ⟨hrun.tail (fun _ _ => hns) hstep,
        unrecorded_step hns (veth_safe hrun).1 hok hstep⟩

/-- No interfaces at all. -/
def emptyKernel : Kernel where
  ifaces := []
  nextPair := 0
  valid := ⟨by simp, by simp, by simp, by simp⟩

/-- Two hosts that both call their end `e`. -/
def hostNames : Side → Text := fun _ => ['e']

def hostTargets : Side → Scope
  | .a => some ['m']
  | .b => some ['n']

theorem hostTargets_distinct :
    hostTargets .a = hostTargets .b → hostNames .a ≠ hostNames .b := by
  decide

/-- A creation that fails at its second placement, and one that succeeds. -/
def recreation : List Act :=
  [.create { succeeding with set := fun side => if side = .b then .fails else .succeeds 7 0 },
    .create succeeding]

theorem veth_safe_recreated :
    ∃ s, execute step (initial emptyKernel hostNames hostTargets hostTargets_distinct)
        recreation = some s ∧
      s.kernel.ifaces = [⟨1, .a, some ['m'], ['e'], 1⟩, ⟨1, .b, some ['n'], ['e'], 1⟩] ∧
      Tracked s ∧ CreateSafe succeeding s.kernel s.veth := by
  have hrun : execute step (initial emptyKernel hostNames hostTargets hostTargets_distinct)
      recreation = some _ := rfl
  have hclean : ∀ u, ∀ act ∈ recreation, LeavesNoRecord u act := by
    intro u act hact
    simp only [recreation, List.mem_cons, List.not_mem_nil, or_false] at hact
    rcases hact with rfl | rfl <;> exact ⟨rfl, rfl, rfl⟩
  have hreaches := reaches_unrecorded (reaches_of_execute hclean hrun)
  obtain ⟨htracked, hsafe⟩ := veth_safe hreaches.1
  exact ⟨_, hrun, by decide, htracked, hsafe succeeding (fun _ _ => hreaches.2)⟩

/-- The first creation and its cleanup fail after end `a` was moved. -/
def failedCleanup : List Act :=
  [.create { succeeding with
    set := fun side => if side = .b then .fails else .succeeds 1 0
    cleanupOpen := .fails }]

/-- The second creation fails when it looks up its end `b`. -/
def failedLookup : CreateOutcomes :=
  { succeeding with
    temporary := ['t', '2']
    add := .succeeds 3 4
    findIndex := fun side => if side = .b then .fails else .succeeds 0 0 }

/-- After a creation whose cleanup failed, the next one cleans up the earlier pair and
leaves its own behind. -/
theorem stale_position_loses_pair :
    ¬ ∀ (k : Kernel) (names : Side → Text) (targets : Side → Scope)
        (distinct : targets .a = targets .b → names .a ≠ names .b) (s : System),
      Reaches step anyStep (initial k names targets distinct) s →
        ∀ o, s.veth.created = false → (create o s.kernel s.veth).error ≠ none →
          o.CleanupSucceeds →
            ∀ i ∈ (create o s.kernel s.veth).kernel.ifaces, i.pair ≠ s.kernel.nextPair := by
  intro h
  have hrun : execute step (initial emptyKernel hostNames hostTargets hostTargets_distinct)
      failedCleanup = some _ := rfl
  have hgone := h _ _ _ _ _ (reaches_of_execute (fun _ _ _ => True.intro) hrun) failedLookup
    rfl (by decide) ⟨rfl, rfl, rfl⟩
  exact absurd hgone (by decide)

end Veth
end P4Net
