import P4Net.NamedInterfaces
import P4Net.TransitionRuns
import Mathlib.Logic.Function.Basic

/-!
# The lifecycle of a veth pair

`VethPair` as a program over the kernel: `create` with both of its paths and the cleanup
of a creation that failed, `destroy` and `move_to_namespace`.

* Every netlink call, file open and wait has an `Outcome` of its own, which may be that
  it fails without effect; a call also fails when the kernel refuses it.
* `createBody` is the part of a creation that the cleanup guards; its error carries the
  local variables as they are when the exception is raised.
* `step` is one call of a method, so a run is a history of one `VethPair` object.
-/

namespace P4Net
namespace Veth

open TextLiterals Runs

/-- How a call ends; a call that succeeds gets the indexes it has to assign. -/
inductive Outcome where
  | fails
  | succeeds (first second : Nat)
deriving DecidableEq, Repr

/-- The call raises before it has any effect. -/
def Outcome.failed : Outcome → Bool
  | .fails => true
  | .succeeds _ _ => false

/-- A call with an effect; `none` is an exception. -/
def Outcome.run {α : Type} (o : Outcome) (call : Nat → Nat → Option α) : Option α :=
  match o with
  | .fails => none
  | .succeeds first second => call first second

/-- `LinkError` and the other exceptions of the methods. -/
inductive VethError where
  | alreadyCreated
  | notCreated
  | alreadyExists (side : Side)
  | notFound (side : Side)
  | udevadmMissing
  | callFailed
deriving DecidableEq, Repr

/-- A `VethPair` object: its names and target namespaces, and the recorded positions. -/
structure VethPair where
  names : Side → Text
  targets : Side → Scope
  ns : Side → Scope
  created : Bool
  /-- The check of the constructor. -/
  distinct : targets .a = targets .b → names .a ≠ names .b

/-- The object after `__init__`. -/
def VethPair.init (names : Side → Text) (targets : Side → Scope)
    (distinct : targets .a = targets .b → names .a ≠ names .b) : VethPair where
  names := names
  targets := targets
  ns := fun _ => none
  created := false
  distinct := distinct

/-- The outcomes of the calls that `create` makes. -/
structure CreateOutcomes where
  openRoot : Outcome
  lookup : Side → Outcome
  /-- `/run/udev/control` exists. -/
  udevActive : Bool
  /-- `shutil.which("udevadm")` found it. -/
  udevadm : Bool
  /-- `"p4n" + uuid.uuid4().hex[:9]`. -/
  temporary : Text
  add : Outcome
  findIndex : Side → Outcome
  settle : Outcome
  openNamespace : Side → Outcome
  set : Side → Outcome
  cleanupOpen : Outcome
  cleanupLookup : Outcome
  cleanupDelete : Outcome

/-- The calls of the cleanup itself succeed. -/
def CreateOutcomes.CleanupSucceeds (o : CreateOutcomes) : Prop :=
  o.cleanupOpen.failed = false ∧ o.cleanupLookup.failed = false ∧
    o.cleanupDelete.failed = false

/-- The names of the temporary pair. -/
def CreateOutcomes.temporaryName (o : CreateOutcomes) : Side → Text
  | .a => o.temporary ++ ['a']
  | .b => o.temporary ++ ['b']

/-- `name.isascii()`. -/
def isAscii (name : Text) : Bool :=
  name.all (fun c => decide (c.toNat < 128))

/-- The local variables of `_create_temporary_pair`, with the kernel. -/
structure Progress where
  kernel : Kernel
  ns : Side → Scope
  indexes : Side → Option Nat
  cleanupSide : Side

/-- The object and the kernel after a method, and the exception it raised. -/
structure Attempt where
  kernel : Kernel
  veth : VethPair
  error : Option VethError

/-- `indexes[side] = self._index(ipr, name)` in the root namespace. -/
def findIndex (o : Outcome) (side : Side) (name : Text) (p : Progress) :
    Except (VethError × Progress) Progress :=
  if o.failed then .error (.callFailed, p)
  else
    match p.kernel.lookup none name with
    | none => .error (.notFound side, p)
    | some index => .ok { p with indexes := Function.update p.indexes side (some index) }

/-- A name that udev has to settle before the rename. -/
def needsUdev (o : CreateOutcomes) (v : VethPair) : Bool :=
  (!isAscii (v.names .a) || !isAscii (v.names .b)) && o.udevActive

/-- `udevadm settle`. -/
def waitUdev (o : CreateOutcomes) (v : VethPair) (p : Progress) :
    Except (VethError × Progress) Progress :=
  if needsUdev o v && o.settle.failed then .error (.callFailed, p) else .ok p

/-- One turn of the placement loop. -/
def place (o : CreateOutcomes) (v : VethPair) (side : Side) (p : Progress) :
    Except (VethError × Progress) Progress :=
  match p.indexes side, v.targets side with
  | none, _ => .error (.notFound side, p)
  | some index, none =>
      match (o.set side).run (fun newIndex _ =>
        p.kernel.relink none index none (some (v.names side)) newIndex) with
      | none => .error (.callFailed, p)
      | some kernel => .ok { p with kernel := kernel, cleanupSide := side }
  | some index, some target =>
      if (o.openNamespace side).failed then .error (.callFailed, p)
      else
        match (o.set side).run (fun newIndex _ =>
          p.kernel.relink none index (some target) (some (v.names side)) newIndex) with
        | none => .error (.callFailed, p)
        | some kernel =>
            .ok { p with
              kernel := kernel
              ns := Function.update p.ns side (some target)
              cleanupSide := side }

/-- `if self._targets["a"] is not None: cleanup_side = "b"`. -/
def chooseCleanupSide (v : VethPair) (p : Progress) : Progress :=
  if v.targets .a = none then p else { p with cleanupSide := .b }

/-- The statements that the cleanup guards. -/
def createBody (o : CreateOutcomes) (v : VethPair) (p : Progress) :
    Except (VethError × Progress) Progress := do
  let p ← findIndex (o.findIndex .a) .a (o.temporaryName .a) p
  let p ← findIndex (o.findIndex .b) .b (o.temporaryName .b) p
  let p ← waitUdev o v (chooseCleanupSide v p)
  let p ← place o v .a p
  place o v .b p

/-- The cleanup of a creation that failed; `none` when the cleanup failed too. -/
def cleanup (o : CreateOutcomes) (v : VethPair) (p : Progress) : Option Kernel :=
  if p.indexes .a = none ∧ p.indexes .b = none then
    o.cleanupDelete.run (fun _ _ => p.kernel.deleteName none (o.temporaryName .a))
  else if p.ns p.cleanupSide = none then
    match p.indexes p.cleanupSide with
    | none => none
    | some index => o.cleanupDelete.run (fun _ _ => p.kernel.delete none index)
  else if o.cleanupOpen.failed || o.cleanupLookup.failed then none
  else
    match p.kernel.lookup (p.ns p.cleanupSide) (v.names p.cleanupSide) with
    | none => none
    | some index => o.cleanupDelete.run (fun _ _ => p.kernel.delete (p.ns p.cleanupSide) index)

/-- `_create_temporary_pair`. -/
def createTemporaryPair (o : CreateOutcomes) (k : Kernel) (v : VethPair) : Attempt :=
  if needsUdev o v && !o.udevadm then ⟨k, v, some .udevadmMissing⟩
  else
    match o.add.run (fun first second =>
      k.addPair (o.temporaryName .a) (o.temporaryName .b) first second) with
    | none => ⟨k, v, some .callFailed⟩
    | some kernel =>
        match createBody o v
          { kernel := kernel, ns := v.ns, indexes := fun _ => none, cleanupSide := .a } with
        | .ok p => ⟨p.kernel, { v with ns := p.ns }, none⟩
        | .error (e, p) =>
            match cleanup o v p with
            | some kernel => ⟨kernel, { v with ns := fun _ => none }, some e⟩
            | none => ⟨p.kernel, { v with ns := p.ns }, some e⟩

/-- The name of an end that stays in the root namespace must be free. -/
def checkFree (o : CreateOutcomes) (k : Kernel) (v : VethPair) (side : Side) :
    Except VethError Unit :=
  if v.targets side ≠ none then .ok ()
  else if (o.lookup side).failed then .error .callFailed
  else if (k.lookup none (v.names side)).isSome then .error (.alreadyExists side)
  else .ok ()

/-- Both ends stay in the root namespace and their names are ASCII. -/
def rootAscii (v : VethPair) : Bool :=
  decide (v.targets .a = none ∧ v.targets .b = none) &&
    (isAscii (v.names .a) && isAscii (v.names .b))

/-- The body of `with IPRoute() as ipr`. -/
def createIn (o : CreateOutcomes) (k : Kernel) (v : VethPair) : Attempt :=
  if rootAscii v then
    match o.add.run (fun first second =>
      k.addPair (v.names .a) (v.names .b) first second) with
    | none => ⟨k, v, some .callFailed⟩
    | some kernel => ⟨kernel, v, none⟩
  else
    createTemporaryPair o k v

/-- `create`. -/
def create (o : CreateOutcomes) (k : Kernel) (v : VethPair) : Attempt :=
  if v.created then ⟨k, v, some .alreadyCreated⟩
  else if o.openRoot.failed then ⟨k, v, some .callFailed⟩
  else
    match checkFree o k v .a with
    | .error e => ⟨k, v, some e⟩
    | .ok _ =>
        match checkFree o k v .b with
        | .error e => ⟨k, v, some e⟩
        | .ok _ =>
            let attempt := createIn o k v
            match attempt.error with
            | some _ => attempt
            | none => { attempt with veth := { attempt.veth with created := true } }

/-- The outcomes of the calls of `destroy`. -/
structure DestroyOutcomes where
  openNetlink : Outcome
  lookup : Outcome
  delete : Outcome

/-- `destroy`; deleting end `a` deletes both. -/
def destroy (o : DestroyOutcomes) (k : Kernel) (v : VethPair) : Attempt :=
  if v.created = false then ⟨k, v, some .notCreated⟩
  else if o.openNetlink.failed || o.lookup.failed then ⟨k, v, some .callFailed⟩
  else
    match k.lookup (v.ns .a) (v.names .a) with
    | none => ⟨k, v, some (.notFound .a)⟩
    | some index =>
        match o.delete.run (fun _ _ => k.delete (v.ns .a) index) with
        | none => ⟨k, v, some .callFailed⟩
        | some kernel => ⟨kernel, { v with created := false, ns := fun _ => none }, none⟩

/-- The outcomes of the calls of `move_to_namespace`. -/
structure MoveOutcomes where
  openNetlink : Outcome
  lookup : Outcome
  openNamespace : Outcome
  set : Outcome

/-- `move_to_namespace`; only a move to a named namespace opens a file. -/
def moveToNamespace (o : MoveOutcomes) (side : Side) (target : Scope) (k : Kernel)
    (v : VethPair) : Attempt :=
  if o.openNetlink.failed || o.lookup.failed then ⟨k, v, some .callFailed⟩
  else
    match k.lookup (v.ns side) (v.names side) with
    | none => ⟨k, v, some (.notFound side)⟩
    | some index =>
        if target ≠ none ∧ o.openNamespace.failed = true then ⟨k, v, some .callFailed⟩
        else
          match o.set.run (fun newIndex _ =>
            k.relink (v.ns side) index target none newIndex) with
          | none => ⟨k, v, some .callFailed⟩
          | some kernel => ⟨kernel, { v with ns := Function.update v.ns side target }, none⟩

/-- A call of a method, with the outcomes of its own calls. -/
inductive Act where
  | create (o : CreateOutcomes)
  | destroy (o : DestroyOutcomes)
  | move (o : MoveOutcomes) (side : Side) (target : Scope)

/-- The kernel and the object; `pair` is the pair that the last creation made. -/
structure System where
  kernel : Kernel
  veth : VethPair
  pair : Nat

/-- One method call; it always returns or raises. -/
def step (s : System) : Act → Option System
  | .create o =>
      let attempt := create o s.kernel s.veth
      some
        { kernel := attempt.kernel
          veth := attempt.veth
          pair := if attempt.error = none then s.kernel.nextPair else s.pair }
  | .destroy o =>
      let attempt := destroy o s.kernel s.veth
      some { s with kernel := attempt.kernel, veth := attempt.veth }
  | .move o side target =>
      let attempt := moveToNamespace o side target s.kernel s.veth
      some { s with kernel := attempt.kernel, veth := attempt.veth }

/-- A new object, whatever interfaces there are. -/
def initial (k : Kernel) (names : Side → Text) (targets : Side → Scope)
    (distinct : targets .a = targets .b → names .a ≠ names .b) : System where
  kernel := k
  veth := .init names targets distinct
  pair := 0

end Veth
end P4Net
