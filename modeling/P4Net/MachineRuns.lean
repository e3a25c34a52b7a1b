import P4Net.MachineLeases
import P4Net.NetworkTeardown

/-!
# Startups and teardowns on a machine

A machine is a parameter: what a statement or a release does on it is known only as far as the
manuals go.  The code decides which statements are made, and which of them are reached.

* `Machine` and `Machine.Documented` : a machine, and what is assumed of it.
* `startReturned` and `startRaised` : the statements of a startup that return, and the one that
  raises.
* `Machine.Startup` and `Machine.Releases` : a startup and a teardown.
* `inUse_raised` : what a statement that raises leaves behind.
* `Leased.releases` : what releases leave behind.
-/

namespace P4Net
namespace Deployment

open Network (StartOp Primitive Resource Raised World)

/-! ### Machines -/

/--
What may happen on a machine.  A statement takes one state to another, and returns or not; a
release does so too, and the resource is released then or not.
-/
structure Machine where
  statement : StartOp → Bool → Linux → Linux → Prop
  release : Resource → Bool → Linux → Linux → Prop

/--
What may be left of a resource whose creation raises.  The ends of a pair may still be in the root
namespace, under whatever names.
-/
def MayLeave : Resource → Resource → Prop
  | .veth veth, .veth left =>
      ∀ side, endOf left side = endOf veth side ∨ (endOf left side).1 = none
  | resource, left => left = resource

/-- The statement neither calls a primitive nor creates a resource. -/
def isLookup : StartOp → Bool
  | .call _ => false
  | .create _ => false
  | _ => true

/-- What is assumed of a machine, on which nobody else makes changes. -/
structure Machine.Documented (m : Machine) : Prop where
  /-- What returns has done what it is for. -/
  returned : ∀ op k k', m.statement op true k k' → k.exec op = some k'
  /-- What raises was refused, or had been done when it was interrupted. -/
  refused : ∀ primitive k k', m.statement (.call primitive) false k k' →
    k' = k ∨ k.call primitive = some k'
  /-- A creation that raises may leave its resource, which is recorded nowhere. -/
  abandoned : ∀ resource k k', m.statement (.create resource) false k k' →
    k' = k ∨ ∃ left mid, MayLeave resource left ∧ k.create left = some mid ∧
      k' = { mid with veth := k.veth }
  lookup : ∀ op k k', isLookup op = true → m.statement op false k k' → k' = k
  released : ∀ resource k k', m.release resource true k k' → k' = k.release resource
  /-- Of a resource that is not released some interfaces may be gone. -/
  kept : ∀ resource k k', m.release resource false k k' → k' = k ∨
    ∃ gone, (∀ key, gone key = true → Owns [resource] key) ∧ k' = k.removeIfaces gone

/-- Statements that all return. -/
def Machine.Runs (m : Machine) : List StartOp → Linux → Linux → Prop
  | [], k, k' => k' = k
  | op :: rest, k, k' => ∃ mid, m.statement op true k mid ∧ m.Runs rest mid k'

/-- Releases, of which some are done. -/
def Machine.Releases (m : Machine) (done : Resource → Bool) : List Resource → Linux → Linux → Prop
  | [], k, k' => k' = k
  | resource :: rest, k, k' =>
      ∃ mid, m.release resource (done resource) k mid ∧ m.Releases done rest mid k'

namespace Machine.Documented

variable {m : Machine} (hm : m.Documented)

include hm

theorem execAll
    {ops : List StartOp} {k k' : Linux} (h : m.Runs ops k k') :
    execAll ops k = some k' := by
  induction ops generalizing k with
  | nil => exact congrArg some h.symm
  | cons op rest ih =>
      obtain ⟨mid, hop, hrest⟩ := h
      rw [Deployment.execAll, hm.returned op k mid hop, Option.bind_some]
      exact ih hrest

/-- What is not released stays on the lease. -/
theorem releases
    {done : Resource → Bool} {items kept : List Resource} {k k' k'' : Linux}
    (h : Leased (items ++ kept) k k') (hk : k.Sound) (hreleases : m.Releases done items k' k'') :
    Leased ((items.filter fun resource => !done resource) ++ kept) k k'' := by
  induction items generalizing kept k' with
  | nil =>
      obtain rfl := hreleases
      exact h
  | cons resource rest ih =>
      obtain ⟨mid, hrelease, hrest⟩ := hreleases
      cases hdone : done resource with
      | true =>
          rw [hdone] at hrelease
          obtain rfl := hm.released resource k' mid hrelease
          rw [List.filter_cons_of_neg (by simp [hdone])]
          exact ih (h.release hk) hrest
      | false =>
          rw [hdone] at hrelease
          have hmid : Leased (resource :: (rest ++ kept)) k mid := by
            rcases hm.kept resource k' mid hrelease with rfl | ⟨gone, hgone, rfl⟩
            · exact h
            · exact h.removeIfaces hk fun key hkey => (hgone key hkey).mono (by simp)
          have hlast := ih (hmid.perm List.perm_middle.symm) hrest
          rw [List.filter_cons_of_pos (by simp [hdone])]
          exact hlast.perm List.perm_middle

end Machine.Documented

/-! ### Startups -/

/-- The statements of a list that return, when some may raise. -/
def returned (env : Nat → Option Raised) : Nat → List StartOp → World → List StartOp
  | _, [], _ => []
  | i, op :: rest, w =>
      match Network.runOp (env i) op w with
      | .error _ => []
      | .ok w' => op :: returned env (i + 1) rest w'

/-- The statement of a list that raises, if one does. -/
def raisedAt (env : Nat → Option Raised) : Nat → List StartOp → World → Option StartOp
  | _, [], _ => none
  | i, op :: rest, w =>
      match Network.runOp (env i) op w with
      | .error _ => some op
      | .ok w' => raisedAt env (i + 1) rest w'

/-- The statements of `_do_start` that return. -/
def startReturned (env : Nat → Option Raised) (n : Network.Topology) (options : Network.Options)
    (w : World) : List StartOp :=
  match Network.runOps env 0 (Network.startOps1 n options) w with
  | (_, some _) => returned env 0 (Network.startOps1 n options) w
  | (w', none) => Network.startOps1 n options ++
      returned env (Network.startOps1 n options).length
        (Network.startOps2 n w'.net.res.bmv2Switches.entries) w'

/-- The statement of `_do_start` that raises, if one does. -/
def startRaised (env : Nat → Option Raised) (n : Network.Topology) (options : Network.Options)
    (w : World) : Option StartOp :=
  match Network.runOps env 0 (Network.startOps1 n options) w with
  | (_, some _) => raisedAt env 0 (Network.startOps1 n options) w
  | (w', none) => raisedAt env (Network.startOps1 n options).length
      (Network.startOps2 n w'.net.res.bmv2Switches.entries) w'

/-- A startup on a machine, up to the statement that raises, if one does. -/
def Machine.Startup (m : Machine) (env : Nat → Option Raised) (n : Network.Topology)
    (options : Network.Options) (w : World) (k k' : Linux) : Prop :=
  ∃ mid, m.Runs (startReturned env n options w) k mid ∧
    match startRaised env n options w with
    | none => k' = mid
    | some op => m.statement op false mid k'

/-- A statement that returns is an event if it has created something. -/
theorem runOp_events
    {outcome : Option Raised} {op : StartOp} {w w' : World}
    (h : Network.runOp outcome op w = .ok w') :
    w'.events = w.events ++ (createdBy [op]).map .created := by
  by_cases hcreate : ∃ resource, op = .create resource
  · obtain ⟨resource, rfl⟩ := hcreate
    cases resource with
    | netns name =>
        simp only [Network.runOp] at h
        split_ifs at h
        cases outcome <;> cases h
        rfl
    | _ =>
        cases outcome <;> cases h
        rfl
  · have hnone : createdBy [op] = [] := by
      cases op with
      | create resource => exact absurd ⟨resource, rfl⟩ hcreate
      | _ => rfl
    have hrun : ∃ res, w' = { w with net := { w.net with res := res } } := by
      cases op with
      | create resource => exact absurd ⟨resource, rfl⟩ hcreate
      | _ =>
          simp only [Network.runOp] at h
          split at h <;> cases h
          exact ⟨_, rfl⟩
    obtain ⟨res, rfl⟩ := hrun
    rw [hnone, List.map_nil, List.append_nil]

/-- Statements, by those that return. -/
structure ReturnedSpec (env : Nat → Option Raised) (i : Nat) (ops : List StartOp) (w : World) :
    Prop where
  events : (Network.runOps env i ops w).1.events =
    w.events ++ (createdBy (returned env i ops w)).map .created
  all : (Network.runOps env i ops w).2 = none → returned env i ops w = ops
  raised : (Network.runOps env i ops w).2 = none ↔ raisedAt env i ops w = none

theorem returned_spec
    (env : Nat → Option Raised) (i : Nat) (ops : List StartOp) (w : World) :
    ReturnedSpec env i ops w := by
  induction ops generalizing i w with
  | nil => exact ⟨(List.append_nil _).symm, fun _ => rfl, iff_of_true rfl rfl⟩
  | cons op ops ih =>
      cases hrun : Network.runOp (env i) op w with
      | error exc =>
          constructor <;> simp [Network.runOps, returned, raisedAt, hrun, createdBy]
      | ok mid =>
          obtain ⟨hevents, hall, hraised⟩ := ih (i + 1) mid
          have hcons : ∀ rest : List StartOp, createdBy (op :: rest) =
              createdBy [op] ++ createdBy rest :=
            fun rest => List.filterMap_append (l := [op]) ..
          constructor <;> simp only [Network.runOps, returned, raisedAt, hrun]
          · rw [hcons, List.map_append, ← List.append_assoc, ← runOp_events hrun]
            exact hevents
          · exact fun hnone => congrArg (op :: ·) (hall hnone)
          · exact hraised

/-- A startup that returns has made all of its statements. -/
theorem startReturned_of_returns
    {env : Nat → Option Raised} {n : Network.Topology} {options : Network.Options} {w : World}
    (h : (Network.doStart env n options w).2 = none) :
    startRaised env n options w = none ∧ ∃ bmv2Switches, startReturned env n options w =
      Network.startOps1 n options ++ Network.startOps2 n bmv2Switches := by
  revert h
  unfold Network.doStart startReturned startRaised
  rcases Network.runOps env 0 (Network.startOps1 n options) w with ⟨mid, _ | exc⟩ <;> intro h
  · have hspec := returned_spec env (Network.startOps1 n options).length
      (Network.startOps2 n mid.net.res.bmv2Switches.entries) mid
    exact ⟨hspec.raised.mp h, _, congrArg (_ ++ ·) (hspec.all h)⟩
  · cases h

/-! ### A machine that refuses nothing -/

/-- A machine that does what is documented, and nothing when it raises. -/
def obedient : Machine where
  statement op returns k k' := if returns then k.exec op = some k' else k' = k
  release resource done k k' := if done then k' = k.release resource else k' = k

theorem documented_obedient :
    obedient.Documented where
  returned := fun _ _ _ h => h
  refused := fun _ _ _ h => Or.inl h
  abandoned := fun _ _ _ h => Or.inl h
  lookup := fun _ _ _ _ h => h
  released := fun _ _ _ h => h
  kept := fun _ _ _ h => Or.inl h

theorem runs_obedient
    {ops : List StartOp} {k k' : Linux} (h : execAll ops k = some k') :
    obedient.Runs ops k k' := by
  induction ops generalizing k with
  | nil => exact (Option.some.inj h).symm
  | cons op rest ih =>
      obtain ⟨mid, hop, hrest⟩ := Option.bind_eq_some_iff.mp h
      exact ⟨mid, hop, ih hrest⟩

end Deployment
end P4Net
