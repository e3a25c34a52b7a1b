import P4Net.PythonObjects
import P4Net.TableEntryRoundTrip
import P4Net.Transcripts

/-!
# Multicast groups and counters of a switch

Besides table entries the clients write and read two kinds of entities.  Multicast groups are
kept by the packet replication engine under positive ids, and other controllers may change them
too.  Counters are changed by the traffic at any time, also between the two RPCs of a reset.

* `mcastWrite`, `listMulticastGroups` : the calls on groups.
* `groups_refine` : their replies are those of a map from ids to lists of ports.
* `readCounter`, `resetCounter` : the calls on counters.
* `counters_refine` : their replies are those of cells that traffic adds to.
-/

namespace P4Net
namespace DeviceEntities

open Transcripts

/-- The responses of a Read; an entity of another kind is `none`. -/
structure EntityStream (α : Type) where
  responses : List (List (Option α))
  error : Option Nat

/-- The entities of the kind that was asked for, in the order of their arrival. -/
def EntityStream.entities {α : Type} (stream : EntityStream α) : List α :=
  stream.responses.flatten.filterMap id

/-- What the calls on entities raise. -/
inductive EntityError where
  | notConnected
  | noPipeline
  | badGroupId (groupId : Int)
  | valueOutOfRange (value : Int)
  | noSuchCounter (name : String)
  | rpc (status : Nat)
deriving DecidableEq, Repr

/-- Assign an integer to a `uint32` field of a message. -/
def uint32 (n : Int) : Except EntityError Nat :=
  if 0 ≤ n ∧ n < 2 ^ 32 then .ok n.toNat else .error (.valueOutOfRange n)

theorem uint32_eq_ok_iff
    (z : Int) (n : Nat) :
    uint32 z = .ok n ↔ z = n ∧ n < 2 ^ 32 := by
  unfold uint32
  split_ifs with h
  · constructor
    · intro hn
      have hn := Except.ok.inj hn
      omega
    · rintro ⟨rfl, -⟩
      rfl
  · constructor
    · intro hn
      cases hn
    · intro hn
      omega

/-! ### Multicast groups -/

/-- `p4.v1.Replica`. -/
structure Replica where
  egressPort : Nat
  replicaInstance : Nat
deriving DecidableEq, Repr

/-- `p4.v1.MulticastGroupEntry`. -/
structure GroupEntry where
  groupId : Nat
  replicas : List Replica
deriving DecidableEq, Repr

/-- A WriteRequest with one update of a multicast group, and the identity of the client. -/
structure GroupRequest where
  deviceId : Nat
  role : Option String
  electionIdHigh : Nat
  electionIdLow : Nat
  type : UpdateType
  group : GroupEntry
deriving DecidableEq, Repr

/-- The groups that a device has, by id. -/
abbrev GroupStore := OrderedDict Nat (List Replica)

/-- The stub: what a Read of all groups streams, and the store and status after a Write. -/
structure GroupStub where
  read : GroupStore → Nat → EntityStream GroupEntry
  write : GroupStore → GroupRequest → GroupStore × Option Nat

/-- One replica for each port, with instance 1. -/
def replicasOf (ports : List Int) : Except EntityError (List Replica) :=
  ports.mapM fun port => do
    let egressPort ← uint32 port
    return ⟨egressPort, 1⟩

/-- A DELETE has no replicas. -/
def requestReplicas (type : UpdateType) (ports : List Int) : Except EntityError (List Replica) :=
  match type with
  | .delete => .ok []
  | _ => replicasOf ports

/-- The request of `_mcast_write`. -/
def mcastRequest (client : ClientView) (groupId : Int) (ports : List Int) (type : UpdateType) :
    Except EntityError GroupRequest :=
  if ¬ client.isConnected then .error .notConnected
  else if groupId ≤ 0 then .error (.badGroupId groupId)
  else do
    let id ← uint32 groupId
    let replicas ← requestReplicas type ports
    return ⟨client.deviceId, client.roleName.filter (fun name => name ≠ ""),
      client.electionIdHigh, client.electionIdLow, type, ⟨id, replicas⟩⟩

/-- `_mcast_write`. -/
def mcastWrite (stub : GroupStub) (client : ClientView) (store : GroupStore) (groupId : Int)
    (ports : List Int) (type : UpdateType) : GroupStore × Except EntityError Unit :=
  match mcastRequest client groupId ports type with
  | .error e => (store, .error e)
  | .ok req =>
      match stub.write store req with
      | (store', none) => (store', .ok ())
      | (store', some status) => (store', .error (.rpc status))

/-- `add_multicast_group`. -/
def addMulticastGroup (stub : GroupStub) (client : ClientView) (store : GroupStore)
    (groupId : Int) (ports : List Int) : GroupStore × Except EntityError Unit :=
  mcastWrite stub client store groupId ports .insert

/-- `modify_multicast_group`. -/
def modifyMulticastGroup (stub : GroupStub) (client : ClientView) (store : GroupStore)
    (groupId : Int) (ports : List Int) : GroupStore × Except EntityError Unit :=
  mcastWrite stub client store groupId ports .modify

/-- `delete_multicast_group`. -/
def deleteMulticastGroup (stub : GroupStub) (client : ClientView) (store : GroupStore)
    (groupId : Int) : GroupStore × Except EntityError Unit :=
  mcastWrite stub client store groupId [] .delete

/-- `list_multicast_groups`: the instances of the replicas are left out. -/
def listMulticastGroups (stub : GroupStub) (client : ClientView) (store : GroupStore) :
    Except EntityError (OrderedDict Nat (List Nat)) :=
  if ¬ client.isConnected then .error .notConnected
  else
    let stream := stub.read store client.deviceId
    match stream.error with
    | some status => .error (.rpc status)
    | none => .ok (.ofList (stream.entities.map fun entry =>
        (entry.groupId, entry.replicas.map Replica.egressPort)))

/-- One update: INSERT needs a new id, MODIFY and DELETE one that is present. -/
def GroupStore.apply (store : GroupStore) (type : UpdateType) (group : GroupEntry) :
    Option GroupStore :=
  match type with
  | .insert =>
      if group.groupId ∈ store.keys then none else some (store.set group.groupId group.replicas)
  | .modify =>
      if group.groupId ∈ store.keys then some (store.set group.groupId group.replicas) else none
  | .delete => if group.groupId ∈ store.keys then some (store.erase group.groupId) else none

/-- What the device promises about its answers on a store. -/
structure ServesGroups (stub : GroupStub) (store : GroupStore) : Prop where
  read : ∀ deviceId, (stub.read store deviceId).error = none →
    ((stub.read store deviceId).entities.map fun entry => (entry.groupId, entry.replicas)).Perm
      store.entries
  write_ok : ∀ req, (stub.write store req).2 = none →
    GroupStore.apply store req.type req.group = some (stub.write store req).1
  write_failed : ∀ req status, (stub.write store req).2 = some status →
    (stub.write store req).1 = store

/-- A call on groups, or a change by another controller. -/
inductive GroupOp where
  | add (groupId : Int) (ports : List Int)
  | modify (groupId : Int) (ports : List Int)
  | delete (groupId : Int)
  | list
  | foreign (store : GroupStore)

/-- A call, the client that makes it, and how the device answers it. -/
structure GroupCall where
  stub : GroupStub
  client : ClientView
  op : GroupOp

/-- What a call returns or raises. -/
inductive GroupReply where
  | done
  | listed (groups : OrderedDict Nat (List Nat))
  | raised (error : EntityError)

/-- The reply of a call that returns nothing. -/
def groupReply (out : GroupStore × Except EntityError Unit) : GroupStore × GroupReply :=
  match out.2 with
  | .ok () => (out.1, .done)
  | .error e => (out.1, .raised e)

/-- The store after a call, and its reply. -/
def serveGroups (store : GroupStore) (call : GroupCall) : GroupStore × GroupReply :=
  let ⟨stub, client, op⟩ := call
  match op with
  | .add groupId ports => groupReply (addMulticastGroup stub client store groupId ports)
  | .modify groupId ports => groupReply (modifyMulticastGroup stub client store groupId ports)
  | .delete groupId => groupReply (deleteMulticastGroup stub client store groupId)
  | .list =>
      match listMulticastGroups stub client store with
      | .ok groups => (store, .listed groups)
      | .error e => (store, .raised e)
  | .foreign store' => (store', .done)

/-- The groups as their callers see them: the ports of each id. -/
abbrev Groups := Nat → Option (List Nat)

/-- The groups of a store. -/
def groupsOf (store : GroupStore) : Groups :=
  fun id => (store.get? id).map fun replicas => replicas.map Replica.egressPort

/-- What the reply to a call says about the groups before and after it. -/
inductive GroupStep : Groups → GroupCall → GroupReply → Groups → Prop
  | add {groups : Groups} {stub : GroupStub} {client : ClientView} {id : Nat} {ports : List Nat}
      (hid : 0 < id ∧ id < 2 ^ 32) (hports : ∀ port ∈ ports, port < 2 ^ 32)
      (hnew : groups id = none) :
      GroupStep groups ⟨stub, client, .add id (ports.map Int.ofNat)⟩ .done
        (Function.update groups id (some ports))
  | modify {groups : Groups} {stub : GroupStub} {client : ClientView} {id : Nat}
      {ports : List Nat}
      (hid : 0 < id ∧ id < 2 ^ 32) (hports : ∀ port ∈ ports, port < 2 ^ 32)
      (hold : (groups id).isSome = true) :
      GroupStep groups ⟨stub, client, .modify id (ports.map Int.ofNat)⟩ .done
        (Function.update groups id (some ports))
  | delete {groups : Groups} {stub : GroupStub} {client : ClientView} {id : Nat}
      (hid : 0 < id ∧ id < 2 ^ 32) (hold : (groups id).isSome = true) :
      GroupStep groups ⟨stub, client, .delete id⟩ .done (Function.update groups id none)
  | list {groups : Groups} {stub : GroupStub} {client : ClientView}
      {listed : OrderedDict Nat (List Nat)} (hlisted : ∀ id, listed.get? id = groups id) :
      GroupStep groups ⟨stub, client, .list⟩ (.listed listed) groups
  | foreign {groups : Groups} {stub : GroupStub} {client : ClientView} (store : GroupStore) :
      GroupStep groups ⟨stub, client, .foreign store⟩ .done (groupsOf store)
  | raised {groups : Groups} {call : GroupCall} (e : EntityError) :
      GroupStep groups call (.raised e) groups

/-- The ports of a request that is built are the ports of the call, each once and in order. -/
theorem replicasOf_ok
    {ports : List Int} {replicas : List Replica} (h : replicasOf ports = .ok replicas) :
    ∃ ns : List Nat, ports = ns.map Int.ofNat ∧ (∀ n ∈ ns, n < 2 ^ 32) ∧
      replicas.map Replica.egressPort = ns := by
  have hall := (Topo.mapM_eq_ok_iff _ _ _).mp h
  clear h
  induction hall with
  | nil => exact ⟨[], rfl, by simp, rfl⟩
  | cons hport _ ih =>
      obtain ⟨n, hn, hreplica⟩ := (Topo.bind_eq_ok_iff _ _ _).mp hport
      obtain ⟨rfl, hlt⟩ := (uint32_eq_ok_iff _ _).mp hn
      obtain rfl := Except.ok.inj hreplica
      obtain ⟨ns, rfl, hns, hmap⟩ := ih
      exact ⟨n :: ns, rfl, List.forall_mem_cons.mpr ⟨hlt, hns⟩, by rw [List.map_cons, hmap]⟩

/-- What is sent for a call on a group. -/
theorem mcastRequest_ok
    {client : ClientView} {groupId : Int} {ports : List Int} {type : UpdateType}
    {req : GroupRequest} (h : mcastRequest client groupId ports type = .ok req) :
    req.type = type ∧ groupId = req.group.groupId ∧
      (0 < req.group.groupId ∧ req.group.groupId < 2 ^ 32) ∧
      (type ≠ .delete → ∃ ns : List Nat, ports = ns.map Int.ofNat ∧ (∀ n ∈ ns, n < 2 ^ 32) ∧
        req.group.replicas.map Replica.egressPort = ns) := by
  unfold mcastRequest at h
  by_cases hconnected : client.isConnected = true
  · rw [if_neg (not_not.mpr hconnected)] at h
    by_cases hpositive : groupId ≤ 0
    · rw [if_pos hpositive] at h
      cases h
    · rw [if_neg hpositive] at h
      simp only [Topo.bind_eq_ok_iff] at h
      obtain ⟨id, hid, replicas, hreplicas, h⟩ := h
      obtain ⟨rfl, hlt⟩ := (uint32_eq_ok_iff _ _).mp hid
      obtain rfl := Except.ok.inj h
      have hpos : 0 < id := by omega
      refine ⟨rfl, rfl, ⟨hpos, hlt⟩, fun htype => ?_⟩
      cases type with
      | insert => exact replicasOf_ok hreplicas
      | modify => exact replicasOf_ok hreplicas
      | delete => exact absurd rfl htype
  · rw [if_pos hconnected] at h
    cases h

section Groups

variable {stub : GroupStub} {store : GroupStore} (hserves : ServesGroups stub store)

include hserves

/-- A call that writes a group gets its update applied, or changes nothing. -/
theorem groupReply_mcastWrite
    (client : ClientView) (groupId : Int) (ports : List Int) (type : UpdateType) :
    (∃ e, groupReply (mcastWrite stub client store groupId ports type) = (store, .raised e)) ∨
      ∃ req store', mcastRequest client groupId ports type = .ok req ∧
        GroupStore.apply store req.type req.group = some store' ∧
        groupReply (mcastWrite stub client store groupId ports type) = (store', .done) := by
  unfold mcastWrite
  cases hrequest : mcastRequest client groupId ports type with
  | error e => exact Or.inl ⟨e, rfl⟩
  | ok req =>
      cases hwrite : stub.write store req with
      | mk store' status =>
          simp only [hwrite, groupReply]
          cases status with
          | none =>
              have happly := hserves.write_ok req (by rw [hwrite])
              rw [hwrite] at happly
              exact Or.inr ⟨req, store', rfl, happly, rfl⟩
          | some status =>
              have hfailed := hserves.write_failed req status (by rw [hwrite])
              rw [hwrite] at hfailed
              exact Or.inl ⟨_, by rw [show store' = store from hfailed]⟩

/-- INSERT and MODIFY of a group. -/
theorem mcastWrite_set
    (client : ClientView) (groupId : Int) (ports : List Int) {type : UpdateType}
    (htype : type ≠ .delete) :
    let out := groupReply (mcastWrite stub client store groupId ports type)
    (∃ e, out = (store, .raised e)) ∨
      ∃ (id : Nat) (ns : List Nat), groupId = id ∧ ports = ns.map Int.ofNat ∧
        (0 < id ∧ id < 2 ^ 32) ∧ (∀ n ∈ ns, n < 2 ^ 32) ∧
        ((groupsOf store id).isSome = true ↔ type = .modify) ∧ out.2 = .done ∧
        groupsOf out.1 = Function.update (groupsOf store) id (some ns) := by
  intro out
  rcases groupReply_mcastWrite hserves client groupId ports type with
    hraised | ⟨req, store', hrequest, happly, hdone⟩
  · exact Or.inl hraised
  obtain ⟨rfl, rfl, hid, hports⟩ := mcastRequest_ok hrequest
  obtain ⟨ns, rfl, hns, hmap⟩ := hports htype
  have hout : out = (store', .done) := hdone
  obtain ⟨rfl, hpresent⟩ : store' = store.set req.group.groupId req.group.replicas ∧
      (req.group.groupId ∈ store.keys ↔ req.type = .modify) := by
    unfold GroupStore.apply at happly
    cases htype' : req.type with
    | delete => exact absurd htype' htype
    | insert =>
        simp only [htype'] at happly
        split_ifs at happly with hmem
        exact ⟨(Option.some.inj happly).symm, by simp [hmem]⟩
    | modify =>
        simp only [htype'] at happly
        split_ifs at happly with hmem
        exact ⟨(Option.some.inj happly).symm, by simp [hmem]⟩
  refine Or.inr ⟨_, ns, rfl, rfl, hid, hns, ?_, by rw [hout], ?_⟩
  · rw [groupsOf, Option.isSome_map, OrderedDict.get?_isSome_iff, hpresent]
  · rw [hout]
    funext id
    unfold groupsOf
    by_cases hsame : id = req.group.groupId
    · subst hsame
      rw [Function.update_self, OrderedDict.get?_set_self, Option.map_some, hmap]
    · rw [Function.update_of_ne hsame, OrderedDict.get?_set_of_ne hsame]

/-- DELETE of a group. -/
theorem mcastWrite_erase
    (client : ClientView) (groupId : Int) :
    let out := groupReply (mcastWrite stub client store groupId [] .delete)
    (∃ e, out = (store, .raised e)) ∨
      ∃ id : Nat, groupId = id ∧ (0 < id ∧ id < 2 ^ 32) ∧ (groupsOf store id).isSome = true ∧
        out.2 = .done ∧ groupsOf out.1 = Function.update (groupsOf store) id none := by
  intro out
  rcases groupReply_mcastWrite hserves client groupId [] .delete with
    hraised | ⟨req, store', hrequest, happly, hdone⟩
  · exact Or.inl hraised
  obtain ⟨htype, rfl, hid, -⟩ := mcastRequest_ok hrequest
  have hout : out = (store', .done) := hdone
  obtain ⟨rfl, hmem⟩ : store' = store.erase req.group.groupId ∧
      req.group.groupId ∈ store.keys := by
    simp only [GroupStore.apply, htype] at happly
    split_ifs at happly with hmem
    exact ⟨(Option.some.inj happly).symm, hmem⟩
  refine Or.inr ⟨_, rfl, hid, ?_, by rw [hout], ?_⟩
  · rw [groupsOf, Option.isSome_map, OrderedDict.get?_isSome_iff]
    exact hmem
  · rw [hout]
    funext id
    unfold groupsOf
    by_cases hsame : id = req.group.groupId
    · subst hsame
      rw [Function.update_self, OrderedDict.get?_erase_self, Option.map_none]
    · rw [Function.update_of_ne hsame, OrderedDict.get?_erase_of_ne hsame]

/-- A listing shows every group with the ports of its replicas, and no other. -/
theorem listMulticastGroups_ok
    {client : ClientView} {listed : OrderedDict Nat (List Nat)}
    (h : listMulticastGroups stub client store = .ok listed) (id : Nat) :
    listed.get? id = groupsOf store id := by
  unfold listMulticastGroups at h
  split_ifs at h
  simp only at h
  split at h
  · cases h
  · rename_i herror
    obtain rfl := Except.ok.inj h
    have hperm := hserves.read client.deviceId herror
    have hports := hperm.map fun e => (e.1, e.2.map Replica.egressPort)
    simp only [List.map_map, Function.comp_def] at hports
    have hnodup : ((store.entries.map fun e => (e.1, e.2.map Replica.egressPort)).map
        Prod.fst).Nodup := by
      rw [List.map_map]
      exact store.nodup
    have hkeys := (hports.map Prod.fst).nodup_iff.mpr hnodup
    ext ports
    rw [OrderedDict.get?_ofList_eq_some_iff hkeys, hports.mem_iff, groupsOf,
      Option.map_eq_some_iff, List.mem_map]
    constructor
    · rintro ⟨e, he, heq⟩
      obtain ⟨rfl, rfl⟩ := Prod.mk.inj heq
      exact ⟨e.2, (OrderedDict.get?_eq_some_iff _ _ _).mpr he, rfl⟩
    · rintro ⟨replicas, hget, rfl⟩
      exact ⟨(id, replicas), (OrderedDict.get?_eq_some_iff _ _ _).mp hget, rfl⟩

end Groups

/-- One call is a step of the groups. -/
theorem serveGroups_step
    (store : GroupStore) (call : GroupCall) (hserves : ServesGroups call.stub store) :
    GroupStep (groupsOf store) call (serveGroups store call).2
      (groupsOf (serveGroups store call).1) := by
  obtain ⟨stub, client, op⟩ := call
  have hraised : ∀ {out : GroupStore × GroupReply} {e : EntityError}, out = (store, .raised e) →
      GroupStep (groupsOf store) ⟨stub, client, op⟩ out.2 (groupsOf out.1) := by
    rintro _ e rfl
    exact .raised e
  cases op with
  | add groupId ports =>
      rcases mcastWrite_set hserves client groupId ports
          (show UpdateType.insert ≠ .delete by decide) with
        ⟨e, he⟩ | ⟨id, ns, rfl, rfl, hid, hns, hpresent, hdone, hgroups⟩
      · exact hraised he
      · have hnew : groupsOf store id = none := by simpa using hpresent
        have hstep : GroupStep (groupsOf store) ⟨stub, client, .add id (ns.map Int.ofNat)⟩ .done
            (Function.update (groupsOf store) id (some ns)) := .add hid hns hnew
        rwa [← hgroups, ← hdone] at hstep
  | modify groupId ports =>
      rcases mcastWrite_set hserves client groupId ports
          (show UpdateType.modify ≠ .delete by decide) with
        ⟨e, he⟩ | ⟨id, ns, rfl, rfl, hid, hns, hpresent, hdone, hgroups⟩
      · exact hraised he
      · have hstep : GroupStep (groupsOf store) ⟨stub, client, .modify id (ns.map Int.ofNat)⟩ .done
            (Function.update (groupsOf store) id (some ns)) := .modify hid hns (hpresent.mpr rfl)
        rwa [← hgroups, ← hdone] at hstep
  | delete groupId =>
      rcases mcastWrite_erase hserves client groupId with
        ⟨e, he⟩ | ⟨id, rfl, hid, hold, hdone, hgroups⟩
      · exact hraised he
      · have hstep : GroupStep (groupsOf store) ⟨stub, client, .delete id⟩ .done
            (Function.update (groupsOf store) id none) := .delete hid hold
        rwa [← hgroups, ← hdone] at hstep
  | list =>
      cases hresult : listMulticastGroups stub client store with
      | error e => exact hraised (e := e) (by simp only [serveGroups, hresult])
      | ok listed =>
          have hreply : serveGroups store ⟨stub, client, .list⟩ = (store, .listed listed) := by
            simp only [serveGroups, hresult]
          rw [hreply]
          exact .list (listMulticastGroups_ok hserves hresult)
  | foreign store' => exact .foreign store'

/--
Whatever clients and other controllers do, the replies to the calls on multicast groups are
those of a map from positive ids to lists of ports.
-/
theorem groups_refine
    (store : GroupStore) (calls : List GroupCall)
    (hserves : Admitted serveGroups (fun store call => ServesGroups call.stub store) store calls) :
    Explains GroupStep (groupsOf store) (transcript serveGroups store calls).1
      (groupsOf (transcript serveGroups store calls).2) := by
  exact Explains.of_abstraction groupsOf serveGroups_step hserves

/-- A device that streams each group in a response of its own and applies every Write it can. -/
def groupStub : GroupStub where
  read := fun store _ =>
    ⟨store.entries.map fun entry => [some ⟨entry.1, entry.2⟩], none⟩
  write := fun store req =>
    match GroupStore.apply store req.type req.group with
    | some store' => (store', none)
    | none => (store, some 2)

theorem groupStub_serves
    (store : GroupStore) :
    ServesGroups groupStub store where
  read := by
    intro deviceId _
    have hstream : ∀ l : List (Nat × List Replica),
        ((⟨l.map fun e => [some (⟨e.1, e.2⟩ : GroupEntry)], none⟩ :
          EntityStream GroupEntry).entities.map fun entry => (entry.groupId, entry.replicas)) =
          l := by
      intro l
      induction l with
      | nil => rfl
      | cons e rest ih => exact congrArg (e :: ·) ih
    rw [groupStub, hstream]
  write_ok := by
    intro req hok
    simp only [groupStub] at hok ⊢
    cases happly : GroupStore.apply store req.type req.group with
    | none => simp [happly] at hok
    | some store' => rfl
  write_failed := by
    intro req status hfailed
    simp only [groupStub] at hfailed ⊢
    cases happly : GroupStore.apply store req.type req.group with
    | none => rfl
    | some store' => simp [happly] at hfailed

/-- A group that is added, given an instance by another controller, listed and deleted twice. -/
theorem groups_refine_flood :
    let client : ClientView := ⟨0, 0, 1, none, true, none⟩
    let calls : List GroupCall :=
      [⟨groupStub, client, .add 5 [1, 2]⟩, ⟨groupStub, client, .add 0 [1]⟩,
        ⟨groupStub, client, .foreign (.ofList [(5, [⟨1, 1⟩, ⟨1, 2⟩])])⟩,
        ⟨groupStub, client, .list⟩, ⟨groupStub, client, .delete 5⟩,
        ⟨groupStub, client, .delete 5⟩]
    Explains GroupStep (groupsOf .empty) (transcript serveGroups .empty calls).1
      (groupsOf (transcript serveGroups .empty calls).2) := by
  intro client calls
  refine groups_refine .empty calls ?_
  exact ⟨groupStub_serves _, groupStub_serves _, groupStub_serves _, groupStub_serves _,
    groupStub_serves _, groupStub_serves _, trivial⟩

/-! ### Counters -/

/-- `CounterData`. -/
structure CounterData where
  packetCount : Nat
  byteCount : Nat
deriving DecidableEq, Repr

/-- A cell that counted nothing. -/
def CounterData.zero : CounterData := ⟨0, 0⟩

/-- `p4.v1.CounterEntry`, without the id of its counter. -/
structure CounterEntry where
  index : Int
  data : CounterData
deriving DecidableEq, Repr

/-- The cells of a device, by counter id and index. -/
abbrev CounterCells := Nat → Int → CounterData

/-- The request of `reset_counter`: MODIFY updates, with the identity of the client. -/
structure CounterRequest where
  deviceId : Nat
  role : Option String
  electionIdHigh : Nat
  electionIdLow : Nat
  counterId : Nat
  updates : List CounterEntry
deriving DecidableEq, Repr

/-- The stub: what a Read of one or all cells streams, and the cells and status after a Write. -/
structure CounterStub where
  read : CounterCells → Nat → Nat → Option Int → EntityStream CounterEntry
  write : CounterCells → CounterRequest → CounterCells × Option Nat

/-- A client, and the ids of the counters that its index has, by name. -/
structure CounterClient where
  view : ClientView
  counters : Option (OrderedDict String Nat)

/-- `_require_connected_with_index` and `counter_id`. -/
def lookupCounter (client : CounterClient) (name : String) : Except EntityError Nat :=
  if client.view.isConnected then
    match client.counters with
    | none => .error .noPipeline
    | some counters =>
        match counters.get? name with
        | some id => .ok id
        | none => .error (.noSuchCounter name)
  else .error .notConnected

/-- The dictionary `collected` of `read_counter`. -/
def collectCells (entries : List CounterEntry) : OrderedDict Int CounterData :=
  .ofList (entries.map fun entry => (entry.index, entry.data))

/-- The RPC of `read_counter`, and what it collects. -/
def readCells (stub : CounterStub) (client : CounterClient) (cells : CounterCells) (name : String)
    (index : Option Int) : Except EntityError (OrderedDict Int CounterData) := do
  let counterId ← lookupCounter client name
  let stream := stub.read cells client.view.deviceId counterId index
  match stream.error with
  | some status => .error (.rpc status)
  | none => return collectCells stream.entities

/-- One cell, or all cells that were collected. -/
inductive CounterValue where
  | cell (data : CounterData)
  | cells (collected : OrderedDict Int CounterData)

/-- `read_counter`. -/
def readCounter (stub : CounterStub) (client : CounterClient) (cells : CounterCells)
    (name : String) (index : Option Int) : Except EntityError CounterValue := do
  let collected ← readCells stub client cells name index
  match index with
  | some i => return .cell ((collected.get? i).getD .zero)
  | none => return .cells collected

/-- The request that zeroes some cells. -/
def resetRequest (client : CounterClient) (counterId : Nat) (targets : List Int) :
    CounterRequest where
  deviceId := client.view.deviceId
  role := client.view.roleName.filter (fun name => name ≠ "")
  electionIdHigh := client.view.electionIdHigh
  electionIdLow := client.view.electionIdLow
  counterId := counterId
  updates := targets.map fun i => ⟨i, .zero⟩

/-- The Write of `reset_counter`. -/
def writeZeros (stub : CounterStub) (client : CounterClient) (cells : CounterCells)
    (counterId : Nat) (targets : List Int) : CounterCells × Except EntityError Unit :=
  match stub.write cells (resetRequest client counterId targets) with
  | (cells', none) => (cells', .ok ())
  | (cells', some status) => (cells', .error (.rpc status))

/-- `reset_counter`; `traffic` is what happens between its Read and its Write. -/
def resetCounter (stub : CounterStub) (client : CounterClient)
    (traffic : CounterCells → CounterCells) (cells : CounterCells) (name : String)
    (index : Option Int) : CounterCells × Except EntityError Unit :=
  match lookupCounter client name with
  | .error e => (cells, .error e)
  | .ok counterId =>
      match index with
      | some i => writeZeros stub client cells counterId [i]
      | none =>
          match readCells stub client cells name none with
          | .error e => (traffic cells, .error e)
          | .ok collected =>
              let targets := collected.keys.mergeSort (· ≤ ·)
              if targets = [] then (traffic cells, .ok ())
              else writeZeros stub client (traffic cells) counterId targets

/-- What the device promises about counters; a Write that fails may have been applied in part. -/
structure ServesCounters (stub : CounterStub) (cells : CounterCells) : Prop where
  read_sound : ∀ deviceId id index, (stub.read cells deviceId id index).error = none →
    ∀ entry ∈ (stub.read cells deviceId id index).entities,
      entry.data = cells id entry.index ∧ ∀ i, index = some i → entry.index = i
  read_complete : ∀ deviceId id index, (stub.read cells deviceId id index).error = none →
    ∀ i, (index = none ∨ index = some i) → cells id i ≠ .zero →
      ∃ entry ∈ (stub.read cells deviceId id index).entities, entry.index = i
  write_ok : ∀ req, (stub.write cells req).2 = none → ∀ update ∈ req.updates,
    ∃ last ∈ req.updates, last.index = update.index ∧
      (stub.write cells req).1 req.counterId update.index = last.data
  write_only : ∀ req id i, (stub.write cells req).1 id i = cells id i ∨
    id = req.counterId ∧ ∃ update ∈ req.updates, update.index = i ∧
      (stub.write cells req).1 id i = update.data

/-- A call on counters, or traffic. -/
inductive CounterOp where
  | read (name : String) (index : Option Int)
  | reset (name : String) (index : Option Int)
  | traffic

/-- A call, the client that makes it, how the device answers it, and the traffic meanwhile. -/
structure CounterCall where
  stub : CounterStub
  client : CounterClient
  traffic : CounterCells → CounterCells
  op : CounterOp

/-- What a call returns or raises. -/
inductive CounterReply where
  | done
  | value (value : CounterValue)
  | raised (error : EntityError)

/-- The cells after a call, and its reply. -/
def serveCounters (cells : CounterCells) (call : CounterCall) : CounterCells × CounterReply :=
  match call.op with
  | .read name index =>
      match readCounter call.stub call.client cells name index with
      | .ok value => (cells, .value value)
      | .error e => (cells, .raised e)
  | .reset name index =>
      let out := resetCounter call.stub call.client call.traffic cells name index
      match out.2 with
      | .ok () => (out.1, .done)
      | .error e => (out.1, .raised e)
  | .traffic => (call.traffic cells, .done)

/-- The device keeps its promises before and after the traffic, and the client has its index. -/
def ServesCall (counters : OrderedDict String Nat) (cells : CounterCells) (call : CounterCall) :
    Prop :=
  ServesCounters call.stub cells ∧ ServesCounters call.stub (call.traffic cells) ∧
    call.client.counters = some counters

open Classical in
/-- The cells after some of a counter were set to zero. -/
noncomputable def CounterCells.zeroAt (cells : CounterCells) (id : Nat) (targets : Set Int) :
    CounterCells :=
  fun id' i => if id' = id ∧ i ∈ targets then .zero else cells id' i

/-- What the reply to a call says about the cells before and after it. -/
inductive CounterStep (counters : OrderedDict String Nat) :
    CounterCells → CounterCall → CounterReply → CounterCells → Prop
  | readCell {cells : CounterCells} {stub : CounterStub} {client : CounterClient}
      {traffic : CounterCells → CounterCells} {name : String} {id : Nat} {i : Int}
      (hid : counters.get? name = some id) :
      CounterStep counters cells ⟨stub, client, traffic, .read name (some i)⟩
        (.value (.cell (cells id i))) cells
  | readCells {cells : CounterCells} {stub : CounterStub} {client : CounterClient}
      {traffic : CounterCells → CounterCells} {name : String} {id : Nat}
      {collected : OrderedDict Int CounterData}
      (hid : counters.get? name = some id)
      (hall : ∀ i, (collected.get? i).getD .zero = cells id i) :
      CounterStep counters cells ⟨stub, client, traffic, .read name none⟩
        (.value (.cells collected)) cells
  | readRaised {cells : CounterCells} {stub : CounterStub} {client : CounterClient}
      {traffic : CounterCells → CounterCells} {name : String} {index : Option Int}
      (e : EntityError) :
      CounterStep counters cells ⟨stub, client, traffic, .read name index⟩ (.raised e) cells
  | resetCell {cells : CounterCells} {stub : CounterStub} {client : CounterClient}
      {traffic : CounterCells → CounterCells} {name : String} {id : Nat} {i : Int}
      (hid : counters.get? name = some id) :
      CounterStep counters cells ⟨stub, client, traffic, .reset name (some i)⟩ .done
        (cells.zeroAt id {i})
  | resetCells {cells : CounterCells} {stub : CounterStub} {client : CounterClient}
      {traffic : CounterCells → CounterCells} {name : String} {id : Nat} {targets : Set Int}
      (hid : counters.get? name = some id)
      (hall : ∀ i, cells id i ≠ .zero → i ∈ targets) :
      CounterStep counters cells ⟨stub, client, traffic, .reset name none⟩ .done
        ((traffic cells).zeroAt id targets)
  | resetRaised {cells before : CounterCells} {stub : CounterStub} {client : CounterClient}
      {traffic : CounterCells → CounterCells} {name : String} {index : Option Int} {id : Nat}
      {targets : Set Int} (e : EntityError)
      (hbefore : before = cells ∨ index = none ∧ before = traffic cells)
      (htargets : targets = ∅ ∨ counters.get? name = some id)
      (hindex : ∀ i, index = some i → targets ⊆ {i}) :
      CounterStep counters cells ⟨stub, client, traffic, .reset name index⟩ (.raised e)
        (before.zeroAt id targets)
  | traffic {cells : CounterCells} {stub : CounterStub} {client : CounterClient}
      {traffic : CounterCells → CounterCells} :
      CounterStep counters cells ⟨stub, client, traffic, .traffic⟩ .done (traffic cells)

section Counters

variable {counters : OrderedDict String Nat} {stub : CounterStub} {client : CounterClient}
variable {cells : CounterCells} (hcounters : client.counters = some counters)

theorem zeroAt_empty
    (cells : CounterCells) (id : Nat) :
    cells.zeroAt id ∅ = cells := by
  funext id' i
  simp [CounterCells.zeroAt]

include hcounters in
theorem lookupCounter_ok
    {name : String} {id : Nat} (h : lookupCounter client name = .ok id) :
    counters.get? name = some id := by
  unfold lookupCounter at h
  split_ifs at h
  rw [hcounters] at h
  simp only at h
  split at h
  · rename_i found hget
    rw [hget, Except.ok.inj h]
  · cases h

/-- What is collected of a complete Read: the cells, and all that counted something. -/
theorem collectCells_ok
    (hserves : ServesCounters stub cells) {deviceId id : Nat} {index : Option Int}
    (herror : (stub.read cells deviceId id index).error = none) (i : Int)
    (hi : index = none ∨ index = some i) :
    ((collectCells (stub.read cells deviceId id index).entities).get? i).getD .zero =
      cells id i := by
  cases hget : (collectCells (stub.read cells deviceId id index).entities).get? i with
  | some data =>
      have hentry := OrderedDict.mem_of_mem_ofList ((OrderedDict.get?_eq_some_iff _ _ _).mp hget)
      obtain ⟨entry, hmem, heq⟩ := List.mem_map.mp hentry
      obtain ⟨rfl, rfl⟩ := Prod.mk.inj heq
      exact (hserves.read_sound deviceId id index herror entry hmem).1
  | none =>
      by_contra hne
      obtain ⟨entry, hmem, rfl⟩ :=
        hserves.read_complete deviceId id index herror i hi (fun h => hne h.symm)
      have hkey := (OrderedDict.get?_eq_none_iff _ _).mp hget
      refine hkey ((OrderedDict.mem_keys_ofList _ _).mpr ?_)
      exact List.mem_map.mpr ⟨_, List.mem_map_of_mem hmem, rfl⟩

include hcounters in
theorem readCells_ok
    {name : String} {index : Option Int} {collected : OrderedDict Int CounterData}
    (h : readCells stub client cells name index = .ok collected) :
    ∃ id, counters.get? name = some id ∧
      (stub.read cells client.view.deviceId id index).error = none ∧
      collected = collectCells (stub.read cells client.view.deviceId id index).entities := by
  simp only [readCells, Topo.bind_eq_ok_iff] at h
  obtain ⟨id, hid, h⟩ := h
  split at h
  · cases h
  · rename_i herror
    exact ⟨id, lookupCounter_ok hcounters hid, herror, (Except.ok.inj h).symm⟩

/-- A Write of zeros sets its targets to zero, or some of them when it fails. -/
theorem writeZeros_spec
    (hserves : ServesCounters stub cells) (id : Nat) (targets : List Int) :
    ((writeZeros stub client cells id targets).2 = .ok () ∧
      (writeZeros stub client cells id targets).1 = cells.zeroAt id {i | i ∈ targets}) ∨
    ∃ e, (writeZeros stub client cells id targets).2 = .error e ∧
      ∃ some ⊆ {i | i ∈ targets},
        (writeZeros stub client cells id targets).1 = cells.zeroAt id some := by
  classical
  have honly := hserves.write_only (resetRequest client id targets)
  have hzero : ∀ {update : CounterEntry}, update ∈ (resetRequest client id targets).updates →
      update.index ∈ targets ∧ update.data = .zero := by
    intro update hmem
    obtain ⟨i, hi, rfl⟩ := List.mem_map.mp hmem
    exact ⟨hi, rfl⟩
  cases hwrite : stub.write cells (resetRequest client id targets) with
  | mk cells' status =>
      rw [hwrite] at honly
      simp only [writeZeros, hwrite]
      cases status with
      | none =>
          have hok := hserves.write_ok (resetRequest client id targets) (by rw [hwrite])
          rw [hwrite] at hok
          refine Or.inl ⟨rfl, ?_⟩
          funext id' i
          unfold CounterCells.zeroAt
          split_ifs with hcase
          · obtain ⟨rfl, hi⟩ := hcase
            obtain ⟨last, hlast, -, hdata⟩ := hok ⟨i, .zero⟩ (List.mem_map.mpr ⟨i, hi, rfl⟩)
            exact hdata.trans (hzero hlast).2
          · rcases honly id' i with hsame | ⟨rfl, update, hmem, rfl, -⟩
            · exact hsame
            · exact absurd ⟨rfl, (hzero hmem).1⟩ hcase
      | some status =>
          refine Or.inr ⟨_, rfl, {i | i ∈ targets ∧ cells' id i = .zero}, fun i hi => hi.1, ?_⟩
          funext id' i
          unfold CounterCells.zeroAt
          split_ifs with hcase
          · obtain ⟨rfl, -, hi⟩ := hcase
            exact hi
          · rcases honly id' i with hsame | ⟨rfl, update, hmem, rfl, hdata⟩
            · exact hsame
            · refine absurd ⟨rfl, (hzero hmem).1, ?_⟩ hcase
              exact hdata.trans (hzero hmem).2

end Counters

/-- The two ends of a reset, from what it leaves behind. -/
theorem resetCounter_step
    {counters : OrderedDict String Nat} {cells : CounterCells} {stub : CounterStub}
    {client : CounterClient} {traffic : CounterCells → CounterCells}
    (hserves : ServesCall counters cells ⟨stub, client, traffic, .traffic⟩)
    (name : String) (index : Option Int) :
    let out := resetCounter stub client traffic cells name index
    (out.2 = .ok () → CounterStep counters cells ⟨stub, client, traffic, .reset name index⟩
      .done out.1) ∧
    ∀ e, out.2 = .error e → CounterStep counters cells
      ⟨stub, client, traffic, .reset name index⟩ (.raised e) out.1 := by
  obtain ⟨hbefore, hafter, hcounters⟩ := hserves
  have hearly : ∀ {before : CounterCells} {index : Option Int} (e : EntityError),
      (before = cells ∨ index = none ∧ before = traffic cells) →
      CounterStep counters cells ⟨stub, client, traffic, .reset name index⟩ (.raised e) before := by
    intro before index e hcase
    rw [← zeroAt_empty before 0]
    exact .resetRaised e hcase (Or.inl rfl) fun i _ => Set.empty_subset _
  intro out
  cases hlookup : lookupCounter client name with
  | error e =>
      have hout : out = (cells, .error e) := by simp only [out, resetCounter, hlookup]
      rw [hout]
      refine ⟨by rintro ⟨⟩, fun e' _ => hearly e' (Or.inl rfl)⟩
  | ok id =>
      have hid := lookupCounter_ok hcounters hlookup
      cases index with
      | some i =>
          have hout : out = writeZeros stub client cells id [i] := by
            simp only [out, resetCounter, hlookup]
          have hset : {j | j ∈ [i]} = ({i} : Set Int) := by
            ext j
            simp
          rw [hout]
          rcases writeZeros_spec hbefore id [i] with
            ⟨hok, hcells⟩ | ⟨e, herror, some, hsub, hcells⟩
          · rw [hok, hcells, hset]
            exact ⟨fun _ => .resetCell hid, fun e h => by cases h⟩
          · rw [herror, hcells]
            refine ⟨by rintro ⟨⟩, fun e' _ => ?_⟩
            refine .resetRaised e' (Or.inl rfl) (Or.inr hid) ?_
            intro j hj
            obtain rfl := Option.some.inj hj
            rwa [hset] at hsub
      | none =>
          cases hread : readCells stub client cells name none with
          | error e =>
              have hout : out = (traffic cells, .error e) := by
                simp only [out, resetCounter, hlookup, hread]
              rw [hout]
              exact ⟨by rintro ⟨⟩, fun e' _ => hearly e' (Or.inr ⟨rfl, rfl⟩)⟩
          | ok collected =>
              obtain ⟨id', hid', hok, hcollected⟩ := readCells_ok hcounters hread
              obtain rfl := Option.some.inj (hid.symm.trans hid')
              have hall : ∀ i, cells id i ≠ .zero →
                  i ∈ {i | i ∈ collected.keys.mergeSort (· ≤ ·)} := by
                intro i hne
                have hvalue := collectCells_ok hbefore hok i (Or.inl rfl)
                rw [← hcollected] at hvalue
                refine List.mem_mergeSort.mpr ?_
                by_contra hnot
                rw [(OrderedDict.get?_eq_none_iff _ _).mpr hnot] at hvalue
                exact hne hvalue.symm
              by_cases hempty : collected.keys.mergeSort (· ≤ ·) = []
              · have hout : out = (traffic cells, .ok ()) := by
                  simp only [out, resetCounter, hlookup, hread, hempty, if_true]
                have hstep : CounterStep counters cells ⟨stub, client, traffic, .reset name none⟩
                    .done _ := .resetCells hid hall
                rw [hout]
                refine ⟨fun _ => ?_, fun e h => by cases h⟩
                rw [hempty] at hstep
                simpa [zeroAt_empty] using hstep
              · have hout : out = writeZeros stub client (traffic cells) id
                    (collected.keys.mergeSort (· ≤ ·)) := by
                  simp only [out, resetCounter, hlookup, hread, if_neg hempty]
                rw [hout]
                rcases writeZeros_spec hafter id
                    (collected.keys.mergeSort (· ≤ ·)) with
                  ⟨hdone, hcells⟩ | ⟨e, herror, some, -, hcells⟩
                · rw [hdone, hcells]
                  exact ⟨fun _ => .resetCells hid hall, fun e h => by cases h⟩
                · rw [herror, hcells]
                  refine ⟨by rintro ⟨⟩, fun e' _ => ?_⟩
                  exact .resetRaised e' (Or.inr ⟨rfl, rfl⟩) (Or.inr hid) fun i hi => by cases hi

/-- One call is a step of the cells. -/
theorem serveCounters_step
    (counters : OrderedDict String Nat) (cells : CounterCells) (call : CounterCall)
    (hserves : ServesCall counters cells call) :
    CounterStep counters cells call (serveCounters cells call).2 (serveCounters cells call).1 := by
  obtain ⟨stub, client, traffic, op⟩ := call
  obtain ⟨hbefore, hafter, hcounters⟩ := hserves
  cases op with
  | traffic => exact .traffic
  | read name index =>
      cases hread : readCounter stub client cells name index with
      | error e =>
          have hreply : serveCounters cells ⟨stub, client, traffic, .read name index⟩ =
              (cells, .raised e) := by simp only [serveCounters, hread]
          rw [hreply]
          exact .readRaised e
      | ok value =>
          have hreply : serveCounters cells ⟨stub, client, traffic, .read name index⟩ =
              (cells, .value value) := by simp only [serveCounters, hread]
          rw [hreply]
          simp only [readCounter, Topo.bind_eq_ok_iff] at hread
          obtain ⟨collected, hcollected, hvalue⟩ := hread
          obtain ⟨id, hid, herror, rfl⟩ := readCells_ok hcounters hcollected
          cases index with
          | none =>
              obtain rfl := Except.ok.inj hvalue
              exact .readCells hid fun i => collectCells_ok hbefore herror i (Or.inl rfl)
          | some i =>
              obtain rfl := Except.ok.inj hvalue
              rw [collectCells_ok hbefore herror i (Or.inr rfl)]
              exact .readCell hid
  | reset name index =>
      obtain ⟨hdone, hraised⟩ :=
        resetCounter_step ⟨hbefore, hafter, hcounters⟩ name index
      cases hresult : (resetCounter stub client traffic cells name index).2 with
      | ok value =>
          have hreply : serveCounters cells ⟨stub, client, traffic, .reset name index⟩ =
              ((resetCounter stub client traffic cells name index).1, .done) := by
            simp only [serveCounters, hresult]
          rw [hreply]
          exact hdone hresult
      | error e =>
          have hreply : serveCounters cells ⟨stub, client, traffic, .reset name index⟩ =
              ((resetCounter stub client traffic cells name index).1, .raised e) := by
            simp only [serveCounters, hresult]
          rw [hreply]
          exact hraised e hresult

/--
Whatever clients do and whatever traffic passes, also between the RPCs of one call, the replies
to the calls on counters are those of the cells: a read returns every cell that counted
something, and a reset zeroes every cell that had counted something when it was called, and no
cell of another counter.
-/
theorem counters_refine
    (counters : OrderedDict String Nat) (cells : CounterCells) (calls : List CounterCall)
    (hserves : Admitted serveCounters (ServesCall counters) cells calls) :
    Explains (CounterStep counters) cells (transcript serveCounters cells calls).1
      (transcript serveCounters cells calls).2 := by
  exact Explains.of_abstraction id (serveCounters_step counters) hserves

/-- A device with cells at these indices, which applies every Write. -/
def counterStub (indices : List Int) : CounterStub where
  read := fun cells _ id index =>
    ⟨[(index.elim indices fun i => [i]).map fun i => some ⟨i, cells id i⟩], none⟩
  write := fun cells req =>
    (fun id i =>
      if id = req.counterId then
        ((req.updates.find? (fun u => u.index = i)).map CounterEntry.data).getD (cells id i)
      else cells id i, none)

/-- Only cells at these indices counted something. -/
def Within (indices : List Int) (cells : CounterCells) : Prop :=
  ∀ id i, cells id i ≠ .zero → i ∈ indices

theorem counterStub_write_only
    (indices : List Int) (cells : CounterCells) (req : CounterRequest) (id : Nat) (i : Int) :
    ((counterStub indices).write cells req).1 id i = cells id i ∨
      id = req.counterId ∧ ∃ update ∈ req.updates, update.index = i ∧
        ((counterStub indices).write cells req).1 id i = update.data := by
  simp only [counterStub]
  split_ifs with hid
  · cases hfind : req.updates.find? (fun u => u.index = i) with
    | none => exact Or.inl rfl
    | some update =>
        refine Or.inr ⟨hid, update, List.mem_of_find?_eq_some hfind, ?_, rfl⟩
        simpa using List.find?_some hfind
  · exact Or.inl rfl

theorem counterStub_serves
    {indices : List Int} {cells : CounterCells} (h : Within indices cells) :
    ServesCounters (counterStub indices) cells := by
  have hstream : ∀ deviceId id index,
      ((counterStub indices).read cells deviceId id index).entities =
        (index.elim indices fun i => [i]).map fun i => ⟨i, cells id i⟩ := by
    intro deviceId id index
    simp [counterStub, EntityStream.entities, List.filterMap_map]
  refine ⟨?_, ?_, ?_, counterStub_write_only indices cells⟩
  · intro deviceId id index _ entry hentry
    rw [hstream] at hentry
    obtain ⟨i, hi, rfl⟩ := List.mem_map.mp hentry
    refine ⟨rfl, ?_⟩
    rintro j rfl
    exact List.mem_singleton.mp hi
  · intro deviceId id index _ i hi hne
    rw [hstream]
    refine ⟨⟨i, cells id i⟩, List.mem_map.mpr ⟨i, ?_, rfl⟩, rfl⟩
    rcases hi with rfl | rfl
    · exact h id i hne
    · exact List.mem_singleton.mpr rfl
  · intro req _ update hupdate
    cases hfind : req.updates.find? (fun u => u.index = update.index) with
    | none => simpa using List.find?_eq_none.mp hfind update hupdate
    | some last =>
        refine ⟨last, List.mem_of_find?_eq_some hfind, by simpa using List.find?_some hfind, ?_⟩
        simp only [counterStub, if_true, hfind, Option.map_some, Option.getD_some]

/-- Resets leave no cell elsewhere. -/
theorem within_writeZeros
    {indices : List Int} {cells : CounterCells} (h : Within indices cells)
    (client : CounterClient) (id : Nat) (targets : List Int) :
    Within indices (writeZeros (counterStub indices) client cells id targets).1 := by
  intro id' i hne
  have hcells : (writeZeros (counterStub indices) client cells id targets).1 =
      ((counterStub indices).write cells (resetRequest client id targets)).1 := rfl
  rw [hcells] at hne
  rcases counterStub_write_only indices cells (resetRequest client id targets) id' i with
    hsame | ⟨-, update, hmem, -, hdata⟩
  · exact h id' i (hsame ▸ hne)
  · obtain ⟨j, -, rfl⟩ := List.mem_map.mp hmem
    exact absurd hdata hne

theorem within_serveCounters_reset
    {indices : List Int} {cells : CounterCells} {traffic : CounterCells → CounterCells}
    (h : Within indices cells) (htraffic : Within indices (traffic cells))
    (client : CounterClient) (name : String) (index : Option Int) :
    Within indices (serveCounters cells
      ⟨counterStub indices, client, traffic, .reset name index⟩).1 := by
  have hreset : Within indices
      (resetCounter (counterStub indices) client traffic cells name index).1 := by
    unfold resetCounter
    split
    · exact h
    · split
      · exact within_writeZeros h client _ _
      · split
        · exact htraffic
        · dsimp only
          split_ifs
          · exact htraffic
          · exact within_writeZeros htraffic client _ _
  simp only [serveCounters]
  split <;> exact hreset

/-- Cells of a counter are read, reset while a packet passes, and read again. -/
theorem counters_refine_ingress :
    let counters : OrderedDict String Nat := .ofList [("MyIngress.packets", 7)]
    let client : CounterClient := ⟨⟨0, 0, 1, none, true, none⟩, some counters⟩
    let cells : CounterCells := fun id i => if id = 7 ∧ i = 0 then ⟨3, 180⟩ else .zero
    let packet : CounterCells → CounterCells := fun cells id i =>
      if id = 7 ∧ i = 1 then ⟨(cells id i).packetCount + 1, (cells id i).byteCount + 60⟩
      else cells id i
    let calls : List CounterCall :=
      [⟨counterStub [0, 1], client, packet, .reset "MyIngress.packets" none⟩,
        ⟨counterStub [0, 1], client, packet, .read "MyIngress.packets" none⟩]
    Explains (CounterStep counters) cells (transcript serveCounters cells calls).1
      (transcript serveCounters cells calls).2 := by
  intro counters client cells packet calls
  have hcells : Within [0, 1] cells := by
    intro id i hne
    simp only [cells] at hne
    split_ifs at hne with hcase
    · simp [hcase.2]
    · exact absurd rfl hne
  have hpacket : ∀ {cells : CounterCells}, Within [0, 1] cells → Within [0, 1] (packet cells) := by
    intro cells h id i hne
    simp only [packet] at hne
    split_ifs at hne with hcase
    · simp [hcase.2]
    · exact h id i hne
  have hreset : Within [0, 1] (serveCounters cells
      ⟨counterStub [0, 1], client, packet, .reset "MyIngress.packets" none⟩).1 :=
    within_serveCounters_reset hcells (hpacket hcells) client _ none
  refine counters_refine counters cells calls ?_
  exact ⟨⟨counterStub_serves hcells, counterStub_serves (hpacket hcells), rfl⟩,
    ⟨counterStub_serves hreset, counterStub_serves (hpacket hreset), rfl⟩, trivial⟩

end DeviceEntities
end P4Net
