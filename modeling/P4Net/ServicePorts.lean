import P4Net.TopologyWiring
import P4Net.TopologySnapshots

/-!
# Device ids and service ports at startup

`Network.start` replaces an unset device id, gRPC port or Thrift port by a constant.
`validate` compares only those that are set.

* `effective_nodup_iff` : settings with defaults are distinct iff those that are set are,
  and the defaults that are used are distinct and not set.
* `DefaultsFree` : no two switches, nor a switch and a setting, share a default.
* `effective_distinct_iff` : the settings of a validated topology are distinct at startup
  iff its defaults are free.
-/

namespace P4Net

/-! ### Settings with defaults -/

namespace Settings

variable {α β : Type}

/-- The settings that are used, of settings with their defaults. -/
def effective (slots : List (Option α × α)) : List α := slots.map fun s => s.1.getD s.2

/-- The settings that are set. -/
def explicit (slots : List (Option α × α)) : List α := slots.filterMap Prod.fst

/-- The defaults that are used. -/
def defaulted (slots : List (Option α × α)) : List α :=
  slots.filterMap fun
    | (some _, _) => none
    | (none, d) => some d

theorem effective_perm
    (slots : List (Option α × α)) :
    (effective slots).Perm (explicit slots ++ defaulted slots) := by
  induction slots with
  | nil => exact .refl _
  | cons s rest ih =>
      rcases s with ⟨_ | a, d⟩
      · exact (ih.cons d).trans List.perm_middle.symm
      · exact ih.cons a

theorem effective_nodup_iff
    (slots : List (Option α × α)) :
    (effective slots).Nodup ↔
      (explicit slots).Nodup ∧ (defaulted slots).Nodup ∧
        ∀ d ∈ defaulted slots, d ∉ explicit slots := by
  rw [(effective_perm slots).nodup_iff, List.nodup_append', List.disjoint_comm]
  exact and_congr_right fun _ => and_congr_right fun _ => List.disjoint_left

/-- The slots of one setting of every element, with one default. -/
def slotsOf (setting : β → Option α) (default : α) (l : List β) : List (Option α × α) :=
  l.map fun b => (setting b, default)

@[simp] theorem explicit_slotsOf
    (setting : β → Option α) (default : α) (l : List β) :
    explicit (slotsOf setting default l) = l.filterMap setting := by
  rw [explicit, slotsOf, List.filterMap_map]
  rfl

@[simp] theorem defaulted_slotsOf
    (setting : β → Option α) (default : α) (l : List β) :
    defaulted (slotsOf setting default l) =
      List.replicate (l.countP fun b => (setting b).isNone) default := by
  induction l with
  | nil => rfl
  | cons b rest ih =>
      cases h : setting b with
      | none =>
          have hcons : defaulted (slotsOf setting default (b :: rest)) =
              default :: defaulted (slotsOf setting default rest) := by
            simp [defaulted, slotsOf, h]
          simp [hcons, ih, h, List.replicate_succ]
      | some a =>
          have hcons : defaulted (slotsOf setting default (b :: rest)) =
              defaulted (slotsOf setting default rest) := by
            simp [defaulted, slotsOf, h]
          simp [hcons, ih, h]

@[simp] theorem explicit_append
    (slots slots' : List (Option α × α)) :
    explicit (slots ++ slots') = explicit slots ++ explicit slots' :=
  List.filterMap_append

@[simp] theorem defaulted_append
    (slots slots' : List (Option α × α)) :
    defaulted (slots ++ slots') = defaulted slots ++ defaulted slots' :=
  List.filterMap_append

end Settings

namespace Topo

open Settings

/-! ### Settings of switches -/

/-- The BMv2 processes of a topology. -/
def bmv2s (t : Topology) (options : Network.Options) : List Network.BMv2Switch :=
  t.toNetwork.switches.entries.map fun e => Network.bmv2For t.toNetwork options e.1 e.2

/-- The device ids that are used at startup. -/
def effectiveDeviceIds (t : Topology) (options : Network.Options) : List Nat :=
  (bmv2s t options).map fun b => b.deviceId

/-- The gRPC and Thrift ports that are used at startup. -/
def effectivePorts (t : Topology) (options : Network.Options) : List Nat :=
  (bmv2s t options).flatMap fun b => [b.grpcPort, b.thriftPort]

/-- At most one switch leaves the setting unset, and then no switch takes the default. -/
structure DefaultFree (switches : List P4Switch) (setting : P4Switch → Option Nat)
    (taken : P4Switch → List Nat) (default : Nat) : Prop where
  one : (switches.countP fun s => (setting s).isNone) ≤ 1
  free : ∀ s ∈ switches, setting s = none → ∀ r ∈ switches, default ∉ taken r

/-- The defaults of the device id and of both service ports are free. -/
structure DefaultsFree (t : Topology) : Prop where
  deviceId : DefaultFree t.switches.values (fun s => s.deviceId) (fun s => s.deviceId.toList) 0
  grpcPort : DefaultFree t.switches.values (fun s => s.grpcPort) servicePorts 50051
  thriftPort : DefaultFree t.switches.values (fun s => s.thriftPort) servicePorts 9090

theorem effectiveDeviceIds_eq
    (t : Topology) (options : Network.Options) :
    effectiveDeviceIds t options =
      effective (slotsOf (fun s => s.deviceId) 0 t.switches.values) := by
  simp [effectiveDeviceIds, bmv2s, Topology.toNetwork, OrderedDict.mapValues, OrderedDict.values,
    effective, slotsOf, Network.bmv2For, Function.comp_def]

theorem effectivePorts_perm
    (t : Topology) (options : Network.Options) :
    (effectivePorts t options).Perm
      (effective (slotsOf (fun s => s.grpcPort) 50051 t.switches.values ++
        slotsOf (fun s => s.thriftPort) 9090 t.switches.values)) := by
  have h := List.flatMap_append_perm t.switches.values
    (fun s => [s.grpcPort.getD 50051]) (fun s => [s.thriftPort.getD 9090])
  simpa [effectivePorts, bmv2s, Topology.toNetwork, OrderedDict.mapValues, OrderedDict.values,
    effective, slotsOf, Network.bmv2For, List.flatMap_map, Function.comp_def,
    ← List.map_eq_flatMap] using h.symm

/-! ### Distinct settings -/

theorem replicate_nodup_iff
    (n m a b : Nat) (h : a ≠ b) :
    (List.replicate n a ++ List.replicate m b).Nodup ↔ n ≤ 1 ∧ m ≤ 1 := by
  rw [List.nodup_append', List.nodup_replicate, List.nodup_replicate, List.disjoint_left]
  have hne : ∀ c, c ∈ List.replicate n a → c ∉ List.replicate m b := by
    intro c hc hc'
    exact h ((List.eq_of_mem_replicate hc).symm.trans (List.eq_of_mem_replicate hc'))
  exact ⟨fun h => ⟨h.1, h.2.1⟩, fun h => ⟨h.1, h.2, hne⟩⟩

/-- The default of a setting is used iff a switch leaves it unset. -/
theorem unset_iff
    (switches : List P4Switch) (setting : P4Switch → Option Nat) (d default : Nat) :
    d ∈ List.replicate (switches.countP fun s => (setting s).isNone) default ↔
      d = default ∧ ∃ s ∈ switches, setting s = none := by
  simp [List.mem_replicate, List.countP_eq_zero, and_comm]

theorem deviceIds_nodup_iff
    {t : Topology} (v : Valid t) (options : Network.Options) :
    (effectiveDeviceIds t options).Nodup ↔
      DefaultFree t.switches.values (fun s => s.deviceId) (fun s => s.deviceId.toList) 0 := by
  rw [effectiveDeviceIds_eq, effective_nodup_iff, explicit_slotsOf, defaulted_slotsOf,
    List.nodup_replicate]
  constructor
  · rintro ⟨_, hone, hfree⟩
    refine ⟨hone, fun s hs hunset r hr htaken => ?_⟩
    refine hfree 0 ((unset_iff ..).mpr ⟨rfl, s, hs, hunset⟩) (List.mem_filterMap.mpr ⟨r, hr, ?_⟩)
    exact Option.mem_toList.mp htaken
  · intro h
    refine ⟨v.deviceIds, h.one, fun d hd hset => ?_⟩
    obtain ⟨rfl, s, hs, hunset⟩ := (unset_iff ..).mp hd
    obtain ⟨r, hr, htaken⟩ := List.mem_filterMap.mp hset
    exact h.free s hs hunset r hr (Option.mem_toList.mpr htaken)

theorem ports_nodup_iff
    {t : Topology} (v : Valid t) (options : Network.Options) :
    (effectivePorts t options).Nodup ↔
      DefaultFree t.switches.values (fun s => s.grpcPort) servicePorts 50051 ∧
        DefaultFree t.switches.values (fun s => s.thriftPort) servicePorts 9090 := by
  have hperm := List.flatMap_append_perm t.switches.values
    (fun s => s.grpcPort.toList) (fun s => s.thriftPort.toList)
  rw [← List.filterMap_eq_flatMap_toList, ← List.filterMap_eq_flatMap_toList] at hperm
  have hset : ∀ d, d ∈ t.switches.values.filterMap (fun s => s.grpcPort) ++
      t.switches.values.filterMap (fun s => s.thriftPort) ↔
        ∃ r ∈ t.switches.values, d ∈ servicePorts r :=
    fun d => hperm.mem_iff.trans List.mem_flatMap
  rw [(effectivePorts_perm t options).nodup_iff, effective_nodup_iff]
  simp only [explicit_append, defaulted_append, explicit_slotsOf, defaulted_slotsOf]
  rw [replicate_nodup_iff _ _ _ _ (by decide)]
  constructor
  · rintro ⟨_, ⟨hgrpc, hthrift⟩, hfree⟩
    refine ⟨⟨hgrpc, fun s hs hunset r hr htaken => ?_⟩,
      ⟨hthrift, fun s hs hunset r hr htaken => ?_⟩⟩
    · exact hfree 50051 (List.mem_append_left _ ((unset_iff ..).mpr ⟨rfl, s, hs, hunset⟩))
        ((hset _).mpr ⟨r, hr, htaken⟩)
    · exact hfree 9090 (List.mem_append_right _ ((unset_iff ..).mpr ⟨rfl, s, hs, hunset⟩))
        ((hset _).mpr ⟨r, hr, htaken⟩)
  · rintro ⟨hgrpc, hthrift⟩
    refine ⟨hperm.nodup_iff.mpr v.servicePorts, ⟨hgrpc.one, hthrift.one⟩, fun d hd htaken => ?_⟩
    obtain ⟨r, hr, htaken⟩ := (hset d).mp htaken
    rcases List.mem_append.mp hd with hd | hd
    · obtain ⟨rfl, s, hs, hunset⟩ := (unset_iff ..).mp hd
      exact hgrpc.free s hs hunset r hr htaken
    · obtain ⟨rfl, s, hs, hunset⟩ := (unset_iff ..).mp hd
      exact hthrift.free s hs hunset r hr htaken

/-! ### Results -/

/--
The device ids and the service ports that `Network.start` uses for a validated topology are
distinct iff its defaults are free: `validate` compares only the settings that are set.
-/
theorem effective_distinct_iff
    (t : Topology) (h : t.validate = []) (options : Network.Options) :
    ((effectivePorts t options).Nodup ∧ (effectiveDeviceIds t options).Nodup) ↔
      DefaultsFree t := by
  have v := (validate_eq_nil_iff t).mp h
  rw [ports_nodup_iff v, deviceIds_nodup_iff v]
  constructor
  · rintro ⟨⟨hgrpc, hthrift⟩, hdevice⟩
    exact ⟨hdevice, hgrpc, hthrift⟩
  · rintro ⟨hdevice, hgrpc, hthrift⟩
    exact ⟨⟨hgrpc, hthrift⟩, hdevice⟩

/-- A snapshot of two switches of which only the names and the sources are given. -/
def bareSwitches : Value := .dict [("switches", .dict [
  ("s1", .dict [("name", .str "s1"), ("p4_src", .str "basic.p4")]),
  ("s2", .dict [("name", .str "s2"), ("p4_src", .str "basic.p4")])])]

/-- The snapshot is accepted and validated, and both switches get the same settings. -/
theorem bareSwitches_collide :
    ∃ t, Topology.fromDict bareSwitches = .ok t ∧ t.validate = [] ∧
      effectivePorts t { } = [50051, 9090, 50051, 9090] ∧ effectiveDeviceIds t { } = [0, 0] := by
  refine ⟨_, rfl, ?_, ?_, ?_⟩ <;> decide +kernel

theorem effective_distinct_iff_bare :
    ∃ t, Topology.fromDict bareSwitches = .ok t ∧ ¬ DefaultsFree t := by
  refine ⟨_, rfl, fun hfree => ?_⟩
  have hdistinct := ((effective_distinct_iff _ (by decide +kernel) { }).mpr hfree).1
  revert hdistinct
  decide +kernel

end Topo
end P4Net
