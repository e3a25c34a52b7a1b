import P4Net.BuilderInvariants

/-!
# Automatic numbers of switches

`add_switch` numbers a switch by how many switches there are.  `add_link` looks for a port
that is free, and `add_switch` does not.

* `SettingsDistinct` : what `validate` compares between switches.
* `NumbersFree` : no switch has taken the numbers that come next.
* `addSwitch_numbered` : the numbers of a new switch.
* `numbering_iff` : the settings stay distinct iff the numbers are free.
* `distinct_of_automatic` : they are, where every switch was numbered automatically.
-/

namespace P4Net
namespace Topo

open Claims Transactions

/-! ### Settings -/

/-- Device ids are distinct, and so are the service ports. -/
structure SettingsDistinct (t : Topology) : Prop where
  deviceIds : (t.switches.values.filterMap fun s => s.deviceId).Nodup
  servicePorts : (t.switches.values.flatMap servicePorts).Nodup

/-- How many switches there are: the number that `add_switch` takes. -/
def nextNumber (t : Topology) : Nat := t.switches.entries.length

/-- The device id and both ports that come next are not taken. -/
structure NumbersFree (t : Topology) : Prop where
  deviceId : ∀ s ∈ t.switches.values, s.deviceId ≠ some (nextNumber t)
  grpcPort : ∀ s ∈ t.switches.values, 50051 + nextNumber t ∉ servicePorts s
  thriftPort : ∀ s ∈ t.switches.values, 9090 + nextNumber t ∉ servicePorts s

/-- The arguments leave the device id and both ports unset. -/
def Automatic (args : SwitchArgs) : Prop :=
  args.deviceId = .none ∧ args.grpcPort = .none ∧ args.thriftPort = .none

/-- A switch with the numbers that come next. -/
structure Numbered (n : Nat) (s : P4Switch) : Prop where
  deviceId : s.deviceId = some n
  grpcPort : s.grpcPort = some (50051 + n)
  thriftPort : s.thriftPort = some (9090 + n)

/-! ### A new switch -/

theorem natArg_eq_int
    {o : Option Nat} {n : Nat}
    (h : .int n = natArg o) :
    o = some n := by
  cases o with
  | none => cases h
  | some m =>
      have hm : (n : Int) = m := Value.int.inj h
      rw [Int.ofNat_inj.mp hm]

theorem addSwitch_numbered
    {args : SwitchArgs}
    (hauto : Automatic args) (t : Topology) :
    Atomic (addSwitch args) t fun switch t' =>
      Fresh t switch.name ∧ Numbered (nextNumber t) switch ∧
        t' = { t with switches := t.switches.set switch.name switch } := by
  obtain ⟨hid, hgrpc, hthrift⟩ := hauto
  refine .get_bind (.raises_bind fun _ hreject => .raises_bind fun switch hmake => .commit ?_)
  have hargs := ((P4Switch.make_eq_ok_iff _ switch).mp hmake).1
  have hidArg := congrArg SwitchArgs.deviceId hargs
  have hgrpcArg := congrArg SwitchArgs.grpcPort hargs
  have hthriftArg := congrArg SwitchArgs.thriftPort hargs
  simp only [hid, hgrpc, hthrift] at hidArg hgrpcArg hthriftArg
  refine ⟨fresh_of_reject hreject (congrArg SwitchArgs.name hargs), ?_, rfl⟩
  exact ⟨natArg_eq_int hidArg, natArg_eq_int hgrpcArg, natArg_eq_int hthriftArg⟩

/-- A call that returns has added a switch with the numbers that come next. -/
theorem run_addSwitch
    {t : Topology} {args : SwitchArgs}
    (hauto : Automatic args) (hreturned : ((Call.addSwitch args).run t).1 = none) :
    ∃ switch, Numbered (nextNumber t) switch ∧
      ((Call.addSwitch args).run t).2.switches.values = t.switches.values ++ [switch] := by
  obtain ⟨switch, hfresh, hnumbered, htopology⟩ :=
    (outcome_of_atomic (addSwitch_numbered hauto t)).2 hreturned
  refine ⟨switch, hnumbered, ?_⟩
  have hrun : ((Call.addSwitch args).run t).2 =
      { t with switches := t.switches.set switch.name switch } := htopology
  rw [hrun, OrderedDict.values, OrderedDict.set_entries_of_not_mem hfresh.2, List.map_append]
  rfl

theorem after_append
    (calls : List Call) (call : Call) :
    after (calls ++ [call]) = (call.run (after calls)).2 := by
  rw [after, List.foldl_append]
  rfl

/-- One more switch with the numbers that come next. -/
theorem settingsDistinct_append_iff
    {t t' : Topology} {switch : P4Switch}
    (hdistinct : SettingsDistinct t) (hnumbered : Numbered (nextNumber t) switch)
    (hvalues : t'.switches.values = t.switches.values ++ [switch]) :
    SettingsDistinct t' ↔ NumbersFree t := by
  have hids : (t'.switches.values.filterMap fun s => s.deviceId).Nodup ↔
      ∀ s ∈ t.switches.values, s.deviceId ≠ some (nextNumber t) := by
    rw [hvalues, List.filterMap_append, List.nodup_append', List.disjoint_right]
    simp [hdistinct.deviceIds, hnumbered.deviceId]
  have hports : (t'.switches.values.flatMap servicePorts).Nodup ↔
      (∀ s ∈ t.switches.values, 50051 + nextNumber t ∉ servicePorts s) ∧
        ∀ s ∈ t.switches.values, 9090 + nextNumber t ∉ servicePorts s := by
    have hnew : servicePorts switch = [50051 + nextNumber t, 9090 + nextNumber t] := by
      rw [servicePorts, hnumbered.grpcPort, hnumbered.thriftPort]
      rfl
    rw [hvalues, List.flatMap_append, List.nodup_append', List.disjoint_right]
    simp [hdistinct.servicePorts, hnew]
  constructor
  · intro h
    have hfree := hports.mp h.servicePorts
    exact ⟨hids.mp h.deviceIds, hfree.1, hfree.2⟩
  · intro h
    exact ⟨hids.mpr h.deviceId, hports.mpr ⟨h.grpcPort, h.thriftPort⟩⟩

/-! ### Runs with automatic numbers only -/

/-- Each switch has its position as its number. -/
def AllNumbered (t : Topology) : Prop :=
  ∀ i s, t.switches.values[i]? = some s → Numbered i s

/-- A call of `add_switch` leaves the numbers unset. -/
def Call.IsAutomatic : Call → Prop
  | .addSwitch args => Automatic args
  | _ => True

/-- Thrift ports would have to pass 50050 before they meet a gRPC port. -/
theorem AllNumbered.free
    {t : Topology} (h : AllNumbered t) :
    NumbersFree t := by
  have hat : ∀ s ∈ t.switches.values, ∃ i, i < nextNumber t ∧ Numbered i s := by
    intro s hs
    obtain ⟨i, hi⟩ := List.mem_iff_getElem?.mp hs
    have hlt := (List.getElem?_eq_some_iff.mp hi).1
    exact ⟨i, by simpa [nextNumber, OrderedDict.values] using hlt, h i s hi⟩
  have hfew : nextNumber t ≤ 15485 := by
    by_contra hmany
    have hlength : t.switches.values.length = nextNumber t := by
      simp [nextNumber, OrderedDict.values]
    have hlast : nextNumber t - 1 < t.switches.values.length := by omega
    have hnumbered := h _ _ (List.getElem?_eq_getElem hlast)
    have hrange := t.switches.values[nextNumber t - 1].ok.grpcPort _ hnumbered.grpcPort
    omega
  have hports : ∀ s ∈ t.switches.values, ∀ port ∈ servicePorts s,
      ∃ i, i < nextNumber t ∧ (port = 50051 + i ∨ port = 9090 + i) := by
    intro s hs port hport
    obtain ⟨i, hi, hnumbered⟩ := hat s hs
    refine ⟨i, hi, ?_⟩
    simpa [servicePorts, hnumbered.grpcPort, hnumbered.thriftPort] using hport
  refine ⟨fun s hs hid => ?_, fun s hs hport => ?_, fun s hs hport => ?_⟩
  · obtain ⟨i, hi, hnumbered⟩ := hat s hs
    rw [hnumbered.deviceId, Option.some.injEq] at hid
    omega
  · obtain ⟨i, hi, hcase⟩ := hports s hs _ hport
    omega
  · obtain ⟨i, hi, hcase⟩ := hports s hs _ hport
    omega

theorem AllNumbered.append
    {t t' : Topology} {switch : P4Switch}
    (h : AllNumbered t) (hnumbered : Numbered (nextNumber t) switch)
    (hvalues : t'.switches.values = t.switches.values ++ [switch]) :
    AllNumbered t' := by
  intro i s hs
  have hlength : t.switches.values.length = nextNumber t := by
    simp [nextNumber, OrderedDict.values]
  rw [hvalues, List.getElem?_append] at hs
  by_cases hi : i < t.switches.values.length
  · rw [if_pos hi] at hs
    exact h i s hs
  · rw [if_neg hi, List.getElem?_singleton] at hs
    by_cases hzero : i - t.switches.values.length = 0
    · have hlast : i = nextNumber t := by omega
      rw [if_pos hzero, Option.some.injEq] at hs
      exact hlast ▸ hs ▸ hnumbered
    · rw [if_neg hzero] at hs
      cases hs

/-- A call keeps the numbers, and the settings distinct. -/
theorem numbered_step
    {t : Topology} {call : Call}
    (ht : Built t) (hauto : call.IsAutomatic) (h : SettingsDistinct t ∧ AllNumbered t) :
    SettingsDistinct (call.run t).2 ∧ AllNumbered (call.run t).2 := by
  have hsame : (call.run t).2.switches = t.switches →
      SettingsDistinct (call.run t).2 ∧ AllNumbered (call.run t).2 := by
    intro hswitches
    refine ⟨⟨?_, ?_⟩, ?_⟩
    · rw [hswitches]
      exact h.1.deviceIds
    · rw [hswitches]
      exact h.1.servicePorts
    · rw [AllNumbered, hswitches]
      exact h.2
  cases hexc : (call.run t).1 with
  | some e =>
      exact hsame (by rw [(call_run ht call).1 (by rw [hexc]; rfl)])
  | none =>
      cases call with
      | addHost args =>
          obtain ⟨host, _, htopology⟩ := (outcome_of_atomic (addHost_atomic args t)).2 hexc
          have hswitches := congrArg Topology.switches htopology
          exact hsame hswitches
      | addSwitch args =>
          obtain ⟨switch, hnumbered, hvalues⟩ := run_addSwitch hauto hexc
          exact ⟨(settingsDistinct_append_iff h.1 hnumbered hvalues).mpr h.2.free,
            h.2.append hnumbered hvalues⟩
      | addLink a b argsA argsB shaping =>
          obtain ⟨link, _, _, htopology⟩ :=
            (outcome_of_atomic (addLink_atomic t a b argsA argsB shaping)).2 hexc
          have hswitches := congrArg Topology.switches htopology
          exact hsame hswitches

/-- Where every switch was numbered automatically the settings are distinct. -/
theorem distinct_of_automatic
    (calls : List Call) (hauto : ∀ call ∈ calls, call.IsAutomatic) :
    SettingsDistinct (after calls) := by
  have hrun : SettingsDistinct (after calls) ∧ AllNumbered (after calls) := by
    induction calls using List.reverseRecOn with
    | nil =>
        refine ⟨⟨List.nodup_nil, List.nodup_nil⟩, fun i s hs => ?_⟩
        simp [after, OrderedDict.empty, OrderedDict.values] at hs
    | append_singleton calls call ih =>
        rw [after_append]
        exact numbered_step (built_after calls) (hauto call (by simp))
          (ih fun c hc => hauto c (List.mem_append_left _ hc))
  exact hrun.1

/-! ### Results -/

/--
After every sequence of calls that leaves distinct settings, a call of `add_switch` that
returns with automatic numbers keeps them distinct iff those numbers are free.
-/
theorem numbering_iff
    (calls : List Call) (args : SwitchArgs)
    (hdistinct : SettingsDistinct (after calls)) (hauto : Automatic args)
    (hreturned : ((Call.addSwitch args).run (after calls)).1 = none) :
    SettingsDistinct (after (calls ++ [.addSwitch args])) ↔ NumbersFree (after calls) := by
  obtain ⟨switch, hnumbered, hvalues⟩ := run_addSwitch hauto hreturned
  exact settingsDistinct_append_iff hdistinct hnumbered (after_append calls _ ▸ hvalues)

theorem numbering_iff_second :
    SettingsDistinct (after [
      .addSwitch { name := .str "s1", p4Src := .str "basic.p4" },
      .addSwitch { name := .str "s2", p4Src := .str "basic.p4" }]) :=
  (numbering_iff [.addSwitch { name := .str "s1", p4Src := .str "basic.p4" }]
    { name := .str "s2", p4Src := .str "basic.p4" }
    ⟨by decide +kernel, by decide +kernel⟩ ⟨rfl, rfl, rfl⟩ (by decide +kernel)).mpr
    ⟨by decide +kernel, by decide +kernel, by decide +kernel⟩

/-- The second switch gets the device id that the first one was given. -/
theorem explicitOne_collides :
    let calls := [Call.addSwitch
      { name := .str "s1", p4Src := .str "basic.p4", deviceId := .int 1 }]
    let args : SwitchArgs := { name := .str "s2", p4Src := .str "basic.p4" }
    SettingsDistinct (after calls) ∧ Automatic args ∧
      ((Call.addSwitch args).run (after calls)).1 = none ∧
      ¬ SettingsDistinct (after (calls ++ [.addSwitch args])) ∧
      (after (calls ++ [.addSwitch args])).validate ≠ [] := by
  refine ⟨⟨by decide +kernel, by decide +kernel⟩, ⟨rfl, rfl, rfl⟩, by decide +kernel, fun h => ?_,
    by decide +kernel⟩
  have hids := h.deviceIds
  revert hids
  decide +kernel

end Topo
end P4Net
