import P4Net.LinkDeployment
import P4Net.LinkImpairments
import P4Net.MachineRuns

/-!
# What a startup builds

Where the startup of a validated topology returns, on a machine that does not have its names in
use, the machine has the namespaces, the interfaces, the routes and the switch processes that the
topology describes, and nothing else of it has changed.

* `Unused` : the machine has the names of the topology free.
* `ComesUp` : the startup returns.
* `Deployed` : the machine that a topology describes.
* `deployed_of_startup` : what a startup that returns leaves.
-/

namespace P4Net
namespace Deployment

open TextLiterals
open Network (StartOp Primitive Resource Raised World)
open Topo (ifaceKey)

/-- The loopback interface of a host. -/
def loopback : Iface := { peer := none, up := true }

/-! ### Namespaces -/

/-- Some namespaces are new, each with a loopback interface that is up. -/
structure NamespacesAdded (names : List String) (k k' : Linux) : Prop where
  routes : ∀ netns, k'.routes netns =
    if netns ∈ names.map some then some {} else k.routes netns
  ifaces : ∀ key : IfaceKey, k'.ifaces key = if key.1 ∈ names.map some then
    if key.2 = "lo" then some loopback else none else k.ifaces key
  processes : k'.processes = k.processes

theorem execAll_namespaceOp
    {k : Linux} {name : String} (h : k.routes (some name) = none) :
    ∃ k', execAll (Network.namespaceOps name) k = some k' ∧ NamespacesAdded [name] k k' := by
  have hcreate : k.create (.netns name) = some (k.addNamespace name) := by
    simp [Linux.create, h]
  have hup : (k.addNamespace name).exec (.call (.nsExec name ["ip", "link", "set", "lo", "up"])) =
      some ((k.addNamespace name).put (some name, "lo") loopback) := by
    have hlo : (k.addNamespace name).ifaces (some name, "lo") = some { peer := none } := by
      simp [Linux.addNamespace]
    refine (congrArg (Option.bind · _) hlo).trans ?_
    rfl
  refine ⟨(k.addNamespace name).put (some name, "lo") loopback, ?_, ?_, ?_, rfl⟩
  · refine (congrArg (Option.bind · _) hcreate).trans ?_
    exact (congrArg (Option.bind · _) hup).trans rfl
  · intro netns
    simp only [List.map_cons, List.map_nil, List.mem_singleton, Linux.put, Linux.addNamespace]
    exact Function.update_apply ..
  · rintro ⟨netns, iface⟩
    simp only [List.map_cons, List.map_nil, List.mem_singleton, Linux.put, Linux.addNamespace,
      Function.update_apply, Prod.mk.injEq]
    by_cases hnetns : netns = some name <;> by_cases hlo : iface = "lo" <;> simp [hnetns, hlo]

theorem execAll_namespaceOps
    {names : List String} (hnodup : names.Nodup) {k : Linux}
    (h : ∀ name ∈ names, k.routes (some name) = none) :
    ∃ k', execAll (names.flatMap Network.namespaceOps) k = some k' ∧
      NamespacesAdded names k k' := by
  induction names generalizing k with
  | nil => exact ⟨k, rfl, fun _ => rfl, fun _ => rfl, rfl⟩
  | cons name rest ih =>
      rw [List.nodup_cons] at hnodup
      obtain ⟨mid, hrun, hadded⟩ := execAll_namespaceOp (h name List.mem_cons_self)
      have hrest : ∀ other ∈ rest, mid.routes (some other) = none := by
        intro other hother
        have hne : some other ∉ [name].map some := by
          intro hmem
          obtain rfl : other = name := by simpa using hmem
          exact hnodup.1 hother
        rw [hadded.routes, if_neg hne]
        exact h other (List.mem_cons_of_mem _ hother)
      obtain ⟨k', hrun', hadded'⟩ := ih hnodup.2 hrest
      refine ⟨k', execAll_trans hrun hrun', ?_, ?_, hadded'.processes.trans hadded.processes⟩
      · intro netns
        rw [hadded'.routes, hadded.routes, List.map_cons, List.map_cons, List.map_nil]
        by_cases hfirst : netns = some name <;> by_cases hmem : netns ∈ rest.map some <;>
          simp [hfirst, hmem]
      · intro key
        rw [hadded'.ifaces, hadded.ifaces, List.map_cons, List.map_cons, List.map_nil]
        by_cases hfirst : key.1 = some name <;> by_cases hmem : key.1 ∈ rest.map some <;>
          simp [hfirst, hmem]

/-! ### Routes -/

/-- An empty default route counts as none. -/
def gateway (route : Option String) : Option String := route.filter fun text => text ≠ ""

/-- The default routes of a host. -/
def hostRoutes (host : Network.Host) : Routes :=
  ⟨gateway host.defaultRoute, gateway host.defaultRoute6⟩

/-- Set the routes of a namespace. -/
def Linux.setRoutes (k : Linux) (netns : Option String) (routes : Routes) : Linux :=
  { k with routes := Function.update k.routes netns (some routes) }

/-- A default route is added where there is none of its family yet. -/
theorem execAll_routeOp
    {k : Linux} {name : String} {argv : List String} {f : String → Routes → Option Routes}
    (hcommand : ∀ (k : Linux) text, k.command (some name) (argv ++ [text]) =
      k.changeRoutes (some name) (f text))
    {routes routes' : Routes} (hroutes : k.routes (some name) = some routes) (route : Option String)
    (hnone : gateway route = none → routes = routes')
    (hsome : ∀ text, gateway route = some text → f text routes = some routes') :
    execAll (Network.routeOp name argv route) k = some (k.setRoutes (some name) routes') := by
  have hops : Network.routeOp name argv route = (gateway route).toList.flatMap fun text =>
      [.needNamespace name, .call (.nsExec name (argv ++ [text]))] := by
    unfold Network.routeOp gateway
    cases route with
    | none => rfl
    | some text => by_cases htext : text = "" <;> simp [Option.filter, htext]
  rw [hops]
  cases hgateway : gateway route with
  | none =>
      rw [← hnone hgateway, Linux.setRoutes, ← hroutes, Function.update_eq_self]
      rfl
  | some text =>
      have hcall : k.exec (.call (.nsExec name (argv ++ [text]))) =
          some (k.setRoutes (some name) routes') := by
        refine (hcommand k text).trans ?_
        rw [Linux.changeRoutes, hroutes, Option.bind_some, hsome text hgateway, Option.map_some]
        rfl
      exact (congrArg (Option.bind · _) hcall).trans rfl

/-- The default routes of some hosts. -/
structure RoutesAdded (entries : List (String × Network.Host)) (k k' : Linux) : Prop where
  routes : ∀ e ∈ entries, k'.routes (some e.1) = some (hostRoutes e.2)
  others : ∀ netns, netns ∉ entries.map (fun e => some e.1) → k'.routes netns = k.routes netns
  ifaces : k'.ifaces = k.ifaces
  processes : k'.processes = k.processes

theorem execAll_routeOps
    {entries : List (String × Network.Host)} (hnodup : (entries.map Prod.fst).Nodup) {k : Linux}
    (h : ∀ e ∈ entries, k.routes (some e.1) = some {}) :
    ∃ k', execAll (entries.flatMap Network.routeOps) k = some k' ∧ RoutesAdded entries k k' := by
  induction entries generalizing k with
  | nil => exact ⟨k, rfl, by simp, fun _ _ => rfl, rfl, rfl⟩
  | cons e rest ih =>
      obtain ⟨name, host⟩ := e
      rw [List.map_cons, List.nodup_cons] at hnodup
      have hfirst := h _ List.mem_cons_self
      let mid₁ := k.setRoutes (some name) { via := gateway host.defaultRoute }
      let mid := k.setRoutes (some name) (hostRoutes host)
      have hvia : execAll (Network.routeOp name ["ip", "route", "add", "default", "via"]
          host.defaultRoute) k = some mid₁ := by
        refine execAll_routeOp (f := Routes.add) (fun _ _ => rfl) hfirst _ ?_ ?_
        · intro hnone
          rw [hnone]
        · intro text hsome
          rw [hsome]
          rfl
      have hvia6 : execAll (Network.routeOp name ["ip", "-6", "route", "add", "default", "via"]
          host.defaultRoute6) mid₁ = some mid := by
        have hidem : mid = mid₁.setRoutes (some name) (hostRoutes host) := by
          simp only [mid, mid₁, Linux.setRoutes, Function.update_idem]
        rw [hidem]
        refine execAll_routeOp (f := Routes.add6) (fun _ _ => rfl)
          (show mid₁.routes (some name) = some _ from Function.update_self ..) _ ?_ ?_
        · intro hnone
          rw [hostRoutes, hnone]
        · intro text hsome
          rw [hostRoutes, hsome]
          rfl
      have hrest : ∀ f ∈ rest, mid.routes (some f.1) = some {} := by
        intro f hf
        have hne : some f.1 ≠ some name := by
          intro heq
          exact hnodup.1 (List.mem_map.mpr ⟨f, hf, Option.some.inj heq⟩)
        exact (Function.update_of_ne hne ..).trans (h f (List.mem_cons_of_mem _ hf))
      obtain ⟨k', hrun, hadded⟩ := ih hnodup.2 hrest
      refine ⟨k', execAll_trans (execAll_trans hvia hvia6) hrun, ?_, ?_, hadded.ifaces,
        hadded.processes⟩
      · intro f hf
        rcases List.mem_cons.mp hf with rfl | hf
        · have hnot : some name ∉ rest.map fun e => some e.1 := by
            intro hmem
            obtain ⟨f, hf, heq⟩ := List.mem_map.mp hmem
            exact hnodup.1 (List.mem_map.mpr ⟨f, hf, Option.some.inj heq⟩)
          exact (hadded.others _ hnot).trans (Function.update_self ..)
        · exact hadded.routes f hf
      · intro netns hnot
        rw [List.map_cons, List.mem_cons, not_or] at hnot
        exact (hadded.others _ hnot.2).trans (Function.update_of_ne hnot.1 ..)

/-! ### Switch processes -/

/-- Start switch processes. -/
def Linux.addProcesses (k : Linux) (processes : List Network.BMv2Switch) : Linux :=
  { k with processes := k.processes ++ processes }

theorem execAll_bmv2Ops
    (n : Network.Topology) (options : Network.Options)
    (entries : List (String × Network.P4Switch)) (k : Linux) :
    execAll (entries.flatMap (Network.bmv2Ops n options)) k =
      some (k.addProcesses (entries.map fun e => Network.bmv2For n options e.1 e.2)) := by
  induction entries generalizing k with
  | nil =>
      rw [Linux.addProcesses, List.map_nil, List.append_nil]
      rfl
  | cons e rest ih =>
      let mid := k.addProcesses [Network.bmv2For n options e.1 e.2]
      have hfirst : execAll (Network.bmv2Ops n options e) k = some mid := rfl
      rw [List.flatMap_cons, execAll_trans hfirst (ih mid)]
      simp only [mid, Linux.addProcesses, List.map_cons, List.append_assoc, List.cons_append,
        List.nil_append]

/-! ### The whole startup -/

/-- The names of the topology are free. -/
structure Unused (t : Topo.Topology) (k : Linux) : Prop where
  root : (k.routes none).isSome
  hosts : ∀ name ∈ t.hosts.keys, k.routes (some name) = none
  switches : ∀ iface, (none, iface) ∈ Topo.placements t.toNetwork → k.ifaces (none, iface) = none

/-- The machine `k`, with what a topology describes added to it. -/
structure Deployed (t : Topo.Topology) (options : Network.Options) (k k' : Linux) : Prop where
  wired : ∀ before link after, t.links = before ++ link :: after → ∀ d,
    ∃ e, intended t before link d = some e ∧ k'.ifaces e.1 = some e.2
  hosts : ∀ name ∈ t.hosts.keys, ∀ iface, (some name, iface) ∉ Topo.placements t.toNetwork →
    k'.ifaces (some name, iface) = if iface = "lo" then some loopback else none
  others : ∀ key : IfaceKey, key ∉ Topo.placements t.toNetwork →
    key.1 ∉ t.hosts.keys.map some → k'.ifaces key = k.ifaces key
  routes : ∀ e ∈ t.toNetwork.hosts.entries, k'.routes (some e.1) = some (hostRoutes e.2)
  otherRoutes : ∀ netns, netns ∉ t.hosts.keys.map some → k'.routes netns = k.routes netns
  processes : k'.processes = k.processes ++
    t.toNetwork.switches.entries.map fun e => Network.bmv2For t.toNetwork options e.1 e.2
  cabled : ∀ e ∈ t.toNetwork.switches.entries, ∀ near far, (near, far) ∈ Topo.attached t e.1 →
    ∃ port iface key, near.port = some port ∧
      (port, iface) ∈ (Network.bmv2For t.toNetwork options e.1 e.2).portToIface ∧
      ifaceKey t far = some key ∧ k'.peerOf (none, iface) = some key ∧
      k'.peerOf key = some (none, iface)

/-- The interface of an endpoint, and its peer. -/
theorem intended_key
    {t : Topo.Topology} {before : List Topo.Link} {link : Topo.Link} {d : Topo.Direction}
    {e : IfaceKey × Iface} (h : intended t before link d = some e) :
    ifaceKey t (sender link d) = some e.1 ∧
      ∃ far, ifaceKey t (receiver link d) = some far ∧ e.2.peer = some far := by
  unfold intended at h
  simp only at h
  split at h
  · rename_i node key peer hnode hkey hpeer
    obtain rfl := Option.some.inj h
    refine ⟨hkey, peer, hpeer, ?_⟩
    cases node <;> rfl
  · cases h

/-- The endpoints at a node are senders of links. -/
theorem mem_attached
    {t : Topo.Topology} {node : String} {near far : Topo.LinkEndpoint String}
    (h : (near, far) ∈ Topo.attached t node) :
    near.node = node ∧ ∃ before link after d, t.links = before ++ link :: after ∧
      near = sender link d ∧ far = receiver link d := by
  obtain ⟨hmem, hnode⟩ := List.mem_filter.mp h
  obtain ⟨link, hlink, hends⟩ := List.mem_flatMap.mp hmem
  obtain ⟨before, after, hsplit⟩ := List.append_of_mem hlink
  simp only [List.mem_cons, List.not_mem_nil, or_false, Prod.mk.injEq] at hends
  refine ⟨of_decide_eq_true hnode, before, link, after, ?_⟩
  rcases hends with ⟨rfl, rfl⟩ | ⟨rfl, rfl⟩
  · exact ⟨.aToB, hsplit, rfl, rfl⟩
  · exact ⟨.bToA, hsplit, rfl, rfl⟩

/-- The two directions of a link see each other. -/
theorem peers_of_wired
    {t : Topo.Topology} {k : Linux}
    (hwired : ∀ before link after, t.links = before ++ link :: after → ∀ d,
      ∃ e, intended t before link d = some e ∧ k.ifaces e.1 = some e.2)
    {before after : List Topo.Link} {link : Topo.Link} (hsplit : t.links = before ++ link :: after)
    (d : Topo.Direction) :
    ∃ near far, ifaceKey t (sender link d) = some near ∧ ifaceKey t (receiver link d) = some far ∧
      k.peerOf near = some far ∧ k.peerOf far = some near := by
  have hboth : ∀ d, ∃ near far, ifaceKey t (sender link d) = some near ∧
      ifaceKey t (receiver link d) = some far ∧ k.peerOf near = some far := by
    intro d
    obtain ⟨e, hintended, hiface⟩ := hwired before link after hsplit d
    obtain ⟨hkey, far, hfar, hpeer⟩ := intended_key hintended
    exact ⟨e.1, far, hkey, hfar, by rw [Linux.peerOf, hiface, Option.bind_some, hpeer]⟩
  obtain ⟨a, b, ha, hb, hab⟩ := hboth .aToB
  obtain ⟨b', a', hb', ha', hba⟩ := hboth .bToA
  obtain rfl := Option.some.inj (hb.symm.trans hb')
  obtain rfl := Option.some.inj (ha.symm.trans ha')
  cases d with
  | aToB => exact ⟨a, b, ha, hb, hab, hba⟩
  | bToA => exact ⟨b, a, hb, ha, hba, hab⟩

/-- The statements before the namespaces. -/
def opsBefore (n : Network.Topology) (options : Network.Options) : List StartOp :=
  (if options.skipValidation then [] else [.call .validate]) ++ Network.directoryOps options ++
    n.switches.entries.flatMap Network.compileOps ++ [.registerCleanup]

/-- They neither configure the kernel nor create what it holds. -/
theorem quiet_before
    {n : Network.Topology} {options : Network.Options} {op : StartOp}
    (hop : op ∈ opsBefore n options) :
    op.neutral = true ∧ ∀ k : Linux, k.exec op = some k := by
  simp only [opsBefore, Network.directoryOps, Network.compileOps, List.mem_append,
    List.mem_flatMap, List.mem_map, List.mem_cons, List.not_mem_nil, or_false] at hop
  rcases hop with ((hop | hop | ⟨_, _, rfl⟩) | ⟨_, _, rfl | rfl⟩) | rfl
  · split_ifs at hop
    · cases hop
    · obtain rfl := List.mem_singleton.mp hop
      exact ⟨rfl, fun _ => rfl⟩
  · rw [hop]
    cases options.logDir <;> exact ⟨rfl, fun _ => rfl⟩
  all_goals exact ⟨rfl, fun _ => rfl⟩

theorem execAll_startOps2
    (n : Network.Topology) (bmv2Switches : List (String × Network.BMv2Switch)) (k : Linux) :
    execAll (Network.startOps2 n bmv2Switches) k = some k := by
  refine execAll_quiet ?_ k
  intro op hop k
  simp only [Network.startOps2, Network.clientOps, List.mem_append, List.mem_flatMap,
    List.mem_map, List.mem_cons, List.not_mem_nil, or_false] at hop
  rcases hop with ((⟨_, _, rfl | rfl | rfl | rfl | rfl⟩ | rfl) | ⟨_, _, rfl⟩) | ⟨_, _, rfl⟩ <;> rfl

theorem keys_toNetwork
    (t : Topo.Topology) :
    t.toNetwork.hosts.entries.map Prod.fst = t.hosts.keys ∧
      t.toNetwork.switches.entries.map Prod.fst = t.switches.keys :=
  ⟨OrderedDict.keys_mapValues .., OrderedDict.keys_mapValues ..⟩

/-- The interface of an endpoint is one of the placements, and not a loopback. -/
theorem placement_of_ifaceKey
    {t : Topo.Topology} (v : Topo.Valid t) {ep : Topo.LinkEndpoint String} (hep : ep ∈ t.endpoints)
    {key : IfaceKey} (hkey : ifaceKey t ep = some key) :
    key ∈ Topo.placements t.toNetwork ∧ key.2 ≠ "lo" ∧
      (∀ name ∈ key.1, name ∈ t.hosts.keys) ∧ (ep.node ∈ t.switches.keys → key.1 = none) := by
  obtain ⟨end', hplace⟩ := Topo.placement_of_valid v hep
  obtain ⟨-, hhosts, -⟩ := node_of_placement v hplace
  have hmem := mem_placements_of_endpoint v hep hplace
  obtain rfl := Option.some.inj (hplace.key.symm.trans hkey)
  refine ⟨hmem, hplace.notLo, fun name hname => (hhosts name hname).2, fun hswitch => ?_⟩
  cases hnetns : end'.2.netns with
  | none => rfl
  | some name =>
      obtain ⟨rfl, hhost⟩ := hhosts name hnetns
      exact absurd hswitch (v.disjoint _ hhost)

/-- After the namespaces the links can be wired. -/
theorem ready_of_namespaces
    {t : Topo.Topology} (v : Topo.Valid t) {k k' : Linux} (hunused : Unused t k)
    (hadded : NamespacesAdded t.hosts.keys k k') :
    Ready t t.links k' := by
  refine ⟨?_, ?_, ?_⟩
  · rw [hadded.routes, if_neg (by simp)]
    exact hunused.root
  · intro name hname
    rw [hadded.routes, if_pos (List.mem_map_of_mem hname)]
    rfl
  · intro link hlink ep hep key hkey
    obtain ⟨hmem, hlo, hhosts, -⟩ :=
      placement_of_ifaceKey v (Topo.mem_endpoints_of_link hlink hep) hkey
    obtain ⟨netns, iface⟩ := key
    rw [hadded.ifaces]
    cases netns with
    | none =>
        rw [if_neg (by simp)]
        exact hunused.switches iface hmem
    | some name => rw [if_pos (List.mem_map_of_mem (hhosts name rfl)), if_neg hlo]

/-- What is found under a key of an overlay with these keys. -/
theorem wired_of_overlay
    {t : Topo.Topology} (v : Topo.Valid t) {k k' : Linux} (hwired : LinksWired t [] t.links k k') :
    (∀ before link after, t.links = before ++ link :: after → ∀ d,
      ∃ e, intended t before link d = some e ∧ k'.ifaces e.1 = some e.2) ∧
    ∀ key, key ∉ Topo.placements t.toNetwork → k'.ifaces key = k.ifaces key := by
  have hkeys : (intendedAll t [] t.links).map Prod.fst = Topo.placements t.toNetwork :=
    hwired.keys.trans (Topo.placements_of_valid v).symm
  have hnodup : ((intendedAll t [] t.links).map Prod.fst).Nodup := by
    rw [hwired.keys]
    exact v.interfaces
  constructor
  · intro before link after hsplit d
    have hlink : link ∈ t.links := hsplit ▸ List.mem_append_right _ List.mem_cons_self
    obtain ⟨a, b, -, hplaceA, hplaceB⟩ := Topo.resolveLink_of_valid v hlink
    have hsome : ∃ e, intended t before link d = some e := by
      cases d with
      | aToB =>
          simp only [intended, sender, receiver, hplaceA.node, hplaceA.key, hplaceB.key]
          exact ⟨_, rfl⟩
      | bToA =>
          simp only [intended, sender, receiver, hplaceB.node, hplaceB.key, hplaceA.key]
          exact ⟨_, rfl⟩
    obtain ⟨e, he⟩ := hsome
    have hmem : ∀ front links, links = front ++ link :: after → ∀ done, done ++ front = before →
        e ∈ intendedAll t done links := by
      intro front
      induction front with
      | nil =>
          rintro _ rfl done rfl
          rw [List.append_nil] at he
          cases d <;> simp [intendedAll, he]
      | cons first front ih =>
          rintro _ rfl done rfl
          refine List.mem_append_right _ (ih _ rfl (done ++ [first]) ?_)
          rw [List.append_assoc, List.singleton_append]
    refine ⟨e, he, ?_⟩
    rw [hwired.ifaces]
    exact overlay_of_mem _ hnodup (hmem before t.links hsplit [] rfl)
  · intro key hkey
    rw [hwired.ifaces]
    exact overlay_of_not_mem _ (hkeys ▸ hkey)

/-- The entry of an endpoint at a switch among the ports. -/
theorem ifaceEntry_of_attached
    {t : Topo.Topology} (v : Topo.Valid t) {switchName : String}
    (hswitch : switchName ∈ t.switches.keys) {near far : Topo.LinkEndpoint String}
    (h : (near, far) ∈ Topo.attached t switchName) :
    ∃ port iface, near.port = some port ∧ ifaceKey t near = some (none, iface) ∧
      Topo.ifaceEntry near = some (port, iface) := by
  obtain ⟨hep, hnode⟩ := Topo.mem_endpoints_of_attached h
  obtain ⟨⟨iface, node⟩, hplace⟩ := Topo.placement_of_valid v hep
  obtain ⟨port, hport⟩ := Option.isSome_iff_exists.mp (v.ported near hep)
  obtain ⟨-, -, -, hroot⟩ := placement_of_ifaceKey v hep hplace.key
  have hkey : ifaceKey t near = some (none, iface) := by
    rw [hplace.key, ← show node.netns = none from hroot (hnode ▸ hswitch)]
  have hname : near.ifaceName = .str iface := hplace.iface
  exact ⟨port, iface, hport, hkey, by simp [Topo.ifaceEntry, hport, hname, Topo.Value.asStr]⟩

/-- A port of a switch is cabled to the opposite endpoint of its link. -/
theorem cabled_of_wired
    {t : Topo.Topology} (v : Topo.Valid t) (options : Network.Options) {k : Linux}
    (hwired : ∀ before link after, t.links = before ++ link :: after → ∀ d,
      ∃ e, intended t before link d = some e ∧ k.ifaces e.1 = some e.2)
    {e : String × Network.P4Switch} (he : e ∈ t.toNetwork.switches.entries)
    {near far : Topo.LinkEndpoint String} (hmem : (near, far) ∈ Topo.attached t e.1) :
    ∃ port iface key, near.port = some port ∧
      (port, iface) ∈ (Network.bmv2For t.toNetwork options e.1 e.2).portToIface ∧
      ifaceKey t far = some key ∧ k.peerOf (none, iface) = some key ∧
      k.peerOf key = some (none, iface) := by
  have hswitch : e.1 ∈ t.switches.keys := (keys_toNetwork t).2 ▸ List.mem_map_of_mem he
  obtain ⟨-, before, link, after, d, hsplit, rfl, rfl⟩ := mem_attached hmem
  obtain ⟨port, iface, hport, hkey, hentry⟩ := ifaceEntry_of_attached v hswitch hmem
  obtain ⟨near, far, hnear, hfar, hpeer, hback⟩ := peers_of_wired hwired hsplit d
  obtain rfl := Option.some.inj (hkey.symm.trans hnear)
  refine ⟨port, iface, far, hport, ?_, hfar, hpeer, hback⟩
  rw [show (Network.bmv2For t.toNetwork options e.1 e.2).portToIface =
    (Network.portToIfaceFor t.toNetwork e.1).entries from rfl, Topo.portToIfaceFor_entries v]
  exact List.mem_filterMap.mpr ⟨_, hmem, hentry⟩

/-- With plain names a startup can return, and builds the topology. -/
theorem deployed_of_plainNames
    {t : Topo.Topology} (v : Topo.Valid t) (hplain : PlainNames t) (options : Network.Options)
    (bmv2Switches : List (String × Network.BMv2Switch)) {k : Linux} (hunused : Unused t k) :
    ∃ k', execAll (Network.startOps1 t.toNetwork options ++
      Network.startOps2 t.toNetwork bmv2Switches) k = some k' ∧ Deployed t options k k' := by
  obtain ⟨hhostKeys, -⟩ := keys_toNetwork t
  have hnames : t.toNetwork.hosts.keys = t.hosts.keys := hhostKeys
  have hnodup : t.hosts.keys.Nodup := t.hosts.nodup
  obtain ⟨k₁, hrun₁, hadded⟩ := execAll_namespaceOps hnodup hunused.hosts
  have hinit : execAll (t.hosts.keys.map .initIface) k₁ = some k₁ := by
    refine execAll_quiet ?_ k₁
    intro op hop k
    obtain ⟨name, -, rfl⟩ := List.mem_map.mp hop
    rfl
  have hseen : SeenIs t [] [] := fun name _ => by simp
  obtain ⟨k₂, hrun₂, hlinks⟩ := execAll_links v hplain (fun _ hl => hl) v.interfaces hseen
    (ready_of_namespaces v hunused hadded)
  obtain ⟨hwired, hothers⟩ := wired_of_overlay v hlinks
  have hroutes₂ : ∀ e ∈ t.toNetwork.hosts.entries, k₂.routes (some e.1) = some {} := by
    intro e he
    have hmem : some e.1 ∈ t.hosts.keys.map some :=
      List.mem_map_of_mem (hhostKeys ▸ List.mem_map_of_mem he)
    rw [hlinks.routes, hadded.routes, if_pos hmem]
  obtain ⟨k₃, hrun₃, hrouted⟩ := execAll_routeOps (hhostKeys ▸ hnodup) hroutes₂
  have hwired₃ : ∀ before link after, t.links = before ++ link :: after → ∀ d,
      ∃ e, intended t before link d = some e ∧ k₃.ifaces e.1 = some e.2 := by
    rw [hrouted.ifaces]
    exact hwired
  have hrun₄ := execAll_bmv2Ops t.toNetwork options t.toNetwork.switches.entries k₃
  have hprocesses : k₃.processes = k.processes :=
    hrouted.processes.trans (hlinks.processes.trans hadded.processes)
  let started := t.toNetwork.switches.entries.map fun e =>
    Network.bmv2For t.toNetwork options e.1 e.2
  refine ⟨k₃.addProcesses started, ?_, ?_⟩
  · unfold Network.startOps1
    rw [hnames, Topo.links_toNetwork]
    exact execAll_trans (execAll_trans (execAll_trans (execAll_trans (execAll_trans (execAll_trans
      (execAll_quiet (fun op hop => (quiet_before hop).2) k) hrun₁) hinit) hrun₂) hrun₃) hrun₄)
      (execAll_startOps2 ..)
  refine ⟨hwired₃, ?_, ?_, hrouted.routes, ?_, ?_, ?_⟩
  · intro name hname iface hplaced
    have hmem : some name ∈ t.hosts.keys.map some := List.mem_map_of_mem hname
    exact (congrFun hrouted.ifaces _).trans ((hothers _ hplaced).trans
      ((hadded.ifaces _).trans (if_pos hmem)))
  · intro key hplaced houtside
    exact (congrFun hrouted.ifaces _).trans ((hothers _ hplaced).trans
      ((hadded.ifaces _).trans (if_neg houtside)))
  · intro netns houtside
    have hnot : netns ∉ t.toNetwork.hosts.entries.map fun e => some e.1 := by
      rwa [← hhostKeys, List.map_map] at houtside
    exact (hrouted.others _ hnot).trans ((congrFun hlinks.routes _).trans
      ((hadded.routes _).trans (if_neg houtside)))
  · rw [← hprocesses]
    rfl
  · exact fun e he near far hmem => cabled_of_wired v options hwired₃ he hmem

/-- Where a name is not plain a setting cannot return. -/
theorem execAll_not_plain
    {t : Topo.Topology} (hnot : ¬ PlainNames t) (options : Network.Options)
    (rest : List StartOp) (k : Linux) :
    execAll (Network.startOps1 t.toNetwork options ++ rest) k = none := by
  unfold PlainNames at hnot
  push Not at hnot
  obtain ⟨⟨netns, iface⟩, hmem, hname⟩ := hnot
  obtain ⟨value, hvalue⟩ := Topo.gate_mem_wireLinks hmem []
  have hop : StartOp.call (.sysctl netns (Topo.gateKey iface "disable_ipv6") value) ∈
      Network.startOps1 t.toNetwork options := by
    simp only [Network.startOps1, List.mem_append]
    exact Or.inl (Or.inl (Or.inr hvalue))
  exact execAll_eq_none (List.mem_append_left _ hop)
    (fun k => command_not_plain hname (by decide) k netns value) k

/--
The startup returns: no statement raises, and neither do the checks that `_direction_params` and
`apply_netem` make of the impairments.
-/
structure ComesUp (t : Topo.Topology) (env : Nat → Option Raised) (options : Network.Options)
    (w : World) : Prop where
  returns : (Network.doStart env t.toNetwork options w).2 = none
  impairments : ∀ link ∈ t.links, ∀ d, Topo.Accepted link.shaping d

/-- An interface is shaped iff its direction has parameters for `apply_netem`. -/
theorem shapes_eq
    {link : Topo.Link} {d : Topo.Direction} {p : Topo.NetemParams}
    (h : Topo.directionParams link.shaping d = .ok p) :
    shapes link d = p.isSet := by
  cases d <;> exact Topo.impaired_toNetwork h

/--
Where the startup of a validated topology returns, on a machine that has its names free, no
interface has a dot or an `=` in its name, the impairments are acceptable, and the machine is the
one that the topology describes: every endpoint of a link is an interface in its namespace, up,
configured as described, shaped iff its direction has parameters, and connected to the opposite
one; hosts have nothing else but their loopback interface and their routes; every port of a switch
is the end of a cable to the opposite endpoint; and the rest of the machine is as it was.
-/
theorem deployed_of_startup
    (m : Machine) (hm : m.Documented) (t : Topo.Topology) (h : t.validate = [])
    (env : Nat → Option Raised) (options : Network.Options) (w : World)
    (hup : ComesUp t env options w) (k k' : Linux) (hunused : Unused t k)
    (hstartup : m.Startup env t.toNetwork options w k k') :
    PlainNames t ∧
      (∀ link ∈ t.links, ∀ d, Topo.Acceptable link.shaping d ∧
        ∃ p, Topo.directionParams link.shaping d = .ok p ∧ shapes link d = p.isSet) ∧
      Deployed t options k k' := by
  obtain ⟨hraised, bmv2Switches, hops⟩ := startReturned_of_returns hup.returns
  obtain ⟨mid, hruns, hlast⟩ := hstartup
  rw [hraised] at hlast
  obtain rfl := hlast
  have hrun := hm.execAll hruns
  rw [hops] at hrun
  have hplain : PlainNames t := by
    by_contra hnot
    rw [execAll_not_plain hnot] at hrun
    cases hrun
  have v := (Topo.validate_eq_nil_iff t).mp h
  obtain ⟨built, hbuilt, hdeployed⟩ := deployed_of_plainNames v hplain options bmv2Switches hunused
  obtain rfl := Option.some.inj (hbuilt.symm.trans hrun)
  refine ⟨hplain, fun link hlink d => ?_, hdeployed⟩
  have hacceptable := (Topo.accepted_iff link.ok d).mp (hup.impairments link hlink d)
  obtain ⟨p, hparams, -⟩ := hup.impairments link hlink d
  exact ⟨hacceptable, p, hparams, shapes_eq hparams⟩

/-- A machine with nothing but its root namespace. -/
def bareMachine : Linux where
  routes := fun netns => if netns = none then some {} else none
  ifaces := fun _ => none
  processes := []
  veth := none

/-- Two hosts at a switch; the first link is slow. -/
def star : Topo.Topology := Topo.after [
  .addHost { name := .str "h1", ip := .str "10.0.0.1/24" },
  .addHost { name := .str "h2", ip := .str "10.0.0.2/24" },
  .addSwitch { name := .str "s1", p4Src := .str "basic.p4" },
  .addLink (.value (.str "h1")) (.value (.str "s1")) {} {} { Topo.unshaped with
    bandwidth := .str "10mbit", delay := .str "5ms" },
  .addLink (.value (.str "s1")) (.value (.str "h2")) {} {} Topo.unshaped]

theorem valid_star :
    star.validate = [] ∧ PlainNames star ∧ Unused star bareMachine := by
  refine ⟨by decide +kernel, ?_, rfl, fun _ _ => rfl, fun _ _ => rfl⟩
  unfold PlainNames PlainName
  decide +kernel

/-- A startup of the star in which nothing raises. -/
theorem startup_star :
    ComesUp star (fun _ => none) {} {} ∧
      ∃ k', obedient.Startup (fun _ => none) star.toNetwork {} {} bareMachine k' := by
  have hreturns : (Network.doStart (fun _ => none) star.toNetwork {} {}).2 = none := by
    decide +kernel
  obtain ⟨hvalid, hplain, hunused⟩ := valid_star
  obtain ⟨hraised, bmv2Switches, hops⟩ := startReturned_of_returns hreturns
  obtain ⟨k', hrun, -⟩ := deployed_of_plainNames ((Topo.validate_eq_nil_iff star).mp hvalid) hplain
    {} bmv2Switches hunused
  refine ⟨⟨hreturns, ?_⟩, k', k', ?_, ?_⟩
  · intro link hlink d
    rcases List.mem_cons.mp hlink with rfl | hlink
    · cases d <;> exact ⟨_, rfl, fun _ => rfl⟩
    · obtain rfl := List.mem_singleton.mp hlink
      cases d <;> exact ⟨_, rfl, fun h => absurd h (by decide)⟩
  · rw [hops]
    exact runs_obedient hrun
  · rw [hraised]

/-- Two hosts at a switch are brought up. -/
theorem deployed_of_startup_star :
    ∃ k', obedient.Startup (fun _ => none) star.toNetwork {} {} bareMachine k' ∧
      Deployed star {} bareMachine k' := by
  obtain ⟨hup, k', hstartup⟩ := startup_star
  obtain ⟨hvalid, -, hunused⟩ := valid_star
  obtain ⟨-, -, hdeployed⟩ := deployed_of_startup obedient documented_obedient star hvalid _ {} {}
    hup bareMachine k' hunused hstartup
  exact ⟨k', hstartup, hdeployed⟩

end Deployment
end P4Net
