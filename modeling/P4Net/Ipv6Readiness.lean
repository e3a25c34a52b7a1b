import P4Net.AddressRecords
import P4Net.IpAddresses
import P4Net.MethodContracts

/-!
# Waiting for IPv6 addresses

`_wait_for_ipv6_addresses` polls the hosts in rounds until every address that wiring has
recorded is usable, a deadline has passed, or a shutdown has been requested.

* `waitForIpv6Addresses` : the method, with what a round reads from outside as a `Round`.
* `Drops` and `Blames` : what a round does to the pending addresses, and what its exception
  says.
* `pollRound_ends` : every round does only this.
* `seen_of_ready`, `blamed_of_duplicate` : the rounds in which an address was seen.
* `Round.relevant` : what can have an effect in a round, and `waitRounds_relevant`.
-/

namespace P4Net
namespace Ipv6Readiness

open TextLiterals BigEndian Transactions
open Topo (Records)

/-! ### Listings -/

/-- An entry of `addr_info`. -/
structure AddrInfo where
  localText : Option String
  dadfailed : Bool := false
  tentative : Bool := false

/-- The address of an entry, if it has one. -/
def AddrInfo.address (info : AddrInfo) : Option Ipv6Address :=
  info.localText.bind fun text => ipv6Address text.toList

/-- An interface in the output of `ip -j -6 addr show`. -/
structure InterfaceInfo where
  ifname : Option String
  addrInfo : List AddrInfo := []

/-- The addresses that are waited for, by host and interface. -/
abbrev Pending := OrderedDict (String × String) Ipv6Address

/-- An exception of `_wait_for_ipv6_addresses`; `raised` is one of its callees. -/
inductive Fault (ε : Type) where
  | interrupted
  | notReady (pending : List ((String × String) × Ipv6Address))
  | duplicate (key : String × String) (address : Ipv6Address)
  | keyError (key : String)
  | addressValue (text : String)
  | raised (e : ε)

variable {ε : Type}

/-- What the query of a host's addresses ends with. -/
inductive Poll (ε : Type) where
  | timeout
  | raised (e : ε)
  | listing (interfaces : List InterfaceInfo)

/-- What a round reads: whether a shutdown is requested when it starts, the clock before the
query of a host and its outcome, and the clock after all queries.  A host is queried at most
once in a round. -/
structure Round (ε : Type) where
  stopRequested : Bool
  clock : String → Rat
  poll : String → Poll ε
  clockAfter : Rat

/-! ### The method -/

/-- The state monad of the wait. -/
abbrev Waiting (ε : Type) := ExceptT (Fault ε) (StateM Pending)

/-- `ipaddress.IPv6Address(address["local"])`. -/
def readAddress (info : AddrInfo) : Except (Fault ε) Ipv6Address :=
  match info.localText with
  | none => .error (.keyError "local")
  | some text =>
      match ipv6Address text.toList with
      | some address => .ok address
      | none => .error (.addressValue text)

/-- The loop over the addresses of an interface. -/
def checkAddresses (key : String × String) (wanted : Ipv6Address) :
    List AddrInfo → Waiting ε PUnit
  | [] => pure ⟨⟩
  | info :: rest => do
      let address ← raises (readAddress info)
      if address ≠ wanted then checkAddresses key wanted rest
      else if info.dadfailed then throw (.duplicate key wanted)
      else if info.tentative then pure ⟨⟩
      else modify fun pending => pending.erase key

/-- `interface["ifname"]`. -/
def readIfname (interface : InterfaceInfo) : Except (Fault ε) String :=
  match interface.ifname with
  | none => .error (.keyError "ifname")
  | some name => .ok name

/-- The body of the loop over the interfaces of a host. -/
def checkInterface (host : String) (interface : InterfaceInfo) : Waiting ε PUnit := do
  let name ← raises (readIfname interface)
  let pending ← get
  match pending.get? (host, name) with
  | none => pure ⟨⟩
  | some wanted => checkAddresses (host, name) wanted interface.addrInfo

/-- The body of the loop over the hosts. -/
def pollHost (deadline : Rat) (round : Round ε) (host : String) : Waiting ε PUnit := do
  let pending ← get
  if deadline ≤ round.clock host then throw (.notReady pending.entries)
  else
    match round.poll host with
    | .timeout => throw (.notReady pending.entries)
    | .raised e => throw (.raised e)
    | .listing interfaces => interfaces.forM (checkInterface host)

/-- `dict.fromkeys(name for name, _ in pending)`. -/
def hostsOf (pending : Pending) : List String := (pending.keys.map Prod.fst).eraseDups

/-- The end of a round: the clock is read if an address is still pending. -/
def endRound (deadline : Rat) (round : Round ε) : Waiting ε PUnit := do
  let pending ← get
  if pending.entries.isEmpty then pure ⟨⟩
  else if deadline ≤ round.clockAfter then throw (.notReady pending.entries)
  else pure ⟨⟩

/-- The body of the loop of `_wait_for_ipv6_addresses`. -/
def pollRound (deadline : Rat) (round : Round ε) : Waiting ε PUnit := do
  if round.stopRequested then throw .interrupted
  else
    let pending ← get
    (hostsOf pending).forM (pollHost deadline round)
    endRound deadline round

/-- The loop: it has returned, or addresses are pending after the last of the rounds. -/
def waitRounds (deadline : Rat) : List (Round ε) → Waiting ε Bool
  | [] => do
      let pending ← get
      return pending.entries.isEmpty
  | round :: rest => do
      let pending ← get
      if pending.entries.isEmpty then return true
      else
        pollRound deadline round
        waitRounds deadline rest

/-- The items of the comprehension over `_host_iface_ip6`. -/
def configuredTexts (records : Records) : List ((String × String) × String) :=
  records.entries.flatMap fun host =>
    host.2.entries.filterMap fun interface =>
      interface.2.map fun cidr => ((host.1, interface.1), cidr)

/-- The address of an item. -/
def readConfigured (item : (String × String) × String) :
    Except (Fault ε) ((String × String) × Ipv6Address) :=
  match interfaceIp item.2.toList with
  | some address => .ok (item.1, address)
  | none => .error (.addressValue item.2)

/-- The comprehension over `_host_iface_ip6`. -/
def readPending (records : Records) : Except (Fault ε) Pending :=
  ((configuredTexts records).mapM readConfigured).map OrderedDict.ofList

/-- `_IPV6_READY_TIMEOUT`. -/
def ipv6ReadyTimeout : Rat := 5

/-- `_wait_for_ipv6_addresses`, and the addresses that are pending at its end. -/
def waitForIpv6Addresses (records : Records) (start : Rat) (rounds : List (Round ε)) :
    Except (Fault ε) Bool × Pending :=
  match readPending records with
  | .error e => (.error e, OrderedDict.empty)
  | .ok pending =>
      if pending.entries.isEmpty then (.ok true, pending)
      else (waitRounds (start + ipv6ReadyTimeout) rounds).run.run pending

/-! ### What a round does -/

/-- The entry makes its address usable. -/
def AddrInfo.Usable (info : AddrInfo) : Prop := info.dadfailed = false ∧ info.tentative = false

/-- The entry says that the address is a duplicate. -/
def AddrInfo.Duplicate (info : AddrInfo) : Prop := info.dadfailed = true

/-- The listing has an entry for the address on the interface, and `P` holds of it. -/
def Poll.Shows (poll : Poll ε) (ifname : String) (address : Ipv6Address) (P : AddrInfo → Prop) :
    Prop :=
  ∃ interfaces, poll = .listing interfaces ∧
    ∃ interface ∈ interfaces, interface.ifname = some ifname ∧
      ∃ info ∈ interface.addrInfo, info.address = some address ∧ P info

/-- Only addresses that the round shows as usable are no longer pending. -/
def Drops (round : Round ε) (p p' : Pending) : Prop :=
  ∀ key, p'.get? key = p.get? key ∨
    p'.get? key = none ∧ ∃ address, p.get? key = some address ∧
      (round.poll key.1).Shows key.2 address AddrInfo.Usable

/-- A duplicate is an address that is pending and that the round shows as one. -/
def Blames (round : Round ε) (fault : Fault ε) (p : Pending) : Prop :=
  ∀ key address, fault = .duplicate key address →
    p.get? key = some address ∧ (round.poll key.1).Shows key.2 address AddrInfo.Duplicate

theorem Drops.refl
    (round : Round ε) (p : Pending) :
    Drops round p p :=
  fun _ => Or.inl rfl

theorem Drops.trans
    {round : Round ε} {p q r : Pending}
    (hpq : Drops round p q) (hqr : Drops round q r) :
    Drops round p r := by
  intro key
  rcases hqr key with hsame | ⟨hnone, address, hq, hshows⟩
  · rw [hsame]
    exact hpq key
  · rcases hpq key with hsame | ⟨hgone, _⟩
    · exact Or.inr ⟨hnone, address, hsame ▸ hq, hshows⟩
    · rw [hgone] at hq
      cases hq

theorem readAddress_eq_ok_iff
    {info : AddrInfo} {address : Ipv6Address} :
    (readAddress info : Except (Fault ε) _) = .ok address ↔ info.address = some address := by
  unfold readAddress AddrInfo.address
  cases info.localText with
  | none => simp
  | some text =>
      cases haddress : ipv6Address text.toList <;> simp [haddress]

/-- The loop over the addresses ends with the first one that is waited for. -/
theorem checkAddresses_ends
    {key : String × String} {wanted : Ipv6Address} {p : Pending} (infos : List AddrInfo) :
    Ends (checkAddresses key wanted infos : Waiting ε PUnit) p
      (fun _ p' => p' = p ∨ p' = p.erase key ∧
        ∃ info ∈ infos, info.address = some wanted ∧ info.Usable)
      (fun fault p' => p' = p ∧ ∀ key' address, fault = .duplicate key' address →
        key' = key ∧ address = wanted ∧
          ∃ info ∈ infos, info.address = some wanted ∧ info.Duplicate) := by
  induction infos with
  | nil => exact Or.inl rfl
  | cons info rest ih =>
      have hmem := List.mem_cons_self (a := info) (l := rest)
      refine Ends.bind (Ends.raises (fun address hread => ?_) fun fault hread => ⟨rfl, ?_⟩)
      · rw [readAddress_eq_ok_iff] at hread
        by_cases hne : address ≠ wanted
        · rw [if_pos hne]
          refine ih.mono ?_ ?_
          · rintro _ p' (rfl | ⟨rfl, info', hinfo', hshows⟩)
            · exact Or.inl rfl
            · exact Or.inr ⟨rfl, info', List.mem_cons_of_mem _ hinfo', hshows⟩
          · rintro fault p' ⟨rfl, hfault⟩
            refine ⟨rfl, fun key' address' hdup => ?_⟩
            obtain ⟨hkey, haddress, info', hinfo', hshows⟩ := hfault key' address' hdup
            exact ⟨hkey, haddress, info', List.mem_cons_of_mem _ hinfo', hshows⟩
        · rw [if_neg hne]
          rw [not_not] at hne
          subst hne
          by_cases hdad : info.dadfailed = true
          · rw [if_pos hdad]
            refine ⟨rfl, fun key' address' hdup => ?_⟩
            cases hdup
            exact ⟨rfl, rfl, info, hmem, hread, hdad⟩
          · rw [if_neg hdad]
            rw [Bool.not_eq_true] at hdad
            by_cases htentative : info.tentative = true
            · rw [if_pos htentative]
              exact Or.inl rfl
            · rw [if_neg htentative]
              rw [Bool.not_eq_true] at htentative
              exact Or.inr ⟨rfl, info, hmem, hread, hdad, htentative⟩
      · -- An address that cannot be read is no duplicate.
        rintro key' address' rfl
        unfold readAddress at hread
        split at hread
        · cases hread
        · split at hread <;> cases hread

theorem drops_erase
    {round : Round ε} {p : Pending} {key : String × String} {address : Ipv6Address}
    (hget : p.get? key = some address)
    (hshows : (round.poll key.1).Shows key.2 address AddrInfo.Usable) :
    Drops round p (p.erase key) := by
  intro key'
  by_cases hkey : key' = key
  · subst hkey
    exact Or.inr ⟨OrderedDict.get?_erase_self .., address, hget, hshows⟩
  · exact Or.inl (OrderedDict.get?_erase_of_ne hkey ..)

theorem checkInterface_ends
    {round : Round ε} {host : String} {interfaces : List InterfaceInfo}
    (hpoll : round.poll host = .listing interfaces)
    {interface : InterfaceInfo} (hmem : interface ∈ interfaces) (p : Pending) :
    Ends (checkInterface host interface) p (fun _ p' => Drops round p p')
      (fun fault p' => Drops round p p' ∧ Blames round fault p') := by
  refine Ends.bind (Ends.raises (fun name hname => ?_) fun fault hname => ⟨.refl _ _, ?_⟩)
  · have hifname : interface.ifname = some name := by
      unfold readIfname at hname
      split at hname
      · cases hname
      · rw [Except.ok.injEq] at hname
        rwa [← hname]
    refine Ends.get_bind ?_
    cases hget : p.get? (host, name) with
    | none => exact Drops.refl _ _
    | some wanted =>
        refine (checkAddresses_ends interface.addrInfo).mono ?_ ?_
        · rintro _ p' (rfl | ⟨rfl, info, hinfo, haddress, husable⟩)
          · exact Drops.refl _ _
          · exact drops_erase hget
              ⟨interfaces, hpoll, interface, hmem, hifname, info, hinfo, haddress, husable⟩
        · rintro fault p' ⟨rfl, hfault⟩
          refine ⟨.refl _ _, fun key address hdup => ?_⟩
          obtain ⟨rfl, rfl, info, hinfo, haddress, hduplicate⟩ := hfault key address hdup
          exact ⟨hget,
            interfaces, hpoll, interface, hmem, hifname, info, hinfo, haddress, hduplicate⟩
  · rintro key address rfl
    unfold readIfname at hname
    split at hname <;> cases hname

theorem pollHost_ends
    (deadline : Rat) (round : Round ε) (host : String) (p : Pending) :
    Ends (pollHost deadline round host) p (fun _ p' => Drops round p p')
      (fun fault p' => Drops round p p' ∧ Blames round fault p') := by
  have hblameless : Drops round p p ∧ Blames round (.notReady p.entries) p :=
    ⟨.refl _ _, fun key address hdup => by cases hdup⟩
  refine Ends.get_bind ?_
  by_cases hclock : deadline ≤ round.clock host
  · rw [if_pos hclock]
    exact hblameless
  · rw [if_neg hclock]
    cases hpoll : round.poll host with
    | timeout => exact hblameless
    | raised e => exact ⟨.refl _ _, fun key address hdup => by cases hdup⟩
    | listing interfaces =>
        refine Ends.forM (I := fun p' => Drops round p p') (fun interface hmem q hq => ?_)
          (.refl _ _)
        exact (checkInterface_ends hpoll hmem q).mono (fun _ _ h => hq.trans h)
          fun _ _ h => ⟨hq.trans h.1, h.2⟩

theorem endRound_ends
    (deadline : Rat) (round : Round ε) (p : Pending) :
    Ends (endRound deadline round) p (fun _ p' => p' = p)
      (fun fault p' => p' = p ∧ Blames round fault p') := by
  refine Ends.get_bind ?_
  split
  · rfl
  · split
    · exact ⟨rfl, fun key address hdup => by cases hdup⟩
    · rfl

/-- A round drops only usable addresses, and only a duplicate one is blamed. -/
theorem pollRound_ends
    (deadline : Rat) (round : Round ε) (p : Pending) :
    Ends (pollRound deadline round) p
      (fun _ p' => round.stopRequested = false ∧ Drops round p p')
      (fun fault p' => Drops round p p' ∧ Blames round fault p') := by
  unfold pollRound
  by_cases hstop : round.stopRequested = true
  · rw [if_pos hstop]
    exact ⟨.refl _ _, fun key address hdup => by cases hdup⟩
  · rw [if_neg hstop]
    rw [Bool.not_eq_true] at hstop
    refine Ends.get_bind (Ends.bind ?_)
    refine (Ends.forM (I := fun p' => Drops round p p') (fun host _ q hq => ?_)
      (.refl _ _)).mono (fun _ q hq => ?_) fun _ _ h => h
    · exact (pollHost_ends deadline round host q).mono (fun _ _ h => hq.trans h)
        fun _ _ h => ⟨hq.trans h.1, h.2⟩
    · refine (endRound_ends deadline round q).mono ?_ ?_
      · rintro _ p' rfl
        exact ⟨hstop, hq⟩
      · rintro fault p' ⟨rfl, hblames⟩
        exact ⟨hq, hblames⟩

/-! ### Runs of rounds -/

theorem entries_isEmpty_eq_false
    {p : Pending} {key : String × String} {address : Ipv6Address}
    (h : p.get? key = some address) :
    p.entries.isEmpty = false := by
  rw [OrderedDict.get?_eq_some_iff] at h
  exact List.isEmpty_eq_false_iff.mpr (List.ne_nil_of_mem h)

theorem waitRounds_nil
    (deadline : Rat) (p : Pending) :
    (waitRounds deadline ([] : List (Round ε))).run.run p = (.ok p.entries.isEmpty, p) :=
  rfl

theorem waitRounds_cons_of_isEmpty
    {p : Pending} (h : p.entries.isEmpty = true)
    (deadline : Rat) (round : Round ε) (rest : List (Round ε)) :
    (waitRounds deadline (round :: rest)).run.run p = (.ok true, p) := by
  change (if p.entries.isEmpty = true then _ else _ : Waiting ε Bool).run.run p = _
  rw [if_pos h]
  rfl

theorem waitRounds_cons
    {p : Pending} (h : p.entries.isEmpty = false)
    (deadline : Rat) (round : Round ε) (rest : List (Round ε)) :
    (waitRounds deadline (round :: rest)).run.run p =
      (pollRound deadline round >>= fun _ => waitRounds deadline rest).run.run p := by
  change (if p.entries.isEmpty = true then _ else _ : Waiting ε Bool).run.run p = _
  rw [if_neg (by rw [h]; exact Bool.false_ne_true)]

/-- The rounds before one that is reached leave addresses pending. -/
theorem waitRounds_append
    (deadline : Rat) (before rest : List (Round ε)) (p : Pending) :
    (waitRounds deadline (before ++ rest)).run.run p =
      match (waitRounds deadline before).run.run p with
      | (.ok false, q) => (waitRounds deadline rest).run.run q
      | result => result := by
  induction before generalizing p with
  | nil =>
      rw [List.nil_append, waitRounds_nil]
      cases hempty : p.entries.isEmpty with
      | false => rfl
      | true =>
          cases rest with
          | nil => rw [waitRounds_nil, hempty]
          | cons round rest => exact waitRounds_cons_of_isEmpty hempty ..
  | cons round before ih =>
      rw [List.cons_append]
      cases hempty : p.entries.isEmpty with
      | true => rw [waitRounds_cons_of_isEmpty hempty, waitRounds_cons_of_isEmpty hempty]
      | false =>
          rw [waitRounds_cons hempty, waitRounds_cons hempty, run_bind, run_bind]
          cases (pollRound deadline round).run.run p with
          | mk result q =>
              cases result with
              | ok u => exact ih q
              | error fault => rfl

/-- After `before` addresses are pending, `q`, and the round is the next one. -/
def Reaches (deadline : Rat) (rounds : List (Round ε)) (p : Pending) (round : Round ε)
    (q : Pending) : Prop :=
  ∃ before after, rounds = before ++ round :: after ∧
    (waitRounds deadline before).run.run p = (.ok false, q)

theorem reaches_head
    {p : Pending} (h : p.entries.isEmpty = false)
    (deadline : Rat) (round : Round ε) (rest : List (Round ε)) :
    Reaches deadline (round :: rest) p round p :=
  ⟨[], rest, rfl, by rw [waitRounds_nil, h]⟩

theorem Reaches.cons
    {deadline : Rat} {first round : Round ε} {rest : List (Round ε)} {p q r : Pending}
    (hempty : p.entries.isEmpty = false)
    (hround : (pollRound deadline first).run.run p = (.ok ⟨⟩, q))
    (h : Reaches deadline rest q round r) :
    Reaches deadline (first :: rest) p round r := by
  obtain ⟨before, after, rfl, hbefore⟩ := h
  exact ⟨first :: before, after, rfl,
    by rw [waitRounds_cons hempty, run_bind_ok hround, hbefore]⟩

/-- What is still pending has been pending. -/
theorem Drops.pending
    {round : Round ε} {p p' : Pending} {key : String × String} {address : Ipv6Address}
    (h : Drops round p p') (hget : p'.get? key = some address) :
    p.get? key = some address := by
  rcases h key with hsame | ⟨hnone, _⟩
  · rwa [← hsame]
  · rw [hnone] at hget
    cases hget

/-- If the wait returns, every address has been seen as usable while it was pending. -/
theorem seen_of_ready
    {deadline : Rat} {rounds : List (Round ε)} {p p' : Pending}
    (hrun : (waitRounds deadline rounds).run.run p = (.ok true, p'))
    {key : String × String} {address : Ipv6Address} (hget : p.get? key = some address) :
    ∃ round q, Reaches deadline rounds p round q ∧ q.get? key = some address ∧
      (round.poll key.1).Shows key.2 address AddrInfo.Usable := by
  have hempty := entries_isEmpty_eq_false hget
  induction rounds generalizing p with
  | nil =>
      rw [waitRounds_nil, hempty] at hrun
      cases hrun
  | cons first rest ih =>
      rw [waitRounds_cons hempty, run_bind] at hrun
      cases hround : (pollRound deadline first).run.run p with
      | mk result q =>
          rw [hround] at hrun
          cases result with
          | error fault => cases hrun
          | ok u =>
              obtain ⟨-, hdrops⟩ := (pollRound_ends deadline first p).of_ok hround
              rcases hdrops key with hsame | ⟨-, address', hget', hshows⟩
              · have hq : q.get? key = some address := hsame.trans hget
                obtain ⟨round, r, hreaches, hr, hshows⟩ :=
                  ih hrun hq (entries_isEmpty_eq_false hq)
                exact ⟨round, r, hreaches.cons hempty hround, hr, hshows⟩
              · rw [hget, Option.some.injEq] at hget'
                subst hget'
                exact ⟨first, p, reaches_head hempty .., hget, hshows⟩

/-- A duplicate is a pending address that a round has shown as one. -/
theorem blamed_of_duplicate
    {deadline : Rat} {rounds : List (Round ε)} {p p' : Pending}
    {key : String × String} {address : Ipv6Address}
    (hrun : (waitRounds deadline rounds).run.run p = (.error (.duplicate key address), p')) :
    p.get? key = some address ∧ p'.get? key = some address ∧
      ∃ round q, Reaches deadline rounds p round q ∧ q.get? key = some address ∧
        (round.poll key.1).Shows key.2 address AddrInfo.Duplicate := by
  induction rounds generalizing p with
  | nil =>
      rw [waitRounds_nil] at hrun
      cases hrun
  | cons first rest ih =>
      cases hempty : p.entries.isEmpty with
      | true =>
          rw [waitRounds_cons_of_isEmpty hempty] at hrun
          cases hrun
      | false =>
          rw [waitRounds_cons hempty, run_bind] at hrun
          cases hround : (pollRound deadline first).run.run p with
          | mk result q =>
              rw [hround] at hrun
              have hends := pollRound_ends deadline first p
              cases result with
              | error fault =>
                  cases hrun
                  obtain ⟨hdrops, hblames⟩ := hends.of_error hround
                  obtain ⟨hget, hshows⟩ := hblames key address rfl
                  exact ⟨hdrops.pending hget, hget, first, p, reaches_head hempty ..,
                    hdrops.pending hget, hshows⟩
              | ok u =>
                  obtain ⟨-, hdrops⟩ := hends.of_ok hround
                  obtain ⟨hq, hp', round, r, hreaches, hr, hshows⟩ := ih hrun
                  exact ⟨hdrops.pending hq, hp', round, r, hreaches.cons hempty hround, hr, hshows⟩

/-- The wait has returned iff no address is pending. -/
theorem isEmpty_of_waitRounds
    {deadline : Rat} {rounds : List (Round ε)} {p q : Pending} {done : Bool}
    (hrun : (waitRounds deadline rounds).run.run p = (.ok done, q)) :
    q.entries.isEmpty = done := by
  induction rounds generalizing p with
  | nil =>
      rw [waitRounds_nil] at hrun
      cases hrun
      rfl
  | cons first rest ih =>
      cases hempty : p.entries.isEmpty with
      | true =>
          rw [waitRounds_cons_of_isEmpty hempty] at hrun
          cases hrun
          exact hempty
      | false =>
          rw [waitRounds_cons hempty, run_bind] at hrun
          cases hround : (pollRound deadline first).run.run p with
          | mk result r =>
              rw [hround] at hrun
              cases result with
              | error fault => cases hrun
              | ok u => exact ih hrun

/-- A round that starts with a shutdown request raises. -/
theorem interrupted_of_reaches
    {deadline : Rat} {rounds : List (Round ε)} {p q : Pending} {round : Round ε}
    (h : Reaches deadline rounds p round q) (hstop : round.stopRequested = true) :
    (waitRounds deadline rounds).run.run p = (.error .interrupted, q) := by
  obtain ⟨before, after, rfl, hbefore⟩ := h
  have hempty := isEmpty_of_waitRounds hbefore
  have hround : (pollRound deadline round).run.run q = (.error .interrupted, q) := by
    unfold pollRound
    rw [if_pos hstop]
    rfl
  rw [waitRounds_append, hbefore]
  change (waitRounds deadline (round :: after)).run.run q = _
  rw [waitRounds_cons hempty, run_bind_error hround]

/-! ### What can have an effect -/

/-- The entry is for the address that is waited for, or cannot be read. -/
def AddrInfo.concerns (wanted : Ipv6Address) (info : AddrInfo) : Bool :=
  info.address = some wanted ∨ info.address = none

/-- The entries of an interface that concern its configured address. -/
def InterfaceInfo.relevant (configured : Pending) (host : String) (interface : InterfaceInfo) :
    Option InterfaceInfo :=
  match interface.ifname with
  | none => some interface
  | some name =>
      (configured.get? (host, name)).map fun wanted =>
        { interface with addrInfo := interface.addrInfo.filter (AddrInfo.concerns wanted) }

/-- The interfaces of a listing that are configured. -/
def Poll.relevant (configured : Pending) (host : String) : Poll ε → Poll ε
  | .listing interfaces =>
      .listing (interfaces.filterMap (InterfaceInfo.relevant configured host))
  | poll => poll

/-- A round without what is of other hosts, interfaces and addresses. -/
def Round.relevant (configured : Pending) (round : Round ε) : Round ε where
  stopRequested := round.stopRequested
  clock host := if host ∈ hostsOf configured then round.clock host else 0
  poll host :=
    if host ∈ hostsOf configured then (round.poll host).relevant configured host else .timeout
  clockAfter := round.clockAfter

/-- What is pending is configured. -/
def Within (configured p : Pending) : Prop :=
  ∀ key address, p.get? key = some address → configured.get? key = some address

theorem Within.of_drops
    {configured p p' : Pending} {round : Round ε}
    (h : Within configured p) (hdrops : Drops round p p') :
    Within configured p' :=
  fun key address hget => h key address (hdrops.pending hget)

theorem run_checkAddresses_filter
    (key : String × String) (wanted : Ipv6Address) (infos : List AddrInfo) (p : Pending) :
    (checkAddresses key wanted (infos.filter (AddrInfo.concerns wanted)) :
        Waiting ε PUnit).run.run p =
      (checkAddresses key wanted infos).run.run p := by
  induction infos with
  | nil => rfl
  | cons info rest ih =>
      cases hconcerns : info.concerns wanted with
      | true =>
          rw [List.filter_cons_of_pos hconcerns, checkAddresses, checkAddresses, run_bind, run_bind]
          cases hread : (readAddress info : Except (Fault ε) Ipv6Address) with
          | error fault => rfl
          | ok address =>
              change (if address ≠ wanted then _ else _ : Waiting ε PUnit).run.run p =
                (if address ≠ wanted then _ else _ : Waiting ε PUnit).run.run p
              by_cases hne : address ≠ wanted
              · rw [if_pos hne, if_pos hne]
                exact ih
              · rw [if_neg hne, if_neg hne]
      | false =>
          -- The entry is for another address, and the loop goes on.
          rw [List.filter_cons_of_neg (by rw [hconcerns]; exact Bool.false_ne_true), ih,
            checkAddresses]
          have hother : ∃ address, info.address = some address ∧ address ≠ wanted := by
            cases haddress : info.address with
            | none => simp [AddrInfo.concerns, haddress] at hconcerns
            | some address =>
                refine ⟨address, rfl, ?_⟩
                rintro rfl
                simp [AddrInfo.concerns, haddress] at hconcerns
          obtain ⟨address, haddress, hne⟩ := hother
          rw [readAddress_eq_ok_iff.mpr haddress]
          change _ = (if address ≠ wanted then _ else _ : Waiting ε PUnit).run.run p
          rw [if_pos hne]

theorem run_checkInterface
    {interface : InterfaceInfo} {name : String} (hname : interface.ifname = some name)
    (host : String) (p : Pending) :
    (checkInterface host interface : Waiting ε PUnit).run.run p =
      match p.get? (host, name) with
      | none => (.ok ⟨⟩, p)
      | some wanted =>
          (checkAddresses (host, name) wanted interface.addrInfo).run.run p := by
  have hread : (readIfname interface : Except (Fault ε) String) = .ok name := by
    unfold readIfname
    rw [hname]
  rw [checkInterface, hread]
  change (match p.get? (host, name) with | none => _ | some wanted => _ :
    Waiting ε PUnit).run.run p = _
  cases p.get? (host, name) <;> rfl

theorem run_checkInterface_relevant
    {configured p : Pending} (h : Within configured p) (host : String) :
    (∀ interface, interface.relevant configured host = none →
        (checkInterface host interface : Waiting ε PUnit).run.run p = (.ok ⟨⟩, p)) ∧
      ∀ interface kept, interface.relevant configured host = some kept →
        (checkInterface host kept : Waiting ε PUnit).run.run p =
          (checkInterface host interface).run.run p := by
  constructor
  · intro interface hnone
    cases hname : interface.ifname with
    | none =>
        rw [InterfaceInfo.relevant, hname] at hnone
        cases hnone
    | some name =>
        rw [InterfaceInfo.relevant, hname, Option.map_eq_none_iff] at hnone
        have hpending : p.get? (host, name) = none := by
          cases hget : p.get? (host, name) with
          | none => rfl
          | some address => rw [h _ _ hget] at hnone; cases hnone
        rw [run_checkInterface hname, hpending]
  · intro interface kept hsome
    cases hname : interface.ifname with
    | none =>
        rw [InterfaceInfo.relevant, hname] at hsome
        cases hsome
        rfl
    | some name =>
        rw [InterfaceInfo.relevant, hname, Option.map_eq_some_iff] at hsome
        obtain ⟨wanted, hwanted, rfl⟩ := hsome
        refine (run_checkInterface rfl host p).trans ?_
        rw [run_checkInterface hname]
        cases hget : p.get? (host, name) with
        | none => rfl
        | some address =>
            -- What is pending is the configured address.
            have hsame : address = wanted := Option.some.inj ((h _ _ hget).symm.trans hwanted)
            subst hsame
            exact run_checkAddresses_filter ..

theorem run_pollHost_relevant
    {configured p : Pending} (h : Within configured p) (deadline : Rat) (round : Round ε)
    {host : String} (hhost : host ∈ hostsOf configured) :
    (pollHost deadline (round.relevant configured) host).run.run p =
      (pollHost deadline round host).run.run p := by
  have hclock : (round.relevant configured).clock host = round.clock host := if_pos hhost
  have hpoll : (round.relevant configured).poll host =
      (round.poll host).relevant configured host := if_pos hhost
  change (if deadline ≤ (round.relevant configured).clock host then _ else _ :
      Waiting ε PUnit).run.run p =
    (if deadline ≤ round.clock host then _ else _ : Waiting ε PUnit).run.run p
  rw [hclock, hpoll]
  by_cases hdeadline : deadline ≤ round.clock host
  · rw [if_pos hdeadline, if_pos hdeadline]
  · rw [if_neg hdeadline, if_neg hdeadline]
    cases hlisting : round.poll host with
    | timeout => rfl
    | raised e => rfl
    | listing interfaces =>
        refine run_forM_filterMap (I := Within configured) (fun interface hmem q hq => ?_)
          (fun interface _ hnone q hq => ?_) (fun interface _ kept hsome q hq => ?_) h
        · exact (checkInterface_ends hlisting hmem q).mono (fun _ _ hdrops => hq.of_drops hdrops)
            fun _ _ _ => trivial
        · exact (run_checkInterface_relevant hq host).1 interface hnone
        · exact (run_checkInterface_relevant hq host).2 interface kept hsome

theorem mem_hostsOf
    {p : Pending} {host : String} :
    host ∈ hostsOf p ↔ ∃ iface address, p.get? (host, iface) = some address := by
  rw [hostsOf, List.mem_eraseDups, List.mem_map]
  constructor
  · rintro ⟨key, hkey, rfl⟩
    obtain ⟨address, hget⟩ := Option.isSome_iff_exists.mp ((p.get?_isSome_iff key).mpr hkey)
    exact ⟨key.2, address, hget⟩
  · rintro ⟨iface, address, hget⟩
    exact ⟨(host, iface), OrderedDict.mem_keys_of_get? hget, rfl⟩

theorem run_pollRound_relevant
    {configured p : Pending} (h : Within configured p) (deadline : Rat) (round : Round ε) :
    (pollRound deadline (round.relevant configured)).run.run p =
      (pollRound deadline round).run.run p := by
  have hhosts : ((hostsOf p).forM (pollHost deadline (round.relevant configured))).run.run p =
      ((hostsOf p).forM (pollHost deadline round)).run.run p := by
    refine run_forM_congr (I := Within configured) (fun host _ q hq => ?_)
      (fun host hhost q hq => ?_) h
    · exact (pollHost_ends deadline round host q).mono (fun _ _ hdrops => hq.of_drops hdrops)
        fun _ _ _ => trivial
    · obtain ⟨iface, address, hget⟩ := mem_hostsOf.mp hhost
      exact run_pollHost_relevant hq deadline round (mem_hostsOf.mpr ⟨iface, address, h _ _ hget⟩)
  unfold pollRound
  by_cases hstop : round.stopRequested = true
  · rw [if_pos hstop, if_pos (show (round.relevant configured).stopRequested = true from hstop)]
  · rw [if_neg hstop, if_neg (show ¬ (round.relevant configured).stopRequested = true from hstop)]
    change ((hostsOf p).forM _ >>= fun _ => _ : Waiting ε PUnit).run.run p =
      ((hostsOf p).forM _ >>= fun _ => _ : Waiting ε PUnit).run.run p
    rw [run_bind, run_bind, hhosts]
    rfl

/-- What is of other hosts, interfaces and addresses has no effect. -/
theorem waitRounds_relevant
    {configured p : Pending} (h : Within configured p) (deadline : Rat)
    (rounds : List (Round ε)) :
    (waitRounds deadline (rounds.map (Round.relevant configured))).run.run p =
      (waitRounds deadline rounds).run.run p := by
  induction rounds generalizing p with
  | nil => rfl
  | cons first rest ih =>
      rw [List.map_cons]
      cases hempty : p.entries.isEmpty with
      | true => rw [waitRounds_cons_of_isEmpty hempty, waitRounds_cons_of_isEmpty hempty]
      | false =>
          rw [waitRounds_cons hempty, waitRounds_cons hempty, run_bind, run_bind,
            run_pollRound_relevant h]
          cases hround : (pollRound deadline first).run.run p with
          | mk result q =>
              cases result with
              | error fault => rfl
              | ok u => exact ih (h.of_drops ((pollRound_ends deadline first p).of_ok hround).2)

/-! ### Configured addresses -/

/-- Wiring has recorded the address for the interface of the host. -/
def Configured (records : Records) (key : String × String) (address : Ipv6Address) : Prop :=
  ∃ cidr, records.at? key.1 key.2 = some (some cidr) ∧ interfaceIp cidr.toList = some address

theorem mem_configuredTexts
    {records : Records} {key : String × String} {cidr : String} :
    (key, cidr) ∈ configuredTexts records ↔ records.at? key.1 key.2 = some (some cidr) := by
  rw [configuredTexts, List.mem_flatMap, Records.at?, Option.bind_eq_some_iff]
  constructor
  · rintro ⟨⟨host, interfaces⟩, hhost, hitem⟩
    obtain ⟨⟨iface, text⟩, hiface, hmap⟩ := List.mem_filterMap.mp hitem
    cases text with
    | none => cases hmap
    | some text =>
        cases hmap
        exact ⟨interfaces, (OrderedDict.get?_eq_some_iff ..).mpr hhost,
          (OrderedDict.get?_eq_some_iff ..).mpr hiface⟩
  · rintro ⟨interfaces, hhost, hiface⟩
    exact ⟨(key.1, interfaces), (OrderedDict.get?_eq_some_iff ..).mp hhost,
      List.mem_filterMap.mpr ⟨(key.2, some cidr), (OrderedDict.get?_eq_some_iff ..).mp hiface, rfl⟩⟩

theorem readConfigured_eq_ok_iff
    {item : (String × String) × String} {entry : (String × String) × Ipv6Address} :
    (readConfigured item : Except (Fault ε) _) = .ok entry ↔
      item.1 = entry.1 ∧ interfaceIp item.2.toList = some entry.2 := by
  unfold readConfigured
  cases haddress : interfaceIp item.2.toList with
  | none => simp
  | some address =>
      rw [Except.ok.injEq, Prod.ext_iff, Option.some.injEq]

/-- What the comprehension reads is what is configured. -/
theorem mem_items_iff
    {records : Records} {items : List ((String × String) × Ipv6Address)}
    (h : List.Forall₂ (fun item entry => (readConfigured item : Except (Fault ε) _) = .ok entry)
      (configuredTexts records) items)
    (key : String × String) (address : Ipv6Address) :
    (key, address) ∈ items ↔ Configured records key address := by
  have hmem : ∀ (texts : List ((String × String) × String)) (items : List _),
      List.Forall₂ (fun item entry => (readConfigured item : Except (Fault ε) _) = .ok entry)
        texts items →
      ((key, address) ∈ items ↔
        ∃ cidr, (key, cidr) ∈ texts ∧ interfaceIp cidr.toList = some address) := by
    intro texts items hall
    induction hall with
    | nil => simp
    | @cons item entry texts items hread _ ih =>
        obtain ⟨hkey, haddress⟩ := readConfigured_eq_ok_iff.mp hread
        rw [List.mem_cons, ih]
        constructor
        · rintro (rfl | ⟨cidr, hcidr, hip⟩)
          · exact ⟨item.2, List.mem_cons.mpr (Or.inl (Prod.ext hkey.symm rfl)), haddress⟩
          · exact ⟨cidr, List.mem_cons_of_mem _ hcidr, hip⟩
        · rintro ⟨cidr, hcidr, hip⟩
          rcases List.mem_cons.mp hcidr with rfl | hrest
          · rw [hip, Option.some.injEq] at haddress
            exact Or.inl (Prod.ext hkey haddress)
          · exact Or.inr ⟨cidr, hrest, hip⟩
  rw [hmem _ _ h]
  exact exists_congr fun cidr => and_congr_left fun _ => mem_configuredTexts

theorem Configured.unique
    {records : Records} {key : String × String} {address address' : Ipv6Address}
    (h : Configured records key address) (h' : Configured records key address') :
    address = address' := by
  obtain ⟨cidr, hrecord, hip⟩ := h
  obtain ⟨cidr', hrecord', hip'⟩ := h'
  rw [hrecord, Option.some.injEq, Option.some.injEq] at hrecord'
  subst hrecord'
  exact Option.some.inj (hip.symm.trans hip')

/-- The pending addresses are first the configured ones. -/
theorem get?_readPending
    {records : Records} {pending : Pending}
    (h : (readPending records : Except (Fault ε) Pending) = .ok pending)
    (key : String × String) (address : Ipv6Address) :
    pending.get? key = some address ↔ Configured records key address := by
  unfold readPending at h
  cases hitems : (configuredTexts records).mapM (readConfigured (ε := ε)) with
  | error fault =>
      rw [hitems] at h
      cases h
  | ok items =>
      rw [hitems] at h
      cases h
      have hmem := mem_items_iff ((Topo.mapM_eq_ok_iff ..).mp hitems)
      have hread : ∀ address', (OrderedDict.ofList items).get? key = some address' →
          Configured records key address' := fun address' hget =>
        (hmem key address').mp
          (OrderedDict.mem_of_mem_ofList ((OrderedDict.get?_eq_some_iff ..).mp hget))
      refine ⟨hread address, fun hconfigured => ?_⟩
      have hkey : key ∈ (OrderedDict.ofList items).keys :=
        (OrderedDict.mem_keys_ofList ..).mpr
          (List.mem_map.mpr ⟨(key, address), (hmem key address).mpr hconfigured, rfl⟩)
      obtain ⟨address', hget⟩ :=
        Option.isSome_iff_exists.mp ((OrderedDict.get?_isSome_iff _ key).mpr hkey)
      rw [hget, hconfigured.unique (hread address' hget)]

/-! ### Results -/

/-- A round that is reached while the address is pending shows it, in the query of its host
and on its interface, with an entry of which `P` holds. -/
def SeenPending (records : Records) (start : Rat) (rounds : List (Round ε))
    (key : String × String) (address : Ipv6Address) (P : AddrInfo → Prop) : Prop :=
  ∃ before round after, rounds = before ++ round :: after ∧
    (waitForIpv6Addresses records start before).1 = .ok false ∧
    (waitForIpv6Addresses records start before).2.get? key = some address ∧
    (round.poll key.1).Shows key.2 address P

theorem waitForIpv6Addresses_eq
    {records : Records} {pending : Pending}
    (hread : (readPending records : Except (Fault ε) Pending) = .ok pending) (start : Rat)
    (rounds : List (Round ε)) :
    waitForIpv6Addresses records start rounds =
      (waitRounds (start + ipv6ReadyTimeout) rounds).run.run pending := by
  rw [waitForIpv6Addresses, hread]
  cases hempty : pending.entries.isEmpty with
  | false => simp only [hempty, Bool.false_eq_true, if_false]
  | true =>
      simp only [hempty, if_true]
      cases rounds with
      | nil => rw [waitRounds_nil, hempty]
      | cons round rest => exact (waitRounds_cons_of_isEmpty hempty ..).symm

/-- An address that cannot be read raises, and is no duplicate. -/
theorem readPending_eq_error
    {records : Records} {fault : Fault ε}
    (h : (readPending records : Except (Fault ε) Pending) = .error fault) :
    ∃ text, fault = .addressValue text := by
  unfold readPending at h
  cases hitems : (configuredTexts records).mapM (readConfigured (ε := ε)) with
  | ok items =>
      rw [hitems] at h
      cases h
  | error fault' =>
      rw [hitems] at h
      cases h
      obtain ⟨item, -, hitem⟩ := Topo.exists_of_mapM_eq_error hitems
      unfold readConfigured at hitem
      split at hitem
      · cases hitem
      · cases hitem
        exact ⟨item.2, rfl⟩

theorem seenPending_of_reaches
    {records : Records} {pending q : Pending} {start : Rat} {rounds : List (Round ε)}
    {round : Round ε} {key : String × String} {address : Ipv6Address} {P : AddrInfo → Prop}
    (hread : (readPending records : Except (Fault ε) Pending) = .ok pending)
    (hreaches : Reaches (start + ipv6ReadyTimeout) rounds pending round q)
    (hget : q.get? key = some address) (hshows : (round.poll key.1).Shows key.2 address P) :
    SeenPending records start rounds key address P := by
  obtain ⟨before, after, hrounds, hbefore⟩ := hreaches
  rw [← waitForIpv6Addresses_eq hread] at hbefore
  exact ⟨before, round, after, hrounds, by rw [hbefore], by rw [hbefore]; exact hget, hshows⟩

/--
The wait returns only if every configured address has been seen as usable, while it was
pending, by a query of its own host and on its own interface.  It reports a duplicate only
for a configured address that is pending and that a query of its own host and on its own
interface has shown as one.  What is of other hosts, interfaces and addresses does not change
how it ends.  A round that starts with a shutdown request while addresses are pending raises.
-/
theorem waitForIpv6Addresses_safe
    (records : Records) (start : Rat) (rounds : List (Round ε)) :
    ((waitForIpv6Addresses records start rounds).1 = .ok true →
        ∀ key address, Configured records key address →
          SeenPending records start rounds key address AddrInfo.Usable) ∧
      (∀ key address,
        (waitForIpv6Addresses records start rounds).1 = .error (.duplicate key address) →
          Configured records key address ∧
            (waitForIpv6Addresses records start rounds).2.get? key = some address ∧
            SeenPending records start rounds key address AddrInfo.Duplicate) ∧
      (∀ configured, (readPending records : Except (Fault ε) Pending) = .ok configured →
        waitForIpv6Addresses records start (rounds.map (Round.relevant configured)) =
          waitForIpv6Addresses records start rounds) ∧
      ∀ before round after, rounds = before ++ round :: after →
        (waitForIpv6Addresses records start before).1 = .ok false →
        round.stopRequested = true →
        (waitForIpv6Addresses records start before).2.entries ≠ [] ∧
          (waitForIpv6Addresses records start rounds).1 = .error .interrupted := by
  cases hread : (readPending records : Except (Fault ε) Pending) with
  | error fault =>
      have hwait : ∀ rounds : List (Round ε),
          waitForIpv6Addresses records start rounds = (.error fault, OrderedDict.empty) := by
        intro rounds
        rw [waitForIpv6Addresses, hread]
      obtain ⟨text, rfl⟩ := readPending_eq_error hread
      refine ⟨fun h => ?_, fun key address h => ?_, fun configured h => ?_,
        fun before round after _ h => ?_⟩
      · rw [hwait] at h
        cases h
      · rw [hwait] at h
        cases h
      · cases h
      · rw [hwait] at h
        cases h
  | ok pending =>
      have hwait := waitForIpv6Addresses_eq hread start
      refine ⟨fun h key address hconfigured => ?_, fun key address h => ?_,
        fun configured h => ?_, ?_⟩
      · rw [hwait] at h
        obtain ⟨round, q, hreaches, hq, hshows⟩ :=
          seen_of_ready (Prod.ext h rfl) ((get?_readPending hread key address).mpr hconfigured)
        exact seenPending_of_reaches hread hreaches hq hshows
      · rw [hwait] at h ⊢
        obtain ⟨hget, hend, round, q, hreaches, hq, hshows⟩ :=
          blamed_of_duplicate (Prod.ext h rfl)
        exact ⟨(get?_readPending hread key address).mp hget, hend,
          seenPending_of_reaches hread hreaches hq hshows⟩
      · cases h
        rw [hwait, hwait]
        exact waitRounds_relevant (fun _ _ hget => hget) ..
      · rintro before round after rfl h hstop
        rw [hwait] at h
        have hreaches : Reaches (start + ipv6ReadyTimeout) (before ++ round :: after) pending
            round ((waitRounds (start + ipv6ReadyTimeout) before).run.run pending).2 :=
          ⟨before, after, rfl, Prod.ext h rfl⟩
        have hpending := isEmpty_of_waitRounds (Prod.ext h rfl)
        rw [hwait, hwait, interrupted_of_reaches hreaches hstop]
        exact ⟨List.isEmpty_eq_false_iff.mp hpending, rfl⟩

/-- The duplicate link-local address of the interface is not waited for. -/
example :
    (waitForIpv6Addresses (ε := Unit)
      (OrderedDict.ofList [("h1", OrderedDict.ofList [("h1-eth0", some "fd00:38::a/64")])]) 0
      [{ stopRequested := false
         clock := fun _ => 0
         poll := fun _ => .listing [{
           ifname := some "h1-eth0"
           addrInfo := [
             { localText := some "fe80::bad", dadfailed := true },
             { localText := some "fd00:0038:0:0:0:0:0:000a" }] }]
         clockAfter := 0 }]).1.toOption = some true := by
  decide +kernel

end Ipv6Readiness
end P4Net
