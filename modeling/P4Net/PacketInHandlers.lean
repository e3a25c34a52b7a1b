import P4Net.ControllerMetadata
import P4Net.TransitionRuns

/-!
# PacketIn handlers

`on_packet_in` appends a handler to a list and returns a function that removes it again.  The
removal looks for an equal handler, and not for the registration.

* `step` : the registrations, and the calls of the functions that were returned.
* `Registrations.live` : the registrations whose own function was not called.
* `handlers_step_iff` : when one call keeps the list equal to the live registrations.
* `handlers_eq_live_iff` : when a whole sequence of calls does.
-/

namespace P4Net
namespace PacketIn

open BigEndian PacketHeaders Runs

universe u

variable {H : Type u}

/-! ### The clients -/

/-- `P4RuntimeClient` and `AsyncP4RuntimeClient`. -/
inductive ClientKind where
  | sync
  | async
deriving DecidableEq, Repr

/-- `P4RuntimeClient.on_packet_in` on `_packet_in_handlers`. -/
def P4RuntimeClient.onPacketIn (handlers : List H) (handler : H) : List H :=
  handlers ++ [handler]

/-- The `deregister` of `P4RuntimeClient.on_packet_in`; a `ValueError` is suppressed. -/
def P4RuntimeClient.deregister [BEq H] (handlers : List H) (handler : H) : List H :=
  handlers.erase handler

/-- `AsyncP4RuntimeClient.on_packet_in` on `_packet_handlers`. -/
def AsyncP4RuntimeClient.onPacketIn (handlers : List H) (handler : H) : List H :=
  handlers ++ [handler]

/-- The `deregister` of `AsyncP4RuntimeClient.on_packet_in`. -/
def AsyncP4RuntimeClient.deregister [BEq H] (handlers : List H) (handler : H) : List H :=
  handlers.erase handler

/-- `on_packet_in` of either client. -/
def ClientKind.onPacketIn : ClientKind → List H → H → List H
  | .sync => P4RuntimeClient.onPacketIn
  | .async => AsyncP4RuntimeClient.onPacketIn

/-- `deregister` of either client. -/
def ClientKind.deregister [BEq H] : ClientKind → List H → H → List H
  | .sync => P4RuntimeClient.deregister
  | .async => AsyncP4RuntimeClient.deregister

@[simp] theorem onPacketIn_eq
    (kind : ClientKind) (handlers : List H) (handler : H) :
    kind.onPacketIn handlers handler = handlers ++ [handler] := by
  cases kind <;> rfl

@[simp] theorem deregister_eq
    [BEq H] (kind : ClientKind) (handlers : List H) (handler : H) :
    kind.deregister handlers handler = handlers.erase handler := by
  cases kind <;> rfl

/-! ### Registrations -/

/--
The handler list of a client, and its registrations in order: the handler that the returned
function holds, and whether that function was called.
-/
structure Registrations (H : Type u) where
  handlers : List H
  returned : List (H × Bool)
deriving DecidableEq, Repr

/-- A client without registrations. -/
def fresh : Registrations H := ⟨[], []⟩

/-- The handlers of the registrations whose function was not called. -/
def liveOf (returned : List (H × Bool)) : List H :=
  (returned.filter fun r => !r.2).map Prod.fst

/-- What the handler list should be. -/
def Registrations.live (s : Registrations H) : List H := liveOf s.returned

/-- A registration, or a call of the function that the `i`-th one returned. -/
inductive Call (H : Type u) where
  | onPacketIn (handler : H)
  | deregister (i : Nat)
deriving DecidableEq, Repr

/-- One call; a function that was never returned cannot be called. -/
def step [BEq H] (kind : ClientKind) (s : Registrations H) : Call H → Option (Registrations H)
  | .onPacketIn handler =>
      some ⟨kind.onPacketIn s.handlers handler, s.returned ++ [(handler, false)]⟩
  | .deregister i =>
      match s.returned[i]? with
      | none => none
      | some (handler, _) =>
          some ⟨kind.deregister s.handlers handler, s.returned.set i (handler, true)⟩

@[simp] theorem liveOf_append
    (front back : List (H × Bool)) :
    liveOf (front ++ back) = liveOf front ++ liveOf back := by
  simp [liveOf]

@[simp] theorem liveOf_cons
    (handler : H) (called : Bool) (rest : List (H × Bool)) :
    liveOf ((handler, called) :: rest) =
      if called then liveOf rest else handler :: liveOf rest := by
  cases called <;> simp [liveOf]

@[simp] theorem liveOf_nil :
    liveOf ([] : List (H × Bool)) = [] := rfl

/-! ### Removal by equality -/

theorem concat_eq_cons_iff
    (x handler : H) (between : List H) :
    between ++ [handler] = x :: between ↔ ∀ y ∈ x :: between, y = handler := by
  induction between generalizing x with
  | nil => simp [eq_comm]
  | cons z rest ih =>
      rw [List.cons_append, List.cons.injEq, ih z]
      simp only [List.mem_cons, forall_eq_or_imp]
      constructor
      · rintro ⟨rfl, hz, hrest⟩
        exact ⟨hz, hz, hrest⟩
      · rintro ⟨rfl, rfl, hrest⟩
        exact ⟨rfl, rfl, hrest⟩

/-- Removing an equal element removes this one, unless another comes first that makes a difference. -/
theorem erase_middle_iff
    [BEq H] [ReflBEq H] (front back : List H) (handler : H) :
    (front ++ handler :: back).erase handler = front ++ back ↔
      ∀ before x between, front = before ++ x :: between → (x == handler) = true →
        ∀ y ∈ x :: between, y = handler := by
  rw [List.erase_eq_eraseP']
  by_cases hfound : ∃ x ∈ front, (x == handler) = true
  · obtain ⟨x, hx, heq⟩ := hfound
    obtain ⟨a, before, between, hbefore, ha, rfl, herase⟩ :=
      List.exists_of_eraseP (p := (· == handler)) hx heq
    rw [List.eraseP_append_left (p := (· == handler)) ha _ (by simp), herase, List.append_assoc,
      List.append_assoc, List.append_cancel_left_eq, List.cons_append, ← List.cons_append]
    have hback : between ++ handler :: back = a :: between ++ back ↔
        between ++ [handler] = a :: between := by
      rw [← List.append_cancel_right_eq (between ++ [handler]) back, List.append_assoc]
      rfl
    rw [hback, concat_eq_cons_iff]
    constructor
    · intro hall before' x' between' hsplit hx' y hy
      -- The first equal element is not after `x'`.
      rcases List.append_eq_append_iff.mp hsplit with ⟨mid, rfl, hmid⟩ | ⟨mid, rfl, hmid⟩
      · cases mid with
        | nil =>
            rw [List.nil_append] at hmid
            exact hall y (hmid ▸ hy)
        | cons b mid =>
            obtain ⟨rfl, rfl⟩ := List.cons.inj hmid
            exact hall y (List.mem_cons_of_mem _ (List.mem_append_right _ hy))
      · cases mid with
        | nil =>
            rw [List.nil_append] at hmid
            exact hall y (hmid ▸ hy)
        | cons b mid =>
            obtain ⟨rfl, -⟩ := List.cons.inj hmid
            exact absurd hx' (hbefore _ (by simp))
    · intro hall
      exact hall before a between rfl ha
  · have hnone : ∀ x ∈ front, ¬ (x == handler) = true := fun x hx heq => hfound ⟨x, hx, heq⟩
    rw [List.eraseP_append_right _ hnone, List.eraseP_cons_of_pos (by simp)]
    refine iff_of_true rfl ?_
    rintro before x between rfl heq
    exact absurd heq (hnone x (by simp))

/-! ### One call -/

/--
The call removes no registration but its own.  The first call of a function needs that every live
registration before its own with an equal handler, and all live ones between, have its very
handler; a further call needs that no live registration has an equal handler.
-/
def Undisturbed [BEq H] (s : Registrations H) : Call H → Prop
  | .onPacketIn _ => True
  | .deregister i => ∀ handler called, s.returned[i]? = some (handler, called) →
      (called = true → ∀ x ∈ s.live, ¬ (x == handler) = true) ∧
      (called = false → ∀ before x between, liveOf (s.returned.take i) = before ++ x :: between →
        (x == handler) = true → ∀ y ∈ x :: between, y = handler)

/-- The registrations around the `i`-th one, before and after its function is called. -/
theorem split_returned
    {s : Registrations H} {i : Nat} {handler : H} {called : Bool}
    (hi : s.returned[i]? = some (handler, called)) :
    s.returned = s.returned.take i ++ (handler, called) :: s.returned.drop (i + 1) ∧
      s.returned.set i (handler, true) =
        s.returned.take i ++ (handler, true) :: s.returned.drop (i + 1) := by
  obtain ⟨hlt, hget⟩ := List.getElem?_eq_some_iff.mp hi
  refine ⟨?_, List.set_eq_take_append_cons_drop.trans (if_pos hlt)⟩
  rw [← hget, List.cons_getElem_drop_succ, List.take_append_drop]

section OneCall

variable [BEq H] [ReflBEq H] {kind : ClientKind} {s t : Registrations H}

/-- Where the list equals the live registrations, one call keeps that iff it is undisturbed. -/
theorem handlers_step_iff
    {call : Call H} (hs : s.handlers = s.live) (hstep : step kind s call = some t) :
    t.handlers = t.live ↔ Undisturbed s call := by
  cases call with
  | onPacketIn handler =>
      obtain rfl := Option.some.inj hstep
      simp [Undisturbed, Registrations.live, hs]
  | deregister i =>
      unfold step at hstep
      cases hi : s.returned[i]? with
      | none => simp [hi] at hstep
      | some r =>
          obtain ⟨handler, called⟩ := r
          simp only [hi, deregister_eq, Option.some.injEq] at hstep
          obtain ⟨hbefore, hafter⟩ := split_returned hi
          have hlive : s.live = liveOf (s.returned.take i) ++
              liveOf ((handler, called) :: s.returned.drop (i + 1)) := by
            rw [← liveOf_append, ← hbefore]
            rfl
          have hlive' : t.live = liveOf (s.returned.take i) ++
              liveOf (s.returned.drop (i + 1)) := by
            rw [← hstep, Registrations.live, hafter, liveOf_append, liveOf_cons, if_pos rfl]
          have hhandlers : t.handlers = s.live.erase handler := by rw [← hstep, hs]
          have hundisturbed : Undisturbed s (.deregister i) ↔
              (called = true → ∀ x ∈ s.live, ¬ (x == handler) = true) ∧
              (called = false → ∀ before x between,
                liveOf (s.returned.take i) = before ++ x :: between →
                  (x == handler) = true → ∀ y ∈ x :: between, y = handler) := by
            constructor
            · exact fun h => h handler called hi
            · intro h handler' called' hi'
              rw [hi] at hi'
              obtain ⟨rfl, rfl⟩ := Prod.mk.inj (Option.some.inj hi')
              exact h
          rw [hundisturbed, hhandlers, hlive', hlive]
          cases called with
          | true =>
              rw [liveOf_cons, if_pos rfl, List.erase_eq_eraseP', List.eraseP_eq_self_iff]
              simp
          | false =>
              rw [liveOf_cons, if_neg (by decide), erase_middle_iff]
              simp

end OneCall

/-! ### Sequences of calls -/

/-- Undisturbed calls keep the list equal to the live registrations. -/
theorem handlers_eq_live_of_undisturbed
    [BEq H] [ReflBEq H] {kind : ClientKind} {calls : List (Call H)}
    (h : ∀ made call s t, made ++ [call] <+: calls →
      execute (step kind) fresh made = some s → step kind s call = some t → Undisturbed s call)
    (made : List (Call H)) (s : Registrations H) (hmade : made <+: calls)
    (hs : execute (step kind) fresh made = some s) :
    s.handlers = s.live := by
  induction made using List.reverseRecOn generalizing s with
  | nil =>
      obtain rfl := Option.some.inj hs
      rfl
  | append_singleton made call ih =>
      obtain ⟨r, hr, hst⟩ := execute_concat_eq_some_iff.mp hs
      have hpre : made <+: calls := (List.prefix_append made [call]).trans hmade
      exact (handlers_step_iff (ih r hpre hr) hst).mpr (h made call r s hmade hr hst)

/--
In every client and every sequence of calls, the handler list equals the live registrations after
each call iff every call is undisturbed.
-/
theorem handlers_eq_live_iff
    [BEq H] [ReflBEq H] (kind : ClientKind) (calls : List (Call H)) :
    (∀ made s, made <+: calls → execute (step kind) fresh made = some s → s.handlers = s.live) ↔
      ∀ made call s t, made ++ [call] <+: calls → execute (step kind) fresh made = some s →
        step kind s call = some t → Undisturbed s call := by
  constructor
  · intro h made call s t hmade hs hst
    have hpre : made <+: calls := (List.prefix_append made [call]).trans hmade
    have ht : execute (step kind) fresh (made ++ [call]) = some t :=
      execute_concat_eq_some_iff.mpr ⟨s, hs, hst⟩
    exact (handlers_step_iff (h made s hpre hs) hst).mp (h _ t hmade ht)
  · exact handlers_eq_live_of_undisturbed

/-- Two registrations of one handler, of which the second one is cancelled. -/
theorem handlers_eq_live_twice :
    let left : Registrations Nat := ⟨[7], [(7, false), (7, true)]⟩
    execute (step .async) fresh [.onPacketIn 7, .onPacketIn 7, .deregister 1] = some left ∧
      left.handlers = left.live := by
  have hrun : execute (step .async) (fresh (H := Nat))
      [.onPacketIn 7, .onPacketIn 7, .deregister 1] = some ⟨[7], [(7, false), (7, true)]⟩ := by
    decide
  refine ⟨hrun, (handlers_eq_live_iff .async _).mpr ?_ _ _ (List.prefix_refl _) hrun⟩
  rintro made (handler | i) s t ⟨rest, hrest⟩ hs -
  · trivial
  · -- The function is called after both registrations.
    rcases made with _ | ⟨first, _ | ⟨second, _ | ⟨third, made⟩⟩⟩
    · cases hrest
    · cases (List.cons.inj hrest).2
    · obtain ⟨rfl, htail⟩ := List.cons.inj hrest
      obtain ⟨rfl, hlast⟩ := List.cons.inj htail
      obtain rfl : i = 1 := Call.deregister.inj (List.cons.inj hlast).1
      obtain rfl : ⟨[7, 7], [(7, false), (7, false)]⟩ = s := Option.some.inj hs
      rintro handler called hi
      obtain ⟨rfl, rfl⟩ := Prod.mk.inj (Option.some.inj hi)
      refine ⟨by simp, ?_⟩
      intro _ before x between hlive _ y hy
      have hmem : y ∈ before ++ x :: between := List.mem_append_right _ hy
      rw [← hlive] at hmem
      exact List.mem_singleton.mp hmem
    · simp at hrest

/-- The first of two equal registrations is cancelled twice, and the second one is gone. -/
theorem second_registration_lost :
    let calls : List (Call Nat) :=
      [.onPacketIn 7, .onPacketIn 7, .deregister 0, .deregister 0]
    let left : Registrations Nat := ⟨[], [(7, true), (7, false)]⟩
    execute (step .sync) fresh calls = some left ∧
      execute (step .async) fresh calls = some left ∧ left.live = [7] ∧
      left.handlers ≠ left.live := by
  decide

/-! ### Dispatch -/

/-- The parts of a `PacketIn` that are read. -/
structure Packet where
  payload : Bytes
  metadata : List PacketMetadata
deriving DecidableEq, Repr

/-- A call of a handler. -/
structure Invocation (H : Type u) where
  handler : H
  payload : Bytes
  metadata : OrderedDict String Nat

/-- `_dispatch_packet_in`: each handler is called, whether or not one before it raises. -/
def dispatchPacketIn (index : Option HeaderIndex) (s : Registrations H) (packet : Packet) :
    List (Invocation H) :=
  let metadata := match index with
    | none => .empty
    | some index => decodePacketInMetadata index packet.metadata
  s.handlers.map fun handler => ⟨handler, packet.payload, metadata⟩

/-- After undisturbed calls a packet reaches the live registrations, in their order. -/
theorem dispatch_live
    [BEq H] [ReflBEq H] {kind : ClientKind} {calls : List (Call H)} {s : Registrations H}
    (h : ∀ made call s t, made ++ [call] <+: calls →
      execute (step kind) fresh made = some s → step kind s call = some t → Undisturbed s call)
    (hs : execute (step kind) fresh calls = some s)
    (index : Option HeaderIndex) (packet : Packet) :
    (dispatchPacketIn index s packet).map Invocation.handler = s.live := by
  have hlist := handlers_eq_live_of_undisturbed h calls s List.prefix_rfl hs
  rw [← hlist]
  unfold dispatchPacketIn
  rw [List.map_map]
  exact List.map_id _

end PacketIn
end P4Net
