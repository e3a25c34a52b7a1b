import P4Net.PacketInHandlers

/-!
# Calls that wait for packets

`expect_packet_in` and `packet listen` register a handler that keeps what it is given, wait, and
remove the handler.  Streams take a copy of the handler list and call the handlers of the copy one
by one, while other threads register, wait and remove.

* `PacketIn.wait` : a step of a thread or of a stream.
* `window` : the packets that a stream has received while a call was registered.
* `Waiting` : what holds of a call until its result is fixed.
* `waiters_safe` : calls return the packets of each stream in order and without gaps.
-/

namespace P4Net
namespace PacketIn

open Runs

universe u v

variable {H : Type u} {P : Type v}

/-! ### Threads and streams -/

/-- `expect_packet_in`, or `packet listen` with its `count`. -/
inductive WaitKind where
  | expect
  | listen (count : Nat)
deriving DecidableEq, Repr

/-- How many packets the handler of a call keeps: `maxsize=1`, or `count`. -/
def WaitKind.capacity : WaitKind → Nat
  | .expect => 1
  | .listen count => count

/-- An entry of `_packet_in_handlers`; a closure of a waiting call is equal to itself only. -/
inductive Handler (H : Type u) where
  | user (handler : H)
  | waiter (w : Nat)
deriving Repr

instance [BEq H] : BEq (Handler H) where
  beq
    | .user handler, .user handler' => handler == handler'
    | .waiter w, .waiter w' => w == w'
    | _, _ => false

/-- A waiting call registers, wakes up, and removes its handler. -/
inductive WaitPc where
  | waiting
  | woken
  | left
deriving DecidableEq, Repr

/-- A waiting call; packets are kept with the stream that they came from. -/
structure Waiter (P : Type v) where
  kind : WaitKind
  pc : WaitPc := .waiting
  /-- The queue of `expect_packet_in`, or `captured`. -/
  kept : List (Nat × P) := []
  result : Option (List (Nat × P)) := none
deriving Repr

/-- A client, its streams and the calls that wait. -/
structure Waits (H : Type u) (P : Type v) where
  handlers : List (Handler H)
  waiters : Nat → Option (Waiter P)
  /-- The packet that a stream dispatches, and the handlers that are still to be called. -/
  dispatching : Nat → Option (P × List (Handler H))

/-- A client without handlers. -/
def quiet : Waits H P := ⟨[], fun _ => none, fun _ => none⟩

/-- A step of a thread or of a stream. -/
inductive WaitLabel (H : Type u) (P : Type v) where
  | onPacketIn (handler : H)
  | deregister (handler : H)
  /-- A call registers its handler. -/
  | enter (w : Nat) (kind : WaitKind)
  /-- The wait of a call ends. -/
  | wake (w : Nat)
  /-- A call removes its handler. -/
  | leave (w : Nat)
  /-- `packets = list(captured)`. -/
  | read (w : Nat)
  /-- A stream receives a packet and copies the handler list. -/
  | receive (c : Nat) (packet : P)
  /-- A stream calls the next handler of its copy. -/
  | invoke (c : Nat)

/-- The handler of a waiting call; what does not fit is dropped. -/
def Waiter.push (waiter : Waiter P) (c : Nat) (packet : P) : Waiter P :=
  if waiter.kept.length < waiter.kind.capacity then
    { waiter with kept := waiter.kept ++ [(c, packet)] }
  else waiter

/-- The wait ends: `get` takes a packet, or raises if there is none. -/
def Waiter.wake (waiter : Waiter P) : Waiter P :=
  match waiter.kind with
  | .expect =>
      { waiter with
        pc := .woken
        kept := waiter.kept.tail
        result := some (waiter.kept.take 1) }
  | .listen _ => { waiter with pc := .woken }

/-- Change the handler list. -/
def Waits.setHandlers (s : Waits H P) (handlers : List (Handler H)) : Waits H P :=
  { s with handlers := handlers }

/-- Change a waiting call. -/
def Waits.setWaiter (s : Waits H P) (w : Nat) (waiter : Waiter P) : Waits H P :=
  { s with waiters := Function.update s.waiters w (some waiter) }

/-- Change what a stream dispatches. -/
def Waits.setDispatch (s : Waits H P) (c : Nat) (dispatch : Option (P × List (Handler H))) :
    Waits H P :=
  { s with dispatching := Function.update s.dispatching c dispatch }

/-- A call of a handler; a user's handler changes nothing here. -/
def Waits.call (s : Waits H P) (c : Nat) (packet : P) : Handler H → Waits H P
  | .user _ => s
  | .waiter w =>
      match s.waiters w with
      | none => s
      | some waiter => s.setWaiter w (waiter.push c packet)

/-- A step, if it is enabled. -/
def Waits.step [BEq H] (s : Waits H P) : WaitLabel H P → Option (Waits H P)
  | .onPacketIn handler =>
      some (s.setHandlers (P4RuntimeClient.onPacketIn s.handlers (.user handler)))
  | .deregister handler =>
      some (s.setHandlers (P4RuntimeClient.deregister s.handlers (.user handler)))
  | .enter w kind =>
      match s.waiters w with
      | some _ => none
      | none =>
          if kind.capacity = 0 then none
          else
            some ((s.setHandlers (P4RuntimeClient.onPacketIn s.handlers (.waiter w))).setWaiter w
              { kind := kind })
  | .wake w =>
      (s.waiters w).bind fun waiter =>
        if waiter.pc = .waiting then some (s.setWaiter w waiter.wake) else none
  | .leave w =>
      (s.waiters w).bind fun waiter =>
        if waiter.pc = .woken then
          some ((s.setHandlers (P4RuntimeClient.deregister s.handlers (.waiter w))).setWaiter w
            { waiter with pc := .left })
        else none
  | .read w =>
      (s.waiters w).bind fun waiter =>
        match waiter.kind, waiter.pc, waiter.result with
        | .listen _, .left, none =>
            some (s.setWaiter w { waiter with result := some waiter.kept })
        | _, _, _ => none
  | .receive c packet =>
      match s.dispatching c with
      | some _ => none
      | none => some (s.setDispatch c (some (packet, s.handlers)))
  | .invoke c =>
      match s.dispatching c with
      | none => none
      | some (_, []) => some (s.setDispatch c none)
      | some (packet, handler :: rest) =>
          some ((s.setDispatch c (some (packet, rest))).call c packet handler)

/-! ### What a call should see -/

/-- Whether a call is registered, and what a stream has received while it was. -/
def windowStep (w c : Nat) (seen : Bool × List P) : WaitLabel H P → Bool × List P
  | .enter w' _ => if w' = w then (true, seen.2) else seen
  | .leave w' => if w' = w then (false, seen.2) else seen
  | .receive c' packet => if seen.1 ∧ c' = c then (seen.1, seen.2 ++ [packet]) else seen
  | _ => seen

/-- The same, after some steps. -/
def watched (w c : Nat) (labels : List (WaitLabel H P)) : Bool × List P :=
  labels.foldl (windowStep w c) (false, [])

/-- The packets that a stream has received while a call was registered. -/
def window (w c : Nat) (labels : List (WaitLabel H P)) : List P := (watched w c labels).2

/-- The packets of a stream. -/
def ofStream (c : Nat) (kept : List (Nat × P)) : List P :=
  (kept.filter fun e => e.1 = c).map Prod.snd

/-- The waiting calls that have an entry in a list of handlers. -/
def waitersOf (handlers : List (Handler H)) : List Nat :=
  handlers.filterMap fun handler =>
    match handler with
    | .user _ => none
    | .waiter w => some w

/-- The packet that a stream dispatches, if it has yet to reach a call. -/
def inFlight (s : Waits H P) (w c : Nat) : List P :=
  match s.dispatching c with
  | none => []
  | some (packet, rest) => if w ∈ waitersOf rest then [packet] else []

/-! ### Handler lists -/

section WaitersOf

@[simp] theorem waitersOf_append
    (front back : List (Handler H)) :
    waitersOf (front ++ back) = waitersOf front ++ waitersOf back :=
  List.filterMap_append

@[simp] theorem waitersOf_user
    (handler : H) (rest : List (Handler H)) :
    waitersOf (.user handler :: rest) = waitersOf rest := rfl

@[simp] theorem waitersOf_waiter
    (w : Nat) (rest : List (Handler H)) :
    waitersOf (.waiter w :: rest) = w :: waitersOf rest := rfl

/-- Users do not remove waiting calls. -/
theorem waitersOf_erase_user
    [BEq H] (handlers : List (Handler H)) (handler : H) :
    waitersOf (handlers.erase (.user handler)) = waitersOf handlers := by
  induction handlers with
  | nil => rfl
  | cons first rest ih =>
      rw [List.erase_cons]
      cases first with
      | user other =>
          split_ifs
          · rfl
          · exact ih
      | waiter w =>
          have hne : ((Handler.waiter w : Handler H) == .user handler) = false := rfl
          rw [if_neg (by rw [hne]; decide), waitersOf_waiter, waitersOf_waiter, ih]

/-- A waiting call removes itself. -/
theorem waitersOf_erase_waiter
    [BEq H] (handlers : List (Handler H)) (w : Nat) :
    waitersOf (handlers.erase (.waiter w)) = (waitersOf handlers).erase w := by
  induction handlers with
  | nil => rfl
  | cons first rest ih =>
      rw [List.erase_cons]
      cases first with
      | user other =>
          have hne : ((Handler.user other : Handler H) == .waiter w) = false := rfl
          rw [if_neg (by rw [hne]; decide), waitersOf_user, waitersOf_user, ih]
      | waiter other =>
          have heq : ((Handler.waiter other : Handler H) == .waiter w) = (other == w) := rfl
          rw [heq, waitersOf_waiter, List.erase_cons]
          split_ifs
          · rfl
          · rw [waitersOf_waiter, ih]

end WaitersOf

/-! ### Windows -/

@[simp] theorem watched_concat
    (w c : Nat) (labels : List (WaitLabel H P)) (label : WaitLabel H P) :
    watched w c (labels ++ [label]) = windowStep w c (watched w c labels) label := by
  rw [watched, List.foldl_append]
  rfl

/-! ### Invariants -/

/-- A call that has no result yet: it misses only what is in flight, unless it is full. -/
structure Waiting (labels : List (WaitLabel H P)) (s : Waits H P) (w : Nat) (waiter : Waiter P) :
    Prop where
  fits : waiter.kept.length ≤ waiter.kind.capacity
  ordered : ∀ c, ofStream c waiter.kept <+: window w c labels
  complete : waiter.kept.length < waiter.kind.capacity →
    ∀ c, ofStream c waiter.kept ++ inFlight s w c = window w c labels

/-- What holds after some steps. -/
structure Consistent (labels : List (WaitLabel H P)) (s : Waits H P) : Prop where
  once : (waitersOf s.handlers).Nodup
  copiedOnce : ∀ c packet rest, s.dispatching c = some (packet, rest) → (waitersOf rest).Nodup
  known : ∀ w ∈ waitersOf s.handlers, (s.waiters w).isSome
  copiedKnown : ∀ c packet rest, s.dispatching c = some (packet, rest) →
    ∀ w ∈ waitersOf rest, (s.waiters w).isSome
  registered : ∀ w c, (watched w c labels).1 = true ↔ w ∈ waitersOf s.handlers
  unknown : ∀ w, s.waiters w = none → ∀ c, window w c labels = []
  unanswered : ∀ w waiter, s.waiters w = some waiter → waiter.pc = .waiting → waiter.result = none
  waiting : ∀ w waiter, s.waiters w = some waiter → waiter.result = none →
    Waiting labels s w waiter
  results : ∀ w waiter result, s.waiters w = some waiter → waiter.result = some result →
    result.length ≤ waiter.kind.capacity ∧ ∀ c, ofStream c result <+: window w c labels

theorem ofStream_append
    (c : Nat) (front back : List (Nat × P)) :
    ofStream c (front ++ back) = ofStream c front ++ ofStream c back := by
  simp [ofStream]

theorem ofStream_mono
    {front kept : List (Nat × P)} (h : front <+: kept) (c : Nat) :
    ofStream c front <+: ofStream c kept := by
  obtain ⟨back, rfl⟩ := h
  rw [ofStream_append]
  exact List.prefix_append ..

theorem inFlight_eq_nil
    {labels : List (WaitLabel H P)} {s : Waits H P} (h : Consistent labels s) {w : Nat}
    (hw : s.waiters w = none) (c : Nat) :
    inFlight s w c = [] := by
  unfold inFlight
  split
  · rfl
  · rename_i packet rest hdispatch
    refine if_neg fun hmem => ?_
    have hsome := h.copiedKnown c packet rest hdispatch w hmem
    rw [hw] at hsome
    cases hsome

theorem Waiting.congr
    {labels labels' : List (WaitLabel H P)} {s s' : Waits H P} {w : Nat} {waiter : Waiter P}
    (h : Waiting labels s w waiter) (hwindow : ∀ c, window w c labels' = window w c labels)
    (hflight : ∀ c, inFlight s' w c = inFlight s w c) {waiter' : Waiter P}
    (hkind : waiter'.kind = waiter.kind) (hkept : waiter'.kept = waiter.kept) :
    Waiting labels' s' w waiter' where
  fits := by
    rw [hkind, hkept]
    exact h.fits
  ordered := by
    intro c
    rw [hkept, hwindow]
    exact h.ordered c
  complete := by
    intro hlt c
    rw [hkind, hkept] at hlt
    rw [hkept, hwindow, hflight]
    exact h.complete hlt c

namespace Consistent

variable {labels : List (WaitLabel H P)} {s : Waits H P}

theorem init :
    Consistent ([] : List (WaitLabel H P)) (quiet : Waits H P) where
  once := List.nodup_nil
  copiedOnce := by rintro c packet rest ⟨⟩
  known := by simp [quiet, waitersOf]
  copiedKnown := by rintro c packet rest ⟨⟩
  registered := by simp [watched, quiet, waitersOf]
  unknown := fun _ _ _ => rfl
  unanswered := by rintro w waiter ⟨⟩
  waiting := by rintro w waiter ⟨⟩
  results := by rintro w waiter result ⟨⟩

/-- A step that neither registers nor removes a call, nor moves a stream. -/
theorem user
    (h : Consistent labels s) {label : WaitLabel H P} {handlers : List (Handler H)}
    (hwaiters : waitersOf handlers = waitersOf s.handlers)
    (hlabel : ∀ w c seen, windowStep w c seen label = seen) :
    Consistent (labels ++ [label]) (s.setHandlers handlers) := by
  have hwatched : ∀ w c, watched w c (labels ++ [label]) = watched w c labels :=
    fun w c => (watched_concat ..).trans (hlabel ..)
  have hwindow : ∀ w c, window w c (labels ++ [label]) = window w c labels :=
    fun w c => congrArg Prod.snd (hwatched w c)
  refine ⟨?_, h.copiedOnce, ?_, h.copiedKnown, ?_, ?_, h.unanswered, ?_, ?_⟩
  · exact hwaiters ▸ h.once
  · intro w hw
    exact h.known w (hwaiters ▸ hw)
  · intro w c
    rw [hwatched, h.registered, ← hwaiters]
    rfl
  · intro w hw c
    rw [hwindow]
    exact h.unknown w hw c
  · intro w waiter hw hresult
    refine (h.waiting w waiter hw hresult).congr (hwindow w) ?_ rfl rfl
    exact fun _ => rfl
  · intro w waiter result hw hresult
    simp only [hwindow]
    exact h.results w waiter result hw hresult

/-- A step of a waiting call. -/
theorem waiter
    (h : Consistent labels s) {label : WaitLabel H P} {handlers : List (Handler H)} {w : Nat}
    {waiter : Waiter P} (honce : (waitersOf handlers).Nodup)
    (hknown : ∀ other ∈ waitersOf handlers, other = w ∨ other ∈ waitersOf s.handlers)
    (hregistered : ∀ other c, (windowStep other c (watched other c labels) label).1 = true ↔
      other ∈ waitersOf handlers)
    (hlabel : ∀ other c seen, (windowStep other c seen label).2 = seen.2)
    (hunanswered : waiter.pc = .waiting → waiter.result = none)
    (hwaiting : waiter.result = none → Waiting labels s w waiter)
    (hresults : ∀ result, waiter.result = some result →
      result.length ≤ waiter.kind.capacity ∧ ∀ c, ofStream c result <+: window w c labels) :
    Consistent (labels ++ [label]) ((s.setHandlers handlers).setWaiter w waiter) := by
  have hread : ∀ other, ((s.setHandlers handlers).setWaiter w waiter).waiters other =
      if other = w then some waiter else s.waiters other :=
    fun other => Function.update_apply ..
  have hsome : ∀ other, (s.waiters other).isSome →
      (((s.setHandlers handlers).setWaiter w waiter).waiters other).isSome := by
    intro other hother
    rw [hread]
    split_ifs
    · rfl
    · exact hother
  have hwindow : ∀ other c, window other c (labels ++ [label]) = window other c labels := by
    intro other c
    rw [window, watched_concat, hlabel]
    rfl
  refine ⟨honce, h.copiedOnce, ?_, ?_, ?_, ?_, ?_, ?_, ?_⟩
  · intro other hother
    rcases hknown other hother with rfl | hother
    · rw [hread, if_pos rfl]
      rfl
    · exact hsome other (h.known other hother)
  · intro c packet rest hdispatch other hother
    exact hsome other (h.copiedKnown c packet rest hdispatch other hother)
  · intro other c
    rw [watched_concat]
    exact hregistered other c
  · intro other hother c
    rw [hread] at hother
    split_ifs at hother
    rw [hwindow]
    exact h.unknown other hother c
  · intro other waiter' hother hpc
    rw [hread] at hother
    split_ifs at hother with heq
    · obtain rfl := Option.some.inj hother
      exact hunanswered hpc
    · exact h.unanswered other waiter' hother hpc
  · intro other waiter' hother hresult
    rw [hread] at hother
    split_ifs at hother with heq
    · obtain rfl := heq
      obtain rfl := Option.some.inj hother
      refine (hwaiting hresult).congr (hwindow other) ?_ rfl rfl
      exact fun _ => rfl
    · refine (h.waiting other waiter' hother hresult).congr (hwindow other) ?_ rfl rfl
      exact fun _ => rfl
  · intro other waiter' result hother hresult
    simp only [hwindow]
    rw [hread] at hother
    split_ifs at hother with heq
    · obtain rfl := heq
      obtain rfl := Option.some.inj hother
      exact hresults result hresult
    · exact h.results other waiter' result hother hresult

theorem enter
    (h : Consistent labels s) {w : Nat} (hw : s.waiters w = none) (kind : WaitKind) :
    Consistent (labels ++ [.enter w kind])
      ((s.setHandlers (s.handlers ++ [.waiter w])).setWaiter w { kind := kind }) := by
  have hfresh : w ∉ waitersOf s.handlers := by
    intro hmem
    have hsome := h.known w hmem
    rw [hw] at hsome
    cases hsome
  have hmem : ∀ other, other ∈ waitersOf (s.handlers ++ [.waiter w]) ↔
      other ∈ waitersOf s.handlers ∨ other = w := by
    intro other
    rw [waitersOf_append, List.mem_append]
    exact or_congr_right List.mem_singleton
  refine h.waiter ?_ ?_ ?_ ?_ (fun _ => rfl) ?_ (by rintro result ⟨⟩)
  · rw [waitersOf_append]
    exact List.nodup_append.mpr ⟨h.once, List.nodup_singleton w, by
      rintro a ha b hb rfl
      exact hfresh (List.mem_singleton.mp hb ▸ ha)⟩
  · exact fun other hother => ((hmem other).mp hother).symm
  · intro other c
    simp only [windowStep]
    split_ifs with heq
    · exact iff_of_true rfl ((hmem other).mpr (Or.inr heq.symm))
    · rw [h.registered, hmem, or_iff_left fun h : other = w => heq h.symm]
  · intro other c seen
    simp only [windowStep]
    split_ifs <;> rfl
  · intro _
    refine ⟨Nat.zero_le _, fun c => List.nil_prefix, fun _ c => ?_⟩
    rw [inFlight_eq_nil h hw, h.unknown w hw]
    rfl

theorem leave
    (h : Consistent labels s) [BEq H] {w : Nat} {waiter : Waiter P}
    (hw : s.waiters w = some waiter) :
    Consistent (labels ++ [.leave w]) ((s.setHandlers (s.handlers.erase (.waiter w))).setWaiter w
      { waiter with pc := .left }) := by
  refine h.waiter ?_ ?_ ?_ ?_ (by rintro ⟨⟩) ?_ ?_
  · rw [waitersOf_erase_waiter]
    exact h.once.erase w
  · intro other hother
    rw [waitersOf_erase_waiter] at hother
    exact Or.inr (List.mem_of_mem_erase hother)
  · intro other c
    rw [waitersOf_erase_waiter, h.once.mem_erase_iff]
    simp only [windowStep]
    split_ifs with heq
    · exact iff_of_false not_false fun hother => hother.1 heq.symm
    · rw [h.registered, and_iff_right fun h : other = w => heq h.symm]
  · intro other c seen
    simp only [windowStep]
    split_ifs <;> rfl
  · intro hresult
    refine (h.waiting w waiter hw hresult).congr (fun _ => rfl) ?_ rfl rfl
    exact fun _ => rfl
  · exact fun result hresult => h.results w waiter result hw hresult

/-- A step of a waiting call that leaves the handler list alone. -/
theorem waiter_only
    (h : Consistent labels s) {label : WaitLabel H P} {w : Nat} {waiter : Waiter P}
    (hlabel : ∀ other c seen, windowStep other c seen label = seen)
    (hpc : waiter.pc ≠ .waiting) (hwaiting : waiter.result = none → Waiting labels s w waiter)
    (hresults : ∀ result, waiter.result = some result →
      result.length ≤ waiter.kind.capacity ∧ ∀ c, ofStream c result <+: window w c labels) :
    Consistent (labels ++ [label]) (s.setWaiter w waiter) := by
  have hregistered : ∀ other c, (windowStep other c (watched other c labels) label).1 = true ↔
      other ∈ waitersOf s.handlers := by
    intro other c
    rw [hlabel]
    exact h.registered other c
  refine h.waiter h.once (fun _ hother => Or.inr hother) hregistered ?_
    (fun hpc' => absurd hpc' hpc) hwaiting hresults
  intro other c seen
  rw [hlabel]

theorem wake
    (h : Consistent labels s) {w : Nat} {waiter : Waiter P} (hw : s.waiters w = some waiter)
    (hpc : waiter.pc = .waiting) :
    Consistent (labels ++ [.wake w]) (s.setWaiter w waiter.wake) := by
  have hresult := h.unanswered w waiter hw hpc
  have hopen := h.waiting w waiter hw hresult
  cases hkind : waiter.kind with
  | expect =>
      have hwake : waiter.wake =
          ⟨.expect, .woken, waiter.kept.tail, some (waiter.kept.take 1)⟩ := by
        simp only [Waiter.wake, hkind]
      rw [hwake]
      refine h.waiter_only (fun _ _ _ => rfl) (by rintro ⟨⟩) (by rintro ⟨⟩) ?_
      rintro result hsome
      obtain rfl := Option.some.inj hsome
      have hprefix := List.take_prefix 1 waiter.kept
      exact ⟨List.length_take_le .., fun c => (ofStream_mono hprefix c).trans (hopen.ordered c)⟩
  | listen count =>
      have hwake : waiter.wake = { waiter with pc := .woken } := by
        simp only [Waiter.wake, hkind]
      rw [hwake]
      refine h.waiter_only (fun _ _ _ => rfl) (by rintro ⟨⟩) ?_ ?_
      · exact fun _ => hopen.congr (fun _ => rfl) (fun _ => rfl) rfl rfl
      · rintro result hsome
        rw [hresult] at hsome
        cases hsome

theorem read
    (h : Consistent labels s) {w : Nat} {waiter : Waiter P} (hw : s.waiters w = some waiter)
    (hpc : waiter.pc = .left) (hresult : waiter.result = none) :
    Consistent (labels ++ [.read w])
      (s.setWaiter w { waiter with result := some waiter.kept }) := by
  have hopen := h.waiting w waiter hw hresult
  refine h.waiter_only (fun _ _ _ => rfl) (by simp [hpc]) (by rintro ⟨⟩) ?_
  rintro result hsome
  obtain rfl := Option.some.inj hsome
  exact ⟨hopen.fits, hopen.ordered⟩

theorem receive
    (h : Consistent labels s) {c : Nat} (hidle : s.dispatching c = none) (packet : P) :
    Consistent (labels ++ [.receive c packet])
      (s.setDispatch c (some (packet, s.handlers))) := by
  let s' := s.setDispatch c (some (packet, s.handlers))
  -- The packet that is new to a call.
  let new := fun w d => if w ∈ waitersOf s.handlers ∧ c = d then [packet] else []
  have hdispatch : ∀ d, s'.dispatching d =
      if d = c then some (packet, s.handlers) else s.dispatching d :=
    fun d => Function.update_apply ..
  have hwatched : ∀ w d, watched w d (labels ++ [.receive c packet]) =
      ((watched w d labels).1, window w d labels ++ new w d) := by
    intro w d
    rw [watched_concat, windowStep]
    simp only [h.registered, new]
    split_ifs
    · rfl
    · rw [List.append_nil]
      rfl
  have hwindow : ∀ w d, window w d (labels ++ [.receive c packet]) = window w d labels ++ new w d :=
    fun w d => congrArg Prod.snd (hwatched w d)
  have hflight : ∀ w d, inFlight s' w d = inFlight s w d ++ new w d := by
    intro w d
    by_cases hd : d = c
    · have hnone : inFlight s w d = [] := by rw [inFlight, hd, hidle]
      rw [hnone, List.nil_append, inFlight, hdispatch, if_pos hd]
      simp only [new, hd, and_true]
    · have hnew : new w d = [] := if_neg fun hmem => hd hmem.2.symm
      rw [hnew, List.append_nil, inFlight, hdispatch, if_neg hd]
      rfl
  refine ⟨h.once, ?_, h.known, ?_, ?_, ?_, h.unanswered, ?_, ?_⟩
  · intro d packet' rest hrest
    rw [hdispatch] at hrest
    split_ifs at hrest
    · obtain ⟨rfl, rfl⟩ := Prod.mk.inj (Option.some.inj hrest)
      exact h.once
    · exact h.copiedOnce d packet' rest hrest
  · intro d packet' rest hrest w hw
    rw [hdispatch] at hrest
    split_ifs at hrest
    · obtain ⟨rfl, rfl⟩ := Prod.mk.inj (Option.some.inj hrest)
      exact h.known w hw
    · exact h.copiedKnown d packet' rest hrest w hw
  · intro w d
    rw [hwatched]
    exact h.registered w d
  · intro w hw d
    have hnot : ¬ (w ∈ waitersOf s.handlers ∧ c = d) := by
      rintro ⟨hmem, -⟩
      have hsome := h.known w hmem
      rw [show s.waiters w = none from hw] at hsome
      cases hsome
    rw [hwindow, h.unknown w hw, List.nil_append]
    exact if_neg hnot
  · intro w waiter hw hresult
    have hopen := h.waiting w waiter hw hresult
    refine ⟨hopen.fits, fun d => ?_, fun hlt d => ?_⟩
    · rw [hwindow]
      exact (hopen.ordered d).trans (List.prefix_append ..)
    · rw [hwindow, hflight, ← List.append_assoc, hopen.complete hlt]
  · intro w waiter result hw hresult
    obtain ⟨hle, hordered⟩ := h.results w waiter result hw hresult
    refine ⟨hle, fun d => ?_⟩
    rw [hwindow]
    exact (hordered d).trans (List.prefix_append ..)

/-- A stream goes on after a handler that keeps nothing, or is done. -/
theorem invoke_other
    (h : Consistent labels s) {c : Nat} {dispatch : Option (P × List (Handler H))}
    (honce : ∀ packet rest, dispatch = some (packet, rest) → (waitersOf rest).Nodup)
    (hknown : ∀ packet rest, dispatch = some (packet, rest) →
      ∀ w ∈ waitersOf rest, (s.waiters w).isSome)
    (hflight : ∀ w, inFlight (s.setDispatch c dispatch) w c = inFlight s w c) :
    Consistent (labels ++ [.invoke c]) (s.setDispatch c dispatch) := by
  have hwindow : ∀ w d, window w d (labels ++ [.invoke c]) = window w d labels :=
    fun w d => congrArg Prod.snd (watched_concat ..)
  have hdispatch : ∀ d, (s.setDispatch c dispatch).dispatching d =
      if d = c then dispatch else s.dispatching d :=
    fun d => Function.update_apply ..
  have hflight' : ∀ w d, inFlight (s.setDispatch c dispatch) w d = inFlight s w d := by
    intro w d
    by_cases hd : d = c
    · rw [hd, hflight]
    · rw [inFlight, hdispatch, if_neg hd]
      rfl
  refine ⟨h.once, ?_, h.known, ?_, ?_, ?_, h.unanswered, ?_, ?_⟩
  · intro d packet rest hrest
    rw [hdispatch] at hrest
    split_ifs at hrest
    · exact honce packet rest hrest
    · exact h.copiedOnce d packet rest hrest
  · intro d packet rest hrest
    rw [hdispatch] at hrest
    split_ifs at hrest
    · exact hknown packet rest hrest
    · exact h.copiedKnown d packet rest hrest
  · intro w d
    rw [watched_concat]
    exact h.registered w d
  · intro w hw d
    rw [hwindow]
    exact h.unknown w hw d
  · intro w waiter hw hresult
    refine (h.waiting w waiter hw hresult).congr (hwindow w) ?_ rfl rfl
    exact hflight' w
  · intro w waiter result hw hresult
    simp only [hwindow]
    exact h.results w waiter result hw hresult

/-- A stream calls the handler of a waiting call. -/
theorem invoke_waiter
    (h : Consistent labels s) {c w : Nat} {packet : P} {rest : List (Handler H)} {waiter : Waiter P}
    (hcopy : s.dispatching c = some (packet, .waiter w :: rest)) (hw : s.waiters w = some waiter) :
    Consistent (labels ++ [.invoke c])
      ((s.setDispatch c (some (packet, rest))).setWaiter w (waiter.push c packet)) := by
  let s' := (s.setDispatch c (some (packet, rest))).setWaiter w (waiter.push c packet)
  have hcopied := h.copiedOnce c packet _ hcopy
  rw [waitersOf_waiter, List.nodup_cons] at hcopied
  have hwindow : ∀ w d, window w d (labels ++ [.invoke c]) = window w d labels :=
    fun w d => congrArg Prod.snd (watched_concat ..)
  have hdispatch : ∀ d, s'.dispatching d =
      if d = c then some (packet, rest) else s.dispatching d :=
    fun d => Function.update_apply ..
  have hread : ∀ other, s'.waiters other =
      if other = w then some (waiter.push c packet) else s.waiters other :=
    fun other => Function.update_apply ..
  have hsome : ∀ other, (s.waiters other).isSome → (s'.waiters other).isSome := by
    intro other hother
    rw [hread]
    split_ifs
    · rfl
    · exact hother
  have hpush : (waiter.push c packet).kind = waiter.kind ∧ (waiter.push c packet).pc = waiter.pc ∧
      (waiter.push c packet).result = waiter.result := by
    unfold Waiter.push
    split_ifs <;> exact ⟨rfl, rfl, rfl⟩
  have hflight : ∀ other d, inFlight s other d =
      (if other = w ∧ d = c then [packet] else []) ++ inFlight s' other d := by
    intro other d
    by_cases hd : d = c
    · rw [hd, inFlight, inFlight, hcopy, hdispatch, if_pos rfl]
      simp only [waitersOf_waiter, List.mem_cons, and_true]
      by_cases hother : other = w
      · simp [hother, hcopied.1]
      · simp [hother]
    · rw [if_neg fun hboth => hd hboth.2, List.nil_append, inFlight, inFlight, hdispatch, if_neg hd]
  have hknown := fun other hother => hsome other (h.known other hother)
  refine ⟨h.once, ?_, hknown, ?_, ?_, ?_, ?_, ?_, ?_⟩
  · intro d packet' rest' hrest
    rw [hdispatch] at hrest
    split_ifs at hrest
    · obtain ⟨rfl, rfl⟩ := Prod.mk.inj (Option.some.inj hrest)
      exact hcopied.2
    · exact h.copiedOnce d packet' rest' hrest
  · intro d packet' rest' hrest other hother
    rw [hdispatch] at hrest
    split_ifs at hrest
    · obtain ⟨rfl, rfl⟩ := Prod.mk.inj (Option.some.inj hrest)
      exact hsome other (h.copiedKnown c packet _ hcopy other (List.mem_cons_of_mem _ hother))
    · exact hsome other (h.copiedKnown d packet' rest' hrest other hother)
  · intro other d
    rw [watched_concat]
    exact h.registered other d
  · intro other hother d
    rw [hread] at hother
    split_ifs at hother
    rw [hwindow]
    exact h.unknown other hother d
  · intro other waiter' hother hpc
    rw [hread] at hother
    split_ifs at hother with heq
    · obtain rfl := Option.some.inj hother
      rw [hpush.2.2]
      exact h.unanswered w waiter hw (hpush.2.1 ▸ hpc)
    · exact h.unanswered other waiter' hother hpc
  · intro other waiter' hother hresult
    rw [hread] at hother
    split_ifs at hother with heq
    · obtain rfl := heq
      obtain rfl := Option.some.inj hother
      have hopen := h.waiting other waiter hw (hpush.2.2 ▸ hresult)
      by_cases hlt : waiter.kept.length < waiter.kind.capacity
      · -- The packet is kept, and is in flight no longer.
        have hkept : waiter.push c packet = { waiter with kept := waiter.kept ++ [(c, packet)] } :=
          if_pos hlt
        have hall : ∀ d, ofStream d (waiter.kept ++ [(c, packet)]) ++ inFlight s' other d =
            window other d labels := by
          intro d
          rw [← hopen.complete hlt, hflight, ofStream_append, List.append_assoc]
          by_cases hd : d = c
          · simp [hd, ofStream]
          · have hc : ¬ c = d := fun heq => hd heq.symm
            simp [hd, hc, ofStream]
        rw [hkept]
        refine ⟨?_, fun d => ?_, fun _ d => ?_⟩
        · rw [List.length_append]
          exact hlt
        · rw [hwindow, ← hall]
          exact List.prefix_append ..
        · rw [hwindow]
          exact hall d
      · have hfull : waiter.push c packet = waiter := if_neg hlt
        rw [hfull]
        refine ⟨hopen.fits, fun d => ?_, fun hlt' => absurd hlt' hlt⟩
        rw [hwindow]
        exact hopen.ordered d
    · refine (h.waiting other waiter' hother hresult).congr (hwindow other) ?_ rfl rfl
      intro d
      rw [hflight, if_neg fun hboth => heq hboth.1]
      rfl
  · intro other waiter' result hother hresult
    simp only [hwindow]
    rw [hread] at hother
    split_ifs at hother with heq
    · obtain rfl := heq
      obtain rfl := Option.some.inj hother
      rw [hpush.1]
      exact h.results other waiter result hw (hpush.2.2 ▸ hresult)
    · exact h.results other waiter' result hother hresult

/-- Every step keeps the invariant. -/
theorem step
    [BEq H] (h : Consistent labels s) {label : WaitLabel H P} {s' : Waits H P}
    (hstep : s.step label = some s') :
    Consistent (labels ++ [label]) s' := by
  cases label with
  | onPacketIn handler =>
      obtain rfl := Option.some.inj hstep
      refine h.user ?_ fun _ _ _ => rfl
      exact (waitersOf_append ..).trans (List.append_nil _)
  | deregister handler =>
      obtain rfl := Option.some.inj hstep
      exact h.user (waitersOf_erase_user ..) fun _ _ _ => rfl
  | enter w kind =>
      cases hw : s.waiters w with
      | some waiter => simp [Waits.step, hw] at hstep
      | none =>
          simp only [Waits.step, hw] at hstep
          split_ifs at hstep
          exact Option.some.inj hstep ▸ h.enter hw kind
  | wake w =>
      obtain ⟨waiter, hw, hwaiter⟩ := Option.bind_eq_some_iff.mp hstep
      split_ifs at hwaiter with hpc
      exact Option.some.inj hwaiter ▸ h.wake hw hpc
  | leave w =>
      obtain ⟨waiter, hw, hwaiter⟩ := Option.bind_eq_some_iff.mp hstep
      split_ifs at hwaiter with hpc
      exact Option.some.inj hwaiter ▸ h.leave hw
  | read w =>
      obtain ⟨waiter, hw, hwaiter⟩ := Option.bind_eq_some_iff.mp hstep
      split at hwaiter
      · rename_i count hkind hpc hresult
        exact Option.some.inj hwaiter ▸ h.read hw hpc hresult
      · cases hwaiter
  | receive c packet =>
      cases hidle : s.dispatching c with
      | some dispatch => simp [Waits.step, hidle] at hstep
      | none =>
          simp only [Waits.step, hidle] at hstep
          exact Option.some.inj hstep ▸ h.receive hidle packet
  | invoke c =>
      rcases hcopy : s.dispatching c with _ | ⟨packet, _ | ⟨handler, rest⟩⟩
      · simp [Waits.step, hcopy] at hstep
      · simp only [Waits.step, hcopy] at hstep
        refine Option.some.inj hstep ▸ h.invoke_other (by rintro _ _ ⟨⟩) (by rintro _ _ ⟨⟩) ?_
        intro w
        simp [inFlight, hcopy, Waits.setDispatch, waitersOf]
      · simp only [Waits.step, hcopy] at hstep
        obtain rfl := Option.some.inj hstep
        have hnext : ∀ handler', waitersOf (handler' :: rest) = waitersOf rest →
            handler' = handler → Consistent (labels ++ [.invoke c])
              (s.setDispatch c (some (packet, rest))) := by
          rintro _ hsame rfl
          refine h.invoke_other ?_ ?_ ?_
          · rintro packet' rest' hrest
            obtain ⟨rfl, rfl⟩ := Prod.mk.inj (Option.some.inj hrest)
            exact hsame ▸ h.copiedOnce c packet _ hcopy
          · rintro packet' rest' hrest
            obtain ⟨rfl, rfl⟩ := Prod.mk.inj (Option.some.inj hrest)
            exact hsame ▸ h.copiedKnown c packet _ hcopy
          · intro w
            simp [inFlight, hcopy, Waits.setDispatch, hsame]
        cases handler with
        | user handler => exact hnext _ rfl rfl
        | waiter w =>
            have hsome := h.copiedKnown c packet _ hcopy w List.mem_cons_self
            obtain ⟨waiter, hw⟩ := Option.isSome_iff_exists.mp hsome
            have hcall : (s.setDispatch c (some (packet, rest))).call c packet (.waiter w) =
                (s.setDispatch c (some (packet, rest))).setWaiter w (waiter.push c packet) := by
              have hread : (s.setDispatch c (some (packet, rest))).waiters w = some waiter := hw
              simp only [Waits.call, hread]
            rw [hcall]
            exact h.invoke_waiter hcopy hw

/-- The invariant holds in every execution. -/
theorem of_execute
    [BEq H] {labels : List (WaitLabel H P)} {s : Waits H P}
    (h : execute Waits.step quiet labels = some s) :
    Consistent labels s := by
  induction labels using List.reverseRecOn generalizing s with
  | nil => exact Option.some.inj h ▸ .init
  | append_singleton labels label ih =>
      obtain ⟨t, ht, hst⟩ := execute_concat_eq_some_iff.mp h
      exact (ih ht).step hst

end Consistent

/-! ### Results -/

/-- A step that gives a call its result, from what its handler has kept. -/
structure Answers (s : Waits H P) (label : WaitLabel H P) (w : Nat) (kind : WaitKind)
    (result : List (Nat × P)) : Prop where
  label : label = .wake w ∨ label = .read w
  kept : ∃ waiter, s.waiters w = some waiter ∧ waiter.result = none ∧ waiter.kind = kind ∧
    result <+: waiter.kept ∧ (result.length < kind.capacity → result = waiter.kept)

/-- A result was there before, or the step gives it. -/
theorem answers_of_step
    [BEq H] {labels : List (WaitLabel H P)} {s s' : Waits H P} (h : Consistent labels s)
    {label : WaitLabel H P} (hstep : s.step label = some s') {w : Nat} {waiter' : Waiter P}
    (hw' : s'.waiters w = some waiter') {result : List (Nat × P)}
    (hresult : waiter'.result = some result) :
    (∃ waiter, s.waiters w = some waiter ∧ waiter.kind = waiter'.kind ∧
      waiter.result = some result) ∨ Answers s label w waiter'.kind result := by
  -- One call has changed, or none.
  have hchanged : ∀ (other : Nat) (after : Waiter P),
      s'.waiters = Function.update s.waiters other (some after) →
      (w = other → after = waiter' →
        (∃ waiter, s.waiters w = some waiter ∧ waiter.kind = waiter'.kind ∧
          waiter.result = some result) ∨ Answers s label w waiter'.kind result) →
      (∃ waiter, s.waiters w = some waiter ∧ waiter.kind = waiter'.kind ∧
        waiter.result = some result) ∨ Answers s label w waiter'.kind result := by
    intro other after heq hother
    rw [heq, Function.update_apply] at hw'
    split_ifs at hw' with hsame
    · exact hother hsame (Option.some.inj hw')
    · exact Or.inl ⟨waiter', hw', rfl, hresult⟩
  cases label with
  | onPacketIn handler =>
      obtain rfl := Option.some.inj hstep
      exact Or.inl ⟨waiter', hw', rfl, hresult⟩
  | deregister handler =>
      obtain rfl := Option.some.inj hstep
      exact Or.inl ⟨waiter', hw', rfl, hresult⟩
  | enter other kind =>
      cases hother : s.waiters other with
      | some waiter => simp [Waits.step, hother] at hstep
      | none =>
          simp only [Waits.step, hother] at hstep
          split_ifs at hstep
          obtain rfl := Option.some.inj hstep
          refine hchanged other _ rfl ?_
          rintro rfl rfl
          cases hresult
  | wake other =>
      obtain ⟨waiter, hother, hwaiter⟩ := Option.bind_eq_some_iff.mp hstep
      split_ifs at hwaiter with hpc
      obtain rfl := Option.some.inj hwaiter
      have hnone := h.unanswered other waiter hother hpc
      refine hchanged other _ rfl ?_
      rintro rfl rfl
      cases hkind : waiter.kind with
      | expect =>
          have hwake : waiter.wake =
              ⟨.expect, .woken, waiter.kept.tail, some (waiter.kept.take 1)⟩ := by
            simp only [Waiter.wake, hkind]
          rw [hwake] at hresult ⊢
          obtain rfl := Option.some.inj hresult
          refine Or.inr ⟨Or.inl rfl, waiter, hother, hnone, hkind, List.take_prefix .., ?_⟩
          intro hlt
          cases hkept : waiter.kept with
          | nil => rfl
          | cons e rest => simp [hkept, WaitKind.capacity] at hlt
      | listen count =>
          have hwake : waiter.wake = { waiter with pc := .woken } := by
            simp only [Waiter.wake, hkind]
          rw [hwake] at hresult
          exact absurd (hnone.symm.trans hresult) (by simp)
  | leave other =>
      obtain ⟨waiter, hother, hwaiter⟩ := Option.bind_eq_some_iff.mp hstep
      split_ifs at hwaiter with hpc
      obtain rfl := Option.some.inj hwaiter
      refine hchanged other _ rfl ?_
      rintro rfl rfl
      exact Or.inl ⟨waiter, hother, rfl, hresult⟩
  | read other =>
      obtain ⟨waiter, hother, hwaiter⟩ := Option.bind_eq_some_iff.mp hstep
      split at hwaiter
      · rename_i count hkind hpc hnone
        obtain rfl := Option.some.inj hwaiter
        refine hchanged other _ rfl ?_
        rintro rfl rfl
        obtain rfl := Option.some.inj hresult
        exact Or.inr ⟨Or.inr rfl, waiter, hother, hnone, rfl, List.prefix_rfl, fun _ => rfl⟩
      · cases hwaiter
  | receive c packet =>
      cases hidle : s.dispatching c with
      | some dispatch => simp [Waits.step, hidle] at hstep
      | none =>
          simp only [Waits.step, hidle] at hstep
          obtain rfl := Option.some.inj hstep
          exact Or.inl ⟨waiter', hw', rfl, hresult⟩
  | invoke c =>
      rcases hcopy : s.dispatching c with _ | ⟨packet, _ | ⟨handler, rest⟩⟩
      · simp [Waits.step, hcopy] at hstep
      · simp only [Waits.step, hcopy] at hstep
        obtain rfl := Option.some.inj hstep
        exact Or.inl ⟨waiter', hw', rfl, hresult⟩
      · simp only [Waits.step, hcopy] at hstep
        obtain rfl := Option.some.inj hstep
        cases handler with
        | user handler => exact Or.inl ⟨waiter', hw', rfl, hresult⟩
        | waiter other =>
            have hsome := h.copiedKnown c packet _ hcopy other List.mem_cons_self
            obtain ⟨waiter, hother⟩ := Option.isSome_iff_exists.mp hsome
            have hread : (s.setDispatch c (some (packet, rest))).waiters other = some waiter :=
              hother
            simp only [Waits.call, hread] at hchanged hw'
            refine hchanged other (waiter.push c packet) rfl ?_
            rintro rfl rfl
            refine Or.inl ⟨waiter, hother, ?_, ?_⟩
            · unfold Waiter.push
              split_ifs <;> rfl
            · unfold Waiter.push at hresult
              split_ifs at hresult <;> exact hresult

/--
In every interleaving of threads and streams, a call returns packets of each stream in the order in
which the stream has received them, without gaps and without repetitions, from its registration
on, and no more than it asked for.  One that returns fewer has missed nothing: when its result was
fixed, it had every packet that a stream had received meanwhile, but for one that the stream was
still dispatching.
-/
theorem waiters_safe
    [BEq H] (labels : List (WaitLabel H P)) (s : Waits H P)
    (hrun : execute Waits.step quiet labels = some s) (w : Nat) (waiter : Waiter P)
    (hw : s.waiters w = some waiter) (result : List (Nat × P))
    (hresult : waiter.result = some result) :
    result.length ≤ waiter.kind.capacity ∧ (∀ c, ofStream c result <+: window w c labels) ∧
      ∃ before label after t, labels = before ++ label :: after ∧
        execute Waits.step quiet before = some t ∧ (label = .wake w ∨ label = .read w) ∧
        (result.length < waiter.kind.capacity →
          ∀ c, ofStream c result ++ inFlight t w c = window w c before) := by
  have hconsistent := Consistent.of_execute hrun
  obtain ⟨hle, hordered⟩ := hconsistent.results w waiter result hw hresult
  refine ⟨hle, hordered, ?_⟩
  clear hconsistent hle hordered
  induction labels using List.reverseRecOn generalizing s waiter with
  | nil =>
      obtain rfl := Option.some.inj hrun
      cases hw
  | append_singleton labels label ih =>
      obtain ⟨t, ht, hst⟩ := execute_concat_eq_some_iff.mp hrun
      have hbefore := Consistent.of_execute ht
      rcases answers_of_step hbefore hst hw hresult with ⟨waiter', hw', hkind, hresult'⟩ | hanswers
      · obtain ⟨before, first, after, u, rfl, hu, hfirst, hcomplete⟩ :=
          ih t ht waiter' hw' hresult'
        refine ⟨before, first, after ++ [label], u, ?_, hu, hfirst, hkind ▸ hcomplete⟩
        rw [List.append_assoc, List.cons_append]
      · obtain ⟨hlabel, waiter', hw', hnone, hkind, -, hkept⟩ := hanswers
        refine ⟨labels, label, [], t, rfl, ht, hlabel, ?_⟩
        intro hlt c
        rw [hkept hlt, (hbefore.waiting w waiter' hw' hnone).complete]
        rwa [← hkept hlt, hkind]

/-- Two streams: the call returns what reaches its handler first. -/
def twoStreams : List (WaitLabel Nat Nat) :=
  [.enter 0 .expect, .receive 0 5, .receive 1 6, .invoke 1, .invoke 0, .wake 0]

theorem waiters_safe_two_streams :
    ∃ s waiter, execute Waits.step quiet twoStreams = some s ∧ s.waiters 0 = some waiter ∧
      waiter.result = some [(1, 6)] ∧ ofStream 1 [(1, 6)] <+: window 0 1 twoStreams := by
  refine ⟨_, _, rfl, rfl, rfl, ?_⟩
  exact (waiters_safe twoStreams _ rfl 0 _ rfl [(1, 6)] rfl).2.1 1

end PacketIn
end P4Net
