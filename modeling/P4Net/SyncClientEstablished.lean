import P4Net.SyncClientGenerations

/-!
# An established connection stays

Calls of `connect` beside one that has returned, in the runs without disconnects and
stream failures.  `Settled` says that no thread is in a position to tear the current
stream down.  It is kept as long as no `connect` becomes established while another one
stands before its stale teardown (`SettlesAlone`).

The result is `established_of_settlesAlone`; `stale_teardown_hits` shows that the
condition is needed.
-/

namespace P4Net
namespace SyncClient

open Runs

/-- Nobody disconnects, and only streams that the client has cancelled come to an end. -/
def Quiet (w : World) : Label → Prop
  | .disconnect _ => False
  | .streamRaises g => g ∈ w.cancelled
  | .streamEnds g => g ∈ w.cancelled
  | _ => True

/-- When a `connect` becomes established, no other one stands before its stale teardown. -/
def SettlesAlone (w : World) : Label → Prop
  | .finishSection t => ∀ g, w.threads t = .finish g → arbitrated g w = true →
      ∀ t', w.threads t' ≠ .staleTeardown
  | _ => True

/-- A quiet step that does not interfere with a stale teardown. -/
def QuietSettles (w : World) (label : Label) : Prop := Quiet w label ∧ SettlesAlone w label

/-- No thread can tear an established connection down. -/
structure Settled (w : World) : Prop where
  unopened : ∀ g, w.nextGen ≤ g → w.consumer g = .reading
  reading : ∀ g, w.client.streamCall = some g → w.consumer g = .reading
  connected : w.client.connected = true →
    ∃ g, w.client.streamCall = some g ∧ (∀ t, (w.threads t).holds ≠ some g) ∧
      ∀ t, w.threads t ≠ .staleTeardown
  returned : w.returned ≠ [] → w.client.connected = true

theorem settled_init : Settled {} := by
  constructor <;> simp

/-- Moving a thread keeps `Settled` if it stays away from the current stream. -/
theorem settled_setPc
    {w : World} (h : Settled w) (t : Tid) (pc : ConnectPc)
    (hpc : w.client.connected = true → pc ≠ .staleTeardown ∧
      ∀ g, pc.holds = some g → (w.threads t).holds = some g) :
    Settled (setPc t pc w) := by
  refine { h with connected := ?_ }
  intro hconn
  obtain ⟨g, hstream, hholds, hstale⟩ := h.connected hconn
  obtain ⟨hne, hkeep⟩ := hpc hconn
  refine ⟨g, hstream, ?_, ?_⟩
  · intro t'
    by_cases ht : t' = t
    · subst ht
      intro hg
      exact hholds t' (hkeep g (by simpa [setPc] using hg))
    · simpa [setPc, ht] using hholds t'
  · intro t'
    by_cases ht : t' = t
    · simpa [setPc, ht] using hne
    · simpa [setPc, ht] using hstale t'

theorem settled_teardown
    {w : World} (h : Settled w) (hconn : w.client.connected = false) :
    Settled (teardown w) := by
  have hreturned : w.returned = [] := by
    by_contra hne
    simp [h.returned hne] at hconn
  constructor
  case unopened => exact h.unopened
  case reading => simp [teardown]
  case connected => simp [teardown]
  case returned => simp [teardown, hreturned]

theorem settled_connectSection
    {w : World} (h : Settled w) (t : Tid) (outcome : StreamChannelOutcome) :
    Settled (connectSection t outcome w) := by
  unfold connectSection
  split_ifs with hconnected
  · have hpc := settled_setPc h t .idle (fun _ => ⟨by simp, by simp [ConnectPc.holds]⟩)
    exact { hpc with returned := fun _ => hconnected }
  · have hconn : w.client.connected = false := by simpa using hconnected
    have hreturned : w.returned = [] := by
      by_contra hne
      exact hconnected (h.returned hne)
    have hopen : Settled (openFields w) := by
      refine { h with unopened := fun g hg => h.unopened g (Nat.le_of_succ_le hg) }
    cases outcome with
    | returns =>
        constructor
        case unopened => exact hopen.unopened
        case reading =>
          intro g hg
          obtain rfl : w.nextGen = g := by simpa [setPc, openStream] using hg
          exact h.unopened _ (Nat.le_refl _)
        case connected => simp [setPc, openStream, openFields, hconn]
        case returned => simp [setPc, openStream, openFields, hreturned]
    | rpcError =>
        refine settled_setPc (settled_teardown hopen hconn) t .idle ?_
        simp [teardown]
    | otherError =>
        refine settled_setPc hopen t .idle ?_
        simp [openFields, hconn]

theorem isCurrent_eq_false
    {w : World} {g : Gen}
    (hother : w.client.streamCall ≠ some g) :
    isCurrent g w = false := by
  simp [isCurrent, hother]

theorem settled_setConsumer
    {w : World} (h : Settled w) {g : Gen} (pc : ConsumerPc)
    (hg : g < w.nextGen) (hother : w.client.streamCall ≠ some g) :
    Settled (setConsumer g pc w) := by
  refine { h with unopened := ?_, reading := ?_ }
  · intro g' hg'
    have hne : g' ≠ g := by
      rintro rfl
      exact absurd hg (Nat.not_lt.mpr hg')
    simpa [setConsumer, hne] using h.unopened g' hg'
  · intro g' hstream
    have hne : g' ≠ g := by
      rintro rfl
      exact hother hstream
    simpa [setConsumer, hne] using h.reading g' hstream

theorem settled_step
    {w w' : World} {label : Label}
    (hfresh : Fresh w) (h : Settled w) (hok : QuietSettles w label)
    (hstep : step w label = some w') :
    Settled w' := by
  obtain ⟨hquiet, hsettles⟩ := hok
  cases stepCase_of_step hstep with
  | callConnect t hpc =>
      refine settled_setPc h t _ fun _ => ?_
      split_ifs <;> simp [ConnectPc.holds]
  | readConnected t hpc =>
      refine settled_setPc h t _ fun hconn => ?_
      simp [hconn, ConnectPc.holds]
  | staleTeardown t hpc =>
      have hconn : w.client.connected = false := by
        by_contra hne
        obtain ⟨g, -, -, hstale⟩ := h.connected (by simpa using hne)
        exact hstale t hpc
      exact settled_setPc (settled_teardown h hconn) t _ (by simp [teardown])
  | connectSection t outcome hpc => exact settled_connectSection h t outcome
  | eventSeen t g hpc hset =>
      exact settled_setPc h t _ fun _ => ⟨by simp, by simp [hpc, ConnectPc.holds]⟩
  | waitTimeout t g hpc =>
      exact settled_setPc h t _ fun _ => ⟨by simp, by simp [hpc, ConnectPc.holds]⟩
  | finishSection t g hpc =>
      unfold finishSection
      split_ifs with harb
      · have hstale := hsettles g hpc harb
        have hstream : w.client.streamCall = some g := by
          simp only [arbitrated, Bool.and_eq_true, decide_eq_true_eq] at harb
          exact harb.1.1.1
        refine { h with connected := fun _ => ⟨g, hstream, ?_, ?_⟩, returned := fun _ => rfl }
        · intro t' hg
          by_cases ht : t' = t
          · simp [returnFrom, setPc, ht, ConnectPc.holds] at hg
          · have hg' : (w.threads t').holds = some g := by
              simpa [returnFrom, setPc, ht] using hg
            exact ht (hfresh.holdsOnce t' t g hg' (by rw [hpc]; rfl))
        · intro t'
          by_cases ht : t' = t
          · simp [returnFrom, setPc, ht]
          · simpa [returnFrom, setPc, ht] using hstale t'
      · exact settled_setPc h t _ fun _ => ⟨by simp, by simp [hpc, ConnectPc.holds]⟩
  | expectedTeardown t g hpc =>
      unfold teardownExpected
      split_ifs with hstream
      · have hconn : w.client.connected = false := by
          by_contra hne
          obtain ⟨g', hstream', hholds, -⟩ := h.connected (by simpa using hne)
          obtain rfl := Option.some.inj (hstream.symm.trans hstream')
          exact hholds t (by rw [hpc]; rfl)
        exact settled_setPc (settled_teardown h hconn) t _ (by simp [teardown])
      · exact settled_setPc h t _ fun _ => ⟨by simp, by simp [ConnectPc.holds]⟩
  | disconnect t hpc => exact absurd hquiet id
  | response g r hg hpc =>
      unfold responseSection
      split_ifs with hcur
      · cases r <;> exact { h with }
      · have hother : w.client.streamCall ≠ some g := by
          intro hstream
          simp [isCurrent, hstream, (hfresh.stream g hstream).2.2] at hcur
        have hset := settled_setConsumer h .leaving (hfresh.completed g hg) hother
        cases r <;> exact { hset with }
  | streamRaises g hg hpc =>
      have hother : w.client.streamCall ≠ some g :=
        fun hstream => (hfresh.stream g hstream).2.1 hquiet
      rw [exceptionSection, isCurrent_eq_false hother]
      exact settled_setConsumer h _ (hfresh.completed g hg) hother
  | streamEnds g hg hpc =>
      have hother : w.client.streamCall ≠ some g :=
        fun hstream => (hfresh.stream g hstream).2.1 hquiet
      exact settled_setConsumer h _ (hfresh.completed g hg) hother
  | finallySection g hg hpc =>
      have hother : w.client.streamCall ≠ some g := by
        intro hstream
        simp [h.reading g hstream] at hpc
      rw [finallySection, isCurrent_eq_false hother]
      exact settled_setConsumer h _ (hfresh.completed g hg) hother

/-- The open connection is the same in both worlds. -/
structure SameConnection (w w' : World) : Prop where
  connected : w'.client.connected = w.client.connected
  closed : w'.client.closed = w.client.closed
  channel : w'.client.channel = w.client.channel
  nextGen : w'.nextGen = w.nextGen

/-- Once connected, no step touches the connection. -/
theorem sameConnection_step
    {w w' : World} {label : Label}
    (h : Settled w) (hok : QuietSettles w label)
    (hconn : w.client.connected = true) (hstep : step w label = some w') :
    SameConnection w w' := by
  obtain ⟨g₀, hstream, hholds, hstale⟩ := h.connected hconn
  cases stepCase_of_step hstep with
  | callConnect t hpc => exact ⟨rfl, rfl, rfl, rfl⟩
  | readConnected t hpc => exact ⟨rfl, rfl, rfl, rfl⟩
  | staleTeardown t hpc => exact absurd hpc (hstale t)
  | connectSection t outcome hpc =>
      unfold connectSection
      rw [if_pos hconn]
      exact ⟨rfl, rfl, rfl, rfl⟩
  | eventSeen t g hpc hset => exact ⟨rfl, rfl, rfl, rfl⟩
  | waitTimeout t g hpc => exact ⟨rfl, rfl, rfl, rfl⟩
  | finishSection t g hpc =>
      unfold finishSection
      split_ifs
      · exact ⟨hconn.symm, rfl, rfl, rfl⟩
      · exact ⟨rfl, rfl, rfl, rfl⟩
  | expectedTeardown t g hpc =>
      have hother : w.client.streamCall ≠ some g := by
        intro hg
        obtain rfl := Option.some.inj (hstream.symm.trans hg)
        exact hholds t (by rw [hpc]; rfl)
      rw [teardownExpected, if_neg hother]
      exact ⟨rfl, rfl, rfl, rfl⟩
  | disconnect t hpc => exact absurd hok.1 id
  | response g r hg hpc =>
      unfold responseSection
      split_ifs <;> cases r <;> exact ⟨rfl, rfl, rfl, rfl⟩
  | streamRaises g hg hpc =>
      unfold exceptionSection
      split_ifs <;> exact ⟨rfl, rfl, rfl, rfl⟩
  | streamEnds g hg hpc => exact ⟨rfl, rfl, rfl, rfl⟩
  | finallySection g hg hpc =>
      have hother : w.client.streamCall ≠ some g := by
        intro hg'
        simp [h.reading g hg'] at hpc
      rw [finallySection, isCurrent_eq_false hother]
      exact ⟨rfl, rfl, rfl, rfl⟩

theorem settled_of_reaches
    {w : World} (h : Reaches step QuietSettles {} w) :
    Settled w :=
  h.invariant_with settled_init (fun _ hrun => fresh_of_reaches hrun)
    fun _ _ _ hfresh hinv hok hstep => settled_step hfresh hinv hok hstep

/-- `w'` still has the connection of `w`, and a `connect` that enters its section keeps it. -/
structure StaysEstablished (w w' : World) : Prop where
  isConnected : w'.client.isConnected = true
  channel : w'.client.channel = w.client.channel
  returns : ∀ t outcome w'', step w' (.connectSection t outcome) = some w'' →
    w''.nextGen = w'.nextGen ∧ w''.client = w'.client ∧ w''.threads t = .idle ∧
      t ∈ w''.returned

/--
Once a `connect` has returned, the connection stays, in every quiet run in which no
`connect` becomes established while another one stands before its stale teardown.
-/
theorem established_of_settlesAlone
    (w w' : World)
    (h : Reaches step QuietSettles {} w) (hreturned : w.returned ≠ [])
    (h' : Reaches step QuietSettles w w') :
    StaysEstablished w w' := by
  have hconn : w.client.connected = true := (settled_of_reaches h).returned hreturned
  have hsame : SameConnection w w' := by
    induction h' with
    | refl => exact ⟨rfl, rfl, rfl, rfl⟩
    | @tail u v a hrun hok hstep ih =>
        have hall := h.trans hrun
        have hlast := sameConnection_step (settled_of_reaches hall) hok
          (ih.connected.trans hconn) hstep
        exact ⟨hlast.connected.trans ih.connected, hlast.closed.trans ih.closed,
          hlast.channel.trans ih.channel, hlast.nextGen.trans ih.nextGen⟩
  have hconn' : w'.client.connected = true := hsame.connected.trans hconn
  have hfresh' := fresh_of_reaches (h.trans h')
  obtain ⟨g, hstream, -⟩ := (settled_of_reaches (h.trans h')).connected hconn'
  refine ⟨?_, hsame.channel, ?_⟩
  · simp [ClientFields.isConnected, hconn', (hfresh'.stream g hstream).2.2]
  · intro t outcome w'' hstep
    cases stepCase_of_step hstep
    unfold connectSection
    rw [if_pos hconn']
    exact ⟨rfl, rfl, by simp [returnFrom, setPc], List.mem_cons_self⟩

/-- One thread connects, and a second call returns on the same channel. -/
theorem established_of_settlesAlone_second_call :
    ∃ w w', w.returned = [0] ∧ w'.returned = [1, 0] ∧ StaysEstablished w w' := by
  have hfirst : ∃ w, Reaches step QuietSettles {} w ∧ w.returned = [0] ∧
      ∃ w', Reaches step QuietSettles w w' ∧ w'.returned = [1, 0] := by
    refine ⟨_, ((((Reaches.refl.tail (a := .callConnect 0) ⟨trivial, trivial⟩ rfl).tail
      (a := .connectSection 0 .returns) ⟨trivial, trivial⟩ rfl).tail
      (a := .response 0 (.arbitration 0)) ⟨trivial, trivial⟩ rfl).tail
      (a := .eventSeen 0) ⟨trivial, trivial⟩ rfl).tail
      (a := .finishSection 0) ⟨trivial, ?_⟩ rfl, rfl,
      _, ((Reaches.refl.tail (a := .callConnect 1) ⟨trivial, trivial⟩ rfl).tail
      (a := .readConnected 1) ⟨trivial, trivial⟩ rfl).tail
      (a := .connectSection 1 .returns) ⟨trivial, trivial⟩ rfl, rfl⟩
    intro g _ _ t
    rcases t with _ | t <;> exact nofun
  obtain ⟨w, h, hret, w', h', hret'⟩ := hfirst
  exact ⟨w, w', hret, hret', established_of_settlesAlone w w' h (by simp [hret]) h'⟩

/--
A second `connect` reads the unconnected client of the first one, which then gets
connected and returns; the second one tears that connection down.
-/
theorem stale_teardown_hits :
    ¬ ∀ w w', Reaches step Quiet {} w → w.returned ≠ [] → Reaches step Quiet w w' →
      StaysEstablished w w' := by
  intro hall
  have hrun : ∃ w, execute step {}
      [.callConnect 0, .connectSection 0 .returns, .callConnect 1, .readConnected 1,
        .response 0 (.arbitration 0), .eventSeen 0, .finishSection 0] = some w ∧
      w.returned = [0] ∧
      ∃ w', step w (.staleTeardown 1) = some w' ∧ w'.client.isConnected = false :=
    ⟨_, rfl, rfl, _, rfl, rfl⟩
  obtain ⟨w, hexec, hret, w', hstep, hconn⟩ := hrun
  have hquiet : Reaches step Quiet {} w := by
    refine reaches_of_execute ?_ hexec
    intro u a ha
    simp only [List.mem_cons, List.not_mem_nil, or_false] at ha
    rcases ha with rfl | rfl | rfl | rfl | rfl | rfl | rfl <;> exact trivial
  have hstays := hall w w' hquiet (by simp [hret])
    (Reaches.refl.tail (a := .staleTeardown 1) trivial hstep)
  simp [hstays.isConnected] at hconn

end SyncClient
end P4Net
