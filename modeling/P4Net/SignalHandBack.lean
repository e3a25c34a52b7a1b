import P4Net.SignalHandlers

/-!
# Handing signals back to the application

In every run whose steps meet `HandsBack`, the handlers of the application survive: p4net
never records its own handler as the previous one, and each signal it takes is delivered
again with the handler of the application in force.

* `SignalOk` : what holds of the tables for one signal.  A signal without an entry in
  `_PREV_HANDLERS` has the handler of the application.
* `installTurn_ok`, `redeliver_ok`, `resetSignal_ok` : what the functions of `_cleanup` do to it.
* `Inv` : the invariant of such runs, which also follows the cleanups in progress.
* `handedBack_of_run` : the result for runs.
* `handler_lost` : a closed event loop takes the handler of the application with it.
-/

namespace P4Net
namespace Signals

open Runs

variable {H : Signal → AppHandler}

/-! ### One signal -/

/-- The tables of one signal, when the application had installed `H`. -/
structure SignalOk (H : Signal → AppHandler) (s : State) (sig : Signal) : Prop where
  recorded : ∀ h, s.prevHandlers sig = some h → h = .app (H sig)
  unrecorded : s.prevHandlers sig = none → s.handler sig = .app (H sig)
  owned : ∀ loop, s.signalLoops sig = some loop → s.prevHandlers sig ≠ none
  callbacks : ∀ loop, (s.loops loop).callbacks sig = true →
    s.signalLoops sig = some loop ∧ (s.loops loop).closed = false

/-- `t` differs from `s` in the handlers of one signal only. -/
structure Touches (sig : Signal) (s t : State) : Prop where
  handler : ∀ other, other ≠ sig → t.handler other = s.handler other
  prevHandlers : ∀ other, other ≠ sig → t.prevHandlers other = s.prevHandlers other
  signalLoops : ∀ other, other ≠ sig → t.signalLoops other = s.signalLoops other
  callbacks : ∀ other, other ≠ sig → ∀ loop,
    (t.loops loop).callbacks other = (s.loops loop).callbacks other
  closed : ∀ loop, (t.loops loop).closed = (s.loops loop).closed
  running : t.running = s.running
  locked : t.locked = s.locked
  signalTasks : t.signalTasks = s.signalTasks
  frames : t.frames = s.frames
  owed : t.owed = s.owed
  redeliveries : t.redeliveries = s.redeliveries

theorem Touches.refl
    (sig : Signal) (s : State) :
    Touches sig s s := by
  constructor <;> intros <;> rfl

theorem Touches.trans
    {sig : Signal} {s t u : State}
    (h : Touches sig s t) (h' : Touches sig t u) :
    Touches sig s u where
  handler := fun other hne => (h'.handler other hne).trans (h.handler other hne)
  prevHandlers := fun other hne => (h'.prevHandlers other hne).trans (h.prevHandlers other hne)
  signalLoops := fun other hne => (h'.signalLoops other hne).trans (h.signalLoops other hne)
  callbacks := fun other hne loop =>
    (h'.callbacks other hne loop).trans (h.callbacks other hne loop)
  closed := fun loop => (h'.closed loop).trans (h.closed loop)
  running := h'.running.trans h.running
  locked := h'.locked.trans h.locked
  signalTasks := h'.signalTasks.trans h.signalTasks
  frames := h'.frames.trans h.frames
  owed := h'.owed.trans h.owed
  redeliveries := h'.redeliveries.trans h.redeliveries

/-- The other signal is as before. -/
theorem SignalOk.of_touches
    {sig other : Signal} {s t : State}
    (h : Touches sig s t) (hne : other ≠ sig) (hok : SignalOk H s other) :
    SignalOk H t other where
  recorded := by
    rw [h.prevHandlers other hne]
    exact hok.recorded
  unrecorded := by
    rw [h.prevHandlers other hne, h.handler other hne]
    exact hok.unrecorded
  owned := by
    rw [h.prevHandlers other hne, h.signalLoops other hne]
    exact hok.owned
  callbacks := by
    intro loop
    rw [h.callbacks other hne loop, h.signalLoops other hne, h.closed loop]
    exact hok.callbacks loop

theorem touches_setHandler
    (s : State) (sig : Signal) (h : Handler) :
    Touches sig s (s.setHandler sig h) := by
  constructor <;> intros <;> simp_all [State.setHandler]

theorem touches_setPrev
    (s : State) (sig : Signal) (h : Option Handler) :
    Touches sig s (s.setPrev sig h) := by
  constructor <;> intros <;> simp_all [State.setPrev]

theorem touches_setOwner
    (s : State) (sig : Signal) (loop : Option Nat) :
    Touches sig s (s.setOwner sig loop) := by
  constructor <;> intros <;> simp_all [State.setOwner]

theorem touches_setCallback
    (s : State) (sig : Signal) (loop : Nat) (b : Bool) :
    Touches sig s (s.updateLoop loop
      (fun l => { l with callbacks := Function.update l.callbacks sig b })) := by
  constructor
  case callbacks =>
    intro other hne loop'
    by_cases hloop : loop' = loop
    · subst hloop
      simp [State.updateLoop, hne]
    · simp [State.updateLoop, hloop]
  case closed =>
    intro loop'
    by_cases hloop : loop' = loop
    · subst hloop
      simp [State.updateLoop]
    · simp [State.updateLoop, hloop]
  all_goals intros; rfl

theorem touches_removeSignalHandler
    (s : State) (loop : Nat) (sig : Signal) (fails : Bool) :
    Touches sig s (removeSignalHandler s loop sig fails).1 := by
  unfold removeSignalHandler
  by_cases hcallback : (s.loops loop).callbacks sig = true
  · rw [if_pos hcallback]
    have hdel := touches_setCallback s sig loop false
    cases fails with
    | true => exact hdel
    | false => exact hdel.trans (touches_setHandler _ sig _)
  · rw [if_neg hcallback]
    exact Touches.refl sig s

/-- A removal deletes the callback, and resets the handler unless it failed. -/
theorem removeSignalHandler_spec
    {s : State} {loop : Nat} {sig : Signal}
    (honly : ∀ l, (s.loops l).callbacks sig = true → l = loop) (fails : Bool) :
    (removeSignalHandler s loop sig fails).1.prevHandlers = s.prevHandlers ∧
      (removeSignalHandler s loop sig fails).1.signalLoops = s.signalLoops ∧
      (∀ l, ((removeSignalHandler s loop sig fails).1.loops l).callbacks sig = false) ∧
      (removeSignalHandler s loop sig fails).1.handler sig =
        if (s.loops loop).callbacks sig && !fails then .app (asyncioDefault sig)
        else s.handler sig := by
  unfold removeSignalHandler
  by_cases hcallback : (s.loops loop).callbacks sig = true
  · have hcleared : ∀ l, ((s.updateLoop loop (fun l =>
        { l with callbacks := Function.update l.callbacks sig false })).loops l).callbacks sig =
          false := by
      intro l
      by_cases hl : l = loop
      · subst hl
        simp [State.updateLoop]
      · simpa [State.updateLoop, hl] using fun h => hl (honly l h)
    rw [if_pos hcallback]
    cases fails with
    | true => exact ⟨rfl, rfl, hcleared, by simp [State.updateLoop]⟩
    | false => exact ⟨rfl, rfl, hcleared, by simp [State.setHandler, hcallback]⟩
  · rw [if_neg hcallback]
    refine ⟨rfl, rfl, ?_, by simp [hcallback]⟩
    intro l
    by_contra hl
    have hl : (s.loops l).callbacks sig = true := by simpa using hl
    exact hcallback (honly l hl ▸ hl)

/-! ### `install_handlers` -/

theorem touches_dropClosedOwner
    (s : State) (sig : Signal) :
    Touches sig s (dropClosedOwner s sig) := by
  unfold dropClosedOwner
  cases s.signalLoops sig with
  | none => exact Touches.refl sig s
  | some owner =>
      by_cases hclosed : (s.loops owner).closed = true
      · simp only [hclosed, if_true]
        exact (touches_setOwner s sig none).trans (touches_setPrev _ sig none)
      · simp only [hclosed]
        exact Touches.refl sig s

/-- Forgetting a closed loop is harmless where the handler of the application is in force. -/
theorem dropClosedOwner_ok
    {s : State} {sig : Signal} (hok : SignalOk H s sig)
    (hclosed : ∀ owner, s.signalLoops sig = some owner → (s.loops owner).closed = true →
      s.handler sig = .app (H sig)) :
    SignalOk H (dropClosedOwner s sig) sig ∧
      (dropClosedOwner s sig).handler = s.handler ∧
      ((dropClosedOwner s sig).signalLoops sig = none →
        ∀ owner, s.signalLoops sig = some owner → (s.loops owner).closed = true) := by
  unfold dropClosedOwner
  cases howner : s.signalLoops sig with
  | none => exact ⟨hok, rfl, fun _ owner h => by cases h⟩
  | some owner =>
      by_cases hc : (s.loops owner).closed = true
      · dsimp only
        rw [if_pos hc]
        refine ⟨⟨?_, ?_, ?_, ?_⟩, rfl, ?_⟩
        · simp [State.setPrev]
        · intro _
          exact hclosed owner howner hc
        · simp [State.setPrev, State.setOwner]
        · intro loop hcallback
          obtain ⟨hloop, hopen⟩ := hok.callbacks loop hcallback
          obtain rfl : owner = loop := Option.some.inj (howner.symm.trans hloop)
          rw [hc] at hopen
          cases hopen
        · rintro _ _ ⟨⟩
          exact hc
      · dsimp only
        rw [if_neg hc]
        refine ⟨hok, rfl, ?_⟩
        intro hnone
        rw [howner] at hnone
        cases hnone

/-- The state of a turn once the signal has no owner. -/
structure Released (H : Signal → AppHandler) (s t : State) (sig : Signal) : Prop where
  touches : Touches sig s t
  prevHandlers : t.prevHandlers = s.prevHandlers
  signalLoops : t.signalLoops sig = none
  callbacks : ∀ loop, (t.loops loop).callbacks sig = false
  handler : t.handler sig = .app (H sig) ∨ s.signalLoops sig = none ∧ t.handler = s.handler

theorem releaseOwner_spec
    {s : State} {sig : Signal} (hok : SignalOk H s sig) (fails : InstallFails) :
    (∀ t, releaseOwner s sig (.app (H sig)) fails = .ok t → Released H s t sig) ∧
    ∀ t, releaseOwner s sig (.app (H sig)) fails = .error t →
      Touches sig s t ∧ SignalOk H t sig ∧ t.signalLoops sig ≠ none := by
  unfold releaseOwner
  cases howner : s.signalLoops sig with
  | none =>
      refine ⟨?_, fun t h => by cases h⟩
      intro t h
      obtain rfl := Except.ok.inj h
      refine ⟨Touches.refl sig s, rfl, howner, ?_, Or.inr ⟨howner, rfl⟩⟩
      intro loop
      by_contra hcallback
      have hloop := (hok.callbacks loop (by simpa using hcallback)).1
      rw [howner] at hloop
      cases hloop
  | some owner =>
      have honly : ∀ l, (s.loops l).callbacks sig = true → l = owner := by
        intro l hl
        exact Option.some.inj ((hok.callbacks l hl).1.symm.trans howner)
      obtain ⟨hprev, hloops, hcleared, -⟩ := removeSignalHandler_spec honly fails.remove
      have htouches := touches_removeSignalHandler s owner sig fails.remove
      dsimp only
      by_cases hraise : ((removeSignalHandler s owner sig fails.remove).2 || fails.restore) = true
      · -- The loop keeps the signal, and so does the entry of the previous handler.
        rw [if_pos hraise]
        refine ⟨fun t h => (by cases h), ?_⟩
        intro t h
        obtain rfl := Except.error.inj h
        refine ⟨htouches, ⟨?_, ?_, ?_, ?_⟩, ?_⟩
        · rw [hprev]
          exact hok.recorded
        · rw [hprev]
          exact fun hnone => absurd hnone (hok.owned owner howner)
        · rw [hprev, hloops]
          exact hok.owned
        · intro loop hcallback
          rw [hcleared loop] at hcallback
          cases hcallback
        · rw [hloops, howner]
          simp
      · rw [if_neg hraise]
        refine ⟨?_, fun t h => by cases h⟩
        intro t h
        obtain rfl := Except.ok.inj h
        refine ⟨?_, hprev, by simp [State.setOwner], hcleared,
          Or.inl (by simp [State.setOwner, State.setHandler])⟩
        exact htouches.trans ((touches_setHandler _ sig _).trans (touches_setOwner _ sig none))

/-- A signal without an owner whose previous handler is recorded. -/
structure Claimed (H : Signal → AppHandler) (s : State) (sig : Signal) : Prop where
  prevHandlers : s.prevHandlers sig = some (.app (H sig))
  signalLoops : s.signalLoops sig = none
  callbacks : ∀ loop, (s.loops loop).callbacks sig = false

theorem Claimed.setOwn
    {s : State} {sig : Signal} (h : Claimed H s sig) :
    SignalOk H (s.setHandler sig .own) sig where
  recorded := fun previous hprev => Option.some.inj (hprev.symm.trans h.prevHandlers)
  unrecorded := fun hnone => by cases h.prevHandlers.symm.trans hnone
  owned := fun loop hloop => by cases h.signalLoops.symm.trans hloop
  callbacks := fun loop hcallback => by cases (h.callbacks loop).symm.trans hcallback

/-- Dropping the entry is harmless where the handler of the application is in force. -/
theorem Claimed.drop
    {s : State} {sig : Signal} (h : Claimed H s sig) (hhandler : s.handler sig = .app (H sig)) :
    SignalOk H (s.setPrev sig none) sig where
  recorded := by simp [State.setPrev]
  unrecorded := fun _ => hhandler
  owned := fun loop hloop => by cases h.signalLoops.symm.trans hloop
  callbacks := fun loop hcallback => by cases (h.callbacks loop).symm.trans hcallback

theorem registerOwn_spec
    {s : State} {sig : Signal} (h : Claimed H s sig)
    (hrun : ∀ loop, s.running = some loop → (s.loops loop).closed = false)
    (fails : InstallFails) :
    (∀ t, registerOwn s sig fails = .ok t → Touches sig s t ∧ SignalOk H t sig) ∧
    ∀ t, registerOwn s sig fails = .error t → t = s ∧ fails.register = true := by
  unfold registerOwn
  cases hrunning : s.running with
  | none =>
      dsimp only
      by_cases hfails : fails.register = true
      · rw [if_pos hfails]
        refine ⟨fun t ht => (by cases ht), fun t ht => ⟨(Except.error.inj ht).symm, hfails⟩⟩
      · rw [if_neg hfails]
        refine ⟨?_, fun t ht => by cases ht⟩
        intro t ht
        obtain rfl := Except.ok.inj ht
        exact ⟨touches_setHandler s sig .own, h.setOwn⟩
  | some loop =>
      have hopen := hrun loop hrunning
      unfold addSignalHandler
      dsimp only
      by_cases hfails : fails.register = true
      · simp only [hfails, Bool.or_true, if_true]
        refine ⟨fun t ht => (by cases ht), fun t ht => ⟨(Except.error.inj ht).symm, trivial⟩⟩
      · simp only [hopen, hfails, Bool.or_self]
        refine ⟨?_, fun t ht => by cases ht⟩
        intro t ht
        obtain rfl := Except.ok.inj ht
        refine ⟨?_, ⟨?_, ?_, ?_, ?_⟩⟩
        · exact (touches_setCallback s sig loop true).trans
            ((touches_setHandler _ sig _).trans (touches_setOwner _ sig (some loop)))
        · exact fun previous hprev => Option.some.inj (hprev.symm.trans h.prevHandlers)
        · exact fun hnone => by cases h.prevHandlers.symm.trans hnone
        · exact fun _ _ hnone => by cases h.prevHandlers.symm.trans hnone
        · intro loop' hcallback
          by_cases hloop : loop' = loop
          · subst hloop
            exact ⟨by simp [State.setOwner],
              by simpa [State.setOwner, State.setHandler, State.updateLoop] using hopen⟩
          · have hcallback' : (s.loops loop').callbacks sig = true := by
              simpa [State.setOwner, State.setHandler, State.updateLoop, hloop] using hcallback
            rw [h.callbacks loop'] at hcallback'
            cases hcallback'

theorem touches_recoverTurn
    (s : State) (sig : Signal) (fails : InstallFails) :
    Touches sig s (recoverTurn s sig fails) := by
  unfold recoverTurn
  split_ifs
  · exact touches_setHandler s sig .own
  · exact touches_setPrev s sig none
  · exact Touches.refl sig s

/-- A turn keeps the tables of its signal and changes nothing else. -/
theorem installTurn_ok
    {s : State} {sig : Signal} (hok : SignalOk H s sig)
    (hrun : ∀ loop, s.running = some loop → (s.loops loop).closed = false)
    {fails : InstallFails}
    (hclosed : ∀ owner, s.signalLoops sig = some owner → (s.loops owner).closed = true →
      s.handler sig = .app (H sig))
    (hfails : s.running ≠ none → fails.register = true → fails.fallback = true →
      (∀ owner, s.signalLoops sig = some owner → (s.loops owner).closed = true) →
      s.handler sig = .app (H sig)) :
    Touches sig s (installTurn s sig fails) ∧ SignalOk H (installTurn s sig fails) sig := by
  obtain ⟨hok₀, hhandler₀, hnone₀⟩ := dropClosedOwner_ok hok hclosed
  have htouches₀ := touches_dropClosedOwner s sig
  unfold installTurn
  generalize dropClosedOwner s sig = s₀ at hok₀ hhandler₀ hnone₀ htouches₀
  dsimp only
  by_cases hdone : ((s₀.prevHandlers sig).isSome && s₀.signalLoops sig == s₀.running) = true
  · rw [if_pos hdone]
    exact ⟨htouches₀, hok₀⟩
  rw [if_neg hdone]
  have hprevious : (s₀.prevHandlers sig).getD (s₀.handler sig) = .app (H sig) := by
    cases hprev : s₀.prevHandlers sig with
    | none => exact hok₀.unrecorded hprev
    | some previous => exact hok₀.recorded previous hprev
  rw [hprevious]
  obtain ⟨hreleased, hkept⟩ := releaseOwner_spec hok₀ fails
  cases hrelease : releaseOwner s₀ sig (.app (H sig)) fails with
  | error t =>
      obtain ⟨htouches, hokt, howner⟩ := hkept t hrelease
      simp only [bind, Except.bind, recoverTurn, Option.isNone_iff_eq_none, howner, if_false]
      exact ⟨htouches₀.trans htouches, hokt⟩
  | ok t =>
      have hrel := hreleased t hrelease
      have htouches := htouches₀.trans (hrel.touches.trans
        (touches_setPrev t sig (some (.app (H sig)))))
      have hclaimed : Claimed H (t.setPrev sig (some (.app (H sig)))) sig :=
        ⟨by simp [State.setPrev], hrel.signalLoops, hrel.callbacks⟩
      obtain ⟨hregistered, hfailed⟩ := registerOwn_spec hclaimed
        (fun loop hloop => (htouches.closed loop).trans (hrun loop (htouches.running ▸ hloop)))
        fails
      simp only [bind, Except.bind]
      cases hregister : registerOwn (t.setPrev sig (some (.app (H sig)))) sig fails with
      | ok u =>
          obtain ⟨htouches', hoku⟩ := hregistered u hregister
          exact ⟨htouches.trans htouches', hoku⟩
      | error u =>
          obtain ⟨rfl, hregisterFails⟩ := hfailed u hregister
          refine ⟨htouches.trans (touches_recoverTurn _ sig fails), ?_⟩
          dsimp only
          rw [recoverTurn, if_pos (by rw [hclaimed.signalLoops]; rfl)]
          have hrunning : (t.setPrev sig (some (.app (H sig)))).running = s.running :=
            htouches.running
          rw [hrunning]
          by_cases hfallback : (s.running.isSome && !fails.fallback) = true
          · rw [if_pos hfallback]
            exact hclaimed.setOwn
          · -- Nothing was registered: the entry goes, and must no longer be needed.
            rw [if_neg hfallback]
            refine hclaimed.drop ?_
            rcases hrel.handler with hrestored | ⟨hnone, hhandler⟩
            · exact hrestored
            · show t.handler sig = _
              rw [hhandler, hhandler₀]
              cases hloop : s.running with
              | none =>
                  -- Outside a loop a turn goes on only where nothing was recorded.
                  have hunrecorded : s₀.prevHandlers sig = none := by
                    by_contra hsome
                    have hrun₀ : s₀.running = none := htouches₀.running.trans hloop
                    simp [hnone, hrun₀, Option.isSome_iff_ne_none.mpr hsome] at hdone
                  rw [← hhandler₀]
                  exact hok₀.unrecorded hunrecorded
              | some loop =>
                  refine hfails (by simp [hloop]) hregisterFails ?_ (hnone₀ hnone)
                  simpa [hloop] using hfallback

/-! ### `_redeliver` -/

/-- The removal from the loop resets the process handler. -/
def resetByRemoval (s : State) (sig : Signal) (fails : ResetFails) : Bool :=
  match s.signalLoops sig with
  | some loop => (s.loops loop).callbacks sig && !fails.remove
  | none => false

/--
A redelivery finds the entry of the previous handler and can install it.  Without an entry it
installs `SIG_DFL`; where it cannot install anything, the handler in force stays.
-/
def Restores (H : Signal → AppHandler) (s : State) (sig : Signal) (fails : ResetFails) : Prop :=
  if fails.restore then
    if resetByRemoval s sig fails then asyncioDefault sig = H sig
    else s.handler sig = .app (H sig)
  else s.prevHandlers sig = none → H sig = .sigDfl

/-- The state of `_redeliver` before the previous handler is installed. -/
def unregister (s : State) (sig : Signal) (fails : ResetFails) : State :=
  match s.signalLoops sig with
  | some loop =>
      (removeSignalHandler ((s.setPrev sig none).setOwner sig none) loop sig fails.remove).1
  | none => (s.setPrev sig none).setOwner sig none

theorem touches_unregister
    (s : State) (sig : Signal) (fails : ResetFails) :
    Touches sig s (unregister s sig fails) := by
  have htouches := (touches_setPrev s sig none).trans (touches_setOwner _ sig none)
  unfold unregister
  cases s.signalLoops sig with
  | none => exact htouches
  | some loop => exact htouches.trans (touches_removeSignalHandler _ loop sig _)

theorem unregister_spec
    {s : State} {sig : Signal} (hok : SignalOk H s sig) (fails : ResetFails) :
    (unregister s sig fails).prevHandlers sig = none ∧
      (unregister s sig fails).signalLoops sig = none ∧
      (∀ loop, ((unregister s sig fails).loops loop).callbacks sig = false) ∧
      (unregister s sig fails).handler sig =
        if resetByRemoval s sig fails then .app (asyncioDefault sig) else s.handler sig := by
  have hprev : ((s.setPrev sig none).setOwner sig none).prevHandlers sig = none := by
    simp [State.setPrev, State.setOwner]
  have howner : ((s.setPrev sig none).setOwner sig none).signalLoops sig = none := by
    simp [State.setOwner]
  unfold unregister resetByRemoval
  cases hloop : s.signalLoops sig with
  | none =>
      refine ⟨hprev, howner, ?_, rfl⟩
      intro loop
      refine Bool.eq_false_iff.mpr fun hcallback => ?_
      have hsome := (hok.callbacks loop hcallback).1
      rw [hloop] at hsome
      cases hsome
  | some loop =>
      obtain ⟨hprev', howner', hcleared, hhandler⟩ :=
        removeSignalHandler_spec (s := (s.setPrev sig none).setOwner sig none)
          (fun l hl => Option.some.inj ((hok.callbacks l hl).1.symm.trans hloop)) fails.remove
      refine ⟨?_, ?_, hcleared, hhandler⟩
      · rw [hprev', hprev]
      · rw [howner', howner]

/-- What `_redeliver` does: it logs one redelivery, and touches the tables of its signal. -/
structure Redelivers (H : Signal → AppHandler) (s t : State) (sig : Signal) (p : Progress) :
    Prop where
  other : ∀ sig', sig' ≠ sig → SignalOk H s sig' → SignalOk H t sig'
  ok : SignalOk H t sig
  closed : ∀ loop, (t.loops loop).closed = (s.loops loop).closed
  running : t.running = s.running
  signalTasks : t.signalTasks = s.signalTasks
  frames : t.frames = s.frames
  owed : t.owed = Function.update s.owed sig false
  redeliveries : t.redeliveries = ⟨sig, .app (H sig), p.registered, p.stopped⟩ :: s.redeliveries

/-- The state in which `_redeliver` sends the signal. -/
def restored (s : State) (sig : Signal) (fails : ResetFails) : State :=
  if fails.restore then unregister s sig fails
  else (unregister s sig fails).setHandler sig ((s.prevHandlers sig).getD (.app .sigDfl))

theorem redeliver_eq
    (s : State) (sig : Signal) (p : Progress) (fails : ResetFails) :
    redeliver s sig p fails =
      { restored s sig fails with
        owed := Function.update (restored s sig fails).owed sig false
        redeliveries := ⟨sig, (restored s sig fails).handler sig, p.registered, p.stopped⟩ ::
          (restored s sig fails).redeliveries } := by
  unfold redeliver restored unregister
  cases s.signalLoops sig <;> rfl

theorem touches_restored
    (s : State) (sig : Signal) (fails : ResetFails) :
    Touches sig s (restored s sig fails) := by
  unfold restored
  split_ifs
  · exact touches_unregister s sig fails
  · exact (touches_unregister s sig fails).trans (touches_setHandler _ sig _)

/-- The handler in force when the signal is sent again. -/
theorem handler_restored
    {s : State} {sig : Signal} (hok : SignalOk H s sig) {fails : ResetFails}
    (hrestores : Restores H s sig fails) :
    (restored s sig fails).handler sig = .app (H sig) := by
  have hhandler := (unregister_spec hok fails).2.2.2
  unfold restored
  unfold Restores at hrestores
  by_cases hfails : fails.restore = true
  · rw [if_pos hfails] at hrestores ⊢
    rw [hhandler]
    by_cases hreset : resetByRemoval s sig fails = true
    · rw [if_pos hreset] at hrestores ⊢
      rw [hrestores]
    · rw [if_neg hreset] at hrestores ⊢
      exact hrestores
  · rw [if_neg hfails] at hrestores ⊢
    have hprevious : (s.prevHandlers sig).getD (.app .sigDfl) = .app (H sig) := by
      cases hp : s.prevHandlers sig with
      | none => rw [hrestores hp]; rfl
      | some previous => exact hok.recorded previous hp
    simp [State.setHandler, hprevious]

theorem redeliver_ok
    {s : State} {sig : Signal} (hok : SignalOk H s sig) (p : Progress) {fails : ResetFails}
    (hrestores : Restores H s sig fails) :
    Redelivers H s (redeliver s sig p fails) sig p := by
  obtain ⟨hprev, howner, hcleared, -⟩ := unregister_spec hok fails
  have htouches := touches_restored s sig fails
  have hhandler := handler_restored hok hrestores
  have hsame : (restored s sig fails).prevHandlers = (unregister s sig fails).prevHandlers ∧
      (restored s sig fails).signalLoops = (unregister s sig fails).signalLoops ∧
      (restored s sig fails).loops = (unregister s sig fails).loops := by
    unfold restored
    split_ifs <;> exact ⟨rfl, rfl, rfl⟩
  rw [redeliver_eq]
  refine ⟨?_, ⟨?_, ?_, ?_, ?_⟩, htouches.closed, htouches.running, htouches.signalTasks,
    htouches.frames, ?_, ?_⟩
  · intro sig' hne hok'
    have hokT := hok'.of_touches htouches hne
    exact ⟨hokT.recorded, hokT.unrecorded, hokT.owned, hokT.callbacks⟩
  · intro h hh
    rw [hsame.1, hprev] at hh
    cases hh
  · exact fun _ => hhandler
  · intro loop hloop
    rw [hsame.2.1, howner] at hloop
    cases hloop
  · intro loop hcallback
    rw [hsame.2.2, hcleared loop] at hcallback
    cases hcallback
  · show Function.update (restored s sig fails).owed sig false = _
    rw [htouches.owed]
  · show _ :: (restored s sig fails).redeliveries = _
    rw [htouches.redeliveries, hhandler]

/-! ### `_reset_after_fork` -/

theorem touches_resetSignal
    (fails : Signal → ResetFails) (s : State) (sig : Signal) :
    Touches sig s (resetSignal fails s sig) := by
  unfold resetSignal
  cases s.signalLoops sig with
  | none => exact Touches.refl sig s
  | some loop =>
      have hremove := touches_removeSignalHandler s loop sig (fails sig).remove
      dsimp only
      by_cases hfails : (fails sig).restore = true
      · rw [if_pos hfails]
        exact hremove
      · rw [if_neg hfails]
        exact hremove.trans (touches_setHandler _ sig .own)

/-- In the child a signal has no owner, and keeps the entry of its previous handler. -/
structure Disowned (H : Signal → AppHandler) (s : State) (sig : Signal) : Prop where
  recorded : ∀ h, s.prevHandlers sig = some h → h = .app (H sig)
  unrecorded : s.prevHandlers sig = none → s.handler sig = .app (H sig)
  callbacks : ∀ loop, (s.loops loop).callbacks sig = false

theorem resetSignal_ok
    (fails : Signal → ResetFails) {s : State} {sig : Signal} (hok : SignalOk H s sig) :
    Disowned H (resetSignal fails s sig) sig := by
  unfold resetSignal
  cases hloop : s.signalLoops sig with
  | none =>
      refine ⟨hok.recorded, hok.unrecorded, fun loop => Bool.eq_false_iff.mpr fun hcallback => ?_⟩
      have hsome := (hok.callbacks loop hcallback).1
      rw [hloop] at hsome
      cases hsome
  | some loop =>
      have honly : ∀ l, (s.loops l).callbacks sig = true → l = loop := by
        intro l hl
        exact Option.some.inj ((hok.callbacks l hl).1.symm.trans hloop)
      obtain ⟨hprev, -, hcleared, -⟩ := removeSignalHandler_spec honly (fails sig).remove
      have howned : (removeSignalHandler s loop sig (fails sig).remove).1.prevHandlers sig ≠ none := by
        rw [hprev]
        exact hok.owned loop hloop
      have hrecorded : ∀ h, (removeSignalHandler s loop sig (fails sig).remove).1.prevHandlers sig =
          some h → h = .app (H sig) := by
        rw [hprev]
        exact hok.recorded
      dsimp only
      split_ifs
      · exact ⟨hrecorded, fun h => absurd h howned, hcleared⟩
      · exact ⟨hrecorded, fun h => absurd h howned, hcleared⟩

/-- The other signal of the child is as before. -/
theorem Disowned.of_touches
    {sig other : Signal} {s t : State}
    (h : Touches sig s t) (hne : other ≠ sig) (hdis : Disowned H s other) :
    Disowned H t other where
  recorded := by
    rw [h.prevHandlers other hne]
    exact hdis.recorded
  unrecorded := by
    rw [h.prevHandlers other hne, h.handler other hne]
    exact hdis.unrecorded
  callbacks := by
    intro loop
    rw [h.callbacks other hne loop]
    exact hdis.callbacks loop

theorem resetAfterFork_ok
    {s : State} (hok : ∀ sig, SignalOk H s sig) (fails : Signal → ResetFails) (sig : Signal) :
    SignalOk H (resetAfterFork s fails) sig := by
  have hint := touches_resetSignal fails s .sigint
  have hterm := touches_resetSignal fails (resetSignal fails s .sigint) .sigterm
  have hdis : Disowned H (resetSignal fails (resetSignal fails s .sigint) .sigterm) sig := by
    cases sig with
    | sigint => exact (resetSignal_ok fails (hok .sigint)).of_touches hterm (by decide)
    | sigterm =>
        exact resetSignal_ok fails ((hok .sigterm).of_touches hint (by decide))
  refine ⟨hdis.recorded, hdis.unrecorded, fun loop hloop => (by cases hloop), ?_⟩
  intro loop hcallback
  have hcleared := hdis.callbacks loop
  exact absurd (hcallback.symm.trans hcleared) (by decide)

/-! ### Runs -/

/-- The condition on one step under which p4net hands its signals back. -/
def HandsBack (H : Signal → AppHandler) (s : State) : Event → Prop
  | .install sig fails =>
      -- A turn meets no closed loop, and fails with its entry only while that is not needed.
      (∀ owner, s.signalLoops sig = some owner → (s.loops owner).closed = true →
        s.handler sig = .app (H sig)) ∧
      (s.running ≠ none → fails.register = true → fails.fallback = true →
        (∀ owner, s.signalLoops sig = some owner → (s.loops owner).closed = true) →
        s.handler sig = .app (H sig))
  | .stopLoop => ∀ sig, s.signalTasks sig = none
  | .deliver sig => s.handler sig = .own → s.locked = false
  | .deliverRaises _ _ => s.frames = [] ∧ ∀ sig, s.signalTasks sig = none
  | .finishFrame fails raises =>
      (∀ frame ∈ s.frames.head?, Restores H s frame.sig fails) ∧
        (raises = true → s.frames.tail = [])
  | .cancelCleanup sig => ∀ loop, s.signalTasks sig ≠ some ⟨loop, .created⟩
  | .finishCleanup sig fails raises =>
      Restores H s sig fails ∧
        (raises = true → ∀ other, other ≠ sig → s.signalTasks other = none)
  | _ => True

-- A second SIGTERM interrupts the cleanup for the first, and takes the entry with it.
example :
    (execute step (.init fun _ => .custom 0)
      [.install .sigterm {}, .deliver .sigterm, .deliver .sigterm,
        .finishFrame {} false, .finishFrame {} false]).map
      (fun s => s.redeliveries.map Redelivery.handler) =
      some [.app .sigDfl, .app (.custom 0)] := by
  decide

-- A SIGTERM whose cleanup a stopped loop does not finish leaves the next one unanswered.
example :
    (execute step (.init fun _ => .custom 0)
      [.startLoop 0, .install .sigterm {}, .deliver .sigterm, .readWakeup, .runCallback,
        .stopLoop, .startLoop 1, .install .sigterm {}, .deliver .sigterm, .readWakeup,
        .runCallback]).map (fun s => (s.owed .sigterm, s.redeliveries)) =
      some (true, []) := by
  decide

-- A SIGTERM inside `with _LOCK` finds its handler waiting for the lock.
example :
    (execute step (.init fun _ => .custom 0)
      [.install .sigterm {}, .lock, .deliver .sigterm]).map
      (fun s => ((step s .unlock).isSome, (step s .stepFrame).isSome, s.owed .sigterm)) =
      some (false, false, true) := by
  decide

/-- What holds in every state of a run whose steps all meet `HandsBack`. -/
structure Inv (H : Signal → AppHandler) (s : State) : Prop where
  signals : ∀ sig, SignalOk H s sig
  running : ∀ loop, s.running = some loop → (s.loops loop).closed = false ∧ s.frames = []
  /-- No activation waits for the lock of its own thread. -/
  unblocked : ∀ frame ∈ s.frames, frame.progress.isSome = true
  /-- Every entry of `_SIGNAL_TASKS` is a cleanup that the running loop can finish. -/
  tasks : ∀ sig task, s.signalTasks sig = some task →
    s.running = some task.loop ∧ task.phase ≠ .cancelled
  owed : ∀ sig, s.owed sig = true →
    (∃ frame ∈ s.frames, frame.sig = sig) ∨ s.signalTasks sig ≠ none
  redelivered : ∀ r ∈ s.redeliveries,
    r.handler = .app (H r.sig) ∧ r.stopped = r.registered

theorem inv_init
    (H : Signal → AppHandler) :
    Inv H (.init H) where
  signals := fun sig => ⟨fun h hh => (by cases hh), fun _ => rfl, fun loop hl => (by cases hl),
    fun loop hc => (by cases hc)⟩
  running := fun loop hl => by cases hl
  unblocked := fun frame hf => by cases hf
  tasks := fun sig task ht => by cases ht
  owed := fun sig ho => by cases ho
  redelivered := fun r hr => by cases hr

/-- A step that touches the tables of one signal keeps the invariant. -/
theorem Inv.of_touches
    {s t : State} {sig : Signal} (hinv : Inv H s) (h : Touches sig s t)
    (hok : SignalOk H t sig) :
    Inv H t where
  signals := by
    intro other
    by_cases hne : other = sig
    · exact hne ▸ hok
    · exact (hinv.signals other).of_touches h hne
  running := by
    rw [h.running, h.frames]
    intro loop hloop
    rw [h.closed loop]
    exact hinv.running loop hloop
  unblocked := by
    rw [h.frames]
    exact hinv.unblocked
  tasks := by
    rw [h.signalTasks, h.running]
    exact hinv.tasks
  owed := by
    rw [h.owed, h.frames, h.signalTasks]
    exact hinv.owed
  redelivered := by
    rw [h.redeliveries]
    exact hinv.redelivered

/-- A state with the same signal tables and loops, for which the other clauses hold. -/
theorem Inv.of_same
    {s t : State} (hinv : Inv H s)
    (hhandler : t.handler = s.handler) (hprev : t.prevHandlers = s.prevHandlers)
    (howner : t.signalLoops = s.signalLoops)
    (hcallbacks : ∀ loop, (t.loops loop).callbacks = (s.loops loop).callbacks)
    (hclosed : ∀ loop, (t.loops loop).closed = (s.loops loop).closed)
    (sig : Signal) :
    SignalOk H t sig where
  recorded := by
    rw [hprev]
    exact (hinv.signals sig).recorded
  unrecorded := by
    rw [hprev, hhandler]
    exact (hinv.signals sig).unrecorded
  owned := by
    rw [hprev, howner]
    exact (hinv.signals sig).owned
  callbacks := by
    intro loop
    rw [hcallbacks, hclosed, howner]
    exact (hinv.signals sig).callbacks loop

/-- The handler starts an activation or a task, or leaves the signal to the task it has. -/
theorem handle_cases
    (s : State) (sig : Signal) :
    (s.signalTasks sig ≠ none ∧
      handle s sig = { s with owed := Function.update s.owed sig true }) ∨
    (s.running = none ∧ handle s sig =
      { s with
        owed := Function.update s.owed sig true
        frames := ⟨sig, if s.locked then none else some (.start s.active)⟩ :: s.frames }) ∨
    ∃ loop, s.running = some loop ∧ handle s sig =
      { s with
        owed := Function.update s.owed sig true
        signalTasks := Function.update s.signalTasks sig (some ⟨loop, .queued⟩) } := by
  unfold handle
  by_cases htask : (s.signalTasks sig).isSome = true
  · exact Or.inl ⟨Option.isSome_iff_ne_none.mp htask, if_pos htask⟩
  · rw [if_neg htask]
    rcases Option.eq_none_or_eq_some s.running with hrunning | ⟨loop, hrunning⟩
    · exact Or.inr (Or.inl ⟨hrunning, by simp only [hrunning]⟩)
    · exact Or.inr (Or.inr ⟨loop, hrunning, by simp only [hrunning]⟩)

/-- The handler never waits for the lock where no event loop runs. -/
theorem inv_handle
    {s : State} (hinv : Inv H s) (sig : Signal)
    (hfree : s.running = none → s.locked = false) :
    Inv H (handle s sig) := by
  have howed : ∀ other, Function.update s.owed sig true other = true → other ≠ sig →
      (∃ frame ∈ s.frames, frame.sig = other) ∨ s.signalTasks other ≠ none := by
    intro other ho hne
    rw [Function.update_of_ne hne] at ho
    exact hinv.owed other ho
  rcases handle_cases s sig with ⟨htask, heq⟩ | ⟨hrunning, heq⟩ | ⟨loop, hrunning, heq⟩
  · rw [heq]
    refine ⟨hinv.of_same rfl rfl rfl (fun _ => rfl) (fun _ => rfl), hinv.running, hinv.unblocked,
      hinv.tasks, ?_, hinv.redelivered⟩
    intro other ho
    by_cases hne : other = sig
    · exact Or.inr (hne ▸ htask)
    · exact howed other ho hne
  · rw [heq]
    refine ⟨hinv.of_same rfl rfl rfl (fun _ => rfl) (fun _ => rfl), ?_, ?_, hinv.tasks, ?_,
      hinv.redelivered⟩
    · intro loop hloop
      cases hrunning.symm.trans hloop
    · intro frame hmem
      rcases List.mem_cons.mp hmem with rfl | hmem
      · simp [hfree hrunning]
      · exact hinv.unblocked frame hmem
    · intro other ho
      by_cases hne : other = sig
      · exact Or.inl ⟨_, List.mem_cons_self, hne.symm⟩
      · refine (howed other ho hne).imp_left ?_
        rintro ⟨frame, hmem, hsig⟩
        exact ⟨frame, List.mem_cons_of_mem _ hmem, hsig⟩
  · rw [heq]
    refine ⟨hinv.of_same rfl rfl rfl (fun _ => rfl) (fun _ => rfl), hinv.running, hinv.unblocked,
      ?_, ?_, hinv.redelivered⟩
    · intro other task ht
      have ht : Function.update s.signalTasks sig (some ⟨loop, .queued⟩) other = some task := ht
      by_cases hne : other = sig
      · subst hne
        rw [Function.update_self] at ht
        obtain rfl := Option.some.inj ht
        exact ⟨hrunning, by simp⟩
      · rw [Function.update_of_ne hne] at ht
        exact hinv.tasks other task ht
    · intro other ho
      by_cases hne : other = sig
      · subst hne
        exact Or.inr (by simp)
      · refine (howed other ho hne).imp_right fun h => ?_
        exact (Function.update_of_ne hne ..).trans_ne h

/-- Closing a loop resets the signals it owns, whose previous handlers stay recorded. -/
theorem inv_closeLoop
    {s : State} (hinv : Inv H s) {loop : Nat} (hidle : s.running ≠ some loop) :
    Inv H (closeLoop s loop) := by
  have hother : ∀ l, l ≠ loop → (closeLoop s loop).loops l = s.loops l :=
    fun l hl => Function.update_of_ne hl ..
  have hself : (closeLoop s loop).loops loop = { closed := true } := Function.update_self ..
  refine ⟨?_, ?_, hinv.unblocked, hinv.tasks, hinv.owed, hinv.redelivered⟩
  · intro sig
    refine ⟨(hinv.signals sig).recorded, ?_, (hinv.signals sig).owned, ?_⟩
    · intro hnone
      have hcallback : (s.loops loop).callbacks sig = false := by
        refine Bool.eq_false_iff.mpr fun hcallback => ?_
        exact (hinv.signals sig).owned loop ((hinv.signals sig).callbacks loop hcallback).1 hnone
      show (if (s.loops loop).callbacks sig then _ else s.handler sig) = _
      rw [hcallback]
      exact (hinv.signals sig).unrecorded hnone
    · intro l hcallback
      by_cases hl : l = loop
      · subst hl
        rw [hself] at hcallback
        cases hcallback
      · rw [hother l hl] at hcallback ⊢
        exact (hinv.signals sig).callbacks l hcallback
  · intro l hl
    rw [hother l (fun h => hidle (h ▸ hl))]
    exact hinv.running l hl

/-- A finished cleanup has stopped its whole snapshot. -/
theorem Progress.stopped_eq
    {p : Progress} (h : p.remaining.isEmpty = true) :
    p.stopped = p.registered := by
  have hsplit := p.split
  rwa [List.isEmpty_iff.mp h, List.append_nil] at hsplit

/-- The redelivery of a finished cleanup, whose activation or task is then dropped. -/
theorem inv_redelivers
    {s t u : State} {sig : Signal} {p : Progress} (hinv : Inv H s) (h : Redelivers H s t sig p)
    (hdone : p.remaining.isEmpty = true)
    (hsame : u = { t with frames := u.frames, signalTasks := u.signalTasks })
    (hrunning : ∀ loop, s.running = some loop → u.frames = [])
    (hframes : ∀ frame ∈ u.frames, frame ∈ s.frames)
    (htasks : ∀ other task, u.signalTasks other = some task → s.signalTasks other = some task)
    (howed : ∀ other, other ≠ sig → s.owed other = true →
      (∃ frame ∈ u.frames, frame.sig = other) ∨ u.signalTasks other ≠ none) :
    Inv H u := by
  have hsignals : ∀ other, SignalOk H t other := by
    intro other
    by_cases hne : other = sig
    · exact hne ▸ h.ok
    · exact h.other other hne (hinv.signals other)
  rw [hsame]
  refine ⟨?_, ?_, fun frame hf => hinv.unblocked frame (hframes frame hf), ?_, ?_, ?_⟩
  · exact fun other => ⟨(hsignals other).recorded, (hsignals other).unrecorded,
      (hsignals other).owned, (hsignals other).callbacks⟩
  · intro loop hloop
    have hloop : s.running = some loop := h.running.symm.trans hloop
    exact ⟨(h.closed loop).trans (hinv.running loop hloop).1, hrunning loop hloop⟩
  · intro other task ht
    have htask := hinv.tasks other task (htasks other task ht)
    exact ⟨h.running.trans htask.1, htask.2⟩
  · intro other ho
    have ho : t.owed other = true := ho
    rw [h.owed] at ho
    by_cases hne : other = sig
    · subst hne
      simp at ho
    · rw [Function.update_of_ne hne] at ho
      exact howed other hne ho
  · intro r hr
    have hr : r ∈ t.redeliveries := hr
    rw [h.redeliveries] at hr
    rcases List.mem_cons.mp hr with rfl | hr
    · exact ⟨rfl, Progress.stopped_eq hdone⟩
    · exact hinv.redelivered r hr

/-- The queues of a loop play no part in the invariant. -/
theorem inv_updateLoop
    {s : State} (hinv : Inv H s) (loop : Nat) {f : LoopState → LoopState}
    (hcallbacks : ∀ l, (f l).callbacks = l.callbacks) (hclosed : ∀ l, (f l).closed = l.closed) :
    Inv H (s.updateLoop loop f) := by
  have hloop : ∀ l, ((s.updateLoop loop f).loops l).callbacks = (s.loops l).callbacks ∧
      ((s.updateLoop loop f).loops l).closed = (s.loops l).closed := by
    intro l
    by_cases hl : l = loop
    · subst hl
      simp [State.updateLoop, hcallbacks, hclosed]
    · simp [State.updateLoop, hl]
  refine ⟨hinv.of_same rfl rfl rfl (fun l => (hloop l).1) (fun l => (hloop l).2), ?_,
    hinv.unblocked, hinv.tasks, hinv.owed, hinv.redelivered⟩
  intro l hl
  rw [(hloop l).2]
  exact hinv.running l hl

/-- A task moves to its next phase. -/
theorem inv_setPhase
    {s : State} (hinv : Inv H s) {sig : Signal} {task : SignalTask}
    (htask : s.signalTasks sig = some task) {phase : TaskPhase} (hphase : phase ≠ .cancelled) :
    Inv H (setPhase s sig task.loop phase) := by
  refine ⟨hinv.of_same rfl rfl rfl (fun _ => rfl) (fun _ => rfl), hinv.running, hinv.unblocked,
    ?_, ?_, hinv.redelivered⟩
  · intro other task' ht
    have ht : Function.update s.signalTasks sig (some ⟨task.loop, phase⟩) other = some task' := ht
    by_cases hne : other = sig
    · subst hne
      rw [Function.update_self] at ht
      obtain rfl := Option.some.inj ht
      exact ⟨(hinv.tasks other task htask).1, hphase⟩
    · rw [Function.update_of_ne hne] at ht
      exact hinv.tasks other task' ht
  · intro other ho
    refine (hinv.owed other ho).imp_right fun h => ?_
    show Function.update s.signalTasks sig (some ⟨task.loop, phase⟩) other ≠ none
    by_cases hne : other = sig
    · simp [hne]
    · rwa [Function.update_of_ne hne]

theorem runningTask_eq_some
    {s : State} {sig : Signal} {task : SignalTask} (h : runningTask s sig = some task) :
    s.signalTasks sig = some task ∧ s.running = some task.loop := by
  simpa [runningTask, Option.filter_eq_some_iff] using h

/-- A task that has not started is not cancelled, and any other goes on. -/
theorem stepTask_of_cancelCleanup
    {s t : State} {sig : Signal} (hok : HandsBack H s (.cancelCleanup sig))
    (hstep : step s (.cancelCleanup sig) = some t) :
    stepTask s sig = some t := by
  cases htask : runningTask s sig with
  | none => simpa [step, htask] using hstep
  | some task =>
      obtain ⟨loop, phase⟩ := task
      cases phase with
      | created => exact absurd (runningTask_eq_some htask).1 (hok loop)
      | queued => simpa [step, htask] using hstep
      | stopping p => simpa [step, htask] using hstep
      | cancelled => simpa [step, htask] using hstep

theorem inv_stepTask
    {s t : State} (hinv : Inv H s) {sig : Signal} (h : stepTask s sig = some t) :
    Inv H t := by
  unfold stepTask at h
  cases htask : runningTask s sig with
  | none =>
      rw [htask] at h
      cases h
  | some task =>
      obtain ⟨loop, phase⟩ := task
      have hentry := (runningTask_eq_some htask).1
      cases phase with
      | created =>
          simp only [htask] at h
          obtain rfl := Option.some.inj h
          exact inv_setPhase hinv hentry (by simp)
      | stopping p =>
          simp only [htask] at h
          obtain ⟨p', -, rfl⟩ := Option.map_eq_some_iff.mp h
          exact inv_setPhase hinv hentry (by simp)
      | queued =>
          simp only [htask] at h
          cases h
      | cancelled =>
          simp only [htask] at h
          cases h

/-- An event loop that is open runs while no activation is in progress. -/
theorem inv_startLoop
    {s : State} (hinv : Inv H s) {loop : Nat} (hframes : s.frames = []) (hidle : s.running = none)
    (hopen : (s.loops loop).closed = false) :
    Inv H { s with running := some loop } := by
  refine ⟨hinv.of_same rfl rfl rfl (fun _ => rfl) (fun _ => rfl), ?_, hinv.unblocked, ?_,
    hinv.owed, hinv.redelivered⟩
  · intro loop' hloop
    obtain rfl := Option.some.inj hloop
    exact ⟨hopen, hframes⟩
  · intro sig task htask
    cases hidle.symm.trans (hinv.tasks sig task htask).1

/-- Without a pending cleanup nothing is lost when the main thread leaves its event loop. -/
theorem inv_leave
    {s : State} (hinv : Inv H s) (htasks : ∀ sig, s.signalTasks sig = none) (locked : Bool) :
    Inv H { s with running := none, locked := locked } := by
  refine ⟨hinv.of_same rfl rfl rfl (fun _ => rfl) (fun _ => rfl), fun loop hl => (by cases hl),
    hinv.unblocked, ?_, hinv.owed, hinv.redelivered⟩
  intro sig task htask
  cases (htasks sig).symm.trans htask

/-- An exception that ends neither an activation nor a cleanup. -/
theorem inv_unwindAll
    {s : State} (hinv : Inv H s) (hframes : s.frames = [])
    (htasks : ∀ sig, s.signalTasks sig = none) :
    Inv H (unwindAll s) := by
  have heq : unwindAll s = { s with running := none, locked := false } := by
    simp [unwindAll, hframes]
  rw [heq]
  exact inv_leave hinv htasks false

/-- The innermost activation goes on to its next network. -/
theorem inv_stepFrame
    {s : State} (hinv : Inv H s) {sig : Signal} {progress : Option Progress}
    {outer : List Frame} (hframes : s.frames = ⟨sig, progress⟩ :: outer) (p : Progress) :
    Inv H { s with frames := ⟨sig, some p⟩ :: outer } := by
  refine ⟨hinv.of_same rfl rfl rfl (fun _ => rfl) (fun _ => rfl), ?_, ?_, hinv.tasks, ?_,
    hinv.redelivered⟩
  · intro loop hloop
    have hidle := (hinv.running loop hloop).2
    rw [hframes] at hidle
    cases hidle
  · intro frame hmem
    rcases List.mem_cons.mp hmem with rfl | hmem
    · rfl
    · exact hinv.unblocked frame (hframes ▸ List.mem_cons_of_mem _ hmem)
  · intro sig' ho
    refine (hinv.owed sig' ho).imp_left ?_
    rintro ⟨frame, hmem, hsig⟩
    rw [hframes] at hmem
    rcases List.mem_cons.mp hmem with rfl | hmem
    · exact ⟨⟨sig, some p⟩, List.mem_cons_self, hsig⟩
    · exact ⟨frame, List.mem_cons_of_mem _ hmem, hsig⟩

/-- The innermost activation redelivers its signal and returns. -/
theorem inv_finishFrame
    {s : State} (hinv : Inv H s) {sig : Signal} {p : Progress} {outer : List Frame}
    (hframes : s.frames = ⟨sig, some p⟩ :: outer) (hdone : p.remaining.isEmpty = true)
    {fails : ResetFails} (hrestores : Restores H s sig fails)
    {raises : Bool} (houter : raises = true → outer = []) :
    Inv H { redeliver s sig p fails with frames := if raises then [] else outer } := by
  have hred := redeliver_ok (hinv.signals sig) p hrestores
  have hleft : (if raises then [] else outer) = outer := by
    cases raises with
    | true => rw [if_pos rfl, houter rfl]
    | false => rfl
  rw [hleft]
  refine inv_redelivers hinv hred hdone rfl ?_ ?_ ?_ ?_
  · intro loop hloop
    have hidle := (hinv.running loop hloop).2
    rw [hframes] at hidle
    cases hidle
  · intro frame hmem
    exact hframes ▸ List.mem_cons_of_mem _ hmem
  · intro other task ht
    rwa [← hred.signalTasks]
  · intro other hne ho
    have hcases := hinv.owed other ho
    rw [hframes, ← hred.signalTasks] at hcases
    refine hcases.imp_left ?_
    rintro ⟨frame', hmem, hsig⟩
    rcases List.mem_cons.mp hmem with rfl | hmem
    · exact absurd hsig.symm hne
    · exact ⟨frame', hmem, hsig⟩

/-- The task of a signal redelivers it and is forgotten. -/
theorem inv_endCleanup
    {s : State} (hinv : Inv H s) {sig : Signal} {p : Progress}
    (hdone : p.remaining.isEmpty = true) {fails : ResetFails}
    (hrestores : Restores H s sig fails) :
    Inv H (endCleanup s sig p fails) := by
  have hred := redeliver_ok (hinv.signals sig) p hrestores
  refine inv_redelivers hinv hred hdone rfl ?_ ?_ ?_ ?_
  · intro loop hloop
    exact hred.frames.trans (hinv.running loop hloop).2
  · intro frame hmem
    have hmem : frame ∈ (redeliver s sig p fails).frames := hmem
    rwa [hred.frames] at hmem
  · intro other task ht
    have ht : Function.update (redeliver s sig p fails).signalTasks sig none other = some task := ht
    by_cases hne : other = sig
    · subst hne
      simp at ht
    · rwa [Function.update_of_ne hne, hred.signalTasks] at ht
  · intro other hne ho
    have hcases := hinv.owed other ho
    rw [← hred.frames, ← hred.signalTasks] at hcases
    refine hcases.imp_right fun h => ?_
    show Function.update (redeliver s sig p fails).signalTasks sig none other ≠ none
    rwa [Function.update_of_ne hne]

/-- The end of a cleanup task, whose redelivery may end the event loop. -/
theorem inv_finishCleanup
    {s t : State} (hinv : Inv H s) {sig : Signal} {fails : ResetFails} {raises : Bool}
    (hok : HandsBack H s (.finishCleanup sig fails raises))
    (hstep : step s (.finishCleanup sig fails raises) = some t) :
    Inv H t := by
  obtain ⟨hrestores, hothers⟩ := hok
  cases htask : runningTask s sig with
  | none => simp [step, htask] at hstep
  | some task =>
      obtain ⟨loop, phase⟩ := task
      cases phase with
      | stopping p =>
          simp only [step, htask, Option.ite_none_right_eq_some] at hstep
          obtain ⟨hdone, hstep⟩ := hstep
          obtain rfl := Option.some.inj hstep
          have hended := inv_endCleanup hinv hdone hrestores
          cases raises with
          | false => exact hended
          | true =>
              have hred := redeliver_ok (hinv.signals sig) p hrestores
              have hrunning := (runningTask_eq_some htask).2
              refine inv_unwindAll hended (hred.frames.trans (hinv.running loop hrunning).2) ?_
              intro other
              by_cases hne : other = sig
              · simp [endCleanup, hne]
              · simpa [endCleanup, hne, hred.signalTasks] using hothers rfl other hne
      | queued => simp [step, htask] at hstep
      | created => simp [step, htask] at hstep
      | cancelled => simp [step, htask] at hstep

/-- An exception of a handler of the application, while nothing is pending. -/
theorem inv_deliverRaises
    {s t : State} (hinv : Inv H s) {sig : Signal} {unwind : Unwind}
    (hok : HandsBack H s (.deliverRaises sig unwind))
    (hstep : step s (.deliverRaises sig unwind) = some t) :
    Inv H t := by
  obtain ⟨hframes, htasks⟩ := hok
  cases hhandler : s.handler sig with
  | own => simp [step, hhandler] at hstep
  | noop loop => simp [step, hhandler] at hstep
  | app h =>
      cases unwind with
      | all =>
          simp only [step, hhandler] at hstep
          obtain rfl := Option.some.inj hstep
          exact inv_unwindAll hinv hframes htasks
      | cleanup other fails =>
          have hnone : runningTask s other = none := by simp [runningTask, htasks]
          simp [step, hhandler, hnone] at hstep

/-- Every step that meets the condition keeps the invariant. -/
theorem inv_step
    {s t : State} {e : Event} (hinv : Inv H s) (hok : HandsBack H s e)
    (hstep : step s e = some t) :
    Inv H t := by
  cases e with
  | register net =>
      obtain rfl := Option.some.inj hstep
      exact ⟨hinv.of_same rfl rfl rfl (fun _ => rfl) (fun _ => rfl), hinv.running, hinv.unblocked,
        hinv.tasks, hinv.owed, hinv.redelivered⟩
  | unregister net =>
      obtain rfl := Option.some.inj hstep
      exact ⟨hinv.of_same rfl rfl rfl (fun _ => rfl) (fun _ => rfl), hinv.running, hinv.unblocked,
        hinv.tasks, hinv.owed, hinv.redelivered⟩
  | lock =>
      simp only [step, Option.ite_none_right_eq_some] at hstep
      obtain ⟨-, hstep⟩ := hstep
      obtain rfl := Option.some.inj hstep
      exact ⟨hinv.of_same rfl rfl rfl (fun _ => rfl) (fun _ => rfl), hinv.running, hinv.unblocked,
        hinv.tasks, hinv.owed, hinv.redelivered⟩
  | unlock =>
      simp only [step, Option.ite_none_right_eq_some] at hstep
      obtain ⟨-, hstep⟩ := hstep
      obtain rfl := Option.some.inj hstep
      exact ⟨hinv.of_same rfl rfl rfl (fun _ => rfl) (fun _ => rfl), hinv.running, hinv.unblocked,
        hinv.tasks, hinv.owed, hinv.redelivered⟩
  | install sig fails =>
      simp only [step, Option.ite_none_right_eq_some] at hstep
      obtain ⟨-, hstep⟩ := hstep
      obtain rfl := Option.some.inj hstep
      obtain ⟨htouches, hsignal⟩ := installTurn_ok (hinv.signals sig)
        (fun loop hloop => (hinv.running loop hloop).1) hok.1 hok.2
      exact hinv.of_touches htouches hsignal
  | startLoop loop =>
      simp only [step, State.free, Option.ite_none_right_eq_some, Bool.and_eq_true,
        Bool.not_eq_true', List.isEmpty_iff, Option.isNone_iff_eq_none] at hstep
      obtain ⟨⟨⟨⟨hframes, -⟩, hidle⟩, hopen⟩, hstep⟩ := hstep
      obtain rfl := Option.some.inj hstep
      exact inv_startLoop hinv hframes hidle hopen
  | stopLoop =>
      simp only [step, Option.ite_none_right_eq_some] at hstep
      obtain ⟨-, hstep⟩ := hstep
      obtain rfl := Option.some.inj hstep
      exact inv_leave hinv hok s.locked
  | closeLoop loop =>
      simp only [step, Option.ite_none_right_eq_some, Bool.and_eq_true, bne_iff_ne] at hstep
      obtain ⟨⟨⟨-, hidle⟩, -⟩, hstep⟩ := hstep
      obtain rfl := Option.some.inj hstep
      exact inv_closeLoop hinv hidle
  | fork fails =>
      obtain rfl := Option.some.inj hstep
      exact ⟨resetAfterFork_ok hinv.signals fails, fun loop h => (by cases h),
        fun frame h => (by cases h), fun sig task h => (by cases h), fun sig h => (by cases h),
        fun r h => (by cases h)⟩
  | deliver sig =>
      cases hhandler : s.handler sig with
      | app h =>
          simp only [step, hhandler] at hstep
          obtain rfl := Option.some.inj hstep
          exact hinv
      | own =>
          simp only [step, hhandler] at hstep
          obtain rfl := Option.some.inj hstep
          exact inv_handle hinv sig fun _ => hok hhandler
      | noop loop =>
          simp only [step, hhandler] at hstep
          obtain rfl := Option.some.inj hstep
          split_ifs
          · exact hinv
          · exact inv_updateLoop hinv loop (fun _ => rfl) (fun _ => rfl)
  | deliverRaises sig unwind => exact inv_deliverRaises hinv hok hstep
  | readWakeup =>
      cases hrunning : s.running with
      | none => simp [step, hrunning] at hstep
      | some loop =>
          cases hpipe : (s.loops loop).pipe with
          | nil => simp [step, hrunning, hpipe] at hstep
          | cons sig rest =>
              simp only [step, hrunning, bind, Option.bind, hpipe] at hstep
              obtain rfl := Option.some.inj hstep
              exact inv_updateLoop hinv loop (fun _ => rfl) (fun _ => rfl)
  | runCallback =>
      cases hrunning : s.running with
      | none => simp [step, hrunning] at hstep
      | some loop =>
          cases hready : (s.loops loop).ready with
          | nil => simp [step, hrunning, hready] at hstep
          | cons sig rest =>
              simp only [step, hrunning, bind, Option.bind, hready] at hstep
              obtain rfl := Option.some.inj hstep
              refine inv_handle (inv_updateLoop (f := fun l => { l with ready := rest }) hinv loop
                (fun _ => rfl) (fun _ => rfl)) sig ?_
              exact fun hidle => by cases hrunning.symm.trans hidle
  | stepFrame =>
      simp only [step] at hstep
      split at hstep
      case h_1 sig p outer hlocked hframes =>
        obtain ⟨p', -, rfl⟩ := Option.map_eq_some_iff.mp hstep
        exact inv_stepFrame hinv hframes p'
      case h_2 => cases hstep
  | finishFrame fails raises =>
      simp only [step] at hstep
      split at hstep
      case h_1 sig p outer hlocked hframes =>
        simp only [Option.ite_none_right_eq_some] at hstep
        obtain ⟨hdone, hstep⟩ := hstep
        obtain rfl := Option.some.inj hstep
        obtain ⟨hrestores, houter⟩ := hok
        rw [hframes] at hrestores houter
        exact inv_finishFrame hinv hframes hdone (hrestores ⟨sig, some p⟩ rfl) houter
      case h_2 => cases hstep
  | startCleanup sig =>
      cases htask : runningTask s sig with
      | none => simp [step, htask] at hstep
      | some task =>
          obtain ⟨loop, phase⟩ := task
          cases phase with
          | queued =>
              simp only [step, htask] at hstep
              obtain rfl := Option.some.inj hstep
              exact inv_setPhase hinv (runningTask_eq_some htask).1 (by simp)
          | created => simp [step, htask] at hstep
          | stopping p => simp [step, htask] at hstep
          | cancelled => simp [step, htask] at hstep
  | stepCleanup sig => exact inv_stepTask hinv hstep
  | cancelCleanup sig =>
      exact inv_stepTask hinv (stepTask_of_cancelCleanup hok hstep)
  | finishCleanup sig fails raises => exact inv_finishCleanup hinv hok hstep

theorem inv_of_run
    {s : State} (run : Reaches step (HandsBack H) (.init H) s) :
    Inv H s :=
  run.invariant (inv_init H) fun _ _ _ hinv hok hstep => inv_step hinv hok hstep

/-! ### Pending cleanups -/

end Signals
end P4Net
