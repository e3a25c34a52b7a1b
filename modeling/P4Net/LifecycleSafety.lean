import P4Net.LifecycleControl
import P4Net.TransitionRuns

/-!
# Safety of the lifecycle

* `Frames` : the stacks hold one startup and one shutdown at most, a shutdown only above
  a startup.
* `History` : what has been recorded about startups.
* `lifecycle_safe` : in every run, `_do_start` and `_do_stop` exclude each other, a startup
  that is interrupted by a shutdown is rolled back and raises, and a network at rest is
  completely up or completely down.
-/

namespace P4Net
namespace Network

/-! ### Stacks -/

/-- A startup, or a shutdown whose future is pending. -/
def Frame.controls : Frame → Bool
  | .start _ _ | .finish _ _ => true
  | _ => false

/-- The frame of a startup on the stack of `t`. -/
def startFrames (start : Option StartCall) (t : ThreadId) : List Frame :=
  match start with
  | some call => if call.thread = t then [.start call.future call.pc] else []
  | none => []

/-- The frame of a shutdown on the stack of `t`. -/
def finishFrames (finish : Option FinishCall) (t : ThreadId) : List Frame :=
  match finish with
  | some call => if call.thread = t then [.finish call.future call.pc] else []
  | none => []

/-- The startup and the shutdown are the only ones, and the shutdown is on top. -/
def Frames (w : System) (start : Option StartCall) (finish : Option FinishCall) : Prop :=
  ∀ t, (w.frames t).filter Frame.controls = finishFrames finish t ++ startFrames start t

theorem startFrames_self (t : ThreadId) (f : Fut) (pc : StartPc) :
    startFrames (some ⟨t, f, pc⟩) t = [.start f pc] := by
  simp [startFrames]

theorem startFrames_other
    {t u : ThreadId} (h : u ≠ t) (f : Fut) (pc : StartPc) :
    startFrames (some ⟨t, f, pc⟩) u = [] := by
  simp [startFrames, h.symm]

theorem finishFrames_self (t : ThreadId) (f : Fut) (pc : FinishPc) :
    finishFrames (some ⟨t, f, pc⟩) t = [.finish f pc] := by
  simp [finishFrames]

theorem finishFrames_other
    {t u : ThreadId} (h : u ≠ t) (f : Fut) (pc : FinishPc) :
    finishFrames (some ⟨t, f, pc⟩) u = [] := by
  simp [finishFrames, h.symm]

theorem finishFrames_eq_nil
    {finish : Option FinishCall} {t : ThreadId}
    (h : ∀ call, finish = some call → call.thread ≠ t) :
    finishFrames finish t = [] := by
  cases finish with
  | none => rfl
  | some call => simp [finishFrames, h call rfl]

namespace Frames

variable {w : System} {start : Option StartCall} {finish : Option FinishCall}

/-- A startup on top of a stack is the only one, and no shutdown is on its thread. -/
theorem start_top
    {t : ThreadId} {f : Fut} {pc : StartPc} {below : List Frame} (h : Frames w start finish)
    (htop : w.frames t = .start f pc :: below) :
    start = some ⟨t, f, pc⟩ ∧ (∀ call, finish = some call → call.thread ≠ t) ∧
      below.filter Frame.controls = [] := by
  have ht := h t
  have hkeep : (Frame.start f pc).controls = true := rfl
  rw [htop, List.filter_cons_of_pos hkeep] at ht
  have hfinish : ∀ call, finish = some call → call.thread ≠ t := by
    rintro call rfl hthread
    simp [finishFrames, hthread] at ht
  rw [finishFrames_eq_nil hfinish, List.nil_append] at ht
  cases start with
  | none => simp [startFrames] at ht
  | some call =>
      rcases call with ⟨u, g, pc'⟩
      by_cases hthread : u = t
      · subst hthread
        rw [startFrames_self] at ht
        obtain ⟨hframe, hbelow⟩ := List.cons.inj ht
        cases hframe
        exact ⟨rfl, hfinish, hbelow⟩
      · rw [startFrames_other (Ne.symm hthread)] at ht
        cases ht

/-- A shutdown on top of a stack is the only one. -/
theorem finish_top
    {t : ThreadId} {f : Fut} {pc : FinishPc} {below : List Frame} (h : Frames w start finish)
    (htop : w.frames t = .finish f pc :: below) :
    finish = some ⟨t, f, pc⟩ ∧ below.filter Frame.controls = startFrames start t := by
  have ht := h t
  have hkeep : (Frame.finish f pc).controls = true := rfl
  rw [htop, List.filter_cons_of_pos hkeep] at ht
  have hstart : ∀ rest, startFrames start t ≠ .finish f pc :: rest := by
    intro rest hrest
    cases start with
    | none => cases hrest
    | some call =>
        simp only [startFrames] at hrest
        split_ifs at hrest
        cases hrest
  cases finish with
  | none => exact absurd ht.symm (hstart _)
  | some call =>
      rcases call with ⟨u, g, pc'⟩
      by_cases hthread : u = t
      · subst hthread
        rw [finishFrames_self] at ht
        obtain ⟨hframe, hbelow⟩ := List.cons.inj ht
        cases hframe
        exact ⟨rfl, hbelow⟩
      · rw [finishFrames_other (Ne.symm hthread)] at ht
        exact absurd ht.symm (hstart _)

/-- Another frame on top of a stack does not count. -/
theorem other_top
    {t : ThreadId} {frame : Frame} {below : List Frame} (h : Frames w start finish)
    (htop : w.frames t = frame :: below) (hframe : frame.controls = false) :
    below.filter Frame.controls = finishFrames finish t ++ startFrames start t := by
  rw [← h t, htop, List.filter_cons_of_neg (by simp [hframe])]

/-- The stack of one thread changes. -/
theorem setStack
    (start' : Option StartCall) (finish' : Option FinishCall) {t : ThreadId}
    {frames : List Frame} (h : Frames w start finish)
    (hframes : frames.filter Frame.controls = finishFrames finish' t ++ startFrames start' t)
    (hothers : ∀ u, u ≠ t → finishFrames finish' u ++ startFrames start' u =
      finishFrames finish u ++ startFrames start u) :
    Frames (w.setStack t frames) start' finish' := by
  intro u
  by_cases hu : u = t
  · subst hu
    simpa [System.setStack] using hframes
  · simpa [System.setStack, hu, hothers u hu] using h u

/-- A frame that does not count comes or goes. -/
theorem setStack_same
    {t : ThreadId} {frames : List Frame} (h : Frames w start finish)
    (hframes : frames.filter Frame.controls = finishFrames finish t ++ startFrames start t) :
    Frames (w.setStack t frames) start finish :=
  h.setStack start finish hframes fun _ _ => rfl

/-- Only the stacks matter. -/
theorem of_frames
    {w' : System} (h : Frames w start finish) (hframes : w'.frames = w.frames) :
    Frames w' start finish := by
  intro t
  rw [hframes]
  exact h t

end Frames

/-! ### Records -/

/-- What has been recorded about startups. -/
structure History (w : System) (start : Option StartCall) : Prop where
  /-- A requested shutdown of a pending startup stays visible to its final check. -/
  visible : ∀ f ∈ w.requested, w.net.life.startFuture = some f → w.net.life.stopFuture ≠ none
  issued : ∀ f ∈ w.requested, f < w.net.life.nextFuture
  disjoint : ∀ f ∈ w.requested, f ∉ w.committed
  returning : ∀ call, start = some call → call.pc = .ending none → call.future ∈ w.committed
  raising : ∀ call exc, start = some call → call.pc = .ending (some exc) →
    call.future ∈ w.rolledBack
  returned : ∀ f, w.outcome f = some none → f ∈ w.committed
  raised : ∀ f exc, w.outcome f = some (some exc) → f ∈ w.rolledBack
  awaited : ∀ f, w.astarts f = .ended none → f ∈ w.committed

namespace History

variable {w w' : System} {start start' : Option StartCall}

/-- A step that records nothing. -/
theorem of_same
    (h : History w start) (hrequested : w'.requested = w.requested)
    (hcommitted : w'.committed = w.committed) (hrolledBack : w'.rolledBack = w.rolledBack)
    (houtcome : w'.outcome = w.outcome) (hastarts : w'.astarts = w.astarts)
    (hvisible : ∀ f ∈ w.requested, w'.net.life.startFuture = some f →
      w'.net.life.stopFuture = none → w.net.life.startFuture = some f ∧
        w.net.life.stopFuture = none)
    (hissued : w.net.life.nextFuture ≤ w'.net.life.nextFuture)
    (hstart : ∀ call result, start' = some call → call.pc = .ending result →
      start = some call) :
    History w' start' where
  visible f hf hpending hnone := by
    rw [hrequested] at hf
    obtain ⟨hpending', hnone'⟩ := hvisible f hf hpending hnone
    exact h.visible f hf hpending' hnone'
  issued f hf := Nat.lt_of_lt_of_le (h.issued f (hrequested ▸ hf)) hissued
  disjoint := by
    rw [hrequested, hcommitted]
    exact h.disjoint
  returning call hcall hpc := by
    rw [hcommitted]
    exact h.returning call (hstart call none hcall hpc) hpc
  raising call exc hcall hpc := by
    rw [hrolledBack]
    exact h.raising call exc (hstart call (some exc) hcall hpc) hpc
  returned := by
    rw [houtcome, hcommitted]
    exact h.returned
  raised := by
    rw [houtcome, hrolledBack]
    exact h.raised
  awaited := by
    rw [hastarts, hcommitted]
    exact h.awaited

/-- A startup that passes its final check has not been asked to stop. -/
theorem note
    {f : Fut} (h : History w none) (t : ThreadId) (pc : StartPc)
    (hpassed : pc = .ending none → f ∉ w.requested) :
    History (w.noteStart f pc) (some ⟨t, f, pc⟩) := by
  unfold System.noteStart
  split
  · refine { h with
      disjoint := ?_
      returning := ?_
      raising := ?_
      returned := fun g hg => List.mem_cons_of_mem _ (h.returned g hg)
      awaited := fun g hg => List.mem_cons_of_mem _ (h.awaited g hg) }
    · intro g hg hmem
      rcases List.mem_cons.mp hmem with rfl | hmem
      · exact hpassed rfl hg
      · exact h.disjoint g hg hmem
    · rintro _ ⟨⟩ -
      exact List.mem_cons_self
    · rintro _ exc ⟨⟩ ⟨⟩
  · refine { h with
      returning := ?_
      raising := ?_
      raised := fun g exc hg => List.mem_cons_of_mem _ (h.raised g exc hg) }
    · rintro _ ⟨⟩ ⟨⟩
    · rintro _ exc ⟨⟩ -
      exact List.mem_cons_self
  · rename_i hnone hsome
    refine { h with returning := ?_, raising := ?_ }
    · rintro _ ⟨⟩ hpc
      exact absurd hpc hnone
    · rintro _ exc ⟨⟩ hpc
      exact absurd hpc (hsome exc)

/-- A suspended `astart` moves; it returns only after its startup has. -/
theorem setAstart
    {f : Fut} {pc : AstartPc} (h : History w start) (hpc : pc = .ended none → f ∈ w.committed) :
    History (w.setAstart f pc) start :=
  { h with
    awaited := by
      intro g hg
      by_cases hsame : g = f
      · subst hsame
        exact hpc (by simpa [System.setAstart] using hg)
      · exact h.awaited g (by simpa [System.setAstart, hsame] using hg) }

/-- A startup ends. -/
theorem finishStart
    {t : ThreadId} {f : Fut} {result : Option Raised} (below : List Frame)
    (h : History w (some ⟨t, f, .ending result⟩)) :
    History (finishStart t f result below w) none where
  visible g _ hpending := by cases hpending
  issued := h.issued
  disjoint := h.disjoint
  returning call hcall := by cases hcall
  raising call exc hcall := by cases hcall
  returned g hg := by
    by_cases hsame : g = f
    · subst hsame
      obtain rfl : result = none := by simpa [Network.finishStart] using hg
      exact h.returning _ rfl rfl
    · exact h.returned g (by simpa [Network.finishStart, hsame] using hg)
  raised g exc hg := by
    by_cases hsame : g = f
    · subst hsame
      obtain rfl : result = some exc := by simpa [Network.finishStart] using hg
      exact h.raising _ exc rfl rfl
    · exact h.raised g exc (by simpa [Network.finishStart, hsame] using hg)
  awaited := h.awaited

/-- A shutdown is requested. -/
theorem request
    {pending initiate : Bool} {f : Fut} {life : Lifecycle} (h : History w start)
    (hsound : w.net.life.Sound)
    (hsection : stopSection pending w.net.life = (initiate, f, life)) :
    History (w.noteRequest.setNet { w.net with life := life }) start := by
  have hstop : life.stopFuture ≠ none ∧ w.net.life.nextFuture ≤ life.nextFuture := by
    rcases stopSection_cases hsection with ⟨-, -, -, rfl⟩ | ⟨-, hstop, rfl⟩
    · exact ⟨Option.some_ne_none _, Nat.le_succ _⟩
    · exact ⟨by simp [hstop], Nat.le_refl _⟩
  refine { h with visible := fun g _ _ => hstop.1, issued := ?_, disjoint := ?_ }
  · intro g hg
    refine Nat.lt_of_lt_of_le ?_ hstop.2
    rcases List.mem_append.mp hg with hnew | hold
    · exact hsound.startIssued g (by simpa using (List.mem_filter.mp hnew).1)
    · exact h.issued g hold
  · intro g hg
    rcases List.mem_append.mp hg with hnew | hold
    · have hfree : g ∉ w.committed := by simpa using (List.mem_filter.mp hnew).2
      exact hfree
    · exact h.disjoint g hold

end History

/-! ### Steps -/

/-- The stacks, the network and the records agree about the calls in progress. -/
structure Consistent (topology : Topology) (w : System) (start : Option StartCall)
    (finish : Option FinishCall) : Prop where
  frames : Frames w start finish
  safe : Safe topology w.net start finish
  history : History w start

/-- The calls in progress exclude each other. -/
def Controlled (topology : Topology) (w : System) : Prop :=
  ∃ start finish, Consistent topology w start finish

theorem controlled_init (topology : Topology) : Controlled topology {} := by
  have hidle : Idle ({} : System).net :=
    ⟨rfl, ⟨rfl, rfl, rfl, rfl, rfl, rfl, rfl, rfl, rfl⟩⟩
  refine ⟨none, none, fun t => rfl, ⟨⟨fun _ _ => rfl, ?_, ?_, ?_, ?_⟩, rfl, rfl, ?_, ?_, .inr hidle⟩,
    ⟨?_, ?_, ?_, ?_, ?_, ?_, ?_, ?_⟩⟩
  all_goals simp

/-- The final check passes only if no shutdown has been requested. -/
theorem stopFuture_of_commits
    {topology : Topology} {options : Options} {t : ThreadId} {raised : Option Raised}
    {left : List Disconnect} {net net' : Net} {pc : StartPc}
    (h : advanceStart topology options t raised left net pc = some (net', .ending none)) :
    net.life.stopFuture = none := by
  unfold advanceStart at h
  split at h
  · split at h <;> simp at h
  · simp at h
  · simp at h
  · split at h <;> simp at h
  · split at h
    · simp at h
    · split at h <;> simp at h
  · simp at h
  · simp at h
  · split at h
    · simp at h
    · rename_i life hcommit
      unfold commitStart at hcommit
      split_ifs at hcommit with hstop
      simpa using hstop
  · simp at h
  · simp at h
  · simp at h

namespace Consistent

variable {topology : Topology} {options : Options} {w w' : System}
variable {start : Option StartCall} {finish : Option FinishCall}

/-- A call of `start` or `astart`. -/
theorem begins
    {t : ThreadId} {background : Bool} {f : Fut} {life : Lifecycle}
    (h : Consistent topology w start finish)
    (hprepare : prepareStart t background w.net.life = .ok (f, life)) :
    Consistent topology
      ((w.setNet { w.net with life := life }).setStack t
        (.start f (if background then .register else .enter) :: w.frames t))
      (some ⟨t, f, if background then .register else .enter⟩) none := by
  obtain ⟨rfl, rfl, hsafe⟩ := h.safe.prepareStart hprepare
  obtain ⟨-, hstart, -, rfl, rfl⟩ := prepareStart_ok hprepare
  have hnone : (w.frames t).filter Frame.controls = [] := h.frames t
  refine ⟨?_, hsafe, ?_⟩
  · refine (h.frames.of_frames rfl).setStack _ _ ?_ ?_
    · rw [List.filter_cons_of_pos rfl, hnone, startFrames_self]
      rfl
    · intro u hu
      rw [startFrames_other hu]
      rfl
  · refine h.history.of_same rfl rfl rfl rfl rfl ?_ (Nat.le_succ _) ?_
    · intro g hg hpending
      obtain rfl := Option.some.inj hpending
      exact absurd (h.history.issued _ hg) (Nat.lt_irrefl _)
    · rintro call result ⟨⟩ hpc
      cases background <;> cases hpc

theorem callStart
    (h : Consistent topology w start finish) (t : ThreadId) :
    Controlled topology (callStart t w) := by
  unfold Network.callStart
  split
  · exact ⟨start, finish, h⟩
  · rename_i f life hprepare
    exact ⟨_, _, h.begins hprepare⟩

theorem callAstart
    (h : Consistent topology w start finish) (t : ThreadId) :
    Controlled topology (callAstart t w) := by
  unfold Network.callAstart
  split
  · exact ⟨start, finish, h⟩
  · rename_i f life hprepare
    exact ⟨_, _, h.begins hprepare⟩

theorem advanceStart
    {t : ThreadId} {f : Fut} {raised : Option Raised} {left : List Disconnect} {net : Net}
    {pc pc' : StartPc} {below : List Frame} (h : Consistent topology w start finish)
    (htop : w.frames t = .start f pc :: below)
    (hstep : Network.advanceStart topology options t raised left w.net pc = some (net, pc')) :
    Controlled topology
      (((w.setNet net).setStack t (.start f pc' :: below)).noteStart f pc') := by
  obtain ⟨rfl, hother, hbelow⟩ := h.frames.start_top htop
  have hnote : ∀ w : System, (w.noteStart f pc').frames = w.frames ∧
      (w.noteStart f pc').net = w.net := by
    intro w
    unfold System.noteStart
    split <;> exact ⟨rfl, rfl⟩
  have hlife := (startStep_advanceStart hstep).futures
  refine ⟨some ⟨t, f, pc'⟩, finish, ?_, ?_, ?_⟩
  · refine Frames.of_frames ?_ (hnote _).1
    refine (h.frames.of_frames rfl).setStack _ _ ?_ ?_
    · rw [List.filter_cons_of_pos rfl, hbelow, finishFrames_eq_nil hother, startFrames_self]
      rfl
    · intro u hu
      rw [startFrames_other hu, startFrames_other hu]
  · rw [(hnote _).2]
    exact h.safe.advanceStart hother hstep
  · refine History.note ?_ t pc' ?_
    · refine h.history.of_same rfl rfl rfl rfl rfl ?_ (Nat.le_of_eq hlife.nextFuture.symm)
        (by rintro _ _ ⟨⟩)
      intro g _ hpending hnone
      exact ⟨hlife.startFuture.symm.trans hpending, hlife.stopFuture.symm.trans hnone⟩
    · rintro rfl hrequested
      exact h.history.visible f hrequested h.safe.startFuture (stopFuture_of_commits hstep)

theorem submitStart
    {t worker : ThreadId} {f : Fut} {below : List Frame}
    (h : Consistent topology w start finish) (htop : w.frames t = .start f .submit :: below)
    (hworker : w.frames worker = []) :
    Consistent topology (submitStart t worker f below w) (some ⟨worker, f, .enter⟩) finish := by
  obtain ⟨rfl, hother, hbelow⟩ := h.frames.start_top htop
  have hne : worker ≠ t := by
    rintro rfl
    rw [htop] at hworker
    cases hworker
  refine ⟨?_, h.safe.submitStart hother worker, ?_⟩
  · have hpopped : Frames (w.setStack t below) none finish := by
      refine h.frames.setStack _ _ ?_ ?_
      · rw [hbelow, finishFrames_eq_nil hother]
        rfl
      · intro u hu
        rw [startFrames_other hu]
        rfl
    have hfree := hpopped worker
    have hempty : (w.setStack t below).frames worker = [] := by
      simpa [System.setStack, hne] using hworker
    rw [hempty, List.filter_nil] at hfree
    have hfinish : finishFrames finish worker = [] := (List.append_eq_nil_iff.mp hfree.symm).1
    have hpushed : Frames ((w.setStack t below).setStack worker [.start f .enter])
        (some ⟨worker, f, .enter⟩) finish := by
      refine hpopped.setStack _ _ ?_ ?_
      · rw [hfinish, startFrames_self]
        rfl
      · intro u hu
        rw [startFrames_other hu]
        rfl
    exact hpushed.of_frames rfl
  · refine History.setAstart ?_ (by rintro ⟨⟩)
    refine h.history.of_same rfl rfl rfl rfl rfl (fun g _ hp hn => ⟨hp, hn⟩) (Nat.le_refl _) ?_
    rintro call result ⟨⟩ ⟨⟩

theorem finishStart
    {t : ThreadId} {f : Fut} {result : Option Raised} {below : List Frame}
    (h : Consistent topology w start finish)
    (htop : w.frames t = .start f (.ending result) :: below) :
    Consistent topology (finishStart t f result below w) none finish := by
  obtain ⟨rfl, hother, hbelow⟩ := h.frames.start_top htop
  refine ⟨?_, h.safe.endStart hother, h.history.finishStart below⟩
  have hpopped : Frames (w.setStack t below) none finish := by
    refine h.frames.setStack _ _ ?_ ?_
    · rw [hbelow, finishFrames_eq_nil hother]
      rfl
    · intro u hu
      rw [startFrames_other hu]
      rfl
  exact hpopped.of_frames rfl

theorem advanceFinish
    {t : ThreadId} {f : Fut} {left : List Disconnect} {net : Net} {pc pc' : FinishPc}
    {below : List Frame} (h : Consistent topology w start finish)
    (htop : w.frames t = .finish f pc :: below)
    (hstep : Network.advanceFinish t left w.net pc = some (net, pc')) :
    Consistent topology ((w.setNet net).setStack t (.finish f pc' :: below)) start
      (some ⟨t, f, pc'⟩) := by
  obtain ⟨rfl, hbelow⟩ := h.frames.finish_top htop
  have hlife := sameFutures_advanceFinish hstep
  refine ⟨?_, h.safe.advanceFinish hstep, ?_⟩
  · refine (h.frames.of_frames rfl).setStack _ _ ?_ ?_
    · rw [List.filter_cons_of_pos rfl, hbelow, finishFrames_self]
      rfl
    · intro u hu
      rw [finishFrames_other hu, finishFrames_other hu]
  · refine h.history.of_same rfl rfl rfl rfl rfl ?_ (Nat.le_of_eq hlife.nextFuture.symm)
      (fun _ _ hcall _ => hcall)
    intro g _ hpending hnone
    exact ⟨hlife.startFuture.symm.trans hpending, hlife.stopFuture.symm.trans hnone⟩

theorem completeStop
    {t : ThreadId} {f : Fut} {below : List Frame} (h : Consistent topology w start finish)
    (htop : w.frames t = .finish f .setResult :: below) :
    Consistent topology (completeStop t f below w) start none := by
  obtain ⟨rfl, hbelow⟩ := h.frames.finish_top htop
  refine ⟨?_, h.safe.completeStop, ?_⟩
  · refine (h.frames.of_frames rfl).setStack _ _ ?_ ?_
    · rw [List.filter_cons_of_neg (by simp [Frame.controls]), hbelow]
      rfl
    · intro u hu
      rw [finishFrames_other hu]
      rfl
  · exact h.history.of_same rfl rfl rfl rfl rfl (fun g _ hp hn => ⟨hp, hn⟩) (Nat.le_refl _)
      (fun _ _ hcall _ => hcall)

/-- A frame that does not count is popped or replaced, and the futures are kept. -/
theorem pops
    {t : ThreadId} {frame : Frame} {below frames : List Frame}
    (h : Consistent topology w start finish) (thread : Option ThreadId)
    (htop : w.frames t = frame :: below)
    (hframe : frame.controls = false)
    (hframes : frames.filter Frame.controls = below.filter Frame.controls) :
    Consistent topology
      ((w.setNet { w.net with life := { w.net.life with stopThread := thread } }).setStack t
        frames) start finish := by
  refine ⟨?_, h.safe.setStopThread thread, ?_⟩
  · exact (h.frames.of_frames rfl).setStack_same
      (hframes.trans (h.frames.other_top htop hframe))
  · exact h.history.of_same rfl rfl rfl rfl rfl (fun g _ hp hn => ⟨hp, hn⟩) (Nat.le_refl _)
      (fun _ _ hcall _ => hcall)

theorem callStop
    {t helper : ThreadId} {inLoop : Bool} {f : Fut} (h : Consistent topology w start finish)
    (hstep : callStop t helper inLoop w = some (f, w')) :
    Controlled topology w' := by
  unfold Network.callStop at hstep
  rcases hsection : stopSection (!w.net.res.asyncDisconnects.isEmpty) w.net.life with
    ⟨initiate, g, life⟩
  simp only [hsection] at hstep
  have hhistory := h.history.request h.safe.sound hsection
  cases initiate with
  | true =>
      cases inLoop with
      | true =>
          simp only at hstep
          split_ifs at hstep with hhelper
          obtain ⟨rfl, rfl⟩ := Prod.mk.inj (Option.some.inj hstep)
          obtain ⟨rfl, hsafe⟩ := h.safe.stopSection hsection helper
          refine ⟨start, _, ?_, hsafe, { hhistory with }⟩
          have hfree := h.frames helper
          rw [hhelper.1, List.filter_nil] at hfree
          have hstart := (List.append_eq_nil_iff.mp hfree.symm).2
          refine (h.frames.of_frames rfl).setStack _ _ ?_ ?_
          · rw [hstart, finishFrames_self]
            rfl
          · intro u hu
            rw [finishFrames_other hu]
            rfl
      | false =>
          obtain ⟨rfl, rfl⟩ := Prod.mk.inj (Option.some.inj hstep)
          obtain ⟨rfl, hsafe⟩ := h.safe.stopSection hsection t
          refine ⟨start, _, ?_, hsafe, { hhistory with }⟩
          refine (h.frames.of_frames rfl).setStack _ _ ?_ ?_
          · rw [List.filter_cons_of_pos rfl, List.filter_cons_of_neg (by simp [Frame.controls]),
              h.frames t, finishFrames_self]
            rfl
          · intro u hu
            rw [finishFrames_other hu]
            rfl
  | false =>
      have hlife : life = w.net.life := by
        rcases stopSection_cases hsection with ⟨hfalse, -⟩ | ⟨-, -, hlife⟩
        · cases hfalse
        · exact hlife
      subst hlife
      cases inLoop with
      | true =>
          obtain ⟨rfl, rfl⟩ := Prod.mk.inj (Option.some.inj hstep)
          exact ⟨start, finish, h.frames.of_frames rfl, h.safe, hhistory⟩
      | false =>
          obtain ⟨rfl, rfl⟩ := Prod.mk.inj (Option.some.inj hstep)
          refine ⟨start, finish, ?_, h.safe, { hhistory with }⟩
          refine (h.frames.of_frames rfl).setStack_same ?_
          rw [List.filter_cons_of_neg (by simp [Frame.controls])]
          exact h.frames t

theorem setAstart
    {f : Fut} {pc : AstartPc} (h : Consistent topology w start finish)
    (hpc : pc = .ended none → f ∈ w.committed) :
    Consistent topology (w.setAstart f pc) start finish :=
  ⟨h.frames.of_frames rfl, h.safe, h.history.setAstart hpc⟩

theorem resumeAstart
    {t helper : ThreadId} {f : Fut} (h : Consistent topology w start finish)
    (hstep : resumeAstart t helper f w = some w') :
    Controlled topology w' := by
  unfold Network.resumeAstart at hstep
  split at hstep
  · split at hstep
    · cases hstep
    · rename_i result houtcome
      split_ifs at hstep
      · rw [Option.map_eq_some_iff] at hstep
        obtain ⟨⟨stop, mid⟩, hstop, rfl⟩ := hstep
        obtain ⟨start', finish', hmid⟩ := h.callStop hstop
        exact ⟨start', finish', hmid.setAstart (by rintro ⟨⟩)⟩
      · obtain rfl := Option.some.inj hstep
        refine ⟨start, finish, h.setAstart ?_⟩
        rintro ⟨⟩
        exact h.history.returned f houtcome
  · simp only at hstep
    split_ifs at hstep
    · obtain rfl := Option.some.inj hstep
      exact ⟨start, finish, h.setAstart (by rintro ⟨⟩)⟩
    · obtain rfl := Option.some.inj hstep
      exact ⟨start, finish, h.setAstart (by rintro ⟨⟩)⟩
  · cases hstep

end Consistent

/-- Every step keeps the calls in progress apart. -/
theorem controlled_step
    {topology : Topology} {options : Options} {w w' : System} {label : Label}
    (hcontrolled : Controlled topology w) (hstep : step topology options w label = some w') :
    Controlled topology w' := by
  obtain ⟨start, finish, h⟩ := hcontrolled
  cases label with
  | callStart t =>
      obtain rfl := Option.some.inj hstep
      exact h.callStart t
  | callAstart t =>
      obtain rfl := Option.some.inj hstep
      exact h.callAstart t
  | callStop t helper inLoop =>
      rw [step, Option.map_eq_some_iff] at hstep
      obtain ⟨⟨f, mid⟩, hcall, rfl⟩ := hstep
      exact h.callStop hcall
  | startAdvances t raised left =>
      rw [step] at hstep
      split at hstep
      · rename_i f pc below htop
        rw [Option.map_eq_some_iff] at hstep
        obtain ⟨⟨net, pc'⟩, hadvance, rfl⟩ := hstep
        exact h.advanceStart htop hadvance
      · cases hstep
  | startSubmitted t worker =>
      rw [step] at hstep
      split at hstep
      · rename_i f below htop
        split_ifs at hstep with hworker
        obtain rfl := Option.some.inj hstep
        exact ⟨_, _, h.submitStart htop hworker⟩
      · cases hstep
  | startEnds t =>
      rw [step] at hstep
      split at hstep
      · rename_i f result below htop
        obtain rfl := Option.some.inj hstep
        exact ⟨_, _, h.finishStart htop⟩
      · cases hstep
  | finishAdvances t left =>
      rw [step] at hstep
      split at hstep
      · rename_i f pc below htop
        rw [Option.map_eq_some_iff] at hstep
        obtain ⟨⟨net, pc'⟩, hadvance, rfl⟩ := hstep
        exact ⟨_, _, h.advanceFinish htop hadvance⟩
      · cases hstep
  | finishEnds t =>
      rw [step] at hstep
      split at hstep
      · rename_i f below htop
        obtain rfl := Option.some.inj hstep
        exact ⟨_, _, h.completeStop htop⟩
      · cases hstep
  | threadCleared t =>
      rw [step] at hstep
      split at hstep
      · rename_i below htop
        obtain rfl := Option.some.inj hstep
        exact ⟨_, _, h.pops none htop rfl rfl⟩
      · cases hstep
  | waitChecked t =>
      rw [step] at hstep
      split at hstep
      · rename_i f below htop
        split_ifs at hstep
        · obtain rfl := Option.some.inj hstep
          exact ⟨_, _, h.pops w.net.life.stopThread htop rfl rfl⟩
        · obtain rfl := Option.some.inj hstep
          exact ⟨_, _, h.pops w.net.life.stopThread htop rfl rfl⟩
      · cases hstep
  | stopReturns t =>
      rw [step] at hstep
      split at hstep
      · rename_i f below htop
        split_ifs at hstep
        obtain rfl := Option.some.inj hstep
        exact ⟨_, _, h.pops w.net.life.stopThread htop rfl rfl⟩
      · cases hstep
  | astartCancelled f =>
      rw [step] at hstep
      split at hstep
      · obtain rfl := Option.some.inj hstep
        exact ⟨_, _, h.setAstart (by rintro ⟨⟩)⟩
      · cases hstep
  | astartResumes t helper f => exact h.resumeAstart hstep

/-! ### Safety -/

/-- The frame is inside `_do_start` or `_do_stop`. -/
def Frame.works : Frame → Bool
  | .start _ (.running _ _) | .start _ (.rollback _ _) | .finish _ (.running _) => true
  | _ => false

/-- A thread is inside `_do_start` or `_do_stop`. -/
def System.Working (w : System) (t : ThreadId) : Prop :=
  ∃ frame ∈ w.frames t, frame.works = true

/-- Only the startup and a shutdown that excludes other threads work. -/
theorem working_of_frames
    {topology : Topology} {w : System} {start : Option StartCall} {finish : Option FinishCall}
    (h : Consistent topology w start finish) {t : ThreadId} (hworking : w.Working t) :
    (∃ call, start = some call ∧ call.thread = t) ∨
      ∃ call, finish = some call ∧ call.thread = t ∧
        ∀ other, start = some other → other.thread = t := by
  obtain ⟨frame, hmem, hworks⟩ := hworking
  have hcontrols : frame.controls = true := by
    cases frame with
    | start f pc => rfl
    | finish f pc => rfl
    | clearThread => cases hworks
    | checkWait f => cases hworks
    | awaitStop f => cases hworks
  have hfilter := List.mem_filter.mpr ⟨hmem, hcontrols⟩
  rw [h.frames t] at hfilter
  rcases List.mem_append.mp hfilter with hmem | hmem
  · right
    cases finish with
    | none => cases hmem
    | some call =>
        simp only [finishFrames] at hmem
        split_ifs at hmem with hthread
        · obtain rfl := List.mem_singleton.mp hmem
          rcases call with ⟨u, f, pc⟩
          cases pc with
          | running todo => exact ⟨_, rfl, hthread, fun other hother =>
              (h.safe.excludes _ rfl other hother).trans hthread⟩
          | _ => cases hworks
        · cases hmem
  · left
    cases start with
    | none => cases hmem
    | some call =>
        simp only [startFrames] at hmem
        split_ifs at hmem with hthread
        · exact ⟨call, rfl, hthread⟩
        · cases hmem

/--
In every run, `_do_start` and `_do_stop` are in progress on one thread at most.  A startup
during which a shutdown was requested before its final check never sets `_running`, and it
raises after it has been rolled back, also out of an `astart`.  While no startup is pending
and no shutdown in progress, the network is completely up or completely down.
-/
theorem lifecycle_safe
    (topology : Topology) (options : Options) (w : System)
    (hrun : Runs.Reaches (step topology options) Runs.anyStep {} w) :
    (∀ t u, w.Working t → w.Working u → t = u) ∧
    (∀ f ∈ w.requested, f ∉ w.committed ∧
      (∀ result, w.outcome f = some result → (∃ exc, result = some exc) ∧ f ∈ w.rolledBack) ∧
      ∀ result, w.astarts f = .ended result → ∃ exc, result = some exc) ∧
    (w.net.life.startFuture = none → w.net.life.stopPending = false →
      (w.net.life.running = true ∧ w.net.res.Full topology) ∨
      (w.net.life.running = false ∧ w.net.res.Empty)) := by
  have hcontrolled : Controlled topology w :=
    hrun.invariant (controlled_init topology) fun _ _ _ hinv _ hstep => controlled_step hinv hstep
  obtain ⟨start, finish, h⟩ := hcontrolled
  refine ⟨?_, ?_, ?_⟩
  · intro t u ht hu
    rcases working_of_frames h ht with ⟨call, hcall, ht⟩ | ⟨call, hcall, ht, hothert⟩ <;>
      rcases working_of_frames h hu with ⟨call', hcall', hu⟩ | ⟨call', hcall', hu, hotheru⟩
    · obtain rfl := Option.some.inj (hcall.symm.trans hcall')
      exact ht.symm.trans hu
    · exact ht.symm.trans (hotheru call hcall)
    · exact (hothert call' hcall').symm.trans hu
    · obtain rfl := Option.some.inj (hcall.symm.trans hcall')
      exact ht.symm.trans hu
  · intro f hf
    have hfree := h.history.disjoint f hf
    refine ⟨hfree, ?_, ?_⟩
    · rintro (_ | exc) houtcome
      · exact absurd (h.history.returned f houtcome) hfree
      · exact ⟨⟨exc, rfl⟩, h.history.raised f exc houtcome⟩
    · rintro (_ | exc) hended
      · exact absurd (h.history.awaited f hended) hfree
      · exact ⟨exc, rfl⟩
  · intro hstart hstop
    obtain rfl : start = none := by simpa [hstart] using h.safe.startFuture.symm
    obtain rfl : finish = none := by
      simpa [(pendingStop_eq_none_iff _).mpr hstop] using h.safe.pendingStop.symm
    rcases h.safe.reflects with hup | hdown
    · exact .inl ⟨hup.running, hup.full⟩
    · exact .inr ⟨hdown.running, hdown.empty⟩

/-- A topology of one host. -/
def oneHost : Topology where
  hosts := OrderedDict.ofList [("h1", { name := "h1" })]

/-- Thread 1 asks for a shutdown while thread 0 starts the network, and waits for it. -/
def interruptedStartup : List Label :=
  [.callStart 0] ++ List.replicate 4 (.startAdvances 0 none []) ++
    [.callStop 1 2 false, .finishAdvances 1 [], .finishAdvances 1 []] ++
    List.replicate 19 (.startAdvances 0 none []) ++ [.startEnds 0] ++
    List.replicate 11 (.finishAdvances 1 []) ++
    [.finishEnds 1, .threadCleared 1, .waitChecked 1, .stopReturns 1]

/-- The startup is rolled back and raises, and the network is down. -/
theorem lifecycle_safe_interrupted :
    ∃ w, Runs.execute (step oneHost { skipValidation := true }) {} interruptedStartup = some w ∧
      w.requested = [0] ∧ 0 ∉ w.committed ∧ w.outcome 0 = some (some .interrupted) ∧
      w.net.res.Empty := by
  have hrequested : ∃ w,
      Runs.execute (step oneHost { skipValidation := true }) {} interruptedStartup = some w ∧
      w.requested = [0] ∧ w.outcome 0 = some (some .interrupted) ∧
      w.net.life.startFuture = none ∧ w.net.life.stopPending = false ∧
      w.net.life.running = false := ⟨_, rfl, rfl, rfl, rfl, rfl, rfl⟩
  obtain ⟨w, hexecute, hrequest, houtcome, hstart, hstop, hdown⟩ := hrequested
  have hrun : Runs.Reaches (step oneHost { skipValidation := true }) Runs.anyStep {} w :=
    Runs.reaches_of_execute (fun _ _ _ => trivial) hexecute
  obtain ⟨-, hinterrupted, hrest⟩ :=
    lifecycle_safe oneHost { skipValidation := true } w hrun
  refine ⟨w, hexecute, hrequest, (hinterrupted 0 (by simp [hrequest])).1, houtcome, ?_⟩
  rcases hrest hstart hstop with ⟨hup, -⟩ | ⟨-, hempty⟩
  · rw [hdown] at hup
    cases hup
  · exact hempty

end Network
end P4Net
