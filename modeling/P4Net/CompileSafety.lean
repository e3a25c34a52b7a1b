import P4Net.CompileCalls

/-!
# What the result of a compilation stands for

A user of `compile` loads the two files whose paths it returned.  Other calls go on using
the cache meanwhile: they look the same key up, replace its entry by force, or fail half
way through.

* `cache_of_run` projects a run of the calls to a run of the cache directory.
* `ServiceInv` : a call works under the key of its own inputs, and every writer of the
  cache directory belongs to a call.
* `returned_sound` : every file behind a result was built from exactly the inputs of its
  call, and if no restoring rename raises both files are in place.
-/

namespace P4Net
namespace CompilerCache

open Runs BigEndian TextLiterals

/-! ### From calls to the cache directory -/

/-- The step is not a restoring rename of the entry of the key that raises. -/
def RestoresKey (k : Text) (s : Service) (event : Event) : Prop :=
  ∀ i result, event = .next i (.published (.call result)) →
    Restores k s.cache (.call i result)

/-- A step of a call is a step of the cache directory, or leaves it alone. -/
theorem advance_cache
    {ext : Externals} {c c' : Cache Text} {i : Nat} {request : CompileRequest}
    {event : CallEvent} {phase phase' : CallPhase}
    (h : Advance ext c i request event phase phase' c') :
    c' = c ∨ ∃ act, step c act = some c' ∧
      ∀ w result, act = .call w result → w = i ∧ event = .published (.call result) := by
  cases h with
  | early hearly hnext => exact .inl rfl
  | forced run sourceBytes version preprocessed => exact .inl rfl
  | failed run x error => exact .inl rfl
  | lookup run sourceBytes version preprocessed hstep =>
      exact .inr ⟨_, hstep, by rintro w result ⟨⟩⟩
  | look x hstep => exact .inr ⟨_, hstep, by rintro w result ⟨⟩⟩
  | staged run x json p4info hstep => exact .inr ⟨_, hstep, by rintro w result ⟨⟩⟩
  | publish publishEvent x hstep =>
      refine .inr ⟨_, hstep, ?_⟩
      cases publishEvent with
      | call result =>
          rintro w result' ⟨⟩
          exact ⟨rfl, rfl⟩
      | _ => rintro w result ⟨⟩

/--
The cache directory takes part in a run of the calls with steps of its own; what is assumed of the
calls of the steps carries over.
-/
theorem cache_of_run
    {ext : Externals} {start s : Service} {ok : Service → Event → Prop}
    {okAct : Cache Text → Act Text → Prop}
    (hok : ∀ u event act, ok u event →
      (∀ w result, act = .call w result → event = .next w (.published (.call result))) →
      okAct u.cache act)
    (h : Reaches (serviceStep ext) ok start s) :
    Reaches step okAct start.cache s.cache := by
  refine @Reaches.invariant _ _ (serviceStep ext) ok
    (fun u => Reaches step okAct start.cache u.cache) start s h .refl ?_
  intro u event v hu hevent hstep
  rcases serviceStep_cases hstep with ⟨i, request, -, hcache, -⟩ |
    ⟨i, callEvent, call, phase, rfl, -, -, hadvance⟩
  · rw [hcache]
    exact hu
  · rcases advance_cache hadvance with hsame | ⟨act, hact, hcall⟩
    · rw [hsame]
      exact hu
    · refine hu.tail (hok u _ act hevent fun w result heq => ?_) hact
      obtain ⟨rfl, rfl⟩ := hcall w result heq
      rfl

/-- A run in which no restoring rename of the key raises is one of the cache directory. -/
theorem cache_of_restoringRun
    {ext : Externals} {start s : Service} {k : Text}
    (h : Reaches (serviceStep ext) (RestoresKey k) start s) :
    Reaches step (Restores k) start.cache s.cache :=
  cache_of_run (fun _ _ _ hok hact w result p heq =>
    hok w result (hact w result heq) w result p rfl) h

/-! ### The records of the other calls -/

/-- A step of a writer leaves the lookups and the other writers alone. -/
theorem frame_writer
    {s t : Cache Text} {act : Act Text} {w : Nat}
    (hact : act.writer = some w) (h : step s act = some t) :
    t.readers = s.readers ∧ ∀ v, v ≠ w → t.writers v = s.writers v := by
  rcases step_record h with ⟨hnone, -⟩ | ⟨u, p', hu, hreaders, hwriters, -⟩
  · simp [hnone] at hact
  · obtain rfl : u = w := Option.some.inj (hu.symm.trans hact)
    exact ⟨hreaders, fun v hv => by rw [hwriters, Function.update_of_ne hv]⟩

/-- A step of a lookup leaves the writers and the other lookups alone. -/
theorem frame_reader
    {s t : Cache Text} {act : Act Text} {r : Nat}
    (hact : act = .read r ∨ ∃ key, act = .lookup r key) (h : step s act = some t) :
    t.writers = s.writers ∧ ∀ v, v ≠ r → t.readers v = s.readers v := by
  rcases hact with rfl | ⟨key, rfl⟩
  · obtain ⟨reader, -, rfl⟩ := step_read h
    exact ⟨rfl, fun v hv => by simp [hv]⟩
  · obtain ⟨-, rfl⟩ := step_lookup h
    exact ⟨rfl, fun v hv => by simp [hv]⟩

theorem writer_act
    (event : PublishEvent) (i : Nat) :
    (event.act i).writer = some i := by
  cases event <;> rfl

/-- The records of the other calls stay as they are. -/
theorem advance_frame
    {ext : Externals} {c c' : Cache Text} {i : Nat} {request : CompileRequest}
    {event : CallEvent} {phase phase' : CallPhase}
    (h : Advance ext c i request event phase phase' c') :
    ∀ j, j ≠ i → c'.writers j = c.writers j ∧ c'.readers j = c.readers j := by
  intro j hj
  cases h with
  | early hearly hnext => exact ⟨rfl, rfl⟩
  | forced run sourceBytes version preprocessed => exact ⟨rfl, rfl⟩
  | failed run x error => exact ⟨rfl, rfl⟩
  | lookup run sourceBytes version preprocessed hstep =>
      obtain ⟨hwriters, hreaders⟩ := frame_reader (.inr ⟨_, rfl⟩) hstep
      exact ⟨congrFun hwriters j, hreaders j hj⟩
  | look x hstep =>
      obtain ⟨hwriters, hreaders⟩ := frame_reader (.inl rfl) hstep
      exact ⟨congrFun hwriters j, hreaders j hj⟩
  | staged run x json p4info hstep =>
      obtain ⟨hreaders, hwriters⟩ := frame_writer rfl hstep
      exact ⟨hwriters j hj, congrFun hreaders j⟩
  | publish publishEvent x hstep =>
      obtain ⟨hreaders, hwriters⟩ := frame_writer (writer_act publishEvent i) hstep
      exact ⟨hwriters j hj, congrFun hreaders j⟩

/-! ### The invariant of the calls -/

/-- The inputs are those of a call with the request. -/
def CompileInputs.Of (x : CompileInputs) (request : CompileRequest) : Prop :=
  ∃ sourceBytes version preprocessed, x = request.inputs sourceBytes version preprocessed

/-- What holds between the steps of a call: it works under the key of its inputs. -/
def CallOk (ext : Externals) (c : Cache Text) (i : Nat) (call : CompileCall) : Prop :=
  match call.phase with
  | .looking x =>
      x.Of call.request ∧ ∃ reader, c.readers i = some reader ∧ reader.key = ext.key x
  | .building x => x.Of call.request
  | .publishing x => x.Of call.request ∧ ∃ p, c.writers i = some p ∧ p.key = ext.key x
  | .returned x result =>
      x.Of call.request ∧ result = ext.result call.request x result.cacheHit ∧
        ((∃ reader, c.readers i = some reader ∧ reader.key = ext.key x ∧
            reader.phase = .returned true) ∨
          ∃ p, c.writers i = some p ∧ p.key = ext.key x ∧ p.phase.outcome = some .returned)
  | _ => True

theorem callOk_frame
    {ext : Externals} {c c' : Cache Text} {i : Nat} {call : CompileCall}
    (hwriters : c'.writers i = c.writers i) (hreaders : c'.readers i = c.readers i)
    (h : CallOk ext c i call) :
    CallOk ext c' i call := by
  unfold CallOk at h ⊢
  rw [hwriters, hreaders]
  exact h

theorem callOk_early
    {ext : Externals} {c : Cache Text} {i : Nat} {call : CompileCall}
    (h : call.phase.Early) :
    CallOk ext c i call := by
  unfold CallOk
  cases hphase : call.phase <;> simp_all [CallPhase.Early]

/-- A step of the lookup keeps its key and may end the call. -/
theorem callOk_look
    {ext : Externals} {c c' : Cache Text} {i : Nat} {request : CompileRequest} {x : CompileInputs}
    (hok : CallOk ext c i { request := request, phase := .looking x })
    (h : step c (.read i) = some c') :
    CallOk ext c' i
      { request := request
        phase := afterLookup ext request x ((c'.readers i).map Reader.phase) } := by
  obtain ⟨hof, reader, hreader, hkey⟩ := hok
  obtain ⟨reader', hreader', rfl⟩ := step_read h
  obtain rfl : reader = reader' := Option.some.inj (hreader.symm.trans hreader')
  simp only [Function.update_self, Option.map_some]
  generalize hphase : cacheHitStep (c.entries reader.key) reader.phase = phase
  unfold afterLookup
  split
  · rename_i heq
    obtain rfl := Option.some.inj heq
    exact ⟨hof, rfl, .inl ⟨_, Function.update_self _ _ _, hkey, rfl⟩⟩
  · exact hof
  · exact True.intro
  · exact ⟨hof, _, Function.update_self _ _ _, hkey⟩

/-- A step of the publish keeps its key and may end the call. -/
theorem callOk_publish
    {ext : Externals} {c c' : Cache Text} {i : Nat} {request : CompileRequest} {x : CompileInputs}
    {event : PublishEvent}
    (hok : CallOk ext c i { request := request, phase := .publishing x })
    (h : step c (event.act i) = some c') :
    CallOk ext c' i
      { request := request
        phase := afterPublish ext request x ((c'.writers i).map Writer.phase) } := by
  obtain ⟨hof, p, hp, hkey⟩ := hok
  obtain ⟨p', hp', hkey', -⟩ := writers_step hp h
  rw [hp', Option.map_some]
  unfold afterPublish
  split
  · rename_i heq
    refine ⟨hof, rfl, .inr ⟨p', hp', hkey'.trans hkey, ?_⟩⟩
    rw [Option.some.inj heq]
    rfl
  · exact True.intro
  · exact ⟨hof, p', hp', hkey'.trans hkey⟩

theorem advance_ok
    {ext : Externals} {c c' : Cache Text} {i : Nat} {call : CompileCall}
    {event : CallEvent} {phase' : CallPhase}
    (hok : CallOk ext c i call)
    (h : Advance ext c i call.request event call.phase phase' c') :
    CallOk ext c' i { call with phase := phase' } := by
  obtain ⟨request, phase⟩ := call
  cases h with
  | early hearly hnext =>
      rcases hnext with hnext | ⟨error, rfl⟩
      · exact callOk_early hnext
      · exact True.intro
  | forced run sourceBytes version preprocessed => exact ⟨_, _, _, rfl⟩
  | failed run x error => exact True.intro
  | lookup run sourceBytes version preprocessed hstep =>
      obtain ⟨-, rfl⟩ := step_lookup hstep
      exact ⟨⟨_, _, _, rfl⟩, _, Function.update_self _ _ _, rfl⟩
  | look x hstep => exact callOk_look hok hstep
  | staged run x json p4info hstep =>
      obtain ⟨-, staged, -, rfl⟩ := step_stage hstep
      exact ⟨hok, _, Function.update_self _ _ _, rfl⟩
  | publish publishEvent x hstep =>
      exact callOk_publish hok hstep

/-- The inputs of a call do not change once they are known. -/
theorem advance_inputs
    {ext : Externals} {c c' : Cache Text} {i : Nat} {request : CompileRequest}
    {event : CallEvent} {phase phase' : CallPhase} {x : CompileInputs}
    (h : Advance ext c i request event phase phase' c') (hx : phase.inputs = some x) :
    phase'.inputs = some x := by
  cases h with
  | early hearly hnext => cases phase <;> simp_all [CallPhase.inputs, CallPhase.Early]
  | forced run sourceBytes version preprocessed => simp [CallPhase.inputs] at hx
  | lookup run sourceBytes version preprocessed hstep => simp [CallPhase.inputs] at hx
  | failed run y error => exact hx
  | staged run y json p4info hstep => exact hx
  | look y hstep =>
      rw [← hx]
      unfold afterLookup
      split <;> rfl
  | publish publishEvent y hstep =>
      rw [← hx]
      unfold afterPublish
      split <;> rfl

/-- A writer of the call has the key of its inputs. -/
theorem advance_owner
    {ext : Externals} {c c' : Cache Text} {i : Nat} {request : CompileRequest}
    {event : CallEvent} {phase phase' : CallPhase} {p : Writer Text}
    (h : Advance ext c i request event phase phase' c') (hp : c'.writers i = some p) :
    (∃ q, c.writers i = some q ∧ q.key = p.key) ∨
      ∃ x, phase'.inputs = some x ∧ ext.key x = p.key := by
  cases h with
  | early hearly hnext => exact .inl ⟨p, hp, rfl⟩
  | forced run sourceBytes version preprocessed => exact .inl ⟨p, hp, rfl⟩
  | failed run x error => exact .inl ⟨p, hp, rfl⟩
  | lookup run sourceBytes version preprocessed hstep =>
      exact .inl ⟨p, (congrFun (frame_reader (.inr ⟨_, rfl⟩) hstep).1 i).symm.trans hp, rfl⟩
  | look x hstep =>
      exact .inl ⟨p, (congrFun (frame_reader (.inl rfl) hstep).1 i).symm.trans hp, rfl⟩
  | staged run x json p4info hstep =>
      obtain ⟨-, staged, -, rfl⟩ := step_stage hstep
      obtain rfl : { key := ext.key x, force := request.force, staged := staged } = p := by
        simpa using hp
      exact .inr ⟨x, rfl, rfl⟩
  | publish publishEvent x hstep =>
      cases hq : c.writers i with
      | some q =>
          obtain ⟨q', hq', hkey, -⟩ := writers_step hq hstep
          obtain rfl : p = q' := Option.some.inj (hp.symm.trans hq')
          exact .inl ⟨q, rfl, hkey.symm⟩
      | none => cases publishEvent <;> simp [PublishEvent.act, step, hq] at hstep

/-- A call that is over takes no step. -/
theorem advance_ended
    {ext : Externals} {c c' : Cache Text} {i : Nat} {request : CompileRequest}
    {event : CallEvent} {phase phase' : CallPhase}
    (h : Advance ext c i request event phase phase' c') :
    ¬ phase.Ended := by
  cases h with
  | early hearly hnext => cases phase <;> simp_all [CallPhase.Ended, CallPhase.Early]
  | _ => exact id

/-- Before the run all calls are over, and the files of the cache directory come from
calls that computed their key. -/
structure Settled (ext : Externals) (s : Service) : Prop where
  fresh : Fresh s.cache
  ended : ∀ i call, s.calls i = some call → call.phase.Ended
  recorded : ∀ k build, (s.cache.entries k).Holds build →
    ∃ call x, s.calls build = some call ∧ call.phase.inputs = some x ∧ ext.key x = k

/-- What every step of every call keeps. -/
structure ServiceInv (ext : Externals) (start s : Service) : Prop where
  old : ∀ i call, start.calls i = some call → s.calls i = some call
  ok : ∀ i call, start.calls i = none → s.calls i = some call → CallOk ext s.cache i call
  owner : ∀ w p, s.cache.writers w = some p →
    ∃ call x, s.calls w = some call ∧ call.phase.inputs = some x ∧ ext.key x = p.key

theorem serviceInv_step
    {ext : Externals} {start s t : Service} {event : Event}
    (hstart : Settled ext start) (hs : ServiceInv ext start s)
    (h : serviceStep ext s event = some t) :
    ServiceInv ext start t := by
  rcases serviceStep_cases h with ⟨i, request, hnone, hcache, hcalls⟩ |
    ⟨i, callEvent, call, phase, -, hcall, hcalls, hadvance⟩
  · constructor
    · intro j call hj
      have hold := hs.old j call hj
      have hji : j ≠ i := by
        rintro rfl
        simp [hnone] at hold
      rw [hcalls, Function.update_of_ne hji]
      exact hold
    · intro j call hj hcall
      rw [hcalls] at hcall
      by_cases hji : j = i
      · obtain rfl : { request := request } = call := by simpa [hji] using hcall
        exact True.intro
      · rw [hcache]
        exact hs.ok j call hj (by simpa [hji] using hcall)
    · intro w p hp
      rw [hcache] at hp
      obtain ⟨call, x, hcall, hx, hkey⟩ := hs.owner w p hp
      have hwi : w ≠ i := by
        rintro rfl
        simp [hnone] at hcall
      exact ⟨call, x, by rw [hcalls, Function.update_of_ne hwi]; exact hcall, hx, hkey⟩
  · have hnew : start.calls i = none := by
      by_contra hne
      obtain ⟨call', hcall'⟩ := Option.ne_none_iff_exists'.mp hne
      have hsame : call = call' := Option.some.inj (hcall.symm.trans (hs.old i call' hcall'))
      exact advance_ended hadvance (hsame ▸ hstart.ended i call' hcall')
    have hframe := advance_frame hadvance
    constructor
    · intro j call' hj
      have hji : j ≠ i := by
        rintro rfl
        simp [hnew] at hj
      rw [hcalls, Function.update_of_ne hji]
      exact hs.old j call' hj
    · intro j call' hj hcall'
      rw [hcalls] at hcall'
      by_cases hji : j = i
      · subst hji
        obtain rfl : { call with phase := phase } = call' := by simpa using hcall'
        exact advance_ok (hs.ok j call hj hcall) hadvance
      · exact callOk_frame (hframe j hji).1 (hframe j hji).2
          (hs.ok j call' hj (by simpa [hji] using hcall'))
    · intro w p hp
      by_cases hwi : w = i
      · subst hwi
        refine ⟨{ call with phase := phase }, ?_⟩
        rcases advance_owner hadvance hp with ⟨q, hq, hkey⟩ | ⟨x, hx, hkey⟩
        · obtain ⟨call', x, hcall', hx, hxkey⟩ := hs.owner w q hq
          obtain rfl : call = call' := Option.some.inj (hcall.symm.trans hcall')
          exact ⟨x, by rw [hcalls]; simp, advance_inputs hadvance hx, hxkey.trans hkey⟩
        · exact ⟨x, by rw [hcalls]; simp, hx, hkey⟩
      · rw [(hframe w hwi).1] at hp
        obtain ⟨call', x, hcall', hx, hkey⟩ := hs.owner w p hp
        exact ⟨call', x, by rw [hcalls, Function.update_of_ne hwi]; exact hcall', hx, hkey⟩

theorem serviceInv_of_run
    {ext : Externals} {start s : Service} {ok : Service → Event → Prop}
    (hstart : Settled ext start) (h : Reaches (serviceStep ext) ok start s) :
    ServiceInv ext start s := by
  refine h.invariant ⟨fun _ _ hcall => hcall, ?_, ?_⟩
    (fun u event v hu _ hstep => serviceInv_step hstart hu hstep)
  · intro i call hnone hcall
    simp [hnone] at hcall
  · intro w p hp
    simp [hstart.fresh.writers w] at hp

/-! ### Results -/

/-- No two inputs of the calls collide under the digest. -/
def Collisionless (ext : Externals) (s : Service) : Prop :=
  ∀ i j call call' x y, s.calls i = some call → s.calls j = some call' →
    call.phase.inputs = some x → call'.phase.inputs = some y →
    ext.hexdigest (hashed x) = ext.hexdigest (hashed y) → hashed x = hashed y

/-- Every file under the key of a call was built by a call with the same inputs. -/
theorem files_of_key
    {ext : Externals} {start s : Service} {i build : Nat} {call : CompileCall}
    {x : CompileInputs}
    (hstart : Settled ext start) (h : Reaches (serviceStep ext) anyStep start s)
    (hdigest : Collisionless ext s)
    (hcall : s.calls i = some call) (hx : call.phase.inputs = some x)
    (hbuild : (s.cache.entries (ext.key x)).Holds build) :
    ∃ builder, s.calls build = some builder ∧ builder.phase.inputs = some x := by
  have hinv := serviceInv_of_run hstart h
  have htraced : Traced (fun k build => ∃ call x, start.calls build = some call ∧
      call.phase.inputs = some x ∧ ext.key x = k) s.cache :=
    traced_of_run hstart.fresh hstart.recorded
      (@cache_of_run ext start s anyStep anyStep (fun _ _ _ _ _ => True.intro) h)
  have horigin : ∃ builder y, s.calls build = some builder ∧ builder.phase.inputs = some y ∧
      ext.key y = ext.key x := by
    rcases (htraced.files (ext.key x)).1 build hbuild with ⟨builder, y, hold, hy, hkey⟩ |
      ⟨p, hp, hkey⟩
    · exact ⟨builder, y, hinv.old build builder hold, hy, hkey⟩
    · obtain ⟨builder, y, hbuilder, hy, hykey⟩ := hinv.owner build p hp
      exact ⟨builder, y, hbuilder, hy, hykey.trans hkey⟩
  obtain ⟨builder, y, hbuilder, hy, hkey⟩ := horigin
  have hxy : y = x :=
    hashed_injective (hdigest build i builder call y x hbuilder hcall hy hx hkey)
  exact ⟨builder, hbuilder, hxy ▸ hy⟩

/--
Whatever the other calls do meanwhile, the result of a call is about its own inputs: every file
under its paths was built from them.  In a run in which no restoring rename of the key raises,
both files are there, of one build, whenever nobody has the lock.
-/
theorem returned_sound
    {ext : Externals} {start s : Service} {i : Nat} {call : CompileCall}
    {x : CompileInputs} {result : CompileResult}
    (hstart : Settled ext start) (h : Reaches (serviceStep ext) anyStep start s)
    (hdigest : Collisionless ext s)
    (hnew : start.calls i = none) (hcall : s.calls i = some call)
    (hreturned : call.phase = .returned x result) :
    (x.Of call.request ∧ result = ext.result call.request x result.cacheHit) ∧
      (∀ build, (s.cache.entries result.sourceHash).Holds build →
        ∃ builder, s.calls build = some builder ∧ builder.phase.inputs = some x) ∧
      (Reaches (serviceStep ext) (RestoresKey (ext.key x)) start s → s.cache.lock = none →
        (s.cache.entries result.sourceHash).Complete ∧
          (s.cache.entries result.sourceHash).SingleBuild) := by
  have hok := (serviceInv_of_run hstart h).ok i call hnew hcall
  simp only [CallOk, hreturned] at hok
  obtain ⟨hof, hresult, hended⟩ := hok
  have hhash : result.sourceHash = ext.key x := by rw [hresult]; rfl
  rw [hhash]
  refine ⟨⟨hof, hresult⟩, ?_, ?_⟩
  · intro build hbuild
    exact files_of_key hstart h hdigest hcall (by rw [hreturned]; rfl) hbuild
  · intro hrestores hlock
    obtain ⟨hinv, havailable⟩ :=
      available_of_run hstart.fresh (cache_of_restoringRun hrestores)
    have hkept : Kept (ext.key x) s.cache := by
      rcases hended with ⟨reader, hreader, hkey, hhit⟩ | ⟨p, hp, hkey, hout⟩
      · exact havailable.hit i reader hreader hkey hhit
      · exact havailable.published i p hp hkey hout
    have hcomplete := complete_of_kept hkept hlock
    exact ⟨hcomplete, hinv.single _ hcomplete⟩

/-! ### Two calls one after the other -/

/-- A request without extra arguments. -/
def plainRequest : CompileRequest where
  compiler := 0
  source := "a.p4".toList
  stem := "a".toList
  absolute := ascii "/a.p4".toList
  arch := "v1model".toList
  force := false
  extraArgs := []

def plainInputs : CompileInputs :=
  plainRequest.inputs (ascii ['s']) "1.2".toList (ascii ['p'])

/-- Decoding of ASCII bytes, and a digest that is SHA-256 where it is taken here. -/
def plainExternals : Externals where
  decode := fun bytes => bytes.map (fun b => Char.ofNat b.toNat)
  binary := "'p4c'".toList
  hexdigest := fun bytes =>
    if bytes = hashed plainInputs then
      "86fd53d9608429538d3f8c0341ecec714cceb345622d0f2eddce12c010aa91be".toList
    else '#' :: bytes.map (fun b => Char.ofNat b.toNat)

theorem plainExternals_injective : Function.Injective plainExternals.hexdigest := by
  intro a b h
  simp only [plainExternals] at h
  split_ifs at h with ha hb hb
  · rw [ha, hb]
  · exact absurd (congrArg List.head? h) (by simp)
  · exact absurd (congrArg List.head? h) (by simp)
  · refine List.map_injective_iff.mpr ?_ (List.cons.inj h).2
    intro x y hxy
    have hbyte : ∀ n < 256, (Char.ofNat n).toNat = n := by decide +kernel
    have hnat := congrArg Char.toNat hxy
    rw [hbyte _ x.toNat_lt, hbyte _ y.toNat_lt] at hnat
    exact UInt8.toNat_inj.mp hnat

/-- An empty cache directory, on which nobody works. -/
def emptyService : Service where
  cache :=
    { entries := fun _ => .missing
      lock := none
      writers := fun _ => none
      readers := fun _ => none }
  versions := fun _ => none
  calls := fun _ => none

theorem settled_emptyService : Settled plainExternals emptyService := by
  refine ⟨⟨rfl, fun _ => rfl, fun _ => rfl, fun k hcomplete => ?_⟩, fun i call hcall => ?_,
    fun k build hbuild => ?_⟩
  · exact absurd hcomplete not_complete_missing
  · exact absurd hcall (by simp [emptyService])
  · exact absurd hbuild (not_holds_missing build)

/-- A run of `p4c` that succeeded. -/
def succeeded (stdout : Text) : Completed where
  returncode := 0
  stdout := ascii stdout
  stderr := []

/-- A call that misses, builds and publishes, and a second one through the same compiler. -/
def missThenHit : List Event :=
  [.compile 0 plainRequest, .next 0 (.sourceChecked true),
    .next 0 (.sourceRead (some (ascii ['s']))), .next 0 .versionChecked,
    .next 0 (.versionRun (.finished (succeeded "1.2\n".toList) ())), .next 0 .versionReturned,
    .next 0 (.preprocessed (.finished (succeeded []) (some (ascii ['p'])))), .next 0 .looked,
    .next 0 (.built (.finished (succeeded []) ⟨"/tmp/t".toList, some 100, some 20⟩)),
    .next 0 (.published .acquire), .next 0 (.published (.call .ok)),
    .next 0 (.published (.call .ok)), .next 0 (.published (.call .ok)),
    .next 0 (.published .close),
    .compile 1 plainRequest, .next 1 (.sourceChecked true),
    .next 1 (.sourceRead (some (ascii ['s']))), .next 1 .versionChecked,
    .next 1 (.preprocessed (.finished (succeeded []) (some (ascii ['p'])))),
    .next 1 .looked, .next 1 .looked, .next 1 .looked, .next 1 .looked, .next 1 .looked]

theorem isSome_missThenHit :
    (execute (serviceStep plainExternals) emptyService missThenHit).isSome = true := by
  decide +kernel

theorem second_missThenHit :
    (execute (serviceStep plainExternals) emptyService missThenHit).bind (fun s => s.calls 1) =
      some ⟨plainRequest, .returned plainInputs
        (plainExternals.result plainRequest plainInputs true)⟩ := by
  decide +kernel

/-- No publish of the run has a call that raises. -/
theorem restoresKey_missThenHit
    (k : Text) (s : Service) (event : Event) (h : event ∈ missThenHit) :
    RestoresKey k s event := by
  rintro i result rfl w result' p hact - - -
  obtain ⟨-, rfl⟩ : i = w ∧ result = result' := by simpa using hact
  have hok : i = 0 ∧ result = .ok := by simpa [missThenHit] using h
  exact hok.2

/-- The run ends with nobody at the lock. -/
theorem lock_missThenHit :
    (execute (serviceStep plainExternals) emptyService missThenHit).map
      (fun s => s.cache.lock) = some none := by
  decide +kernel

theorem returned_sound_hit :
    ∃ s, execute (serviceStep plainExternals) emptyService missThenHit = some s ∧
      (s.calls 1).map CompileCall.phase = some (.returned plainInputs
        (plainExternals.result plainRequest plainInputs true)) ∧
      (s.cache.entries (plainExternals.key plainInputs)).Complete := by
  obtain ⟨s, hs⟩ := Option.isSome_iff_exists.mp isSome_missThenHit
  have hcall := second_missThenHit
  have hlock := lock_missThenHit
  rw [hs, Option.bind_some] at hcall
  rw [hs, Option.map_some, Option.some.injEq] at hlock
  refine ⟨s, hs, by rw [hcall]; rfl, ?_⟩
  have hsound := returned_sound settled_emptyService
    (reaches_of_execute (fun _ _ _ => True.intro) hs)
    (fun _ _ _ _ _ _ _ _ _ _ heq => plainExternals_injective heq) rfl hcall rfl
  exact (hsound.2.2 (reaches_of_execute (fun u a ha => restoresKey_missThenHit _ u a ha) hs)
    hlock).1

end CompilerCache
end P4Net
