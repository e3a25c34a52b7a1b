import P4Net.CacheProvenance
import P4Net.CompilerCacheKey
import P4Net.TextLines

/-!
# Calls of `compile`

Any number of threads and processes call `P4Compiler.compile` on one cache directory.  A
call checks and reads its source, asks for the version of the compiler, preprocesses,
looks its key up, and on a miss runs the backend and publishes what that left behind.

* `version`, `preprocess` and `backend` are the checks of what a run of `p4c` left behind.
* `callStep` are the steps of one call; what the file system and `p4c` answer is chosen by
  the environment, and may be an error.
* `serviceStep` interleaves any number of calls.
* `serviceStep_cases` lists what one step can do to the calls and to the cache directory.
-/

namespace P4Net
namespace CompilerCache

open Runs BigEndian TextLiterals

/-! ### What a run of `p4c` leaves behind -/

/-- What the calls take from outside: `decode("utf-8", errors="replace")`, the `repr` of
the configured binary, and SHA-256. -/
structure Externals where
  decode : Bytes → Text
  binary : Text
  hexdigest : Bytes → Text

/-- What `subprocess.run` returned. -/
structure Completed where
  returncode : Int
  stdout : Bytes
  stderr : Bytes

/-- A run of `p4c` together with the calls around it; `notFound` is the
`FileNotFoundError` of a missing binary. -/
inductive Ran (α : Type) where
  | notFound
  | osError
  | finished (result : Completed) (output : α)

/-- `CompileError`, `CompilerNotFoundError`, or an `OSError` of a call in between. -/
inductive CompileException where
  | compileError (source : Text) (returncode : Int) (stderr : Text)
  | compilerNotFound (message : Text)
  | osError
deriving DecidableEq

/-- The exception for a binary that is not there. -/
def Externals.notOnPath (ext : Externals) : CompileException :=
  .compilerNotFound ("p4c binary ".toList ++ ext.binary ++ " not found on PATH".toList)

/-- The text that `version` takes from a run of `p4c --version`. -/
def version (ext : Externals) : Ran Unit → Except CompileException Text
  | .notFound => .error ext.notOnPath
  | .osError => .error .osError
  | .finished result _ =>
      if result.returncode ≠ 0 then
        .error (.compilerNotFound ("p4c --version failed (rc=".toList ++
          (toString result.returncode).toList ++ "): ".toList ++
          strip (ext.decode result.stderr)))
      else
        let text := strip (ext.decode (result.stdout ++ result.stderr))
        if text = [] then
          .error (.compilerNotFound ("p4c --version produced empty output for ".toList ++
            ext.binary))
        else .ok text

/-- `_preprocess` of a source with a given stem; the output is `none` when there is no
such regular file. -/
def preprocess (ext : Externals) (source stem : Text) :
    Ran (Option Bytes) → Except CompileException Bytes
  | .notFound => .error ext.notOnPath
  | .osError => .error .osError
  | .finished result output =>
      if result.returncode ≠ 0 then
        .error (.compileError source result.returncode (ext.decode result.stderr))
      else if output.getD [] = [] then
        .error (.compileError source 0
          ("p4c reported success but preprocessed output is missing or empty: ".toList ++
            stem ++ ".p4i".toList))
      else .ok (output.getD [])

/-- What the backend left in the temporary directory: the sizes of the two files. -/
structure BackendOutput where
  tmpPath : Text
  json : Option Nat
  p4info : Option Nat

/-- The `CompileError` for an output file that is missing or empty. -/
def missingOutput (source name tmpPath : Text) : CompileException :=
  .compileError source 0
    ("p4c reported success but expected output files are missing (no non-empty ".toList ++
      name ++ " in ".toList ++ tmpPath ++ ")".toList)

/-- `_real_compile` up to the staging directory. -/
def backend (ext : Externals) (source stem : Text) :
    Ran BackendOutput → Except CompileException (Nat × Nat)
  | .notFound => .error ext.notOnPath
  | .osError => .error .osError
  | .finished result output =>
      if result.returncode ≠ 0 then
        .error (.compileError source result.returncode (ext.decode result.stderr))
      else if output.json.getD 0 = 0 then
        .error (missingOutput source (stem ++ ".json".toList) output.tmpPath)
      else if output.p4info.getD 0 = 0 then
        .error (missingOutput source "program.p4info.txtpb".toList output.tmpPath)
      else .ok (output.json.getD 0, output.p4info.getD 0)

/-! ### Calls -/

/-- The arguments of `compile`, with the `P4Compiler` it is called on. -/
structure CompileRequest where
  compiler : Nat
  source : Text
  /-- `source.stem`. -/
  stem : Text
  /-- `os.fsencode(source.absolute())`. -/
  absolute : Bytes
  arch : Text
  force : Bool
  extraArgs : List Text
deriving DecidableEq

/-- `CompileResult`; the paths are relative to the cache directory. -/
structure CompileResult where
  source : Text
  arch : Text
  bmv2Json : Text
  p4info : Text
  compilerVersion : Text
  sourceHash : Text
  cacheHit : Bool
deriving DecidableEq

/-- Where a call stands.  Its inputs are known once the source is preprocessed. -/
inductive CallPhase where
  | checking
  | reading
  | versioning (sourceBytes : Bytes)
  | querying (sourceBytes : Bytes)
  | answering (sourceBytes : Bytes)
  | preprocessing (sourceBytes : Bytes) (version : Text)
  | looking (x : CompileInputs)
  | building (x : CompileInputs)
  | publishing (x : CompileInputs)
  | returned (x : CompileInputs) (result : CompileResult)
  | raised (x : Option CompileInputs) (error : CompileException)
deriving DecidableEq

/-- What the key of the call was computed from. -/
def CallPhase.inputs : CallPhase → Option CompileInputs
  | .looking x | .building x | .publishing x | .returned x _ => some x
  | .raised x _ => x
  | _ => none

/-- The call has not computed its key yet. -/
def CallPhase.Early : CallPhase → Prop
  | .checking | .reading | .versioning _ | .querying _ | .answering _
  | .preprocessing _ _ => True
  | _ => False

/-- The call is over. -/
def CallPhase.Ended : CallPhase → Prop
  | .returned _ _ | .raised _ _ => True
  | _ => False

/-- One call of `compile`. -/
structure CompileCall where
  request : CompileRequest
  phase : CallPhase := .checking
deriving DecidableEq

/-- The cache directory, the `_version` of every `P4Compiler`, and the calls. -/
structure Service where
  cache : Cache Text
  versions : Nat → Option Text
  calls : Nat → Option CompileCall

/-- The key of the inputs. -/
def Externals.key (ext : Externals) (x : CompileInputs) : Text :=
  cacheKey ext.hexdigest x

/-- The inputs of a call, from what it read. -/
def CompileRequest.inputs
    (request : CompileRequest) (sourceBytes : Bytes) (version : Text) (preprocessed : Bytes) :
    CompileInputs where
  sourcePath := request.absolute
  sourceBytes := sourceBytes
  preprocessed := preprocessed
  arch := request.arch
  version := version
  extraArgs := request.extraArgs

/-- The `CompileResult` of a call. -/
def Externals.result
    (ext : Externals) (request : CompileRequest) (x : CompileInputs) (hit : Bool) :
    CompileResult where
  source := request.source
  arch := request.arch
  bmv2Json := ext.key x ++ "/program.json".toList
  p4info := ext.key x ++ "/program.p4info.txtpb".toList
  compilerVersion := x.version
  sourceHash := ext.key x
  cacheHit := hit

/-- A call of `_publish_cache`. -/
inductive PublishEvent where
  | refuse
  | acquire
  | call (result : CallResult)
  | close

/-- The step of writer `i`. -/
def PublishEvent.act (i : Nat) : PublishEvent → Act Text
  | .refuse => .refuse i
  | .acquire => .acquire i
  | .call result => .call i result
  | .close => .close i

/-- The next step of a call, with what the environment answers. -/
inductive CallEvent where
  | sourceChecked (isFile : Bool)
  | sourceRead (contents : Option Bytes)
  | versionChecked
  | versionRun (run : Ran Unit)
  | versionReturned
  | preprocessed (run : Ran (Option Bytes))
  | looked
  | built (run : Ran BackendOutput)
  | published (event : PublishEvent)

/-- Where a call stands after a step of its lookup. -/
def afterLookup
    (ext : Externals) (request : CompileRequest) (x : CompileInputs) :
    Option ReadPhase → CallPhase
  | some (.returned true) => .returned x (ext.result request x true)
  | some (.returned false) => .building x
  | some (.raised _) => .raised (some x) .osError
  | _ => .looking x

/-- Where a call stands after a step of its publish. -/
def afterPublish
    (ext : Externals) (request : CompileRequest) (x : CompileInputs) :
    Option Phase → CallPhase
  | some (.done .returned) => .returned x (ext.result request x false)
  | some (.done _) => .raised (some x) .osError
  | _ => .publishing x

/-- The record of call `i` after a step. -/
def Service.advance (s : Service) (i : Nat) (call : CompileCall) (phase : CallPhase) : Service :=
  { s with calls := Function.update s.calls i (some { call with phase := phase }) }

/-- The next step of call `i`. -/
def callStep
    (ext : Externals) (s : Service) (i : Nat) (call : CompileCall) (event : CallEvent) :
    Option Service :=
  let request := call.request
  match call.phase, event with
  | .checking, .sourceChecked isFile =>
      if isFile then some (s.advance i call .reading)
      else
        some (s.advance i call (.raised none (.compileError request.source 0
          ("source file does not exist: ".toList ++ request.source))))
  | .reading, .sourceRead contents =>
      match contents with
      | some sourceBytes => some (s.advance i call (.versioning sourceBytes))
      | none => some (s.advance i call (.raised none .osError))
  | .versioning sourceBytes, .versionChecked =>
      match s.versions request.compiler with
      | some version => some (s.advance i call (.preprocessing sourceBytes version))
      | none => some (s.advance i call (.querying sourceBytes))
  | .querying sourceBytes, .versionRun run =>
      match version ext run with
      | .error error => some (s.advance i call (.raised none error))
      | .ok text =>
          some ({ s with versions := Function.update s.versions request.compiler (some text)
            }.advance i call (.answering sourceBytes))
  -- `return self._version`, which another thread may have set since
  | .answering sourceBytes, .versionReturned =>
      match s.versions request.compiler with
      | some version => some (s.advance i call (.preprocessing sourceBytes version))
      | none => none
  | .preprocessing sourceBytes version, .preprocessed run =>
      match preprocess ext request.source request.stem run with
      | .error error => some (s.advance i call (.raised none error))
      | .ok preprocessed =>
          let x := request.inputs sourceBytes version preprocessed
          if request.force then some (s.advance i call (.building x))
          else
            (step s.cache (.lookup i (ext.key x))).map (fun cache =>
              { s with cache := cache }.advance i call (.looking x))
  | .looking x, .looked =>
      (step s.cache (.read i)).map (fun cache =>
        { s with cache := cache }.advance i call
          (afterLookup ext request x ((cache.readers i).map Reader.phase)))
  | .building x, .built run =>
      match backend ext request.source request.stem run with
      | .error error => some (s.advance i call (.raised (some x) error))
      | .ok (json, p4info) =>
          (step s.cache (.stage i (ext.key x) request.force (some json) (some p4info))).map
            (fun cache => { s with cache := cache }.advance i call (.publishing x))
  | .publishing x, .published event =>
      (step s.cache (event.act i)).map (fun cache =>
        { s with cache := cache }.advance i call
          (afterPublish ext request x ((cache.writers i).map Writer.phase)))
  | _, _ => none

/-- A call begins, or takes its next step. -/
inductive Event where
  | compile (i : Nat) (request : CompileRequest)
  | next (i : Nat) (event : CallEvent)

/-- One step; `none` when it is not enabled. -/
def serviceStep (ext : Externals) (s : Service) : Event → Option Service
  | .compile i request =>
      match s.calls i with
      | none => some { s with calls := Function.update s.calls i (some { request := request }) }
      | some _ => none
  | .next i event =>
      match s.calls i with
      | some call => callStep ext s i call event
      | none => none

/-! ### What one step can do -/

/-- How a step of call `i` moves its phase and the cache directory. -/
inductive Advance (ext : Externals) (s : Cache Text) (i : Nat) (request : CompileRequest) :
    CallEvent → CallPhase → CallPhase → Cache Text → Prop
  | early {event : CallEvent} {phase phase' : CallPhase} :
      phase.Early → (phase'.Early ∨ ∃ error, phase' = .raised none error) →
      Advance ext s i request event phase phase' s
  | forced (run : Ran (Option Bytes)) (sourceBytes : Bytes) (version : Text)
      (preprocessed : Bytes) :
      Advance ext s i request (.preprocessed run) (.preprocessing sourceBytes version)
        (.building (request.inputs sourceBytes version preprocessed)) s
  | lookup (run : Ran (Option Bytes)) (sourceBytes : Bytes) (version : Text)
      (preprocessed : Bytes) {t : Cache Text} :
      step s (.lookup i (ext.key (request.inputs sourceBytes version preprocessed))) = some t →
      Advance ext s i request (.preprocessed run) (.preprocessing sourceBytes version)
        (.looking (request.inputs sourceBytes version preprocessed)) t
  | look (x : CompileInputs) {t : Cache Text} :
      step s (.read i) = some t →
      Advance ext s i request .looked (.looking x)
        (afterLookup ext request x ((t.readers i).map Reader.phase)) t
  | failed (run : Ran BackendOutput) (x : CompileInputs) (error : CompileException) :
      Advance ext s i request (.built run) (.building x) (.raised (some x) error) s
  | staged (run : Ran BackendOutput) (x : CompileInputs) (json p4info : Nat) {t : Cache Text} :
      step s (.stage i (ext.key x) request.force (some json) (some p4info)) = some t →
      Advance ext s i request (.built run) (.building x) (.publishing x) t
  | publish (event : PublishEvent) (x : CompileInputs) {t : Cache Text} :
      step s (event.act i) = some t →
      Advance ext s i request (.published event) (.publishing x)
        (afterPublish ext request x ((t.writers i).map Writer.phase)) t

theorem callStep_cases
    {ext : Externals} {s t : Service} {i : Nat} {call : CompileCall} {event : CallEvent}
    (h : callStep ext s i call event = some t) :
    ∃ phase, t.calls = Function.update s.calls i (some { call with phase := phase }) ∧
      Advance ext s.cache i call.request event call.phase phase t.cache := by
  unfold callStep at h
  cases hphase : call.phase with
  | checking =>
      cases event with
      | sourceChecked isFile =>
          simp only [hphase] at h
          split_ifs at h
          · obtain rfl := Option.some.inj h
            exact ⟨_, rfl, .early True.intro (.inl True.intro)⟩
          · obtain rfl := Option.some.inj h
            exact ⟨_, rfl, .early True.intro (.inr ⟨_, rfl⟩)⟩
      | _ => simp [hphase] at h
  | reading =>
      cases event with
      | sourceRead contents =>
          cases contents with
          | some sourceBytes =>
              simp only [hphase, Option.some.injEq] at h
              obtain rfl := h
              exact ⟨_, rfl, .early True.intro (.inl True.intro)⟩
          | none =>
              simp only [hphase, Option.some.injEq] at h
              obtain rfl := h
              exact ⟨_, rfl, .early True.intro (.inr ⟨_, rfl⟩)⟩
      | _ => simp [hphase] at h
  | versioning sourceBytes =>
      cases event with
      | versionChecked =>
          cases hversion : s.versions call.request.compiler with
          | some text =>
              simp only [hphase, hversion, Option.some.injEq] at h
              obtain rfl := h
              exact ⟨_, rfl, .early True.intro (.inl True.intro)⟩
          | none =>
              simp only [hphase, hversion, Option.some.injEq] at h
              obtain rfl := h
              exact ⟨_, rfl, .early True.intro (.inl True.intro)⟩
      | _ => simp [hphase] at h
  | querying sourceBytes =>
      cases event with
      | versionRun run =>
          cases hversion : version ext run with
          | error error =>
              simp only [hphase, hversion, Option.some.injEq] at h
              obtain rfl := h
              exact ⟨_, rfl, .early True.intro (.inr ⟨_, rfl⟩)⟩
          | ok text =>
              simp only [hphase, hversion, Option.some.injEq] at h
              obtain rfl := h
              exact ⟨_, rfl, .early True.intro (.inl True.intro)⟩
      | _ => simp [hphase] at h
  | answering sourceBytes =>
      cases event with
      | versionReturned =>
          cases hversion : s.versions call.request.compiler with
          | some text =>
              simp only [hphase, hversion, Option.some.injEq] at h
              obtain rfl := h
              exact ⟨_, rfl, .early True.intro (.inl True.intro)⟩
          | none => simp [hphase, hversion] at h
      | _ => simp [hphase] at h
  | preprocessing sourceBytes version =>
      cases event with
      | preprocessed run =>
          cases hrun : preprocess ext call.request.source call.request.stem run with
          | error error =>
              simp only [hphase, hrun, Option.some.injEq] at h
              obtain rfl := h
              exact ⟨_, rfl, .early True.intro (.inr ⟨_, rfl⟩)⟩
          | ok preprocessed =>
              simp only [hphase, hrun] at h
              split_ifs at h
              · obtain rfl := Option.some.inj h
                exact ⟨_, rfl, .forced run sourceBytes version preprocessed⟩
              · obtain ⟨cache, hcache, rfl⟩ := Option.map_eq_some_iff.mp h
                exact ⟨_, rfl, .lookup run sourceBytes version preprocessed hcache⟩
      | _ => simp [hphase] at h
  | looking x =>
      cases event with
      | looked =>
          simp only [hphase] at h
          obtain ⟨cache, hcache, rfl⟩ := Option.map_eq_some_iff.mp h
          exact ⟨_, rfl, .look x hcache⟩
      | _ => simp [hphase] at h
  | building x =>
      cases event with
      | built run =>
          cases hrun : backend ext call.request.source call.request.stem run with
          | error error =>
              simp only [hphase, hrun, Option.some.injEq] at h
              obtain rfl := h
              exact ⟨_, rfl, .failed run x error⟩
          | ok sizes =>
              simp only [hphase, hrun] at h
              obtain ⟨cache, hcache, rfl⟩ := Option.map_eq_some_iff.mp h
              exact ⟨_, rfl, .staged run x sizes.1 sizes.2 hcache⟩
      | _ => simp [hphase] at h
  | publishing x =>
      cases event with
      | published publishEvent =>
          simp only [hphase] at h
          obtain ⟨cache, hcache, rfl⟩ := Option.map_eq_some_iff.mp h
          exact ⟨_, rfl, .publish publishEvent x hcache⟩
      | _ => simp [hphase] at h
  | returned x result => simp [hphase] at h
  | raised x error => simp [hphase] at h

/-- A step begins a call or advances one. -/
theorem serviceStep_cases
    {ext : Externals} {s t : Service} {event : Event}
    (h : serviceStep ext s event = some t) :
    (∃ i request, s.calls i = none ∧ t.cache = s.cache ∧
      t.calls = Function.update s.calls i (some { request := request })) ∨
    (∃ i callEvent call phase, event = .next i callEvent ∧ s.calls i = some call ∧
      t.calls = Function.update s.calls i (some { call with phase := phase }) ∧
      Advance ext s.cache i call.request callEvent call.phase phase t.cache) := by
  cases event with
  | compile i request =>
      cases hcall : s.calls i with
      | some call => simp [serviceStep, hcall] at h
      | none =>
          simp only [serviceStep, hcall, Option.some.injEq] at h
          obtain rfl := h
          exact .inl ⟨i, request, hcall, rfl, rfl⟩
  | next i callEvent =>
      cases hcall : s.calls i with
      | none => simp [serviceStep, hcall] at h
      | some call =>
          simp only [serviceStep, hcall] at h
          obtain ⟨phase, hcalls, hadvance⟩ := callStep_cases h
          exact .inr ⟨i, callEvent, call, phase, rfl, hcall, hcalls, hadvance⟩

end CompilerCache
end P4Net
