import P4Net.BigEndianBytes

/-!
# RPC errors

Both clients translate a gRPC error into an exception of p4net.  P4Runtime reports the failed
updates of a batch inside an error whose own code is `UNKNOWN`, so the code that counts is found
in the trailing metadata.

* `extractP4CanonicalCodes`, `resolveCode` : the way to the code that counts.
* `P4RuntimeClient.translateRpcError`, `AsyncP4RuntimeClient.translateRpcError` : the clients.
* `IsEffective`, `documentedClass` : the code and the exception of the documentation.
* `translateRpcError_agree` : the clients agree, but for what only the asynchronous one has.
-/

namespace P4Net
namespace RpcErrors

open BigEndian

/-! ### Errors -/

/-- `grpc.StatusCode`. -/
inductive StatusCode where
  | ok
  | cancelled
  | unknown
  | invalidArgument
  | deadlineExceeded
  | notFound
  | alreadyExists
  | permissionDenied
  | resourceExhausted
  | failedPrecondition
  | aborted
  | outOfRange
  | unimplemented
  | internal
  | unavailable
  | dataLoss
  | unauthenticated
deriving DecidableEq, Repr

namespace StatusCode

/-- The members of the enumeration. -/
def all : List StatusCode :=
  [ok, cancelled, unknown, invalidArgument, deadlineExceeded, notFound, alreadyExists,
    permissionDenied, resourceExhausted, failedPrecondition, aborted, outOfRange, unimplemented,
    internal, unavailable, dataLoss, unauthenticated]

/-- `sc.value[0]`. -/
def value : StatusCode → Int
  | ok => 0
  | cancelled => 1
  | unknown => 2
  | invalidArgument => 3
  | deadlineExceeded => 4
  | notFound => 5
  | alreadyExists => 6
  | permissionDenied => 7
  | resourceExhausted => 8
  | failedPrecondition => 9
  | aborted => 10
  | outOfRange => 11
  | unimplemented => 12
  | internal => 13
  | unavailable => 14
  | dataLoss => 15
  | unauthenticated => 16

/-- `sc.name`. -/
def name : StatusCode → String
  | ok => "OK"
  | cancelled => "CANCELLED"
  | unknown => "UNKNOWN"
  | invalidArgument => "INVALID_ARGUMENT"
  | deadlineExceeded => "DEADLINE_EXCEEDED"
  | notFound => "NOT_FOUND"
  | alreadyExists => "ALREADY_EXISTS"
  | permissionDenied => "PERMISSION_DENIED"
  | resourceExhausted => "RESOURCE_EXHAUSTED"
  | failedPrecondition => "FAILED_PRECONDITION"
  | aborted => "ABORTED"
  | outOfRange => "OUT_OF_RANGE"
  | unimplemented => "UNIMPLEMENTED"
  | internal => "INTERNAL"
  | unavailable => "UNAVAILABLE"
  | dataLoss => "DATA_LOSS"
  | unauthenticated => "UNAUTHENTICATED"

/-- `str(sc)`. -/
def text (sc : StatusCode) : String := "StatusCode." ++ sc.name

theorem mem_all
    (sc : StatusCode) :
    sc ∈ all := by
  cases sc <;> decide

theorem value_inj
    {sc sc' : StatusCode}
    (h : sc.value = sc'.value) :
    sc = sc' := by
  cases sc <;> cases sc' <;> first | rfl | cases h

end StatusCode

/-- One entry of `rpc_status.details`. -/
inductive Detail where
  | p4Error (canonicalCode : Int)
  /-- It is a `p4.v1.Error` by its type, and does not unpack. -/
  | malformed
  | otherType
deriving DecidableEq, Repr

/-- A `grpc.RpcError`; an accessor that raises is an `error` with what it raises. -/
structure RpcError where
  code : Except String StatusCode
  details : Except String (Option String)
  /-- `none` when there is no metadata, or when the accessor raises. -/
  trailingMetadata : Option (List (String × Bytes))
  repr : String

/-- The exceptions of p4net that an RPC error is translated into. -/
inductive ErrorClass where
  | p4RuntimeError
  | connectionError
  | notPrimaryError
  | entryNotFoundError
  | duplicateEntryError
  | pipelineError
  | asyncOperationCancelledError
deriving DecidableEq, Repr

/-- An exception and its message. -/
structure Translated where
  errorClass : ErrorClass
  message : String
deriving DecidableEq, Repr

/-! ### The code that counts -/

/-- The loop over `rpc_status.details`. -/
def extractDetails : List Detail → List Int → List Int
  | [], codes => codes
  | .p4Error canonicalCode :: rest, codes => extractDetails rest (codes ++ [canonicalCode])
  | _ :: rest, codes => extractDetails rest codes

/-- `key.lower() == "grpc-status-details-bin"`; only ASCII letters have these lower forms. -/
def isDetailsKey (key : String) : Bool :=
  key.toList.map Char.toLower = "grpc-status-details-bin".toList

/-- The loop over the metadata.  `decode` is `Status.MergeFromString`, which may raise. -/
def extractPairs (decode : Bytes → Option (List Detail)) :
    List (String × Bytes) → List Int → List Int
  | [], codes => codes
  | (key, value) :: rest, codes =>
      if ¬ isDetailsKey key then extractPairs decode rest codes
      else
        match decode value with
        | none => extractPairs decode rest codes
        | some details => extractPairs decode rest (extractDetails details codes)

/-- `_extract_p4_canonical_codes`. -/
def extractP4CanonicalCodes (decode : Bytes → Option (List Detail)) (exc : RpcError) : List Int :=
  extractPairs decode (exc.trailingMetadata.getD []) []

/-- `_grpc_code_for`. -/
def grpcCodeFor (canonical : Int) : Option StatusCode :=
  StatusCode.all.find? fun sc => sc.value = canonical

/-- The loop over the codes, which both clients have. -/
def resolveLoop (code : StatusCode) (detail : String) : List Int → StatusCode × String
  | [] => (code, detail)
  | canonical :: rest =>
      if canonical = 0 then resolveLoop code detail rest
      else
        match grpcCodeFor canonical with
        | none => resolveLoop code detail rest
        | some resolved =>
            (resolved,
              if detail = "" then "P4Runtime canonical_code=" ++ toString canonical else detail)

/-- The code and the detail after the branch on `UNKNOWN`. -/
def resolveCode (decode : Bytes → Option (List Detail)) (exc : RpcError) (code : StatusCode)
    (detail : String) : StatusCode × String :=
  if code = .unknown then resolveLoop code detail (extractP4CanonicalCodes decode exc)
  else (code, detail)

/-! ### The clients -/

/-- `a or b` on strings. -/
def orElse (a b : String) : String := if a = "" then b else a

/-- The last branches of `P4RuntimeClient._translate_rpc_error`. -/
def P4RuntimeClient.errorFor (target : String) (pipeline : Bool) (code : StatusCode)
    (detail : String) : Translated :=
  if code = .unavailable then
    ⟨.connectionError, "gRPC unavailable for " ++ target ++ ": " ++ detail⟩
  else if code = .permissionDenied then
    ⟨.notPrimaryError, orElse detail "client is not primary"⟩
  else if code = .notFound then ⟨.entryNotFoundError, orElse detail "entry not found"⟩
  else if code = .alreadyExists then
    ⟨.duplicateEntryError, orElse detail "entry already exists"⟩
  else if code = .failedPrecondition ∧ pipeline then
    ⟨.pipelineError, orElse detail "pipeline rejected by switch"⟩
  else if code = .invalidArgument then ⟨.p4RuntimeError, "invalid argument: " ++ detail⟩
  else ⟨.p4RuntimeError, "gRPC error " ++ code.name ++ ": " ++ detail⟩

/-- `P4RuntimeClient._translate_rpc_error`; `target` is the text of `repr(self._target)`. -/
def P4RuntimeClient.translateRpcError (decode : Bytes → Option (List Detail)) (target : String)
    (exc : RpcError) (pipeline : Bool) : Translated :=
  match exc.code with
  | .error _ => ⟨.p4RuntimeError, "gRPC error: " ++ exc.repr⟩
  | .ok code =>
      let detail := match exc.details with
        | .error _ => ""
        | .ok details => details.getD ""
      let resolved := resolveCode decode exc code detail
      errorFor target pipeline resolved.1 resolved.2

/-- The last branches of `AsyncP4RuntimeClient._translate_rpc_error`. -/
def AsyncP4RuntimeClient.errorFor (target : String) (pipeline : Bool) (code : StatusCode)
    (details : String) : Translated :=
  if code = .unavailable then
    ⟨.connectionError, "gRPC unavailable for " ++ target ++ ": " ++ details⟩
  else if pipeline ∧ code ∈ [.invalidArgument, .failedPrecondition] then
    ⟨.pipelineError, "pipeline rejected: " ++ code.text ++ " " ++ details⟩
  else if code = .alreadyExists then ⟨.duplicateEntryError, details⟩
  else if code = .notFound then ⟨.entryNotFoundError, details⟩
  else if code = .permissionDenied then ⟨.notPrimaryError, details⟩
  else if code = .cancelled then ⟨.asyncOperationCancelledError, details⟩
  else ⟨.p4RuntimeError, "gRPC error " ++ code.text ++ ": " ++ details⟩

/-- `AsyncP4RuntimeClient._translate_rpc_error`, which lets the accessors raise. -/
def AsyncP4RuntimeClient.translateRpcError (decode : Bytes → Option (List Detail))
    (target : String) (exc : RpcError) (pipeline : Bool) : Except String Translated :=
  match exc.code with
  | .error e => .error e
  | .ok code =>
      match exc.details with
      | .error e => .error e
      | .ok details =>
          let resolved := resolveCode decode exc code (details.getD "")
          .ok (errorFor target pipeline resolved.1 resolved.2)

/-! ### The codes of the updates -/

/-- The canonical code of a detail that has one. -/
def Detail.canonicalCode? : Detail → Option Int
  | .p4Error canonicalCode => some canonicalCode
  | _ => none

/-- The canonical codes of the updates, in the order of the metadata and of their details. -/
def perUpdateCodes (decode : Bytes → Option (List Detail)) (exc : RpcError) : List Int :=
  (exc.trailingMetadata.getD []).flatMap fun pair =>
    if isDetailsKey pair.1 then ((decode pair.2).getD []).filterMap Detail.canonicalCode? else []

theorem extractDetails_eq
    (details : List Detail) (codes : List Int) :
    extractDetails details codes = codes ++ details.filterMap Detail.canonicalCode? := by
  induction details generalizing codes with
  | nil => simp [extractDetails]
  | cons detail rest ih =>
      cases detail with
      | p4Error canonicalCode => simp [extractDetails, ih, Detail.canonicalCode?]
      | malformed => exact ih codes
      | otherType => exact ih codes

theorem extractPairs_eq
    (decode : Bytes → Option (List Detail)) (pairs : List (String × Bytes)) (codes : List Int) :
    extractPairs decode pairs codes = codes ++ pairs.flatMap fun pair =>
      if isDetailsKey pair.1 then ((decode pair.2).getD []).filterMap Detail.canonicalCode?
      else [] := by
  induction pairs generalizing codes with
  | nil => simp [extractPairs]
  | cons pair rest ih =>
      obtain ⟨key, value⟩ := pair
      rw [extractPairs, List.flatMap_cons]
      by_cases hkey : isDetailsKey key = true
      · rw [if_neg (not_not.mpr hkey), if_pos hkey]
        cases hvalue : decode value with
        | none => simp [ih]
        | some details => simp [ih, extractDetails_eq]
      · rw [if_pos hkey, if_neg hkey, ih, List.nil_append]

/-- The loops collect the codes of the updates. -/
theorem extractP4CanonicalCodes_eq
    (decode : Bytes → Option (List Detail)) (exc : RpcError) :
    extractP4CanonicalCodes decode exc = perUpdateCodes decode exc := by
  rw [extractP4CanonicalCodes, extractPairs_eq, List.nil_append, perUpdateCodes]

/-! ### The effective code -/

/-- The code is not zero and is that of a gRPC status. -/
def Names (canonical : Int) (sc : StatusCode) : Prop := canonical ≠ 0 ∧ sc.value = canonical

/-- `e` is the first status that the codes name. -/
def IsFirstNamed (codes : List Int) (e : StatusCode) : Prop :=
  ∃ before canonical after, codes = before ++ canonical :: after ∧ Names canonical e ∧
    ∀ c ∈ before, ∀ sc, ¬ Names c sc

/-- The effective code of an error with code `outer` and these codes of its updates. -/
def IsEffective (codes : List Int) (outer e : StatusCode) : Prop :=
  (outer ≠ .unknown ∧ e = outer) ∨
    (outer = .unknown ∧
      (IsFirstNamed codes e ∨ (e = .unknown ∧ ∀ c ∈ codes, ∀ sc, ¬ Names c sc)))

theorem grpcCodeFor_eq_some_iff
    (canonical : Int) (sc : StatusCode) :
    grpcCodeFor canonical = some sc ↔ sc.value = canonical := by
  constructor
  · intro h
    simpa using List.find?_some h
  · intro h
    cases hfind : grpcCodeFor canonical with
    | none =>
        have hnone := List.find?_eq_none.mp hfind sc sc.mem_all
        simp [h] at hnone
    | some sc' =>
        have hsc' : sc'.value = canonical := by simpa using List.find?_some hfind
        rw [StatusCode.value_inj (hsc'.trans h.symm)]

theorem isFirstNamed_cons_of_names
    {canonical : Int} {sc : StatusCode} (h : Names canonical sc) (rest : List Int) :
    IsFirstNamed (canonical :: rest) sc :=
  ⟨[], canonical, rest, rfl, h, by simp⟩

theorem isFirstNamed_cons_of_not_names
    {canonical : Int} (h : ∀ sc, ¬ Names canonical sc) {rest : List Int} {e : StatusCode}
    (hrest : IsFirstNamed rest e) :
    IsFirstNamed (canonical :: rest) e := by
  obtain ⟨before, c, after, rfl, hc, hbefore⟩ := hrest
  exact ⟨canonical :: before, c, after, rfl, hc, List.forall_mem_cons.mpr ⟨h, hbefore⟩⟩

/-- The loop finds the first status that the codes name. -/
theorem resolveLoop_spec
    (code : StatusCode) (detail : String) (codes : List Int) :
    IsFirstNamed codes (resolveLoop code detail codes).1 ∨
      ((resolveLoop code detail codes).1 = code ∧ ∀ c ∈ codes, ∀ sc, ¬ Names c sc) := by
  induction codes with
  | nil => exact Or.inr ⟨rfl, by simp⟩
  | cons canonical rest ih =>
      have hskip : (∀ sc, ¬ Names canonical sc) →
          resolveLoop code detail (canonical :: rest) = resolveLoop code detail rest →
          IsFirstNamed (canonical :: rest) (resolveLoop code detail (canonical :: rest)).1 ∨
            ((resolveLoop code detail (canonical :: rest)).1 = code ∧
              ∀ c ∈ canonical :: rest, ∀ sc, ¬ Names c sc) := by
        intro hnot heq
        rw [heq]
        rcases ih with hrest | ⟨hcode, hrest⟩
        · exact Or.inl (isFirstNamed_cons_of_not_names hnot hrest)
        · exact Or.inr ⟨hcode, List.forall_mem_cons.mpr ⟨hnot, hrest⟩⟩
      by_cases hzero : canonical = 0
      · exact hskip (fun sc h => h.1 hzero) (by rw [resolveLoop, if_pos hzero])
      · cases hsc : grpcCodeFor canonical with
        | none =>
            refine hskip (fun sc h => ?_) (by rw [resolveLoop, if_neg hzero, hsc])
            rw [(grpcCodeFor_eq_some_iff canonical sc).mpr h.2] at hsc
            cases hsc
        | some sc =>
            have hvalue := (grpcCodeFor_eq_some_iff canonical sc).mp hsc
            rw [resolveLoop, if_neg hzero, hsc]
            exact Or.inl (isFirstNamed_cons_of_names ⟨hzero, hvalue⟩ rest)

/-- Both clients work with the effective code. -/
theorem isEffective_resolveCode
    (decode : Bytes → Option (List Detail)) (exc : RpcError) (outer : StatusCode)
    (detail : String) :
    IsEffective (perUpdateCodes decode exc) outer (resolveCode decode exc outer detail).1 := by
  unfold resolveCode
  rw [extractP4CanonicalCodes_eq]
  by_cases houter : outer = .unknown
  · subst houter
    rw [if_pos rfl]
    exact Or.inr ⟨rfl, resolveLoop_spec _ _ _⟩
  · rw [if_neg houter]
    exact Or.inl ⟨houter, rfl⟩

theorem IsFirstNamed.unique
    {codes : List Int} {e e' : StatusCode}
    (h : IsFirstNamed codes e) (h' : IsFirstNamed codes e') :
    e = e' := by
  obtain ⟨before, c, after, rfl, hc, hbefore⟩ := h
  obtain ⟨before', c', after', hsplit, hc', hbefore'⟩ := h'
  rcases List.append_eq_append_iff.mp hsplit with ⟨mid, rfl, hmid⟩ | ⟨mid, rfl, hmid⟩
  · cases mid with
    | nil =>
        obtain ⟨rfl, -⟩ := List.cons.inj hmid
        exact StatusCode.value_inj (hc.2.trans hc'.2.symm)
    | cons m mid =>
        obtain ⟨rfl, -⟩ := List.cons.inj hmid
        exact absurd hc (hbefore' c (by simp) e)
  · cases mid with
    | nil =>
        obtain ⟨rfl, -⟩ := List.cons.inj hmid
        exact StatusCode.value_inj (hc.2.trans hc'.2.symm)
    | cons m mid =>
        obtain ⟨rfl, -⟩ := List.cons.inj hmid
        exact absurd hc' (hbefore c' (by simp) e')

/-- An error has one effective code. -/
theorem IsEffective.unique
    {codes : List Int} {outer e e' : StatusCode}
    (h : IsEffective codes outer e) (h' : IsEffective codes outer e') :
    e = e' := by
  have hnone : ∀ {x}, IsFirstNamed codes x → ¬ ∀ c ∈ codes, ∀ sc, ¬ Names c sc := by
    rintro x ⟨before, c, after, rfl, hc, -⟩ hall
    exact hall c (by simp) x hc
  rcases h with ⟨hne, rfl⟩ | ⟨rfl, h⟩
  · exact (h'.resolve_right fun hr => hne hr.1).2.symm
  · have hr := (h'.resolve_left fun hl => hl.1 rfl).2
    rcases h with hfirst | ⟨rfl, hall⟩
    · rcases hr with hfirst' | ⟨-, hall'⟩
      · exact hfirst.unique hfirst'
      · exact absurd hall' (hnone hfirst)
    · rcases hr with hfirst' | ⟨rfl, -⟩
      · exact absurd hall (hnone hfirst')
      · rfl

/-! ### Agreement -/

/-- The table of the documentation. -/
def documentedClass (e : StatusCode) (pipeline : Bool) : ErrorClass :=
  match e with
  | .permissionDenied => .notPrimaryError
  | .unavailable => .connectionError
  | .alreadyExists => .duplicateEntryError
  | .notFound => .entryNotFoundError
  | .cancelled => .asyncOperationCancelledError
  | .invalidArgument => if pipeline then .pipelineError else .p4RuntimeError
  | .failedPrecondition => if pipeline then .pipelineError else .p4RuntimeError
  | _ => .p4RuntimeError

/-- The cases that are documented for the asynchronous client only. -/
def AsyncOnly (e : StatusCode) (pipeline : Bool) : Prop :=
  e = .cancelled ∨ (e = .invalidArgument ∧ pipeline = true)

instance (e : StatusCode) (pipeline : Bool) : Decidable (AsyncOnly e pipeline) :=
  inferInstanceAs (Decidable (_ ∨ _))

theorem async_errorFor_class
    (target : String) (pipeline : Bool) (code : StatusCode) (details : String) :
    (AsyncP4RuntimeClient.errorFor target pipeline code details).errorClass =
      documentedClass code pipeline := by
  cases code <;> cases pipeline <;> rfl

theorem errorFor_class
    (target : String) (pipeline : Bool) (code : StatusCode) (detail : String) :
    (P4RuntimeClient.errorFor target pipeline code detail).errorClass =
      if AsyncOnly code pipeline then .p4RuntimeError else documentedClass code pipeline := by
  cases code <;> cases pipeline <;> rfl

/--
Both clients work with the effective code of an error.  The asynchronous one raises the documented
exception; the synchronous one raises the same exception outside the asynchronous cases.
-/
theorem translateRpcError_agree
    (decode : Bytes → Option (List Detail)) (target : String) (exc : RpcError) (pipeline : Bool)
    {outer : StatusCode} {details : Option String}
    (hcode : exc.code = .ok outer) (hdetails : exc.details = .ok details) :
    ∃! e, IsEffective (perUpdateCodes decode exc) outer e ∧
      (∃ raised,
        AsyncP4RuntimeClient.translateRpcError decode target exc pipeline = .ok raised ∧
          raised.errorClass = documentedClass e pipeline) ∧
      (P4RuntimeClient.translateRpcError decode target exc pipeline).errorClass =
        if AsyncOnly e pipeline then .p4RuntimeError else documentedClass e pipeline := by
  have heffective := isEffective_resolveCode decode exc outer (details.getD "")
  refine ⟨(resolveCode decode exc outer (details.getD "")).1, ⟨heffective, ?_, ?_⟩, ?_⟩
  · unfold AsyncP4RuntimeClient.translateRpcError
    rw [hcode]
    simp only [hdetails]
    exact ⟨_, rfl, async_errorFor_class ..⟩
  · unfold P4RuntimeClient.translateRpcError
    rw [hcode]
    simp only [hdetails]
    exact errorFor_class ..
  · rintro e ⟨he, -, -⟩
    exact he.unique heffective

/-- A batch whose second update already exists, after a success and with an unknown code. -/
theorem translateRpcError_agree_batch :
    let exc : RpcError := ⟨.ok .unknown, .ok none,
      some [("Grpc-Status-Details-Bin", [1])], ""⟩
    let decode : Bytes → Option (List Detail) := fun _ =>
      some [.p4Error 0, .malformed, .p4Error 999, .p4Error 6, .p4Error 5]
    (P4RuntimeClient.translateRpcError decode "'s1'" exc false).errorClass =
      .duplicateEntryError := by
  intro exc decode
  obtain ⟨e, ⟨he, -, hsync⟩, -⟩ := translateRpcError_agree decode "'s1'" exc false rfl rfl
  have hcodes : perUpdateCodes decode exc = [0, 999, 6, 5] := by decide
  rw [hcodes] at he
  have hfirst : IsEffective [0, 999, 6, 5] .unknown .alreadyExists := by
    refine Or.inr ⟨rfl, Or.inl ⟨[0, 999], 6, [5], rfl, ⟨by decide, rfl⟩, ?_⟩⟩
    simp only [List.mem_cons, List.not_mem_nil, or_false, forall_eq_or_imp, forall_eq]
    refine ⟨fun sc h => h.1 rfl, fun sc h => ?_⟩
    have hvalue := h.2
    cases sc <;> cases hvalue
  rw [hsync, he.unique hfirst]
  rfl

end RpcErrors
end P4Net
