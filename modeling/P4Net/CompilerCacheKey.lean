import P4Net.JsonStrings

/-!
# The key of a compiled program

`compile` frames the source path, the source and the preprocessed source, and
`_compute_hash` appends frames of the architecture, the compiler version and the
extra arguments before it takes the digest.

* `frame` is one frame: a label, the decimal length of the value, and the value.
* `hashed` are the bytes that both functions feed to the hasher together.
* `hashed_eq_iff` reads all six components back from those bytes, whatever they
  contain, and `cacheKey_eq` carries it over to the digest.
-/

namespace P4Net
namespace CompilerCache

open BigEndian TextLiterals Codes JsonStrings

/-- `text.encode("utf-8")`. -/
def utf8 (text : Text) : Bytes :=
  text.flatMap String.utf8EncodeChar

/-- `text.encode("ascii")` of a text in the ASCII range. -/
def ascii (text : Text) : Bytes :=
  text.map (fun c => UInt8.ofNat c.toNat)

/-- `str(n)`. -/
def decimal (n : Nat) : Text :=
  Nat.toDigits 10 n

/-- `_frame(label, value)`. -/
def frame (label : Text) (value : Bytes) : Bytes :=
  ascii ['|'] ++ utf8 label ++ ascii [':'] ++ ascii (decimal value.length) ++ ascii [':'] ++
    value ++ ascii ['|']

/-- A `hashlib` object, as the bytes fed to it so far. -/
structure Hasher where
  fed : Bytes := []
  deriving DecidableEq, Repr

/-- `hasher.update(data)`. -/
def Hasher.update (hasher : Hasher) (data : Bytes) : Hasher :=
  { hasher with fed := hasher.fed ++ data }

/-- The hasher of `_compute_hash` before its digest is taken. -/
def hasherFor
    (sourceBytes : Bytes) (arch compilerVersion : Text) (extraArgs : List Text) : Hasher :=
  ((((({} : Hasher).update sourceBytes).update
    (frame "arch".toList (utf8 arch))).update
    (frame "version".toList (utf8 compilerVersion))).update
    (frame "extra_args".toList (utf8 (dumps extraArgs))))

/-- `_compute_hash`; `hexdigest` stands for SHA-256. -/
def computeHash
    (hexdigest : Bytes → Text)
    (sourceBytes : Bytes) (arch compilerVersion : Text) (extraArgs : List Text) : Text :=
  hexdigest (hasherFor sourceBytes arch compilerVersion extraArgs).fed

/-- What a compilation depends on. -/
structure CompileInputs where
  /-- `os.fsencode(source.absolute())`. -/
  sourcePath : Bytes
  sourceBytes : Bytes
  preprocessed : Bytes
  arch : Text
  version : Text
  extraArgs : List Text
  deriving DecidableEq, Repr

/-- `cache_input` of `compile`. -/
def cacheInput (x : CompileInputs) : Bytes :=
  frame "source_path".toList x.sourcePath ++ frame "source".toList x.sourceBytes ++
    frame "preprocessed".toList x.preprocessed

/-- The bytes that `compile` and `_compute_hash` feed to the hasher. -/
def hashed (x : CompileInputs) : Bytes :=
  (hasherFor (cacheInput x) x.arch x.version x.extraArgs).fed

/-- `cache_key` of `compile`. -/
def cacheKey (hexdigest : Bytes → Text) (x : CompileInputs) : Text :=
  computeHash hexdigest (cacheInput x) x.arch x.version x.extraArgs

theorem utf8_injective : Function.Injective utf8 := by
  intro s t h
  have hbytes : (String.ofList s).toByteArray = (String.ofList t).toByteArray := by
    rw [String.toByteArray_ofList, String.toByteArray_ofList]
    exact congrArg List.toByteArray h
  exact String.ofList_injective (String.toByteArray_inj.mp hbytes)

theorem decimal_injective : Function.Injective decimal := by
  intro m n h
  have hm := Nat.ofDigitChars_toDigits (b := 10) (n := m) (by decide) (by decide)
  have hn := Nat.ofDigitChars_toDigits (b := 10) (n := n) (by decide) (by decide)
  rw [show Nat.toDigits 10 m = Nat.toDigits 10 n from h, hn] at hm
  exact hm.symm

/-- A decimal digit is an ASCII character before the colon. -/
theorem toNat_of_mem_decimal
    {n : Nat} {c : Char}
    (h : c ∈ decimal n) :
    c.toNat < 58 := by
  have hdigit := Nat.isDigit_of_mem_toDigits (by decide) (by decide) h
  have hrange := Char.isDigit_iff_toNat.mp hdigit
  have hnine : '9'.toNat = 57 := rfl
  omega

/-- The ASCII bytes of a number determine its digits. -/
theorem map_ofNat_ascii_decimal
    (n : Nat) :
    (ascii (decimal n)).map (fun b => Char.ofNat b.toNat) = decimal n := by
  rw [ascii, List.map_map]
  refine (List.map_congr_left (fun c hc => ?_)).trans (List.map_id _)
  have hlt := toNat_of_mem_decimal hc
  have hsize : c.toNat % 256 = c.toNat := by omega
  simp [hsize]

theorem ascii_decimal_injective :
    Function.Injective (fun n => ascii (decimal n)) := by
  intro m n h
  apply decimal_injective
  rw [← map_ofNat_ascii_decimal m, ← map_ofNat_ascii_decimal n]
  exact congrArg _ h

theorem colon_not_mem_decimal
    (n : Nat) :
    (58 : UInt8) ∉ ascii (decimal n) := by
  intro h
  obtain ⟨c, hc, hcode⟩ := List.mem_map.mp h
  have hlt := toNat_of_mem_decimal hc
  have hnat := congrArg UInt8.toNat hcode
  simp at hnat
  omega

/-- The length of a value, up to the colon behind it. -/
theorem delimits_length :
    Delimits (fun n => ascii (decimal n) ++ [(58 : UInt8)]) :=
  delimits_closed ascii_decimal_injective colon_not_mem_decimal

/-- A frame with a given label is read back from the left. -/
theorem delimits_frame
    (label : Text) :
    Delimits (frame label) := by
  have hvalue := delimits_length.sized.before (ascii ['|'])
  have hframe := hvalue.behind (ascii ['|'] ++ utf8 label ++ ascii [':'])
  have heq : frame label = fun value =>
      (ascii ['|'] ++ utf8 label ++ ascii [':']) ++
        ((ascii (decimal value.length) ++ [(58 : UInt8)] ++ value) ++ ascii ['|']) := by
    funext value
    simp [frame, ascii]
  rw [heq]
  exact hframe

theorem delimits_textFrame
    (label : Text) :
    Delimits (fun text => frame label (utf8 text)) :=
  (delimits_frame label).comp utf8_injective

theorem delimits_argsFrame
    (label : Text) :
    Delimits (fun args => frame label (utf8 (dumps args))) :=
  (delimits_textFrame label).comp dumps_injective

/-- The six frames one after another. -/
theorem hashed_eq
    (x : CompileInputs) :
    hashed x =
      frame "source_path".toList x.sourcePath ++ (frame "source".toList x.sourceBytes ++
        (frame "preprocessed".toList x.preprocessed ++ (frame "arch".toList (utf8 x.arch) ++
          (frame "version".toList (utf8 x.version) ++
            frame "extra_args".toList (utf8 (dumps x.extraArgs)))))) := by
  simp [hashed, hasherFor, Hasher.update, cacheInput]

/-- What is hashed can be read back. -/
theorem hashed_injective : Function.Injective hashed := by
  intro x y h
  have hcode := (delimits_frame "source_path".toList).pair
    ((delimits_frame "source".toList).pair
      ((delimits_frame "preprocessed".toList).pair
        ((delimits_textFrame "arch".toList).pair
          ((delimits_textFrame "version".toList).pair
            (delimits_argsFrame "extra_args".toList)))))
  rw [hashed_eq, hashed_eq] at h
  have hfields : (x.sourcePath, x.sourceBytes, x.preprocessed, x.arch, x.version, x.extraArgs) =
      (y.sourcePath, y.sourceBytes, y.preprocessed, y.arch, y.version, y.extraArgs) :=
    hcode.injective h
  cases x
  cases y
  simpa using hfields

/-- What is hashed determines every component, whatever bytes the components contain. -/
theorem hashed_eq_iff
    (x y : CompileInputs) :
    hashed x = hashed y ↔ x = y :=
  hashed_injective.eq_iff

/-- Two inputs share a key exactly when they are equal or the digest collides. -/
theorem cacheKey_eq
    (hexdigest : Bytes → Text) (x y : CompileInputs) :
    cacheKey hexdigest x = cacheKey hexdigest y ↔
      x = y ∨ (hashed x ≠ hashed y ∧ hexdigest (hashed x) = hexdigest (hashed y)) := by
  have hkey : ∀ z, cacheKey hexdigest z = hexdigest (hashed z) := fun _ => rfl
  rw [hkey, hkey]
  by_cases hxy : x = y
  · simp [hxy]
  · have hne : hashed x ≠ hashed y := fun h => hxy (hashed_injective h)
    simp [hxy, hne]

end CompilerCache
end P4Net
