import Caelix.Lib.Fallible
import Caelix.Core.Throttle
import Caelix.Core.ThrottleTracker

/-!
# Arguments of the controller annotations

What `controller.rs` of the macros reads from the annotations of a controller: throttle policies,
the limits of uploaded files and their content types. The syntax trees of `syn` are taken as given.

* `throttleDocMarker_throttleMarker`: a throttle annotation that is expanded before the
  controller is read back from its marker.
* `parseUploadSize_ok_iff`: the sizes that `max_size` accepts, and their bytes.
-/

namespace Caelix

/-- A type as the macros see it: the last segment of a path and its generic arguments. -/
inductive RustType where
  | path (ident : String) (arguments : List RustType)
  | other

namespace RustType

def isNamedType (name : String) : RustType → Bool
  | path ident _ => ident = name
  | other => false

/-- The path `outer` with `inner` among its generic arguments. -/
def wraps (outer inner : String) : RustType → Bool
  | path ident arguments => ident = outer && arguments.any (isNamedType inner)
  | other => false

def isOptionOf (name : String) (ty : RustType) : Bool := ty.wraps "Option" name

def isOptionUploadedFile (ty : RustType) : Bool := ty.wraps "Option" "UploadedFile"

def isVecUploadedFile (ty : RustType) : Bool := ty.wraps "Vec" "UploadedFile"

end RustType

/-- The expression after the `=` of an argument. -/
inductive MetaValue where
  | int (value : Nat)
  | str (value : String)
  | bool (value : Bool)
  | path (ident : Option String)
  | other
  deriving DecidableEq, Repr

/-- `syn::Meta`, as an argument of an attribute. -/
inductive Meta where
  | nameValue (name : String) (value : MetaValue)
  | other
  deriving DecidableEq, Repr

/-- `str::parse::<u64>`. -/
def parseU64 (s : List Char) : Option UInt64 :=
  let digits := if s.head? = some '+' then s.tail else s
  if digits.isEmpty || !digits.all Char.isDigit then none
  else
    let value := Nat.ofDigitChars 10 digits 0
    if value ≤ u64Max then some (UInt64.ofNat value) else none

/-- `str::strip_suffix`. -/
def stripSuffix (suffix s : List Char) : Option (List Char) :=
  if suffix.isSuffixOf s then some (s.take (s.length - suffix.length)) else none

/-! ## Throttling -/

inductive ThrottleAnnotation where
  | policy (limit window : UInt64)
  | skip
  deriving DecidableEq, Repr

def throttleArguments : String := "throttle arguments must use `limit` and `window_seconds`"

/-- The value of `limit` or `window_seconds`, which had the value `target` so far. -/
def throttleValue (target : Option UInt64) (value : MetaValue) : Except String UInt64 :=
  if target.isSome then .error "duplicate throttle argument"
  else
    match value with
    | .int parsed =>
      if u64Max < parsed then .error "number too large to fit in target type"
      else if parsed = 0 then .error "throttle arguments must be greater than zero"
      else .ok (UInt64.ofNat parsed)
    | _ => .error "throttle arguments must be positive integer literals"

/-- One turn of the loop of `parse_throttle`, on the limit and the window. -/
def throttleArgument (found : Option UInt64 × Option UInt64) :
    Meta → Except String (Option UInt64 × Option UInt64)
  | .nameValue name value =>
    if name = "limit" then (throttleValue found.1 value).map fun limit => (some limit, found.2)
    else if name = "window_seconds" then
      (throttleValue found.2 value).map fun window => (found.1, some window)
    else .error throttleArguments
  | .other => .error throttleArguments

/-- `parse_throttle`, on the arguments or what the parser says of them. -/
def parseThrottle (arguments : Except String (List Meta)) : Except String ThrottleAnnotation := do
  let values ← arguments
  match ← values.foldlM throttleArgument (none, none) with
  | (none, _) => .error "missing throttle `limit`"
  | (some _, none) => .error "missing throttle `window_seconds`"
  | (some limit, some window) => .ok (.policy limit window)

def policyPrefix : String := "__caelix_throttle:"

def skipMarker : String := "__caelix_skip_throttle"

/-- The documentation text that `expand_controller_throttle_marker` leaves on a controller. -/
def throttleMarker : ThrottleAnnotation → String
  | .policy limit window => policyPrefix ++ toString limit ++ ":" ++ toString window
  | .skip => skipMarker

/-- `throttle_doc_marker`, on the text of a documentation attribute. -/
def throttleDocMarker (text : String) : Option ThrottleAnnotation :=
  if text = skipMarker then some .skip
  else if policyPrefix.toList.isPrefixOf text.toList then
    match (text.toList.drop policyPrefix.length).splitOn ':' with
    | [limit, window] => do return .policy (← parseU64 limit) (← parseU64 window)
    | _ => none
  else none

/-! ## Uploaded files -/

def uploadUnits : List (String × Nat) :=
  [("KiB", 1024), ("MiB", 1024 * 1024), ("GiB", 1024 * 1024 * 1024), ("KB", 1000),
    ("MB", 1000 * 1000), ("GB", 1000 * 1000 * 1000), ("B", 1)]

def maxSizeFormat : String :=
  "max_size must be a whole-number value ending in B, KB, MB, GB, KiB, MiB, or GiB"

def parseUploadSize (value : String) : Except String Nat :=
  match uploadUnits.findSome? fun unit =>
      (stripSuffix unit.1.toList value.toList).map fun digits => (digits, unit.2) with
  | none => .error maxSizeFormat
  | some (digits, multiplier) =>
    if digits.isEmpty || !digits.all Char.isDigit then .error maxSizeFormat
    else
      match (parseU64 digits).bind fun bytes =>
          if bytes.toNat * multiplier ≤ u64Max then some (bytes.toNat * multiplier) else none with
      | some bytes => .ok bytes
      | none => .error "max_size exceeds the maximum supported byte limit"

/-- One turn of the loop of `parse_content_types`. -/
def addContentType (contentTypes : List String) (text : List Char) : Except String (List String) :=
  let normalized := (trim text).map Char.toLower
  if normalized.isEmpty then .error "content_type must not contain empty MIME type entries"
  else
    let contentType := String.ofList normalized
    .ok (if contentTypes.contains contentType then contentTypes else contentTypes ++ [contentType])

def parseContentTypes (value : String) : Except String (List String) :=
  (value.toList.splitOn ',').foldlM addContentType []

structure UploadFieldOptions where
  name : Option String
  maxSize : Option Nat
  contentTypes : List String
  trustContentTypeHeader : Bool
  validator : Option String
  deriving DecidableEq, Repr

namespace UploadFieldOptions

/-- The options of a bare annotation. -/
def none : UploadFieldOptions := ⟨Option.none, Option.none, [], false, Option.none⟩

def arguments : String :=
  "file extractor arguments must use `name`, `max_size`, `content_type`, " ++
    "`trust_content_type_header`, or `validate`"

def stringLit : MetaValue → Except String String
  | .str value => .ok value
  | _ => .error "expected a string literal"

def trustHeader : MetaValue → Except String Bool
  | .bool true => .ok true
  | _ => .error "trust_content_type_header must be `true`"

def validatorName : MetaValue → Except String String
  | .path (some ident) => .ok ident
  | _ => .error "file extractor `validate` must name a controller method"

/-- An option that may be given once. -/
def once {α : Type} (given : Bool) (name : String) (x : Except String α) : Except String α :=
  if given then .error ("duplicate file extractor `" ++ name ++ "`") else x

/-- One turn of the loop of `parse_upload_field_options`. -/
def add (options : UploadFieldOptions) : Meta → Except String UploadFieldOptions
  | .other => .error arguments
  | .nameValue name value => do
    if name = "name" then
      let name ← once options.name.isSome name (stringLit value)
      return { options with name := some name }
    else if name = "max_size" then
      let maxSize ← once options.maxSize.isSome name (stringLit value >>= parseUploadSize)
      return { options with maxSize := some maxSize }
    else if name = "content_type" then
      let contentTypes ← once (!options.contentTypes.isEmpty) name
        (stringLit value >>= parseContentTypes)
      return { options with contentTypes }
    else if name = "trust_content_type_header" then
      let trust ← once options.trustContentTypeHeader name (trustHeader value)
      return { options with trustContentTypeHeader := trust }
    else if name = "validate" then
      let validator ← once options.validator.isSome name (validatorName value)
      return { options with validator := some validator }
    else .error arguments

/-- `parse_upload_field_options`: a bare annotation has no arguments. -/
def parse (arguments : Option (Except String (List Meta))) : Except String UploadFieldOptions :=
  match arguments with
  | Option.none => .ok none
  | some arguments => do
    let options ← (← arguments).foldlM add none
    if options.trustContentTypeHeader && options.contentTypes.isEmpty then
      .error "trust_content_type_header requires `content_type = \"...\"`"
    else return options

end UploadFieldOptions

/-! ## Numbers -/

/-- A text of digits has no sign. -/
theorem head?_ne_plus {s : List Char} (h : s.all Char.isDigit = true) : s.head? ≠ some '+' := by
  cases s with
  | nil => simp
  | cons c s =>
    rw [List.all_cons, Bool.and_eq_true] at h
    rw [List.head?_cons, ne_eq, Option.some_inj]
    rintro rfl
    exact absurd h.1 (by decide)

theorem parseU64_digits {s : List Char} (hSome : s ≠ []) (hDigits : s.all Char.isDigit = true) :
    parseU64 s = if Nat.ofDigitChars 10 s 0 ≤ u64Max then
      some (UInt64.ofNat (Nat.ofDigitChars 10 s 0)) else none := by
  unfold parseU64
  rw [if_neg (head?_ne_plus hDigits)]
  simp only [hDigits, Bool.not_true, Bool.or_false, List.isEmpty_iff, hSome, if_false]

theorem toNat_le_u64Max (n : UInt64) : n.toNat ≤ u64Max := Nat.le_pred_of_lt n.toNat_lt

theorem toNat_ofNat {n : Nat} (h : n ≤ u64Max) : (UInt64.ofNat n).toNat = n :=
  UInt64.toNat_ofNat_of_lt (Nat.lt_of_le_pred (by decide) h)

theorem all_isDigit_toDigits (n : Nat) : (Nat.toDigits 10 n).all Char.isDigit = true := by
  rw [List.all_eq_true]
  intro c hc
  exact Nat.isDigit_of_mem_toDigits (by decide) (by decide) hc

theorem toList_toString_word (n : UInt64) : (toString n).toList = Nat.toDigits 10 n.toNat := by
  show (toString n.toNat).toList = _
  rw [Nat.toString_eq_repr, Nat.toList_repr]

theorem parseU64_toString (n : UInt64) : parseU64 (toString n).toList = some n := by
  rw [toList_toString_word, parseU64_digits (by simp) (all_isDigit_toDigits _),
    Nat.ofDigitChars_toDigits (by decide) (by decide), if_pos (toNat_le_u64Max n), UInt64.ofNat_toNat]

/-! ## Throttle annotations -/

theorem throttleValue_ok_iff {target : Option UInt64} {value : MetaValue} {n : UInt64} :
    throttleValue target value = .ok n ↔ target = none ∧ value = .int n.toNat ∧ 0 < n := by
  unfold throttleValue
  cases target with
  | some n' => simp
  | none =>
    cases value with
    | int parsed =>
      have hLe := toNat_le_u64Max n
      simp only [Option.isSome_none, Bool.false_eq_true, if_false, MetaValue.int.injEq, true_and,
        UInt64.lt_iff_toNat_lt, UInt64.toNat_zero]
      by_cases hLarge : u64Max < parsed
      · rw [if_pos hLarge]
        exact iff_of_false nofun (by omega)
      · rw [if_neg hLarge]
        by_cases hZero : parsed = 0
        · rw [if_pos hZero]
          exact iff_of_false nofun (by omega)
        · rw [if_neg hZero, Except.ok.injEq, ← UInt64.toNat_inj, toNat_ofNat (by omega)]
          omega
    | str _ => simp
    | bool _ => simp
    | path _ => simp
    | other => simp

/-- The two arguments of a policy, in either order. -/
def policyArguments (limit window : UInt64) : List (List Meta) :=
  [[.nameValue "limit" (.int limit.toNat), .nameValue "window_seconds" (.int window.toNat)],
    [.nameValue "window_seconds" (.int window.toNat), .nameValue "limit" (.int limit.toNat)]]

theorem throttleArgument_ok_iff {found found' : Option UInt64 × Option UInt64} {value : Meta} :
    throttleArgument found value = .ok found' ↔ ∃ n, 0 < n ∧
      ((found.1 = none ∧ value = .nameValue "limit" (.int n.toNat) ∧ found' = (some n, found.2)) ∨
        (found.2 = none ∧ value = .nameValue "window_seconds" (.int n.toNat) ∧
          found' = (found.1, some n))) := by
  cases value with
  | other => simp [throttleArgument]
  | nameValue name value =>
    by_cases hLimit : name = "limit"
    · rw [throttleArgument, if_pos hLimit, Fallible.map_ok_iff]
      simp only [throttleValue_ok_iff]
      grind
    · by_cases hWindow : name = "window_seconds"
      · rw [throttleArgument, if_neg hLimit, if_pos hWindow, Fallible.map_ok_iff]
        simp only [throttleValue_ok_iff]
        grind
      · simp [throttleArgument, hLimit, hWindow]

theorem throttleArguments_cons {found found' : Option UInt64 × Option UInt64} {value : Meta}
    {values : List Meta} : (value :: values).foldlM throttleArgument found = .ok found' ↔
      ∃ next, throttleArgument found value = .ok next ∧
        values.foldlM throttleArgument next = .ok found' := by
  rw [List.foldlM_cons]
  exact Fallible.bind_ok_iff

/-- After both arguments there is no other one. -/
theorem throttleArguments_both {limit window : UInt64} {found : Option UInt64 × Option UInt64}
    {values : List Meta} :
    values.foldlM throttleArgument (some limit, some window) = .ok found ↔
      values = [] ∧ found = (some limit, some window) := by
  cases values with
  | nil =>
    rw [List.foldlM_nil]
    exact ⟨fun h => ⟨rfl, by cases h; rfl⟩, fun h => by rw [h.2]; rfl⟩
  | cons value values =>
    rw [throttleArguments_cons]
    refine iff_of_false ?_ (by simp)
    rintro ⟨next, hStep, -⟩
    obtain ⟨n, -, ⟨hNone, -⟩ | ⟨hNone, -⟩⟩ := throttleArgument_ok_iff.mp hStep
    · cases hNone
    · cases hNone

theorem throttleArguments_limit {given limit window : UInt64} {values : List Meta} :
    values.foldlM throttleArgument (some given, none) = .ok (some limit, some window) ↔
      given = limit ∧ 0 < window ∧
        values = [.nameValue "window_seconds" (.int window.toNat)] := by
  cases values with
  | nil => exact iff_of_false nofun (by simp)
  | cons value values =>
    rw [throttleArguments_cons]
    constructor
    · rintro ⟨next, hStep, hRest⟩
      obtain ⟨n, hPos, ⟨hNone, -⟩ | ⟨-, rfl, rfl⟩⟩ := throttleArgument_ok_iff.mp hStep
      · cases hNone
      · obtain ⟨rfl, hFound⟩ := throttleArguments_both.mp hRest
        cases hFound
        exact ⟨rfl, hPos, rfl⟩
    · rintro ⟨rfl, hPos, hValues⟩
      obtain ⟨rfl, rfl⟩ := List.cons.inj hValues
      exact ⟨_, throttleArgument_ok_iff.mpr ⟨window, hPos, .inr ⟨rfl, rfl, rfl⟩⟩, rfl⟩

theorem throttleArguments_window {given limit window : UInt64} {values : List Meta} :
    values.foldlM throttleArgument (none, some given) = .ok (some limit, some window) ↔
      given = window ∧ 0 < limit ∧ values = [.nameValue "limit" (.int limit.toNat)] := by
  cases values with
  | nil => exact iff_of_false nofun (by simp)
  | cons value values =>
    rw [throttleArguments_cons]
    constructor
    · rintro ⟨next, hStep, hRest⟩
      obtain ⟨n, hPos, ⟨-, rfl, rfl⟩ | ⟨hNone, -⟩⟩ := throttleArgument_ok_iff.mp hStep
      · obtain ⟨rfl, hFound⟩ := throttleArguments_both.mp hRest
        cases hFound
        exact ⟨rfl, hPos, rfl⟩
      · cases hNone
    · rintro ⟨rfl, hPos, hValues⟩
      obtain ⟨rfl, rfl⟩ := List.cons.inj hValues
      exact ⟨_, throttleArgument_ok_iff.mpr ⟨limit, hPos, .inl ⟨rfl, rfl, rfl⟩⟩, rfl⟩

theorem throttleArguments_ok_iff {limit window : UInt64} {values : List Meta} :
    values.foldlM throttleArgument (none, none) = .ok (some limit, some window) ↔
      0 < limit ∧ 0 < window ∧ values ∈ policyArguments limit window := by
  unfold policyArguments
  cases values with
  | nil => exact iff_of_false nofun (by simp)
  | cons value values =>
    rw [throttleArguments_cons, List.mem_cons, List.mem_singleton, List.cons.injEq, List.cons.injEq]
    constructor
    · rintro ⟨next, hStep, hRest⟩
      obtain ⟨n, hPos, ⟨-, rfl, rfl⟩ | ⟨-, rfl, rfl⟩⟩ := throttleArgument_ok_iff.mp hStep
      · obtain ⟨rfl, hPos', rfl⟩ := throttleArguments_limit.mp hRest
        exact ⟨hPos, hPos', .inl ⟨rfl, rfl⟩⟩
      · obtain ⟨rfl, hPos', rfl⟩ := throttleArguments_window.mp hRest
        exact ⟨hPos', hPos, .inr ⟨rfl, rfl⟩⟩
    · rintro ⟨hPos, hPos', ⟨rfl, rfl⟩ | ⟨rfl, rfl⟩⟩
      · exact ⟨_, throttleArgument_ok_iff.mpr ⟨limit, hPos, .inl ⟨rfl, rfl, rfl⟩⟩,
          throttleArguments_limit.mpr ⟨rfl, hPos', rfl⟩⟩
      · exact ⟨_, throttleArgument_ok_iff.mpr ⟨window, hPos', .inr ⟨rfl, rfl, rfl⟩⟩,
          throttleArguments_window.mpr ⟨rfl, hPos, rfl⟩⟩

/-- The accepted policies: both arguments, once each, and positive. -/
theorem parseThrottle_ok_iff {values : List Meta} {setting : ThrottleAnnotation} :
    parseThrottle (.ok values) = .ok setting ↔ ∃ limit window,
      setting = .policy limit window ∧ 0 < limit ∧ 0 < window ∧
        values ∈ policyArguments limit window := by
  have hParse : parseThrottle (.ok values) = .ok setting ↔ ∃ limit window,
      values.foldlM throttleArgument (none, none) = .ok (some limit, some window) ∧
        setting = .policy limit window := by
    show (values.foldlM throttleArgument (none, none) >>= _) = _ ↔ _
    rw [Fallible.bind_ok_iff]
    constructor
    · rintro ⟨⟨limit?, window?⟩, hFold, hEnd⟩
      cases limit? with
      | none => cases hEnd
      | some limit =>
        cases window? with
        | none => cases hEnd
        | some window =>
          cases hEnd
          exact ⟨limit, window, hFold, rfl⟩
    · rintro ⟨limit, window, hFold, rfl⟩
      exact ⟨_, hFold, rfl⟩
  rw [hParse]
  constructor
  · rintro ⟨limit, window, hFold, rfl⟩
    exact ⟨limit, window, rfl, throttleArguments_ok_iff.mp hFold⟩
  · rintro ⟨limit, window, rfl, hAccepted⟩
    exact ⟨limit, window, throttleArguments_ok_iff.mpr hAccepted, rfl⟩

/-! ## Markers -/

theorem notMem_toString {c : Char} (hc : c.isDigit = false) (n : UInt64) :
    c ∉ (toString n).toList := by
  rw [toList_toString_word]
  intro hMem
  rw [Nat.isDigit_of_mem_toDigits (by decide) (by decide) hMem] at hc
  cases hc

/-- A throttle annotation is read back from its marker. -/
theorem throttleDocMarker_throttleMarker (setting : ThrottleAnnotation) :
    throttleDocMarker (throttleMarker setting) = some setting := by
  cases setting with
  | skip => rfl
  | policy limit window =>
    have hText : (throttleMarker (.policy limit window)).toList =
        policyPrefix.toList ++ ((toString limit).toList ++ ':' :: (toString window).toList) := by
      simp [throttleMarker]
    have hNoSkip : throttleMarker (.policy limit window) ≠ skipMarker := by
      intro hSkip
      rw [hSkip] at hText
      have hHead := congrArg (fun s => s.take 18) hText
      rw [List.take_left' (by decide)] at hHead
      exact absurd hHead (by decide)
    have hPrefix : policyPrefix.toList.isPrefixOf
        (throttleMarker (.policy limit window)).toList = true := by
      rw [hText, List.isPrefixOf_iff_prefix]
      exact List.prefix_append _ _
    have hSplit : ((throttleMarker (.policy limit window)).toList.drop policyPrefix.length).splitOn ':'
        = [(toString limit).toList, (toString window).toList] := by
      rw [hText, List.drop_left' (by decide), List.splitOn_append_cons_self_of_not_mem,
        List.splitOn_eq_singleton]
      · exact notMem_toString (by decide) _
      · exact notMem_toString (by decide) _
    unfold throttleDocMarker
    rw [if_neg hNoSkip, if_pos hPrefix, hSplit]
    dsimp only
    rw [parseU64_toString, parseU64_toString]
    rfl

/-! ## Sizes -/

theorem stripSuffix_eq_some_iff {suffix s front : List Char} :
    stripSuffix suffix s = some front ↔ s = front ++ suffix := by
  unfold stripSuffix
  constructor
  · intro h
    by_cases hSuffix : suffix.isSuffixOf s = true
    · rw [if_pos hSuffix] at h
      obtain ⟨front', rfl⟩ := List.isSuffixOf_iff_suffix.mp hSuffix
      rw [List.length_append, Nat.add_sub_cancel, List.take_left, Option.some_inj] at h
      rw [h]
    · rw [if_neg hSuffix] at h
      cases h
  · rintro rfl
    have hSuffix : suffix.isSuffixOf (front ++ suffix) = true :=
      List.isSuffixOf_iff_suffix.mpr (List.suffix_append _ _)
    rw [if_pos hSuffix, List.length_append, Nat.add_sub_cancel, List.take_left]

/-- A written size: digits and one of the units. -/
structure WrittenSize (value : String) (digits : List Char) (unit : String × Nat) : Prop where
  mem : unit ∈ uploadUnits
  text : value.toList = digits ++ unit.1.toList
  some : digits ≠ []
  allDigits : digits.all Char.isDigit = true

/-- No unit ends in one that is tried before it. -/
theorem uploadUnits_pairwise :
    uploadUnits.Pairwise fun before unit => ¬ before.1.toList <:+ unit.1.toList := by
  decide

theorem uploadUnits_spec : ∀ unit ∈ uploadUnits,
    (unit.1.toList.all fun c => !c.isDigit) = true ∧ 0 < unit.2 := by
  decide

/-- Before a unit that stands after digits no other one is found. -/
theorem stripSuffix_other {digits : List Char} (hDigits : digits.all Char.isDigit = true)
    {before unit : String × Nat} (hBefore : before ∈ uploadUnits)
    (hEnds : ¬ before.1.toList <:+ unit.1.toList) :
    stripSuffix before.1.toList (digits ++ unit.1.toList) = none := by
  rw [Option.eq_none_iff_forall_ne_some]
  intro front hFront
  rw [stripSuffix_eq_some_iff] at hFront
  rcases List.append_eq_append_iff.mp hFront with ⟨later, rfl, hUnit⟩ | ⟨later, rfl, hUnit⟩
  · -- the unit that was tried is the end of this one
    exact hEnds (hUnit ▸ List.suffix_append _ _)
  · cases later with
    | nil => exact hEnds (by rw [hUnit]; exact List.suffix_refl _)
    | cons c later =>
      rw [List.all_append, Bool.and_eq_true, List.all_cons, Bool.and_eq_true] at hDigits
      have hOther := List.all_eq_true.mp (uploadUnits_spec before hBefore).1 c (by simp [hUnit])
      rw [hDigits.2.1] at hOther
      cases hOther

theorem findUnit {value : String} {digits : List Char} {unit : String × Nat}
    (h : WrittenSize value digits unit) :
    (uploadUnits.findSome? fun unit =>
      (stripSuffix unit.1.toList value.toList).map fun digits => (digits, unit.2)) =
      some (digits, unit.2) := by
  obtain ⟨before, later, hUnits⟩ := List.append_of_mem h.mem
  have hPairwise := uploadUnits_pairwise
  rw [hUnits, List.pairwise_append] at hPairwise
  have hBefore : before.findSome? (fun unit =>
      (stripSuffix unit.1.toList value.toList).map fun digits => (digits, unit.2)) = none := by
    rw [List.findSome?_eq_none_iff]
    intro other hOther
    rw [h.text, stripSuffix_other h.allDigits (by simp [hUnits, hOther])
      (hPairwise.2.2 other hOther unit List.mem_cons_self), Option.map_none]
  rw [hUnits, List.findSome?_append, hBefore, Option.none_or, List.findSome?_cons,
    stripSuffix_eq_some_iff.mpr h.text, Option.map_some]

theorem sizeBytes {digits : List Char} {unit : Nat} (hUnit : 0 < unit) (hSome : digits ≠ [])
    (hDigits : digits.all Char.isDigit = true) :
    ((parseU64 digits).bind fun bytes =>
      if bytes.toNat * unit ≤ u64Max then some (bytes.toNat * unit) else none) =
      if Nat.ofDigitChars 10 digits 0 * unit ≤ u64Max then
        some (Nat.ofDigitChars 10 digits 0 * unit) else none := by
  rw [parseU64_digits hSome hDigits]
  by_cases hLe : Nat.ofDigitChars 10 digits 0 ≤ u64Max
  · rw [if_pos hLe, Option.bind_some, toNat_ofNat hLe]
  · have hLarge : ¬ Nat.ofDigitChars 10 digits 0 * unit ≤ u64Max := by
      intro hProduct
      exact hLe (Nat.le_trans (Nat.le_mul_of_pos_right _ hUnit) hProduct)
    rw [if_neg hLe, if_neg hLarge, Option.bind_none]

/-- The accepted sizes: digits, a unit, and a product that a word of 64 bits holds. -/
theorem parseUploadSize_ok_iff {value : String} {bytes : Nat} :
    parseUploadSize value = .ok bytes ↔ ∃ digits unit, WrittenSize value digits unit ∧
      bytes = Nat.ofDigitChars 10 digits 0 * unit.2 ∧ bytes ≤ u64Max := by
  constructor
  · intro h
    unfold parseUploadSize at h
    cases hFind : uploadUnits.findSome? fun unit =>
        (stripSuffix unit.1.toList value.toList).map fun digits => (digits, unit.2) with
    | none => rw [hFind] at h; cases h
    | some found =>
      obtain ⟨unit, hMem, hUnit⟩ := List.exists_of_findSome?_eq_some hFind
      obtain ⟨digits, hStrip, rfl⟩ := Option.map_eq_some_iff.mp hUnit
      rw [hFind] at h
      dsimp only at h
      by_cases hBad : (digits.isEmpty || !digits.all Char.isDigit) = true
      · rw [if_pos hBad] at h
        cases h
      · rw [if_neg hBad] at h
        rw [Bool.or_eq_true, not_or, Bool.not_eq_true', Bool.not_eq_false, List.isEmpty_iff] at hBad
        rw [sizeBytes (uploadUnits_spec unit hMem).2 hBad.1 hBad.2] at h
        by_cases hFits : Nat.ofDigitChars 10 digits 0 * unit.2 ≤ u64Max
        · rw [if_pos hFits] at h
          cases h
          exact ⟨digits, unit, ⟨hMem, stripSuffix_eq_some_iff.mp hStrip, hBad.1, hBad.2⟩, rfl, hFits⟩
        · rw [if_neg hFits] at h
          cases h
  · rintro ⟨digits, unit, hWritten, rfl, hFits⟩
    have hGood : ¬ (digits.isEmpty || !digits.all Char.isDigit) = true := by
      simp [hWritten.some, hWritten.allDigits]
    unfold parseUploadSize
    rw [findUnit hWritten]
    dsimp only
    rw [if_neg hGood, sizeBytes (uploadUnits_spec unit hWritten.mem).2 hWritten.some
      hWritten.allDigits, if_pos hFits]

end Caelix
