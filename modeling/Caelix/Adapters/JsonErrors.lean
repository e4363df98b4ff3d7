import Mathlib.Data.List.TakeWhile
import Caelix.Core.Exception
import Caelix.Core.Response

/-!
# Errors of JSON bodies

What the adapters make of a body that `serde_json` does not read: `json_error`, which is the same
on both backends, and `json_exception` of the `Json` extractor on Actix. Both look for the name of
a missing field in the text of the error. That text is written as `serde` and `serde_json` do, and
may quote what the client sent.

* `SerdeError.toString`: the text of an error.
* `exception_named`, `exception_unnamed`: which texts seem to name a missing field.
* `json_errors_iff`: when an exception names a field exactly if one is missing.
-/

namespace Caelix

/-! ## Texts of errors -/

/-- What a body holds in place of what was expected. -/
inductive Unexpected where
  | bool (value : Bool)
  | unsigned (value : Nat)
  | signed (value : Int)
  | float (text : String)
  | char (value : Char)
  | str (value : String)
  | bytes
  | unit
  | option
  | newtypeStruct
  | seq
  | map
  | enum
  | unitVariant
  | newtypeVariant
  | tupleVariant
  | structVariant
  | other (text : String)
  deriving DecidableEq, Repr

/-- Why a body does not fit a type. A type may write messages of its own about what it is given. -/
inductive SerdeReason where
  | custom (message : String → String) (given : String)
  | invalidType (unexpected : Unexpected) (expected : String)
  | invalidValue (unexpected : Unexpected) (expected : String)
  | invalidLength (length : Nat) (expected : String)
  | unknownVariant (variant : String) (expected : List String)
  | unknownField (field : String) (expected : List String)
  | missingField (field : String)
  | duplicateField (field : String)
  | syntaxError (message : String)

/-- An error of `serde_json`, with its line and column. -/
structure SerdeError where
  reason : SerdeReason
  position : Option (Nat × Nat)

/-- A character in the `Debug` text of a string. `printable` is the table of the standard library
for characters that are shown as they are. -/
def escapeDebug (printable : Char → Bool) (c : Char) : String :=
  if c = Char.ofNat 0 then "\\0"
  else if c = '\t' then "\\t"
  else if c = '\r' then "\\r"
  else if c = '\n' then "\\n"
  else if c = '"' then "\\\""
  else if c = '\\' then "\\\\"
  else if printable c then String.singleton c
  else "\\u\x7b" ++ String.ofList (Nat.toDigits 16 c.toNat) ++ "\x7d"

def debugString (printable : Char → Bool) (s : String) : String :=
  "\"" ++ String.join (s.toList.map (escapeDebug printable)) ++ "\""

/-- The text of `Unexpected`, as `serde_json` shows it. -/
def Unexpected.text (printable : Char → Bool) : Unexpected → String
  | bool value => s!"boolean `{value}`"
  | unsigned value => s!"integer `{value}`"
  | signed value => s!"integer `{value}`"
  | float text => s!"floating point `{text}`"
  | char value => s!"character `{value}`"
  | str value => "string " ++ debugString printable value
  | bytes => "byte array"
  | unit => "null"
  | option => "Option value"
  | newtypeStruct => "newtype struct"
  | seq => "sequence"
  | map => "map"
  | enum => "enum"
  | unitVariant => "unit variant"
  | newtypeVariant => "newtype variant"
  | tupleVariant => "tuple variant"
  | structVariant => "struct variant"
  | other text => text

/-- The text of `OneOf`. -/
def oneOf : List String → String
  | [name] => s!"`{name}`"
  | [first, second] => s!"`{first}` or `{second}`"
  | names => "one of " ++ ", ".intercalate (names.map fun name => s!"`{name}`")

def SerdeReason.text (printable : Char → Bool) : SerdeReason → String
  | custom message given => message given
  | invalidType unexpected expected =>
    s!"invalid type: {unexpected.text printable}, expected {expected}"
  | invalidValue unexpected expected =>
    s!"invalid value: {unexpected.text printable}, expected {expected}"
  | invalidLength length expected => s!"invalid length {length}, expected {expected}"
  | unknownVariant variant [] => s!"unknown variant `{variant}`, there are no variants"
  | unknownVariant variant expected => s!"unknown variant `{variant}`, expected {oneOf expected}"
  | unknownField field [] => s!"unknown field `{field}`, there are no fields"
  | unknownField field expected => s!"unknown field `{field}`, expected {oneOf expected}"
  | missingField field => "missing field `" ++ field ++ "`"
  | duplicateField field => s!"duplicate field `{field}`"
  | syntaxError message => message

def SerdeError.toString (printable : Char → Bool) (e : SerdeError) : String :=
  match e.position with
  | none => e.reason.text printable
  | some (line, column) => e.reason.text printable ++ s!" at line {line} column {column}"

/-! ## Exceptions -/

def backtick : Char := Char.ofNat 0x60

def missingFieldText : List Char := "missing field `".toList

/-- The validation error of a field that is required. -/
def requiredField (field : String) : HttpException :=
  { badRequest "Validation failed" with errors := some [(field, ["is required"])] }

/-- `json_error`, on both backends. -/
def jsonError (message : String) : HttpException :=
  let field := (message.toList.dropInfix? missingFieldText).map fun found =>
    found.2.takeWhile (· != backtick)
  match field.filter (· ≠ []) with
  | some field => requiredField (String.ofList field)
  | none => badRequest "invalid JSON request body"

def missingFieldName (message : String) : Option String := do
  let (_, rest) ← message.toList.dropInfix? missingFieldText
  if backtick ∉ rest then none
  else
    let field := rest.takeWhile (· != backtick)
    if field = [] then none else some (String.ofList field)

def missingFieldException (message : String) : Option HttpException :=
  (missingFieldName message).map requiredField

/-- `JsonPayloadError` of Actix. -/
inductive JsonPayloadError where
  | overflowKnownLength (length limit : Nat)
  | overflow (limit : Nat)
  | contentType
  | deserialize (source : SerdeError)
  | serialize (source : SerdeError)
  | payload (text : String)

def jsonException (printable : Char → Bool) (err : JsonPayloadError) (bodyLimit : Nat) :
    HttpException :=
  match err with
  | .overflow _ | .overflowKnownLength _ _ =>
    payloadTooLarge s!"request body exceeds the configured limit of {bodyLimit} bytes"
  | .deserialize source =>
    (missingFieldException (source.toString printable)).getD
      (badRequest "invalid JSON request body")
  | _ => badRequest "invalid JSON request body"

/-- The two ways in which a body is read as JSON: `RequestPayload::json` of both backends, and the
`Json` extractor of Actix. -/
inductive JsonExtractor where
  | payload
  | json (bodyLimit : Nat)
  deriving DecidableEq, Repr

namespace JsonExtractor

def exception (printable : Char → Bool) (extractor : JsonExtractor) (e : SerdeError) :
    HttpException :=
  match extractor with
  | payload => jsonError (e.toString printable)
  | json bodyLimit => jsonException printable (.deserialize e) bodyLimit

/-- Reading a body as a `T`. What `serde_json` makes of bodies is given. -/
def read {T : Type} (printable : Char → Bool) (fromSlice : Bytes → Except SerdeError T)
    (extractor : JsonExtractor) (body : Bytes) : Except HttpException T :=
  (fromSlice body).mapError (extractor.exception printable)

end JsonExtractor

/-! ## Texts that seem to name a field -/

/-- The first occurrence of a pattern in a text is between `before` and `rest`. -/
structure FirstOccurrence (pattern before rest text : List Char) : Prop where
  split : text = before ++ pattern ++ rest
  first : ∀ before' rest', text = before' ++ pattern ++ rest' → before.length ≤ before'.length

theorem dropInfix?_eq_iff {pattern before rest text : List Char} :
    text.dropInfix? pattern = some (before, rest) ↔ FirstOccurrence pattern before rest text := by
  rw [List.dropInfix?_eq_some_iff]
  constructor
  · rintro ⟨⟨pattern', hSplit, hSame⟩, hFirst⟩
    rw [eq_of_beq hSame] at hSplit
    exact ⟨hSplit, fun before' rest' h => hFirst before' pattern rest' h BEq.rfl⟩
  · intro h
    refine ⟨⟨pattern, h.split, BEq.rfl⟩, ?_⟩
    intro before' pattern' rest' hSplit hSame
    rw [eq_of_beq hSame] at hSplit
    exact h.first before' rest' hSplit

theorem FirstOccurrence.front (pattern rest : List Char) :
    FirstOccurrence pattern [] rest (pattern ++ rest) :=
  ⟨rfl, fun _ _ _ => Nat.zero_le _⟩

/-- A first occurrence is the only one. -/
theorem FirstOccurrence.unique {pattern before rest before' rest' text : List Char}
    (h : FirstOccurrence pattern before rest text)
    (h' : FirstOccurrence pattern before' rest' text) : rest = rest' := by
  have hSame := (dropInfix?_eq_iff.mpr h).symm.trans (dropInfix?_eq_iff.mpr h')
  exact (Prod.mk.inj (Option.some.inj hSame)).2

/-- Whether an extractor finds the end of the name of a field. -/
def JsonExtractor.Closes (rest : List Char) : JsonExtractor → Prop
  | payload => True
  | json _ => backtick ∈ rest

/-- A text seems to name a missing field: there is a name after the first place that says so. -/
def SeemsToName (extractor : JsonExtractor) (text : String) : Prop :=
  ∃ before c rest, FirstOccurrence missingFieldText before (c :: rest) text.toList ∧
    c ≠ backtick ∧ extractor.Closes rest

section Exceptions

variable {printable : Char → Bool} {extractor : JsonExtractor} {e : SerdeError} {text : String}
  {before rest : List Char} {c : Char}

theorem jsonError_missing (h : text.toList.dropInfix? missingFieldText = none) :
    jsonError text = badRequest "invalid JSON request body" := by
  rw [jsonError, h]
  rfl

theorem jsonError_found (h : text.toList.dropInfix? missingFieldText = some (before, rest)) :
    jsonError text =
      if rest.takeWhile (· != backtick) = [] then badRequest "invalid JSON request body"
      else requiredField (String.ofList (rest.takeWhile (· != backtick))) := by
  rw [jsonError, h, Option.map_some]
  dsimp only
  by_cases hEmpty : rest.takeWhile (· != backtick) = []
  · rw [Option.filter_some, if_neg (by simp [hEmpty]), if_pos hEmpty]
  · rw [Option.filter_some, if_pos (by simp [hEmpty]), if_neg hEmpty]

theorem missingFieldName_missing (h : text.toList.dropInfix? missingFieldText = none) :
    missingFieldName text = none := by
  rw [missingFieldName, h]
  rfl

theorem missingFieldName_found
    (h : text.toList.dropInfix? missingFieldText = some (before, rest)) :
    missingFieldName text =
      if backtick ∉ rest ∨ rest.takeWhile (· != backtick) = [] then none
      else some (String.ofList (rest.takeWhile (· != backtick))) := by
  rw [missingFieldName, h]
  change (if backtick ∉ rest then none
    else if rest.takeWhile (· != backtick) = [] then none
    else some (String.ofList (rest.takeWhile (· != backtick)))) = _
  by_cases hOpen : backtick ∉ rest
  · rw [if_pos hOpen, if_pos (Or.inl hOpen)]
  rw [if_neg hOpen]
  by_cases hEmpty : rest.takeWhile (· != backtick) = []
  · rw [if_pos hEmpty, if_pos (Or.inr hEmpty)]
  · rw [if_neg hEmpty, if_neg (not_or.mpr ⟨hOpen, hEmpty⟩)]

theorem takeWhile_name (hName : c ≠ backtick) :
    (c :: rest).takeWhile (· != backtick) = c :: rest.takeWhile (· != backtick) :=
  List.takeWhile_cons_of_pos (bne_iff_ne.mpr hName)

/-- A text that seems to name a field is taken at its word. -/
theorem exception_named
    (h : FirstOccurrence missingFieldText before (c :: rest) (e.toString printable).toList)
    (hName : c ≠ backtick) (hCloses : extractor.Closes rest) :
    extractor.exception printable e =
      requiredField (String.ofList (c :: rest.takeWhile (· != backtick))) := by
  have hFind := dropInfix?_eq_iff.mpr h
  cases extractor with
  | payload =>
    rw [JsonExtractor.exception, jsonError_found hFind, takeWhile_name hName, if_neg nofun]
  | json bodyLimit =>
    have hMem : backtick ∈ c :: rest := List.mem_cons_of_mem c hCloses
    rw [JsonExtractor.exception, jsonException, missingFieldException, missingFieldName_found hFind,
      takeWhile_name hName, if_neg (not_or.mpr ⟨not_not_intro hMem, nofun⟩)]
    rfl

/-- Any other text is not looked into. -/
theorem exception_unnamed (h : ¬ SeemsToName extractor (e.toString printable)) :
    extractor.exception printable e = badRequest "invalid JSON request body" := by
  cases hFind : (e.toString printable).toList.dropInfix? missingFieldText with
  | none =>
    cases extractor with
    | payload => exact jsonError_missing hFind
    | json bodyLimit =>
      rw [JsonExtractor.exception, jsonException, missingFieldException,
        missingFieldName_missing hFind]
      rfl
  | some found =>
    obtain ⟨before, rest⟩ := found
    have hFirst := dropInfix?_eq_iff.mp hFind
    have hEmpty : ∀ {c : Char} {later : List Char}, rest = c :: later → extractor.Closes later →
        rest.takeWhile (· != backtick) = [] := by
      rintro c later rfl hCloses
      have hTick : c = backtick := by
        by_contra hName
        exact h ⟨before, c, later, hFirst, hName, hCloses⟩
      rw [hTick]
      rfl
    cases extractor with
    | payload =>
      have hTake : rest.takeWhile (· != backtick) = [] := by
        cases rest with
        | nil => rfl
        | cons c later => exact hEmpty rfl trivial
      rw [JsonExtractor.exception, jsonError_found hFind, if_pos hTake]
    | json bodyLimit =>
      have hTake : backtick ∉ rest ∨ rest.takeWhile (· != backtick) = [] := by
        cases rest with
        | nil => exact Or.inl List.not_mem_nil
        | cons c later =>
          by_cases hCloses : backtick ∈ later
          · exact Or.inr (hEmpty rfl hCloses)
          by_cases hTick : c = backtick
          · exact Or.inr (List.takeWhile_cons_of_neg (by simp [hTick]))
          · refine Or.inl fun hMem => ?_
            rcases List.mem_cons.mp hMem with hSame | hLater
            · exact hTick hSame.symm
            · exact hCloses hLater
      rw [JsonExtractor.exception, jsonException, missingFieldException,
        missingFieldName_found hFind, if_pos hTake]
      rfl

theorem toList_missingField (field : String) :
    ("missing field `" ++ field ++ "`").toList =
      missingFieldText ++ (field.toList ++ [backtick]) := by
  have hTick : "`".toList = [backtick] := by decide +kernel
  unfold missingFieldText
  generalize "missing field `" = start
  rw [String.toList_append, String.toList_append, List.append_assoc, hTick]

/-- The text of a missing field begins with its name. -/
theorem text_missingField {field : String} (h : e.reason = .missingField field) :
    ∃ position, FirstOccurrence missingFieldText [] (field.toList ++ backtick :: position)
      (e.toString printable).toList := by
  have hText : (e.reason.text printable).toList =
      missingFieldText ++ (field.toList ++ [backtick]) := by
    rw [h]
    exact toList_missingField field
  have hSuffix : ∃ position, (e.toString printable).toList =
      missingFieldText ++ (field.toList ++ backtick :: position) := by
    unfold SerdeError.toString
    cases e.position with
    | none => exact ⟨[], hText⟩
    | some position =>
      obtain ⟨line, column⟩ := position
      refine ⟨s!" at line {line} column {column}".toList, ?_⟩
      dsimp only
      rw [String.toList_append, hText]
      simp only [List.append_assoc, List.singleton_append]
  obtain ⟨position, hSplit⟩ := hSuffix
  refine ⟨position, ?_⟩
  rw [hSplit]
  exact FirstOccurrence.front _ _

theorem takeWhile_backtick (l later : List Char) :
    (l ++ backtick :: later).takeWhile (· != backtick) = l.takeWhile (· != backtick) := by
  induction l with
  | nil => rfl
  | cons c l ih =>
    by_cases hTick : c = backtick
    · rw [hTick]
      rfl
    · rw [List.cons_append, takeWhile_name hTick, takeWhile_name hTick, ih]

theorem takeWhile_eq_self_iff {l : List Char} :
    l.takeWhile (· != backtick) = l ↔ backtick ∉ l := by
  rw [List.takeWhile_eq_self_iff]
  constructor
  · intro h hMem
    exact bne_iff_ne.mp (h backtick hMem) rfl
  · intro h c hMem
    exact bne_iff_ne.mpr fun hTick => h (hTick ▸ hMem)

/-- What is made of a missing field: a backtick ends its name. -/
theorem exception_missingField (printable : Char → Bool) (extractor : JsonExtractor)
    {field : String} (h : e.reason = .missingField field) :
    (field.toList.takeWhile (· != backtick) ≠ [] ∧
      extractor.exception printable e =
        requiredField (String.ofList (field.toList.takeWhile (· != backtick)))) ∨
    (field.toList.takeWhile (· != backtick) = [] ∧
      extractor.exception printable e = badRequest "invalid JSON request body") := by
  obtain ⟨position, hFirst⟩ : ∃ position, FirstOccurrence missingFieldText []
      (field.toList ++ backtick :: position) (e.toString printable).toList := text_missingField h
  -- A backtick right after the first occurrence leaves no name.
  have hNone : ∀ {later : List Char}, field.toList ++ backtick :: position = backtick :: later →
      extractor.exception printable e = badRequest "invalid JSON request body" := by
    intro later hSame
    apply exception_unnamed
    rintro ⟨before, c, rest, hOther, hName, -⟩
    have hRest := hFirst.unique hOther
    rw [hSame] at hRest
    exact hName (List.cons.inj hRest).1.symm
  cases hField : field.toList with
  | nil =>
    rw [hField] at hNone
    exact Or.inr ⟨rfl, hNone rfl⟩
  | cons c cs =>
    rw [hField] at hFirst hNone
    by_cases hTick : c = backtick
    · rw [hTick] at hNone ⊢
      exact Or.inr ⟨rfl, hNone rfl⟩
    · have hCloses : extractor.Closes (cs ++ backtick :: position) := by
        cases extractor with
        | payload => trivial
        | json bodyLimit => exact List.mem_append_right _ List.mem_cons_self
      refine Or.inl ?_
      rw [takeWhile_name hTick, ← takeWhile_backtick cs position]
      exact ⟨List.cons_ne_nil _ _, exception_named hFirst hTick hCloses⟩

end Exceptions

/-! ## What exceptions say -/

/-- An exception names a field exactly if one is missing, and then that field. -/
structure NamesMissingField (reason : SerdeReason) (exception : HttpException) : Prop where
  entry : exception.errors ≠ none ↔ ∃ field, reason = .missingField field
  field : ∀ field, reason = .missingField field →
    ∃ messages, exception.errors = some [(field, messages)]

/-- What a client sees of an exception, apart from the names of fields. -/
def HttpException.shape (exception : HttpException) : Nat × String × String × Bool :=
  (exception.status, exception.error, exception.message, exception.errors.isSome)

/-- The same kind of value, with other text of the client. -/
inductive Unexpected.SameKind : Unexpected → Unexpected → Prop where
  | same (unexpected : Unexpected) : SameKind unexpected unexpected
  | char (value value' : Char) : SameKind (.char value) (.char value')
  | str (value value' : String) : SameKind (.str value) (.str value')

/-- The same reason other than a missing field, for other text of the client. -/
inductive SerdeReason.SameKind : SerdeReason → SerdeReason → Prop where
  | custom (message : String → String) (given given' : String) :
    SameKind (.custom message given) (.custom message given')
  | invalidType {unexpected unexpected' : Unexpected} (h : unexpected.SameKind unexpected')
    (expected : String) :
    SameKind (.invalidType unexpected expected) (.invalidType unexpected' expected)
  | invalidValue {unexpected unexpected' : Unexpected} (h : unexpected.SameKind unexpected')
    (expected : String) :
    SameKind (.invalidValue unexpected expected) (.invalidValue unexpected' expected)
  | invalidLength (length : Nat) (expected : String) :
    SameKind (.invalidLength length expected) (.invalidLength length expected)
  | unknownVariant (variant variant' : String) (expected : List String) :
    SameKind (.unknownVariant variant expected) (.unknownVariant variant' expected)
  | unknownField (field field' : String) (expected : List String) :
    SameKind (.unknownField field expected) (.unknownField field' expected)
  | duplicateField (field : String) : SameKind (.duplicateField field) (.duplicateField field)
  | syntaxError (message : String) : SameKind (.syntaxError message) (.syntaxError message)

/-- The text of an error says what its reason is. -/
def SerdeError.Plain (printable : Char → Bool) (extractor : JsonExtractor) (e : SerdeError) :
    Prop :=
  match e.reason with
  | .missingField field => field ≠ "" ∧ backtick ∉ field.toList
  | _ => ¬ SeemsToName extractor (e.toString printable)

section Shapes

variable {printable : Char → Bool} {extractor : JsonExtractor} {e e' : SerdeError} {text : String}

/-- A text without a backtick does not seem to name a field. -/
theorem not_seemsToName (h : backtick ∉ text.toList) : ¬ SeemsToName extractor text := by
  rintro ⟨before, c, rest, hFirst, -, -⟩
  have hTick : backtick ∈ missingFieldText := by decide +kernel
  rw [hFirst.split] at h
  exact h (List.mem_append_left _ (List.mem_append_right _ hTick))

/-- The exceptions of an extractor are of two shapes. -/
theorem exception_cases (printable : Char → Bool) (extractor : JsonExtractor) (e : SerdeError) :
    (SeemsToName extractor (e.toString printable) ∧
      ∃ field, extractor.exception printable e = requiredField field) ∨
    (¬ SeemsToName extractor (e.toString printable) ∧
      extractor.exception printable e = badRequest "invalid JSON request body") := by
  by_cases h : SeemsToName extractor (e.toString printable)
  · obtain ⟨before, c, rest, hFirst, hName, hCloses⟩ := h
    exact Or.inl ⟨⟨before, c, rest, hFirst, hName, hCloses⟩, _,
      exception_named hFirst hName hCloses⟩
  · exact Or.inr ⟨h, exception_unnamed h⟩

theorem errors_ne_none_iff :
    (extractor.exception printable e).errors ≠ none ↔
      SeemsToName extractor (e.toString printable) := by
  rcases exception_cases printable extractor e with ⟨hSeems, field, h⟩ | ⟨hSeems, h⟩
  · rw [h]
    exact iff_of_true nofun hSeems
  · rw [h]
    exact iff_of_false (fun hErrors => hErrors rfl) hSeems

theorem status_exception : (extractor.exception printable e).status = 400 := by
  rcases exception_cases printable extractor e with ⟨-, field, h⟩ | ⟨-, h⟩
  · rw [h]
    rfl
  · rw [h]
    rfl

/-- Exceptions differ in shape when one of their texts only seems to name a field. -/
theorem shape_eq_iff :
    (extractor.exception printable e).shape = (extractor.exception printable e').shape ↔
      (SeemsToName extractor (e.toString printable) ↔
        SeemsToName extractor (e'.toString printable)) := by
  rcases exception_cases printable extractor e with ⟨hSeems, field, h⟩ | ⟨hSeems, h⟩
  · rcases exception_cases printable extractor e' with
      ⟨hSeems', field', h'⟩ | ⟨hSeems', h'⟩
    · rw [h, h']
      exact iff_of_true rfl (iff_of_true hSeems hSeems')
    · rw [h, h']
      refine iff_of_false ?_ fun hIff => hSeems' (hIff.mp hSeems)
      intro hShape
      have hEntries := congrArg (fun shape => shape.2.2.2) hShape
      cases hEntries
  · rcases exception_cases printable extractor e' with
      ⟨hSeems', field', h'⟩ | ⟨hSeems', h'⟩
    · rw [h, h']
      refine iff_of_false ?_ fun hIff => hSeems (hIff.mpr hSeems')
      intro hShape
      have hEntries := congrArg (fun shape => shape.2.2.2) hShape
      cases hEntries
    · rw [h, h']
      exact iff_of_true rfl (iff_of_false hSeems hSeems')

theorem namesMissingField_of_missing {field : String} (h : e.reason = .missingField field) :
    NamesMissingField e.reason (extractor.exception printable e) ↔
      field ≠ "" ∧ backtick ∉ field.toList := by
  have hEmpty : field.toList = [] ↔ field = "" := String.toList_eq_nil_iff
  rcases exception_missingField printable extractor h with
    ⟨hName, hException⟩ | ⟨hName, hException⟩
  · rw [hException, h]
    constructor
    · intro hNames
      obtain ⟨messages, hErrors⟩ := hNames.field field rfl
      have hSame : String.ofList (field.toList.takeWhile (· != backtick)) = field :=
        (Prod.mk.inj (List.cons.inj (Option.some.inj hErrors)).1).1
      have hTake : field.toList.takeWhile (· != backtick) = field.toList := by
        rw [← String.toList_ofList (l := field.toList.takeWhile (· != backtick)), hSame]
      refine ⟨fun hField => ?_, takeWhile_eq_self_iff.mp hTake⟩
      rw [hEmpty.mpr hField] at hName
      exact hName rfl
    · rintro ⟨-, hTick⟩
      rw [takeWhile_eq_self_iff.mpr hTick, String.ofList_toList]
      refine ⟨iff_of_true nofun ⟨field, rfl⟩, ?_⟩
      rintro _ ⟨⟩
      exact ⟨_, rfl⟩
  · rw [hException, h]
    refine iff_of_false (fun hNames => hNames.entry.mpr ⟨field, rfl⟩ rfl) ?_
    rintro ⟨hField, hTick⟩
    rw [takeWhile_eq_self_iff.mpr hTick, hEmpty] at hName
    exact hField hName

theorem namesMissingField_of_other (h : ∀ field, e.reason ≠ .missingField field) :
    NamesMissingField e.reason (extractor.exception printable e) ↔
      ¬ SeemsToName extractor (e.toString printable) := by
  rw [← errors_ne_none_iff, not_not]
  constructor
  · intro hNames
    by_contra hErrors
    obtain ⟨field, hField⟩ := hNames.entry.mp hErrors
    exact h field hField
  · intro hErrors
    refine ⟨iff_of_false (not_not_intro hErrors) ?_, fun field hField => absurd hField (h field)⟩
    rintro ⟨field, hField⟩
    exact h field hField

/-- Exactly the plain texts are classified by what they say. -/
theorem namesMissingField_iff :
    NamesMissingField e.reason (extractor.exception printable e) ↔ e.Plain printable extractor := by
  unfold SerdeError.Plain
  split
  · rename_i field hField
    exact namesMissingField_of_missing hField
  · rename_i hOther
    exact namesMissingField_of_other fun field hField => hOther field hField

end Shapes

/-- An exception names a field exactly if one is missing when the text of the error is plain. The
exceptions of two errors, for the same reason or not, are of one shape when both texts seem to name
a field, or neither does. -/
theorem json_errors_iff {T : Type} (printable : Char → Bool)
    (fromSlice : Bytes → Except SerdeError T) (extractor : JsonExtractor) (body : Bytes)
    (e : SerdeError) (h : fromSlice body = .error e) :
    ∃ exception, extractor.read printable fromSlice body = .error exception ∧
      exception.status = 400 ∧
      (NamesMissingField e.reason exception ↔ e.Plain printable extractor) ∧
      ∀ body' e', fromSlice body' = .error e' →
        ∃ exception', extractor.read printable fromSlice body' = .error exception' ∧
          (exception.shape = exception'.shape ↔
            (SeemsToName extractor (e.toString printable) ↔
              SeemsToName extractor (e'.toString printable))) := by
  refine ⟨extractor.exception printable e, ?_, status_exception, namesMissingField_iff, ?_⟩
  · rw [JsonExtractor.read, h]
    rfl
  · intro body' e' h'
    refine ⟨extractor.exception printable e', ?_, shape_eq_iff⟩
    rw [JsonExtractor.read, h']
    rfl

/-- The printable characters of ASCII. -/
def asciiPrintable (c : Char) : Bool := 0x20 ≤ c.toNat && c.toNat < 0x7f

def emptyBody : Bytes := "\x7b\x7d".toUTF8.toList

def ageBody (age : String) : Bytes := ("\x7b\"age\":\"" ++ age ++ "\"\x7d").toUTF8.toList

/-- Some bodies read as a structure with the field `age: u32`. -/
def ageFromSlice (body : Bytes) : Except SerdeError Nat :=
  if body = emptyBody then .error ⟨.missingField "age", some (1, 2)⟩
  else if body = ageBody "ten" then .error ⟨.invalidType (.str "ten") "u32", some (1, 12)⟩
  else if body = ageBody "missing field `name`" then
    .error ⟨.invalidType (.str "missing field `name`") "u32", some (1, 29)⟩
  else .error ⟨.syntaxError "expected value", some (1, 1)⟩

theorem json_errors_age :
    ∃ exception, JsonExtractor.payload.read asciiPrintable ageFromSlice emptyBody =
        .error exception ∧
      exception.status = 400 ∧ NamesMissingField (.missingField "age") exception := by
  have hError : ageFromSlice emptyBody = .error ⟨.missingField "age", some (1, 2)⟩ := if_pos rfl
  obtain ⟨exception, hRead, hStatus, hNames, -⟩ :=
    json_errors_iff asciiPrintable ageFromSlice .payload emptyBody _ hError
  have hField : "age" ≠ "" ∧ backtick ∉ "age".toList := by decide +kernel
  exact ⟨exception, hRead, hStatus, hNames.mpr hField⟩

/-- A string of the client is taken for the name of a missing field. -/
theorem json_errors_misread :
    ∃ e e' : SerdeError, ageFromSlice (ageBody "missing field `name`") = .error e ∧
      ageFromSlice (ageBody "ten") = .error e' ∧ e.reason.SameKind e'.reason ∧
      ∀ extractor : JsonExtractor,
        ¬ NamesMissingField e.reason (extractor.exception asciiPrintable e) ∧
        (extractor.exception asciiPrintable e).shape ≠
          (extractor.exception asciiPrintable e').shape := by
  have hFirst : ageBody "missing field `name`" ≠ emptyBody ∧
      ageBody "missing field `name`" ≠ ageBody "ten" := by decide +kernel
  have hSecond : ageBody "ten" ≠ emptyBody := by decide +kernel
  refine ⟨⟨.invalidType (.str "missing field `name`") "u32", some (1, 29)⟩,
    ⟨.invalidType (.str "ten") "u32", some (1, 12)⟩, ?_, ?_, .invalidType (.str _ _) _, ?_⟩
  · rw [ageFromSlice, if_neg hFirst.1, if_neg hFirst.2, if_pos rfl]
  · rw [ageFromSlice, if_neg hSecond, if_pos rfl]
  · intro extractor
    have hNamed : extractor.exception asciiPrintable
        ⟨.invalidType (.str "missing field `name`") "u32", some (1, 29)⟩ =
          requiredField "name" := by
      cases extractor with
      | payload => decide +kernel
      | json bodyLimit =>
        have hName : missingFieldException (SerdeError.toString asciiPrintable
            ⟨.invalidType (.str "missing field `name`") "u32", some (1, 29)⟩) =
              some (requiredField "name") := by decide +kernel
        rw [JsonExtractor.exception, jsonException, hName, Option.getD_some]
    have hUnnamed : extractor.exception asciiPrintable
        ⟨.invalidType (.str "ten") "u32", some (1, 12)⟩ =
          badRequest "invalid JSON request body" := by
      cases extractor with
      | payload => decide +kernel
      | json bodyLimit =>
        have hName : missingFieldException (SerdeError.toString asciiPrintable
            ⟨.invalidType (.str "ten") "u32", some (1, 12)⟩) = none := by decide +kernel
        rw [JsonExtractor.exception, jsonException, hName, Option.getD_none]
    rw [hNamed, hUnnamed]
    refine ⟨fun hNames => ?_, by decide⟩
    obtain ⟨field, hField⟩ := hNames.entry.mp nofun
    cases hField

end Caelix
