import Mathlib.Data.List.Sort
import Mathlib.Data.List.Forall2
import Caelix.Lib.Multimap
import Caelix.Core.Exception
import Caelix.Core.Json

/-!
# Validation errors

`format_validation_errors` turns the errors of the `validator` crate, a tree over fields,
nested structs and lists of structs, into one map from paths to messages.

* `renderPath_injective`: different places of a tree have different paths.
* `format_lossless`: the map has one key for each field that has errors, with its messages.
-/

namespace Caelix

/-- `ValidationError`. -/
structure ValidationError where
  code : String
  message : Option String
  params : Table String Json

/-- `ValidationErrorsKind`. The errors of a struct are the entries of a hash map in any
order, those of a list the entries of a tree map. -/
inductive ValidationErrorsKind where
  | struct (errors : List (String × ValidationErrorsKind))
  | list (elements : List (Nat × List (String × ValidationErrorsKind)))
  | field (errors : List ValidationError)

/-- `ValidationErrors`. -/
abbrev ValidationErrors := List (String × ValidationErrorsKind)

/-! ## Messages -/

def validationParam (error : ValidationError) (name : String) : Option String :=
  match error.params.lookup name with
  | none => none
  | some (.string value) => some value
  | some .null => none
  | some value => some value.render

def formatLengthValidationError (error : ValidationError) : String :=
  match validationParam error "equal", validationParam error "min", validationParam error "max" with
  | some equal, _, _ => s!"must be exactly {equal} characters"
  | none, some min, some max => s!"must be between {min} and {max} characters"
  | none, some min, none => s!"must be at least {min} characters"
  | none, none, some max => s!"must be at most {max} characters"
  | none, none, none => "has an invalid length"

def formatValidationError (error : ValidationError) : String :=
  match error.message with
  | some message => message
  | none =>
    match error.code with
    | "email" => "must be a valid email"
    | "length" => formatLengthValidationError error
    | "required" => "is required"
    | "url" => "must be a valid URL"
    | "regex" => "has an invalid format"
    | "contains" =>
      match validationParam error "needle" with
      | some needle => s!"must contain {needle}"
      | none => "must contain the required value"
    | "does_not_contain" =>
      match validationParam error "needle" with
      | some needle => s!"must not contain {needle}"
      | none => "contains a forbidden value"
    | "must_match" =>
      match validationParam error "other" with
      | some other => s!"must match {other}"
      | none => "does not match"
    | "ip" => "must be a valid IP address"
    | "ipv4" => "must be a valid IPv4 address"
    | "ipv6" => "must be a valid IPv6 address"
    | code => s!"is invalid ({code})"

/-! ## The flattened map -/

/-- The `BTreeMap` from paths to messages. -/
abbrev FieldErrors := Table String (List String)

/-- `fields.sort_by`, on the entries of a hash map. -/
def sortByName {α : Type} (fields : List (String × α)) : List (String × α) :=
  fields.insertionSort fun left right => left.1 ≤ right.1

def fieldPath (parent field : String) : String :=
  if parent.isEmpty then field else s!"{parent}.{field}"

def indexPath (path : String) (index : Nat) : String := s!"{path}[{index}]"

/-- The loop of `collect_validation_errors` over the sorted fields. -/
def runFields (fields : List (String × (FieldErrors → FieldErrors))) (fieldErrors : FieldErrors) :
    FieldErrors :=
  (sortByName fields).foldl (fun m field => field.2 m) fieldErrors

mutual

def collectValidationErrorKind (path : String) : ValidationErrorsKind → FieldErrors → FieldErrors
  | .field errors => fun fieldErrors =>
    errors.foldl (fun m error => Multimap.push path (formatValidationError error) m) fieldErrors
  | .struct errors => runFields (collectFields path errors)
  | .list elements => collectElements path elements

/-- What the loop of `collect_validation_errors` does with each field. -/
def collectFields (parent : String) :
    List (String × ValidationErrorsKind) → List (String × (FieldErrors → FieldErrors))
  | [] => []
  | (field, kind) :: fields =>
    (field, collectValidationErrorKind (fieldPath parent field) kind) :: collectFields parent fields

/-- The loop over the elements of a list. -/
def collectElements (path : String) :
    List (Nat × List (String × ValidationErrorsKind)) → FieldErrors → FieldErrors
  | [] => fun fieldErrors => fieldErrors
  | (index, errors) :: elements => fun fieldErrors =>
    collectElements path elements (runFields (collectFields (indexPath path index) errors) fieldErrors)

end

def collectValidationErrors (parent : String) (err : ValidationErrors) :
    FieldErrors → FieldErrors :=
  runFields (collectFields parent err)

def formatValidationErrors (err : ValidationErrors) : FieldErrors :=
  collectValidationErrors "" err ∅

/-- The exception that validation errors turn into; a `BTreeMap` lists its keys in order. -/
def HttpException.fromValidationErrors (err : ValidationErrors) : HttpException :=
  { badRequest "Validation failed" with
    errors := some (sortByName ((formatValidationErrors err).entries.map fun e => (e.1, e.2))) }

theorem mem_sortByName_entries {α : Type} {m : Table String α} {key : String} {value : α} :
    (key, value) ∈ sortByName (m.entries.map fun e => (e.1, e.2)) ↔
      m.lookup key = some value := by
  unfold sortByName
  rw [(List.perm_insertionSort _ _).mem_iff, Table.lookup_eq_some_iff, List.mem_map]
  constructor
  · rintro ⟨e, he, hEq⟩
    cases hEq
    exact he
  · intro h
    exact ⟨_, h, rfl⟩

/-- The exception lists the entries of the map. -/
theorem errors_fromValidationErrors (err : ValidationErrors) :
    ∃ errors, (HttpException.fromValidationErrors err).errors = some errors ∧
      ∀ key messages, (key, messages) ∈ errors ↔
        (formatValidationErrors err).lookup key = some messages :=
  ⟨_, rfl, fun _ _ => mem_sortByName_entries⟩

/-! ## Places in a tree -/

/-- One step into a tree: a field, and an element of it if it is a list. -/
structure PathStep where
  field : String
  index : Option Nat
  deriving DecidableEq, Repr

def PathStep.text (step : PathStep) : String :=
  match step.index with
  | none => step.field
  | some index => step.field ++ "[" ++ toString index ++ "]"

/-- The names on a path joined by dots. -/
def renderPath (path : List PathStep) : String := ".".intercalate (path.map PathStep.text)

/-- The field at `path` has the errors `errors`. -/
inductive LeafAt : ValidationErrors → List PathStep → List ValidationError → Prop where
  | field {fields : ValidationErrors} {field : String} {errors : List ValidationError}
      (hField : (field, .field errors) ∈ fields) : LeafAt fields [⟨field, none⟩] errors
  | struct {fields sub : ValidationErrors} {field : String} {path : List PathStep}
      {errors : List ValidationError} (hField : (field, .struct sub) ∈ fields)
      (hLeaf : LeafAt sub path errors) : LeafAt fields (⟨field, none⟩ :: path) errors
  | list {fields sub : ValidationErrors} {elements : List (Nat × ValidationErrors)}
      {field : String} {index : Nat} {path : List PathStep} {errors : List ValidationError}
      (hField : (field, .list elements) ∈ fields) (hElement : (index, sub) ∈ elements)
      (hLeaf : LeafAt sub path errors) : LeafAt fields (⟨field, some index⟩ :: path) errors

/-- A field name that does not look like a path. -/
def PlainName (name : String) : Prop := name ≠ "" ∧ '.' ∉ name.toList ∧ '[' ∉ name.toList

mutual

/-- The maps of a tree have distinct keys and its fields plain names. -/
def ValidationErrorsKind.WellFormed : ValidationErrorsKind → Prop
  | .field _ => True
  | .struct errors => WellFormedFields errors
  | .list elements => WellFormedElements elements

def WellFormedFields : List (String × ValidationErrorsKind) → Prop
  | [] => True
  | (field, kind) :: fields =>
    PlainName field ∧ field ∉ fields.map Prod.fst ∧ kind.WellFormed ∧ WellFormedFields fields

def WellFormedElements : List (Nat × List (String × ValidationErrorsKind)) → Prop
  | [] => True
  | (index, errors) :: elements =>
    index ∉ elements.map Prod.fst ∧ WellFormedFields errors ∧ WellFormedElements elements

end

/-- The flattened map has exactly the fields with errors, each under its own path. -/
structure Lossless (err : ValidationErrors) (fieldErrors : FieldErrors) : Prop where
  leaf : ∀ path errors, LeafAt err path errors → errors ≠ [] →
    fieldErrors.lookup (renderPath path) = some (errors.map formatValidationError)
  key : ∀ key messages, fieldErrors.lookup key = some messages →
    ∃ path errors, LeafAt err path errors ∧ errors ≠ [] ∧ key = renderPath path ∧
      messages = errors.map formatValidationError
  distinct : ∀ path errors path' errors', LeafAt err path errors → LeafAt err path' errors' →
    renderPath path = renderPath path' → path = path' ∧ errors = errors'

/-! ## Paths -/

/-- The path of a step from the path of its field. -/
def stepPath (path : String) : Option Nat → String
  | none => path
  | some index => indexPath path index

/-- The path that the walk has built after some steps. -/
def pathFrom (parent : String) : List PathStep → String
  | [] => parent
  | step :: path => pathFrom (stepPath (fieldPath parent step.field) step.index) path

theorem PlainName.text_ne {step : PathStep} (h : PlainName step.field) : step.text ≠ "" := by
  unfold PathStep.text
  cases step.index with
  | none => exact h.1
  | some index => simp [String.append_eq_empty_iff]

theorem stepPath_fieldPath (parent : String) (step : PathStep) :
    stepPath (fieldPath parent step.field) step.index =
      if parent = "" then step.text else parent ++ "." ++ step.text := by
  unfold fieldPath stepPath PathStep.text
  by_cases hParent : parent = ""
  · cases step.index with
    | none => simp [hParent]
    | some index => simp [hParent, indexPath, toString, String.append_assoc]
  · cases step.index with
    | none => simp [hParent, toString]
    | some index => simp [hParent, indexPath, toString, String.append_assoc]

theorem pathFrom_of_ne {parent : String} (h : parent ≠ "") (path : List PathStep) :
    pathFrom parent path = ".".intercalate (parent :: path.map PathStep.text) := by
  induction path generalizing parent with
  | nil => rfl
  | cons step path ih =>
    have hNext : parent ++ "." ++ step.text ≠ "" := by
      simp [String.append_eq_empty_iff]
    rw [pathFrom, stepPath_fieldPath, if_neg h, ih hNext, String.intercalate_cons_append,
      List.map_cons, String.intercalate_cons_cons]

theorem pathFrom_root {path : List PathStep} (h : ∀ step ∈ path, PlainName step.field) :
    pathFrom "" path = renderPath path := by
  cases path with
  | nil => rfl
  | cons step path =>
    have hText := (h step List.mem_cons_self).text_ne
    rw [pathFrom, stepPath_fieldPath, if_pos rfl, pathFrom_of_ne hText]
    rfl

theorem toList_toString (index : Nat) : (toString index).toList = Nat.toDigits 10 index :=
  Nat.toList_repr

/-- An index is written with digits. -/
theorem notMem_toDigits {c : Char} (hc : c.isDigit = false) (index : Nat) :
    c ∉ Nat.toDigits 10 index := by
  intro hMem
  rw [Nat.isDigit_of_mem_toDigits (by decide) (by decide) hMem] at hc
  cases hc

theorem PlainName.dot_notMem {step : PathStep} (h : PlainName step.field) :
    '.' ∉ step.text.toList := by
  unfold PathStep.text
  cases step.index with
  | none => exact h.2.1
  | some index =>
    have hDigits : '.' ∉ Nat.toDigits 10 index := notMem_toDigits (by decide) index
    simp [h.2.1, hDigits]

/-- The text of a step, cut at the bracket. -/
theorem PlainName.splitOn_text {step : PathStep} (h : PlainName step.field) :
    step.text.toList.splitOn '[' = step.field.toList ::
      (step.index.map fun index => (toString index).toList ++ [']']).toList := by
  unfold PathStep.text
  cases step.index with
  | none => exact List.splitOn_eq_singleton h.2.2
  | some index =>
    have hTail : '[' ∉ (toString index).toList ++ [']'] := by
      have hDigits : '[' ∉ Nat.toDigits 10 index := notMem_toDigits (by decide) index
      simp [hDigits]
    have hText : (step.field ++ "[" ++ toString index ++ "]").toList =
        step.field.toList ++ '[' :: ((toString index).toList ++ [']']) := by simp
    rw [hText, List.splitOn_append_cons_self_of_not_mem h.2.2,
      List.splitOn_eq_singleton hTail]
    rfl

theorem text_injective {step step' : PathStep} (h : PlainName step.field)
    (h' : PlainName step'.field) (hText : step.text = step'.text) : step = step' := by
  have hSplit := h.splitOn_text
  rw [hText, h'.splitOn_text] at hSplit
  obtain ⟨hField, hIndex⟩ := List.cons.inj hSplit
  obtain ⟨field, index⟩ := step
  obtain ⟨field', index'⟩ := step'
  obtain rfl : field' = field := String.toList_inj.mp hField
  cases index with
  | none =>
    cases index' with
    | none => rfl
    | some i' => cases hIndex
  | some i =>
    cases index' with
    | none => cases hIndex
    | some i' =>
      have hDigits : (toString i').toList = (toString i).toList := by
        have hTail := List.head_eq_of_cons_eq hIndex
        exact List.append_cancel_right hTail
      rw [toList_toString, toList_toString] at hDigits
      have hEq : i' = i := by
        rw [← Nat.ofDigitChars_ten_toDigits (n := i'), hDigits, Nat.ofDigitChars_ten_toDigits]
      rw [hEq]

theorem texts_injective {path path' : List PathStep} (h : ∀ step ∈ path, PlainName step.field)
    (h' : ∀ step ∈ path', PlainName step.field)
    (hTexts : path.map PathStep.text = path'.map PathStep.text) : path = path' := by
  induction path generalizing path' with
  | nil => exact (List.map_eq_nil_iff.mp hTexts.symm).symm
  | cons step path ih =>
    cases path' with
    | nil => cases hTexts
    | cons step' path' =>
      obtain ⟨hStep, hPath⟩ := List.forall_mem_cons.mp h
      obtain ⟨hStep', hPath'⟩ := List.forall_mem_cons.mp h'
      obtain ⟨hFirst, hLater⟩ := List.cons.inj hTexts
      rw [text_injective hStep hStep' hFirst, ih hPath hPath' hLater]

/-- Paths of plain names render differently. -/
theorem renderPath_injective {path path' : List PathStep} (hne : path ≠ []) (hne' : path' ≠ [])
    (h : ∀ step ∈ path, PlainName step.field) (h' : ∀ step ∈ path', PlainName step.field)
    (hRender : renderPath path = renderPath path') : path = path' := by
  have hSplit : ∀ {path : List PathStep}, path ≠ [] → (∀ step ∈ path, PlainName step.field) →
      (renderPath path).toList.splitOn '.' = (path.map PathStep.text).map String.toList := by
    intro path hne h
    unfold renderPath
    rw [String.toList_intercalate]
    refine List.splitOn_intercalate '.' ?_ ?_
    · intro text hText
      rw [List.map_map] at hText
      obtain ⟨step, hStep, rfl⟩ := List.mem_map.mp hText
      exact (h step hStep).dot_notMem
    · simpa using hne
  have hTexts := hSplit hne h
  rw [hRender, hSplit hne' h'] at hTexts
  have hInjective : Function.Injective String.toList := fun _ _ hEq => String.toList_inj.mp hEq
  exact (texts_injective h' h (hInjective.list_map hTexts)).symm

/-! ## Leaves -/

/-- A field of a tree with its errors. -/
structure Leaf where
  path : List PathStep
  errors : List ValidationError

namespace Leaf

def messages (leaf : Leaf) : List String := leaf.errors.map formatValidationError

def under (step : PathStep) (leaf : Leaf) : Leaf := ⟨step :: leaf.path, leaf.errors⟩

end Leaf

/-- The leaves of all fields, in the order of the walk. -/
def joinLeaves (fields : List (String × List Leaf)) : List Leaf :=
  (sortByName fields).flatMap Prod.snd

mutual

def kindLeaves (field : String) : ValidationErrorsKind → List Leaf
  | .field errors => [⟨[⟨field, none⟩], errors⟩]
  | .struct errors => (joinLeaves (fieldLeaves errors)).map (Leaf.under ⟨field, none⟩)
  | .list elements => elementLeaves field elements

def fieldLeaves : List (String × ValidationErrorsKind) → List (String × List Leaf)
  | [] => []
  | (field, kind) :: fields => (field, kindLeaves field kind) :: fieldLeaves fields

def elementLeaves (field : String) :
    List (Nat × List (String × ValidationErrorsKind)) → List Leaf
  | [] => []
  | (index, errors) :: elements =>
    (joinLeaves (fieldLeaves errors)).map (Leaf.under ⟨field, some index⟩) ++
      elementLeaves field elements

end

/-- Induction over a tree: the errors of a field, the fields of a struct and the fields of
the elements of a list. -/
theorem ValidationErrorsKind.induction {P : ValidationErrorsKind → Prop}
    (field : ∀ errors, P (.field errors))
    (struct : ∀ errors : ValidationErrors, (∀ f ∈ errors, P f.2) → P (.struct errors))
    (list : ∀ elements : List (Nat × ValidationErrors),
      (∀ e ∈ elements, ∀ f ∈ e.2, P f.2) → P (.list elements)) (kind : ValidationErrorsKind) :
    P kind :=
  @ValidationErrorsKind.rec P (fun fields => ∀ f ∈ fields, P f.2)
    (fun elements => ∀ e ∈ elements, ∀ f ∈ e.2, P f.2) (fun f => P f.2)
    (fun e => ∀ f ∈ e.2, P f.2) struct list field (List.forall_mem_nil _)
    (fun _ _ hFirst hLater => List.forall_mem_cons.mpr ⟨hFirst, hLater⟩) (List.forall_mem_nil _)
    (fun _ _ hFirst hLater => List.forall_mem_cons.mpr ⟨hFirst, hLater⟩) (fun _ _ h => h)
    (fun _ _ h => h) kind

/-! ## The walk, field by field -/

/-- Fields are sorted by their names, whatever is computed from them. -/
theorem sortByName_map {α β : Type} (g : String × α → β) (fields : List (String × α)) :
    sortByName (fields.map fun f => (f.1, g f)) = (sortByName fields).map fun f => (f.1, g f) := by
  refine (List.map_insertionSort (fun left right : String × α => left.1 ≤ right.1)
    (fun left right : String × β => left.1 ≤ right.1) _ _ ?_).symm
  intro f _ f' _
  rfl

theorem collectFields_eq (parent : String) (fields : ValidationErrors) :
    collectFields parent fields =
      fields.map fun f => (f.1, collectValidationErrorKind (fieldPath parent f.1) f.2) := by
  induction fields with
  | nil => rfl
  | cons f fields ih => rw [collectFields, ih, List.map_cons]

theorem fieldLeaves_eq (fields : ValidationErrors) :
    fieldLeaves fields = fields.map fun f => (f.1, kindLeaves f.1 f.2) := by
  induction fields with
  | nil => rfl
  | cons f fields ih => rw [fieldLeaves, ih, List.map_cons]

/-- The leaves of the fields of a struct. -/
def leaves (fields : ValidationErrors) : List Leaf :=
  (sortByName fields).flatMap fun f => kindLeaves f.1 f.2

theorem joinLeaves_eq (fields : ValidationErrors) : joinLeaves (fieldLeaves fields) = leaves fields := by
  unfold joinLeaves leaves
  rw [fieldLeaves_eq, sortByName_map fun f => kindLeaves f.1 f.2, List.flatMap_map]

theorem runFields_eq (parent : String) (fields : ValidationErrors) :
    runFields (collectFields parent fields) = fun m =>
      (sortByName fields).foldl
        (fun m f => collectValidationErrorKind (fieldPath parent f.1) f.2 m) m := by
  funext m
  unfold runFields
  rw [collectFields_eq, sortByName_map fun f => collectValidationErrorKind (fieldPath parent f.1) f.2,
    List.foldl_map]

theorem kindLeaves_list (field : String) (elements : List (Nat × ValidationErrors)) :
    kindLeaves field (.list elements) = elements.flatMap fun e =>
      (leaves e.2).map (Leaf.under ⟨field, some e.1⟩) := by
  rw [kindLeaves]
  induction elements with
  | nil => rfl
  | cons e elements ih => rw [elementLeaves, ih, List.flatMap_cons, joinLeaves_eq]

theorem collectElements_eq (path : String) (elements : List (Nat × ValidationErrors)) :
    collectElements path elements = fun m =>
      elements.foldl (fun m e => runFields (collectFields (indexPath path e.1) e.2) m) m := by
  induction elements with
  | nil => rfl
  | cons e elements ih =>
    rw [collectElements, ih]
    rfl

/-! ## What the walk adds -/

/-- The messages of the leaves whose path is `key`. -/
def added (parent : String) (leaves : List Leaf) (key : String) : List String :=
  leaves.flatMap fun leaf => if pathFrom parent leaf.path = key then leaf.messages else []

theorem added_under (parent : String) (step : PathStep) (l : List Leaf) :
    added parent (l.map (Leaf.under step)) =
      added (stepPath (fieldPath parent step.field) step.index) l := by
  funext key
  unfold added
  rw [List.flatMap_map]
  rfl

theorem adds_errors (path : String) (errors : List ValidationError) :
    Multimap.Adds (collectValidationErrorKind path (.field errors)) fun key =>
      if path = key then errors.map formatValidationError else [] := by
  have hFold := Multimap.Adds.foldl (l := errors) fun error _ =>
    Multimap.Adds.push path (formatValidationError error)
  rw [collectValidationErrorKind]
  convert hFold using 2 with key
  by_cases hKey : path = key
  · simp [hKey, ← List.map_eq_flatMap]
  · simp [hKey]

theorem adds_fields {parent : String} {fields : ValidationErrors}
    (h : ∀ f ∈ fields, Multimap.Adds (collectValidationErrorKind (fieldPath parent f.1) f.2)
      (added parent (kindLeaves f.1 f.2))) :
    Multimap.Adds (runFields (collectFields parent fields)) (added parent (leaves fields)) := by
  rw [runFields_eq]
  have hSorted : ∀ f ∈ sortByName fields, Multimap.Adds
      (collectValidationErrorKind (fieldPath parent f.1) f.2) (added parent (kindLeaves f.1 f.2)) :=
    fun f hf => h f ((List.perm_insertionSort _ fields).mem_iff.mp hf)
  convert Multimap.Adds.foldl hSorted using 1
  funext key
  unfold added leaves
  rw [List.flatMap_assoc]

/-- The walk adds the messages of the leaves, each under its path. -/
theorem adds_kind (kind : ValidationErrorsKind) : ∀ parent field,
    Multimap.Adds (collectValidationErrorKind (fieldPath parent field) kind)
      (added parent (kindLeaves field kind)) := by
  induction kind using ValidationErrorsKind.induction with
  | field errors =>
    intro parent field
    convert adds_errors (fieldPath parent field) errors using 1
    funext key
    exact List.append_nil _
  | struct errors ih =>
    intro parent field
    have hAdds := adds_fields fun f hf => ih f hf (fieldPath parent field) f.1
    rw [collectValidationErrorKind, kindLeaves, joinLeaves_eq, added_under]
    exact hAdds
  | list elements ih =>
    intro parent field
    rw [collectValidationErrorKind, collectElements_eq, kindLeaves_list]
    have hAdds : ∀ e ∈ elements, Multimap.Adds
        (runFields (collectFields (indexPath (fieldPath parent field) e.1) e.2))
        (added (indexPath (fieldPath parent field) e.1) (leaves e.2)) :=
      fun e he => adds_fields fun f hf => ih e he f hf _ f.1
    convert Multimap.Adds.foldl hAdds using 1
    funext key
    unfold added
    rw [List.flatMap_assoc]
    congr 1
    funext e
    exact congrFun (added_under parent ⟨field, some e.1⟩ (leaves e.2)) key

/-! ## The leaves of a tree -/

theorem mem_leaves {fields : ValidationErrors} {leaf : Leaf} :
    leaf ∈ leaves fields ↔ ∃ f ∈ fields, leaf ∈ kindLeaves f.1 f.2 := by
  unfold leaves sortByName
  rw [List.mem_flatMap]
  simp only [(List.perm_insertionSort _ fields).mem_iff]

/-- The leaf at a place is listed. -/
theorem LeafAt.mem_leaves {err : ValidationErrors} {path : List PathStep}
    {errors : List ValidationError} (h : LeafAt err path errors) : ⟨path, errors⟩ ∈ leaves err := by
  induction h with
  | field hField =>
    refine Caelix.mem_leaves.mpr ⟨_, hField, ?_⟩
    exact List.mem_singleton.mpr rfl
  | @struct fields sub field path errors hField _ ih =>
    refine Caelix.mem_leaves.mpr ⟨_, hField, ?_⟩
    rw [kindLeaves, joinLeaves_eq]
    exact List.mem_map_of_mem (f := Leaf.under ⟨field, none⟩) ih
  | @list fields sub elements field index path errors hField hElement _ ih =>
    refine Caelix.mem_leaves.mpr ⟨_, hField, ?_⟩
    rw [kindLeaves_list]
    refine List.mem_flatMap.mpr ⟨_, hElement, ?_⟩
    exact List.mem_map_of_mem (f := Leaf.under ⟨field, some index⟩) ih

theorem leafAt_of_kindLeaves (kind : ValidationErrorsKind) :
    ∀ (fields : ValidationErrors) (field : String) (leaf : Leaf), (field, kind) ∈ fields →
      leaf ∈ kindLeaves field kind → LeafAt fields leaf.path leaf.errors := by
  induction kind using ValidationErrorsKind.induction with
  | field errors =>
    intro fields field leaf hField hLeaf
    obtain rfl := List.mem_singleton.mp hLeaf
    exact .field hField
  | struct errors ih =>
    intro fields field leaf hField hLeaf
    rw [kindLeaves, joinLeaves_eq] at hLeaf
    obtain ⟨inner, hInner, rfl⟩ := List.mem_map.mp hLeaf
    obtain ⟨f, hf, hMem⟩ := mem_leaves.mp hInner
    exact .struct hField (ih f hf errors f.1 inner hf hMem)
  | list elements ih =>
    intro fields field leaf hField hLeaf
    rw [kindLeaves_list] at hLeaf
    obtain ⟨e, he, hMap⟩ := List.mem_flatMap.mp hLeaf
    obtain ⟨inner, hInner, rfl⟩ := List.mem_map.mp hMap
    obtain ⟨f, hf, hMem⟩ := mem_leaves.mp hInner
    exact .list hField he (ih e he f hf e.2 f.1 inner hf hMem)

theorem leafAt_of_mem {fields : ValidationErrors} {leaf : Leaf} (h : leaf ∈ leaves fields) :
    LeafAt fields leaf.path leaf.errors := by
  obtain ⟨f, hf, hLeaf⟩ := mem_leaves.mp h
  exact leafAt_of_kindLeaves f.2 fields f.1 leaf hf hLeaf

/-! ## Well-formed trees -/

theorem wellFormedFields_iff {fields : ValidationErrors} :
    WellFormedFields fields ↔ (fields.map Prod.fst).Nodup ∧
      ∀ f ∈ fields, PlainName f.1 ∧ f.2.WellFormed := by
  induction fields with
  | nil => simp [WellFormedFields]
  | cons f fields ih =>
    rw [WellFormedFields, ih, List.map_cons, List.nodup_cons, List.forall_mem_cons]
    constructor
    · rintro ⟨hName, hFresh, hKind, hNodup, hAll⟩
      exact ⟨⟨hFresh, hNodup⟩, ⟨hName, hKind⟩, hAll⟩
    · rintro ⟨⟨hFresh, hNodup⟩, ⟨hName, hKind⟩, hAll⟩
      exact ⟨hName, hFresh, hKind, hNodup, hAll⟩

theorem wellFormedElements_iff {elements : List (Nat × ValidationErrors)} :
    WellFormedElements elements ↔ (elements.map Prod.fst).Nodup ∧
      ∀ e ∈ elements, WellFormedFields e.2 := by
  induction elements with
  | nil => simp [WellFormedElements]
  | cons e elements ih =>
    rw [WellFormedElements, ih, List.map_cons, List.nodup_cons, List.forall_mem_cons]
    constructor
    · rintro ⟨hFresh, hFields, hNodup, hAll⟩
      exact ⟨⟨hFresh, hNodup⟩, hFields, hAll⟩
    · rintro ⟨⟨hFresh, hNodup⟩, hFields, hAll⟩
      exact ⟨hFresh, hFields, hNodup, hAll⟩

theorem LeafAt.path_ne_nil {err : ValidationErrors} {path : List PathStep}
    {errors : List ValidationError} (h : LeafAt err path errors) : path ≠ [] := by
  cases h with
  | field hField => exact List.cons_ne_nil _ _
  | struct hField hLeaf => exact List.cons_ne_nil _ _
  | list hField hElement hLeaf => exact List.cons_ne_nil _ _

theorem LeafAt.plain {err : ValidationErrors} {path : List PathStep}
    {errors : List ValidationError} (h : LeafAt err path errors) (hErr : WellFormedFields err) :
    ∀ step ∈ path, PlainName step.field := by
  induction h with
  | field hField =>
    have hName := (wellFormedFields_iff.mp hErr).2 _ hField
    exact List.forall_mem_singleton.mpr hName.1
  | struct hField _ ih =>
    obtain ⟨hName, hKind⟩ := (wellFormedFields_iff.mp hErr).2 _ hField
    exact List.forall_mem_cons.mpr ⟨hName, ih hKind⟩
  | list hField hElement _ ih =>
    obtain ⟨hName, hKind⟩ := (wellFormedFields_iff.mp hErr).2 _ hField
    exact List.forall_mem_cons.mpr ⟨hName, ih ((wellFormedElements_iff.mp hKind).2 _ hElement)⟩

/-- Each leaf of a field starts with its name. -/
theorem head_of_kindLeaves {field : String} {kind : ValidationErrorsKind} {leaf : Leaf}
    (h : leaf ∈ kindLeaves field kind) : leaf.path.head?.map PathStep.field = some field := by
  cases kind with
  | field errors =>
    obtain rfl := List.mem_singleton.mp h
    rfl
  | struct errors =>
    obtain ⟨inner, -, rfl⟩ := List.mem_map.mp h
    rfl
  | list elements =>
    rw [kindLeaves_list] at h
    obtain ⟨e, -, hMap⟩ := List.mem_flatMap.mp h
    obtain ⟨inner, -, rfl⟩ := List.mem_map.mp hMap
    rfl

theorem nodup_under {step : PathStep} {l : List Leaf} (h : (l.map Leaf.path).Nodup) :
    ((l.map (Leaf.under step)).map Leaf.path).Nodup := by
  have hPaths : (l.map (Leaf.under step)).map Leaf.path = (l.map Leaf.path).map (step :: ·) := by
    rw [List.map_map, List.map_map]
    rfl
  rw [hPaths]
  exact h.map fun _ _ hEq => (List.cons.inj hEq).2

theorem nodup_leaves {fields : ValidationErrors} (hFields : WellFormedFields fields)
    (h : ∀ f ∈ fields, ((kindLeaves f.1 f.2).map Leaf.path).Nodup) :
    ((leaves fields).map Leaf.path).Nodup := by
  have hPerm := List.perm_insertionSort (fun left right : String × ValidationErrorsKind =>
    left.1 ≤ right.1) fields
  unfold leaves sortByName
  rw [((hPerm.flatMap_right _).map _).nodup_iff, List.map_flatMap, List.nodup_flatMap]
  refine ⟨h, ?_⟩
  have hNames := List.pairwise_map.mp (wellFormedFields_iff.mp hFields).1
  refine hNames.imp ?_
  intro f f' hne path hPath hPath'
  obtain ⟨leaf, hLeaf, rfl⟩ := List.mem_map.mp hPath
  obtain ⟨leaf', hLeaf', hEq⟩ := List.mem_map.mp hPath'
  have hHead := head_of_kindLeaves hLeaf
  rw [← hEq, head_of_kindLeaves hLeaf'] at hHead
  exact hne (Option.some.inj hHead).symm

/-- No leaf is listed twice. -/
theorem nodup_kindLeaves (kind : ValidationErrorsKind) : ∀ field, kind.WellFormed →
    ((kindLeaves field kind).map Leaf.path).Nodup := by
  induction kind using ValidationErrorsKind.induction with
  | field errors =>
    intro field _
    exact List.nodup_singleton _
  | struct errors ih =>
    intro field hKind
    rw [kindLeaves, joinLeaves_eq]
    refine nodup_under (nodup_leaves hKind ?_)
    exact fun f hf => ih f hf f.1 ((wellFormedFields_iff.mp hKind).2 f hf).2
  | list elements ih =>
    intro field hKind
    obtain ⟨hIndexes, hElements⟩ := wellFormedElements_iff.mp hKind
    rw [kindLeaves_list, List.map_flatMap, List.nodup_flatMap]
    constructor
    · intro e he
      refine nodup_under (nodup_leaves (hElements e he) ?_)
      exact fun f hf => ih e he f hf f.1 ((wellFormedFields_iff.mp (hElements e he)).2 f hf).2
    · refine (List.pairwise_map.mp hIndexes).imp ?_
      intro e e' hne path hPath hPath'
      dsimp only at hPath hPath'
      rw [List.map_map] at hPath hPath'
      obtain ⟨leaf, -, rfl⟩ := List.mem_map.mp hPath
      obtain ⟨leaf', -, hEq⟩ := List.mem_map.mp hPath'
      have hStep := (List.cons.inj hEq).1
      have hIndex : some e'.1 = some e.1 := congrArg PathStep.index hStep
      exact hne (Option.some.inj hIndex).symm

/-! ## No message is lost, added or moved -/

theorem added_nil {parent key : String} {l : List Leaf}
    (h : ∀ leaf ∈ l, pathFrom parent leaf.path ≠ key) : added parent l key = [] := by
  unfold added
  rw [List.flatMap_eq_nil_iff]
  exact fun leaf hLeaf => if_neg (h leaf hLeaf)

/-- When paths differ, what is added under the path of a leaf are its messages. -/
theorem added_of_mem {parent : String} {l : List Leaf} (hNodup : (l.map Leaf.path).Nodup)
    (hInjective : ∀ leaf ∈ l, ∀ leaf' ∈ l, pathFrom parent leaf'.path = pathFrom parent leaf.path →
      leaf'.path = leaf.path) {leaf : Leaf} (hMem : leaf ∈ l) :
    added parent l (pathFrom parent leaf.path) = leaf.messages := by
  obtain ⟨before, after, rfl⟩ := List.append_of_mem hMem
  have hDistinct : ∀ leaf' ∈ before ++ after, pathFrom parent leaf'.path ≠ pathFrom parent leaf.path := by
    intro leaf' hLeaf' hEq
    have hMem' : leaf' ∈ before ++ leaf :: after := by
      rcases List.mem_append.mp hLeaf' with h | h
      · exact List.mem_append_left _ h
      · exact List.mem_append_right _ (List.mem_cons_of_mem _ h)
    have hPath := hInjective leaf hMem leaf' hMem' hEq
    rw [List.map_append, List.map_cons, List.nodup_middle, List.nodup_cons] at hNodup
    apply hNodup.1
    rw [← hPath, ← List.map_append]
    exact List.mem_map_of_mem hLeaf'
  have hBefore : added parent before (pathFrom parent leaf.path) = [] :=
    added_nil fun leaf' h => hDistinct leaf' (List.mem_append_left _ h)
  have hAfter : added parent after (pathFrom parent leaf.path) = [] :=
    added_nil fun leaf' h => hDistinct leaf' (List.mem_append_right _ h)
  unfold added at hBefore hAfter ⊢
  rw [List.flatMap_append, List.flatMap_cons, hBefore, hAfter, if_pos rfl, List.nil_append,
    List.append_nil]

/-- Places with one path have the same errors. -/
theorem leaf_unique {l : List Leaf} (hNodup : (l.map Leaf.path).Nodup) {leaf leaf' : Leaf}
    (h : leaf ∈ l) (h' : leaf' ∈ l) (hPath : leaf.path = leaf'.path) : leaf = leaf' :=
  List.inj_on_of_nodup_map hNodup h h' hPath

/-- The flattened map of a tree whose maps have distinct keys and whose field names are
plain: one key for each field with errors, with its messages in order. -/
theorem format_lossless (err : ValidationErrors) (hErr : WellFormedFields err) :
    Lossless err (formatValidationErrors err) := by
  have hAdds : Multimap.Adds (collectValidationErrors "" err) (added "" (leaves err)) :=
    adds_fields fun f _ => adds_kind f.2 "" f.1
  have hNodup : ((leaves err).map Leaf.path).Nodup := by
    refine nodup_leaves hErr ?_
    exact fun f hf => nodup_kindLeaves f.2 f.1 ((wellFormedFields_iff.mp hErr).2 f hf).2
  have hRender : ∀ leaf ∈ leaves err, pathFrom "" leaf.path = renderPath leaf.path :=
    fun leaf hLeaf => pathFrom_root ((leafAt_of_mem hLeaf).plain hErr)
  have hInjective : ∀ leaf ∈ leaves err, ∀ leaf' ∈ leaves err,
      pathFrom "" leaf'.path = pathFrom "" leaf.path → leaf'.path = leaf.path := by
    intro leaf hLeaf leaf' hLeaf' hEq
    rw [hRender leaf hLeaf, hRender leaf' hLeaf'] at hEq
    have hAt := leafAt_of_mem hLeaf
    have hAt' := leafAt_of_mem hLeaf'
    exact renderPath_injective hAt'.path_ne_nil hAt.path_ne_nil (hAt'.plain hErr) (hAt.plain hErr) hEq
  have hMessages : ∀ leaf ∈ leaves err, added "" (leaves err) (renderPath leaf.path) = leaf.messages := by
    intro leaf hLeaf
    rw [← hRender leaf hLeaf]
    exact added_of_mem hNodup hInjective hLeaf
  constructor
  · intro path errors hLeaf hne
    apply (Multimap.lookup_run hAdds).mpr
    rw [hMessages _ hLeaf.mem_leaves]
    exact ⟨rfl, by simpa using hne⟩
  · intro key messages hLookup
    obtain ⟨rfl, hne⟩ := (Multimap.lookup_run hAdds).mp hLookup
    -- some leaf adds a message under this key
    obtain ⟨leaf, hLeaf, hKey, hSome⟩ : ∃ leaf ∈ leaves err, pathFrom "" leaf.path = key ∧
        leaf.messages ≠ [] := by
      by_contra hNone
      apply hne
      unfold added
      rw [List.flatMap_eq_nil_iff]
      intro leaf hLeaf
      by_cases hKey : pathFrom "" leaf.path = key
      · rw [if_pos hKey]
        by_contra hSome
        exact hNone ⟨leaf, hLeaf, hKey, hSome⟩
      · rw [if_neg hKey]
    rw [hRender leaf hLeaf] at hKey
    refine ⟨leaf.path, leaf.errors, leafAt_of_mem hLeaf, ?_, hKey.symm, ?_⟩
    · intro hEmpty
      exact hSome (by rw [Leaf.messages, hEmpty, List.map_nil])
    · rw [← hKey]
      exact hMessages leaf hLeaf
  · intro path errors path' errors' hLeaf hLeaf' hEq
    have hPath := renderPath_injective hLeaf.path_ne_nil hLeaf'.path_ne_nil (hLeaf.plain hErr)
      (hLeaf'.plain hErr) hEq
    have hSame := leaf_unique hNodup hLeaf.mem_leaves hLeaf'.mem_leaves hPath
    exact ⟨hPath, congrArg Leaf.errors hSame⟩

/-- A list of addresses with an error in its second element, and two messages for a name. -/
def signupErrors : ValidationErrors :=
  [("name", .field [⟨"required", none, ∅⟩, ⟨"length", some "too short", ∅⟩]),
    ("addresses", .list [(1, [("street", .field [⟨"required", none, ∅⟩])])])]

theorem format_lossless_signup :
    (formatValidationErrors signupErrors).lookup "name" = some ["is required", "too short"] ∧
      (formatValidationErrors signupErrors).lookup "addresses[1].street" = some ["is required"] := by
  have hName : ∀ name ∈ ["name", "addresses", "street"], PlainName name := by
    unfold PlainName
    decide +kernel
  have hErr : WellFormedFields signupErrors := by
    refine ⟨hName _ (by decide), by decide, trivial, hName _ (by decide), by decide, ?_, trivial⟩
    exact ⟨by decide, ⟨hName _ (by decide), by decide, trivial, trivial⟩, trivial⟩
  have hLossless := format_lossless signupErrors hErr
  constructor
  · exact hLossless.leaf [⟨"name", none⟩] _ (.field List.mem_cons_self) (List.cons_ne_nil _ _)
  · have hStreet : LeafAt signupErrors [⟨"addresses", some 1⟩, ⟨"street", none⟩]
        [⟨"required", none, ∅⟩] := by
      refine .list (List.mem_cons_of_mem _ List.mem_cons_self) List.mem_cons_self ?_
      exact .field List.mem_cons_self
    exact hLossless.leaf _ _ hStreet (List.cons_ne_nil _ _)

end Caelix
