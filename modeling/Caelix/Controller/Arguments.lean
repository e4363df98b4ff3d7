import Caelix.Lib.Routines
import Caelix.Controller.Handler

/-!
# The arguments of a controller method

What has happened to a value by the time a generated handler passes it to the method.

* `Supplied`: where the value of an extractor comes from: the context or the payload of its
  request, and for a file the field of its name in the form, whose checks it has passed.
* `Admitted`: a provided value that was validated where the argument asks for it.
* `callHandler_guards`: the method is only called with admitted values.
-/

namespace Caelix

open Interaction Proc

section Arguments

variable {V : Type}

/-- The calls of a handler and their replies. -/
abbrev RouteHistory (V : Type) := History (RouteReply (V := V))

/-- A call has been made and replied to in this way. -/
def Replied (history : RouteHistory V) (c : RouteCall V) (r : RouteReply c) : Prop :=
  (⟨c, r⟩ : Interaction.Event RouteReply) ∈ history

/-- The checks that the options of a file field ask for. -/
structure FileChecked (upload : UploadField) (file : UploadedFile) (history : RouteHistory V) :
    Prop where
  size : ∀ maxSize, upload.maxSize = some maxSize → file.size ≤ maxSize
  contentType : upload.contentTypes ≠ [] → Replied history
    (.validateContentType file upload.contentTypes upload.trustContentTypeHeader) (Except.ok ())
  validator : ∀ name, upload.validator = some name →
    Replied history (.validator name file) (Except.ok ())

/-- The fields of the form from which an argument takes the files. -/
def ExtractorArg.takes (arg : ExtractorArg) : List String :=
  match arg.extractor with
  | .file upload | .files upload => [upload.name]
  | _ => []

section Payload

variable (request : Request V) (route : Route) (payload : Option RequestPayload)

/-- The form in the body of the request. -/
def FormRead (form : MultipartForm) (history : RouteHistory V) : Prop :=
  ∃ p, payload = some p ∧ p.isMultipart = true ∧ Replied history (.parseForm
    (p.contentType.getD "") p.body (route.uploadLimit.getD request.bodyLimit)) (Except.ok form)

/-- The files of a field. An argument before, of the same field, has taken all of them. -/
def FieldFiles (taken : List String) (name : String) (files : List UploadedFile)
    (history : RouteHistory V) : Prop :=
  ((∃ p, payload = some p ∧ p.isMultipart = false) ∧ files = []) ∨
    ∃ form, FormRead request route payload form history ∧
      files = if name ∈ taken then [] else (form.fileFields.lookup name).getD []

end Payload

variable (parseEncoded : String → Option (String × String)) (request : Request V)
  (ctx : Option RequestContext) (route : Route) (payload : Option RequestPayload)

/-- Where the value of an argument comes from. -/
def Supplied (taken : List String) (arg : ExtractorArg) (value : ArgValue V)
    (history : RouteHistory V) : Prop :=
  match arg.extractor with
  | .param | .query => value = .value (request.extracted arg.name)
  | .user => ∃ v, value = .value v ∧ Replied history (.user arg.ty) (Except.ok (some v))
  | .cookie name => ∃ c, ctx = some c ∧
      if arg.ty.isOptionOf "String" then value = .optionText (c.cookie parseEncoded name)
      else ∃ s, c.cookie parseEncoded name = some s ∧ value = .text s
  | .body => ∃ v, value = .value v ∧
      ((∃ p, payload = some p ∧ p.isMultipart = false ∧
        Replied history (.json arg.ty p.body) (Except.ok v)) ∨
      ∃ form, FormRead request route payload form history ∧
        Replied history (.deserialize arg.ty form.textFields) (some v))
  | .multipart => ∃ form, value = .form form ∧ FormRead request route payload form history
  | .file upload => ∃ files, FieldFiles request route payload taken upload.name files history ∧
      (∀ file ∈ files, FileChecked upload file history) ∧
      if arg.ty.isOptionUploadedFile then ∃ file : Option UploadedFile, files = file.toList ∧
        value = .optionFile file
      else ∃ file, files = [file] ∧ value = .file file
  | .files upload => ∃ files, FieldFiles request route payload taken upload.name files history ∧
      (∀ file ∈ files, FileChecked upload file history) ∧ value = .files files

/-- A provided value, validated where the argument asks for it. -/
structure Admitted (taken : List String) (arg : ExtractorArg) (value : ArgValue V)
    (history : RouteHistory V) : Prop where
  provided : Supplied parseEncoded request ctx route payload taken arg value history
  validated : arg.needsValidation = true → Replied history (.validate value) (Except.ok ())

/-! ## Facts that stay true -/

theorem FileChecked.persists (upload : UploadField) (file : UploadedFile) :
    Persists (FileChecked (V := V) upload file) := by
  intro h h' hSub hChecked
  exact ⟨hChecked.size, fun hTypes => hSub (hChecked.contentType hTypes),
    fun name hName => hSub (hChecked.validator name hName)⟩

theorem FormRead.persists (form : MultipartForm) :
    Persists (FormRead request route payload form) := by
  rintro h h' hSub ⟨p, hPayload, hMultipart, hParsed⟩
  exact ⟨p, hPayload, hMultipart, hSub hParsed⟩

theorem FieldFiles.persists (taken : List String) (name : String) (files : List UploadedFile) :
    Persists (FieldFiles request route payload taken name files) := by
  intro h h' hSub hFiles
  refine hFiles.imp_right ?_
  rintro ⟨form, hForm, hField⟩
  exact ⟨form, FormRead.persists request route payload form _ _ hSub hForm, hField⟩

theorem provided_persists (taken : List String) (arg : ExtractorArg) (value : ArgValue V) :
    Persists (Supplied parseEncoded request ctx route payload taken arg value) := by
  intro h h' hSub hProvided
  have hForms := fun form => FormRead.persists request route payload form h h' hSub
  unfold Supplied at hProvided ⊢
  cases hExtractor : arg.extractor with
  | param => rwa [hExtractor] at hProvided
  | query => rwa [hExtractor] at hProvided
  | cookie name => rwa [hExtractor] at hProvided
  | user =>
    rw [hExtractor] at hProvided
    obtain ⟨v, hValue, hReplied⟩ := hProvided
    exact ⟨v, hValue, hSub hReplied⟩
  | body =>
    rw [hExtractor] at hProvided
    obtain ⟨v, hValue, ⟨p, hPayload, hJson, hReplied⟩ | ⟨form, hForm, hReplied⟩⟩ := hProvided
    · exact ⟨v, hValue, .inl ⟨p, hPayload, hJson, hSub hReplied⟩⟩
    · exact ⟨v, hValue, .inr ⟨form, hForms form hForm, hSub hReplied⟩⟩
  | multipart =>
    rw [hExtractor] at hProvided
    obtain ⟨form, hValue, hForm⟩ := hProvided
    exact ⟨form, hValue, hForms form hForm⟩
  | file upload | files upload =>
    rw [hExtractor] at hProvided
    obtain ⟨files, hFiles, hChecked, hValue⟩ := hProvided
    refine ⟨files, FieldFiles.persists request route payload taken _ files _ _ hSub hFiles, ?_, hValue⟩
    exact fun file hFile => FileChecked.persists upload file _ _ hSub (hChecked file hFile)

/-! ## Payloads -/

/-- An error that is an exception. -/
def IsException (e : RouteError) : Prop := ∃ x, e = .exception x

theorem ensures_orException {α : Type} (x : Except HttpException α) :
    Ensures (orException x : RouteRoutine V α) (fun history a => history = [] ∧ x = .ok a)
      IsException := by
  cases x with
  | ok a => exact ensures_pure ⟨rfl, rfl⟩
  | error e => exact ensures_throw ⟨e, rfl⟩

theorem ensures_askOr {α : Type} {c : RouteCall V} {reply : RouteReply c → Except HttpException α}
    {Q : RouteHistory V → α → Prop} (h : ∀ r a, reply r = .ok a → Q [⟨c, r⟩] a) :
    Ensures (askOr c reply) Q IsException := by
  refine Ensures.bind (Q := fun history r => history = [⟨c, r⟩]) (ensures_ask fun r => rfl) ?_
  rintro _ r rfl
  refine (ensures_orException (reply r)).mono ?_ fun e he => he
  rintro history a ⟨rfl, ha⟩
  exact h r a ha

theorem ensures_checkMaxSize (upload : UploadField) (file : UploadedFile) :
    Ensures (checkMaxSize (V := V) upload file)
      (fun _ _ => ∀ maxSize, upload.maxSize = some maxSize → file.size ≤ maxSize) IsException := by
  unfold checkMaxSize
  cases upload.maxSize with
  | none => exact ensures_pure nofun
  | some maxSize =>
    refine (ensures_orException _).mono ?_ fun e he => he
    rintro history a ⟨-, hOk⟩ _ hSome
    cases hSome
    unfold validateMaxSize at hOk
    by_cases hLarge : maxSize < file.size
    · rw [if_pos hLarge] at hOk
      cases hOk
    · exact Nat.le_of_not_lt hLarge

theorem ensures_checkContentType (upload : UploadField) (file : UploadedFile) :
    Ensures (checkContentType (V := V) upload file)
      (fun history _ => upload.contentTypes ≠ [] → Replied history (.validateContentType file
        upload.contentTypes upload.trustContentTypeHeader) (Except.ok ())) IsException := by
  unfold checkContentType
  by_cases hNone : upload.contentTypes.isEmpty = true
  · rw [if_pos hNone]
    exact ensures_pure fun hSome => absurd (List.isEmpty_iff.mp hNone) hSome
  · rw [if_neg hNone]
    refine ensures_askOr fun r a hOk _ => ?_
    exact List.mem_singleton.mpr (by rw [show r = Except.ok () from hOk])

theorem ensures_checkValidator (upload : UploadField) (file : UploadedFile) :
    Ensures (checkValidator (V := V) upload file)
      (fun history _ => ∀ name, upload.validator = some name →
        Replied history (.validator name file) (Except.ok ())) IsException := by
  unfold checkValidator
  cases upload.validator with
  | none => exact ensures_pure nofun
  | some validator =>
    refine ensures_askOr fun r a hOk _ hName => ?_
    cases hName
    exact List.mem_singleton.mpr (by rw [show r = Except.ok () from hOk])

theorem ensures_uploadValidation (upload : UploadField) (file : UploadedFile) :
    Ensures (uploadValidation (V := V) upload file)
      (fun history _ => FileChecked upload file history) IsException := by
  refine (ensures_checkMaxSize upload file).bind fun first _ hSize => ?_
  refine (ensures_checkContentType upload file).bind fun second _ hType => ?_
  refine (ensures_checkValidator upload file).mono ?_ fun e he => he
  intro third _ hValidator
  refine ⟨hSize, fun hSome => ?_, fun name hName => ?_⟩
  · exact List.mem_append_right _ (List.mem_append_left _ (hType hSome))
  · exact List.mem_append_right _ (List.mem_append_right _ (hValidator name hName))

/-- What a slot holds was provided. -/
def SlotProvided (taken : List String) (arg : ExtractorArg) (slot : Option (ArgValue V))
    (history : RouteHistory V) : Prop :=
  ∀ value, slot = some value →
    Supplied parseEncoded request ctx route payload taken arg value history

theorem slotProvided_persists (taken : List String) (arg : ExtractorArg)
    (slot : Option (ArgValue V)) :
    Persists (SlotProvided parseEncoded request ctx route payload taken arg slot) :=
  fun _ _ hSub h value hValue =>
    provided_persists parseEncoded request ctx route payload taken arg value _ _ hSub (h value hValue)

/-- The slot of an argument that is read from the payload is set. -/
def SlotSet (arg : ExtractorArg) (slot : Option (ArgValue V)) : Prop :=
  arg.extractor.isPayload = true → slot.isSome = true

theorem ensures_files (upload : UploadField) (files : List UploadedFile) :
    Ensures (files.forM (uploadValidation (V := V) upload))
      (fun history _ => ∀ file ∈ files, FileChecked upload file history) IsException :=
  ensures_forM (fun file => FileChecked.persists upload file) files
    fun file _ => ensures_uploadValidation upload file

/-- What is left of a form whose fields `taken` have been taken. -/
structure Remaining (form : MultipartForm) (taken : List String) (rest : MultipartForm) : Prop where
  text : rest.textFields = form.textFields
  files : ∀ name, rest.fileFields.lookup name =
    if name ∈ taken then none else form.fileFields.lookup name

theorem Remaining.refl (form : MultipartForm) : Remaining form [] form :=
  ⟨rfl, fun _ => (if_neg List.not_mem_nil).symm⟩

theorem lookup_removeFiles (name other : String) (form : MultipartForm) :
    (form.removeFiles name).fileFields.lookup other =
      if other = name then none else form.fileFields.lookup other := by
  unfold MultipartForm.removeFiles
  dsimp only
  induction form.fileFields with
  | nil => simp
  | cons entry entries ih =>
    obtain ⟨key, files⟩ := entry
    by_cases hKey : key = name
    · subst hKey
      rw [List.filter_cons_of_neg (by simp), ih, List.lookup_cons]
      by_cases hOther : other = key
      · rw [if_pos hOther, if_pos hOther]
      · rw [if_neg hOther, if_neg hOther, beq_false_of_ne hOther]
    · rw [List.filter_cons_of_pos (by simpa using hKey), List.lookup_cons, List.lookup_cons, ih]
      by_cases hOther : other = key
      · subst hOther
        simp [hKey]
      · simp [beq_false_of_ne hOther]

/-- The field is gone when its files have been taken. -/
theorem Remaining.remove {form rest : MultipartForm} {taken : List String}
    (h : Remaining form taken rest) (name : String) :
    Remaining form (taken ++ [name]) (rest.removeFiles name) := by
  refine ⟨h.text, fun other => ?_⟩
  rw [lookup_removeFiles, h.files]
  by_cases hSame : other = name
  · rw [if_pos hSame, if_pos (by simp [hSame])]
  · simp [hSame]

theorem Remaining.absent {form rest : MultipartForm} {taken : List String}
    (h : Remaining form taken rest) {name : String} (hNone : rest.fileFields.lookup name = none) :
    Remaining form (taken ++ [name]) rest := by
  refine ⟨h.text, fun other => ?_⟩
  by_cases hSame : other = name
  · rw [hSame, hNone, if_pos (by simp)]
  · rw [h.files]
    simp [hSame]

theorem Remaining.takeFile {form rest : MultipartForm} {taken : List String}
    (h : Remaining form taken rest) (name : String) :
    Remaining form (taken ++ [name]) (rest.takeFile name).2 := by
  unfold MultipartForm.takeFile
  cases hLookup : rest.fileFields.lookup name with
  | none => exact h.absent hLookup
  | some files =>
    match files with
    | [] => exact h.remove name
    | [_] => exact h.remove name
    | _ :: _ :: _ => exact h.remove name

/-- The file that is taken is the only one of its field. -/
theorem takeFile_ok {name : String} {form : MultipartForm} {file : Option UploadedFile}
    (h : (form.takeFile name).1 = .ok file) : (form.fileFields.lookup name).getD [] = file.toList := by
  unfold MultipartForm.takeFile at h
  cases hLookup : form.fileFields.lookup name with
  | none =>
    rw [hLookup] at h
    cases h
    rfl
  | some files =>
    rw [hLookup] at h
    match files, h with
    | [_], h =>
      cases h
      rfl

theorem Remaining.field {form rest : MultipartForm} {taken : List String}
    (h : Remaining form taken rest) (name : String) :
    (rest.fileFields.lookup name).getD [] =
      if name ∈ taken then [] else (form.fileFields.lookup name).getD [] := by
  rw [h.files]
  split_ifs <;> rfl

/-- The fields that have been taken after an argument. -/
def takenAfter (taken : List String) (arg : ExtractorArg) : List String := taken ++ arg.takes

/-- What the slots of some arguments hold was provided. -/
def SlotsProvided (taken : List String) (args : List ExtractorArg) (slots : Slots V)
    (history : RouteHistory V) : Prop :=
  Threaded takenAfter (fun taken arg slot =>
    SlotProvided parseEncoded request ctx route payload taken arg slot history) taken args slots

section Form

variable {form : MultipartForm} {parsed : RouteHistory V}
  (hForm : FormRead request route payload form parsed)

include hForm

/-- The files of a field, when they are taken from what is left of the form. -/
theorem fieldFiles_of_remaining {rest : MultipartForm} {taken : List String} {name : String}
    {files : List UploadedFile} (h : Remaining form taken rest)
    (hFiles : (rest.fileFields.lookup name).getD [] = files) (history : RouteHistory V) :
    FieldFiles request route payload taken name files (parsed ++ history) := by
  refine .inr ⟨form, ?_, ?_⟩
  · exact FormRead.persists request route payload form _ _ (List.subset_append_left ..) hForm
  · rw [← hFiles, h.field]

theorem ensures_multipartAssignment (arg : ExtractorArg) {rest : MultipartForm} {taken : List String}
    (hRest : Remaining form taken rest) :
    Ensures (multipartAssignment (V := V) arg rest)
      (fun history r =>
        SlotProvided parseEncoded request ctx route payload taken arg r.1 (parsed ++ history) ∧
        Remaining form (takenAfter taken arg) r.2 ∧
        (arg.extractor.isMultipart = false → SlotSet arg r.1)) IsException := by
  have hSame : Remaining form (taken ++ []) rest := (List.append_nil taken).symm ▸ hRest
  unfold multipartAssignment SlotProvided SlotSet Supplied takenAfter ExtractorArg.takes
  cases hExtractor : arg.extractor with
  | param | query | user | cookie name | multipart => exact ensures_pure ⟨nofun, hSame, nofun⟩
  | body =>
    refine Ensures.bind (Q := fun history v =>
      Replied history (.deserialize arg.ty form.textFields) (some v)) (ensures_askOr ?_) ?_
    · intro r v hOk
      cases r with
      | none => cases hOk
      | some v' =>
        cases hOk
        rw [hRest.text]
        exact List.mem_singleton_self _
    · intro before v hReplied
      refine ensures_pure ⟨?_, hSame, fun _ _ => rfl⟩
      rintro value hValue
      cases hValue
      refine ⟨v, rfl, .inr ⟨form, ?_, ?_⟩⟩
      · exact FormRead.persists request route payload form _ _ (List.subset_append_left ..) hForm
      · exact List.mem_append_right _ (List.mem_append_left _ hReplied)
  | file upload =>
    refine (ensures_orException _).bind fun before file ⟨_, hTaken⟩ => ?_
    have hField := takeFile_ok hTaken
    have hLeft := hRest.takeFile upload.name
    by_cases hOption : arg.ty.isOptionUploadedFile = true
    · simp only [hOption, if_true]
      refine (ensures_files upload _).bind fun checks _ hChecked => ensures_pure ?_
      refine ⟨?_, hLeft, fun _ _ => rfl⟩
      rintro value hValue
      cases hValue
      refine ⟨file.toList, fieldFiles_of_remaining request route payload hForm hRest hField _,
        fun one hOne => ?_, file, rfl, rfl⟩
      exact FileChecked.persists upload one _ _ (by simp) (hChecked one hOne)
    · rw [Bool.not_eq_true] at hOption
      simp only [hOption, Bool.false_eq_true, if_false]
      cases file with
      | none => exact ensures_throw ⟨_, rfl⟩
      | some file =>
        refine (ensures_uploadValidation upload file).bind fun checks _ hChecked => ensures_pure ?_
        refine ⟨?_, hLeft, fun _ _ => rfl⟩
        rintro value hValue
        cases hValue
        refine ⟨[file], fieldFiles_of_remaining request route payload hForm hRest hField _,
          fun one hOne => ?_, file, rfl, rfl⟩
        rw [List.mem_singleton.mp hOne]
        exact FileChecked.persists upload file _ _ (by simp) hChecked
  | files upload =>
    refine (ensures_files upload _).bind fun checks _ hChecked => ensures_pure ?_
    refine ⟨?_, hRest.remove upload.name, fun _ _ => rfl⟩
    rintro value hValue
    cases hValue
    refine ⟨_, fieldFiles_of_remaining request route payload hForm hRest rfl _, fun one hOne => ?_, rfl⟩
    exact FileChecked.persists upload one _ _ (by simp) (hChecked one hOne)

theorem ensures_multipartAssignments (args : List ExtractorArg) {rest : MultipartForm}
    {taken : List String} (hRest : Remaining form taken rest) :
    Ensures (multipartAssignments (V := V) args rest)
      (fun history slots => SlotsProvided parseEncoded request ctx route payload taken args slots
          (parsed ++ history) ∧
        ((∀ arg ∈ args, arg.extractor.isMultipart = false) → List.Forall₂ SlotSet args slots))
      IsException := by
  induction args generalizing rest taken parsed with
  | nil => exact ensures_pure ⟨.nil taken, fun _ => .nil⟩
  | cons arg args ih =>
    refine (ensures_multipartAssignment parseEncoded request ctx route payload hForm arg hRest).bind ?_
    rintro before ⟨slot, left⟩ ⟨hProvided, hLeft, hSet⟩
    have hFormNow := FormRead.persists request route payload form _ _
      (List.subset_append_left parsed before) hForm
    refine (ih hFormNow hLeft).bind fun later slots hSlots =>
      ensures_pure ⟨.cons ?_ ?_, fun hOther => ?_⟩
    · exact slotProvided_persists parseEncoded request ctx route payload taken arg slot _ _ (by simp)
        hProvided
    · rw [List.append_nil, ← List.append_assoc]
      exact hSlots.1
    · obtain ⟨hFirst, hOther⟩ := List.forall_mem_cons.mp hOther
      exact .cons (hSet hFirst) (hSlots.2 hOther)

end Form

theorem ensures_jsonAssignment {p : RequestPayload} (hPayload : payload = some p)
    (hJson : p.isMultipart = false) (arg : ExtractorArg) :
    Ensures (jsonAssignment (V := V) p.body arg)
      (fun history slot => ∀ taken,
        SlotProvided parseEncoded request ctx route payload taken arg slot history) IsException := by
  unfold jsonAssignment SlotProvided Supplied
  cases hExtractor : arg.extractor with
  | param | query | user | cookie name | multipart | files upload => exact ensures_pure nofun
  | body =>
    refine Ensures.bind (Q := fun history v => Replied history (.json arg.ty p.body) (Except.ok v))
      (ensures_askOr ?_) ?_
    · intro r v hOk
      cases r with
      | error message => cases hOk
      | ok v' =>
        cases hOk
        exact List.mem_singleton_self _
    · intro before v hReplied
      refine ensures_pure fun taken value hValue => ?_
      cases hValue
      exact ⟨v, rfl, .inl ⟨p, hPayload, hJson, List.mem_append_left _ hReplied⟩⟩
  | file upload =>
    refine ensures_pure ?_
    by_cases hOption : arg.ty.isOptionUploadedFile = true
    · simp only [hOption, if_true]
      intro taken value hValue
      cases hValue
      exact ⟨[], .inl ⟨⟨p, hPayload, hJson⟩, rfl⟩, nofun, none, rfl, rfl⟩
    · rw [if_neg hOption]
      exact fun _ => nofun

theorem ensures_jsonAssignment_set (body : Bytes) (arg : ExtractorArg)
    (hForce : arg.forcesMultipart = false) :
    Ensures (jsonAssignment (V := V) body arg) (fun _ slot => SlotSet arg slot)
      IsException := by
  unfold ExtractorArg.forcesMultipart at hForce
  unfold jsonAssignment SlotSet
  cases hExtractor : arg.extractor with
  | param => exact ensures_pure nofun
  | query => exact ensures_pure nofun
  | user => exact ensures_pure nofun
  | cookie name => exact ensures_pure nofun
  | multipart =>
    rw [hExtractor] at hForce
    cases hForce
  | files upload =>
    rw [hExtractor] at hForce
    cases hForce
  | body =>
    refine Ensures.bind (Q := fun _ _ => True) (ensures_askOr fun _ _ _ => trivial) ?_
    exact fun _ _ _ => ensures_pure fun _ => rfl
  | file upload =>
    rw [hExtractor] at hForce
    dsimp only at hForce
    rw [Bool.not_eq_false'] at hForce
    rw [hForce]
    exact ensures_pure fun _ => rfl

theorem directAssignment_provided {form : MultipartForm} {history : RouteHistory V}
    (h : FormRead request route payload form history) (args : List ExtractorArg)
    (taken : List String) :
    SlotsProvided parseEncoded request ctx route payload taken args (directAssignment form args)
      history := by
  induction args generalizing taken with
  | nil => exact .nil taken
  | cons arg args ih =>
    unfold directAssignment
    by_cases hMultipart : arg.extractor.isMultipart = true
    · rw [if_pos hMultipart]
      refine .cons (fun value hValue => ?_) (.of_forall₂ ?_ _)
      · cases hValue
        cases hExtractor : arg.extractor with
        | multipart =>
          unfold Supplied
          rw [hExtractor]
          exact ⟨form, rfl, h⟩
        | _ =>
          rw [hExtractor] at hMultipart
          cases hMultipart
      · rw [List.forall₂_map_right_iff]
        exact List.forall₂_same.mpr fun _ _ _ _ hNone => nomatch hNone
    · rw [if_neg hMultipart]
      exact .cons (fun _ hNone => nomatch hNone) (ih _)

/-- The form is given to one argument. -/
theorem directAssignment_set (form : MultipartForm) {args : List ExtractorArg}
    (hOther : ∀ arg ∈ args, arg.extractor.isPayload = true → arg.extractor.isMultipart = true)
    (hOne : args.countP (fun arg => arg.extractor.isMultipart) ≤ 1) :
    List.Forall₂ (SlotSet (V := V)) args (directAssignment form args) := by
  induction args with
  | nil => exact .nil
  | cons arg args ih =>
    obtain ⟨hFirst, hOther⟩ := List.forall_mem_cons.mp hOther
    unfold directAssignment
    by_cases hMultipart : arg.extractor.isMultipart = true
    · rw [if_pos hMultipart]
      simp only [List.countP_cons, hMultipart, if_true] at hOne
      refine .cons (fun _ => rfl) ?_
      rw [List.forall₂_map_right_iff]
      refine List.forall₂_same.mpr fun other hMem hPayload => ?_
      have hNone := List.countP_eq_zero.mp (Nat.le_zero.mp (Nat.le_of_succ_le_succ hOne)) other hMem
      exact absurd (hOther other hMem hPayload) hNone
    · rw [if_neg hMultipart]
      simp only [List.countP_cons, hMultipart] at hOne
      exact .cons (fun hPayload => absurd (hFirst hPayload) hMultipart) (ih hOther hOne)

/-- With a second argument for it, a slot is left unset. -/
theorem forms_of_directAssignment {form : MultipartForm} {args : List ExtractorArg}
    (h : List.Forall₂ (SlotSet (V := V)) args (directAssignment form args)) :
    args.countP (fun arg => arg.extractor.isMultipart) ≤ 1 := by
  induction args with
  | nil => exact Nat.zero_le 1
  | cons arg args ih =>
    unfold directAssignment at h
    by_cases hMultipart : arg.extractor.isMultipart = true
    · rw [if_pos hMultipart] at h
      obtain ⟨-, hRest⟩ := List.forall₂_cons.mp h
      have hNone : args.countP (fun arg => arg.extractor.isMultipart) = 0 := by
        refine List.countP_eq_zero.mpr fun other hMem hOther => ?_
        have hSet := List.forall₂_same.mp (List.forall₂_map_right_iff.mp hRest) other hMem
        have hPayload : other.extractor.isPayload = true := by simp [Extractor.isPayload, hOther]
        exact absurd (hSet hPayload) Bool.false_ne_true
      simp [hMultipart, hNone]
    · rw [if_neg hMultipart] at h
      simpa [hMultipart] using ih (List.forall₂_cons.mp h).2

theorem ensures_parseMultipart {p : RequestPayload} (hPayload : payload = some p)
    (hType : p.isMultipart = true) :
    Ensures (parseMultipart route request p)
      (fun history form => FormRead request route payload form history) IsException := by
  refine ensures_askOr fun r form hOk => ⟨p, hPayload, hType, ?_⟩
  exact List.mem_singleton.mpr (by rw [show r = Except.ok form from hOk])

theorem ensures_payloadSlots {p : RequestPayload} (hPayload : payload = some p) :
    Ensures (payloadSlots route request p)
      (fun history slots =>
        SlotsProvided parseEncoded request ctx route payload [] route.extractors slots history ∧
        (route.Accepted → route.forms ≤ 1 → List.Forall₂ SlotSet route.extractors slots) ∧
        (List.Forall₂ SlotSet route.extractors slots → route.forms ≤ 1))
      IsException := by
  unfold payloadSlots
  by_cases hAny : (route.extractors.any fun arg => arg.extractor.isMultipart) = true
  · simp only [hAny, if_true]
    by_cases hType : p.isMultipart = true
    · simp only [hType, if_true]
      refine (ensures_parseMultipart request route payload hPayload hType).bind
        fun before form hForm => ?_
      refine ensures_pure ⟨?_, fun hAccepted hOne => directAssignment_set form ?_ hOne,
        forms_of_directAssignment⟩
      · rw [List.append_nil]
        exact directAssignment_provided parseEncoded request ctx route payload hForm route.extractors []
      · intro arg hMem hArg
        obtain ⟨other, hOther, hMultipart⟩ := List.any_eq_true.mp hAny
        obtain ⟨hBody, hFile⟩ := hAccepted.multipart ⟨other, hOther, hMultipart⟩ arg hMem
        simpa [Extractor.isPayload, hBody, hFile] using hArg
    · simp only [hType]
      exact ensures_throw ⟨_, rfl⟩
  · have hNone : ∀ arg ∈ route.extractors, arg.extractor.isMultipart = false := by
      simpa using hAny
    have hForms : route.forms ≤ 1 := by
      have hZero : route.forms = 0 := List.countP_eq_zero.mpr (by simpa using hNone)
      omega
    simp only [hAny]
    by_cases hType : p.isMultipart = true
    · simp only [hType, if_true]
      refine (ensures_parseMultipart request route payload hPayload hType).bind
        fun before form hForm => ?_
      refine (ensures_multipartAssignments parseEncoded request ctx route payload hForm route.extractors
        (.refl form)).mono ?_ fun e he => he
      exact fun later slots ⟨hProvided, hSet⟩ => ⟨hProvided, fun _ _ => hSet hNone, fun _ => hForms⟩
    · simp only [hType]
      by_cases hRefused : (route.forceMultipart || !p.isJsonOrMissingContentType) = true
      · simp only [hRefused]
        exact ensures_throw ⟨_, rfl⟩
      · simp only [hRefused]
        rw [Bool.not_eq_true] at hType
        rw [Bool.or_eq_true, not_or, Bool.not_eq_true] at hRefused
        have hForce : ∀ arg ∈ route.extractors, arg.forcesMultipart = false := by
          simpa [Route.forceMultipart] using hRefused.1
        have hProvided := ensures_mapM (E := IsException)
          (fun arg slot h h' hSub hAll taken => slotProvided_persists parseEncoded request ctx route
            payload taken arg slot h h' hSub (hAll taken))
          route.extractors
          fun arg _ => ensures_jsonAssignment parseEncoded request ctx route payload hPayload hType arg
        have hSet := ensures_mapM (E := IsException) (R := fun arg slot _ => SlotSet (V := V) arg slot)
          (fun _ _ _ _ _ h => h) route.extractors
          fun arg hMem => ensures_jsonAssignment_set p.body arg (hForce arg hMem)
        refine (hProvided.and (hSet.mono (fun _ _ h => h) fun _ _ => trivial)).mono ?_ fun e he => he
        exact fun history slots h => ⟨.of_forall₂ h.1 [], fun _ _ => h.2, fun _ => hForms⟩

theorem ensures_payloadSetup {p : RequestPayload} (hPayload : payload = some p) :
    Ensures (payloadSetup route request p)
      (fun history slots =>
        SlotsProvided parseEncoded request ctx route payload [] route.extractors slots history ∧
        List.Forall₂ SlotSet route.extractors slots ∧ route.forms ≤ 1)
      fun e => route.Accepted → route.forms ≤ 1 → IsException e := by
  refine Ensures.bind ((ensures_payloadSlots parseEncoded request ctx route payload hPayload).mono
    (fun _ _ h => h) fun e he _ _ => he) ?_
  rintro before slots ⟨hProvided, hSet, hForms⟩
  by_cases hAll : ((route.extractors.zip slots).all fun p =>
      !p.1.extractor.isPayload || p.2.isSome) = true
  · simp only [hAll, if_true]
    have hSlots : List.Forall₂ SlotSet route.extractors slots := by
      refine List.forall₂_iff_zip.mpr ⟨hProvided.length_eq, fun hMem hPayload => ?_⟩
      have hSlot := List.all_eq_true.mp hAll _ hMem
      simpa [hPayload] using hSlot
    exact ensures_pure ⟨by rwa [List.append_nil], hSlots, hForms hSlots⟩
  · simp only [hAll]
    refine ensures_throw fun hAccepted hOne => absurd ?_ hAll
    refine List.all_eq_true.mpr fun ⟨arg, slot⟩ hMem => ?_
    have hSlot : SlotSet arg slot := (List.forall₂_iff_zip.mp (hSet hAccepted hOne)).2 hMem
    cases hPayload : arg.extractor.isPayload with
    | false => rfl
    | true => simpa using hSlot hPayload

/-- The slots with which the arguments are extracted. -/
theorem ensures_handlerSlots (hPayload : payload.isSome = route.hasPayload) :
    Ensures (handlerSlots route request payload)
      (fun history slots =>
        SlotsProvided parseEncoded request ctx route payload [] route.extractors slots history ∧
        List.Forall₂ SlotSet route.extractors slots ∧ route.forms ≤ 1)
      fun e => route.Accepted → route.forms ≤ 1 → IsException e := by
  cases payload with
  | some p => exact ensures_payloadSetup parseEncoded request ctx route (some p) rfl
  | none =>
    -- no argument is read from the payload
    have hOther : ∀ arg ∈ route.extractors, ¬arg.extractor.isPayload = true := by
      intro arg hMem hArg
      have hAny : route.hasPayload = true := List.any_eq_true.mpr ⟨arg, hMem, hArg⟩
      rw [hAny] at hPayload
      cases hPayload
    refine ensures_pure ⟨.of_forall₂ ?_ [], ?_, ?_⟩
    · refine List.forall₂_map_right_iff.mpr (List.forall₂_same.mpr ?_)
      exact fun _ _ _ _ hNone => nomatch hNone
    · refine List.forall₂_map_right_iff.mpr (List.forall₂_same.mpr fun arg hMem hArg => ?_)
      exact absurd hArg (hOther arg hMem)
    · have hZero : route.forms = 0 := by
        refine List.countP_eq_zero.mpr fun arg hMem hArg => hOther arg hMem ?_
        simp [Extractor.isPayload, hArg]
      omega

/-! ## Arguments -/

/-- What makes the extraction of an argument panic does not hold. -/
def Extractable (arg : ExtractorArg) (slot : Option (ArgValue V)) : Prop :=
  SlotSet arg slot ∧ (arg.readsContext = true → ctx.isSome = true)

/-- A value is provided when what its slot holds is. -/
def ProvidedFrom (arg : ExtractorArg) (slot : Option (ArgValue V)) (value : ArgValue V)
    (history : RouteHistory V) : Prop :=
  ∀ taken before, SlotProvided parseEncoded request ctx route payload taken arg slot before →
    Supplied parseEncoded request ctx route payload taken arg value (before ++ history)

theorem ensures_extractArg (arg : ExtractorArg) (slot : Option (ArgValue V)) :
    Ensures (extractArg parseEncoded request ctx arg slot)
      (fun history value => ProvidedFrom parseEncoded request ctx route payload arg slot value history)
      fun e => Extractable ctx arg slot → IsException e := by
  -- a payload argument has what its slot holds
  have hFromSlot : ∀ {value}, slot = some value →
      ProvidedFrom parseEncoded request ctx route payload arg slot value [] := by
    intro value hValue taken before hSlot
    rw [List.append_nil]
    exact hSlot value hValue
  unfold extractArg
  cases hExtractor : arg.extractor with
  | param | query =>
    refine ensures_pure fun taken before _ => ?_
    unfold Supplied
    rw [hExtractor]
  | user =>
    cases hCtx : ctx with
    | none =>
      refine ensures_throw fun hCan => ?_
      have hSome := hCan.2 (by rw [ExtractorArg.readsContext, hExtractor])
      cases hSome
    | some c =>
      refine Ensures.bind (Q := fun history v =>
        Replied history (.user arg.ty) (Except.ok (some v))) ?_ ?_
      · refine (ensures_askOr ?_).mono (fun _ _ h => h) fun e he _ => he
        intro r v hOk
        cases r with
        | error e => cases hOk
        | ok found =>
          cases found with
          | none => cases hOk
          | some v' =>
            cases hOk
            exact List.mem_singleton_self _
      · intro history v hReplied
        refine ensures_pure fun taken before _ => ?_
        unfold Supplied
        rw [hExtractor]
        exact ⟨v, rfl, List.mem_append_right _ (List.mem_append_left _ hReplied)⟩
  | cookie name =>
    cases hCtx : ctx with
    | none =>
      refine ensures_throw fun hCan => ?_
      have hSome := hCan.2 (by rw [ExtractorArg.readsContext, hExtractor])
      cases hSome
    | some c =>
      show Ensures (if arg.ty.isOptionOf "String" then _ else _) _ _
      unfold ProvidedFrom Supplied
      rw [hExtractor]
      by_cases hOption : arg.ty.isOptionOf "String" = true
      · simp only [hOption, if_true]
        exact ensures_pure fun _ _ _ => ⟨c, rfl, rfl⟩
      · simp only [hOption]
        cases hCookie : c.cookie parseEncoded name with
        | none => exact ensures_throw fun _ => ⟨_, rfl⟩
        | some value => exact ensures_pure fun _ _ _ => ⟨c, rfl, value, hCookie, rfl⟩
  | body | multipart | file upload | files upload =>
    cases hSome : slot with
    | none => exact ensures_throw fun hCan => nomatch hCan.1 (by rw [hExtractor]; rfl)
    | some value =>
      rw [hSome] at hFromSlot
      exact ensures_pure (hFromSlot rfl)

/-- An argument is admitted when what its slot holds is provided. -/
def AdmittedFrom (arg : ExtractorArg) (slot : Option (ArgValue V)) (value : ArgValue V)
    (history : RouteHistory V) : Prop :=
  ∀ taken before, SlotProvided parseEncoded request ctx route payload taken arg slot before →
    Admitted parseEncoded request ctx route payload taken arg value (before ++ history)

theorem ensures_callArg (arg : ExtractorArg) (slot : Option (ArgValue V)) :
    Ensures (callArg parseEncoded request ctx (arg, slot))
      (fun history value => AdmittedFrom parseEncoded request ctx route payload arg slot value history)
      fun e => Extractable ctx arg slot → IsException e := by
  refine (ensures_extractArg parseEncoded request ctx route payload arg slot).bind ?_
  intro history value hProvided
  by_cases hValidate : arg.needsValidation = true
  · simp only [hValidate, if_true]
    refine (ensures_askOr ?_).mono (fun _ _ h => h) fun e he _ => he
    intro r a hOk
    obtain ⟨u, hChecked, rfl⟩ := Fallible.map_ok_iff.mp hOk
    refine fun taken before hSlot => ⟨?_, fun _ => ?_⟩
    · refine provided_persists parseEncoded request ctx route payload taken arg value _ _ ?_
        (hProvided taken before hSlot)
      rw [← List.append_assoc]
      exact List.subset_append_left _ _
    · exact List.mem_append_right _ (List.mem_append_right _
        (List.mem_singleton.mpr (by rw [show r = Except.ok () from hChecked])))
  · simp only [hValidate]
    refine ensures_pure fun taken before hSlot => ⟨?_, fun hNeeds => absurd hNeeds hValidate⟩
    rw [List.append_nil]
    exact hProvided taken before hSlot

theorem admitted_persists (taken : List String) (arg : ExtractorArg) (value : ArgValue V) :
    Persists (Admitted parseEncoded request ctx route payload taken arg value) := by
  intro h h' hSub hAdmitted
  exact ⟨provided_persists parseEncoded request ctx route payload taken arg value _ _ hSub
    hAdmitted.provided, fun hNeeds => hSub (hAdmitted.validated hNeeds)⟩

theorem admittedFrom_persists (p : ExtractorArg × Option (ArgValue V)) (value : ArgValue V) :
    Persists (AdmittedFrom parseEncoded request ctx route payload p.1 p.2 value) := by
  intro h h' hSub hFrom taken before hSlot
  refine admitted_persists parseEncoded request ctx route payload taken p.1 value _ _ ?_
    (hFrom taken before hSlot)
  exact List.append_subset.mpr ⟨List.subset_append_left _ _, fun e he =>
    List.mem_append_right _ (hSub he)⟩

/-- The values of all arguments of a method are admitted. -/
def AllAdmitted (values : List (ArgValue V)) (history : RouteHistory V) : Prop :=
  Threaded takenAfter (fun taken arg value =>
    Admitted parseEncoded request ctx route payload taken arg value history) [] route.extractors values

theorem ensures_callArgs {slots : Slots V} {before : RouteHistory V}
    (hProvided : SlotsProvided parseEncoded request ctx route payload [] route.extractors slots before) :
    Ensures ((route.extractors.zip slots).mapM (callArg parseEncoded request ctx))
      (fun history values =>
        AllAdmitted parseEncoded request ctx route payload values (before ++ history))
      fun e => List.Forall₂ (Extractable ctx) route.extractors slots → IsException e := by
  have hArgs : Ensures ((route.extractors.zip slots).mapM (callArg parseEncoded request ctx))
      (fun history values => List.Forall₂ (fun p value =>
        AdmittedFrom parseEncoded request ctx route payload p.1 p.2 value history)
        (route.extractors.zip slots) values)
      fun e => List.Forall₂ (Extractable ctx) route.extractors slots → IsException e := by
    refine ensures_mapM (admittedFrom_persists parseEncoded request ctx route payload) _ ?_
    rintro ⟨arg, slot⟩ hMem
    refine (ensures_callArg parseEncoded request ctx route payload arg slot).mono (fun _ _ h => h) ?_
    exact fun e he hAll => he ((List.forall₂_iff_zip.mp hAll).2 hMem)
  refine hArgs.mono (fun history values hAll => ?_) fun e he => he
  exact hProvided.zip hAll fun taken arg slot value hSlot hFrom => hFrom taken before hSlot

/-! ## The method -/

/-- The calls that mark how far a request has come. -/
def isStage : RouteCall V → Bool
  | .check _ _ _ _ => true
  | .canActivate _ _ => true
  | .readBody => true
  | .intercept _ _ => true
  | .resume _ _ => true
  | .handler _ _ => true
  | _ => false

/-- A routine without stages. -/
def Inner {α : Type} (x : RouteRoutine V α) : Prop := x.run.Guards fun _ c => isStage c = false

theorem Inner.guards {α : Type} {x : RouteRoutine V α} (h : Inner x) {before : RouteHistory V}
    (hBefore : ∀ e ∈ before, isStage e.1 = false) (P : RouteHistory V → RouteCall V → Prop) :
    x.run.Guards fun history c => (∀ e ∈ before ++ history, isStage e.1 = false) ∧
      (isStage c = true → P (before ++ history) c) := by
  refine guards_mono (guards_calls h) fun history c ⟨hHistory, hOther⟩ => ⟨?_, fun hStage => ?_⟩
  · exact List.forall_mem_append.mpr ⟨hBefore, hHistory⟩
  · rw [hStage] at hOther
    cases hOther

theorem inner_orException {α : Type} (x : Except HttpException α) :
    Inner (orException x : RouteRoutine V α) := by
  cases x <;> trivial

theorem guards_askOr {α : Type} {c : RouteCall V} {reply : RouteReply c → Except HttpException α}
    {P : RouteHistory V → RouteCall V → Prop} (h : P [] c) : (askOr c reply).run.Guards P := by
  refine ⟨h, fun r => ?_⟩
  show (orException (reply r)).run.Guards _
  cases reply r <;> trivial

theorem inner_uploadValidation (upload : UploadField) (file : UploadedFile) :
    Inner (uploadValidation (V := V) upload file) := by
  refine guards_bind_calls ?_ fun _ => guards_bind_calls ?_ fun _ => ?_
  · unfold checkMaxSize
    cases upload.maxSize with
    | none => trivial
    | some maxSize => exact inner_orException _
  · unfold checkContentType
    by_cases hNone : upload.contentTypes.isEmpty = true
    · rw [if_pos hNone]
      trivial
    · rw [if_neg hNone]
      exact guards_askOr rfl
  · unfold checkValidator
    cases upload.validator with
    | none => trivial
    | some validator => exact guards_askOr rfl

theorem inner_multipartAssignment (arg : ExtractorArg) (form : MultipartForm) :
    Inner (multipartAssignment (V := V) arg form) := by
  unfold multipartAssignment
  cases arg.extractor with
  | param => trivial
  | query => trivial
  | user => trivial
  | cookie name => trivial
  | multipart => trivial
  | body => exact guards_bind_calls (guards_askOr rfl) fun v => trivial
  | file upload =>
    refine guards_bind_calls (inner_orException _) fun file => ?_
    by_cases hOption : arg.ty.isOptionUploadedFile = true
    · simp only [hOption, if_true]
      exact guards_bind_calls (guards_forM (inner_uploadValidation upload) _) fun _ => trivial
    · simp only [hOption]
      cases file with
      | none => trivial
      | some file => exact guards_bind_calls (inner_uploadValidation upload file) fun _ => trivial
  | files upload =>
    exact guards_bind_calls (guards_forM (inner_uploadValidation upload) _) fun _ => trivial

theorem inner_multipartAssignments (args : List ExtractorArg) (form : MultipartForm) :
    Inner (multipartAssignments (V := V) args form) := by
  induction args generalizing form with
  | nil => trivial
  | cons arg args ih =>
    refine guards_bind_calls (inner_multipartAssignment arg form) fun assigned => ?_
    exact guards_bind_calls (ih assigned.2) fun slots => trivial

theorem inner_jsonAssignment (body : Bytes) (arg : ExtractorArg) :
    Inner (jsonAssignment (V := V) body arg) := by
  unfold jsonAssignment
  cases arg.extractor with
  | body => exact guards_bind_calls (guards_askOr rfl) fun v => trivial
  | _ => trivial

theorem inner_payloadSlots (payload : RequestPayload) :
    Inner (payloadSlots route request payload) := by
  have hParse : Inner (parseMultipart route request payload) := guards_askOr rfl
  unfold payloadSlots
  split_ifs
  · exact guards_bind_calls hParse fun form => trivial
  · trivial
  · exact guards_bind_calls hParse fun form => inner_multipartAssignments _ form
  · trivial
  · exact guards_mapM (inner_jsonAssignment payload.body) _

theorem inner_handlerSlots (payload : Option RequestPayload) :
    Inner (handlerSlots route request payload) := by
  cases payload with
  | none => trivial
  | some payload =>
    refine guards_bind_calls (inner_payloadSlots request route payload) fun slots => ?_
    split_ifs <;> trivial

theorem inner_callArg (p : ExtractorArg × Option (ArgValue V)) :
    Inner (callArg parseEncoded request ctx p) := by
  refine guards_bind_calls ?_ fun value => ?_
  · unfold extractArg
    cases p.1.extractor with
    | param => trivial
    | query => trivial
    | user =>
      cases ctx with
      | none => trivial
      | some c =>
        refine guards_bind_calls trivial fun _ => ?_
        exact guards_bind_calls (guards_askOr rfl) fun v => trivial
    | cookie name =>
      cases ctx with
      | none => trivial
      | some c =>
        show Guards (ExceptT.run (if _ then _ else _)) _
        by_cases hOption : p.1.ty.isOptionOf "String" = true
        · rw [if_pos hOption]
          trivial
        · rw [if_neg hOption]
          cases c.cookie parseEncoded name <;> trivial
    | body => cases p.2 <;> trivial
    | multipart => cases p.2 <;> trivial
    | file upload => cases p.2 <;> trivial
    | files upload => cases p.2 <;> trivial
  · split_ifs
    · exact guards_askOr rfl
    · trivial

/-- The call of the method, with admitted values. -/
def CallsMethod (history : RouteHistory V) (c : RouteCall V) : Prop :=
  route.forms ≤ 1 ∧ ∃ values, c = .handler route.handler values ∧
    AllAdmitted parseEncoded request ctx route payload values history

/-- The method is the only stage, and called with admitted values. -/
theorem callHandler_guards (hPayload : payload.isSome = route.hasPayload) :
    (callHandler parseEncoded route request ctx payload).run.Guards fun history c =>
      (∀ e ∈ history, isStage e.1 = false) ∧
        (isStage c = true → CallsMethod parseEncoded request ctx route payload history c) := by
  have hSlots := inner_handlerSlots request route payload
  have hArgs : ∀ slots, Inner ((route.extractors.zip slots).mapM (callArg parseEncoded request ctx)) :=
    fun slots => guards_mapM (inner_callArg parseEncoded request ctx) _
  have hNone : ∀ e ∈ ([] : RouteHistory V), isStage e.1 = false := List.forall_mem_nil _
  refine guards_bind_ensures
    (hSlots.guards hNone (CallsMethod parseEncoded request ctx route payload))
    ((ensures_handlerSlots parseEncoded request ctx route payload hPayload).and
      (ensures_calls hSlots)) ?_
  rintro before slots ⟨⟨hProvided, -, hForms⟩, hBefore⟩
  refine guards_bind_ensures ((hArgs slots).guards hBefore _)
    ((ensures_callArgs parseEncoded request ctx route payload hProvided).and
      (ensures_calls (hArgs slots))) ?_
  rintro later values ⟨hAdmitted, hLater⟩
  refine guards_askOr ⟨?_, fun _ => ⟨hForms, values, rfl, ?_⟩⟩
  · rw [List.append_nil]
    exact List.forall_mem_append.mpr ⟨hBefore, hLater⟩
  · rwa [List.append_nil]

/-- The method does not panic before it is called. -/
theorem ensures_callHandler (hPayload : payload.isSome = route.hasPayload) (hAccepted : route.Accepted)
    (hOne : route.forms ≤ 1)
    (hContext : ∀ arg ∈ route.extractors, arg.readsContext = true → ctx.isSome = true) :
    Ensures (callHandler parseEncoded route request ctx payload) (fun _ _ => True) IsException := by
  refine Ensures.bind ((ensures_handlerSlots parseEncoded request ctx route payload hPayload).mono
    (fun _ _ h => h) fun e he => he hAccepted hOne) ?_
  rintro before slots ⟨hProvided, hSet, -⟩
  refine Ensures.bind (Q := fun _ _ => True)
    ((ensures_callArgs parseEncoded request ctx route payload hProvided).mono
      (fun _ _ _ => trivial) fun e he => he ?_) fun _ values _ => ?_
  · refine List.forall₂_iff_zip.mpr ⟨hSet.length_eq, fun hMem => ⟨?_, ?_⟩⟩
    · exact (List.forall₂_iff_zip.mp hSet).2 hMem
    · exact hContext _ (List.of_mem_zip hMem).1
  · exact ensures_askOr fun _ _ _ => trivial

end Arguments

end Caelix
