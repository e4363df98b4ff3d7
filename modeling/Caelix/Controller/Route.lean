import Caelix.Controller.Annotations
import Caelix.Core.ThrottleCheck
import Caelix.Core.Provider

/-!
# Routes of a controller

What the controller macro makes of an `impl` block, with the `uploads` feature: the routes with
their guards, interceptors, throttling and extractors, and the checks that fail the compilation.

* `Declares`: a route has the guards and interceptors of the controller, then those of its method,
  and extractors that fit together (`Route.Accepted`).
* `mem_expand`: a method of the controller declares each of its routes.
-/

namespace Caelix

/-! ## The annotated block -/

/-- An argument of `upload`, with the value of its expression. -/
inductive UploadArgument where
  | nameValue (name : String) (value : Nat)
  | other
  deriving DecidableEq, Repr

/-- What stands behind the name of `skip_throttle`. -/
inductive SkipArguments where
  | absent
  /-- Parentheses with nothing in them. -/
  | empty
  | given
  deriving DecidableEq, Repr

/-- The attributes that the macro reads. What the parser of an attribute says of malformed
arguments stands in their place. -/
inductive Attribute where
  | doc (text : String)
  | verb (verb : String) (path : Except String String)
  | useGuard (types : Except String (List ProviderDependency))
  | useInterceptor (types : Except String (List ProviderDependency))
  | throttle (arguments : Except String (List Meta))
  | skipThrottle (arguments : SkipArguments)
  | upload (arguments : Except String (List UploadArgument))
  | other

/-- The attributes of an argument; the name of a cookie is missing when it is no string literal. -/
inductive ArgumentAttribute where
  | param
  | body
  | query
  | user
  | cookie (name : Option String)
  | multipart
  | file (arguments : Option (Except String (List Meta)))
  | files (arguments : Option (Except String (List Meta)))
  | validate
  | other

/-- An argument of a method; the name is missing when its pattern is no identifier. -/
structure Argument where
  name : Option String
  ty : RustType
  attributes : List ArgumentAttribute

/-- A method of the block; `uploadValidator` tells `is_upload_validator_signature` of it. -/
structure MethodItem where
  name : String
  attributes : List Attribute
  arguments : List Argument
  uploadValidator : Bool

structure ControllerItem where
  basePath : String
  attributes : List Attribute
  methods : List MethodItem

/-! ## Attributes of the controller and of a method -/

/-- What the attributes of a controller or a method say. -/
structure Annotations where
  guards : List ProviderDependency
  interceptors : List ProviderDependency
  throttle : Option ThrottleAnnotation
  route : Option (String × String)
  uploadLimit : Option Nat
  errors : List String

namespace Annotations

def empty : Annotations := ⟨[], [], none, none, none, []⟩

def error (s : Annotations) (message : String) : Annotations :=
  { s with errors := s.errors ++ [message] }

/-- What a parser read, or its error. -/
def orError {α : Type} (s : Annotations) (x : Except String α) (f : α → Annotations) : Annotations :=
  match x with
  | .ok a => f a
  | .error message => s.error message

/-- The setting of an attribute, unless there is one already. -/
def setThrottle (level : String) (s : Annotations) (x : Except String ThrottleAnnotation) :
    Annotations :=
  if s.throttle.isSome then s.error ("conflicting " ++ level ++ " throttle settings")
  else s.orError x fun setting => { s with throttle := some setting }

/-- The attribute must be a path: parentheses are refused also when they are empty. -/
def skip (level : String) (s : Annotations) (arguments : SkipArguments) : Annotations :=
  let s := if arguments = .absent then s else s.error "skip_throttle does not accept arguments"
  s.setThrottle level (.ok .skip)

/-- The attributes that a controller and a method share. -/
def shared (level : String) (s : Annotations) : Attribute → Annotations
  | .useGuard types => s.orError types fun types => { s with guards := s.guards ++ types }
  | .useInterceptor types =>
    s.orError types fun types => { s with interceptors := s.interceptors ++ types }
  | .throttle arguments => s.setThrottle level (parseThrottle arguments)
  | .skipThrottle arguments => s.skip level arguments
  | _ => s

/-- An attribute of the block. A throttle annotation above `controller` has left its marker. -/
def controllerAttribute (s : Annotations) : Attribute → Annotations
  | .doc text =>
    match throttleDocMarker text with
    | some setting => s.setThrottle "controller" (.ok setting)
    | none => s
  | remaining => s.shared "controller" remaining

def uploadLimitOf (s : Annotations) : List UploadArgument → Annotations
  | [.nameValue "limit" value] => { s with uploadLimit := some value }
  | _ => s.error "upload requires `limit = ...`"

/-- An attribute of a method. -/
def methodAttribute (s : Annotations) : Attribute → Annotations
  | .verb verb path => s.orError path fun path => { s with route := some (verb, path) }
  | .upload arguments =>
    match arguments with
    | .ok arguments => s.uploadLimitOf arguments
    | .error _ => s.error "upload requires `limit = ...`"
  | remaining => s.shared "method" remaining

def ofController (attributes : List Attribute) : Annotations :=
  attributes.foldl controllerAttribute empty

def ofMethod (attributes : List Attribute) : Annotations := attributes.foldl methodAttribute empty

end Annotations

/-! ## Extractors -/

structure UploadField where
  name : String
  maxSize : Option Nat
  contentTypes : List String
  trustContentTypeHeader : Bool
  validator : Option String
  deriving DecidableEq, Repr

/-- `Extractor`; the files have their `UploadField`. -/
inductive Extractor where
  | param
  | body
  | query
  | user
  | cookie (name : String)
  | multipart
  | file (upload : UploadField)
  | files (upload : UploadField)
  deriving DecidableEq, Repr

namespace Extractor

def isBody : Extractor → Bool
  | body => true
  | _ => false

def isMultipart : Extractor → Bool
  | multipart => true
  | _ => false

def isFile : Extractor → Bool
  | file _ => true
  | files _ => true
  | _ => false

/-- The extractors that read the body of the request. -/
def isPayload (extractor : Extractor) : Bool :=
  extractor.isBody || extractor.isMultipart || extractor.isFile

end Extractor

structure ExtractorArg where
  extractor : Extractor
  name : String
  ty : RustType
  needsValidation : Bool

namespace ExtractorArg

/-- `#[file]` without `Option`, `#[files]` and `#[multipart]` need a multipart body. -/
def forcesMultipart (arg : ExtractorArg) : Bool :=
  match arg.extractor with
  | .multipart => true
  | .files _ => true
  | .file _ => !arg.ty.isOptionUploadedFile
  | _ => false

def readsContext (arg : ExtractorArg) : Bool :=
  match arg.extractor with
  | .user => true
  | .cookie _ => true
  | _ => false

end ExtractorArg

/-- What the attributes of an argument say so far. `found` has the options of a file field, which
are those of a bare annotation when they do not parse. -/
structure FoundExtractor where
  found : Option (String → UploadField → Extractor)
  options : UploadFieldOptions
  needsValidation : Bool
  errors : List String

namespace FoundExtractor

def empty : FoundExtractor := ⟨none, .none, false, []⟩

def plain (s : FoundExtractor) (extractor : Extractor) : FoundExtractor :=
  { s with found := some fun _ _ => extractor }

def withOptions (s : FoundExtractor) (extractor : UploadField → Extractor)
    (arguments : Option (Except String (List Meta))) : FoundExtractor :=
  let s := { s with found := some fun _ upload => extractor upload }
  match UploadFieldOptions.parse arguments with
  | .ok options => { s with options }
  | .error message => { s with errors := s.errors ++ [message] }

def addAttribute (s : FoundExtractor) : ArgumentAttribute → FoundExtractor
  | .param => s.plain .param
  | .body => s.plain .body
  | .query => s.plain .query
  | .user => s.plain .user
  | .cookie (some name) =>
    if name.isEmpty then { s with errors := s.errors ++ ["cookie name must not be empty"] }
    else s.plain (.cookie name)
  | .cookie none =>
    { s with errors := s.errors ++ ["#[cookie] requires a non-empty string literal, " ++
        "for example #[cookie(\"session\")]"] }
  | .multipart => s.plain .multipart
  | .file arguments => s.withOptions .file arguments
  | .files arguments => s.withOptions .files arguments
  | .validate => { s with needsValidation := true }
  | .other => s

end FoundExtractor

/-- The type of an argument does not fit its extractor. -/
def typeErrors (ty : RustType) : Extractor → List String
  | .cookie _ =>
    if ty.isNamedType "String" || ty.isOptionOf "String" then []
    else ["#[cookie] requires String or Option<String>"]
  | .file _ =>
    if ty.isNamedType "UploadedFile" || ty.isOptionUploadedFile then []
    else ["#[file] requires UploadedFile or Option<UploadedFile>"]
  | .files _ => if ty.isVecUploadedFile then [] else ["#[files] requires Vec<UploadedFile>"]
  | _ => []

/-- The extractor of an argument, when it has one, and the errors. -/
def expandArgument (invalidValidators : List String) (argument : Argument) :
    List String × Option ExtractorArg :=
  let s := argument.attributes.foldl FoundExtractor.addAttribute FoundExtractor.empty
  match s.found with
  | none => (s.errors, none)
  | some found =>
    match argument.name with
    | none => (s.errors ++ ["expected a simple identifier for extractor argument"], none)
    | some name =>
      let validator := s.options.validator.filter fun v => !invalidValidators.contains v
      let upload : UploadField := ⟨s.options.name.getD name, s.options.maxSize,
        s.options.contentTypes, s.options.trustContentTypeHeader, validator⟩
      let extractor := found name upload
      (s.errors ++ typeErrors argument.ty extractor,
        some ⟨extractor, name, argument.ty, s.needsValidation⟩)

/-! ## Routes -/

structure Route where
  verb : String
  fullPath : String
  handler : String
  guards : List ProviderDependency
  interceptors : List ProviderDependency
  throttle : Option ThrottleAnnotation
  uploadLimit : Option Nat
  extractors : List ExtractorArg

/-- The checks on the extractors of a route together. -/
def combinationErrors (extractors : List ExtractorArg) : List String :=
  (if extractors.any (fun arg => arg.extractor.isMultipart) &&
      extractors.any (fun arg => arg.extractor.isBody || arg.extractor.isFile) then
    ["#[multipart] cannot be combined with #[body], #[file], or #[files]"] else []) ++
  (if 1 < extractors.countP (fun arg => arg.extractor.isBody) then
    ["a route may have only one #[body] argument"] else [])

/-- A method and the route it declares, with the errors. -/
def expandMethod (basePath : String) (controller : Annotations) (invalidValidators : List String)
    (method : MethodItem) : List String × Option Route :=
  let annotations := Annotations.ofMethod method.attributes
  let arguments := method.arguments.map (expandArgument invalidValidators)
  let extractors := arguments.filterMap Prod.snd
  let errors := annotations.errors ++ arguments.flatMap Prod.fst
  match annotations.route with
  | none => (errors, none)
  | some (verb, path) =>
    (errors ++ combinationErrors extractors,
      some
        { verb
          fullPath := basePath ++ path
          handler := method.name
          guards := controller.guards ++ annotations.guards
          interceptors := controller.interceptors ++ annotations.interceptors
          throttle := annotations.throttle.or controller.throttle
          uploadLimit := annotations.uploadLimit
          extractors })

/-- `validate_upload_validator`, on the first method of the name. -/
def validateUploadValidator (methods : List MethodItem) (validator : String) : Except String Unit :=
  match methods.find? fun method => method.name = validator with
  | none => .error ("upload validator `" ++ validator ++ "` was not found on this controller")
  | some method =>
    if method.uploadValidator then .ok ()
    else .error ("upload validator `" ++ validator ++ "` must be declared as `async fn " ++
      validator ++ "(&self, file: &UploadedFile) -> Result<()>`")

/-- The validator that an attribute of an argument names. -/
def ArgumentAttribute.validator? : ArgumentAttribute → Option String
  | .file arguments | .files arguments =>
    match UploadFieldOptions.parse arguments with
    | .ok options => options.validator
    | .error _ => none
  | _ => none

/-- The validators named in a block that do not fit, each with its error. -/
def validatorErrors (methods : List MethodItem) : List (String × String) :=
  let named := methods.flatMap fun method =>
    method.arguments.flatMap fun argument =>
      argument.attributes.filterMap ArgumentAttribute.validator?
  named.filterMap fun validator =>
    match validateUploadValidator methods validator with
    | .ok _ => none
    | .error message => some (validator, message)

/-- The routes that the macro generates, or the errors of the compilation. -/
def expand (item : ControllerItem) : Except (List String) (List Route) :=
  let controller := Annotations.ofController item.attributes
  let validators := validatorErrors item.methods
  let methods := item.methods.map
    (expandMethod item.basePath controller (validators.map Prod.fst))
  let errors := controller.errors ++ validators.map Prod.snd ++ methods.flatMap Prod.fst
  if errors = [] then .ok (methods.filterMap Prod.snd) else .error errors

namespace Route

/-- `explicit_throttle`. -/
def explicitThrottle (route : Route) : Bool :=
  match route.throttle with
  | some (.policy _ _) => true
  | _ => false

def throttleEnabled (route : Route) : Bool := route.throttle != some .skip

/-- The providers that the generated handler resolves besides the controller; `throttle` is the
throttle service. -/
def dependencies (throttle : ProviderDependency) (route : Route) : List ProviderDependency :=
  (if route.explicitThrottle then [throttle] else []) ++ route.guards ++ route.interceptors

def hasPayload (route : Route) : Bool := route.extractors.any fun arg => arg.extractor.isPayload

def forceMultipart (route : Route) : Bool := route.extractors.any ExtractorArg.forcesMultipart

def needsRequestContext (route : Route) : Bool :=
  !route.guards.isEmpty || !route.interceptors.isEmpty ||
    route.extractors.any ExtractorArg.readsContext

/-- Extractors that the macro accepts together. -/
structure Accepted (route : Route) : Prop where
  multipart : (∃ arg ∈ route.extractors, arg.extractor.isMultipart = true) →
    ∀ arg ∈ route.extractors, arg.extractor.isBody = false ∧ arg.extractor.isFile = false
  body : route.extractors.countP (fun arg => arg.extractor.isBody) ≤ 1

/-- How many arguments ask for the whole form. -/
def forms (route : Route) : Nat := route.extractors.countP fun arg => arg.extractor.isMultipart

end Route

/-- `route_dependencies` of the generated controller. -/
def routeDependencies (throttle : ProviderDependency) (routes : List Route) :
    List ProviderDependency :=
  routes.flatMap (Route.dependencies throttle)

/-- The policies that `validate_routes` of the generated controller validates. -/
def routeThrottlePolicies (routes : List Route) : List (UInt64 × UInt64) :=
  routes.filterMap fun route =>
    match route.throttle with
    | some (.policy limit window) => some (limit, window)
    | _ => none

/-! ## What a controller declares -/

/-- The guards that an attribute adds. -/
def Attribute.guards : Attribute → List ProviderDependency
  | .useGuard (.ok types) => types
  | _ => []

/-- The interceptors that an attribute adds. -/
def Attribute.interceptors : Attribute → List ProviderDependency
  | .useInterceptor (.ok types) => types
  | _ => []

/-- A method of a controller has this route. -/
structure Declares (item : ControllerItem) (method : MethodItem) (route : Route) : Prop where
  handler : route.handler = method.name
  guards : route.guards = (item.attributes ++ method.attributes).flatMap Attribute.guards
  interceptors :
    route.interceptors = (item.attributes ++ method.attributes).flatMap Attribute.interceptors
  accepted : route.Accepted

namespace Annotations

/-- What an attribute adds to the guards and interceptors. -/
structure Adds (s s' : Annotations) (attr : Attribute) : Prop where
  guards : s'.guards = s.guards ++ attr.guards
  interceptors : s'.interceptors = s.interceptors ++ attr.interceptors

/-- An attribute that is neither a guard nor an interceptor. -/
theorem adds_none {s s' : Annotations} {attr : Attribute}
    (h : s'.guards = s.guards ∧ s'.interceptors = s.interceptors)
    (hNone : attr.guards = [] ∧ attr.interceptors = []) : Adds s s' attr := by
  constructor
  · rw [h.1, hNone.1, List.append_nil]
  · rw [h.2, hNone.2, List.append_nil]

theorem setThrottle_same (level : String) (s : Annotations) (x : Except String ThrottleAnnotation) :
    (s.setThrottle level x).guards = s.guards ∧
      (s.setThrottle level x).interceptors = s.interceptors := by
  unfold setThrottle
  split_ifs
  · exact ⟨rfl, rfl⟩
  · cases x <;> exact ⟨rfl, rfl⟩

theorem skip_same (level : String) (s : Annotations) (arguments : SkipArguments) :
    (s.skip level arguments).guards = s.guards ∧
      (s.skip level arguments).interceptors = s.interceptors := by
  unfold skip
  cases arguments with
  | absent => exact setThrottle_same level s _
  | empty | given => exact setThrottle_same level (s.error _) _

theorem uploadLimitOf_same (s : Annotations) (arguments : List UploadArgument) :
    (s.uploadLimitOf arguments).guards = s.guards ∧
      (s.uploadLimitOf arguments).interceptors = s.interceptors := by
  unfold uploadLimitOf
  split <;> exact ⟨rfl, rfl⟩

theorem adds_shared (level : String) (s : Annotations) (attr : Attribute) :
    Adds s (s.shared level attr) attr := by
  cases attr with
  | useGuard types =>
    cases types with
    | ok types => exact ⟨rfl, (List.append_nil _).symm⟩
    | error message => exact adds_none ⟨rfl, rfl⟩ ⟨rfl, rfl⟩
  | useInterceptor types =>
    cases types with
    | ok types => exact ⟨(List.append_nil _).symm, rfl⟩
    | error message => exact adds_none ⟨rfl, rfl⟩ ⟨rfl, rfl⟩
  | throttle arguments => exact adds_none (setThrottle_same level s _) ⟨rfl, rfl⟩
  | skipThrottle arguments => exact adds_none (skip_same level s arguments) ⟨rfl, rfl⟩
  | _ => exact adds_none ⟨rfl, rfl⟩ ⟨rfl, rfl⟩

theorem adds_controllerAttribute (s : Annotations) (attr : Attribute) :
    Adds s (s.controllerAttribute attr) attr := by
  have hShared := adds_shared "controller" s attr
  cases attr with
  | doc text =>
    unfold controllerAttribute
    dsimp only
    cases throttleDocMarker text with
    | none => exact adds_none ⟨rfl, rfl⟩ ⟨rfl, rfl⟩
    | some setting => exact adds_none (setThrottle_same "controller" s _) ⟨rfl, rfl⟩
  | _ => exact hShared

theorem adds_methodAttribute (s : Annotations) (attr : Attribute) :
    Adds s (s.methodAttribute attr) attr := by
  have hShared := adds_shared "method" s attr
  cases attr with
  | verb verb path => cases path <;> exact adds_none ⟨rfl, rfl⟩ ⟨rfl, rfl⟩
  | upload arguments =>
    cases arguments with
    | ok arguments => exact adds_none (uploadLimitOf_same s arguments) ⟨rfl, rfl⟩
    | error message => exact adds_none ⟨rfl, rfl⟩ ⟨rfl, rfl⟩
  | _ => exact hShared

theorem foldl_adds {step : Annotations → Attribute → Annotations}
    (hStep : ∀ s attr, Adds s (step s attr) attr) (attrs : List Attribute) (s : Annotations) :
    (attrs.foldl step s).guards = s.guards ++ attrs.flatMap Attribute.guards ∧
      (attrs.foldl step s).interceptors =
        s.interceptors ++ attrs.flatMap Attribute.interceptors := by
  induction attrs generalizing s with
  | nil => exact ⟨(List.append_nil _).symm, (List.append_nil _).symm⟩
  | cons attr attrs ih =>
    obtain ⟨hGuards, hInterceptors⟩ := ih (step s attr)
    rw [List.foldl_cons, hGuards, hInterceptors, (hStep s attr).guards, (hStep s attr).interceptors]
    exact ⟨List.append_assoc .., List.append_assoc ..⟩

end Annotations

theorem combinationErrors_eq_nil_iff (extractors : List ExtractorArg) :
    combinationErrors extractors = [] ↔
      ((∃ arg ∈ extractors, arg.extractor.isMultipart = true) →
        ∀ arg ∈ extractors, arg.extractor.isBody = false ∧ arg.extractor.isFile = false) ∧
      extractors.countP (fun arg => arg.extractor.isBody) ≤ 1 := by
  unfold combinationErrors
  rw [List.append_eq_nil_iff, ite_eq_right_iff, ite_eq_right_iff]
  refine and_congr ?_ ?_
  · simp only [List.cons_ne_nil, imp_false, Bool.and_eq_true, List.any_eq_true, Bool.or_eq_true,
      not_and, not_exists, not_or, Bool.not_eq_true]
  · simp only [List.cons_ne_nil, imp_false, not_lt]

/-- Each route of an accepted controller is that of one of its methods. -/
theorem mem_expand {item : ControllerItem} {routes : List Route} (h : expand item = .ok routes)
    {route : Route} (hRoute : route ∈ routes) : ∃ method ∈ item.methods, Declares item method route := by
  unfold expand at h
  by_cases hErrors : (Annotations.ofController item.attributes).errors ++
      (validatorErrors item.methods).map Prod.snd ++ (item.methods.map (expandMethod item.basePath
        (Annotations.ofController item.attributes)
        ((validatorErrors item.methods).map Prod.fst))).flatMap Prod.fst = []
  · rw [if_pos hErrors] at h
    cases h
    obtain ⟨expanded, hExpanded, hSome⟩ := List.mem_filterMap.mp hRoute
    obtain ⟨method, hMethod, rfl⟩ := List.mem_map.mp hExpanded
    refine ⟨method, hMethod, ?_⟩
    have hNone := List.flatMap_eq_nil_iff.mp (List.append_eq_nil_iff.mp hErrors).2 _ hExpanded
    unfold expandMethod at hSome hNone
    dsimp only at hSome hNone
    cases hVerb : (Annotations.ofMethod method.attributes).route with
    | none =>
      rw [hVerb] at hSome
      cases hSome
    | some declared =>
      rw [hVerb] at hSome hNone
      dsimp only at hSome hNone
      obtain ⟨hMultipart, hBody⟩ :=
        (combinationErrors_eq_nil_iff _).mp (List.append_eq_nil_iff.mp hNone).2
      cases hSome
      have hController := Annotations.foldl_adds Annotations.adds_controllerAttribute
        item.attributes Annotations.empty
      have hOwn := Annotations.foldl_adds Annotations.adds_methodAttribute
        method.attributes Annotations.empty
      refine ⟨rfl, ?_, ?_, hMultipart, hBody⟩
      · rw [List.flatMap_append]
        exact congrArg₂ (· ++ ·) hController.1 hOwn.1
      · rw [List.flatMap_append]
        exact congrArg₂ (· ++ ·) hController.2 hOwn.2
  · rw [if_neg hErrors] at h
    cases h

end Caelix
