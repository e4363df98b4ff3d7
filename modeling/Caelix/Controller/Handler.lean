import Caelix.Lib.Layers
import Caelix.Adapters.JsonErrors
import Caelix.Controller.Route
import Caelix.Core.RequestCookies
import Caelix.Core.Upload

/-!
# The generated request handlers

The function that the controller macro generates for a route, as a process. Its calls are what
guards, interceptors, validators and the controller do, and what other crates decode. An
interceptor answers by itself, or runs `next` and then goes on with the result, or drops `next`
before its end, as for a timeout. Values that are no files are of one type `V`.
-/

namespace Caelix

open Interaction

inductive Backend where
  | actix
  | axum
  deriving DecidableEq, Repr

/-! ## Calls -/

/-- A value for an argument of a controller method. -/
inductive ArgValue (V : Type) where
  | value (v : V)
  | text (s : String)
  | optionText (s : Option String)
  | file (file : UploadedFile)
  | optionFile (file : Option UploadedFile)
  | files (files : List UploadedFile)
  | form (form : MultipartForm)

namespace ArgValue

/-- The files handed over by a value of a file field. -/
def uploaded {V : Type} : ArgValue V → List UploadedFile
  | .file one => [one]
  | .optionFile one => one.toList
  | .files several => several
  | _ => []

end ArgValue

/-- A request body, up to its end or to the first chunk that fails. -/
structure BodyChunks where
  chunks : List Bytes
  complete : Bool

inductive RouteCall (V : Type) where
  /-- `Throttle::check`. -/
  | check (ctx : RequestContext) (method route : String) (policy : ThrottlePolicy)
  /-- `Guard::can_activate`. -/
  | canActivate (guard : ProviderDependency) (ctx : RequestContext)
  /-- `log_http_exception_with_request`. -/
  | logException (e : HttpException)
  /-- The chunks of the body, which `buffer` reads. -/
  | readBody
  /-- `Interceptor::intercept`, until it answers or runs `next`; the reply tells how long it is
  going to wait for `next`. -/
  | intercept (interceptor : ProviderDependency) (ctx : RequestContext)
  /-- The interceptor, with what `next` returned. -/
  | resume (interceptor : ProviderDependency) (result : Except HttpException HttpResponse)
  /-- `serde_json::from_slice`. -/
  | json (ty : RustType) (body : Bytes)
  /-- `MultipartForm::parse`. -/
  | parseForm (contentType : String) (body : Bytes) (limit : Nat)
  /-- `serde_html_form::from_str`, on the text fields. -/
  | deserialize (ty : RustType) (textFields : List (String × List String))
  /-- `UploadedFile::validate_content_type`. -/
  | validateContentType (file : UploadedFile) (allowed : List String) (trustHeader : Bool)
  /-- A validator method of the controller. -/
  | validator (name : String) (file : UploadedFile)
  /-- `RequestContext::get`. -/
  | user (ty : RustType)
  /-- `Validate::validate`. -/
  | validate (value : ArgValue V)
  /-- The method of the controller, and `into_response` of its value. -/
  | handler (method : String) (args : List (ArgValue V))

/-- `intercept` answers, or runs `next`. With a limit it waits for that many calls of `next`, and
drops it at one more for an answer of its own. -/
inductive Intercepted where
  | answered (result : Except HttpException HttpResponse)
  | proceeds (limit : Option (Nat × Except HttpException HttpResponse))

abbrev RouteReply {V : Type} : RouteCall V → Type
  | .check _ _ _ _ => Except HttpException (Option HttpResponse)
  | .canActivate _ _ => Except HttpException Bool
  | .logException _ => Unit
  | .readBody => BodyChunks
  | .intercept _ _ => Intercepted
  | .resume _ _ => Except HttpException HttpResponse
  | .json _ _ => Except String V
  | .parseForm _ _ _ => Except HttpException MultipartForm
  | .deserialize _ _ => Option V
  | .validateContentType _ _ _ => Except HttpException Unit
  | .validator _ _ => Except HttpException Unit
  | .user _ => Except HttpException (Option V)
  | .validate _ => Except HttpException Unit
  | .handler _ _ => Except HttpException HttpResponse

/-- How the extraction of arguments and the method fail. -/
inductive RouteError where
  | exception (e : HttpException)
  | panic (message : String)
  deriving DecidableEq, Repr

/-- A part of a handler that ends at the first error. -/
abbrev RouteRoutine (V : Type) := Routine (RouteCall V) (RouteReply (V := V)) RouteError

/-- How a handler ends early: with a response, or by a panic. -/
inductive Exit where
  | response (response : HttpResponse)
  | panic (message : String)
  deriving DecidableEq

abbrev HandlerRoutine (V : Type) := Routine (RouteCall V) (RouteReply (V := V)) Exit

/-- What the throttle service of a route is, by its default policy. The controller, the guards
and the interceptors of the route are known from the route. -/
structure RouteState where
  throttle : Option ThrottlePolicy

structure Request (V : Type) where
  headers : List HeaderLine
  peerAddr : Option SocketAddr
  /-- The body limit of the application. -/
  bodyLimit : Nat
  /-- What the runtime extracted for the path and query arguments. -/
  extracted : String → V

def ThrottlePolicy.new (limit windowSeconds : UInt64) : ThrottlePolicy where
  limit := limit.toNat
  window := Duration.fromSecs windowSeconds.toNat
  limit_le := toNat_le_u64Max limit

def unauthorized (message : String) : HttpException := HttpException.new 401 "Unauthorized" message

def forbidden (message : String) : HttpException := HttpException.new 403 "Forbidden" message

def unsupportedMediaType (message : String) : HttpException :=
  HttpException.new 415 "Unsupported Media Type" message

/-! ## The payload -/

/-- `RequestPayload`, without the configuration. -/
structure RequestPayload where
  contentType : Option String
  body : Bytes

namespace RequestPayload

def isMultipart (payload : RequestPayload) : Bool :=
  payload.contentType.any fun value =>
    "multipart/form-data".toList.isPrefixOf (value.toList.map Char.toLower)

def isJsonOrMissingContentType (payload : RequestPayload) : Bool :=
  match payload.contentType with
  | none => true
  | some value =>
    (value.toList.splitOn ';').head?.any fun mediaType =>
      (trim mediaType).map Char.toLower = "application/json".toList

end RequestPayload

/-- The `Content-Type` of a request, when it is visible ASCII. -/
def contentType (headers : List HeaderLine) : Option String :=
  (headers.find? fun line => line.1 = "content-type").bind fun line => HeaderValue.toStr line.2

/-- The loop over the chunks of a body. -/
def collectChunks (limit : Nat) : List Bytes → Bytes → Except HttpException Bytes
  | [], body => .ok body
  | chunk :: chunks, body =>
    if limit < saturatingAdd body.length chunk.length then .error (limitError limit)
    else collectChunks limit chunks (body ++ chunk)

/-- `RawRequestPayload::buffer`; on Axum a body that breaks off is reported as too large. -/
def bufferBody (backend : Backend) (limit : Nat) (stream : BodyChunks) :
    Except HttpException Bytes := do
  let body ← collectChunks limit stream.chunks []
  if stream.complete then return body
  else
    match backend with
    | .actix => .error (badRequest "invalid request body")
    | .axum => .error (limitError limit)

namespace MultipartForm

def removeFiles (name : String) (form : MultipartForm) : MultipartForm :=
  { form with fileFields := form.fileFields.filter fun entry => entry.1 ≠ name }

def takeFile (name : String) (form : MultipartForm) :
    Except HttpException (Option UploadedFile) × MultipartForm :=
  match form.fileFields.lookup name with
  | none => (.ok none, form)
  | some [file] => (.ok (some file), form.removeFiles name)
  | some _ =>
    (.error (badRequest ("multipart field `" ++ name ++ "` must contain exactly one file")),
      form.removeFiles name)

def takeFiles (name : String) (form : MultipartForm) : List UploadedFile × MultipartForm :=
  ((form.fileFields.lookup name).getD [], form.removeFiles name)

end MultipartForm

def validateMaxSize (file : UploadedFile) (maxSize : Nat) : Except HttpException Unit :=
  if maxSize < file.size then
    .error (payloadTooLarge
      ("uploaded file exceeds the declared limit of " ++ toString maxSize ++ " bytes"))
  else .ok ()

section Handler

variable {V : Type}

def orException {α : Type} (x : Except HttpException α) : RouteRoutine V α :=
  match x with
  | .ok a => return a
  | .error e => throw (.exception e)

/-- A call whose reply may be an exception. -/
def askOr {α : Type} (c : RouteCall V) (reply : RouteReply c → Except HttpException α) :
    RouteRoutine V α := do
  let r ← Proc.ask c
  orException (reply r)

/-- The parts of `upload_validation`. -/
def checkMaxSize (upload : UploadField) (file : UploadedFile) : RouteRoutine V Unit :=
  match upload.maxSize with
  | some maxSize => orException (validateMaxSize file maxSize)
  | none => return ()

def checkContentType (upload : UploadField) (file : UploadedFile) : RouteRoutine V Unit :=
  if upload.contentTypes.isEmpty then return ()
  else askOr (.validateContentType file upload.contentTypes upload.trustContentTypeHeader) id

def checkValidator (upload : UploadField) (file : UploadedFile) : RouteRoutine V Unit :=
  match upload.validator with
  | some validator => askOr (.validator validator file) id
  | none => return ()

/-- `upload_validation`. -/
def uploadValidation (upload : UploadField) (file : UploadedFile) : RouteRoutine V Unit := do
  checkMaxSize upload file
  checkContentType upload file
  checkValidator upload file

/-- The payload slots, one for each argument; only arguments from the payload use theirs. -/
abbrev Slots (V : Type) := List (Option (ArgValue V))

/-- One of the `multipart_assignments`, and what it leaves of the form. -/
def multipartAssignment (arg : ExtractorArg) (form : MultipartForm) :
    RouteRoutine V (Option (ArgValue V) × MultipartForm) := do
  match arg.extractor with
  | .body =>
    let v ← askOr (.deserialize arg.ty form.textFields) fun decoded =>
      decoded.elim (.error (badRequest "invalid multipart form fields")) .ok
    return (some (.value v), form)
  | .file upload =>
    let taken := form.takeFile upload.name
    let file ← orException taken.1
    if arg.ty.isOptionUploadedFile then
      file.toList.forM (uploadValidation upload)
      return (some (.optionFile file), taken.2)
    else
      match file with
      | some file =>
        uploadValidation upload file
        return (some (.file file), taken.2)
      | none =>
        throw (.exception (badRequest ("missing required file field `" ++ upload.name ++ "`")))
  | .files upload =>
    let taken := form.takeFiles upload.name
    taken.1.forM (uploadValidation upload)
    return (some (.files taken.1), taken.2)
  | _ => return (none, form)

def multipartAssignments : List ExtractorArg → MultipartForm → RouteRoutine V (Slots V)
  | [], _ => return []
  | arg :: args, form => do
    let assigned ← multipartAssignment arg form
    let slots ← multipartAssignments args assigned.2
    return assigned.1 :: slots

/-- One of the `json_assignments`. -/
def jsonAssignment (body : Bytes) (arg : ExtractorArg) : RouteRoutine V (Option (ArgValue V)) := do
  match arg.extractor with
  | .body =>
    let v ← askOr (.json arg.ty body) fun decoded => decoded.mapError jsonError
    return some (.value v)
  | .file _ => return if arg.ty.isOptionUploadedFile then some (.optionFile none) else none
  | _ => return none

/-- `multipart_direct_assignment`: the first `#[multipart]` argument gets the form. -/
def directAssignment (form : MultipartForm) : List ExtractorArg → Slots V
  | [] => []
  | arg :: args =>
    if arg.extractor.isMultipart then some (.form form) :: args.map fun _ => none
    else none :: directAssignment form args

variable (backend : Backend) (parseEncoded : String → Option (String × String)) (route : Route)
  (state : RouteState) (request : Request V)

/-- `RequestPayload::multipart`. -/
def parseMultipart (payload : RequestPayload) : RouteRoutine V MultipartForm := do
  let limit := route.uploadLimit.getD request.bodyLimit
  askOr (.parseForm (payload.contentType.getD "") payload.body limit) id

/-- `payload_setup`, up to the reading of the slots. -/
def payloadSlots (payload : RequestPayload) : RouteRoutine V (Slots V) := do
  if route.extractors.any fun arg => arg.extractor.isMultipart then
    if payload.isMultipart then
      let form ← parseMultipart route request payload
      return directAssignment form route.extractors
    else throw (.exception (unsupportedMediaType "multipart/form-data is required"))
  else if payload.isMultipart then
    let form ← parseMultipart route request payload
    multipartAssignments route.extractors form
  else if route.forceMultipart || !payload.isJsonOrMissingContentType then
    throw (.exception (unsupportedMediaType "unsupported request content type"))
  else route.extractors.mapM (jsonAssignment payload.body)

def slotUnset : RouteError := .panic "multipart payload extractor must be initialized"

/-- `payload_setup`, which reads the slots of all payload arguments. -/
def payloadSetup (payload : RequestPayload) : RouteRoutine V (Slots V) := do
  let slots ← payloadSlots route request payload
  if (route.extractors.zip slots).all fun p => !p.1.extractor.isPayload || p.2.isSome then
    return slots
  else throw slotUnset

def handlerSlots (payload : Option RequestPayload) : RouteRoutine V (Slots V) :=
  match payload with
  | some payload => payloadSetup route request payload
  | none => return route.extractors.map fun _ => none

/-- The request context of a route that needs one. -/
def expectContext (ctx : Option RequestContext) : RouteRoutine V RequestContext :=
  match ctx with
  | some ctx => return ctx
  | none => throw (.panic "request context required")

/-- An argument of the method before `validate`. -/
def extractArg (ctx : Option RequestContext) (arg : ExtractorArg) (slot : Option (ArgValue V)) :
    RouteRoutine V (ArgValue V) := do
  match arg.extractor with
  | .param | .query => return .value (request.extracted arg.name)
  | .user =>
    let _ ← expectContext ctx
    let v ← askOr (.user arg.ty) fun found =>
      found.bind fun v => v.elim (.error (unauthorized "Not authenticated")) .ok
    return .value v
  | .cookie name =>
    let ctx ← expectContext ctx
    let value := ctx.cookie parseEncoded name
    if arg.ty.isOptionOf "String" then return .optionText value
    else
      match value with
      | some value => return .text value
      | none =>
        throw (.exception (badRequest ("missing required cookie '" ++ name ++ "'")))
  | _ =>
    match slot with
    | some value => return value
    | none => throw slotUnset

/-- One of the `call_args`. -/
def callArg (ctx : Option RequestContext) (p : ExtractorArg × Option (ArgValue V)) :
    RouteRoutine V (ArgValue V) := do
  let value ← extractArg parseEncoded request ctx p.1 p.2
  if p.1.needsValidation then
    askOr (.validate value) fun checked => checked.map fun _ => value
  else return value

/-- The innermost `next`: the extraction of the arguments and the method. -/
def callHandler (ctx : Option RequestContext) (payload : Option RequestPayload) :
    RouteRoutine V HttpResponse := do
  let slots ← handlerSlots route request payload
  let args ← (route.extractors.zip slots).mapM (callArg parseEncoded request ctx)
  askOr (.handler route.handler args) id

/-! ## Interceptors -/

def interceptLayer (ctx : RequestContext) (interceptor : ProviderDependency) :
    Layer (RouteCall V) RouteReply (Except RouteError HttpResponse) where
  before := .intercept interceptor ctx
  decision
    | .answered result => .answers (result.mapError .exception)
    | .proceeds limit => .runs (limit.map fun l => (l.1, l.2.mapError .exception))
  resume
    | .ok response => some ⟨.resume interceptor (.ok response), fun r => r.mapError .exception⟩
    | .error (.exception e) => some ⟨.resume interceptor (.error e), fun r => r.mapError .exception⟩
    -- a panic unwinds through the interceptors
    | .error (.panic _) => none

/-- `handler_execution`. -/
def handlerExecution (ctx : Option RequestContext) (payload : Option RequestPayload) :
    Proc (RouteCall V) RouteReply (Except RouteError HttpResponse) :=
  let core := (callHandler parseEncoded route request ctx payload).run
  match route.interceptors, ctx with
  | [], _ => core
  | interceptors, some ctx => Proc.layered (interceptors.map (interceptLayer ctx)) core
  | _, none => .done (.error (.panic "request context required"))

/-! ## The handler -/

def respond {α : Type} (response : HttpResponse) : HandlerRoutine V α := throw (.response response)

/-- `request_context_setup`. -/
def requestContextSetup : HandlerRoutine V (Option RequestContext) :=
  if route.needsRequestContext || route.throttleEnabled then
    match requestContext request.peerAddr request.headers with
    | .ok ctx => return some ctx
    | .error e => respond e.intoResponse
  else return none

/-- `throttle_policy`. -/
def throttlePolicy : Option ThrottlePolicy :=
  match route.throttle with
  | some (.policy limit window) => some (ThrottlePolicy.new limit window)
  | some .skip => none
  | none => state.throttle

/-- `throttle_check`. -/
def throttleCheck (ctx : Option RequestContext) : HandlerRoutine V Unit :=
  match throttlePolicy route state with
  | none => return ()
  | some policy =>
    match state.throttle, ctx with
    | none, _ => respond internalServerError.intoResponse
    | some _, none => throw (.panic "throttled route requires context")
    | some _, some ctx => do
      let checked ← Proc.ask (RouteCall.check ctx route.verb route.fullPath policy)
      match checked with
      | .ok (some response) => respond response
      | .ok none => return ()
      | .error e => respond e.intoResponse

/-- `guard_checks`, one of them. -/
def guardCheck (ctx : Option RequestContext) (guard : ProviderDependency) : HandlerRoutine V Unit :=
  match ctx with
  | none => throw (.panic "guarded route requires context")
  | some ctx => do
    let activates ← Proc.ask (RouteCall.canActivate guard ctx)
    match activates with
    | .ok true => return ()
    | .ok false => respond (forbidden "Access denied").intoResponse
    | .error e => do
      Proc.ask (RouteCall.logException e)
      respond e.intoResponse

/-- `payload_buffering`. -/
def payloadBuffering : HandlerRoutine V (Option RequestPayload) :=
  if route.hasPayload then do
    let stream ← Proc.ask RouteCall.readBody
    match bufferBody backend request.bodyLimit stream with
    | .ok body => return some ⟨contentType request.headers, body⟩
    | .error e => respond e.intoResponse
  else return none

/-- What becomes of the result of the method. -/
def finish (result : Except RouteError HttpResponse) : HandlerRoutine V HttpResponse :=
  match result with
  | .ok response => return response
  | .error (.exception e) => do
    Proc.ask (RouteCall.logException e)
    return e.intoResponse
  | .error (.panic message) => throw (.panic message)

/-- The generated handler. -/
def handleRequest : HandlerRoutine V HttpResponse := do
  let ctx ← requestContextSetup route request
  throttleCheck route state ctx
  route.guards.forM (guardCheck ctx)
  let payload ← payloadBuffering backend route request
  let result ← ExceptT.lift (handlerExecution parseEncoded route request ctx payload)
  finish result

end Handler

end Caelix
