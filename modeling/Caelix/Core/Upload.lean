import Mathlib.Logic.Function.Basic
import Caelix.Lib.Effects
import Caelix.Core.Response
import Caelix.Core.Throttle

/-!
# Uploaded files

`upload.rs`: the parser of multipart bodies, which stages the file parts on disk, and the
move of a staged file to its destination. What `multer` finds in a body is a `Multipart`,
the parts in order with their data in chunks. A file that is written holds what its last
successful write made of it; a failed write leaves some first part of that.
-/

namespace Caelix

open Interaction

abbrev Path := String

/-- `std::io::Error`. -/
structure IoError where
  message : String
  deriving DecidableEq, Repr

abbrev IoResult := Except IoError Unit

/-! ## The file system -/

inductive FileCall where
  | createDirAll (path : Path)
  | openFile (path : Path)
  | createNew (path : Path)
  | writeAll (path : Path) (bytes : Bytes)
  | copy (source destination : Path)
  | flush (path : Path)
  | removeFile (path : Path)
  deriving DecidableEq

inductive UploadCall where
  | file (c : FileCall)
  | processId
  | fetchAddUploadId
  | nanosSinceEpoch

abbrev UploadReply : UploadCall → Type
  | .file _ => IoResult
  | .processId => Nat
  | .fetchAddUploadId => Nat
  | .nanosSinceEpoch => Nat

/-- The files by their paths. -/
abbrev Files := Path → Option Bytes

/-- New contents of a file through an open handle. -/
def Rewrites (path : Path) (R : Bytes → Bytes → Prop) (s t : Files) : Prop :=
  match s path with
  | none => t = s
  | some old => ∃ new, R old new ∧ t = Function.update s path (some new)

/-- What a call of the file system does. -/
def FileCall.effect (s t : Files) : FileCall → IoResult → Prop
  | .createDirAll _, _ => t = s
  | .openFile path, .ok _ => s path ≠ none ∧ t = s
  | .openFile _, .error _ => t = s
  | .createNew path, .ok _ => s path = none ∧ t = Function.update s path (some [])
  | .createNew _, .error _ => t = s
  | .writeAll path bytes, .ok _ => Rewrites path (fun old new => new = old ++ bytes) s t
  | .writeAll path bytes, .error _ => Rewrites path (fun old new => new <+: old ++ bytes) s t
  | .copy source destination, .ok _ =>
    Rewrites destination (fun old new => ∃ bytes, s source = some bytes ∧ new = old ++ bytes) s t
  | .copy source destination, .error _ =>
    Rewrites destination (fun old new => new <+: old ++ (s source).getD []) s t
  | .flush _, .ok _ => t = s
  | .flush path, .error _ => Rewrites path (fun old new => new <+: old) s t
  | .removeFile path, .ok _ => s path ≠ none ∧ t = Function.update s path none
  | .removeFile _, .error _ => t = s

structure Disk where
  files : Files
  processId : Nat
  /-- `NEXT_UPLOAD_ID`. -/
  nextUploadId : Nat

def uploadEffects : Effects Disk UploadCall UploadReply := fun s c =>
  match c with
  | .file c => fun t r => c.effect s.files t.files r ∧ t = { s with files := t.files }
  | .processId => fun t r => r = s.processId ∧ t = s
  | .fetchAddUploadId => fun t r =>
    r = s.nextUploadId ∧ t = { s with nextUploadId := wrappingAdd s.nextUploadId 1 }
  | .nanosSinceEpoch => fun t _ => t = s

abbrev UploadTask := Proc UploadCall UploadReply

abbrev UploadRoutine := Routine UploadCall UploadReply HttpException

def storageError (_ : IoError) : HttpException := internalServerError

/-- A call of the file system followed by `map_err(storage_error)?`. -/
def storage (c : FileCall) : UploadRoutine Unit := do
  let result : IoResult ← Proc.ask (UploadCall.file c)
  match result with
  | .ok _ => return ()
  | .error error => throw (storageError error)

/-! ## Staged files -/

/-- `PathBuf::join`, for a name that is not absolute. -/
def join (dir : Path) (name : String) : Path :=
  if dir.isEmpty || dir.toList.getLast? = some '/' then dir ++ name else dir ++ "/" ++ name

structure UploadConfig where
  tempDir : Path

structure UploadedFile where
  fieldName : String
  fileName : Option String
  contentType : Option String
  headers : List (String × String)
  size : Nat
  tempPath : Option Path
  deriving DecidableEq

/-- `UploadedFile::drop`; the result of the removal is ignored. -/
def UploadedFile.drop (file : UploadedFile) : UploadTask Unit :=
  match file.tempPath with
  | none => return ()
  | some path => do
    let _ ← Proc.perform (UploadCall.file (.removeFile path))
    return ()

def temporaryPath (config : UploadConfig) : UploadRoutine Path := do
  let id ← Proc.ask UploadCall.fetchAddUploadId
  let processId ← Proc.ask UploadCall.processId
  let nanos ← Proc.ask UploadCall.nanosSinceEpoch
  return join config.tempDir
    ("upload-" ++ toString processId ++ "-" ++ toString id ++ "-" ++ toString nanos)

/-! ## Multipart forms -/

/-- A part as `multer` yields it; `complete` says that its data ends as it should. -/
structure Part where
  name : Option String
  fileName : Option String
  contentType : Option String
  headers : List (String × String)
  chunks : List Bytes
  complete : Bool

/-- A body as `multer` yields it, up to its end or to the first malformed part. -/
structure Multipart where
  parts : List Part
  complete : Bool

/-- `entry(name).or_default().push(value)` of a `BTreeMap`, as the list of its entries. -/
def pushEntry {α : Type} (name : String) (value : α) : List (String × List α) → List (String × List α)
  | [] => [(name, [value])]
  | (key, values) :: entries =>
    if name = key then (key, values ++ [value]) :: entries
    else if name < key then (name, [value]) :: (key, values) :: entries
    else (key, values) :: pushEntry name value entries

structure MultipartForm where
  textFields : List (String × List String)
  fileFields : List (String × List UploadedFile)

namespace MultipartForm

/-- `MultipartForm::default`. -/
def default : MultipartForm := ⟨[], []⟩

def pushText (name value : String) (form : MultipartForm) : MultipartForm :=
  { form with textFields := pushEntry name value form.textFields }

def pushFile (name : String) (file : UploadedFile) (form : MultipartForm) : MultipartForm :=
  { form with fileFields := pushEntry name file form.fileFields }

/-- The files that the form owns. -/
def owned (form : MultipartForm) : List UploadedFile := form.fileFields.flatMap Prod.snd

/-- Dropping a form drops its files. -/
def drop (form : MultipartForm) : UploadTask Unit := form.owned.forM UploadedFile.drop

end MultipartForm

def limitError (limit : Nat) : HttpException :=
  payloadTooLarge
    ("request body exceeds the configured limit of " ++ toString limit ++ " bytes")

def malformedBody : HttpException := badRequest "invalid multipart request body"

/-- The count of received bytes after some more of them. -/
def receive (limit received : Nat) (bytes : Bytes) : Except HttpException Nat :=
  let received := saturatingAdd received bytes.length
  if limit < received then .error (limitError limit) else .ok received

/-- The loop over the chunks of a file part. -/
def writeChunks (limit : Nat) (path : Path) : List Bytes → Nat → Nat → UploadRoutine (Nat × Nat)
  | [], size, received => return (size, received)
  | chunk :: chunks, size, received =>
    match receive limit received chunk with
    | .error e => throw e
    | .ok received => do
      storage (.writeAll path chunk)
      writeChunks limit path chunks (size + chunk.length) received

/-- A file part, staged under a new path: its size, its path and the received count. -/
def stagePart (config : UploadConfig) (limit : Nat) (part : Part) (received : Nat) :
    UploadRoutine (Nat × Path × Nat) := do
  let path ← temporaryPath config
  storage (.createNew path)
  let (size, received) ← writeChunks limit path part.chunks 0 received
  if part.complete then do
    storage (.flush path)
    return (size, path, received)
  else throw malformedBody

/-- A text part. -/
def readText (limit : Nat) (part : Part) (received : Nat) : Except HttpException (String × Nat) :=
  if part.complete then do
    let bytes := part.chunks.flatten
    let received ← receive limit received bytes
    match String.fromUTF8? ⟨bytes.toArray⟩ with
    | some value => .ok (value, received)
    | none => .error (badRequest "multipart text fields must be UTF-8")
  else .error malformedBody

/-- The body of the loop over the parts. -/
def parsePart (config : UploadConfig) (limit : Nat) (part : Part) (form : MultipartForm)
    (received : Nat) : UploadRoutine (MultipartForm × Nat) :=
  match part.name with
  | none => throw (badRequest "multipart part is missing a field name")
  | some name =>
    if part.fileName.isSome then do
      let (size, path, received) ← stagePart config limit part received
      let file : UploadedFile :=
        ⟨name, part.fileName, part.contentType, part.headers, size, some path⟩
      return (form.pushFile name file, received)
    else
      match readText limit part received with
      | .error e => throw e
      | .ok (value, received) => return (form.pushText name value, received)

/-- The loop over the parts; an error drops the form. -/
def parseParts (config : UploadConfig) (limit : Nat) (complete : Bool) :
    List Part → MultipartForm → Nat → UploadTask (Except HttpException MultipartForm)
  | [], form, _ =>
    if complete then return .ok form
    else do
      form.drop
      return .error malformedBody
  | part :: parts, form, received => do
    match ← (parsePart config limit part form received).run with
    | .ok (form, received) => parseParts config limit complete parts form received
    | .error e =>
      form.drop
      return .error e

section Parse

variable (parseBoundary : String → Option String) (multipart : String → Bytes → Multipart)

/-- `MultipartForm::parse`. -/
def MultipartForm.parse (contentType : String) (body : Bytes) (config : UploadConfig)
    (limit : Nat) : UploadTask (Except HttpException MultipartForm) :=
  match parseBoundary contentType with
  | none => return .error (badRequest "invalid multipart request boundary")
  | some boundary =>
    if limit < body.length then return .error (limitError limit)
    else do
      match ← (storage (.createDirAll config.tempDir)).run with
      | .error e => return .error e
      | .ok _ =>
        let body := multipart boundary body
        parseParts config limit body.complete body.parts .default 0

end Parse

/-! ## Moving a staged file -/

/-- The calls of `persist_to` after the path of the staged file is known. -/
def moveFile (source destination : Path) : UploadRoutine Path := do
  storage (.openFile source)
  storage (.createNew destination)
  storage (.copy source destination)
  storage (.flush destination)
  storage (.removeFile source)
  return destination

/-- `UploadedFile::persist_to`: an error drops the handle, and the staged file with it. -/
def UploadedFile.persistTo (file : UploadedFile) (destination : Path) :
    UploadTask (Except Fault Path) :=
  match file.tempPath with
  | none => return .error (.panic "uploaded file path is available until it is persisted")
  | some source => do
    match ← (moveFile source destination).run with
    | .ok destination => return .ok destination
    | .error e =>
      file.drop
      return .error (.exception e)

end Caelix
