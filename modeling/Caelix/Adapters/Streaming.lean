import Mathlib.Data.Seq.Basic
import Caelix.Adapters.Responses

/-!
# Streamed responses

The branch of `to_axum_response` and `to_actix_response` for a body that is a stream. Axum
leaves the errors of the stream out, Actix passes them on, and both frameworks send the
chunks of the body that they are given up to its first error.

* `Actix.endsAtFirstError`: Actix sends what comes before the first error.
* `axum_ends_iff`: Axum does so exactly when no chunk follows an error.
-/

namespace Caelix

abbrev BodyItem := Except HttpException Bytes

/-- `BoxBodyStream`; it may go on for ever. -/
abbrev BodyStream := Stream'.Seq BodyItem

/-- A response with `ResponseBody::Streaming`; `head` has its other fields. -/
structure StreamingResponse where
  head : HttpResponse
  stream : BodyStream

/-- A response of the frameworks. `frames n` is what has been sent of the body when `n`
items of the stream have been taken. -/
structure RuntimeStreaming where
  status : Nat
  headers : List HeaderField
  frames : Nat → List Bytes

/-- The chunks before the first error. -/
def chunksBeforeError {ε : Type} : List (Except ε Bytes) → List Bytes
  | .ok chunk :: items => chunk :: chunksBeforeError items
  | .error _ :: _ => []
  | [] => []

namespace Actix

/-- `error::ErrorInternalServerError`, with its text. -/
structure StreamError where
  message : String
  deriving DecidableEq, Repr

/-- The items of `builder.streaming(..)`, from those of the stream. -/
def streamItems (items : List BodyItem) : List (Except StreamError Bytes) :=
  items.map fun chunk => chunk.mapError fun _ => ⟨"Internal Server Error"⟩

section

variable (rules : HeaderSyntax) (encoded : RuntimeCookie → String) (errorText : HttpError → Bytes)
  (textPlain : HeaderValue)

def toActixStreaming (response : StreamingResponse) : RuntimeStreaming :=
  match buildHeaders rules encoded response.head with
  | .ok headers =>
    ⟨(statusFromU16 response.head.status).getD 500, headers,
      fun n => chunksBeforeError (streamItems (response.stream.take n))⟩
  | .error e =>
    let failed := fromError errorText textPlain e
    ⟨failed.status, failed.headers, fun _ => [failed.body]⟩

end

end Actix

namespace Axum

/-- One item of the closure of `filter_map`; an error is left out. -/
def keepChunk : BodyItem → Option (Except Empty Bytes)
  | .ok chunk => some (.ok chunk)
  | .error _ => none

/-- The items of `Body::from_stream(..)`, from those of the stream. -/
def streamItems (items : List BodyItem) : List (Except Empty Bytes) := items.filterMap keepChunk

section

variable (rules : HeaderSyntax) (encoded : RuntimeCookie → String)
  (room : List HeaderField → Bool)

def toAxumStreaming (response : StreamingResponse) : RuntimeStreaming :=
  match buildHeaders rules encoded room response.head with
  | some headers =>
    ⟨response.head.status, headers,
      fun n => chunksBeforeError (streamItems (response.stream.take n))⟩
  | none => ⟨200, [], fun _ => ["Internal Server Error".toUTF8.toList]⟩

end

end Axum

/-! ## The first error -/

/-- An error is among the items. -/
def HasError (items : List BodyItem) : Prop := ∃ e, .error e ∈ items

/-- The body ends at the first error of the stream: it has the bytes of the chunks before
it, and nothing is sent from then on. -/
structure EndsAtFirstError (stream : BodyStream) (frames : Nat → List Bytes) : Prop where
  bytes : ∀ n, (frames n).flatten = (chunksBeforeError (stream.take n)).flatten
  closed : ∀ n m, n ≤ m → HasError (stream.take n) → frames m = frames n

theorem chunksBeforeError_append {items later : List BodyItem} (h : HasError items) :
    chunksBeforeError (items ++ later) = chunksBeforeError items := by
  obtain ⟨e, he⟩ := h
  induction items with
  | nil => cases he
  | cons item items ih =>
    cases item with
    | error e' => rfl
    | ok chunk =>
      rw [List.cons_append, chunksBeforeError, chunksBeforeError,
        ih ((List.mem_cons.mp he).resolve_left nofun)]

theorem take_succ (stream : BodyStream) (n : Nat) :
    stream.take (n + 1) = stream.take n ++ (stream.get? n).toList := by
  induction n generalizing stream with
  | zero =>
    cases stream using Stream'.Seq.recOn with
    | nil => rfl
    | cons item stream => rfl
  | succ n ih =>
    cases stream using Stream'.Seq.recOn with
    | nil => rfl
    | cons item stream =>
      rw [Stream'.Seq.take_succ_cons, Stream'.Seq.take_succ_cons, ih, List.cons_append,
        Stream'.Seq.get?_cons_succ]

theorem take_prefix (stream : BodyStream) {n m : Nat} (h : n ≤ m) :
    ∃ later, stream.take m = stream.take n ++ later := by
  induction m, h using Nat.le_induction with
  | base => exact ⟨[], (List.append_nil _).symm⟩
  | succ m _ ih =>
    obtain ⟨later, hLater⟩ := ih
    exact ⟨later ++ (stream.get? m).toList, by rw [take_succ, hLater, List.append_assoc]⟩

/-- What stands before the first error is a body that ends there. -/
theorem endsAtFirstError_chunks (stream : BodyStream) :
    EndsAtFirstError stream fun n => chunksBeforeError (stream.take n) where
  bytes _ := rfl
  closed n m hLe hError := by
    obtain ⟨later, hLater⟩ := take_prefix stream hLe
    rw [hLater, chunksBeforeError_append hError]

/-! ## The adapters -/

/-- Errors that are passed on end the body. -/
theorem Actix.sent_eq (items : List BodyItem) :
    chunksBeforeError (Actix.streamItems items) = chunksBeforeError items := by
  induction items with
  | nil => rfl
  | cons item items ih =>
    cases item with
    | error e => rfl
    | ok chunk => exact congrArg (chunk :: ·) ih

/-- No item of the body of Axum is an error, so all chunks of the stream are sent. -/
theorem Axum.sent_eq (items : List BodyItem) :
    chunksBeforeError (Axum.streamItems items) = items.filterMap Except.toOption := by
  induction items with
  | nil => rfl
  | cons item items ih =>
    cases item with
    | error e => exact ih
    | ok chunk => exact congrArg (chunk :: ·) ih

theorem sent_eq_of_noChunk {items : List BodyItem}
    (h : ∀ (i j : Nat) (e : HttpException) (chunk : Bytes),
      items[i]? = some (.error e) → items[j]? = some (.ok chunk) → j < i) :
    items.filterMap Except.toOption = chunksBeforeError items := by
  induction items with
  | nil => rfl
  | cons item items ih =>
    cases item with
    | ok chunk =>
      refine congrArg (chunk :: ·) (ih ?_)
      intro i j e chunk' hi hj
      exact Nat.lt_of_succ_lt_succ (h (i + 1) (j + 1) e chunk' hi hj)
    | error e =>
      refine List.filterMap_eq_nil_iff.mpr ?_
      intro item hItem
      cases item with
      | error e' => rfl
      | ok chunk =>
        obtain ⟨j, hj⟩ := List.mem_iff_getElem?.mp hItem
        exact absurd (h 0 j e chunk rfl hj) (Nat.not_lt_zero _)

/-- No chunk follows an error. -/
def NoChunkAfterError (stream : BodyStream) : Prop :=
  ∀ i j e chunk, stream.get? i = some (.error e) → stream.get? j = some (.ok chunk) → j < i

theorem sent_take {stream : BodyStream} (h : NoChunkAfterError stream) (n : Nat) :
    (stream.take n).filterMap Except.toOption = chunksBeforeError (stream.take n) := by
  apply sent_eq_of_noChunk
  intro i j e chunk hi hj
  rw [Stream'.Seq.getElem?_take] at hi hj
  by_cases hin : i < n
  · by_cases hjn : j < n
    · rw [if_pos hin] at hi
      rw [if_pos hjn] at hj
      exact h i j e chunk hi hj
    · rw [if_neg hjn] at hj
      cases hj
  · rw [if_neg hin] at hi
    cases hi

section Adapters

variable {rules : HeaderSyntax} {encoded : RuntimeCookie → String} {errorText : HttpError → Bytes}
  {textPlain : HeaderValue} {room : List HeaderField → Bool} {response : StreamingResponse}
  {headers : List HeaderField}

theorem Actix.endsAtFirstError (h : Actix.buildHeaders rules encoded response.head = .ok headers) :
    EndsAtFirstError response.stream
      (Actix.toActixStreaming rules encoded errorText textPlain response).frames := by
  unfold Actix.toActixStreaming
  rw [h]
  simp only [Actix.sent_eq]
  exact endsAtFirstError_chunks response.stream

theorem Axum.frames_eq (h : Axum.buildHeaders rules encoded room response.head = some headers)
    (n : Nat) : (Axum.toAxumStreaming rules encoded room response).frames n =
      (response.stream.take n).filterMap Except.toOption := by
  unfold Axum.toAxumStreaming
  rw [h]
  exact Axum.sent_eq _

/-- For every response whose headers are valid: the body that Axum sends ends at the first
error of the stream if and only if no chunk follows an error. -/
theorem axum_ends_iff (h : Axum.buildHeaders rules encoded room response.head = some headers) :
    EndsAtFirstError response.stream (Axum.toAxumStreaming rules encoded room response).frames ↔
      NoChunkAfterError response.stream := by
  constructor
  · intro hEnds i j e chunk hi hj
    by_contra hLe
    have hij : i < j := by
      rcases Nat.lt_or_eq_of_le (Nat.le_of_not_lt hLe) with hlt | rfl
      · exact hlt
      · rw [hi] at hj
        cases hj
    -- the chunk at `j` is one frame more
    have hClosed := hEnds.closed j (j + 1) (Nat.le_succ j) ⟨e, Stream'.Seq.get?_mem_take hij hi⟩
    rw [Axum.frames_eq h, Axum.frames_eq h, take_succ, hj, List.filterMap_append] at hClosed
    have hLength := congrArg List.length hClosed
    rw [List.length_append] at hLength
    have hOne : ((some (.ok chunk : BodyItem)).toList.filterMap Except.toOption).length = 1 := rfl
    omega
  · intro hNone
    have hFrames : (Axum.toAxumStreaming rules encoded room response).frames =
        fun n => chunksBeforeError (response.stream.take n) := by
      funext n
      rw [Axum.frames_eq h, sent_take hNone]
    rw [hFrames]
    exact endsAtFirstError_chunks response.stream

end Adapters

/-- A download that fails at its end. -/
def failedDownload : StreamingResponse where
  head := HttpResponse.new 200 [] "text/plain"
  stream := Stream'.Seq.ofList [.ok [104, 105], .error (.new 500 "Internal Server Error" "disk")]

theorem axum_ends_download :
    EndsAtFirstError failedDownload.stream
      (Axum.toAxumStreaming tokenRules encodedDefault (fun _ => true) failedDownload).frames := by
  have hHeaders : Axum.buildHeaders tokenRules encodedDefault (fun _ => true) failedDownload.head =
      some [("content-type", "text/plain".toUTF8.toList)] := by decide +kernel
  apply (axum_ends_iff hHeaders).mpr
  intro i j e chunk hi hj
  unfold failedDownload at hi hj
  rw [Stream'.Seq.ofList_get?] at hi hj
  match i, j with
  | 0, _ => cases hi
  | _ + 1, 0 => exact Nat.succ_pos _
  | _ + 1, 1 => cases hj
  | _ + 1, _ + 2 => cases hj

/-- An error with a chunk after it. -/
def brokenDownload : StreamingResponse where
  head := HttpResponse.new 200 [] "text/plain"
  stream := Stream'.Seq.ofList
    [.ok [97], .error (.new 500 "Internal Server Error" "disk"), .ok [98]]

/-- The chunk after the error is sent. -/
theorem axum_continues :
    ¬ EndsAtFirstError brokenDownload.stream
      (Axum.toAxumStreaming tokenRules encodedDefault (fun _ => true) brokenDownload).frames := by
  intro h
  have hBytes := h.bytes 3
  revert hBytes
  decide +kernel

end Caelix
