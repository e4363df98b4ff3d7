import Mathlib.Algebra.Group.Nat.Defs
import Mathlib.Data.List.Nodup
import Mathlib.Data.Option.Basic
import Caelix.Lib.Fallible
import Caelix.Core.Response

/-!
# The response adapters

`to_actix_response` and `to_axum_response`, on the builders of their frameworks. These are not
part of the repository; the definitions state what their documentation says. A builder keeps
the fields of a header map: Actix replaces the values of a name when a header is inserted,
`http` appends, and both stop at the first invalid name or value.

* `foldlM_appendField`, `foldlM_insertField`: what the builders hold in the end.
* `responses_agree_iff`: the adapters build the same response exactly when all fields are
  valid, no name repeats, and both write the cookies alike.
-/

namespace Caelix

/-! ## Header fields -/

inductive HttpError where
  | invalidHeaderName
  | invalidHeaderValue
  deriving DecidableEq, Repr

/-- What `http` takes as a header name, in its normal form, and as a value. -/
structure HeaderSyntax where
  name : String → Option String
  value : String → Option HeaderValue
  name_contentType : name "content-type" = some "content-type"

/-- A name in its normal form and a value. -/
abbrev HeaderField := String × HeaderValue

namespace HeaderSyntax

variable (rules : HeaderSyntax)

/-- A field whose name is known to be valid. -/
def named (name value : String) : Except HttpError HeaderField :=
  match rules.value value with
  | none => .error .invalidHeaderValue
  | some value => .ok (name, value)

def field (header : String × String) : Except HttpError HeaderField :=
  match rules.name header.1 with
  | none => .error .invalidHeaderName
  | some name => rules.named name header.2

end HeaderSyntax

/-- A response of the frameworks. -/
structure RuntimeResponse where
  status : Nat
  headers : List HeaderField
  body : Bytes

namespace RuntimeResponse

/-- The `Set-Cookie` lines in order. -/
def setCookies (response : RuntimeResponse) : List HeaderValue :=
  (response.headers.filter fun field => field.1 = "set-cookie").map Prod.snd

end RuntimeResponse

/-! ## Cookies -/

/-- A cookie of the `cookie` crate. -/
structure RuntimeCookie where
  name : String
  value : String
  httpOnly : Bool
  secure : Bool
  sameSite : SameSite
  path : Option String
  domain : Option String
  maxAge : Option Nat
  expires : Option Int

/-- `time::Duration::MAX` in nanoseconds. -/
def timeDurationMax : Nat := (2 ^ 63 - 1) * 1000000000 + 999999999

/-- The cookie that both adapters hand to their version of the `cookie` crate. -/
def Cookie.runtime (cookie : Cookie) : RuntimeCookie where
  name := cookie.name
  value := cookie.value
  httpOnly := cookie.httpOnly
  secure := cookie.secure
  sameSite := cookie.sameSite
  path := cookie.path
  domain := cookie.domain
  maxAge := cookie.maxAge.map fun maxAge => min maxAge timeDurationMax
  expires := cookie.expires

/-- `to_header_value`; `encoded` is `encoded().to_string()` of the crate. -/
def Cookie.toHeaderValue (encoded : RuntimeCookie → String) (cookie : Cookie) : String :=
  encoded cookie.runtime

/-! ## Actix -/

namespace Actix

/-- `HeaderMap::insert`. -/
def insert (headers : List HeaderField) (field : HeaderField) : List HeaderField :=
  headers.filter (fun old => old.1 ≠ field.1) ++ [field]

/-- `HeaderMap::append`. -/
def append (headers : List HeaderField) (field : HeaderField) : List HeaderField :=
  headers ++ [field]

/-- `insert_header` of the builder; it does nothing after an error. -/
def insertHeader (headers : List HeaderField) (field : Except HttpError HeaderField) :
    Except HttpError (List HeaderField) := field.map (insert headers)

/-- `append_header` of the builder. -/
def appendHeader (headers : List HeaderField) (field : Except HttpError HeaderField) :
    Except HttpError (List HeaderField) := field.map (append headers)

/-- `StatusCode::from_u16`. -/
def statusFromU16 (status : Nat) : Option Nat :=
  if 100 ≤ status ∧ status < 1000 then some status else none

section Adapter

variable (rules : HeaderSyntax) (encoded : RuntimeCookie → String) (errorText : HttpError → Bytes)
  (textPlain : HeaderValue)

/-- The fields that the builder holds; an error ends the building. -/
def buildHeaders (response : HttpResponse) : Except HttpError (List HeaderField) := do
  let headers ← insertHeader [] (rules.named "content-type" response.contentType)
  let headers ← (response.headers.map rules.field).foldlM insertHeader headers
  (response.cookies.map fun cookie =>
    rules.named "set-cookie" (encoded cookie.runtime)).foldlM appendHeader headers

/-- `HttpResponse::from_error`. -/
def fromError (e : HttpError) : RuntimeResponse := ⟨500, [("content-type", textPlain)], errorText e⟩

def toActixResponse (response : HttpResponse) : RuntimeResponse :=
  match buildHeaders rules encoded response with
  | .ok headers => ⟨(statusFromU16 response.status).getD 500, headers, response.body⟩
  | .error e => fromError errorText textPlain e

end Adapter

end Actix

/-! ## Axum -/

namespace Axum

section Adapter

variable (rules : HeaderSyntax) (encoded : RuntimeCookie → String)
  (room : List HeaderField → Bool)

/-- `HeaderMap::try_append`; `none` is any error of the builder. -/
def tryAppend (headers : List HeaderField) (field : Except HttpError HeaderField) :
    Option (List HeaderField) :=
  match field with
  | .error _ => none
  | .ok field => if room headers then some (headers ++ [field]) else none

/-- The fields that are given to the builder, in order. -/
def fields (response : HttpResponse) : List (Except HttpError HeaderField) :=
  rules.field ("content-type", response.contentType) :: response.headers.map rules.field ++
    response.cookies.map fun cookie => rules.named "set-cookie" (cookie.toHeaderValue encoded)

def buildHeaders (response : HttpResponse) : Option (List HeaderField) :=
  (fields rules encoded response).foldlM (tryAppend room) []

def toAxumResponse (response : HttpResponse) : RuntimeResponse :=
  match buildHeaders rules encoded room response with
  | some headers => ⟨response.status, headers, response.body⟩
  | none => ⟨200, [], "Internal Server Error".toUTF8.toList⟩

end Adapter

end Axum

/-! ## Insertion -/

namespace Actix

variable {headers values : List HeaderField} {field : HeaderField}

theorem insert_fresh (h : field.1 ∉ headers.map Prod.fst) : insert headers field = headers ++ [field] := by
  unfold insert
  rw [List.filter_eq_self.mpr]
  intro old hOld
  have hNe : old.1 ≠ field.1 := fun hEq => h (hEq ▸ List.mem_map_of_mem hOld)
  simpa using hNe

theorem length_insert_le : (insert headers field).length ≤ headers.length + 1 := by
  unfold insert
  rw [List.length_append, List.length_singleton]
  exact Nat.add_le_add_right (List.length_filter_le ..) 1

/-- A field that replaces another one is not counted. -/
theorem length_insert_known (h : field.1 ∈ headers.map Prod.fst) :
    (insert headers field).length ≤ headers.length := by
  obtain ⟨old, hOld, hName⟩ := List.mem_map.mp h
  have hLess : (headers.filter fun old => old.1 ≠ field.1).length < headers.length :=
    List.length_filter_lt_length_iff_exists.mpr ⟨old, hOld, by simp [hName]⟩
  unfold insert
  rw [List.length_append, List.length_singleton]
  omega

theorem insertAll_fresh (h : (headers.map Prod.fst ++ values.map Prod.fst).Nodup) :
    values.foldl insert headers = headers ++ values := by
  induction values generalizing headers with
  | nil => rw [List.foldl_nil, List.append_nil]
  | cons field values ih =>
    have hFresh : field.1 ∉ headers.map Prod.fst := by
      intro hMem
      exact (List.nodup_append.mp h).2.2 _ hMem _ (List.mem_cons_self ..) rfl
    rw [List.foldl_cons, insert_fresh hFresh, ih, List.append_assoc, List.singleton_append]
    rwa [List.map_append, List.map_singleton, List.append_assoc, List.singleton_append]

theorem length_insertAll_le :
    (values.foldl insert headers).length ≤ headers.length + values.length := by
  induction values generalizing headers with
  | nil => exact Nat.le_refl _
  | cons field values ih =>
    have hFirst : (insert headers field).length ≤ headers.length + 1 := length_insert_le
    rw [List.foldl_cons, List.length_cons]
    exact Nat.le_trans ih (by omega)

/-- Nothing is replaced only when all names differ. -/
theorem nodup_of_length_insertAll (hHeaders : (headers.map Prod.fst).Nodup)
    (h : headers.length + values.length ≤ (values.foldl insert headers).length) :
    (headers.map Prod.fst ++ values.map Prod.fst).Nodup := by
  induction values generalizing headers with
  | nil => rwa [List.map_nil, List.append_nil]
  | cons field values ih =>
    rw [List.foldl_cons, List.length_cons] at h
    have hRest : _ ≤ (insert headers field).length + values.length := length_insertAll_le
    have hFresh : field.1 ∉ headers.map Prod.fst := by
      intro hKnown
      have hKept := length_insert_known hKnown
      omega
    rw [insert_fresh hFresh] at h
    have hNodup : ((headers ++ [field]).map Prod.fst).Nodup := by
      rw [List.map_append, List.map_singleton, List.nodup_middle, List.append_nil]
      exact List.nodup_cons.mpr ⟨hFresh, hHeaders⟩
    have hAll := ih hNodup (by rw [List.length_append, List.length_singleton]; omega)
    rwa [List.map_append, List.map_singleton, List.append_assoc, List.singleton_append] at hAll

end Actix

/-! ## What the builders hold -/

section Builders

variable {rules : HeaderSyntax} {encoded : RuntimeCookie → String}
  {room : List HeaderField → Bool} {response : HttpResponse}

/-- The results are all fields, and these are their values. -/
def AllValid (results : List (Except HttpError HeaderField)) (values : List HeaderField) : Prop :=
  results = values.map .ok

/-- The content type and the headers of a response. -/
def headerResults (rules : HeaderSyntax) (response : HttpResponse) :
    List (Except HttpError HeaderField) :=
  rules.named "content-type" response.contentType :: response.headers.map rules.field

def cookieResults (rules : HeaderSyntax) (encoded : RuntimeCookie → String)
    (response : HttpResponse) : List (Except HttpError HeaderField) :=
  response.cookies.map fun cookie => rules.named "set-cookie" (encoded cookie.runtime)

theorem foldl_append (headers values : List HeaderField) :
    values.foldl Actix.append headers = headers ++ values := by
  induction values generalizing headers with
  | nil => rw [List.foldl_nil, List.append_nil]
  | cons field values ih => rw [List.foldl_cons, ih, Actix.append, List.append_assoc]; rfl

theorem Actix.buildHeaders_ok_iff {built : List HeaderField} :
    Actix.buildHeaders rules encoded response = .ok built ↔
      ∃ headers cookies, AllValid (headerResults rules response) headers ∧
        AllValid (cookieResults rules encoded response) cookies ∧
        built = headers.foldl Actix.insert [] ++ cookies := by
  have hParts : Actix.buildHeaders rules encoded response =
      ((headerResults rules response).foldlM Actix.insertHeader [] >>= fun headers =>
        (cookieResults rules encoded response).foldlM Actix.appendHeader headers) := by
    unfold Actix.buildHeaders headerResults
    rw [List.foldlM_cons]
    cases Actix.insertHeader [] (rules.named "content-type" response.contentType) <;> rfl
  rw [hParts, Fallible.bind_ok_iff]
  constructor
  · rintro ⟨inserted, hHeaders, hCookies⟩
    obtain ⟨headers, hValid, rfl⟩ := Fallible.foldlM_map_ok_iff.mp hHeaders
    obtain ⟨cookies, hValidCookies, rfl⟩ := Fallible.foldlM_map_ok_iff.mp hCookies
    exact ⟨headers, cookies, hValid, hValidCookies, foldl_append ..⟩
  · rintro ⟨headers, cookies, hHeaders, hCookies, rfl⟩
    refine ⟨_, Fallible.foldlM_map_ok_iff.mpr ⟨headers, hHeaders, rfl⟩, ?_⟩
    exact Fallible.foldlM_map_ok_iff.mpr ⟨cookies, hCookies, (foldl_append ..).symm⟩

/-- There is room for each field after those before it. -/
def HasRoom (room : List HeaderField → Bool) : List HeaderField → List HeaderField → Prop
  | _, [] => True
  | before, field :: values => room before = true ∧ HasRoom room (before ++ [field]) values

theorem Axum.foldlM_tryAppend {headers built : List HeaderField}
    {results : List (Except HttpError HeaderField)} :
    results.foldlM (Axum.tryAppend room) headers = some built ↔
      ∃ values, AllValid results values ∧ HasRoom room headers values ∧ built = headers ++ values := by
  induction results generalizing headers with
  | nil =>
    constructor
    · intro h
      exact ⟨[], rfl, trivial, by rw [List.append_nil]; exact (Option.some.inj h).symm⟩
    · rintro ⟨values, hValues, -, rfl⟩
      rw [List.map_eq_nil_iff.mp hValues.symm, List.append_nil]
      rfl
  | cons result results ih =>
    rw [List.foldlM_cons]
    cases result with
    | error e =>
      refine iff_of_false nofun ?_
      rintro ⟨values, hValues, -⟩
      cases values <;> cases hValues
    | ok field =>
      cases hRoom : room headers with
      | false =>
        simp only [Axum.tryAppend, hRoom]
        refine iff_of_false nofun ?_
        rintro ⟨values, hValues, hFits, -⟩
        cases values with
        | nil => cases hValues
        | cons value values =>
          rw [HasRoom, hRoom] at hFits
          cases hFits.1
      | true =>
        simp only [Axum.tryAppend, hRoom]
        refine ih.trans ⟨?_, ?_⟩
        · rintro ⟨values, rfl, hFits, rfl⟩
          exact ⟨field :: values, rfl, ⟨hRoom, hFits⟩, by simp⟩
        · rintro ⟨values, hValues, hFits, rfl⟩
          cases values with
          | nil => cases hValues
          | cons value values =>
            obtain ⟨hField, hRest⟩ := List.cons.inj hValues
            cases hField
            exact ⟨values, hRest, hFits.2, by simp⟩

theorem Axum.buildHeaders_some_iff {built : List HeaderField} :
    Axum.buildHeaders rules encoded room response = some built ↔
      ∃ headers cookies, AllValid (headerResults rules response) headers ∧
        AllValid (cookieResults rules encoded response) cookies ∧
        HasRoom room [] (headers ++ cookies) ∧ built = headers ++ cookies := by
  have hFields : Axum.fields rules encoded response =
      headerResults rules response ++ cookieResults rules encoded response := by
    unfold Axum.fields headerResults HeaderSyntax.field
    rw [rules.name_contentType]
    rfl
  unfold Axum.buildHeaders
  rw [hFields, Axum.foldlM_tryAppend]
  constructor
  · rintro ⟨values, hValues, hRoom, rfl⟩
    obtain ⟨headers, cookies, rfl, hHeaders, hCookies⟩ := List.append_eq_map_iff.mp hValues
    exact ⟨headers, cookies, hHeaders.symm, hCookies.symm, hRoom, rfl⟩
  · rintro ⟨headers, cookies, hHeaders, hCookies, hRoom, rfl⟩
    refine ⟨headers ++ cookies, ?_, hRoom, rfl⟩
    unfold AllValid at *
    rw [List.map_append, hHeaders, hCookies]

end Builders

/-! ## Agreement -/

/-- `StatusCode::is_success`. -/
def Success (status : Nat) : Prop := 200 ≤ status ∧ status < 300

/-- The same status and body, the same fields, and the same `Set-Cookie` lines in order. -/
structure Agree (actix axum : RuntimeResponse) : Prop where
  status : actix.status = axum.status
  headers : actix.headers.Perm axum.headers
  setCookies : actix.setCookies = axum.setCookies
  body : actix.body = axum.body

section Adapters

variable (rules : HeaderSyntax) (actixEncoded coreEncoded : RuntimeCookie → String)
  (errorText : HttpError → Bytes) (textPlain : HeaderValue) (room : List HeaderField → Bool)

/-- The adapters agree, and neither answers with success when it cannot build the response. -/
def AdaptersAgree (response : HttpResponse) : Prop :=
  let actix := Actix.toActixResponse rules actixEncoded errorText textPlain response
  let axum := Axum.toAxumResponse rules coreEncoded room response
  Agree actix axum ∧
    (∀ e, Actix.buildHeaders rules actixEncoded response = .error e → ¬ Success actix.status) ∧
    (Axum.buildHeaders rules coreEncoded room response = none → ¬ Success axum.status)

/-- All fields of a response are valid and have room, no name repeats or is that of the
content type, and both versions of the `cookie` crate write its cookies alike. -/
structure Representable (response : HttpResponse) : Prop where
  fields : ∃ headers cookies, AllValid (headerResults rules response) headers ∧
    AllValid (cookieResults rules coreEncoded response) cookies ∧
    HasRoom room [] (headers ++ cookies)
  distinct : (some "content-type" :: response.headers.map fun header => rules.name header.1).Nodup
  cookies : ∀ cookie ∈ response.cookies,
    rules.value (actixEncoded cookie.runtime) = rules.value (cookie.toHeaderValue coreEncoded)

end Adapters

section Valid

variable {rules : HeaderSyntax} {encoded : RuntimeCookie → String} {response : HttpResponse}
  {values headers cookies : List HeaderField}

/-- What the fields determine is read off their values. -/
theorem AllValid.map_eq {α β : Type} {g : α → Except HttpError HeaderField} {p : α → β}
    {q : HeaderField → β} (hRead : ∀ x v, g x = .ok v → p x = q v) {l : List α}
    (h : AllValid (l.map g) values) : l.map p = values.map q := by
  unfold AllValid at h
  induction l generalizing values with
  | nil => rw [List.map_eq_nil_iff.mp h.symm]; rfl
  | cons x l ih =>
    cases values with
    | nil => cases h
    | cons v values =>
      obtain ⟨hFirst, hRest⟩ := List.cons.inj h
      rw [List.map_cons, List.map_cons, hRead x v hFirst, ih hRest]

theorem AllValid.unique {results : List (Except HttpError HeaderField)}
    (h : AllValid results values) (h' : AllValid results headers) : values = headers := by
  refine List.map_injective_iff.mpr ?_ (h.symm.trans h')
  intro v w hvw
  exact Except.ok.inj hvw

theorem named_ok {name value : String} {field : HeaderField}
    (h : rules.named name value = .ok field) : field.1 = name ∧ rules.value value = some field.2 := by
  unfold HeaderSyntax.named at h
  cases hValue : rules.value value with
  | none =>
    rw [hValue] at h
    cases h
  | some v =>
    rw [hValue] at h
    obtain rfl := Except.ok.inj h
    exact ⟨rfl, rfl⟩

theorem field_name {header : String × String} {field : HeaderField}
    (h : rules.field header = .ok field) : rules.name header.1 = some field.1 := by
  unfold HeaderSyntax.field at h
  cases hName : rules.name header.1 with
  | none =>
    rw [hName] at h
    cases h
  | some name =>
    rw [hName] at h
    rw [(named_ok h).1]

theorem header_names (h : AllValid (headerResults rules response) headers) :
    (some "content-type" :: response.headers.map fun header => rules.name header.1) =
      headers.map fun field => some field.1 := by
  unfold AllValid headerResults at h
  cases headers with
  | nil => cases h
  | cons field headers =>
    obtain ⟨hType, hHeaders⟩ := List.cons.inj h
    rw [List.map_cons, (named_ok hType).1]
    exact congrArg _ (AllValid.map_eq (fun _ _ => field_name) hHeaders)

theorem cookie_values (h : AllValid (cookieResults rules encoded response) cookies) :
    (response.cookies.map fun cookie => rules.value (encoded cookie.runtime)) =
      cookies.map fun field => some field.2 :=
  AllValid.map_eq (fun _ _ hNamed => (named_ok hNamed).2) h

theorem cookies_named (h : AllValid (cookieResults rules encoded response) cookies) :
    ∀ field ∈ cookies, field.1 = "set-cookie" := by
  intro field hField
  have hResult : .ok field ∈ cookieResults rules encoded response := by
    rw [h]
    exact List.mem_map_of_mem hField
  obtain ⟨cookie, -, hNamed⟩ := List.mem_map.mp hResult
  exact (named_ok hNamed).1

theorem length_cookies (h : AllValid (cookieResults rules encoded response) cookies) :
    cookies.length = response.cookies.length := by
  have hLength := congrArg List.length (cookie_values h)
  rw [List.length_map, List.length_map] at hLength
  exact hLength.symm

/-- The cookies are the last `Set-Cookie` lines. -/
theorem setCookies_append (h : AllValid (cookieResults rules encoded response) cookies)
    (status : Nat) (body : Bytes) :
    RuntimeResponse.setCookies ⟨status, headers ++ cookies, body⟩ =
      RuntimeResponse.setCookies ⟨status, headers, body⟩ ++ cookies.map Prod.snd := by
  have hAll : cookies.filter (fun field => field.1 = "set-cookie") = cookies := by
    rw [List.filter_eq_self]
    intro field hField
    simpa using cookies_named h field hField
  unfold RuntimeResponse.setCookies
  rw [List.filter_append, hAll, List.map_append]

end Valid

section Parity

variable {rules : HeaderSyntax} {actixEncoded coreEncoded : RuntimeCookie → String}
  {errorText : HttpError → Bytes} {textPlain : HeaderValue} {room : List HeaderField → Bool}
  {response : HttpResponse} {headers cookies : List HeaderField}

/-- Cookies that are written alike are valid alike. -/
theorem cookieResults_congr (h : ∀ cookie ∈ response.cookies,
    rules.value (actixEncoded cookie.runtime) = rules.value (cookie.toHeaderValue coreEncoded)) :
    cookieResults rules actixEncoded response = cookieResults rules coreEncoded response := by
  refine List.map_congr_left fun cookie hCookie => ?_
  have hValue : rules.value (actixEncoded cookie.runtime) = rules.value (coreEncoded cookie.runtime) :=
    h cookie hCookie
  unfold HeaderSyntax.named
  rw [hValue]

/-- A response with one field at least is not the error response of Actix. -/
theorem not_agree_fromError (hHeaders : AllValid (headerResults rules response) headers)
    (hCookies : AllValid (cookieResults rules coreEncoded response) cookies) {e : HttpError}
    (hActix : Actix.buildHeaders rules actixEncoded response = .error e) (status : Nat)
    (body : Bytes) :
    ¬ Agree (Actix.fromError errorText textPlain e) ⟨status, headers ++ cookies, body⟩ := by
  intro hAgree
  have hLength := hAgree.headers.length_eq
  have hSome : headers.length = response.headers.length + 1 := by
    have hNames := congrArg List.length (header_names hHeaders)
    simpa using hNames.symm
  rw [Actix.fromError, List.length_singleton, List.length_append, hSome, length_cookies hCookies]
    at hLength
  have hNone : response.cookies = [] := List.length_eq_zero_iff.mp (by omega)
  have hEmpty : AllValid (cookieResults rules actixEncoded response) [] := by
    unfold AllValid cookieResults
    rw [hNone]
    rfl
  have hBuilt := Actix.buildHeaders_ok_iff.mpr ⟨headers, [], hHeaders, hEmpty, rfl⟩
  rw [hActix] at hBuilt
  cases hBuilt

/-- Two builders that have all fields hold the same ones when no name repeats and the cookies
are written alike. -/
theorem agree_iff {status : Nat} {body : Bytes} {actixCookies : List HeaderField}
    (hHeaders : AllValid (headerResults rules response) headers)
    (hActix : AllValid (cookieResults rules actixEncoded response) actixCookies)
    (hCookies : AllValid (cookieResults rules coreEncoded response) cookies) :
    Agree ⟨status, headers.foldl Actix.insert [] ++ actixCookies, body⟩
        ⟨status, headers ++ cookies, body⟩ ↔
      (some "content-type" :: response.headers.map fun header => rules.name header.1).Nodup ∧
        ∀ cookie ∈ response.cookies,
          rules.value (actixEncoded cookie.runtime) =
            rules.value (cookie.toHeaderValue coreEncoded) := by
  have hNames : (some "content-type" :: response.headers.map fun header => rules.name header.1).Nodup ↔
      (headers.map Prod.fst).Nodup := by
    rw [header_names hHeaders, ← List.nodup_map_iff (Option.some_injective String), List.map_map]
    rfl
  rw [hNames]
  constructor
  · intro hAgree
    have hDistinct : (headers.map Prod.fst).Nodup := by
      have hLength := hAgree.headers.length_eq
      rw [List.length_append, List.length_append, length_cookies hActix, length_cookies hCookies]
        at hLength
      have hNone : (([] : List HeaderField).map Prod.fst).Nodup := List.nodup_nil
      have hKept : ([] : List HeaderField).length + headers.length ≤
          (headers.foldl Actix.insert []).length := by
        rw [List.length_nil]
        omega
      exact Actix.nodup_of_length_insertAll hNone hKept
    refine ⟨hDistinct, ?_⟩
    have hSame := hAgree.setCookies
    rw [Actix.insertAll_fresh (by simpa using hDistinct), List.nil_append,
      setCookies_append hActix, setCookies_append hCookies] at hSame
    have hValues : (actixCookies.map fun field => some field.2) =
        cookies.map fun field => some field.2 := by
      have hLines := congrArg (List.map some) (List.append_cancel_left hSame)
      rwa [List.map_map, List.map_map] at hLines
    rw [← cookie_values hActix, ← cookie_values hCookies] at hValues
    exact List.map_inj_left.mp hValues
  · rintro ⟨hDistinct, hAlike⟩
    have hSame : actixCookies = cookies :=
      AllValid.unique hActix (cookieResults_congr hAlike ▸ hCookies)
    rw [Actix.insertAll_fresh (by simpa using hDistinct), List.nil_append, hSame]
    exact ⟨rfl, .refl _, rfl, rfl⟩

/-- For every response with a status code: both adapters build the same response, and none
that fails to build it answers with success, if and only if all fields are valid and have
room, no header repeats another one or the content type, and the two versions of the `cookie`
crate write the cookies alike. -/
theorem responses_agree_iff (hStatus : 100 ≤ response.status ∧ response.status < 1000) :
    AdaptersAgree rules actixEncoded coreEncoded errorText textPlain room response ↔
      Representable rules actixEncoded coreEncoded room response := by
  unfold AdaptersAgree
  have hSameStatus : (Actix.statusFromU16 response.status).getD 500 = response.status := by
    rw [Actix.statusFromU16, if_pos hStatus]
    rfl
  cases hAxum : Axum.buildHeaders rules coreEncoded room response with
  | none =>
    -- Axum answers 200 with the text of an error.
    refine iff_of_false ?_ ?_
    · rintro ⟨-, -, hFailure⟩
      have hOk : (Axum.toAxumResponse rules coreEncoded room response).status = 200 := by
        rw [Axum.toAxumResponse, hAxum]
      exact hFailure rfl ⟨by omega, by omega⟩
    · rintro ⟨⟨headers, cookies, hHeaders, hCookies, hRoom⟩, -, -⟩
      have hBuilt := Axum.buildHeaders_some_iff.mpr ⟨headers, cookies, hHeaders, hCookies, hRoom, rfl⟩
      rw [hAxum] at hBuilt
      cases hBuilt
  | some built =>
    obtain ⟨headers, cookies, hHeaders, hCookies, hRoom, rfl⟩ := Axum.buildHeaders_some_iff.mp hAxum
    cases hActix : Actix.buildHeaders rules actixEncoded response with
    | error e =>
      simp only [Actix.toActixResponse, Axum.toAxumResponse, hActix, hAxum]
      refine iff_of_false ?_ ?_
      · rintro ⟨hAgree, -⟩
        exact not_agree_fromError hHeaders hCookies hActix _ _ hAgree
      · rintro ⟨-, -, hAlike⟩
        have hValid : AllValid (cookieResults rules actixEncoded response) cookies :=
          cookieResults_congr hAlike ▸ hCookies
        have hBuilt := Actix.buildHeaders_ok_iff.mpr ⟨headers, cookies, hHeaders, hValid, rfl⟩
        rw [hActix] at hBuilt
        cases hBuilt
    | ok built =>
      obtain ⟨headers', actixCookies, hHeaders', hValid, rfl⟩ := Actix.buildHeaders_ok_iff.mp hActix
      obtain rfl := AllValid.unique hHeaders' hHeaders
      simp only [Actix.toActixResponse, Axum.toAxumResponse, hActix, hAxum, hSameStatus]
      constructor
      · rintro ⟨hAgree, -⟩
        obtain ⟨hDistinct, hAlike⟩ := (agree_iff hHeaders' hValid hCookies).mp hAgree
        exact ⟨⟨headers', cookies, hHeaders', hCookies, hRoom⟩, hDistinct, hAlike⟩
      · rintro ⟨-, hDistinct, hAlike⟩
        exact ⟨(agree_iff hHeaders' hValid hCookies).mpr ⟨hDistinct, hAlike⟩, nofun, nofun⟩

end Parity

/-! ## Some responses -/

/-- Names are tokens in lower case; values hold no control characters. -/
def tokenRules : HeaderSyntax where
  name s :=
    if s.toList.all (fun c => c.isAlphanum || c == '-') && !s.isEmpty then some s.toLower else none
  value s := if s.toUTF8.toList.all fun b => 32 ≤ b && b != 127 then some s.toUTF8.toList else none
  name_contentType := by decide +kernel

/-- A cookie with the default attributes. -/
def encodedDefault (cookie : RuntimeCookie) : String :=
  cookie.name ++ "=" ++ cookie.value ++ "; HttpOnly; SameSite=Lax; Secure; Path=/"

def errorTexts : HttpError → Bytes
  | .invalidHeaderName => "invalid HTTP header name".toUTF8.toList
  | .invalidHeaderValue => "failed to parse header value".toUTF8.toList

def textPlainUtf8 : HeaderValue := "text/plain; charset=utf-8".toUTF8.toList

def createdResponse : HttpResponse :=
  ((HttpResponse.new 201 [111, 107] "text/plain").insertHeader "X-Request-Id" "abc").insertCookie
    (.new "session" "secret")

theorem responses_agree_created :
    AdaptersAgree tokenRules encodedDefault encodedDefault errorTexts textPlainUtf8 (fun _ => true)
      createdResponse := by
  have hHeaders : AllValid (headerResults tokenRules createdResponse)
      [("content-type", "text/plain".toUTF8.toList), ("x-request-id", "abc".toUTF8.toList)] := by
    unfold AllValid
    decide +kernel
  have hCookies : AllValid (cookieResults tokenRules encodedDefault createdResponse)
      [("set-cookie", "session=secret; HttpOnly; SameSite=Lax; Secure; Path=/".toUTF8.toList)] := by
    unfold AllValid
    decide +kernel
  exact (responses_agree_iff ⟨by decide, by decide⟩).mpr
    ⟨⟨_, _, hHeaders, hCookies, rfl, rfl, rfl, trivial⟩, by decide +kernel, fun _ _ => rfl⟩

/-- Two headers of one name: Actix keeps the last of them, Axum both. -/
def taggedResponse : HttpResponse :=
  ((HttpResponse.new 200 [] "text/plain").insertHeader "X-Tag" "a").insertHeader "X-Tag" "b"

/-- A header whose name has a space in it: Axum answers with status 200. -/
def unnamedResponse : HttpResponse :=
  (HttpResponse.new 500 [] "text/plain").insertHeader "X Tag" "a"

theorem responses_differ :
    ¬ AdaptersAgree tokenRules encodedDefault encodedDefault errorTexts textPlainUtf8 (fun _ => true)
        taggedResponse ∧
      ¬ AdaptersAgree tokenRules encodedDefault encodedDefault errorTexts textPlainUtf8
        (fun _ => true) unnamedResponse := by
  constructor
  · rintro ⟨hAgree, -⟩
    have hLength := hAgree.headers.length_eq
    revert hLength
    decide +kernel
  · rintro ⟨hAgree, -⟩
    have hStatus := hAgree.status
    revert hStatus
    decide +kernel

end Caelix
