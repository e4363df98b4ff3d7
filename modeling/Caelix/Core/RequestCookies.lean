import Caelix.Lib.Percent
import Caelix.Core.ThrottleTracker
import Caelix.Adapters.Responses

/-!
# Cookies of a request

`RequestContext::cookie` reads the `Cookie` lines of a request, which the controller macro
has joined. The `cookie` crate, which renders cookies and decodes names and values, is a
parameter.

* `cookie_lookup`: a cookie is found under its name, and malformed segments do not matter.
-/

namespace Caelix

open Table

/-- `split_once`. -/
def splitOnce (c : Char) (s : List Char) : Option (List Char × List Char) :=
  match s.dropWhile (· != c) with
  | [] => none
  | _ :: later => some (s.takeWhile (· != c), later)

/-- `entry(key).or_insert_with(..)`. -/
def orInsert (cookies : Table String String) (pair : String × String) : Table String String :=
  match cookies.lookup pair.1 with
  | some _ => cookies
  | none => cookies.insert pair.1 pair.2

section Parser

-- `Cookie::parse_encoded`: the decoded name and value of a cookie, or an error.
variable (parseEncoded : String → Option (String × String))

/-- One turn of the loop of `parse_cookies`; `none` goes on with the next segment. -/
def parseSegment (segment : List Char) : Option (String × String) := do
  let (name, value) ← splitOnce '=' (trim segment)
  let name := trim name
  if name.isEmpty then none
  else
    let (name, _) ← parseEncoded (String.ofList name ++ "=")
    let (_, value) ← parseEncoded ("value=" ++ String.ofList (trim value))
    some (name, value)

/-- The segments between the semicolons of a header. -/
def cookieSegments (header : Option String) : List (List Char) :=
  header.toList.flatMap fun value => value.toList.splitOn ';'

def parseCookies (header : Option String) : Table String String :=
  ((cookieSegments header).filterMap (parseSegment parseEncoded)).foldl orInsert ∅

/-- `RequestContext::cookie`; the parsed cookies are kept, and the headers do not change. -/
def RequestContext.cookie (ctx : RequestContext) (name : String) : Option String :=
  (parseCookies parseEncoded (ctx.headers.lookup "cookie")).lookup name

/-- A segment without `=`, with an empty name, or with a name or value that does not decode. -/
def MalformedSegment (segment : List Char) : Prop :=
  '=' ∉ trim segment ∨ ∃ name value, splitOnce '=' (trim segment) = some (name, value) ∧
    (trim name = [] ∨ parseEncoded (String.ofList (trim name) ++ "=") = none ∨
      parseEncoded ("value=" ++ String.ofList (trim value)) = none)

end Parser

/-! ## The crate -/

/-- What the `cookie` crate does with percent-encoded cookies. `encode` is its encoding of a
name or a value; decoding undoes it, and it leaves no separators and no whitespace. -/
structure CookieCodec where
  encode : String → String
  encoded : RuntimeCookie → String
  parseEncoded : String → Option (String × String)
  encode_plain : ∀ s, ∀ c ∈ (encode s).toList, c ≠ ';' ∧ c ≠ '=' ∧ isWhitespace c = false
  encoded_eq : ∀ cookie, ∃ attributes, encoded cookie =
    encode cookie.name ++ "=" ++ encode cookie.value ++ attributes ∧
      (attributes = "" ∨ ∃ more, attributes = ";" ++ more)
  parse_name : ∀ name, name ≠ "" → parseEncoded (encode name ++ "=") = some (name, "")
  parse_value : ∀ value, parseEncoded ("value=" ++ encode value) = some ("value", value)
  parse_unnamed : ∀ value, parseEncoded ("=" ++ value) = none

/-- What a client keeps of a `Set-Cookie` value and sends back. -/
def CookieCodec.pairText (codec : CookieCodec) (cookie : Cookie) : String :=
  String.ofList ((cookie.toHeaderValue codec.encoded).toList.takeWhile (· != ';'))

/-- A `Cookie` line. -/
def CookieCodec.cookieLine (codec : CookieCodec) (cookies : List Cookie) : String :=
  "; ".intercalate (cookies.map codec.pairText)

/-- The values of the `Cookie` lines of a request, in the order of their arrival. -/
def cookieLines (lines : List HeaderLine) : List String :=
  lines.filterMap fun line => if line.1 = "cookie" then HeaderValue.toStr line.2 else none

/-! ## Lookup -/

theorem lookup_orInsert (cookies : Table String String) (pair : String × String) (name : String) :
    (orInsert cookies pair).lookup name =
      (cookies.lookup name).or (if pair.1 = name then some pair.2 else none) := by
  unfold orInsert
  cases hKnown : cookies.lookup pair.1 with
  | some value =>
    by_cases hName : pair.1 = name
    · rw [← hName, hKnown]
      rfl
    · rw [if_neg hName, Option.or_none]
  | none =>
    by_cases hName : pair.1 = name
    · rw [← hName, hKnown]
      simp
    · dsimp only
      rw [AList.lookup_insert_ne (Ne.symm hName), if_neg hName, Option.or_none]

/-- The first pair of a name wins. -/
theorem lookup_orInsert_foldl (pairs : List (String × String)) (cookies : Table String String)
    (name : String) : (pairs.foldl orInsert cookies).lookup name =
      (cookies.lookup name).or ((pairs.find? fun pair => pair.1 = name).map Prod.snd) := by
  induction pairs generalizing cookies with
  | nil => simp
  | cons pair pairs ih =>
    rw [List.foldl_cons, ih, lookup_orInsert, Option.or_assoc]
    by_cases hName : pair.1 = name
    · simp [hName]
    · simp [hName]

section Segments

variable {parseEncoded : String → Option (String × String)}

theorem cookie_eq (ctx : RequestContext) (name : String) :
    ctx.cookie parseEncoded name =
      (((cookieSegments (ctx.headers.lookup "cookie")).filterMap
        (parseSegment parseEncoded)).find? fun pair => pair.1 = name).map Prod.snd := by
  unfold RequestContext.cookie parseCookies
  rw [lookup_orInsert_foldl, AList.lookup_empty, Option.none_or]

theorem MalformedSegment.skipped {segment : List Char} (h : MalformedSegment parseEncoded segment) :
    parseSegment parseEncoded segment = none := by
  unfold parseSegment
  rcases h with hNone | ⟨name, value, hSplit, h⟩
  · have hSplit : splitOnce '=' (trim segment) = none := by
      unfold splitOnce
      have hDrop : (trim segment).dropWhile (· != '=') = [] := by
        rw [List.dropWhile_eq_nil_iff]
        intro c hc
        simpa using fun hEq : c = '=' => hNone (hEq ▸ hc)
      rw [hDrop]
    rw [hSplit]
    rfl
  · rw [hSplit]
    by_cases hEmpty : trim name = []
    · simp [hEmpty]
    · rcases h with h | h | h
      · exact absurd h hEmpty
      · simp [hEmpty, h]
      · cases hName : parseEncoded (String.ofList (trim name) ++ "=") with
        | none => simp [hEmpty, hName]
        | some pair => simp [hEmpty, hName, h]

/-- A header with one more segment, which is malformed, has the same cookies. -/
theorem cookie_insert {ctx ctx' : RequestContext} {before after : List (List Char)}
    {segment : List Char} (hSegment : MalformedSegment parseEncoded segment)
    (h : cookieSegments (ctx.headers.lookup "cookie") = before ++ after)
    (h' : cookieSegments (ctx'.headers.lookup "cookie") = before ++ segment :: after)
    (name : String) : ctx'.cookie parseEncoded name = ctx.cookie parseEncoded name := by
  rw [cookie_eq, cookie_eq, h, h', List.filterMap_append, List.filterMap_append,
    List.filterMap_cons_none hSegment.skipped]

theorem parseSegment_space (segment : List Char) :
    parseSegment parseEncoded (' ' :: segment) = parseSegment parseEncoded segment := by
  unfold parseSegment
  rw [trim_space]

/-- The cookies of a header value. -/
def cookiePairs (parseEncoded : String → Option (String × String)) (value : String) :
    List (String × String) :=
  (value.toList.splitOn ';').filterMap (parseSegment parseEncoded)

/-- A value that is appended after a semicolon and a space adds its own cookies. -/
theorem cookiePairs_join (parseEncoded : String → Option (String × String))
    (first second : String) :
    cookiePairs parseEncoded (first ++ "; " ++ second) =
      cookiePairs parseEncoded first ++ cookiePairs parseEncoded second := by
  have hText : (first ++ "; " ++ second).toList =
      first.toList ++ ';' :: ' ' :: second.toList := by simp
  unfold cookiePairs
  rw [hText, List.splitOn_append_cons_self, List.filterMap_append,
    List.splitOn_cons_eq_if_modifyHead]
  cases hSecond : second.toList.splitOn ';' with
  | nil => exact absurd hSecond (List.splitOn_ne_nil _ _)
  | cons segment later => simp [List.filterMap_cons, parseSegment_space]

/-- The header that the context holds has the cookies of these lines. -/
def MergedCookies (parseEncoded : String → Option (String × String))
    (headers : Table String String) (values : List String) : Prop :=
  (cookieSegments (headers.lookup "cookie")).filterMap (parseSegment parseEncoded) =
    values.flatMap (cookiePairs parseEncoded)

theorem MergedCookies.addHeader {headers : Table String String} {values : List String}
    (h : MergedCookies parseEncoded headers values) (name value : String) :
    MergedCookies parseEncoded (addHeader headers name value)
      (values ++ if name = "cookie" then [value] else []) := by
  unfold MergedCookies at h ⊢
  by_cases hCookie : name = "cookie"
  · subst hCookie
    simp only [Caelix.addHeader, if_true, AList.lookup_insert]
    rw [List.flatMap_append, ← h]
    cases headers.lookup "cookie" with
    | none => simp [cookieSegments, cookiePairs]
    | some existing =>
      have hJoin := cookiePairs_join parseEncoded existing value
      simpa [cookieSegments, cookiePairs] using hJoin
  · rw [lookup_addHeader_ne hCookie, if_neg hCookie, List.append_nil]
    exact h

/-- The context holds the cookies of all lines, in the order of their arrival. -/
theorem requestHeaders_cookies {lines : List HeaderLine} {headers : Table String String}
    (h : requestHeaders lines = .ok headers) :
    MergedCookies parseEncoded headers (cookieLines lines) := by
  have hStart : MergedCookies parseEncoded ∅ [] := rfl
  exact addLine_foldlM_keeps (fun _ _ name value h => h.addHeader name value) hStart h

end Segments

/-! ## Rendered cookies -/

theorem splitOnce_append {c : Char} {name value : List Char} (h : c ∉ name) :
    splitOnce c (name ++ c :: value) = some (name, value) := by
  have hName : ∀ d ∈ name, (d != c) = true := by
    intro d hd
    simpa using fun hEq : d = c => h (hEq ▸ hd)
  unfold splitOnce
  rw [List.dropWhile_append_of_pos hName, List.takeWhile_append_of_pos hName]
  simp

namespace CookieCodec

variable (codec : CookieCodec)

theorem encode_ne {name : String} (h : name ≠ "") : codec.encode name ≠ "" := by
  intro hEmpty
  have hName := codec.parse_name name h
  rw [hEmpty] at hName
  cases (codec.parse_unnamed "").symm.trans hName

/-- The pair of a cookie, without its attributes. -/
theorem pairText_toList (cookie : Cookie) : (codec.pairText cookie).toList =
    (codec.encode cookie.name).toList ++ '=' :: (codec.encode cookie.value).toList := by
  obtain ⟨attributes, hEncoded, hAttributes⟩ := codec.encoded_eq cookie.runtime
  have hPair : ∀ c ∈ (codec.encode cookie.name).toList ++ '=' :: (codec.encode cookie.value).toList,
      (c != ';') = true := by
    intro c hc
    rcases List.mem_append.mp hc with hName | hc
    · simpa using (codec.encode_plain _ c hName).1
    · rcases List.mem_cons.mp hc with rfl | hValue
      · decide
      · simpa using (codec.encode_plain _ c hValue).1
  have hText : (cookie.toHeaderValue codec.encoded).toList =
      ((codec.encode cookie.name).toList ++ '=' :: (codec.encode cookie.value).toList) ++
        attributes.toList := by
    rw [Cookie.toHeaderValue, hEncoded]
    simp [Cookie.runtime]
  unfold pairText
  rw [String.toList_ofList, hText, List.takeWhile_append_of_pos hPair]
  rcases hAttributes with rfl | ⟨more, rfl⟩
  · simp
  · simp

theorem pairText_plain (cookie : Cookie) : ∀ c ∈ (codec.pairText cookie).toList,
    c ≠ ';' ∧ isWhitespace c = false := by
  intro c hc
  rw [pairText_toList] at hc
  rcases List.mem_append.mp hc with hName | hc
  · obtain ⟨hSemicolon, -, hSpace⟩ := codec.encode_plain _ c hName
    exact ⟨hSemicolon, hSpace⟩
  · rcases List.mem_cons.mp hc with rfl | hValue
    · decide
    · obtain ⟨hSemicolon, -, hSpace⟩ := codec.encode_plain _ c hValue
      exact ⟨hSemicolon, hSpace⟩

/-- The pair of a cookie is read back. -/
theorem parseSegment_pairText {cookie : Cookie} (h : cookie.name ≠ "") :
    parseSegment codec.parseEncoded (codec.pairText cookie).toList =
      some (cookie.name, cookie.value) := by
  have hName : ∀ c ∈ (codec.encode cookie.name).toList, isWhitespace c = false :=
    fun c hc => (codec.encode_plain _ c hc).2.2
  have hValue : ∀ c ∈ (codec.encode cookie.value).toList, isWhitespace c = false :=
    fun c hc => (codec.encode_plain _ c hc).2.2
  have hEquals : '=' ∉ (codec.encode cookie.name).toList :=
    fun hc => (codec.encode_plain _ _ hc).2.1 rfl
  have hSome : (codec.encode cookie.name).toList.isEmpty = false := by
    simpa using codec.encode_ne h
  unfold parseSegment
  rw [trim_plain fun c hc => (codec.pairText_plain cookie c hc).2, pairText_toList,
    splitOnce_append hEquals]
  simp only [Option.bind_eq_bind, Option.bind_some]
  rw [trim_plain hName, trim_plain hValue, hSome, String.ofList_toList, String.ofList_toList,
    codec.parse_name _ h, codec.parse_value]
  rfl

/-- The cookies of a line are read back in order. -/
theorem cookiePairs_cookieLine {cookies : List Cookie} (h : ∀ cookie ∈ cookies, cookie.name ≠ "") :
    cookiePairs codec.parseEncoded (codec.cookieLine cookies) =
      cookies.map fun cookie => (cookie.name, cookie.value) := by
  have hPair : ∀ cookie : Cookie, cookie.name ≠ "" →
      cookiePairs codec.parseEncoded (codec.pairText cookie) = [(cookie.name, cookie.value)] := by
    intro cookie hName
    have hOne : ';' ∉ (codec.pairText cookie).toList :=
      fun hc => (codec.pairText_plain cookie _ hc).1 rfl
    unfold cookiePairs
    rw [List.splitOn_eq_singleton hOne, List.filterMap_cons_some (codec.parseSegment_pairText hName)]
    rfl
  unfold cookieLine
  induction cookies with
  | nil => rfl
  | cons cookie cookies ih =>
    obtain ⟨hFirst, hLater⟩ := List.forall_mem_cons.mp h
    cases cookies with
    | nil =>
      rw [List.map_singleton, String.intercalate_singleton, hPair cookie hFirst, List.map_singleton]
    | cons next cookies =>
      rw [List.map_cons, List.map_cons, String.intercalate_cons_cons, cookiePairs_join,
        hPair cookie hFirst, ← List.map_cons, ih hLater, List.map_cons]
      rfl

end CookieCodec

/-- For every request whose `Cookie` lines render cookies with names: a cookie is found under
its name, the first one of a name, and no other. In any header, one more segment that is
malformed changes nothing. -/
theorem cookie_lookup (codec : CookieCodec) {peer : Option SocketAddr} {lines : List HeaderLine}
    {ctx : RequestContext} (hContext : requestContext peer lines = .ok ctx)
    {sent : List (List Cookie)} (hSent : cookieLines lines = sent.map codec.cookieLine)
    (hNames : ∀ cookies ∈ sent, ∀ cookie ∈ cookies, cookie.name ≠ "") :
    (∀ name, ctx.cookie codec.parseEncoded name =
      (sent.flatten.find? fun cookie => cookie.name = name).map Cookie.value) ∧
    ∀ (old new : RequestContext) (before after : List (List Char)) (segment : List Char),
      MalformedSegment codec.parseEncoded segment →
      cookieSegments (old.headers.lookup "cookie") = before ++ after →
      cookieSegments (new.headers.lookup "cookie") = before ++ segment :: after →
      ∀ name, new.cookie codec.parseEncoded name = old.cookie codec.parseEncoded name := by
  constructor
  · intro name
    obtain ⟨headers, hHeaders, rfl⟩ := Fallible.map_ok hContext
    have hMerged : MergedCookies codec.parseEncoded headers (cookieLines lines) :=
      requestHeaders_cookies hHeaders
    unfold MergedCookies at hMerged
    have hPairs : (cookieLines lines).flatMap (cookiePairs codec.parseEncoded) =
        sent.flatten.map fun cookie => (cookie.name, cookie.value) := by
      rw [hSent, List.flatMap_map, List.map_flatten, ← List.flatMap_def]
      exact List.flatMap_congr fun cookies hCookies =>
        codec.cookiePairs_cookieLine (hNames cookies hCookies)
    rw [cookie_eq, hMerged, hPairs, List.find?_map, Option.map_map]
    rfl
  · intro old new before after segment hSegment hOld hNew name
    exact cookie_insert hSegment hOld hNew name

/-! ## A request with repeated cookies -/

/-- The ASCII characters that the crate leaves as they are. -/
def cookieKept : Percent.Kept where
  keep b := 32 < b.toNat && b.toNat < 127 && !"\"#%(),/:;<=>?@[\\]^`\x7b|\x7d".toList.contains (Char.ofNat b.toNat)
  ascii b h := by
    simp only [Bool.and_eq_true, decide_eq_true_eq] at h
    refine ⟨by omega, ?_⟩
    intro hPercent
    have hSet := h.2
    rw [hPercent] at hSet
    revert hSet
    decide +kernel

def plainChar (c : Char) : Prop := c ≠ ';' ∧ c ≠ '=' ∧ isWhitespace c = false

theorem plainChar_encode (s : String) : ∀ c ∈ (Percent.encode cookieKept s).toList, plainChar c := by
  refine Percent.encode_forall ?_ ?_ ?_ s
  · intro b h
    have hAll : ∀ n : Fin 256, cookieKept.keep (UInt8.ofNat n.val) = true →
        Char.ofNat n.val ≠ ';' ∧ Char.ofNat n.val ≠ '=' ∧ isWhitespace (Char.ofNat n.val) = false := by
      decide +kernel
    exact hAll ⟨b.toNat, UInt8.toNat_lt b⟩ (by rwa [UInt8.ofNat_toNat])
  · unfold plainChar
    decide
  · unfold plainChar
    decide +kernel

/-- The pair before the first semicolon, decoded. -/
def percentParse (s : String) : Option (String × String) := do
  let (name, value) ← splitOnce '=' (s.toList.takeWhile (· != ';'))
  let name := trim name
  if name.isEmpty then none
  else
    let name ← Percent.decode (String.ofList name)
    let value ← Percent.decode (String.ofList (trim value))
    some (name, value)

theorem percentParse_pair {name value : String} (hName : ∀ c ∈ name.toList, plainChar c)
    (hValue : ∀ c ∈ value.toList, plainChar c) (hne : name ≠ "") :
    percentParse (name ++ "=" ++ value) =
      (Percent.decode name).bind fun n => (Percent.decode value).map fun v => (n, v) := by
  have hPair : ∀ c ∈ (name ++ "=" ++ value).toList, (c != ';') = true := by
    intro c hc
    simp only [String.toList_append, List.mem_append] at hc
    rcases hc with (hc | hc) | hc
    · simpa using (hName c hc).1
    · rw [List.mem_singleton.mp hc]
      decide
    · simpa using (hValue c hc).1
  have hText : (name ++ "=" ++ value).toList = name.toList ++ '=' :: value.toList := by simp
  have hEquals : '=' ∉ name.toList := fun hc => (hName _ hc).2.1 rfl
  have hSome : name.toList.isEmpty = false := by simpa using hne
  unfold percentParse
  rw [List.takeWhile_eq_self_iff.mpr hPair, hText, splitOnce_append hEquals]
  simp only [Option.bind_eq_bind, Option.bind_some]
  rw [trim_plain fun c hc => (hName c hc).2.2, trim_plain fun c hc => (hValue c hc).2.2, hSome,
    String.ofList_toList, String.ofList_toList]
  cases Percent.decode name with
  | none => rfl
  | some n =>
    cases Percent.decode value with
    | none => rfl
    | some v => rfl

theorem percentParse_encode (name : String) (hne : name ≠ "") (value : String) :
    percentParse (Percent.encode cookieKept name ++ "=" ++ Percent.encode cookieKept value) =
      some (name, value) := by
  have hEncoded : Percent.encode cookieKept name ≠ "" := by
    intro hEmpty
    have hDecoded := Percent.decode_encode cookieKept name
    rw [hEmpty] at hDecoded
    exact hne (Option.some.inj (hDecoded.symm.trans (Percent.decode_encode cookieKept "")))
  rw [percentParse_pair (plainChar_encode name) (plainChar_encode value) hEncoded,
    Percent.decode_encode, Percent.decode_encode]
  rfl

/-- The encoding of the crate, with the attributes of a new cookie. -/
def percentCodec : CookieCodec where
  encode := Percent.encode cookieKept
  encoded cookie := Percent.encode cookieKept cookie.name ++ "=" ++
    Percent.encode cookieKept cookie.value ++ "; HttpOnly; SameSite=Lax; Secure; Path=/"
  parseEncoded := percentParse
  encode_plain := plainChar_encode
  encoded_eq cookie := ⟨_, rfl, Or.inr ⟨" HttpOnly; SameSite=Lax; Secure; Path=/", by decide +kernel⟩⟩
  parse_name name hne := by
    have hParse := percentParse_encode name hne ""
    rwa [show Percent.encode cookieKept "" = "" from rfl, String.append_empty] at hParse
  parse_value value := by
    have hParse := percentParse_encode "value" (by decide) value
    rwa [show Percent.encode cookieKept "value" = "value" by decide +kernel] at hParse
  parse_unnamed value := by
    have hText : ("=" ++ value).toList = '=' :: value.toList := by simp
    have hSplit : ∀ l, splitOnce '=' ('=' :: l) = some ([], l) := fun l =>
      splitOnce_append List.not_mem_nil
    unfold percentParse
    rw [hText, List.takeWhile_cons_of_pos (by decide), hSplit]
    rfl

/-- Two `Cookie` lines that both have a cookie `theme`. -/
def themeLines : List HeaderLine :=
  [("cookie", "theme=dark%20mode; sid=7".toUTF8.toList), ("host", "a".toUTF8.toList),
    ("cookie", "theme=light".toUTF8.toList)]

def themeCookies : List (List Cookie) :=
  [[.new "theme" "dark mode", .new "sid" "7"], [.new "theme" "light"]]

theorem cookie_lookup_theme :
    ∃ ctx, requestContext none themeLines = .ok ctx ∧
      ctx.cookie percentParse "theme" = some "dark mode" ∧ ctx.cookie percentParse "lang" = none := by
  have hOk : (requestContext none themeLines).isOk = true := by decide +kernel
  obtain ⟨ctx, hContext⟩ : ∃ ctx, requestContext none themeLines = .ok ctx := by
    cases hResult : requestContext none themeLines with
    | error e =>
      rw [hResult] at hOk
      cases hOk
    | ok ctx => exact ⟨ctx, rfl⟩
  have hSent : cookieLines themeLines = themeCookies.map percentCodec.cookieLine := by decide +kernel
  have hNames : ∀ cookies ∈ themeCookies, ∀ cookie ∈ cookies, cookie.name ≠ "" := by decide
  have hLookup := (cookie_lookup percentCodec hContext hSent hNames).1
  exact ⟨ctx, hContext, (hLookup "theme").trans (by decide), (hLookup "lang").trans (by decide)⟩

end Caelix
