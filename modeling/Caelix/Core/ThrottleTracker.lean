import Mathlib.Data.List.DropRight
import Caelix.Lib.Fallible
import Caelix.Lib.Table
import Caelix.Core.Exception
import Caelix.Core.IpAddress
import Caelix.Core.Response
import Caelix.Core.Subject

/-!
# The address a client is throttled by

`IpThrottleTracker::track` of `throttle.rs`, and the request context that the controller
macro builds for it. A network is whatever decides which addresses it contains.

* `requestHeaders_forwarded`: several `X-Forwarded-For` lines are one list of elements.
* `identity_not_spoofed`: who the client is when its peer is a trusted proxy, and that what
  stands left of the first untrusted address from the right never matters.
-/

namespace Caelix

open Table

/-! ## The request context -/

/-- `std::net::SocketAddr`. -/
structure SocketAddr where
  ip : IpAddr
  port : UInt16
  deriving DecidableEq

structure RequestContext where
  headers : Table String String
  peerAddr : Option SocketAddr

def RequestContext.header (name : String) (ctx : RequestContext) : Option String :=
  (ctx.headers.lookup name).or
    (if name.toList.any Char.isUpper then ctx.headers.lookup name.toLower else none)

def visibleAscii (b : UInt8) : Bool := (32 ≤ b && b < 127) || b == 9

/-- `HeaderValue::to_str`. -/
def HeaderValue.toStr (value : HeaderValue) : Option String :=
  if value.all visibleAscii then some (String.ofList (value.map fun b => Char.ofNat b.toNat))
  else none

/-- One turn of the loop over the header lines of a request. -/
def addHeader (headers : Table String String) (name value : String) : Table String String :=
  let joined (separator : String) :=
    match headers.lookup name with
    | some existing => existing ++ separator ++ value
    | none => value
  if name = "cookie" then headers.insert name (joined "; ")
  else if name = "x-forwarded-for" then headers.insert name (joined ", ")
  else headers.insert name value

/-- A header line: its name in lower case and its value. -/
abbrev HeaderLine := String × HeaderValue

def addLine (headers : Table String String) (line : HeaderLine) :
    Except HttpException (Table String String) :=
  match HeaderValue.toStr line.2 with
  | none => .error (badRequest "invalid request header value")
  | some value => .ok (addHeader headers line.1 value)

def requestHeaders (lines : List HeaderLine) : Except HttpException (Table String String) :=
  lines.foldlM addLine ∅

def requestContext (peer : Option SocketAddr) (lines : List HeaderLine) :
    Except HttpException RequestContext :=
  (requestHeaders lines).map fun headers => ⟨headers, peer⟩

/-! ## The tracker -/

structure IpThrottleTracker (Network : Type) where
  trustedProxies : List Network

/-- `str::trim`. -/
def trim (s : List Char) : List Char := (s.dropWhile isWhitespace).rdropWhile isWhitespace

theorem trim_plain {s : List Char} (h : ∀ c ∈ s, isWhitespace c = false) : trim s = s := by
  have hDrop : s.dropWhile isWhitespace = s := by
    cases s with
    | nil => rfl
    | cons c s => rw [List.dropWhile_cons_of_neg (by simp [h c List.mem_cons_self])]
  unfold trim
  rw [hDrop, List.rdropWhile_eq_self_iff]
  intro hne
  simp [h _ (List.getLast_mem hne)]

namespace IpThrottleTracker

variable {Network : Type} (contains : Network → IpAddr → Bool) (tracker : IpThrottleTracker Network)

def trusted (address : IpAddr) : Bool :=
  tracker.trustedProxies.any fun network => contains network address

/-- The client behind a trusted peer. -/
def client (peer : IpAddr) (chain : List IpAddr) : IpAddr :=
  (chain.reverse.find? fun address => !tracker.trusted contains address).getD peer

def track (ctx : RequestContext) : Except HttpException String :=
  match ctx.peerAddr with
  | none => .error internalServerError
  | some peer =>
    if !tracker.trusted contains peer.ip then .ok peer.ip.display
    else
      match ctx.header "x-forwarded-for" with
      | none => .ok peer.ip.display
      | some forwarded =>
        match (forwarded.toList.splitOn ',').mapM fun value => IpAddr.parse (trim value) with
        | none => .error internalServerError
        | some chain =>
          if chain.isEmpty then .error internalServerError
          else .ok (tracker.client contains peer.ip chain).display

end IpThrottleTracker

/-! ## Lines that are joined -/

theorem lookup_addHeader_ne {name header : String} (h : name ≠ header)
    (headers : Table String String) (value : String) :
    (addHeader headers name value).lookup header = headers.lookup header := by
  unfold addHeader
  by_cases hCookie : name = "cookie"
  · rw [if_pos hCookie, AList.lookup_insert_ne (Ne.symm h)]
  · rw [if_neg hCookie]
    by_cases hForwarded : name = "x-forwarded-for"
    · rw [if_pos hForwarded, AList.lookup_insert_ne (Ne.symm h)]
    · rw [if_neg hForwarded, AList.lookup_insert_ne (Ne.symm h)]

/-- What relates the context to the lines of one header is kept over a whole request when each
line keeps it. -/
theorem addLine_foldlM_keeps {header : String} {P : Table String String → List String → Prop}
    (hStep : ∀ headers values name value, P headers values →
      P (addHeader headers name value) (values ++ if name = header then [value] else []))
    {lines : List HeaderLine} {headers merged : Table String String} {values : List String}
    (hStart : P headers values) (hRun : lines.foldlM addLine headers = .ok merged) :
    P merged (values ++ lines.filterMap fun line =>
      if line.1 = header then HeaderValue.toStr line.2 else none) := by
  induction lines generalizing headers values with
  | nil =>
    obtain rfl := Except.ok.inj hRun
    rw [List.filterMap_nil, List.append_nil]
    exact hStart
  | cons line lines ih =>
    rw [List.foldlM_cons, addLine] at hRun
    cases hValue : HeaderValue.toStr line.2 with
    | none =>
      rw [hValue] at hRun
      cases hRun
    | some value =>
      rw [hValue] at hRun
      have hRest := ih (hStep headers values line.1 value hStart) hRun
      rw [List.filterMap_cons, hValue]
      by_cases hName : line.1 = header
      · simpa [hName] using hRest
      · simpa [hName] using hRest

/-! ## The elements of the header -/

/-- The comma-separated elements of a value, without the space around them. -/
def elements (value : String) : List (List Char) := (value.toList.splitOn ',').map trim

theorem trim_space (s : List Char) : trim (' ' :: s) = trim s := by
  unfold trim
  rw [List.dropWhile_cons_of_pos (by decide)]

theorem elements_ne_nil (value : String) : elements value ≠ [] := by
  unfold elements
  rw [Ne, List.map_eq_nil_iff]
  exact List.splitOn_ne_nil _ _

/-- A value that is appended after a comma and a space adds its own elements. -/
theorem elements_join (first second : String) :
    elements (first ++ ", " ++ second) = elements first ++ elements second := by
  have hText : (first ++ ", " ++ second).toList =
      first.toList ++ ',' :: ' ' :: second.toList := by simp
  unfold elements
  rw [hText, List.splitOn_eq_splitOnP, List.splitOnP_append_cons _ _ (by decide), List.map_append,
    ← List.splitOn_eq_splitOnP, ← List.splitOn_eq_splitOnP, List.splitOn_cons_eq_if_modifyHead]
  cases hSecond : second.toList.splitOn ',' with
  | nil => exact absurd hSecond (List.splitOn_ne_nil _ _)
  | cons e l => simp [trim_space]

/-- The values of the `X-Forwarded-For` lines of a request, in the order of their arrival. -/
def forwardedLines (lines : List HeaderLine) : List String :=
  lines.filterMap fun line =>
    if line.1 = "x-forwarded-for" then HeaderValue.toStr line.2 else none

def forwardedElements (lines : List HeaderLine) : List (List Char) :=
  (forwardedLines lines).flatMap elements

/-- The header that the context holds stands for these lines. -/
def Merged (headers : Table String String) (values : List String) : Prop :=
  match headers.lookup "x-forwarded-for" with
  | none => values = []
  | some value => values ≠ [] ∧ elements value = values.flatMap elements

theorem Merged.addHeader {headers : Table String String} {values : List String}
    (h : Merged headers values) (name value : String) :
    Merged (addHeader headers name value)
      (values ++ if name = "x-forwarded-for" then [value] else []) := by
  unfold Merged at h ⊢
  by_cases hName : name = "x-forwarded-for"
  · subst hName
    rw [Caelix.addHeader, if_neg (by decide), if_pos rfl, if_pos rfl, AList.lookup_insert]
    cases hLookup : headers.lookup "x-forwarded-for" with
    | none =>
      rw [hLookup] at h
      simp [h]
    | some existing =>
      rw [hLookup] at h
      refine ⟨by simp, ?_⟩
      rw [elements_join, h.2, List.flatMap_append, List.flatMap_singleton]
  · rw [lookup_addHeader_ne hName, if_neg hName, List.append_nil]
    exact h

/-- The context holds the elements of all lines, in the order of their arrival. -/
theorem requestHeaders_forwarded {lines : List HeaderLine} {headers : Table String String}
    (h : requestHeaders lines = .ok headers) : Merged headers (forwardedLines lines) := by
  have hStart : Merged ∅ [] := rfl
  exact addLine_foldlM_keeps (fun _ _ name value h => h.addHeader name value) hStart h

/-! ## The identity -/

/-- The request carries a chain of addresses and nothing else in its elements. -/
def CarriesChain (lines : List HeaderLine) (chain : List IpAddr) : Prop :=
  (forwardedElements lines).map IpAddr.parse = chain.map some

namespace IpThrottleTracker

variable {Network : Type} {contains : Network → IpAddr → Bool} {tracker : IpThrottleTracker Network}
  {peer : SocketAddr} {lines : List HeaderLine} {ctx : RequestContext}

/-- Everything right of an untrusted address is trusted. -/
theorem client_append {address : IpAddr} {left right : List IpAddr}
    (hAddress : tracker.trusted contains address = false)
    (hRight : ∀ a ∈ right, tracker.trusted contains a = true) (peer : IpAddr) :
    tracker.client contains peer (left ++ address :: right) = address := by
  have hSkipped : ∀ a ∈ right.reverse, ¬ (!tracker.trusted contains a) = true := by
    intro a ha
    simp [hRight a (List.mem_reverse.mp ha)]
  unfold client
  rw [List.reverse_append, List.reverse_cons, List.append_assoc, List.find?_append,
    List.find?_eq_none.mpr hSkipped]
  simp [hAddress]

theorem client_trusted {chain : List IpAddr}
    (hChain : ∀ a ∈ chain, tracker.trusted contains a = true) (peer : IpAddr) :
    tracker.client contains peer chain = peer := by
  unfold client
  rw [List.find?_eq_none.mpr]
  · rfl
  · intro a ha
    simp [hChain a (List.mem_reverse.mp ha)]

/-- The client behind any chain that ends like another one, from an untrusted address on. -/
theorem client_agree {right : List IpAddr}
    (hRight : ∃ a ∈ right, tracker.trusted contains a = false) (left left' : List IpAddr)
    (peer : IpAddr) :
    tracker.client contains peer (left ++ right) = tracker.client contains peer (left' ++ right) := by
  obtain ⟨a, ha, hUntrusted⟩ := hRight
  unfold client
  rw [List.reverse_append, List.reverse_append, List.find?_append, List.find?_append]
  cases hFind : right.reverse.find? fun address => !tracker.trusted contains address with
  | none =>
    have hTrusted := List.find?_eq_none.mp hFind a (List.mem_reverse.mpr ha)
    simp [hUntrusted] at hTrusted
  | some client => rfl

/-- What the tracker does with the request of a trusted peer. -/
def behindProxy (contains : Network → IpAddr → Bool) (tracker : IpThrottleTracker Network)
    (peer : IpAddr) (lines : List HeaderLine) : Except HttpException String :=
  if forwardedLines lines = [] then .ok peer.display
  else
    match (forwardedElements lines).mapM IpAddr.parse with
    | none => .error internalServerError
    | some chain => .ok (tracker.client contains peer chain).display

theorem track_untrusted (hContext : requestContext (some peer) lines = .ok ctx)
    (hPeer : tracker.trusted contains peer.ip = false) :
    tracker.track contains ctx = .ok peer.ip.display := by
  obtain ⟨headers, _, rfl⟩ := Fallible.map_ok hContext
  simp [track, hPeer]

theorem track_trusted (hContext : requestContext (some peer) lines = .ok ctx)
    (hPeer : tracker.trusted contains peer.ip = true) :
    tracker.track contains ctx = tracker.behindProxy contains peer.ip lines := by
  obtain ⟨headers, hHeaders, rfl⟩ := Fallible.map_ok hContext
  have hMerged := requestHeaders_forwarded hHeaders
  have hHeader : RequestContext.header "x-forwarded-for" ⟨headers, some peer⟩ =
      headers.lookup "x-forwarded-for" := by
    have hLower : ("x-forwarded-for".toList.any Char.isUpper) = false := by decide
    rw [RequestContext.header, hLower, if_neg Bool.false_ne_true, Option.or_none]
  unfold Merged at hMerged
  simp only [track, hPeer, hHeader, behindProxy, Bool.not_true, Bool.false_eq_true, if_false]
  cases hLookup : headers.lookup "x-forwarded-for" with
  | none =>
    rw [hLookup] at hMerged
    simp [hMerged]
  | some forwarded =>
    rw [hLookup] at hMerged
    have hElements : (forwarded.toList.splitOn ',').mapM (fun value => IpAddr.parse (trim value)) =
        (forwardedElements lines).mapM IpAddr.parse := by
      rw [forwardedElements, ← hMerged.2, elements, List.mapM_map]
      rfl
    simp only [hElements, if_neg hMerged.1]
    cases hChain : (forwardedElements lines).mapM IpAddr.parse with
    | none => rfl
    | some chain =>
      -- A header has at least one element, so the chain is not empty.
      have hNonempty : chain ≠ [] := by
        rintro rfl
        rw [Fallible.mapM_eq_some_iff, List.map_nil, List.map_eq_nil_iff, forwardedElements,
          ← hMerged.2] at hChain
        exact elements_ne_nil _ hChain
      simp [hNonempty]

/-- A chain that the request carries is the one the tracker walks. -/
theorem track_chain (hContext : requestContext (some peer) lines = .ok ctx)
    (hPeer : tracker.trusted contains peer.ip = true) {chain : List IpAddr}
    (hChain : CarriesChain lines chain) :
    tracker.track contains ctx = .ok (tracker.client contains peer.ip chain).display := by
  rw [track_trusted hContext hPeer, behindProxy]
  by_cases hNone : forwardedLines lines = []
  · have hEmpty : chain = [] := by
      rw [CarriesChain, forwardedElements, hNone] at hChain
      simpa using hChain.symm
    rw [if_pos hNone, hEmpty]
    rfl
  · rw [if_neg hNone, Fallible.mapM_eq_some_iff.mpr hChain]

end IpThrottleTracker

/-- For every peer, set of trusted networks and header lines of a request. An untrusted peer
is the client whatever its headers hold. Behind a trusted peer the client is the last address
of the chain that is not trusted, the peer when there is none, and a single element that is
not an address makes the tracker fail; two chains that end alike from an untrusted address on
have the same client. -/
theorem identity_not_spoofed {Network : Type} (contains : Network → IpAddr → Bool)
    (tracker : IpThrottleTracker Network) (peer : SocketAddr) (lines : List HeaderLine)
    (ctx : RequestContext) (hContext : requestContext (some peer) lines = .ok ctx) :
    (tracker.trusted contains peer.ip = false →
      tracker.track contains ctx = .ok peer.ip.display ∧
      ∀ lines' ctx', requestContext (some peer) lines' = .ok ctx' →
        tracker.track contains ctx' = tracker.track contains ctx) ∧
    (tracker.trusted contains peer.ip = true →
      (∀ left address right, CarriesChain lines (left ++ address :: right) →
        tracker.trusted contains address = false →
        (∀ a ∈ right, tracker.trusted contains a = true) →
        tracker.track contains ctx = .ok address.display) ∧
      (∀ chain, CarriesChain lines chain → (∀ a ∈ chain, tracker.trusted contains a = true) →
        tracker.track contains ctx = .ok peer.ip.display) ∧
      (∀ left left' right, CarriesChain lines (left ++ right) →
        (∃ a ∈ right, tracker.trusted contains a = false) →
        ∀ lines' ctx', requestContext (some peer) lines' = .ok ctx' →
          CarriesChain lines' (left' ++ right) →
          tracker.track contains ctx' = tracker.track contains ctx) ∧
      ((∃ e ∈ forwardedElements lines, e = [] ∨ IpAddr.parse e = none) →
        tracker.track contains ctx = .error internalServerError)) := by
  refine ⟨?_, fun hPeer => ⟨?_, ?_, ?_, ?_⟩⟩
  · intro hPeer
    have hTrack := IpThrottleTracker.track_untrusted hContext hPeer
    refine ⟨hTrack, ?_⟩
    intro lines' ctx' hContext'
    rw [hTrack, IpThrottleTracker.track_untrusted hContext' hPeer]
  · intro left address right hChain hAddress hRight
    rw [IpThrottleTracker.track_chain hContext hPeer hChain,
      IpThrottleTracker.client_append hAddress hRight]
  · intro chain hChain hTrusted
    rw [IpThrottleTracker.track_chain hContext hPeer hChain,
      IpThrottleTracker.client_trusted hTrusted]
  · intro left left' right hChain hRight lines' ctx' hContext' hChain'
    rw [IpThrottleTracker.track_chain hContext hPeer hChain,
      IpThrottleTracker.track_chain hContext' hPeer hChain',
      IpThrottleTracker.client_agree hRight left' left]
  · rintro ⟨e, he, hMalformed⟩
    have hParse : IpAddr.parse e = none := hMalformed.elim (fun hEmpty => hEmpty ▸ rfl) id
    have hSome : forwardedLines lines ≠ [] := by
      intro hNone
      rw [forwardedElements, hNone] at he
      cases he
    rw [IpThrottleTracker.track_trusted hContext hPeer, IpThrottleTracker.behindProxy, if_neg hSome,
      Fallible.mapM_eq_none_iff.mpr ⟨e, he, hParse⟩]

/-- A network of a single address. -/
def hostNetwork (network address : IpAddr) : Bool := network == address

/-- A proxy and the load balancer before it. -/
def proxies : IpThrottleTracker IpAddr where
  trustedProxies := [.v4 ⟨#v[10, 0, 0, 2]⟩, .v4 ⟨#v[10, 1, 1, 3]⟩]

def proxyPeer : SocketAddr := ⟨.v4 ⟨#v[10, 0, 0, 2]⟩, 80⟩

def headerValue (s : String) : HeaderValue := s.toUTF8.toList

/-- A client that sends an element of its own before the one the proxies add. -/
def spoofedLines : List HeaderLine :=
  [("x-forwarded-for", headerValue "198.51.100.1"),
    ("x-forwarded-for", headerValue "2001:db8::7, 10.1.1.3")]

def clientAddress : IpAddr := .v6 ⟨#v[0x2001, 0xdb8, 0, 0, 0, 0, 0, 7]⟩

theorem identity_not_spoofed_proxies :
    ∃ ctx, requestContext (some proxyPeer) spoofedLines = .ok ctx ∧
      proxies.track hostNetwork ctx = .ok "2001:db8::7" := by
  have hBuilt : (requestContext (some proxyPeer) spoofedLines).isOk = true := by decide +kernel
  cases hContext : requestContext (some proxyPeer) spoofedLines with
  | error e =>
    rw [hContext] at hBuilt
    cases hBuilt
  | ok ctx =>
    have hChain : CarriesChain spoofedLines
        ([.v4 ⟨#v[198, 51, 100, 1]⟩] ++ clientAddress :: [.v4 ⟨#v[10, 1, 1, 3]⟩]) := by
      unfold CarriesChain
      decide +kernel
    have hDisplay : clientAddress.display = "2001:db8::7" := by decide +kernel
    refine ⟨ctx, rfl, ?_⟩
    rw [← hDisplay]
    exact ((identity_not_spoofed hostNetwork proxies proxyPeer spoofedLines ctx
      hContext).2 (by decide)).1 _ _ _ hChain (by decide) (by decide)

end Caelix
