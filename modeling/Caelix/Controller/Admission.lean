import Caelix.Controller.Arguments

/-!
# Admission of a request

When a generated handler makes its calls. A request is checked by the throttle, then by the guards
of its route in their order; only then is its body read and passed to the interceptors, and only
when all of them have let it pass are the arguments extracted and the method called.

* `Checked`, `Entered`: what lies behind a request that came so far.
* `Due`: when a call of a handler may be made.
* `handler_due`: in every run, every call is made when it is due, and the method is called at most
  once.
-/

namespace Caelix

open Interaction Proc

section Admission

variable {V : Type} (backend : Backend) (parseEncoded : String → Option (String × String))
  (route : Route) (state : RouteState) (request : Request V)

/-- The context with which a request is handled. -/
def HasContext (ctx : Option RequestContext) : Prop :=
  match ctx with
  | some c => requestContext request.peerAddr request.headers = .ok c
  | none => route.needsRequestContext = false ∧ route.throttleEnabled = false

/-- The throttle service has let the request pass, or the route is not throttled. -/
def ThrottlePassed (ctx : Option RequestContext) (history : RouteHistory V) : Prop :=
  match throttlePolicy route state with
  | none => history = []
  | some policy => ∃ c, ctx = some c ∧ state.throttle.isSome = true ∧
      history = [⟨.check c route.verb route.fullPath policy, Except.ok none⟩]

def GuardPassed (ctx : Option RequestContext) (guard : ProviderDependency)
    (event : Interaction.Event (RouteReply (V := V))) : Prop :=
  ∃ c, ctx = some c ∧ event = ⟨.canActivate guard c, Except.ok true⟩

/-- The body has arrived within its limit, when the route reads it. -/
def BodyBuffered (payload : Option RequestPayload) (history : RouteHistory V) : Prop :=
  if route.hasPayload then ∃ stream body, history = [⟨.readBody, stream⟩] ∧
    bufferBody backend request.bodyLimit stream = .ok body ∧
    payload = some ⟨contentType request.headers, body⟩
  else history = [] ∧ payload = none

def InterceptorProceeded (ctx : Option RequestContext) (interceptor : ProviderDependency)
    (event : Interaction.Event (RouteReply (V := V))) : Prop :=
  ∃ c limit, ctx = some c ∧ event = ⟨.intercept interceptor c, Intercepted.proceeds limit⟩

/-- The throttle and some guards have let a request pass. -/
def Checked (ctx : Option RequestContext) (guards : List ProviderDependency)
    (history : RouteHistory V) : Prop :=
  HasContext route request ctx ∧ ∃ throttled guarded, history = throttled ++ guarded ∧
    ThrottlePassed route state ctx throttled ∧ List.Forall₂ (GuardPassed ctx) guards guarded

/-- All guards and some interceptors have let it pass, and its body has arrived. -/
def Entered (ctx : Option RequestContext) (payload : Option RequestPayload)
    (interceptors : List ProviderDependency) (history : RouteHistory V) : Prop :=
  ∃ checked buffered entered, history = checked ++ buffered ++ entered ∧
    Checked route state request ctx route.guards checked ∧
    BodyBuffered backend route request payload buffered ∧
    List.Forall₂ (InterceptorProceeded ctx) interceptors entered

/-- When a handler may make a call. -/
def Due (history : RouteHistory V) : RouteCall V → Prop
  | .check c method path policy => history = [] ∧ HasContext route request (some c) ∧
      method = route.verb ∧ path = route.fullPath ∧ throttlePolicy route state = some policy
  | .canActivate guard c => ∃ passed rest, route.guards = passed ++ guard :: rest ∧
      Checked route state request (some c) passed history
  | .readBody => route.hasPayload = true ∧ ∃ ctx, Checked route state request ctx route.guards history
  | .intercept interceptor c => ∃ outer inner, route.interceptors = outer ++ interceptor :: inner ∧
      ∃ payload, Entered backend route state request (some c) payload outer history
  | .handler method values => method = route.handler ∧ route.forms ≤ 1 ∧ ∃ ctx payload entered inner,
      history = entered ++ inner ∧
      Entered backend route state request ctx payload route.interceptors entered ∧
      (∀ e ∈ inner, isStage e.1 = false) ∧
      AllAdmitted parseEncoded request ctx route payload values inner
  | .resume _ _ => True
  | .logException _ => True
  -- the extraction of the arguments
  | _ => ∃ ctx payload entered inner, history = entered ++ inner ∧
      Entered backend route state request ctx payload route.interceptors entered ∧
      ∀ e ∈ inner, isStage e.1 = false

/-! ## The stages before the interceptors -/

/-- An exit with a response. -/
def IsResponse (e : Exit) : Prop := ∃ response, e = .response response

theorem ensures_contextSetup : Ensures (requestContextSetup route request)
    (fun history ctx => history = [] ∧ HasContext route request ctx) IsResponse := by
  unfold requestContextSetup
  by_cases hNeeds : (route.needsRequestContext || route.throttleEnabled) = true
  · rw [if_pos hNeeds]
    cases hContext : requestContext request.peerAddr request.headers with
    | ok ctx => exact ensures_pure ⟨rfl, hContext⟩
    | error e => exact ensures_throw ⟨_, rfl⟩
  · rw [if_neg hNeeds]
    rw [Bool.or_eq_true, not_or, Bool.not_eq_true, Bool.not_eq_true] at hNeeds
    exact ensures_pure ⟨rfl, hNeeds⟩

theorem throttlePolicy_skip (h : route.throttleEnabled = false) :
    throttlePolicy route state = none := by
  have hSkip : route.throttle = some .skip := by simpa [Route.throttleEnabled] using h
  rw [throttlePolicy, hSkip]

theorem ensures_throttleCheck {ctx : Option RequestContext} (hContext : HasContext route request ctx) :
    Ensures (throttleCheck (V := V) route state ctx)
      (fun history _ => ThrottlePassed route state ctx history) IsResponse := by
  unfold throttleCheck ThrottlePassed
  cases hPolicy : throttlePolicy route state with
  | none => exact ensures_pure rfl
  | some policy =>
    cases hThrottle : state.throttle with
    | none => exact ensures_throw ⟨_, rfl⟩
    | some service =>
      cases ctx with
      | none =>
        rw [throttlePolicy_skip route state hContext.2] at hPolicy
        cases hPolicy
      | some c =>
        refine Ensures.bind (ensures_ask (Q := fun history r => history =
          [⟨.check c route.verb route.fullPath policy, r⟩]) fun r => rfl) ?_
        rintro before r rfl
        match r with
        | .ok none => exact ensures_pure ⟨c, rfl, rfl, rfl⟩
        | .ok (some response) => exact ensures_throw ⟨response, rfl⟩
        | .error e => exact ensures_throw ⟨_, rfl⟩

theorem guards_contextSetup {P : RouteHistory V → RouteCall V → Prop} :
    (requestContextSetup route request).run.Guards P := by
  unfold requestContextSetup
  split_ifs
  · cases requestContext request.peerAddr request.headers <;> trivial
  · trivial

theorem guards_throttleCheck {ctx : Option RequestContext} {P : RouteHistory V → RouteCall V → Prop}
    (hCheck : ∀ c policy, ctx = some c → throttlePolicy route state = some policy →
      P [] (.check c route.verb route.fullPath policy)) :
    (throttleCheck route state ctx).run.Guards P := by
  unfold throttleCheck
  cases hPolicy : throttlePolicy route state with
  | none => trivial
  | some policy =>
    cases state.throttle with
    | none => trivial
    | some service =>
      cases ctx with
      | none => trivial
      | some c =>
        refine guards_ask_bind.mpr ⟨hCheck c policy rfl hPolicy, fun r => ?_⟩
        match r with
        | .ok none => trivial
        | .ok (some response) => trivial
        | .error e => trivial

theorem ensures_guardCheck {ctx : Option RequestContext} (hContext : HasContext route request ctx)
    {guard : ProviderDependency} (hGuard : guard ∈ route.guards) :
    Ensures (guardCheck (V := V) ctx guard)
      (fun history _ => ∃ e, history = [e] ∧ GuardPassed ctx guard e) IsResponse := by
  unfold guardCheck
  cases ctx with
  | none =>
    have hSome : route.guards ≠ [] := List.ne_nil_of_mem hGuard
    have hNeeds := hContext.1
    simp [Route.needsRequestContext, hSome] at hNeeds
  | some c =>
    refine Ensures.bind (ensures_ask (Q := fun history r => history =
      [⟨.canActivate guard c, r⟩]) fun r => rfl) ?_
    rintro before r rfl
    match r with
    | .ok true => exact ensures_pure ⟨_, rfl, c, rfl, rfl⟩
    | .ok false => exact ensures_throw ⟨_, rfl⟩
    | .error e =>
      refine Ensures.bind (Q := fun _ _ => True) (ensures_ask fun _ => trivial) ?_
      exact fun _ _ _ => ensures_throw ⟨_, rfl⟩

theorem guards_guardCheck {ctx : Option RequestContext} {guard : ProviderDependency}
    {P : RouteHistory V → RouteCall V → Prop}
    (hGuard : ∀ c, ctx = some c → P [] (.canActivate guard c))
    (hLog : ∀ history e, P history (.logException e)) : (guardCheck ctx guard).run.Guards P := by
  unfold guardCheck
  cases ctx with
  | none => trivial
  | some c =>
    refine guards_ask_bind.mpr ⟨hGuard c rfl, fun r => ?_⟩
    match r with
    | .ok true => trivial
    | .ok false => trivial
    | .error e => exact guards_ask_bind.mpr ⟨hLog _ e, fun _ => trivial⟩

theorem ensures_guards {ctx : Option RequestContext} (hContext : HasContext route request ctx) :
    Ensures (route.guards.forM (guardCheck (V := V) ctx))
      (fun history _ => List.Forall₂ (GuardPassed ctx) route.guards history) IsResponse :=
  ensures_forM_each route.guards fun _ hGuard => ensures_guardCheck route request hContext hGuard

theorem guards_guards {ctx : Option RequestContext} (hContext : HasContext route request ctx)
    {throttled : RouteHistory V} (hThrottled : ThrottlePassed route state ctx throttled) :
    (route.guards.forM (guardCheck ctx)).run.Guards fun history =>
      Due backend parseEncoded route state request (throttled ++ history) := by
  refine guards_forM_each route.guards
    (fun guard hGuard => ensures_guardCheck route request hContext hGuard) ?_
  intro passed guard rest hSplit guarded hPassed
  refine guards_guardCheck ?_ fun _ _ => trivial
  rintro c rfl
  refine ⟨passed, rest, hSplit, hContext, throttled, guarded, ?_, hThrottled, hPassed⟩
  rw [List.append_nil]

theorem ensures_payloadBuffering : Ensures (payloadBuffering backend route request)
    (fun history payload => BodyBuffered backend route request payload history ∧
      payload.isSome = route.hasPayload) IsResponse := by
  unfold payloadBuffering BodyBuffered
  cases route.hasPayload with
  | false => exact ensures_pure ⟨⟨rfl, rfl⟩, rfl⟩
  | true =>
    refine Ensures.bind (ensures_ask (Q := fun history r => history =
      [⟨.readBody, r⟩]) fun r => rfl) ?_
    rintro before stream rfl
    cases hBody : bufferBody backend request.bodyLimit stream with
    | ok body => exact ensures_pure ⟨⟨stream, body, rfl, hBody, rfl⟩, rfl⟩
    | error e => exact ensures_throw ⟨_, rfl⟩

theorem guards_payloadBuffering {P : RouteHistory V → RouteCall V → Prop}
    (hRead : route.hasPayload = true → P [] .readBody) :
    (payloadBuffering backend route request).run.Guards P := by
  unfold payloadBuffering
  cases hPayload : route.hasPayload with
  | false => trivial
  | true =>
    refine guards_ask_bind.mpr ⟨hRead hPayload, fun stream => ?_⟩
    cases bufferBody backend request.bodyLimit stream <;> trivial

/-! ## The interceptors and the method -/

theorem due_inside {ctx : Option RequestContext} {payload : Option RequestPayload}
    {entered inner : RouteHistory V} {c : RouteCall V}
    (hEntered : Entered backend route state request ctx payload route.interceptors entered)
    (hInner : ∀ e ∈ inner, isStage e.1 = false)
    (hStage : isStage c = true → CallsMethod parseEncoded request ctx route payload inner c) :
    Due backend parseEncoded route state request (entered ++ inner) c := by
  cases hCall : isStage c with
  | true =>
    obtain ⟨hForms, values, rfl, hAdmitted⟩ := hStage hCall
    exact ⟨rfl, hForms, ctx, payload, entered, inner, rfl, hEntered, hInner, hAdmitted⟩
  | false =>
    cases c with
    | check _ _ _ _ => cases hCall
    | canActivate _ _ => cases hCall
    | readBody => cases hCall
    | intercept _ _ => cases hCall
    | resume _ _ => trivial
    | logException _ => trivial
    | handler _ _ => cases hCall
    | _ => exact ⟨ctx, payload, entered, inner, rfl, hEntered, hInner⟩

/-- The interceptors around the method have let the request pass. -/
theorem enters_iff {c : RequestContext} {interceptors : List ProviderDependency}
    {history : RouteHistory V} :
    Enters (interceptors.map (interceptLayer c)) history ↔
      List.Forall₂ (InterceptorProceeded (some c)) interceptors history := by
  unfold Enters
  rw [List.forall₂_map_left_iff]
  have hLayer : ∀ interceptor (event : Interaction.Event (RouteReply (V := V))),
      (interceptLayer c interceptor).Enters event ↔
        InterceptorProceeded (some c) interceptor event := by
    intro interceptor event
    constructor
    · rintro ⟨r, _, rfl, hRuns⟩
      cases r with
      | answered result => cases hRuns
      | proceeds limit => exact ⟨c, limit, rfl, rfl⟩
    · rintro ⟨_, limit, hSome, rfl⟩
      cases hSome
      exact ⟨.proceeds limit, _, rfl, rfl⟩
  exact ⟨fun h => h.imp fun i e => (hLayer i e).mp, fun h => h.imp fun i e => (hLayer i e).mpr⟩

theorem guards_handlerExecution {ctx : Option RequestContext} {payload : Option RequestPayload}
    {checked buffered : RouteHistory V}
    (hChecked : Checked route state request ctx route.guards checked)
    (hBuffered : BodyBuffered backend route request payload buffered)
    (hPayload : payload.isSome = route.hasPayload) :
    (handlerExecution parseEncoded route request ctx payload).Guards fun history =>
      Due backend parseEncoded route state request (checked ++ buffered ++ history) := by
  have hCore := callHandler_guards parseEncoded request ctx route payload hPayload
  unfold handlerExecution
  cases hInterceptors : route.interceptors with
  | nil =>
    refine guards_mono hCore fun inner c ⟨hInner, hStage⟩ => ?_
    refine due_inside backend parseEncoded route state request ?_ hInner hStage
    refine ⟨checked, buffered, [], (List.append_nil _).symm, hChecked, hBuffered, ?_⟩
    rw [hInterceptors]
    exact .nil
  | cons first others =>
    cases hCtx : ctx with
    | none => trivial
    | some c =>
      subst hCtx
      dsimp only
      rw [← hInterceptors]
      refine guards_layered ?_ ?_ ?_
      · intro outer layer inner hSplit entered hEntered
        obtain ⟨before, rest, hBefore, rfl, hRest⟩ := List.map_eq_append_iff.mp hSplit
        obtain ⟨interceptor, after, rfl, rfl, -⟩ := List.map_eq_cons_iff.mp hRest
        refine ⟨before, after, hBefore, payload, checked, buffered, entered, rfl, hChecked, hBuffered, ?_⟩
        exact enters_iff.mp hEntered
      · intro layer hLayer history a call hResume
        obtain ⟨interceptor, -, rfl⟩ := List.mem_map.mp hLayer
        match a, hResume with
        | .ok response, hResume => cases hResume; trivial
        | .error (.exception e), hResume => cases hResume; trivial
      · intro entered hEntered
        refine guards_mono hCore fun inner c ⟨hInner, hStage⟩ => ?_
        rw [← List.append_assoc]
        refine due_inside backend parseEncoded route state request ?_ hInner hStage
        exact ⟨checked, buffered, entered, rfl, hChecked, hBuffered, enters_iff.mp hEntered⟩

/-- Every call of a handler is made when it is due. -/
theorem guards_handleRequest :
    (handleRequest backend parseEncoded route state request).run.Guards
      (Due backend parseEncoded route state request) := by
  unfold handleRequest
  refine guards_bind_ensures (guards_contextSetup route request)
    (ensures_contextSetup route request) ?_
  rintro _ ctx ⟨rfl, hContext⟩
  refine guards_bind_ensures (guards_throttleCheck route state ?_)
    (ensures_throttleCheck route state request hContext) fun throttled _ hThrottled => ?_
  · rintro c policy rfl hPolicy
    exact ⟨rfl, hContext, rfl, rfl, hPolicy⟩
  refine guards_bind_ensures
    (guards_guards backend parseEncoded route state request hContext hThrottled)
    (ensures_guards route request hContext) fun guarded _ hGuarded => ?_
  have hChecked : Checked route state request ctx route.guards (throttled ++ guarded) :=
    ⟨hContext, throttled, guarded, rfl, hThrottled, hGuarded⟩
  simp only [List.nil_append, ← List.append_assoc]
  refine guards_bind_ensures (guards_payloadBuffering backend route request fun hPayload => ?_)
    (ensures_payloadBuffering backend route request) fun buffered payload ⟨hBuffered, hPayload⟩ => ?_
  · rw [List.append_nil]
    exact ⟨hPayload, ctx, hChecked⟩
  refine guards_bind_except.mpr ⟨guards_lift ?_, ?_⟩
  · simp only [← List.append_assoc]
    exact guards_handlerExecution backend parseEncoded route state request hChecked hBuffered hPayload
  · refine post_mono (post_true _) fun history result _ => ?_
    match result with
    | .ok (.ok response) => trivial
    | .ok (.error (.exception e)) => exact guards_ask_bind.mpr ⟨trivial, fun _ => trivial⟩
    | .ok (.error (.panic message)) => trivial
    | .error e => trivial

/-! ## The calls of a run -/

def isMethod : RouteCall V → Bool
  | .handler _ _ => true
  | _ => false

variable {backend parseEncoded route state request}

theorem Entered.no_method {ctx : Option RequestContext} {payload : Option RequestPayload}
    {interceptors : List ProviderDependency} {history : RouteHistory V}
    (h : Entered backend route state request ctx payload interceptors history) :
    ∀ e ∈ history, isMethod e.1 = false := by
  obtain ⟨_, buffered, entered, rfl, ⟨-, throttled, guarded, rfl, hThrottled, hGuarded⟩, hBuffered,
    hEntered⟩ := h
  have hThrottle : ∀ e ∈ throttled, isMethod e.1 = false := by
    unfold ThrottlePassed at hThrottled
    cases hPolicy : throttlePolicy route state with
    | none =>
      rw [hPolicy] at hThrottled
      rw [hThrottled]
      exact List.forall_mem_nil _
    | some policy =>
      rw [hPolicy] at hThrottled
      obtain ⟨c, -, -, rfl⟩ := hThrottled
      exact List.forall_mem_singleton.mpr rfl
  have hGuards : ∀ e ∈ guarded, isMethod e.1 = false := by
    refine forall_right hGuarded ?_
    rintro guard _ ⟨c, -, rfl⟩
    rfl
  have hBody : ∀ e ∈ buffered, isMethod e.1 = false := by
    unfold BodyBuffered at hBuffered
    split_ifs at hBuffered
    · obtain ⟨stream, body, rfl, -, -⟩ := hBuffered
      exact List.forall_mem_singleton.mpr rfl
    · rw [hBuffered.1]
      exact List.forall_mem_nil _
  have hInterceptors : ∀ e ∈ entered, isMethod e.1 = false := by
    refine forall_right hEntered ?_
    rintro interceptor _ ⟨c, limit, -, rfl⟩
    rfl
  simp only [List.forall_mem_append]
  exact ⟨⟨⟨hThrottle, hGuards⟩, hBody⟩, hInterceptors⟩

theorem Due.method_once {history : RouteHistory V} {c : RouteCall V}
    (h : Due backend parseEncoded route state request history c) (hMethod : isMethod c = true) :
    ∀ e ∈ history, isMethod e.1 = false := by
  cases c with
  | handler method values =>
    obtain ⟨-, -, ctx, payload, entered, inner, rfl, hEntered, hInner, -⟩ := h
    refine List.forall_mem_append.mpr ⟨hEntered.no_method, fun e he => ?_⟩
    have hStage := hInner e he
    match e, hStage with
    | ⟨.logException _, _⟩, _ => rfl
    | ⟨.json _ _, _⟩, _ => rfl
    | ⟨.parseForm _ _ _, _⟩, _ => rfl
    | ⟨.deserialize _ _, _⟩, _ => rfl
    | ⟨.validateContentType _ _ _, _⟩, _ => rfl
    | ⟨.validator _ _, _⟩, _ => rfl
    | ⟨.user _, _⟩, _ => rfl
    | ⟨.validate _, _⟩, _ => rfl
  | _ => cases hMethod

end Admission

/-- The handler of a route makes every call when it is due, and calls the method at most once. -/
theorem handler_due {V : Type} {item : ControllerItem} {routes : List Route} {route : Route}
    (hExpand : expand item = .ok routes) (hRoute : route ∈ routes) (backend : Backend)
    (parseEncoded : String → Option (String × String)) (state : RouteState) (request : Request V)
    {history : RouteHistory V} {c : RouteCall V}
    {next : RouteReply c → Proc (RouteCall V) RouteReply (Except Exit HttpResponse)}
    (hRun : Proc.Run (handleRequest backend parseEncoded route state request).run history
      (.call c next)) :
    (∃ method ∈ item.methods, Declares item method route) ∧
      Due backend parseEncoded route state request history c ∧
      (isMethod c = true → ∀ e ∈ history, isMethod e.1 = false) := by
  have hDue := hRun.guards (guards_handleRequest backend parseEncoded route state request)
  exact ⟨mem_expand hExpand hRoute, hDue, hDue.method_once⟩

/-! ## An upload -/

/-- A guarded route that stores the file of one field. -/
def avatarRoute : Route where
  verb := "post"
  fullPath := "/avatar"
  handler := "store"
  guards := [⟨1, "AuthGuard"⟩]
  interceptors := []
  throttle := some .skip
  uploadLimit := none
  extractors := [⟨.file ⟨"avatar", some 5, [], false, none⟩, "avatar", .path "UploadedFile" [], false⟩]

/-- A request with files in two fields. -/
def avatarRequest : Request Nat where
  headers := [("content-type", "multipart/form-data; boundary=x".toList.map fun c => UInt8.ofNat c.toNat)]
  peerAddr := none
  bodyLimit := 10
  extracted _ := 0

def avatarContext : RequestContext :=
  ⟨(∅ : Table String String).insert "content-type" "multipart/form-data; boundary=x", none⟩

def avatarFile : UploadedFile := ⟨"avatar", none, none, [], 1, none⟩

def avatarForm : MultipartForm :=
  ⟨[], [("cover", [⟨"cover", none, none, [], 2, none⟩]), ("avatar", [avatarFile])]⟩

/-- The method is called when its guard has let the request pass, with the file of its field. -/
theorem handler_due_avatar : Due .axum (fun _ => none) avatarRoute ⟨none⟩ avatarRequest
    [⟨.canActivate ⟨1, "AuthGuard"⟩ avatarContext, Except.ok true⟩,
      ⟨.readBody, (⟨[[1]], true⟩ : BodyChunks)⟩,
      ⟨.parseForm "multipart/form-data; boundary=x" [1] 10, Except.ok avatarForm⟩]
    (.handler "store" [.file avatarFile]) := by
  have hExpand : expand ⟨"/avatar", [.useGuard (.ok [⟨1, "AuthGuard"⟩])],
      [⟨"store", [.verb "post" (.ok ""), .skipThrottle .absent],
        [⟨some "avatar", .path "UploadedFile" [],
          [.file (some (.ok [.nameValue "max_size" (.str "5B")]))]⟩], false⟩]⟩ = .ok [avatarRoute] := rfl
  refine (@handler_due _ _ _ _ hExpand (List.mem_singleton_self _) .axum (fun _ => none) ⟨none⟩ _ _ _
    ?next ?run).2.1
  case run =>
    show Proc.Run (.call (RouteCall.canActivate ⟨1, "AuthGuard"⟩ avatarContext) _) _ _
    refine .cons ?_
    show Proc.Run (.call RouteCall.readBody _) _ _
    refine .cons ?_
    show Proc.Run (.call (RouteCall.parseForm "multipart/form-data; boundary=x" [1] 10) _) _ _
    refine .cons ?_
    show Proc.Run (.call (RouteCall.handler "store" [.file avatarFile]) _) _ _
    exact .nil _

end Caelix
