import Caelix.Controller.Admission

/-!
# Responses of a handler

What a generated handler makes of a request.

* `Executed`: the interceptors that have waited for what is inside them are told of the result one
  after the other, the innermost first, each of what the one inside it has made of it.
* `post_handleRequest`: a handler ends with what the outermost interceptor has left, or before the
  first of them is called.
* `ensures_handleRequest`: a route with at most one argument for the whole form does not panic.
* `method_forms`: with two such arguments, which the macro accepts, the method is never called.
-/

namespace Caelix

open Interaction Proc

section Responses

variable {V : Type} (backend : Backend) (parseEncoded : String → Option (String × String))
  (route : Route) (state : RouteState) (request : Request V)

/-- The interceptors and the method. -/
def isExecution : RouteCall V → Bool
  | .intercept _ _ => true
  | .resume _ _ => true
  | .handler _ _ => true
  | _ => false

/-- Interceptors go on with a result, the first one first. -/
def Resumed : List ProviderDependency → Except HttpException HttpResponse → RouteHistory V →
    Except HttpException HttpResponse → Prop
  | [], a, history, b => history = [] ∧ b = a
  | interceptor :: others, a, history, c => ∃ b later,
    history = ⟨.resume interceptor a, b⟩ :: later ∧ Resumed others b later c

/-- The method was called once, or the extraction of its arguments has failed. -/
def MethodRan (history : RouteHistory V) (result : Except HttpException HttpResponse) : Prop :=
  ∃ extraction own, history = extraction ++ own ∧ (∀ e ∈ extraction, isStage e.1 = false) ∧
    ((own = [] ∧ ∃ e, result = .error e) ∨ ∃ values, own = [⟨.handler route.handler values, result⟩])

/-- An interceptor answers, or drops `next` after some of its calls for an answer of its own. -/
inductive Intervened (interceptor : ProviderDependency) (c : RequestContext) :
    RouteHistory V → Except HttpException HttpResponse → Prop
  | answered (a : Except HttpException HttpResponse) :
      Intervened interceptor c [⟨.intercept interceptor c, Intercepted.answered a⟩] a
  | dropped {n : Nat} {a : Except HttpException HttpResponse} {inside : RouteHistory V}
      (hLength : inside.length = n + 1) : Intervened interceptor c
        (⟨.intercept interceptor c, Intercepted.proceeds (some (n, a))⟩ :: inside) a

/-- The interceptors `outer` have let a request pass and waited for its result, and `inner` not: the
first of them intervened, or there was none and the method ran. -/
def Executed (ctx : Option RequestContext) (history : RouteHistory V)
    (result : Except HttpException HttpResponse) : Prop :=
  ∃ outer inner entered middle left a, route.interceptors = outer ++ inner ∧
    history = entered ++ middle ++ left ∧
    List.Forall₂ (InterceptorProceeded ctx) outer entered ∧ Resumed outer.reverse a left result ∧
    match inner with
    | [] => MethodRan route middle a
    | interceptor :: _ => ∃ c, ctx = some c ∧ Intervened interceptor c middle a

/-- The response to a result; an exception is logged. -/
def Responded (result : Except HttpException HttpResponse) (history : RouteHistory V)
    (response : HttpResponse) : Prop :=
  match result with
  | .ok value => history = [] ∧ response = value
  | .error e => history = [⟨.logException e, ()⟩] ∧ response = e.intoResponse

/-- A complete run of a handler. -/
def HandlerEnds (history : RouteHistory V) : Except Exit HttpResponse → Prop
  | .ok response => ∃ ctx payload admitted execution logged result,
    history = admitted ++ execution ++ logged ∧
      Entered backend route state request ctx payload [] admitted ∧
      Executed route ctx execution result ∧ Responded result logged response
  | .error (.response _) => ∀ e ∈ history, isExecution e.1 = false
  | .error (.panic _) => True

/-! ## The interceptors -/

theorem interceptLayer_resume (c : RequestContext) (interceptor : ProviderDependency)
    (result : Except HttpException HttpResponse) :
    (interceptLayer (V := V) c interceptor).resume (result.mapError .exception) =
      some ⟨.resume interceptor result, fun r => r.mapError .exception⟩ := by
  cases result <;> rfl

theorem leaves_resumed {c : RequestContext} {interceptors : List ProviderDependency}
    {a : Except HttpException HttpResponse} {history : RouteHistory V}
    {b : Except RouteError HttpResponse}
    (h : Leaves (interceptors.map (interceptLayer c)) (a.mapError .exception) history b) :
    ∃ result, Resumed interceptors a history result ∧ b = result.mapError .exception := by
  induction interceptors generalizing a history with
  | nil =>
    obtain ⟨rfl, rfl⟩ := h
    exact ⟨a, ⟨rfl, rfl⟩, rfl⟩
  | cons interceptor interceptors ih =>
    obtain ⟨own, later, next, rfl, hOwn, hLater⟩ := h
    unfold Layer.Leaves at hOwn
    rw [interceptLayer_resume] at hOwn
    obtain ⟨r, rfl, rfl⟩ := hOwn
    obtain ⟨result, hResumed, hResult⟩ := ih hLater
    exact ⟨result, ⟨r, later, rfl, hResumed⟩, hResult⟩

/-- A panic is left as it is. -/
theorem leaves_panic {c : RequestContext} {interceptors : List ProviderDependency} {message : String}
    {history : RouteHistory V} {b : Except RouteError HttpResponse}
    (h : Leaves (interceptors.map (interceptLayer c)) (.error (.panic message)) history b) :
    b = .error (.panic message) := by
  induction interceptors generalizing history with
  | nil => exact h.2
  | cons interceptor interceptors ih =>
    obtain ⟨own, later, next, -, hOwn, hLater⟩ := h
    obtain ⟨-, rfl⟩ : own = [] ∧ next = .error (.panic message) := hOwn
    exact ih hLater

theorem mapError_exception_cases (x : Except RouteError HttpResponse) :
    (∃ result : Except HttpException HttpResponse, x = result.mapError .exception) ∨
      ∃ message, x = .error (.panic message) := by
  match x with
  | .ok response => exact .inl ⟨.ok response, rfl⟩
  | .error (.exception e) => exact .inl ⟨.error e, rfl⟩
  | .error (.panic message) => exact .inr ⟨message, rfl⟩

theorem mapError_exception_inj {x y : Except HttpException HttpResponse}
    (h : x.mapError RouteError.exception = y.mapError .exception) : x = y := by
  cases x <;> cases y <;> cases h <;> rfl

/-- How a layer of an interceptor ends without the result of `next`. -/
theorem intervened_of_ends {c : RequestContext} {interceptor : ProviderDependency}
    {history : RouteHistory V} {result : Except HttpException HttpResponse}
    (h : (interceptLayer c interceptor).Ends history (result.mapError .exception)) :
    Intervened interceptor c history result := by
  generalize hResult : result.mapError RouteError.exception = a at h
  cases h with
  | @answers r _ h =>
    cases r with
    | proceeds limit => cases h
    | answered answer =>
      cases h
      rw [mapError_exception_inj hResult]
      exact .answered answer
  | @abandons r n _ inside h hLength =>
    cases r with
    | answered answer => cases h
    | proceeds limit =>
      obtain ⟨⟨m, answer⟩, rfl, hSame⟩ := Option.map_eq_some_iff.mp (Decision.runs.inj h)
      cases hSame
      rw [mapError_exception_inj hResult]
      exact .dropped hLength

/-! ## The method -/

theorem post_callHandler (ctx : Option RequestContext) (payload : Option RequestPayload) :
    (callHandler parseEncoded route request ctx payload).run.Post fun history r =>
      ∀ result : Except HttpException HttpResponse, r = result.mapError .exception →
        MethodRan route history result := by
  have hSlots := inner_handlerSlots request route payload
  have hArgs : ∀ slots, Inner ((route.extractors.zip slots).mapM (callArg parseEncoded request ctx)) :=
    fun slots => guards_mapM (inner_callArg parseEncoded request ctx) _
  -- an extraction that fails
  have hFailed : ∀ (history : RouteHistory V) e, (∀ event ∈ history, isStage event.1 = false) → True →
      ∀ result : Except HttpException HttpResponse,
        (.error e : Except RouteError HttpResponse) = result.mapError .exception →
        MethodRan route history result := by
    intro history e hHistory _ result hResult
    refine ⟨history, [], (List.append_nil _).symm, hHistory, .inl ⟨rfl, ?_⟩⟩
    cases result with
    | ok response => cases hResult
    | error e => exact ⟨e, rfl⟩
  refine post_bind_calls hSlots (ensures_true _) hFailed fun before slots hBefore _ => ?_
  refine post_bind_calls (hArgs slots) (ensures_true _) ?_ fun later values hLater _ => ?_
  · intro later e hLater
    exact hFailed _ e (List.forall_mem_append.mpr ⟨hBefore, hLater⟩)
  · intro r
    show (orException r : RouteRoutine V _).run.Post _
    have hRan : ∀ result : Except HttpException HttpResponse, r = result →
        MethodRan route (before ++ (later ++ [⟨.handler route.handler values, r⟩])) result := by
      rintro result rfl
      refine ⟨before ++ later, _, (List.append_assoc ..).symm, ?_, .inr ⟨values, rfl⟩⟩
      exact List.forall_mem_append.mpr ⟨hBefore, hLater⟩
    cases r with
    | ok response => exact fun result hResult => hRan result (mapError_exception_inj hResult)
    | error e => exact fun result hResult => hRan result (mapError_exception_inj hResult)

theorem post_handlerExecution (ctx : Option RequestContext) (payload : Option RequestPayload) :
    (handlerExecution parseEncoded route request ctx payload).Post fun history r =>
      ∀ result : Except HttpException HttpResponse, r = result.mapError .exception →
        Executed route ctx history result := by
  have hCore := post_callHandler parseEncoded route request ctx payload
  unfold handlerExecution
  cases hInterceptors : route.interceptors with
  | nil =>
    refine post_mono hCore fun history r hRan result hResult => ?_
    exact ⟨[], [], [], history, [], result, hInterceptors, by simp, .nil, ⟨rfl, rfl⟩,
      hRan result hResult⟩
  | cons first others =>
    cases ctx with
    | none => exact fun result hResult => by cases result <;> cases hResult
    | some c =>
      dsimp only
      rw [← hInterceptors]
      refine post_mono (post_layered hCore) ?_
      rintro _ r ⟨outer, inner, entered, middle, left, a, hSplit, rfl, hEntered, hLeft, hMiddle⟩
        result rfl
      obtain ⟨before, after, hBefore, rfl, rfl⟩ := List.map_eq_append_iff.mp hSplit
      rw [← List.map_reverse] at hLeft
      rcases mapError_exception_cases a with ⟨own, rfl⟩ | ⟨message, rfl⟩
      · obtain ⟨final, hResumed, hFinal⟩ := leaves_resumed hLeft
        rw [mapError_exception_inj hFinal]
        refine ⟨before, after, entered, middle, left, own, hBefore, rfl, enters_iff.mp hEntered,
          hResumed, ?_⟩
        cases after with
        | nil => exact hMiddle own rfl
        | cons interceptor after =>
          exact ⟨c, rfl, intervened_of_ends hMiddle⟩
      · have hPanic := leaves_panic hLeft
        cases result <;> cases hPanic

/-! ## The handler -/

theorem post_finish (r : Except RouteError HttpResponse) :
    (finish r : HandlerRoutine V HttpResponse).run.Post fun logged final =>
      (∃ message, final = .error (.panic message)) ∨
        ∃ result response, r = result.mapError .exception ∧ final = .ok response ∧
          Responded result logged response := by
  match r with
  | .ok response => exact .inr ⟨.ok response, response, rfl, rfl, rfl, rfl⟩
  | .error (.exception e) => exact fun _ => .inr ⟨.error e, e.intoResponse, rfl, rfl, rfl, rfl⟩
  | .error (.panic message) => exact .inl ⟨message, rfl⟩

/-- Every complete run of a handler is as `HandlerEnds` says. -/
theorem post_handleRequest : (handleRequest backend parseEncoded route state request).run.Post
    (HandlerEnds backend route state request) := by
  -- a response before the interceptors
  have hEarly : ∀ (history : RouteHistory V) e, (∀ event ∈ history, isExecution event.1 = false) →
      IsResponse e → HandlerEnds backend route state request history (.error e) := by
    rintro history _ hHistory ⟨response, rfl⟩
    exact hHistory
  unfold handleRequest
  refine post_bind_calls (guards_contextSetup route request (P := fun _ c => isExecution c = false))
    (ensures_contextSetup route request) hEarly ?_
  rintro _ ctx - ⟨rfl, hContext⟩
  simp only [List.nil_append]
  refine post_bind_calls (P := fun c => isExecution c = false)
    (guards_throttleCheck route state fun _ _ _ _ => rfl)
    (ensures_throttleCheck route state request hContext) hEarly fun throttled _ hFirst hThrottled => ?_
  refine post_bind_calls (P := fun c => isExecution c = false)
    (guards_forM (fun _ => guards_guardCheck (fun _ _ => rfl) fun _ _ => rfl) _)
    (ensures_guards route request hContext) ?_ fun guarded _ hSecond hGuarded => ?_
  · intro history e hHistory
    exact hEarly _ e (List.forall_mem_append.mpr ⟨hFirst, hHistory⟩)
  have hChecked : Checked route state request ctx route.guards (throttled ++ guarded) :=
    ⟨hContext, throttled, guarded, rfl, hThrottled, hGuarded⟩
  simp only [← List.append_assoc]
  refine post_bind_calls (P := fun c => isExecution c = false)
    (guards_payloadBuffering backend route request fun _ => rfl)
    (ensures_payloadBuffering backend route request) ?_ fun buffered payload _ hBody => ?_
  · intro history e hHistory
    exact hEarly _ e (List.forall_mem_append.mpr
      ⟨List.forall_mem_append.mpr ⟨hFirst, hSecond⟩, hHistory⟩)
  refine post_bind_except.mpr (post_lift.mpr ?_)
  refine post_mono (post_handlerExecution parseEncoded route request ctx payload) ?_
  intro execution r hExecuted
  refine post_mono (post_finish r) ?_
  rintro logged final (⟨message, rfl⟩ | ⟨result, response, hResult, rfl, hResponded⟩)
  · trivial
  · refine ⟨ctx, payload, throttled ++ guarded ++ buffered, execution, logged, result, ?_, ?_,
      hExecuted result hResult, hResponded⟩
    · simp only [List.append_assoc]
    · exact ⟨throttled ++ guarded, buffered, [], (List.append_nil _).symm, hChecked, hBody.1, .nil⟩

/-! ## Panics -/

/-- An interceptor that ends by itself does so with a response or an exception. -/
theorem ends_exception {c : RequestContext} {interceptor : ProviderDependency}
    {history : RouteHistory V} {a : Except RouteError HttpResponse}
    (h : (interceptLayer c interceptor).Ends history a) (message : String) :
    a ≠ .error (.panic message) := by
  rintro rfl
  cases h with
  | @answers r _ h =>
    cases r with
    | proceeds limit => cases h
    | answered answer => cases answer <;> cases h
  | @abandons r n _ inside h _ =>
    cases r with
    | answered answer => cases h
    | proceeds limit =>
      obtain ⟨⟨m, answer⟩, -, hSame⟩ := Option.map_eq_some_iff.mp (Decision.runs.inj h)
      cases answer <;> cases hSame

theorem post_handlerExecution_panic {ctx : Option RequestContext}
    (hContext : HasContext route request ctx) {payload : Option RequestPayload}
    (hPayload : payload.isSome = route.hasPayload) (hAccepted : route.Accepted)
    (hOne : route.forms ≤ 1) :
    (handlerExecution parseEncoded route request ctx payload).Post fun _ r =>
      ∀ message, r ≠ .error (.panic message) := by
  have hSome : route.needsRequestContext = true → ctx.isSome = true := by
    intro hNeeds
    cases ctx with
    | some c => rfl
    | none => exact absurd hContext.1 (by rw [hNeeds]; exact Bool.noConfusion)
  have hReads : ∀ arg ∈ route.extractors, arg.readsContext = true → ctx.isSome = true := by
    intro arg hMem hArg
    refine hSome ?_
    have hAny : route.extractors.any ExtractorArg.readsContext = true :=
      List.any_eq_true.mpr ⟨arg, hMem, hArg⟩
    rw [Route.needsRequestContext, hAny, Bool.or_true]
  have hCore : (callHandler parseEncoded route request ctx payload).run.Post fun _ r =>
      ∀ message, r ≠ .error (.panic message) := by
    refine post_mono (ensures_callHandler parseEncoded request ctx route payload hPayload hAccepted
      hOne hReads) ?_
    rintro history r hException message rfl
    obtain ⟨e, he⟩ := hException
    cases he
  unfold handlerExecution
  cases hInterceptors : route.interceptors with
  | nil => exact hCore
  | cons first others =>
    cases ctx with
    | none =>
      have hNone := hSome (by simp [Route.needsRequestContext, hInterceptors])
      cases hNone
    | some c =>
      dsimp only
      rw [← hInterceptors]
      refine post_mono (post_layered hCore) ?_
      rintro _ r ⟨outer, inner, entered, middle, left, a, hSplit, rfl, -, hLeft, hMiddle⟩ message rfl
      obtain ⟨before, after, -, rfl, rfl⟩ := List.map_eq_append_iff.mp hSplit
      rw [← List.map_reverse] at hLeft
      rcases mapError_exception_cases a with ⟨own, rfl⟩ | ⟨own, rfl⟩
      · obtain ⟨final, -, hFinal⟩ := leaves_resumed hLeft
        cases final <;> cases hFinal
      · cases after with
        | nil => exact hMiddle own rfl
        | cons interceptor after =>
          exact absurd rfl (ends_exception hMiddle own)

/-- A handler ends with a response. -/
theorem ensures_handleRequest (hAccepted : route.Accepted) (hOne : route.forms ≤ 1) :
    Ensures (handleRequest backend parseEncoded route state request) (fun _ _ => True)
      IsResponse := by
  unfold handleRequest
  refine (ensures_contextSetup route request).bind fun _ ctx ⟨_, hContext⟩ => ?_
  refine (ensures_throttleCheck route state request hContext).bind fun _ _ _ => ?_
  refine (ensures_guards route request hContext).bind fun _ _ _ => ?_
  refine (ensures_payloadBuffering backend route request).bind fun _ payload ⟨_, hPayload⟩ => ?_
  refine Ensures.bind (ensures_lift (post_handlerExecution_panic parseEncoded route request hContext
    hPayload hAccepted hOne)) fun _ r hr => ?_
  match r with
  | .ok response => trivial
  | .error (.exception e) => exact fun _ => trivial
  | .error (.panic message) => exact absurd rfl (hr message)

end Responses

/-- A complete run of the handler of a route: when at most one argument asks for the whole form, it
ends with a response; otherwise the method was not called. -/
theorem handler_answers {V : Type} {item : ControllerItem} {routes : List Route} {route : Route}
    (hExpand : expand item = .ok routes) (hRoute : route ∈ routes) (backend : Backend)
    (parseEncoded : String → Option (String × String)) (state : RouteState) (request : Request V)
    {history : RouteHistory V} {result : Except Exit HttpResponse}
    (hRun : Proc.Run (handleRequest backend parseEncoded route state request).run history
      (.done result)) :
    HandlerEnds backend route state request history result ∧
      if route.forms ≤ 1 then ∀ message, result ≠ .error (.panic message)
      else ∀ e ∈ history, isMethod e.1 = false := by
  obtain ⟨method, -, hDeclares⟩ := mem_expand hExpand hRoute
  refine ⟨hRun.post (post_handleRequest backend parseEncoded route state request), ?_⟩
  split_ifs with hOne
  · rintro message rfl
    obtain ⟨response, hResponse⟩ := hRun.post
      (ensures_handleRequest backend parseEncoded route state request hDeclares.accepted hOne)
    cases hResponse
  · intro e he
    obtain ⟨before, later, -, hDue⟩ := hRun.guards_mem
      (guards_handleRequest backend parseEncoded route state request) he
    match e, hDue with
    | ⟨.handler _ _, _⟩, hDue => exact absurd hDue.2.1 hOne
    | ⟨.check _ _ _ _, _⟩, _ => rfl
    | ⟨.canActivate _ _, _⟩, _ => rfl
    | ⟨.logException _, _⟩, _ => rfl
    | ⟨.readBody, _⟩, _ => rfl
    | ⟨.intercept _ _, _⟩, _ => rfl
    | ⟨.resume _ _, _⟩, _ => rfl
    | ⟨.json _ _, _⟩, _ => rfl
    | ⟨.parseForm _ _ _, _⟩, _ => rfl
    | ⟨.deserialize _ _, _⟩, _ => rfl
    | ⟨.validateContentType _ _ _, _⟩, _ => rfl
    | ⟨.validator _ _, _⟩, _ => rfl
    | ⟨.user _, _⟩, _ => rfl
    | ⟨.validate _, _⟩, _ => rfl

/-- A method that is dropped: the inner interceptor answers with a 504 while it runs, of which the
outer one makes a 200. -/
theorem handler_answers_intercepted : HandlerEnds .axum
    ⟨"get", "/me", "show", [], [⟨2, "Fallback"⟩, ⟨3, "Timeout"⟩], some .skip, none, []⟩ ⟨none⟩
    (⟨[], none, 10, fun _ => 0⟩ : Request Nat)
    [⟨.intercept ⟨2, "Fallback"⟩ ⟨∅, none⟩, Intercepted.proceeds none⟩,
      ⟨.intercept ⟨3, "Timeout"⟩ ⟨∅, none⟩,
        Intercepted.proceeds (some (0, .error (HttpException.new 504 "Gateway Timeout" "")))⟩,
      ⟨.handler "show" [], Except.ok (HttpResponse.new 201 [] "")⟩,
      ⟨.resume ⟨2, "Fallback"⟩ (.error (HttpException.new 504 "Gateway Timeout" "")),
        Except.ok (HttpResponse.new 200 [] "")⟩] (.ok (HttpResponse.new 200 [] "")) := by
  have hExpand : expand ⟨"/me", [], [⟨"show", [.verb "get" (.ok ""), .skipThrottle .absent,
      .useInterceptor (.ok [⟨2, "Fallback"⟩, ⟨3, "Timeout"⟩])], [], false⟩]⟩ =
      .ok [⟨"get", "/me", "show", [], [⟨2, "Fallback"⟩, ⟨3, "Timeout"⟩], some .skip, none, []⟩] := rfl
  refine (handler_answers hExpand (List.mem_singleton_self _) .axum (fun _ => none) ⟨none⟩ _ ?_).1
  show Proc.Run (.call (RouteCall.intercept ⟨2, "Fallback"⟩ ⟨∅, none⟩) _) _ _
  refine .cons ?_
  show Proc.Run (.call (RouteCall.intercept ⟨3, "Timeout"⟩ ⟨∅, none⟩) _) _ _
  refine .cons ?_
  show Proc.Run (.call (RouteCall.handler "show" []) _) _ _
  refine .cons ?_
  show Proc.Run (.call (RouteCall.resume ⟨2, "Fallback"⟩ _) _) _ _
  refine .cons ?_
  exact .nil _

end Caelix
