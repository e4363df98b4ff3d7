import Caelix.Controller.Route

/-!
# Throttle annotations around the controller

A throttle annotation below `controller` is read by the controller macro. One above it is expanded
before, into a documentation attribute at the end of the block, which the macro then reads.
Above `controller`, `skip_throttle` may have empty parentheses, and below it may not.

* `ofController_iff`: the attributes that the macro accepts, with at most one throttle setting.
* `expand_marker_of_setting`: a setting that is read alike gives the same routes in both cases.
* `expand_marker_iff`: so do all annotations but `skip_throttle` with empty parentheses.
-/

namespace Caelix

/-- `expand_controller_throttle_marker`; the error replaces the block. -/
def expandControllerThrottleMarker (setting : Except String ThrottleAnnotation)
    (item : ControllerItem) : Except (List String) ControllerItem :=
  match setting with
  | .error message => .error [message]
  | .ok setting =>
    .ok { item with attributes := item.attributes ++ [.doc (throttleMarker setting)] }

/-- The annotation of `skip_throttle` above `controller`, where its arguments are a token stream. -/
def parseSkip (arguments : SkipArguments) : Except String ThrottleAnnotation :=
  if arguments = .given then .error "skip_throttle does not accept arguments" else .ok .skip

/-- The annotation below it, where the attribute must be a path. -/
def readSkip (arguments : SkipArguments) : Except String ThrottleAnnotation :=
  if arguments = .absent then .ok .skip else .error "skip_throttle does not accept arguments"

/-- What an attribute of a controller says of throttling. -/
def Attribute.setting : Attribute → Option (Except String ThrottleAnnotation)
  | .doc text => (throttleDocMarker text).map .ok
  | .throttle arguments => some (parseThrottle arguments)
  | .skipThrottle arguments => some (readSkip arguments)
  | _ => none

/-- An attribute of a controller that its parser accepts. -/
def Attribute.Parses : Attribute → Prop
  | .useGuard types => ∃ l, types = .ok l
  | .useInterceptor types => ∃ l, types = .ok l
  | _ => True

/-- The throttle settings of some attributes. -/
def settings (attrs : List Attribute) : List (Except String ThrottleAnnotation) :=
  attrs.filterMap Attribute.setting

namespace Annotations

theorem setThrottle_errors {level : String} {s : Annotations} {x : Except String ThrottleAnnotation} :
    (s.setThrottle level x).errors = [] ↔
      s.errors = [] ∧ s.throttle = none ∧ ∃ setting, x = .ok setting := by
  unfold setThrottle
  cases hThrottle : s.throttle with
  | some setting => simp [error]
  | none =>
    cases x with
    | ok setting => simp [orError]
    | error message => simp [orError, error]

theorem setThrottle_ok {level : String} {s : Annotations} (setting : ThrottleAnnotation)
    (h : s.throttle = none) :
    (s.setThrottle level (.ok setting)).throttle = some setting := by
  rw [setThrottle, h]
  rfl

/-- An accepted attribute that is no throttle setting leaves the throttle as it is. -/
theorem controllerAttribute_other {s : Annotations} {attr : Attribute} (h : attr.setting = none) :
    (s.controllerAttribute attr).throttle = s.throttle ∧
      ((s.controllerAttribute attr).errors = [] ↔ s.errors = [] ∧ attr.Parses) := by
  cases attr with
  | doc text =>
    have hNone : throttleDocMarker text = none := Option.map_eq_none_iff.mp h
    unfold controllerAttribute
    simp only [hNone, Attribute.Parses, and_true]
  | useGuard types =>
    cases types with
    | ok types => simp [controllerAttribute, shared, orError, Attribute.Parses]
    | error message => simp [controllerAttribute, shared, orError, error, Attribute.Parses]
  | useInterceptor types =>
    cases types with
    | ok types => simp [controllerAttribute, shared, orError, Attribute.Parses]
    | error message => simp [controllerAttribute, shared, orError, error, Attribute.Parses]
  | throttle arguments => cases h
  | skipThrottle arguments => cases h
  | verb verb path => exact ⟨rfl, (iff_of_eq (and_true _)).symm⟩
  | upload arguments => exact ⟨rfl, (iff_of_eq (and_true _)).symm⟩
  | other => exact ⟨rfl, (iff_of_eq (and_true _)).symm⟩

/-- A throttle setting is accepted once, when it parses. -/
theorem controllerAttribute_setting {s : Annotations} {attr : Attribute}
    {x : Except String ThrottleAnnotation} (h : attr.setting = some x) :
    ((s.controllerAttribute attr).errors = [] ↔
      s.errors = [] ∧ s.throttle = none ∧ ∃ setting, x = .ok setting) ∧
    ∀ setting, x = .ok setting → s.throttle = none →
      (s.controllerAttribute attr).throttle = some setting := by
  cases attr with
  | doc text =>
    obtain ⟨setting, hMarker, rfl⟩ := Option.map_eq_some_iff.mp h
    unfold controllerAttribute
    simp only [hMarker]
    refine ⟨setThrottle_errors, ?_⟩
    intro _ hParse hNone
    cases hParse
    exact setThrottle_ok _ hNone
  | throttle arguments =>
    cases h
    refine ⟨setThrottle_errors, ?_⟩
    rintro setting hParse hNone
    show (s.setThrottle "controller" (parseThrottle arguments)).throttle = _
    rw [hParse]
    exact setThrottle_ok setting hNone
  | skipThrottle arguments =>
    cases h
    cases arguments with
    | absent =>
      refine ⟨setThrottle_errors, ?_⟩
      rintro _ hParse hNone
      cases hParse
      exact setThrottle_ok (s := s) _ hNone
    | empty | given =>
      refine ⟨?_, fun _ hParse => nomatch hParse⟩
      refine iff_of_false ?_ (fun hOk => nomatch hOk.2.2)
      intro hErrors
      exact absurd (setThrottle_errors.mp hErrors).1 (by simp [error])
  | _ => cases h

/-- The attributes of a controller that the macro accepts, and the throttling they declare. -/
theorem ofController_iff (attrs : List Attribute) :
    ((ofController attrs).errors = [] ↔ (∀ attr ∈ attrs, attr.Parses) ∧
      (settings attrs = [] ∨ ∃ setting, settings attrs = [.ok setting])) ∧
    ((ofController attrs).errors = [] → (ofController attrs).throttle =
      (settings attrs).head?.bind Except.toOption) := by
  induction attrs using List.reverseRecOn with
  | nil => exact ⟨iff_of_true rfl ⟨List.forall_mem_nil _, .inl rfl⟩, fun _ => rfl⟩
  | append_singleton attrs attr ih =>
    obtain ⟨ihErrors, ihThrottle⟩ := ih
    have hStep : ofController (attrs ++ [attr]) = (ofController attrs).controllerAttribute attr := by
      rw [ofController, List.foldl_append]
      rfl
    have hParses : (∀ a ∈ attrs ++ [attr], a.Parses) ↔ (∀ a ∈ attrs, a.Parses) ∧ attr.Parses := by
      rw [List.forall_mem_append, List.forall_mem_singleton]
    rw [hStep, hParses]
    cases hSetting : attr.setting with
    | none =>
      have hSame : settings (attrs ++ [attr]) = settings attrs := by simp [settings, hSetting]
      obtain ⟨hThrottle, hErrors⟩ := controllerAttribute_other (s := ofController attrs) hSetting
      rw [hSame, hErrors, ihErrors, hThrottle]
      refine ⟨by tauto, fun h => ihThrottle (ihErrors.mpr h.1)⟩
    | some x =>
      have hSame : settings (attrs ++ [attr]) = settings attrs ++ [x] := by simp [settings, hSetting]
      have hAttr : attr.Parses := by
        cases attr with
        | useGuard types => cases hSetting
        | useInterceptor types => cases hSetting
        | _ => trivial
      obtain ⟨hErrors, hThrottle⟩ := controllerAttribute_setting (s := ofController attrs) hSetting
      have hNone : (ofController attrs).errors = [] →
          ((ofController attrs).throttle = none ↔ settings attrs = []) := by
        intro hOk
        rw [ihThrottle hOk]
        rcases (ihErrors.mp hOk).2 with hEmpty | ⟨setting, hOne⟩
        · simp [hEmpty]
        · simp [hOne, Except.toOption]
      rw [hSame, hErrors]
      constructor
      · constructor
        · rintro ⟨hOk, hFree, setting, rfl⟩
          refine ⟨⟨(ihErrors.mp hOk).1, hAttr⟩, .inr ⟨setting, ?_⟩⟩
          rw [(hNone hOk).mp hFree]
          rfl
        · rintro ⟨⟨hAll, -⟩, hEmpty | ⟨setting, hOne⟩⟩
          · simp at hEmpty
          · obtain ⟨hBefore, hx⟩ := List.append_eq_singleton_iff.mp hOne |>.resolve_right (by simp)
            have hOk := ihErrors.mpr ⟨hAll, .inl hBefore⟩
            exact ⟨hOk, (hNone hOk).mpr hBefore, setting, (List.cons.inj hx).1⟩
      · rintro ⟨hOk, hFree, setting, rfl⟩
        rw [hThrottle setting rfl hFree, (hNone hOk).mp hFree]
        rfl

end Annotations

/-! ## Both orders of expansion -/

theorem expand_ne_ok {path : String} {attrs : List Attribute} {methods : List MethodItem}
    {routes : List Route} (h : (Annotations.ofController attrs).errors ≠ []) :
    expand ⟨path, attrs, methods⟩ ≠ .ok routes := by
  unfold expand
  dsimp only
  rw [if_neg]
  · exact fun hOk => nomatch hOk
  · intro hNone
    exact h (List.append_eq_nil_iff.mp (List.append_eq_nil_iff.mp hNone).1).1

/-- The routes depend on the attributes of the controller by what is read from them. -/
theorem expand_ok_congr {path : String} {attrs attrs' : List Attribute} {methods : List MethodItem}
    {routes : List Route}
    (hErrors : (Annotations.ofController attrs).errors = [] ↔
      (Annotations.ofController attrs').errors = [])
    (hGuards : (Annotations.ofController attrs).guards = (Annotations.ofController attrs').guards)
    (hInterceptors : (Annotations.ofController attrs).interceptors =
      (Annotations.ofController attrs').interceptors)
    (hThrottle : (Annotations.ofController attrs).errors = [] →
      (Annotations.ofController attrs).throttle = (Annotations.ofController attrs').throttle) :
    expand ⟨path, attrs, methods⟩ = .ok routes ↔ expand ⟨path, attrs', methods⟩ = .ok routes := by
  by_cases hOk : (Annotations.ofController attrs).errors = []
  · have hMethods : expandMethod path (Annotations.ofController attrs) =
        expandMethod path (Annotations.ofController attrs') := by
      unfold expandMethod
      rw [hGuards, hInterceptors, hThrottle hOk]
    unfold expand
    dsimp only
    rw [hOk, hErrors.mp hOk, hMethods]
  · exact iff_of_false (expand_ne_ok hOk) (expand_ne_ok fun h => hOk (hErrors.mpr h))

/-- The settings of a controller with a throttle annotation, wherever it stands. -/
theorem one_setting_iff {before after : List Attribute} {x : Except String ThrottleAnnotation} :
    (settings before ++ x :: settings after = [] ∨
        ∃ setting, settings before ++ x :: settings after = [.ok setting]) ↔
      settings before = [] ∧ settings after = [] ∧ ∃ setting, x = .ok setting := by
  constructor
  · rintro (hNil | ⟨setting, hOne⟩)
    · simp at hNil
    · rcases List.append_eq_singleton_iff.mp hOne with ⟨hBefore, hx⟩ | ⟨-, hx⟩
      · obtain ⟨rfl, hAfter⟩ := List.cons.inj hx
        exact ⟨hBefore, hAfter, setting, rfl⟩
      · cases hx
  · rintro ⟨hBefore, hAfter, setting, rfl⟩
    rw [hBefore, hAfter]
    exact .inr ⟨setting, rfl⟩

section

variable (path : String) (before after : List Attribute) (methods : List MethodItem)
  (routes : List Route)

/-- A throttle setting gives the same routes as a marker and as an attribute of the block. -/
theorem expand_marker_of_setting (attr : Attribute) {x : Except String ThrottleAnnotation}
    (hSetting : attr.setting = some x) (hGuards : attr.guards = [])
    (hInterceptors : attr.interceptors = []) :
    (expandControllerThrottleMarker x ⟨path, before ++ after, methods⟩ >>= expand) = .ok routes ↔
      expand ⟨path, before ++ attr :: after, methods⟩ = .ok routes := by
  have hSettings : settings (before ++ attr :: after) = settings before ++ x :: settings after := by
    simp [settings, hSetting]
  have hParses : attr.Parses := by
    cases attr with
    | useGuard types => cases hSetting
    | useInterceptor types => cases hSetting
    | _ => trivial
  obtain ⟨hErrors, hThrottle⟩ := Annotations.ofController_iff (before ++ attr :: after)
  rw [hSettings, one_setting_iff] at hErrors
  cases x with
  | error message =>
    refine iff_of_false (fun hOk => nomatch hOk) (expand_ne_ok fun hOk => ?_)
    obtain ⟨-, -, -, setting, hx⟩ := hErrors.mp hOk
    cases hx
  | ok setting =>
    have hMarked : settings (before ++ after ++ [.doc (throttleMarker setting)]) =
        settings (before ++ after) ++ .ok setting :: settings [] := by
      simp [settings, Attribute.setting, throttleDocMarker_throttleMarker]
    obtain ⟨hErrors', hThrottle'⟩ := Annotations.ofController_iff
      (before ++ after ++ [.doc (throttleMarker setting)])
    rw [hMarked, one_setting_iff] at hErrors'
    have hAdds := Annotations.foldl_adds Annotations.adds_controllerAttribute
      (before ++ attr :: after) Annotations.empty
    have hAdds' := Annotations.foldl_adds Annotations.adds_controllerAttribute
      (before ++ after ++ [.doc (throttleMarker setting)]) Annotations.empty
    have hSame : (Annotations.ofController (before ++ after ++
          [.doc (throttleMarker setting)])).errors = [] ↔
        (Annotations.ofController (before ++ attr :: after)).errors = [] := by
      rw [hErrors, hErrors']
      have hAll : (∀ a ∈ before ++ after ++ [.doc (throttleMarker setting)], a.Parses) ↔
          ∀ a ∈ before ++ attr :: after, a.Parses := by
        have hDoc : (Attribute.doc (throttleMarker setting)).Parses := trivial
        rw [List.forall_mem_append, List.forall_mem_append, List.forall_mem_singleton,
          List.forall_mem_append, List.forall_mem_cons]
        simp only [hParses, hDoc, true_and, and_true]
      have hNone : settings (before ++ after) = [] ↔ settings before = [] ∧ settings after = [] := by
        rw [settings, List.filterMap_append, List.append_eq_nil_iff]
        rfl
      rw [hAll, hNone]
      simp only [settings, List.filterMap_nil, true_and, and_assoc]
    refine expand_ok_congr hSame ?_ ?_ fun hOk => ?_
    · refine hAdds'.1.trans (Eq.trans ?_ hAdds.1.symm)
      simp only [List.flatMap_append, List.flatMap_cons, hGuards]
      simp [Attribute.guards]
    · refine hAdds'.2.trans (Eq.trans ?_ hAdds.2.symm)
      simp only [List.flatMap_append, List.flatMap_cons, hInterceptors]
      simp [Attribute.interceptors]
    · obtain ⟨-, hBefore, hAfter, -⟩ := hErrors.mp (hSame.mp hOk)
      rw [hThrottle' hOk, hThrottle (hSame.mp hOk), hMarked, hSettings]
      have hNone : settings (before ++ after) = [] := by
        rw [settings, List.filterMap_append]
        exact List.append_eq_nil_iff.mpr ⟨hBefore, hAfter⟩
      rw [hNone, hBefore]
      rfl

/-- A `skip_throttle` that is refused below `controller`. -/
theorem expand_skip_iff (arguments : SkipArguments) :
    expand ⟨path, before ++ .skipThrottle arguments :: after, methods⟩ = .ok routes ↔
      arguments = .absent ∧
        expand ⟨path, before ++ .skipThrottle .absent :: after, methods⟩ = .ok routes := by
  by_cases hAbsent : arguments = .absent
  · subst hAbsent
    exact (and_iff_right rfl).symm
  · refine iff_of_false (fun hOk => ?_) fun h => hAbsent h.1
    have hMarked := (expand_marker_of_setting path before after methods routes
      (.skipThrottle arguments) rfl rfl rfl).mpr hOk
    rw [readSkip, if_neg hAbsent] at hMarked
    cases hMarked

/-- A throttle annotation gives the same routes above `controller` and below it. So does
`skip_throttle`, but with empty parentheses it is accepted above only, as without them; with
arguments it is refused in both places. -/
theorem expand_marker_iff :
    (∀ arguments, (expandControllerThrottleMarker (parseThrottle arguments)
        ⟨path, before ++ after, methods⟩ >>= expand) = .ok routes ↔
      expand ⟨path, before ++ .throttle arguments :: after, methods⟩ = .ok routes) ∧
    ∀ arguments, ((expandControllerThrottleMarker (parseSkip arguments)
        ⟨path, before ++ after, methods⟩ >>= expand) = .ok routes ↔
      arguments ≠ .given ∧
        expand ⟨path, before ++ .skipThrottle .absent :: after, methods⟩ = .ok routes) ∧
      (expand ⟨path, before ++ .skipThrottle arguments :: after, methods⟩ = .ok routes ↔
        arguments = .absent ∧
          expand ⟨path, before ++ .skipThrottle .absent :: after, methods⟩ = .ok routes) := by
  refine ⟨fun arguments =>
      expand_marker_of_setting path before after methods routes (.throttle arguments) rfl rfl rfl,
    fun arguments => ⟨?_, expand_skip_iff path before after methods routes arguments⟩⟩
  by_cases hGiven : arguments = .given
  · refine iff_of_false ?_ fun h => h.1 hGiven
    rw [parseSkip, if_pos hGiven]
    exact nofun
  · rw [and_iff_right hGiven, parseSkip, if_neg hGiven]
    exact expand_marker_of_setting path before after methods routes (.skipThrottle .absent)
      rfl rfl rfl

end

end Caelix
