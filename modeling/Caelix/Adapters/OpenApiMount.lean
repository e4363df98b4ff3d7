import Caelix.Core.Json
import Caelix.Core.OpenApi
import Caelix.Core.PreflightSpec

/-!
# Mounting an OpenAPI document on Axum

`mount_openapi` of the Axum adapter. It serves the document at the JSON path, and Swagger UI at
the UI path and at the UI path with one slash at its end. Axum is not part of the repository:
`Router.route` states what its documentation says, that a router panics when a path is registered
twice for a method. Nothing else of it matters here.

* `mountOpenapi_ok_iff`: mounting does not panic when the three paths differ, and are free.
* `eq_uiPrefix_iff`: the paths that the third path may be.
* `openapi_mounts_iff`: what keeps an accepted configuration from a collision.
-/

namespace Caelix

/-! ## Routers -/

/-- What a route answers with. -/
inductive Endpoint where
  | handler (name : String)
  | content (contentType body : String)
  deriving DecidableEq, Repr

structure RouterEntry where
  path : String
  method : HttpMethod
  endpoint : Endpoint
  deriving DecidableEq, Repr

def RouterEntry.key (entry : RouterEntry) : String × HttpMethod := (entry.path, entry.method)

/-- A `Router` as Axum documents it: no path is registered twice for a method. -/
structure Router where
  entries : List RouterEntry
  nodup : (entries.map RouterEntry.key).Nodup

/-- The panic of a router: overlapping method route. -/
structure OverlappingRoute where
  path : String
  method : HttpMethod
  deriving DecidableEq, Repr

namespace Router

def new : Router := ⟨[], List.nodup_nil⟩

def route (entry : RouterEntry) (router : Router) : Except OverlappingRoute Router :=
  if h : entry.key ∈ router.entries.map RouterEntry.key then .error ⟨entry.path, entry.method⟩
  else .ok ⟨entry :: router.entries, List.nodup_cons.mpr ⟨h, router.nodup⟩⟩

/-- Routes registered one after another. -/
def routeAll (entries : List RouterEntry) (router : Router) : Except OverlappingRoute Router :=
  entries.foldlM (fun router entry => router.route entry) router

theorem route_ok {entry : RouterEntry} {router mounted : Router}
    (h : router.route entry = .ok mounted) :
    entry.key ∉ router.entries.map RouterEntry.key ∧ mounted.entries = entry :: router.entries := by
  unfold route at h
  split at h
  · cases h
  · rename_i hFree
    cases h
    exact ⟨hFree, rfl⟩

theorem route_free {entry : RouterEntry} {router : Router}
    (h : entry.key ∉ router.entries.map RouterEntry.key) :
    ∃ mounted, router.route entry = .ok mounted ∧ mounted.entries = entry :: router.entries :=
  ⟨_, dif_neg h, rfl⟩

/-- Routes are registered without a panic when their keys differ and are free. -/
theorem routeAll_ok_iff {entries : List RouterEntry} {router : Router} :
    (∃ mounted, router.routeAll entries = .ok mounted) ↔
      (entries.map RouterEntry.key).Nodup ∧
        ∀ entry ∈ entries, entry.key ∉ router.entries.map RouterEntry.key := by
  induction entries generalizing router with
  | nil => exact iff_of_true ⟨router, rfl⟩ ⟨List.nodup_nil, nofun⟩
  | cons entry entries ih =>
    rw [routeAll, List.foldlM_cons, List.map_cons, List.nodup_cons, List.forall_mem_cons]
    constructor
    · rintro ⟨mounted, h⟩
      obtain ⟨next, hRoute, hRest⟩ := Fallible.bind_ok_iff.mp h
      obtain ⟨hFree, hEntries⟩ := route_ok hRoute
      obtain ⟨hNodup, hLater⟩ := ih.mp ⟨mounted, hRest⟩
      have hApart : ∀ later ∈ entries,
          later.key ≠ entry.key ∧ later.key ∉ router.entries.map RouterEntry.key := by
        intro later hMem
        have hNot := hLater later hMem
        rwa [hEntries, List.map_cons, List.mem_cons, not_or] at hNot
      refine ⟨⟨?_, hNodup⟩, hFree, fun later hMem => (hApart later hMem).2⟩
      intro hMem
      obtain ⟨later, hMem, hSame⟩ := List.mem_map.mp hMem
      exact (hApart later hMem).1 hSame
    · rintro ⟨⟨hNew, hNodup⟩, hFree, hLater⟩
      obtain ⟨next, hRoute, hEntries⟩ := route_free hFree
      have hNext : ∀ later ∈ entries, later.key ∉ next.entries.map RouterEntry.key := by
        intro later hMem
        rw [hEntries, List.map_cons, List.mem_cons, not_or]
        exact ⟨fun hSame => hNew (hSame ▸ List.mem_map_of_mem hMem), hLater later hMem⟩
      obtain ⟨mounted, hMounted⟩ := ih.mpr ⟨hNodup, hNext⟩
      exact ⟨mounted, Fallible.bind_ok_iff.mpr ⟨next, hRoute, hMounted⟩⟩

end Router

/-! ## Mounting -/

variable {S W : Type}

def swaggerUiHtml (jsonPath : String) : String :=
  "<!doctype html><html><head><meta charset=\"utf-8\"><title>Swagger UI</title>" ++
    "<link rel=\"stylesheet\" href=\"https://unpkg.com/swagger-ui-dist@5/swagger-ui.css\">" ++
    "</head><body><div id=\"swagger-ui\"></div>" ++
    "<script src=\"https://unpkg.com/swagger-ui-dist@5/swagger-ui-bundle.js\"></script>" ++
    "<script>SwaggerUIBundle(\x7burl:" ++ Json.quoted jsonPath ++
    ",dom_id:'#swagger-ui'\x7d);</script></body></html>"

namespace OpenApiConfig

/-- What `mount_openapi` registers. -/
def entries (config : OpenApiConfig S) (document : String) : List RouterEntry :=
  let html := swaggerUiHtml config.jsonPath
  [⟨config.jsonPath, .get, .content "application/json" document⟩,
    ⟨config.uiPath, .get, .content "text/html; charset=utf-8" html⟩,
    ⟨config.uiPrefix, .get, .content "text/html; charset=utf-8" html⟩]

def mountedPaths (config : OpenApiConfig S) : List String :=
  [config.jsonPath, config.uiPath, config.uiPrefix]

end OpenApiConfig

def mountOpenapi (router : Router) (config : OpenApiConfig S) (document : String) :
    Except OverlappingRoute Router :=
  router.routeAll (config.entries document)

theorem key_entries (config : OpenApiConfig S) (document : String) :
    (config.entries document).map RouterEntry.key =
      config.mountedPaths.map fun path => (path, HttpMethod.get) := rfl

/-- Mounting does not panic when the paths differ, and are free. -/
theorem mountOpenapi_ok_iff {router : Router} {config : OpenApiConfig S} {document : String} :
    (∃ mounted, mountOpenapi router config document = .ok mounted) ↔
      config.mountedPaths.Nodup ∧
        ∀ path ∈ config.mountedPaths, (path, .get) ∉ router.entries.map RouterEntry.key := by
  have hInj : Function.Injective fun path : String => (path, HttpMethod.get) :=
    fun _ _ h => (Prod.mk.inj h).1
  have hKeys := key_entries config document
  rw [mountOpenapi, Router.routeAll_ok_iff, hKeys, List.nodup_map_iff hInj]
  apply and_congr_right'
  rw [← List.forall_mem_map (f := RouterEntry.key)
    (P := fun key => key ∉ router.entries.map RouterEntry.key), hKeys, List.forall_mem_map]

/-! ## Paths that meet -/

/-- A path with exactly one slash at its end. -/
def EndsInOneSlash (path : String) : Prop :=
  ∃ stem : List Char, path.toList = stem ++ ['/'] ∧ stem.getLast? ≠ some '/'

theorem rdropWhile_of_getLast? {c : Char} {l : List Char} (h : l.getLast? ≠ some c) :
    l.rdropWhile (· == c) = l := by
  rw [List.rdropWhile_eq_self_iff]
  intro hne hLast
  rw [List.getLast?_eq_some_getLast hne] at h
  exact h (congrArg some (eq_of_beq hLast))

theorem getLast?_rdropWhile (c : Char) (l : List Char) :
    (l.rdropWhile (· == c)).getLast? ≠ some c := by
  intro hLast
  have hne : l.rdropWhile (· == c) ≠ [] := by
    intro h
    rw [h] at hLast
    cases hLast
  rw [List.getLast?_eq_some_getLast hne] at hLast
  exact List.rdropWhile_last_not _ _ hne (beq_iff_eq.mpr (Option.some.inj hLast))

/-- The paths that the third path may be. -/
theorem eq_uiPrefix_iff {config : OpenApiConfig S} {path : String} :
    path = config.uiPrefix ↔
      EndsInOneSlash path ∧ trimEndMatches '/' path = trimEndMatches '/' config.uiPath := by
  let base := config.uiPath.toList.rdropWhile (· == '/')
  have hBase : base.getLast? ≠ some '/' := getLast?_rdropWhile '/' config.uiPath.toList
  have hPrefix : config.uiPrefix.toList = base ++ ['/'] := by
    rw [OpenApiConfig.uiPrefix, trimEndMatches, String.toList_append, String.toList_ofList]
    rfl
  -- Trimming a path removes its one slash.
  have hTrim : ∀ {path : String} {stem : List Char}, path.toList = stem ++ ['/'] →
      stem.getLast? ≠ some '/' → trimEndMatches '/' path = String.ofList stem := by
    intro path stem hPath hStem
    rw [trimEndMatches, hPath, List.rdropWhile_concat_pos _ _ _ (by rfl),
      rdropWhile_of_getLast? hStem]
  constructor
  · rintro rfl
    exact ⟨⟨base, hPrefix, hBase⟩, hTrim hPrefix hBase⟩
  · rintro ⟨⟨stem, hPath, hStem⟩, hSame⟩
    rw [hTrim hPath hStem] at hSame
    have hStemBase : stem = base := String.ofList_injective hSame
    apply String.toList_inj.mp
    rw [hPath, hPrefix, hStemBase]

theorem EndsInOneSlash.getLast? {path : String} (h : EndsInOneSlash path) :
    path.toList.getLast? = some '/' := by
  obtain ⟨stem, hPath, -⟩ := h
  rw [hPath, List.getLast?_concat]

/-- No two of the three paths meet. -/
structure OpenApiConfig.PathsApart (config : OpenApiConfig S) : Prop where
  json_ne_ui : config.jsonPath ≠ config.uiPath
  ui : ¬ EndsInOneSlash config.uiPath
  json : ¬ (EndsInOneSlash config.jsonPath ∧
    trimEndMatches '/' config.jsonPath = trimEndMatches '/' config.uiPath)

theorem nodup_mountedPaths_iff {config : OpenApiConfig S} :
    config.mountedPaths.Nodup ↔ config.PathsApart := by
  have hUi : config.uiPath = config.uiPrefix ↔ EndsInOneSlash config.uiPath := by
    rw [eq_uiPrefix_iff, and_iff_left rfl]
  have hNodup : config.mountedPaths.Nodup ↔ (config.jsonPath ≠ config.uiPath ∧
      config.jsonPath ≠ config.uiPrefix) ∧ config.uiPath ≠ config.uiPrefix := by
    simp [OpenApiConfig.mountedPaths]
  rw [hNodup, ne_eq, ne_eq, ne_eq, hUi, eq_uiPrefix_iff]
  constructor
  · rintro ⟨⟨hJsonUi, hJson⟩, hUi⟩
    exact ⟨hJsonUi, hUi, hJson⟩
  · intro h
    exact ⟨⟨h.json_ne_ui, h.json⟩, h.ui⟩

/-- The default paths are apart. -/
theorem pathsApart_default {config : OpenApiConfig S} (hJson : config.jsonPath = "/openapi.json")
    (hUi : config.uiPath = "/docs") : config.PathsApart where
  json_ne_ui := by
    rw [hJson, hUi]
    decide
  ui h := by
    have hLast := h.getLast?
    rw [hUi] at hLast
    exact absurd hLast (by decide +kernel)
  json h := by
    have hLast := h.1.getLast?
    rw [hJson] at hLast
    exact absurd hLast (by decide +kernel)

/-! ## Accepted configurations -/

/-- The configuration mounts without a collision of routes, over the routes of the controllers. -/
structure MountsWithoutCollision (routes : List OpenApiRouteDef) (config : OpenApiConfig S) :
    Prop where
  apart : config.mountedPaths.Nodup
  undocumented : ∀ path ∈ config.mountedPaths, ∀ route ∈ routes, route.fullPath ≠ path
  mounts : ∀ (router : Router) (document : String),
    (∀ entry ∈ router.entries, ∃ route ∈ routes, entry.key = (route.fullPath, route.verb)) →
      ∃ mounted, mountOpenapi router config document = .ok mounted

/-- The routes of an accepted document are apart from all three paths. -/
theorem undocumented_of_accepted {openapi : OpenApi S} {config : OpenApiConfig S} {p : String}
    (h : validateDocumentPaths openapi config = .ok ()) (hp : p ∈ openapi.paths) :
    p ∉ config.mountedPaths := by
  obtain ⟨hJson, hUi, hPrefix⟩ := validateDocumentPaths_ok.mp h p hp
  have hThird : p ≠ config.uiPrefix := by
    rintro rfl
    rw [startsWith_self] at hPrefix
    cases hPrefix
  simp [OpenApiConfig.mountedPaths, hJson, hUi, hThird]

/-- An accepted configuration mounts without a collision exactly when its own paths do not meet:
the three paths are never compared with each other. -/
theorem openapi_mounts_iff {S W : Type} (P : Program W)
    (openapiRoutes : TypeId → List OpenApiRouteDef) (root : ModuleDef) (config : OpenApiConfig S)
    (document : OpenApi S) (h : buildOpenapi P openapiRoutes root config = .ok document) :
    ∃ routes, visitModuleOpenapiRoutes P openapiRoutes root = .ok routes ∧
      (MountsWithoutCollision routes config ↔ config.PathsApart) := by
  obtain ⟨routes, hRoutes, rfl, -, hValid⟩ := buildOpenapi_ok_iff.mp h
  have hFree : ∀ path ∈ config.mountedPaths, ∀ route ∈ routes, route.fullPath ≠ path := by
    rintro path hPath route hRoute rfl
    exact undocumented_of_accepted hValid (mem_paths_ofRoutes.mpr ⟨route, hRoute, rfl⟩) hPath
  refine ⟨routes, hRoutes, fun hMounts => nodup_mountedPaths_iff.mp hMounts.apart, ?_⟩
  intro hApart
  have hNodup := nodup_mountedPaths_iff.mpr hApart
  refine ⟨hNodup, hFree, ?_⟩
  intro router text hRouter
  refine mountOpenapi_ok_iff.mpr ⟨hNodup, ?_⟩
  intro path hPath hKey
  obtain ⟨entry, hEntry, hSame⟩ := List.mem_map.mp hKey
  obtain ⟨route, hRoute, hEntryKey⟩ := hRouter entry hEntry
  exact hFree path hPath route hRoute (Prod.mk.inj (hEntryKey.symm.trans hSame)).1

/-- The routes of `UsersController`. -/
def usersRoutes : TypeId → List OpenApiRouteDef
  | 21 =>
    [⟨.get, "/users", "", "UsersController::list", []⟩,
      ⟨.post, "/users", "", "UsersController::create", [.bearerAuth]⟩]
  | _ => []

def usersConfig : OpenApiConfig Unit :=
  (OpenApiConfig.new "Users" "1.0").insertSecurityScheme "BearerAuth" () .bearerAuth

theorem validateDocumentPaths_users {config : OpenApiConfig Unit}
    (hJson : "/users" ≠ config.jsonPath) (hUi : "/users" ≠ config.uiPath)
    (hPrefix : ¬ config.uiPrefix.toList <+: "/users".toList) :
    validateDocumentPaths (.ofRoutes config (usersRoutes 21)) config = .ok () := by
  apply validateDocumentPaths_ok.mpr
  intro p hp
  obtain ⟨route, hRoute, rfl⟩ := mem_paths_ofRoutes.mp hp
  have hPath : route.fullPath = "/users" := by
    have hAll : ∀ route ∈ usersRoutes 21, route.fullPath = "/users" := by decide +kernel
    exact hAll route hRoute
  rw [hPath]
  exact ⟨hJson, hUi, String.startsWith_string_eq_false_iff.mpr hPrefix⟩

theorem openapi_mounts_users :
    ∃ document, buildOpenapi usersProgram usersRoutes ⟨10, "App"⟩ usersConfig = .ok document ∧
      MountsWithoutCollision (usersRoutes 21) usersConfig := by
  have hRoutes : visitModuleOpenapiRoutes usersProgram usersRoutes ⟨10, "App"⟩ =
      .ok (usersRoutes 21) := rfl
  have hPaths : validateDocumentPaths (.ofRoutes usersConfig (usersRoutes 21)) usersConfig =
      .ok () :=
    validateDocumentPaths_users (by decide) (by decide) (by decide +kernel)
  have hAccepted := buildOpenapi_ok_iff.mpr ⟨_, hRoutes, rfl, rfl, hPaths⟩
  obtain ⟨routes, hSame, hIff⟩ :=
    openapi_mounts_iff usersProgram usersRoutes ⟨10, "App"⟩ usersConfig _ hAccepted
  cases Except.ok.inj (hRoutes.symm.trans hSame)
  exact ⟨_, hAccepted, hIff.mpr (pathsApart_default rfl rfl)⟩

/-- A UI path that ends in a slash is accepted, and is mounted twice. -/
theorem openapi_collides :
    ¬ ∀ (P : Program Unit) (openapiRoutes : TypeId → List OpenApiRouteDef) (root : ModuleDef)
        (config : OpenApiConfig Unit) (document : OpenApi Unit) (routes : List OpenApiRouteDef),
      buildOpenapi P openapiRoutes root config = .ok document →
        visitModuleOpenapiRoutes P openapiRoutes root = .ok routes →
          MountsWithoutCollision routes config := by
  intro hClaim
  let config := usersConfig.withUiPath "/docs/"
  have hRoutes : visitModuleOpenapiRoutes usersProgram usersRoutes ⟨10, "App"⟩ =
      .ok (usersRoutes 21) := rfl
  have hPaths : validateDocumentPaths (.ofRoutes config (usersRoutes 21)) config = .ok () :=
    validateDocumentPaths_users (by decide +kernel) (by decide +kernel) (by decide +kernel)
  have hAccepted := buildOpenapi_ok_iff.mpr ⟨_, hRoutes, rfl, rfl, hPaths⟩
  have hApart := (hClaim usersProgram usersRoutes ⟨10, "App"⟩ config _ _ hAccepted hRoutes).apart
  exact absurd hApart (by decide +kernel)

end Caelix
