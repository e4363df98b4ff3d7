import Mathlib.Data.List.DropRight
import Caelix.Core.Discover
import Caelix.Core.ValidationErrors
import Caelix.Lib.Fallible

/-!
# OpenAPI documents

`build_openapi` of `openapi.rs`: the document of the routes of a module graph, and what makes a
configuration acceptable. The schemas of a document are left out, and security schemes are a
parameter. `utoipa`'s `add_path_operation` keeps one item for each path.

* `buildOpenapi`: the document, or why there is none.
* `mem_paths_ofRoutes`: the paths of a document are those of its routes.
* `validateSecurityRequirements_ok`, `validateDocumentPaths_ok`: what makes a document acceptable.
* `buildOpenapi_ok_iff`: which configurations are accepted.
-/

namespace Caelix

/-! ## Configurations -/

/-- A documentation-only security requirement for one controller route. -/
inductive Security where
  | bearerAuth
  | apiKeyAuth
  | cookieAuth
  | oauth2 (scopes : List String)
  | custom (name : String) (scopes : List String)
  deriving DecidableEq, Repr

def Security.nameAndScopes : Security → String × List String
  | bearerAuth => ("BearerAuth", [])
  | apiKeyAuth => ("ApiKeyAuth", [])
  | cookieAuth => ("CookieAuth", [])
  | oauth2 scopes => ("OAuth2", scopes)
  | custom name scopes => (name, scopes)

inductive ConfiguredSecurityKind where
  | bearerAuth
  | apiKeyAuth
  | cookieAuth
  | oauth2
  | custom
  deriving DecidableEq, Repr

structure ConfiguredSecurityScheme (S : Type) where
  scheme : S
  kind : ConfiguredSecurityKind

structure OpenApiConfig (S : Type) where
  title : String
  version : String
  jsonPath : String
  uiPath : String
  securitySchemes : Table String (ConfiguredSecurityScheme S)

def normalizePath (path : String) : String := if path.startsWith "/" then path else "/" ++ path

/-- `str::trim_end_matches`. -/
def trimEndMatches (c : Char) (s : String) : String := String.ofList (s.toList.rdropWhile (· == c))

namespace OpenApiConfig

variable {S : Type}

def new (title version : String) : OpenApiConfig S where
  title
  version
  jsonPath := "/openapi.json"
  uiPath := "/docs"
  securitySchemes := ∅

/-- The builder `json_path`. -/
def withJsonPath (path : String) (config : OpenApiConfig S) : OpenApiConfig S :=
  { config with jsonPath := normalizePath path }

/-- The builder `ui_path`. -/
def withUiPath (path : String) (config : OpenApiConfig S) : OpenApiConfig S :=
  { config with uiPath := normalizePath path }

/-- `insert_security_scheme`, which the builders of security schemes call. -/
def insertSecurityScheme (name : String) (scheme : S) (kind : ConfiguredSecurityKind)
    (config : OpenApiConfig S) : OpenApiConfig S :=
  { config with securitySchemes := config.securitySchemes.insert name ⟨scheme, kind⟩ }

end OpenApiConfig

/-! ## Documents -/

/-- The scopes required of each scheme. -/
abbrev SecurityRequirement := Table String (List String)

structure Operation where
  operationId : Option String
  security : Option (List SecurityRequirement)

/-- The methods of controller routes. -/
inductive HttpMethod where
  | get
  | post
  | put
  | patch
  | delete
  deriving DecidableEq, Repr

structure PathItem where
  get : Option Operation
  post : Option Operation
  put : Option Operation
  patch : Option Operation
  delete : Option Operation

namespace PathItem

def empty : PathItem := ⟨none, none, none, none, none⟩

def set (method : HttpMethod) (operation : Operation) (item : PathItem) : PathItem :=
  match method with
  | .get => { item with get := some operation }
  | .post => { item with post := some operation }
  | .put => { item with put := some operation }
  | .patch => { item with patch := some operation }
  | .delete => { item with delete := some operation }

/-- The members of the item in a JSON document, in their order. -/
def operations (item : PathItem) : List (String × Operation) :=
  [("delete", item.delete), ("get", item.get), ("patch", item.patch), ("post", item.post),
    ("put", item.put)].filterMap fun member => member.2.map (member.1, ·)

end PathItem

structure OpenApi (S : Type) where
  title : String
  version : String
  paths : Table String PathItem
  securitySchemes : Option (Table String S)

variable {S W : Type}

/-- `Paths::add_path_operation`, for one method. -/
def OpenApi.addPathOperation (path : String) (method : HttpMethod) (operation : Operation)
    (openapi : OpenApi S) : OpenApi S :=
  { openapi with
    paths := openapi.paths.insert path
      (((openapi.paths.lookup path).getD PathItem.empty).set method operation) }

/-- Adds one combined (OpenAPI AND) security requirement to an operation. -/
def applySecurity (operation : Operation) (security : List Security) : Operation :=
  if security = [] then operation
  else
    let requirement := security.foldl (fun (requirement : SecurityRequirement) security =>
      requirement.insert security.nameAndScopes.1 security.nameAndScopes.2) ∅
    { operation with security := some [requirement] }

def operation (method : String) (path : String) (operation : Operation) (openapi : OpenApi S) :
    OpenApi S :=
  match method with
  | "get" => openapi.addPathOperation path .get operation
  | "post" => openapi.addPathOperation path .post operation
  | "put" => openapi.addPathOperation path .put operation
  | "patch" => openapi.addPathOperation path .patch operation
  | "delete" => openapi.addPathOperation path .delete operation
  | _ => openapi

/-- The verbs of the controller macro. -/
def HttpMethod.verb : HttpMethod → String
  | get => "get"
  | post => "post"
  | put => "put"
  | patch => "patch"
  | delete => "delete"

/-- A route that the controller macro documents. -/
structure OpenApiRouteDef where
  verb : HttpMethod
  basePath : String
  path : String
  handlerName : String
  security : List Security

namespace OpenApiRouteDef

def fullPath (route : OpenApiRouteDef) : String := route.basePath ++ route.path

/-- The function that the macro writes for a route. -/
def document (route : OpenApiRouteDef) (openapi : OpenApi S) : OpenApi S :=
  operation route.verb.verb route.fullPath
    (applySecurity ⟨some route.handlerName, none⟩ route.security) openapi

end OpenApiRouteDef

/-- The routes of the controllers of a graph. The routes of a controller are known from its type. -/
def visitModuleOpenapiRoutes (P : Program W) (openapiRoutes : TypeId → List OpenApiRouteDef)
    (root : ModuleDef) : Except Fault (List OpenApiRouteDef) :=
  match discoverFrom P root with
  | .ok graph =>
    .ok (graph.nodes.flatMap fun node =>
      node.metadata.controllers.flatMap fun controller => openapiRoutes controller.provider.typeId)
  | .error (.exception _) => .ok []
  | .error fault => .error fault

/-! ## Validation -/

def openapiConfigurationError (message : String) : HttpException :=
  HttpException.new 500 "OpenAPI Configuration Error" message

def addSecuritySchemes (openapi : OpenApi S) (config : OpenApiConfig S) : OpenApi S :=
  if config.securitySchemes.entries = [] then openapi
  else
    { openapi with
      securitySchemes := some (config.securitySchemes.entries.foldl
        (fun schemes e => schemes.insert e.1 e.2.scheme) (openapi.securitySchemes.getD ∅)) }

/-- The kind that a scheme of a standard name must have. -/
def expectedKind (name : String) : Option ConfiguredSecurityKind :=
  match name with
  | "BearerAuth" => some .bearerAuth
  | "ApiKeyAuth" => some .apiKeyAuth
  | "CookieAuth" => some .cookieAuth
  | "OAuth2" => some .oauth2
  | _ => none

/-- The check of one name in a requirement. -/
def validateSecurityRequirement (config : OpenApiConfig S) (method path name : String) :
    Except HttpException Unit :=
  match config.securitySchemes.lookup name with
  | none =>
    .error (openapiConfigurationError
      s!"OpenAPI security requirement `{name}` on {method} {path} has no registered scheme")
  | some configured =>
    if (expectedKind name).any fun expected => configured.kind ≠ expected then
      .error (openapiConfigurationError
        (s!"OpenAPI security requirement `{name}` on {method} {path} " ++
          "does not match its registered scheme"))
    else .ok ()

/-- The entries of a map in a JSON document, in their order. -/
def sortedEntries {α : Type} (m : Table String α) : List (String × α) :=
  sortByName (m.entries.map fun e => (e.1, e.2))

def validateSecurityRequirements (openapi : OpenApi S) (config : OpenApiConfig S) :
    Except HttpException Unit :=
  (sortedEntries openapi.paths).forM fun item =>
    item.2.operations.forM fun operation =>
      (operation.2.security.getD []).forM fun requirement =>
        (sortedEntries requirement).forM fun scope =>
          validateSecurityRequirement config operation.1 item.1 scope.1

/-- The prefix of the paths that are kept for Swagger UI. -/
def OpenApiConfig.uiPrefix (config : OpenApiConfig S) : String :=
  trimEndMatches '/' config.uiPath ++ "/"

def validateDocumentPaths (openapi : OpenApi S) (config : OpenApiConfig S) :
    Except HttpException Unit :=
  if openapi.paths.entries.any fun e =>
      e.1 == config.jsonPath || e.1 == config.uiPath || e.1.startsWith config.uiPrefix then
    .error (openapiConfigurationError "OpenAPI paths must not collide with controller routes")
  else .ok ()

/-- The document of routes, before it is validated. -/
def OpenApi.ofRoutes (config : OpenApiConfig S) (routes : List OpenApiRouteDef) : OpenApi S :=
  addSecuritySchemes (routes.foldl (fun openapi route => route.document openapi)
    ⟨config.title, config.version, ∅, none⟩) config

def buildOpenapi (P : Program W) (openapiRoutes : TypeId → List OpenApiRouteDef)
    (root : ModuleDef) (config : OpenApiConfig S) : Except Fault (OpenApi S) := do
  let openapi := OpenApi.ofRoutes config (← visitModuleOpenapiRoutes P openapiRoutes root)
  (validateSecurityRequirements openapi config).mapError Fault.exception
  (validateDocumentPaths openapi config).mapError Fault.exception
  return openapi

/-! ## The paths of a document -/

section Paths

variable {openapi : OpenApi S}

theorem mem_paths_addPathOperation {path p : String} {method : HttpMethod} {op : Operation} :
    p ∈ (openapi.addPathOperation path method op).paths ↔ p = path ∨ p ∈ openapi.paths := by
  exact AList.mem_insert _

theorem operation_verb (method : HttpMethod) (path : String) (op : Operation) :
    operation method.verb path op openapi = openapi.addPathOperation path method op := by
  cases method with
  | get => rfl
  | post => rfl
  | put => rfl
  | patch => rfl
  | delete => rfl

theorem mem_paths_foldl {routes : List OpenApiRouteDef} {p : String} :
    p ∈ (routes.foldl (fun openapi route => route.document openapi) openapi).paths ↔
      (∃ route ∈ routes, route.fullPath = p) ∨ p ∈ openapi.paths := by
  induction routes generalizing openapi with
  | nil => simp
  | cons route routes ih =>
    rw [List.foldl_cons, ih, OpenApiRouteDef.document, operation_verb, mem_paths_addPathOperation,
      List.exists_mem_cons_iff, eq_comm (a := p), or_left_comm, or_assoc]

theorem paths_addSecuritySchemes (config : OpenApiConfig S) :
    (addSecuritySchemes openapi config).paths = openapi.paths := by
  unfold addSecuritySchemes
  split
  · rfl
  · rfl

/-- The paths of a document are those of its routes. -/
theorem mem_paths_ofRoutes {config : OpenApiConfig S} {routes : List OpenApiRouteDef} {p : String} :
    p ∈ (OpenApi.ofRoutes config routes).paths ↔ ∃ route ∈ routes, route.fullPath = p := by
  rw [OpenApi.ofRoutes, paths_addSecuritySchemes, mem_paths_foldl]
  exact or_iff_left (AList.notMem_empty p)

end Paths

/-! ## Accepted configurations -/

theorem startsWith_self (s : String) : s.startsWith s = true :=
  String.startsWith_string_iff.mpr (List.prefix_refl _)

/-- The paths of a document that is accepted are apart from those of the configuration. -/
theorem validateDocumentPaths_ok {openapi : OpenApi S} {config : OpenApiConfig S} :
    validateDocumentPaths openapi config = .ok () ↔
      ∀ p ∈ openapi.paths, p ≠ config.jsonPath ∧ p ≠ config.uiPath ∧
        p.startsWith config.uiPrefix = false := by
  unfold validateDocumentPaths
  constructor
  · intro h
    split at h
    · cases h
    · rename_i hNone
      intro p hp
      obtain ⟨e, he, rfl⟩ := List.mem_map.mp hp
      have hApart : ¬ ((e.1 == config.jsonPath || e.1 == config.uiPath ||
          e.1.startsWith config.uiPrefix) = true) :=
        fun hMeets => hNone (List.any_eq_true.mpr ⟨e, he, hMeets⟩)
      simpa [and_assoc] using hApart
  · intro h
    refine if_neg fun hAny => ?_
    obtain ⟨e, he, hMeets⟩ := List.any_eq_true.mp hAny
    obtain ⟨hJson, hUi, hPrefix⟩ := h e.1 (List.mem_map_of_mem he)
    simp [hJson, hUi, hPrefix] at hMeets

/-- A registered scheme, of the kind that its name stands for. -/
def OpenApiConfig.Registers (config : OpenApiConfig S) (name : String) : Prop :=
  ∃ configured, config.securitySchemes.lookup name = some configured ∧
    ∀ kind, expectedKind name = some kind → configured.kind = kind

theorem validateSecurityRequirement_ok {config : OpenApiConfig S} {method path name : String} :
    validateSecurityRequirement config method path name = .ok () ↔ config.Registers name := by
  unfold validateSecurityRequirement OpenApiConfig.Registers
  cases config.securitySchemes.lookup name with
  | none => exact iff_of_false nofun nofun
  | some configured =>
    dsimp only
    cases hKind : expectedKind name with
    | none => exact iff_of_true rfl ⟨configured, rfl, nofun⟩
    | some expected =>
      by_cases hSame : configured.kind = expected
      · refine iff_of_true (if_neg (by simp [hSame])) ⟨configured, rfl, ?_⟩
        rintro kind ⟨⟩
        exact hSame
      · rw [if_pos (by simp [hSame])]
        refine iff_of_false nofun ?_
        rintro ⟨_, ⟨⟩, hAll⟩
        exact hSame (hAll expected rfl)

theorem mem_sortedEntries {α : Type} {m : Table String α} {key : String} {value : α} :
    (key, value) ∈ sortedEntries m ↔ m.lookup key = some value :=
  mem_sortByName_entries

/-- The requirements of a document that is accepted name registered schemes. -/
theorem validateSecurityRequirements_ok {openapi : OpenApi S} {config : OpenApiConfig S} :
    validateSecurityRequirements openapi config = .ok () ↔
      ∀ path item, openapi.paths.lookup path = some item →
        ∀ operation ∈ item.operations, ∀ requirement ∈ operation.2.security.getD [],
          ∀ name ∈ requirement, config.Registers name := by
  unfold validateSecurityRequirements
  simp only [Fallible.forM_ok_iff, validateSecurityRequirement_ok]
  constructor
  · intro h path item hItem operation hOperation requirement hRequirement name hName
    obtain ⟨scopes, hScopes⟩ := AList.lookup_isSome.mpr hName |> Option.isSome_iff_exists.mp
    exact h (path, item) (mem_sortedEntries.mpr hItem) operation hOperation requirement hRequirement
      (name, scopes) (mem_sortedEntries.mpr hScopes)
  · rintro h ⟨path, item⟩ hItem operation hOperation requirement hRequirement ⟨name, scopes⟩ hScope
    have hName : (requirement.lookup name).isSome :=
      Option.isSome_iff_exists.mpr ⟨scopes, mem_sortedEntries.mp hScope⟩
    exact h path item (mem_sortedEntries.mp hItem) operation hOperation requirement hRequirement
      name (AList.lookup_isSome.mp hName)

theorem mapError_ok {ε ε' α : Type} {f : ε → ε'} {x : Except ε α} {a : α} :
    x.mapError f = .ok a ↔ x = .ok a := by
  cases x with
  | error e => exact iff_of_false nofun nofun
  | ok b =>
    constructor
    · intro h
      cases h
      rfl
    · intro h
      cases h
      rfl

/-- Which configurations are accepted. -/
theorem buildOpenapi_ok_iff {P : Program W} {openapiRoutes : TypeId → List OpenApiRouteDef}
    {root : ModuleDef} {config : OpenApiConfig S} {document : OpenApi S} :
    buildOpenapi P openapiRoutes root config = .ok document ↔
      ∃ routes, visitModuleOpenapiRoutes P openapiRoutes root = .ok routes ∧
        document = .ofRoutes config routes ∧
        validateSecurityRequirements document config = .ok () ∧
        validateDocumentPaths document config = .ok () := by
  constructor
  · intro h
    obtain ⟨routes, hRoutes, h⟩ := Fallible.bind_ok_iff.mp h
    obtain ⟨⟨⟩, hSecurity, h⟩ := Fallible.bind_ok_iff.mp h
    obtain ⟨⟨⟩, hPaths, h⟩ := Fallible.bind_ok_iff.mp h
    cases h
    exact ⟨routes, hRoutes, rfl, mapError_ok.mp hSecurity, mapError_ok.mp hPaths⟩
  · rintro ⟨routes, hRoutes, rfl, hSecurity, hPaths⟩
    refine Fallible.bind_ok_iff.mpr ⟨routes, hRoutes, ?_⟩
    refine Fallible.bind_ok_iff.mpr ⟨(), mapError_ok.mpr hSecurity, ?_⟩
    exact Fallible.bind_ok_iff.mpr ⟨(), mapError_ok.mpr hPaths, rfl⟩

end Caelix
