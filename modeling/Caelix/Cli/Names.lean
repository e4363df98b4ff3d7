import Caelix.Lib.WordCut
import Caelix.Core.ThrottleTracker

/-!
# Names of projects and features

The names that `caelix new` and `caelix generate` accept, and the identifiers that the
generated code uses for them. The case conversions are those of the `heck` crate; the way it
cuts a name into words is a parameter.

* `generateNewNames_ok`: the crate name of an accepted project.
* `parse_ok`: what an accepted feature name gives.
* `derived_identifiers_iff`: the accepted names whose identifiers can be used.
-/

namespace Caelix

open WordCase

/-! ## The code -/

/-- A `PathBuf`, as its components. -/
abbrev ProjectPath := List String

namespace ProjectPath

/-- `Path::join` with a name that is one component. -/
def join (path : ProjectPath) (name : String) : ProjectPath := path ++ [name]

/-- `Path::file_name`. -/
def fileName (path : ProjectPath) : Option String := path.getLast?.filter fun name => name != ".."

end ProjectPath

inductive CliError where
  | alreadyExists (path : ProjectPath)
  | invalidName (name : String)
  deriving DecidableEq, Repr

def rustKeywords : List String :=
  ["as", "break", "const", "continue", "crate", "else", "enum", "extern", "false", "fn",
    "for", "if", "impl", "in", "let", "loop", "match", "mod", "move", "mut", "pub", "ref",
    "return", "self", "Self", "static", "struct", "super", "trait", "true", "type", "unsafe",
    "use", "where", "while", "async", "await", "dyn", "abstract", "become", "box", "do",
    "final", "macro", "override", "priv", "typeof", "unsized", "virtual", "yield", "try"]

/-- The bytes of a character outside ASCII are neither letters nor digits of ASCII. -/
def validateProjectName (name : String) : Except CliError Unit :=
  let valid := name.toList.head?.any Char.isAlpha &&
    (name.toList.drop 1).all (fun c => c.isAlphanum || c == '-' || c == '_') &&
    !rustKeywords.contains name
  if valid then .ok () else .error (.invalidName name)

def ensureMissing (pathExists : ProjectPath → Bool) (path : ProjectPath) : Except CliError Unit :=
  if pathExists path then .error (.alreadyExists path) else .ok ()

section Heck

variable {tables : CharTables} (heck : Segmentation tables)

def packageNameForPath (path : ProjectPath) (fallback : String) : Except CliError String :=
  let name := trim (path.fileName.getD fallback).toList
  if name.isEmpty then .error (.invalidName fallback)
  else .ok (String.ofList (heck.kebab name))

structure ProjectNames where
  packageName : String
  crateName : String

/-- What `generate_new` does before it writes: the crate name goes into `main.rs`. -/
def generateNewNames (pathExists : ProjectPath → Bool) (cwd : ProjectPath) (name : String) :
    Except CliError ProjectNames := do
  validateProjectName name
  let targetDir := cwd.join name
  ensureMissing pathExists targetDir
  let packageName ← packageNameForPath heck targetDir name
  let crateName := String.ofList (heck.snake packageName.toList)
  return ⟨packageName, crateName⟩

structure FeatureName where
  raw : String
  moduleName : String
  routePath : String
  typePrefix : String

namespace FeatureName

def parse (name : String) : Except CliError FeatureName :=
  let trimmed := trim name.toList
  if trimmed.isEmpty || trimmed.any (fun c => c == '/' || c == '\\') then
    .error (.invalidName name)
  else
    let moduleName := heck.snake trimmed
    let routePath := heck.kebab trimmed
    let typePrefix := heck.pascal trimmed
    if moduleName.isEmpty || routePath.isEmpty || typePrefix.isEmpty ||
        moduleName.head?.any Char.isDigit then
      .error (.invalidName (String.ofList trimmed))
    else
      .ok ⟨String.ofList trimmed, String.ofList moduleName, String.ofList routePath,
        String.ofList typePrefix⟩

def serviceType (feature : FeatureName) : String := feature.typePrefix ++ "Service"

def controllerType (feature : FeatureName) : String := feature.typePrefix ++ "Controller"

def moduleType (feature : FeatureName) : String := feature.typePrefix ++ "Module"

/-- The identifiers that the generated code uses for a feature. -/
def identifiers (feature : FeatureName) : List String :=
  [feature.moduleName, feature.serviceType, feature.controllerType, feature.moduleType]

end FeatureName

end Heck

/-! ## Identifiers -/

/-- The keywords of the edition that generated projects ask for, 2024. -/
def keywords2024 : List String := rustKeywords ++ ["gen"]

/-- An identifier that is not a keyword. -/
def UsableIdentifier (tables : CharTables) (identifier : String) : Prop :=
  tables.isIdentifier identifier.toList = true ∧ identifier ∉ keywords2024

/-- A name that is one keyword, whatever its case, between characters of no word. -/
def SpellsKeyword (tables : CharTables) (name : List Char) : Prop :=
  ∃ keyword ∈ keywords2024, tables.Spells keyword.toList name

section Names

variable {tables : CharTables} (heck : Segmentation tables)

theorem snake_keyword_iff (name : List Char) :
    String.ofList (heck.snake name) ∈ keywords2024 ↔ SpellsKeyword tables name := by
  have hWords : ∀ keyword ∈ keywords2024,
      keyword.toList ≠ [] ∧ ∀ d ∈ keyword.toList, d.isAlpha = true := by
    have hAll : (keywords2024.all fun keyword =>
        keyword.toList ≠ [] ∧ keyword.toList.all Char.isAlpha) = true := by decide +kernel
    simpa only [List.all_eq_true, decide_eq_true_eq] using hAll
  constructor
  · intro hKeyword
    obtain ⟨hSome, hLetters⟩ := hWords _ hKeyword
    refine ⟨_, hKeyword, (heck.snake_eq_iff hSome hLetters).mp ?_⟩
    rw [String.toList_ofList]
  · rintro ⟨keyword, hKeyword, hSpells⟩
    obtain ⟨hSome, hLetters⟩ := hWords keyword hKeyword
    rwa [(heck.snake_eq_iff hSome hLetters).mpr hSpells, String.ofList_toList]

/-- The bytes of a valid project name. -/
theorem validateProjectName_ok_iff {name : String} : validateProjectName name = .ok () ↔
    name.toList.head?.any Char.isAlpha = true ∧
    ((name.toList.drop 1).all fun c => c.isAlphanum || c == '-' || c == '_') = true ∧
    name ∉ rustKeywords := by
  unfold validateProjectName
  simp [and_assoc]

/-- A character of a project name. -/
def NameChar (c : Char) : Prop := c.isAlphanum = true ∨ c = '-' ∨ c = '_'

theorem nameChar_of_valid {name : String} (h : validateProjectName name = .ok ()) :
    ∀ c ∈ name.toList, NameChar c := by
  obtain ⟨hFirst, hLater, -⟩ := validateProjectName_ok_iff.mp h
  cases hName : name.toList with
  | nil => simp
  | cons first later =>
    rw [hName, List.drop_one, List.tail_cons, List.all_eq_true] at hLater
    rw [hName, List.head?_cons, Option.any_some] at hFirst
    rw [List.forall_mem_cons]
    refine ⟨.inl ?_, ?_⟩
    · rw [Char.isAlphanum, hFirst, Bool.true_or]
    · intro c hc
      have hChar := hLater c hc
      simpa [NameChar, or_assoc] using hChar

theorem NameChar.ascii {c : Char} (h : NameChar c) : c.toNat < 128 := by
  rcases h with hAlphanum | rfl | rfl
  · exact ascii_of_isAlphanum hAlphanum
  · decide
  · decide

theorem NameChar.not_whitespace {c : Char} (h : NameChar c) : isWhitespace c = false := by
  have hAll : ∀ n : Fin 128, (Char.ofNat n).isAlphanum = true → isWhitespace (Char.ofNat n) = false := by
    decide +kernel
  rcases h with hAlphanum | rfl | rfl
  · exact of_ascii (p := fun c => c.isAlphanum = true → isWhitespace c = false) hAll
      (ascii_of_isAlphanum hAlphanum) hAlphanum
  · decide
  · decide

theorem fileName_join {cwd : ProjectPath} {name : String} (h : name ≠ "..") :
    (cwd.join name).fileName = some name := by
  rw [ProjectPath.fileName, ProjectPath.join, List.getLast?_concat, Option.filter_some, if_pos]
  simpa using h

/-- The snake case of the kebab case of an accepted name is the crate name. -/
theorem generateNewNames_ok {pathExists : ProjectPath → Bool} {cwd : ProjectPath} {name : String}
    (h : validateProjectName name = .ok ()) (hMissing : pathExists (cwd.join name) = false) :
    generateNewNames heck pathExists cwd name =
      .ok ⟨String.ofList (heck.kebab name.toList), String.ofList (heck.snake name.toList)⟩ := by
  have hChars := nameChar_of_valid h
  have hFirst := (validateProjectName_ok_iff.mp h).1
  have hDots : name ≠ ".." := by
    rintro rfl
    exact absurd hFirst (by decide)
  have hSome : name.toList ≠ [] := by
    intro hEmpty
    rw [hEmpty] at hFirst
    cases hFirst
  have hTrim : trim name.toList = name.toList := trim_plain fun c hc => (hChars c hc).not_whitespace
  have hPackage : packageNameForPath heck (cwd.join name) name =
      .ok (String.ofList (heck.kebab name.toList)) := by
    rw [packageNameForPath, fileName_join hDots, Option.getD_some, hTrim]
    exact if_neg (by simpa using hSome)
  have hSnake : heck.snake (heck.kebab name.toList) = heck.snake name.toList :=
    heck.snake_kebab fun c hc => (hChars c hc).ascii
  have hTarget : ensureMissing pathExists (cwd.join name) = .ok () := by
    rw [ensureMissing, hMissing]
    rfl
  rw [generateNewNames, h]
  dsimp only [bind, Except.bind]
  rw [hTarget, hPackage]
  dsimp only
  rw [String.toList_ofList, hSnake]
  rfl

/-- The crate name of an accepted project is an identifier or a keyword. -/
theorem isIdentifier_crateName {name : String} (h : validateProjectName name = .ok ()) :
    tables.isIdentifier (heck.snake name.toList) = true := by
  have hChars := nameChar_of_valid h
  have hFirst := (validateProjectName_ok_iff.mp h).1
  obtain ⟨first, later, hName⟩ : ∃ first later, name.toList = first :: later := by
    cases hName : name.toList with
    | nil => rw [hName] at hFirst; cases hFirst
    | cons first later => exact ⟨first, later, rfl⟩
  rw [hName, List.head?_cons, Option.any_some] at hFirst
  have hAlphanum : first.isAlphanum = true := by rw [Char.isAlphanum, hFirst, Bool.true_or]
  have hAscii := ascii_of_isAlphanum hAlphanum
  have hFound : name.toList.find? tables.isAlphanumeric = some first := by
    rw [hName, List.find?_cons_of_pos]
    rw [tables.isAlphanumeric_ascii first hAscii, hAlphanum]
  have hWords : heck.words name.toList ≠ [] := by
    intro hNone
    have hOther := heck.words_eq_nil_iff.mp hNone first (by simp [hName])
    rw [tables.isAlphanumeric_ascii first hAscii, hAlphanum] at hOther
    cases hOther
  have hLetters : heck.IdentifierLetters name.toList := by
    refine heck.identifierLetters_of_ascii (fun c hc => (hChars c hc).ascii) ?_
    intro c hc
    rw [hFound] at hc
    cases hc
    exact hFirst
  exact (heck.isIdentifier_snake_iff hWords).mpr ⟨hLetters.lower, hLetters.startLower⟩

/-- The conversions of an accepted feature name, which has a word. -/
theorem parse_ok {name : String} {feature : FeatureName}
    (h : FeatureName.parse heck name = .ok feature) :
    heck.words (trim name.toList) ≠ [] ∧
      feature.moduleName = String.ofList (heck.snake (trim name.toList)) ∧
      feature.typePrefix = String.ofList (heck.pascal (trim name.toList)) := by
  unfold FeatureName.parse at h
  dsimp only at h
  split at h
  · cases h
  · split at h
    · cases h
    · next hSome =>
      cases h
      refine ⟨?_, rfl, rfl⟩
      intro hNone
      refine hSome ?_
      rw [Segmentation.snake, hNone]
      rfl

/-- What the type names of a feature end with. -/
def typeSuffixes : List String := ["Service", "Controller", "Module"]

theorem suffix_notMem_keywords {identifier suffix : String} (hSuffix : suffix ∈ typeSuffixes) :
    identifier ++ suffix ∉ keywords2024 := by
  have hNone : ∀ keyword ∈ keywords2024, ∀ suffix ∈ typeSuffixes,
      ¬ suffix.toList <:+ keyword.toList := by decide +kernel
  intro hKeyword
  refine hNone _ hKeyword suffix hSuffix ?_
  rw [String.toList_append]
  exact List.suffix_append ..

/-- The identifiers of a feature can be used exactly when the letters and digits of its name
make identifiers and the name does not spell a keyword. -/
theorem usable_feature_iff {name : String} {feature : FeatureName}
    (h : FeatureName.parse heck name = .ok feature) :
    (∀ identifier ∈ feature.identifiers, UsableIdentifier tables identifier) ↔
      heck.IdentifierLetters (trim name.toList) ∧ ¬ SpellsKeyword tables (trim name.toList) := by
  obtain ⟨hWords, hModule, hPrefix⟩ := parse_ok heck h
  have hIdentifiers : feature.identifiers =
      feature.moduleName :: typeSuffixes.map fun suffix => feature.typePrefix ++ suffix := rfl
  have hTypes : ∀ suffix ∈ typeSuffixes,
      (UsableIdentifier tables (feature.typePrefix ++ suffix) ↔
        tables.isIdentifier (heck.pascal (trim name.toList) ++ suffix.toList) = true) := by
    intro suffix hSuffix
    rw [UsableIdentifier, String.toList_append, hPrefix, String.toList_ofList]
    exact and_iff_left (suffix_notMem_keywords hSuffix)
  have hContinue : ∀ suffix ∈ typeSuffixes.map String.toList, ∀ d ∈ suffix,
      tables.isXidContinue d = true := by
    have hAll : ((typeSuffixes.map String.toList).all fun suffix =>
        suffix.all Char.isAlphanum) = true := by decide +kernel
    intro suffix hSuffix d hd
    have hAlphanum := List.all_eq_true.mp (List.all_eq_true.mp hAll suffix hSuffix) d hd
    rw [tables.isXidContinue_ascii d (ascii_of_isAlphanum hAlphanum), hAlphanum, Bool.true_or]
  have hLetters : (tables.isIdentifier (heck.snake (trim name.toList)) = true ∧
      ∀ suffix ∈ typeSuffixes.map String.toList,
        tables.isIdentifier (heck.pascal (trim name.toList) ++ suffix) = true) ↔
          heck.IdentifierLetters (trim name.toList) :=
    heck.identifiers_iff hWords (by decide) hContinue
  rw [hIdentifiers, List.forall_mem_cons, List.forall_mem_map, ← hLetters, List.forall_mem_map,
    UsableIdentifier, hModule, snake_keyword_iff, String.toList_ofList]
  rw [forall₂_congr hTypes]
  exact and_right_comm

/-- The crate name of an accepted project can be used exactly when the project name does not
spell a keyword. -/
theorem derived_identifiers_iff :
    (∀ (pathExists : ProjectPath → Bool) (cwd : ProjectPath) (name : String),
      validateProjectName name = .ok () → pathExists (cwd.join name) = false →
        ∃ names, generateNewNames heck pathExists cwd name = .ok names ∧
          (UsableIdentifier tables names.crateName ↔ ¬ SpellsKeyword tables name.toList)) ∧
    ∀ (name : String) (feature : FeatureName), FeatureName.parse heck name = .ok feature →
      ((∀ identifier ∈ feature.identifiers, UsableIdentifier tables identifier) ↔
        heck.IdentifierLetters (trim name.toList) ∧ ¬ SpellsKeyword tables (trim name.toList)) := by
  refine ⟨?_, fun name feature h => usable_feature_iff heck h⟩
  intro pathExists cwd name h hMissing
  refine ⟨_, generateNewNames_ok heck h hMissing, ?_⟩
  rw [UsableIdentifier, snake_keyword_iff, String.toList_ofList]
  exact and_iff_right (isIdentifier_crateName heck h)

end Names

theorem derived_identifiers_orders :
    UsableIdentifier latinTables "order_items" ∧
      ∀ identifier ∈ ["order_items", "OrderItemsService", "OrderItemsController", "OrderItemsModule"],
        UsableIdentifier latinTables identifier := by
  have hNot : ¬ SpellsKeyword latinTables "order-items".toList := by
    rw [← snake_keyword_iff latinWords]
    decide +kernel
  have hAscii : ("order-items".toList.all fun c => c.toNat < 128) = true := by decide
  have hFirst : "order-items".toList.find? latinTables.isAlphanumeric = some 'o' := by rfl
  have hLetters : latinWords.IdentifierLetters "order-items".toList := by
    refine latinWords.identifierLetters_of_ascii (by simpa only [List.all_eq_true, decide_eq_true_eq] using hAscii) ?_
    intro c hc
    rw [hFirst] at hc
    cases hc
    rfl
  obtain ⟨hProjects, hFeatures⟩ := derived_identifiers_iff latinWords
  obtain ⟨names, hNames, hUsable⟩ := hProjects (fun _ => false) [] "order-items" (by decide) rfl
  have hCrate : names.crateName = "order_items" := by
    rw [generateNewNames_ok latinWords (by decide) rfl] at hNames
    cases hNames
    decide
  refine ⟨hCrate ▸ hUsable.mpr hNot, ?_⟩
  have hParse : FeatureName.parse latinWords "order-items" =
      .ok ⟨"order-items", "order_items", "order-items", "OrderItems"⟩ := by
    rfl
  exact (hFeatures "order-items" _ hParse).mpr ⟨hLetters, hNot⟩

/-- A project whose crate name is a keyword. -/
theorem derived_identifiers_match : ¬ ∀ (name : String) (names : ProjectNames),
    validateProjectName name = .ok () →
      generateNewNames latinWords (fun _ => false) [] name = .ok names →
        UsableIdentifier latinTables names.crateName := by
  intro h
  have hCrate := h "Match" _ (by decide) (generateNewNames_ok latinWords (by decide) rfl)
  refine hCrate.2 ?_
  decide +kernel

end Caelix
