import Mathlib.Data.List.Basic

/-!
# Words of a name and their case

A name is cut into words, at characters that belong to no word and where the case changes;
the words are put together again in another case. The tables of characters and the way
names are cut are parameters, with what is promised of them.

* `snake_eq_iff`: the names whose snake case is a given word.
* `isIdentifier_snake_iff`, `isIdentifier_pascal_iff`: the names that give identifiers.
* `snake_kebab`: the snake case of a kebab case.
-/

namespace WordCase

/-! ## Characters -/

/-- What holds of the 128 characters of ASCII holds of a character below 128. -/
theorem of_ascii {p : Char → Prop} (h : ∀ n : Fin 128, p (Char.ofNat n)) {c : Char}
    (hc : c.toNat < 128) : p c := by
  have hAt := h ⟨c.toNat, hc⟩
  rwa [Char.ofNat_toNat] at hAt

/-- The classes and the case mappings of characters, and what holds of those outside ASCII. -/
structure CharTables where
  isAlphanumeric : Char → Bool
  isLowercase : Char → Bool
  isUppercase : Char → Bool
  toLowercase : Char → List Char
  toUppercase : Char → List Char
  isXidStart : Char → Bool
  isXidContinue : Char → Bool
  isAlphanumeric_ascii : ∀ c, c.toNat < 128 → isAlphanumeric c = c.isAlphanum
  isLowercase_ascii : ∀ c, c.toNat < 128 → isLowercase c = c.isLower
  isUppercase_ascii : ∀ c, c.toNat < 128 → isUppercase c = c.isUpper
  toLowercase_ascii : ∀ c, c.toNat < 128 → toLowercase c = [c.toLower]
  toUppercase_ascii : ∀ c, c.toNat < 128 → toUppercase c = [c.toUpper]
  isXidStart_ascii : ∀ c, c.toNat < 128 → isXidStart c = c.isAlpha
  isXidContinue_ascii : ∀ c, c.toNat < 128 → isXidContinue c = (c.isAlphanum || c == '_')
  toLowercase_ne_nil : ∀ c, toLowercase c ≠ []
  toUppercase_ne_nil : ∀ c, toUppercase c ≠ []
  alphanumeric_of_cased : ∀ c, isLowercase c ∨ isUppercase c → isAlphanumeric c
  cased_of_ascii : ∀ c, (∀ d ∈ toLowercase c, d.isAlpha) → isLowercase c ∨ isUppercase c
  underscore_notMem : ∀ c, isAlphanumeric c → '_' ∉ toLowercase c ∧ '_' ∉ toUppercase c
  continue_of_start : ∀ c, isXidStart c → isXidContinue c
  toLowercase_sigma : toLowercase 'Σ' = ['σ']
  isXidStart_sigma : isXidStart 'σ' ∧ isXidStart 'ς'

namespace CharTables

variable (tables : CharTables)

def IsCased (c : Char) : Prop := tables.isLowercase c ∨ tables.isUppercase c

/-- The lower case of a word; a sigma at its end is a final sigma. -/
def lowercase (w : List Char) : List Char :=
  if w.getLast? = some 'Σ' then w.dropLast.flatMap tables.toLowercase ++ ['ς']
  else w.flatMap tables.toLowercase

def capitalize : List Char → List Char
  | [] => []
  | c :: later => tables.toUppercase c ++ tables.lowercase later

/-- An identifier or keyword. -/
def isIdentifier : List Char → Bool
  | [] => false
  | c :: later =>
    (tables.isXidStart c || (c == '_' && !later.isEmpty)) && later.all tables.isXidContinue

/-- Lower case, upper case, or lower case after a capital. -/
def Uniform (w : List Char) : Prop :=
  (∀ c ∈ w, tables.isLowercase c) ∨ (∀ c ∈ w, tables.isUppercase c) ∨
    ∃ first later, w = first :: later ∧ tables.isUppercase first ∧
      ∀ c ∈ later, tables.isLowercase c

/-- The text is a word in one of these shapes, which spells `word`, between characters that
belong to no word. -/
def Spells (word text : List Char) : Prop :=
  ∃ before w after, text = before ++ w ++ after ∧
    (∀ c ∈ before, tables.isAlphanumeric c = false) ∧
    (∀ c ∈ after, tables.isAlphanumeric c = false) ∧
    tables.Uniform w ∧ tables.lowercase w = word

end CharTables

/-! ## Words -/

/-- The words of a text, in order. A word ends where a character belongs to no word; inside a
run of other characters one begins at an upper case character only, namely after a lower case
one and at the last of several when a lower case one follows. -/
structure Segmentation (tables : CharTables) where
  words : List Char → List (List Char)
  flatten_words : ∀ s, (words s).flatten = s.filter tables.isAlphanumeric
  ne_nil_of_mem : ∀ s, ∀ w ∈ words s, w ≠ []
  words_append : ∀ s c t, tables.isAlphanumeric c = false → words (s ++ c :: t) = words s ++ words t
  words_of_no_uppercase : ∀ s, s ≠ [] →
    (∀ c ∈ s, tables.isAlphanumeric c ∧ tables.isUppercase c = false) → words s = [s]
  words_of_cased : ∀ s, s ≠ [] → (∀ c ∈ s, tables.IsCased c) → (words s = [s] ↔ tables.Uniform s)

namespace Segmentation

variable {tables : CharTables} (seg : Segmentation tables)

def snake (s : List Char) : List Char := ['_'].intercalate ((seg.words s).map tables.lowercase)

def kebab (s : List Char) : List Char := ['-'].intercalate ((seg.words s).map tables.lowercase)

def pascal (s : List Char) : List Char := ((seg.words s).map tables.capitalize).flatten

end Segmentation

/-! ## Case mappings -/

namespace CharTables

variable {tables : CharTables} {w s : List Char}

theorem lowercase_cases (tables : CharTables) (w : List Char) :
    (∃ init, w = init ++ ['Σ'] ∧ tables.lowercase w = init.flatMap tables.toLowercase ++ ['ς']) ∨
      tables.lowercase w = w.flatMap tables.toLowercase := by
  unfold lowercase
  by_cases h : w.getLast? = some 'Σ'
  · obtain ⟨init, hInit⟩ := List.getLast?_eq_some_iff.mp h
    rw [if_pos h]
    refine .inl ⟨init, hInit, ?_⟩
    rw [hInit, List.dropLast_concat]
  · rw [if_neg h]
    exact .inr rfl

theorem continue_sigma (tables : CharTables) :
    tables.isXidContinue 'σ' = true ∧ tables.isXidContinue 'ς' = true :=
  ⟨tables.continue_of_start _ tables.isXidStart_sigma.1,
    tables.continue_of_start _ tables.isXidStart_sigma.2⟩

theorem toLowercase_alphanumeric_ne {c : Char} (h : tables.isAlphanumeric c = true) :
    '_' ∉ tables.toLowercase c := (tables.underscore_notMem c h).1

/-- A word in lower case continues an identifier when its characters do. -/
theorem continue_lowercase_iff : (∀ d ∈ tables.lowercase w, tables.isXidContinue d = true) ↔
    ∀ c ∈ w, ∀ d ∈ tables.toLowercase c, tables.isXidContinue d = true := by
  rcases lowercase_cases tables w with ⟨init, hInit, hLower⟩ | hLower
  · rw [hLower, hInit, List.forall_mem_append, List.forall_mem_append, List.forall_mem_flatMap,
      List.forall_mem_singleton, List.forall_mem_singleton, tables.toLowercase_sigma,
      List.forall_mem_singleton]
    simp only [continue_sigma]
  · rw [hLower, List.forall_mem_flatMap]

/-- The first character of a word in lower case starts an identifier when that of its
first character does. -/
theorem start_lowercase_iff {c : Char} {later : List Char} :
    (∀ d ∈ (tables.lowercase (c :: later)).head?, tables.isXidStart d = true) ↔
      ∀ d ∈ (tables.toLowercase c).head?, tables.isXidStart d = true := by
  obtain ⟨first, rest, hFirst⟩ := List.exists_cons_of_ne_nil (tables.toLowercase_ne_nil c)
  rcases lowercase_cases tables (c :: later) with ⟨init, hInit, hLower⟩ | hLower
  · cases init with
    | nil =>
      obtain rfl : c = 'Σ' := List.head_eq_of_cons_eq hInit
      rw [hLower, tables.toLowercase_sigma]
      simp [tables.isXidStart_sigma]
    | cons c' init =>
      obtain rfl : c = c' := List.head_eq_of_cons_eq hInit
      rw [hLower, List.flatMap_cons, hFirst]
      rfl
  · rw [hLower, List.flatMap_cons, hFirst]
    rfl

theorem lowercase_ne_nil (h : w ≠ []) : tables.lowercase w ≠ [] := by
  obtain ⟨c, later, rfl⟩ := List.exists_cons_of_ne_nil h
  rcases lowercase_cases tables (c :: later) with ⟨init, hInit, hLower⟩ | hLower
  · rw [hLower]
    exact List.append_ne_nil_of_right_ne_nil _ (List.cons_ne_nil _ _)
  · rw [hLower, List.flatMap_cons]
    exact List.append_ne_nil_of_left_ne_nil (tables.toLowercase_ne_nil c) _

theorem underscore_notMem_lowercase (h : ∀ c ∈ w, tables.isAlphanumeric c = true) :
    '_' ∉ tables.lowercase w := by
  rcases lowercase_cases tables w with ⟨init, hInit, hLower⟩ | hLower
  · rw [hLower, List.mem_append, List.mem_flatMap]
    rintro (⟨c, hc, hMem⟩ | hMem)
    · exact toLowercase_alphanumeric_ne (h c (by simp [hInit, hc])) hMem
    · revert hMem
      decide
  · rw [hLower, List.mem_flatMap]
    rintro ⟨c, hc, hMem⟩
    exact toLowercase_alphanumeric_ne (h c hc) hMem

/-- Only cased characters are written as letters of ASCII in lower case. -/
theorem cased_of_lowercase (h : ∀ d ∈ tables.lowercase w, d.isAlpha = true) :
    ∀ c ∈ w, tables.IsCased c := by
  rcases lowercase_cases tables w with ⟨init, hInit, hLower⟩ | hLower
  · have hSigma := h 'ς' (by simp [hLower])
    exact absurd hSigma (by decide)
  · rw [hLower, List.forall_mem_flatMap] at h
    intro c hc
    exact tables.cased_of_ascii c (h c hc)

/-! ## Identifiers -/

theorem isIdentifier_iff (hSome : s ≠ []) (hFirst : s.head? ≠ some '_') :
    tables.isIdentifier s = true ↔
      (∀ d ∈ s, tables.isXidContinue d = true) ∧ ∀ d ∈ s.head?, tables.isXidStart d = true := by
  cases s with
  | nil => exact absurd rfl hSome
  | cons c later =>
    have hc : (c == '_') = false := by simpa using hFirst
    rw [isIdentifier, hc, Bool.false_and, Bool.or_false, Bool.and_eq_true, List.all_eq_true,
      List.forall_mem_cons, List.head?_cons]
    constructor
    · rintro ⟨hStart, hLater⟩
      exact ⟨⟨tables.continue_of_start c hStart, hLater⟩, by simpa using hStart⟩
    · rintro ⟨⟨-, hLater⟩, hStart⟩
      exact ⟨hStart c rfl, hLater⟩

end CharTables

/-! ## Cutting a name -/

section Intercalate

variable {x : Char} {l : List (List Char)}

theorem forall_mem_intercalate {p : Char → Prop} (hx : p x) (h : ∀ w ∈ l, ∀ d ∈ w, p d) :
    ∀ d ∈ [x].intercalate l, p d := by
  induction l with
  | nil => simp [List.intercalate_nil]
  | cons w l ih =>
    rw [List.forall_mem_cons] at h
    cases l with
    | nil =>
      rw [List.intercalate_singleton]
      exact h.1
    | cons v l =>
      rw [List.intercalate_cons_cons, List.forall_mem_append, List.forall_mem_append,
        List.forall_mem_singleton]
      exact ⟨⟨h.1, hx⟩, ih h.2⟩

theorem mem_intercalate_of_mem {w : List Char} (hw : w ∈ l) {d : Char} (hd : d ∈ w) :
    d ∈ [x].intercalate l := by
  induction l with
  | nil => cases hw
  | cons v l ih =>
    cases l with
    | nil =>
      obtain rfl := List.mem_singleton.mp hw
      rwa [List.intercalate_singleton]
    | cons u l =>
      rw [List.intercalate_cons_cons, List.mem_append, List.mem_append]
      rcases List.mem_cons.mp hw with rfl | hLater
      · exact .inl (.inl hd)
      · exact .inr (ih hLater)

/-- Without the separator there is one part at most. -/
theorem intercalate_singleton_of_notMem (hSome : l ≠ []) (h : x ∉ [x].intercalate l) :
    l = [[x].intercalate l] := by
  cases l with
  | nil => exact absurd rfl hSome
  | cons w l =>
    cases l with
    | nil => rw [List.intercalate_singleton]
    | cons v l =>
      refine absurd ?_ h
      rw [List.intercalate_cons_cons]
      simp

theorem head?_intercalate {w : List Char} (hw : w ≠ []) :
    ([x].intercalate (w :: l)).head? = w.head? := by
  obtain ⟨c, w, rfl⟩ := List.exists_cons_of_ne_nil hw
  cases l with
  | nil => rw [List.intercalate_singleton]
  | cons v l =>
    rw [List.intercalate_cons_cons]
    rfl

end Intercalate

namespace Segmentation

variable {tables : CharTables} (seg : Segmentation tables) {s before after w : List Char}

theorem words_nil : seg.words [] = [] := by
  refine List.eq_nil_iff_forall_not_mem.mpr ?_
  intro w hw
  have hFlatten := seg.flatten_words []
  rw [List.filter_nil, List.flatten_eq_nil_iff] at hFlatten
  exact seg.ne_nil_of_mem [] w hw (hFlatten w hw)

theorem words_eq_nil_iff : seg.words s = [] ↔ ∀ c ∈ s, tables.isAlphanumeric c = false := by
  have hFlatten := seg.flatten_words s
  constructor
  · intro hNone
    rw [hNone, List.flatten_nil, eq_comm, List.filter_eq_nil_iff] at hFlatten
    simpa using hFlatten
  · intro hNone
    have hFilter : s.filter tables.isAlphanumeric = [] :=
      List.filter_eq_nil_iff.mpr fun c hc => by simp [hNone c hc]
    rw [hFilter, List.flatten_eq_nil_iff] at hFlatten
    refine List.eq_nil_iff_forall_not_mem.mpr ?_
    intro w hw
    exact seg.ne_nil_of_mem s w hw (hFlatten w hw)

theorem words_before (h : ∀ c ∈ before, tables.isAlphanumeric c = false) :
    seg.words (before ++ s) = seg.words s := by
  induction before with
  | nil => rfl
  | cons c before ih =>
    rw [List.forall_mem_cons] at h
    have hSplit := seg.words_append [] c (before ++ s) h.1
    rw [List.nil_append, words_nil, List.nil_append] at hSplit
    rw [List.cons_append, hSplit, ih h.2]

theorem words_after (h : ∀ c ∈ after, tables.isAlphanumeric c = false) :
    seg.words (s ++ after) = seg.words s := by
  cases after with
  | nil => rw [List.append_nil]
  | cons c after =>
    rw [List.forall_mem_cons] at h
    rw [seg.words_append s c after h.1, seg.words_eq_nil_iff.mpr h.2, List.append_nil]

theorem alphanumeric_of_mem_words (hw : w ∈ seg.words s) :
    ∀ c ∈ w, tables.isAlphanumeric c = true := by
  intro c hc
  have hMem : c ∈ (seg.words s).flatten := List.mem_flatten.mpr ⟨w, hw, hc⟩
  rw [seg.flatten_words] at hMem
  exact List.of_mem_filter hMem

/-- The characters of the first word are those before one that belongs to no word. -/
theorem exists_run (tables : CharTables) (s : List Char) :
    ∃ run after, s = run ++ after ∧ (∀ c ∈ run, tables.isAlphanumeric c = true) ∧
      (after = [] ∨ ∃ c later, after = c :: later ∧ tables.isAlphanumeric c = false) := by
  induction s with
  | nil => exact ⟨[], [], rfl, by simp, .inl rfl⟩
  | cons c s ih =>
    cases hc : tables.isAlphanumeric c with
    | false => exact ⟨[], c :: s, rfl, by simp, .inr ⟨c, s, rfl, hc⟩⟩
    | true =>
      obtain ⟨run, after, rfl, hRun, hAfter⟩ := ih
      exact ⟨c :: run, after, rfl, List.forall_mem_cons.mpr ⟨hc, hRun⟩, hAfter⟩

theorem words_run_ne_nil {run : List Char} (hSome : run ≠ [])
    (h : ∀ c ∈ run, tables.isAlphanumeric c = true) : seg.words run ≠ [] := by
  obtain ⟨c, later, rfl⟩ := List.exists_cons_of_ne_nil hSome
  intro hNone
  have hFalse := seg.words_eq_nil_iff.mp hNone c List.mem_cons_self
  rw [h c List.mem_cons_self] at hFalse
  cases hFalse

theorem run_of_words_singleton {run : List Char} (h : ∀ c ∈ run, tables.isAlphanumeric c = true)
    (hWords : seg.words run = [w]) : run = w := by
  have hFlatten := seg.flatten_words run
  rw [hWords, List.flatten_singleton, List.filter_eq_self.mpr h] at hFlatten
  exact hFlatten.symm

/-- A text of one word is this word between characters that belong to no word. -/
theorem words_singleton (h : seg.words s = [w]) :
    ∃ before after, s = before ++ w ++ after ∧
      (∀ c ∈ before, tables.isAlphanumeric c = false) ∧
      (∀ c ∈ after, tables.isAlphanumeric c = false) := by
  induction s with
  | nil =>
    rw [words_nil] at h
    cases h
  | cons c s ih =>
    cases hc : tables.isAlphanumeric c with
    | false =>
      have hSkip : seg.words ([c] ++ s) = seg.words s := seg.words_before (by simpa using hc)
      obtain ⟨before, after, hs, hBefore, hAfter⟩ := ih (hSkip ▸ h)
      refine ⟨c :: before, after, by rw [hs]; rfl, List.forall_mem_cons.mpr ⟨hc, hBefore⟩, hAfter⟩
    | true =>
      obtain ⟨run, after, hs, hRun, hAfter⟩ := exists_run tables (c :: s)
      have hSome : run ≠ [] := by
        rintro rfl
        rcases hAfter with rfl | ⟨d, later, rfl, hd⟩
        · cases hs
        · obtain rfl : c = d := List.head_eq_of_cons_eq hs
          rw [hc] at hd
          cases hd
      rw [hs] at h ⊢
      rcases hAfter with rfl | ⟨d, later, rfl, hd⟩
      · rw [List.append_nil] at h ⊢
        exact ⟨[], [], by simp [seg.run_of_words_singleton hRun h], by simp, by simp⟩
      · rw [seg.words_append run d later hd] at h
        rcases List.append_eq_singleton_iff.mp h with ⟨hNone, -⟩ | ⟨hOne, hLater⟩
        · exact absurd hNone (seg.words_run_ne_nil hSome hRun)
        · refine ⟨[], d :: later, by simp [seg.run_of_words_singleton hRun hOne], by simp, ?_⟩
          exact List.forall_mem_cons.mpr ⟨hd, seg.words_eq_nil_iff.mp hLater⟩

/-! ## Names that spell a word -/

/-- The snake case of a name is a word of letters exactly when the name spells this word. -/
theorem snake_eq_iff {word : List Char} (hSome : word ≠ []) (hLetters : ∀ d ∈ word, d.isAlpha = true) :
    seg.snake s = word ↔ tables.Spells word s := by
  constructor
  · intro hSnake
    have hWords : seg.words s ≠ [] := by
      intro hNone
      rw [snake, hNone, List.map_nil, List.intercalate_nil] at hSnake
      exact hSome hSnake.symm
    have hSeparator : '_' ∉ ['_'].intercalate ((seg.words s).map tables.lowercase) := by
      rw [← snake, hSnake]
      intro hMem
      exact absurd (hLetters '_' hMem) (by decide)
    have hOne := intercalate_singleton_of_notMem (by simpa using hWords) hSeparator
    rw [← snake, hSnake] at hOne
    obtain ⟨w, hw, hLower⟩ := List.map_eq_singleton_iff.mp hOne
    obtain ⟨before, after, hs, hBefore, hAfter⟩ := seg.words_singleton hw
    refine ⟨before, w, after, hs, hBefore, hAfter, ?_, hLower⟩
    have hCased := CharTables.cased_of_lowercase (hLower ▸ hLetters)
    have hOnly : seg.words w = [w] := by
      rwa [hs, seg.words_after hAfter, seg.words_before hBefore] at hw
    exact (seg.words_of_cased w (seg.ne_nil_of_mem s w (by simp [hw])) hCased).mp hOnly
  · rintro ⟨before, w, after, rfl, hBefore, hAfter, hUniform, rfl⟩
    have hCased : ∀ c ∈ w, tables.IsCased c := CharTables.cased_of_lowercase hLetters
    have hw : w ≠ [] := by
      rintro rfl
      exact hSome rfl
    rw [snake, seg.words_after hAfter, seg.words_before hBefore,
      (seg.words_of_cased w hw hCased).mpr hUniform, List.map_singleton, List.intercalate_singleton]

/-! ## Names that give identifiers -/

/-- Every letter and digit of a name continues an identifier, in lower case and, at the
beginning of a word, in upper case; and the first one starts an identifier in both cases. -/
structure IdentifierLetters (s : List Char) : Prop where
  lower : ∀ c ∈ s, tables.isAlphanumeric c = true →
    ∀ d ∈ tables.toLowercase c, tables.isXidContinue d = true
  upper : ∀ w ∈ seg.words s, ∀ c ∈ w.head?, ∀ d ∈ tables.toUppercase c, tables.isXidContinue d = true
  startLower : ∀ c ∈ s.find? tables.isAlphanumeric,
    ∀ d ∈ (tables.toLowercase c).head?, tables.isXidStart d = true
  startUpper : ∀ c ∈ s.find? tables.isAlphanumeric,
    ∀ d ∈ (tables.toUppercase c).head?, tables.isXidStart d = true

theorem exists_first (h : seg.words s ≠ []) :
    ∃ c later ws, seg.words s = (c :: later) :: ws ∧ s.find? tables.isAlphanumeric = some c ∧
      tables.isAlphanumeric c = true := by
  obtain ⟨w, ws, hWords⟩ := List.exists_cons_of_ne_nil h
  have hMem : w ∈ seg.words s := by simp [hWords]
  obtain ⟨c, later, rfl⟩ := List.exists_cons_of_ne_nil (seg.ne_nil_of_mem s w hMem)
  refine ⟨c, later, ws, hWords, ?_, seg.alphanumeric_of_mem_words hMem c List.mem_cons_self⟩
  rw [← List.head?_filter, ← seg.flatten_words, hWords]
  rfl

/-- The characters of the words. -/
theorem forall_words_iff {p : Char → Prop} : (∀ w ∈ seg.words s, ∀ c ∈ w, p c) ↔
    ∀ c ∈ s, tables.isAlphanumeric c = true → p c := by
  rw [← List.forall_mem_flatten, seg.flatten_words]
  simp only [List.mem_filter, and_imp]

theorem continue_snake_iff : (∀ d ∈ seg.snake s, tables.isXidContinue d = true) ↔
    ∀ c ∈ s, tables.isAlphanumeric c = true →
      ∀ d ∈ tables.toLowercase c, tables.isXidContinue d = true := by
  rw [← seg.forall_words_iff]
  constructor
  · intro h w hw
    refine CharTables.continue_lowercase_iff.mp ?_
    intro d hd
    exact h d (mem_intercalate_of_mem (List.mem_map_of_mem hw) hd)
  · intro h
    refine forall_mem_intercalate ?_ ?_
    · rw [tables.isXidContinue_ascii '_' (by decide)]
      rfl
    · rw [List.forall_mem_map]
      intro w hw
      exact CharTables.continue_lowercase_iff.mpr (h w hw)

/-- The snake case of a name with a word is an identifier exactly when its letters and digits
continue and the first one starts one, in lower case. -/
theorem isIdentifier_snake_iff (h : seg.words s ≠ []) :
    tables.isIdentifier (seg.snake s) = true ↔
      (∀ c ∈ s, tables.isAlphanumeric c = true →
        ∀ d ∈ tables.toLowercase c, tables.isXidContinue d = true) ∧
      ∀ c ∈ s.find? tables.isAlphanumeric,
        ∀ d ∈ (tables.toLowercase c).head?, tables.isXidStart d = true := by
  obtain ⟨c, later, ws, hWords, hFind, hc⟩ := seg.exists_first h
  have hLower : tables.lowercase (c :: later) ≠ [] := CharTables.lowercase_ne_nil (by simp)
  have hHead : (seg.snake s).head? = (tables.lowercase (c :: later)).head? := by
    rw [snake, hWords, List.map_cons, head?_intercalate hLower]
  have hWord : c :: later ∈ seg.words s := hWords ▸ List.mem_cons_self
  have hMem := seg.alphanumeric_of_mem_words hWord
  have hSome : seg.snake s ≠ [] := by
    intro hNone
    rw [hNone, List.head?_nil, eq_comm, List.head?_eq_none_iff] at hHead
    exact hLower hHead
  have hFirst : (seg.snake s).head? ≠ some '_' := by
    rw [hHead]
    intro hUnderscore
    exact CharTables.underscore_notMem_lowercase hMem (List.mem_of_head? hUnderscore)
  rw [CharTables.isIdentifier_iff hSome hFirst, seg.continue_snake_iff, hHead,
    CharTables.start_lowercase_iff, hFind]
  simp

theorem continue_capitalize_iff {c : Char} {later : List Char} :
    (∀ d ∈ tables.capitalize (c :: later), tables.isXidContinue d = true) ↔
      (∀ d ∈ tables.toUppercase c, tables.isXidContinue d = true) ∧
      ∀ e ∈ later, ∀ d ∈ tables.toLowercase e, tables.isXidContinue d = true := by
  rw [CharTables.capitalize, List.forall_mem_append, CharTables.continue_lowercase_iff]

/-- A type name: the Pascal case of a name with a word before a suffix. -/
theorem isIdentifier_pascal_iff (h : seg.words s ≠ []) {suffix : List Char}
    (hSuffix : ∀ d ∈ suffix, tables.isXidContinue d = true) :
    tables.isIdentifier (seg.pascal s ++ suffix) = true ↔
      (∀ w ∈ seg.words s, ∀ d ∈ tables.capitalize w, tables.isXidContinue d = true) ∧
      ∀ c ∈ s.find? tables.isAlphanumeric,
        ∀ d ∈ (tables.toUppercase c).head?, tables.isXidStart d = true := by
  obtain ⟨c, later, ws, hWords, hFind, hc⟩ := seg.exists_first h
  obtain ⟨first, rest, hUpper⟩ := List.exists_cons_of_ne_nil (tables.toUppercase_ne_nil c)
  have hText : seg.pascal s ++ suffix = first :: (rest ++ tables.lowercase later ++
      (ws.map tables.capitalize).flatten ++ suffix) := by
    rw [pascal, hWords, List.map_cons, List.flatten_cons, CharTables.capitalize, hUpper]
    simp
  have hFirst : (seg.pascal s ++ suffix).head? ≠ some '_' := by
    rw [hText, List.head?_cons]
    intro hUnderscore
    refine (tables.underscore_notMem c hc).2 ?_
    rw [hUpper, ← Option.some.inj hUnderscore]
    exact List.mem_cons_self
  rw [CharTables.isIdentifier_iff (by simp [hText]) hFirst, List.forall_mem_append, pascal,
    List.forall_mem_flatten, List.forall_mem_map, ← pascal, and_iff_left hSuffix, hText, hFind]
  simp [hUpper]

/-- Both cases of a name give identifiers exactly when its letters and digits do. -/
theorem identifiers_iff (h : seg.words s ≠ []) {suffixes : List (List Char)} (hSome : suffixes ≠ [])
    (hSuffixes : ∀ suffix ∈ suffixes, ∀ d ∈ suffix, tables.isXidContinue d = true) :
    (tables.isIdentifier (seg.snake s) = true ∧
      ∀ suffix ∈ suffixes, tables.isIdentifier (seg.pascal s ++ suffix) = true) ↔
        seg.IdentifierLetters s := by
  have hPascal : (∀ suffix ∈ suffixes, tables.isIdentifier (seg.pascal s ++ suffix) = true) ↔
      (∀ w ∈ seg.words s, ∀ d ∈ tables.capitalize w, tables.isXidContinue d = true) ∧
      ∀ c ∈ s.find? tables.isAlphanumeric,
        ∀ d ∈ (tables.toUppercase c).head?, tables.isXidStart d = true := by
    obtain ⟨suffix, others, rfl⟩ := List.exists_cons_of_ne_nil hSome
    constructor
    · intro hAll
      exact (seg.isIdentifier_pascal_iff h (hSuffixes suffix List.mem_cons_self)).mp
        (hAll suffix List.mem_cons_self)
    · intro hWords other hOther
      exact (seg.isIdentifier_pascal_iff h (hSuffixes other hOther)).mpr hWords
  rw [hPascal, seg.isIdentifier_snake_iff h]
  have hSplit : ∀ w ∈ seg.words s, ∃ c later, w = c :: later := fun w hw =>
    List.exists_cons_of_ne_nil (seg.ne_nil_of_mem s w hw)
  constructor
  · rintro ⟨⟨hLower, hStartLower⟩, hWords, hStartUpper⟩
    refine ⟨hLower, ?_, hStartLower, hStartUpper⟩
    intro w hw c hc
    obtain ⟨first, later, rfl⟩ := hSplit w hw
    obtain rfl : first = c := by simpa using hc
    exact (continue_capitalize_iff.mp (hWords _ hw)).1
  · rintro ⟨hLower, hUpper, hStartLower, hStartUpper⟩
    refine ⟨⟨hLower, hStartLower⟩, ?_, hStartUpper⟩
    intro w hw
    have hCharacters := seg.forall_words_iff.mpr hLower w hw
    obtain ⟨first, later, rfl⟩ := hSplit w hw
    refine continue_capitalize_iff.mpr ⟨hUpper _ hw first rfl, ?_⟩
    intro e he
    exact hCharacters e (List.mem_cons_of_mem _ he)

/-! ## Names in ASCII -/

theorem toLower_ascii {c : Char} (hAscii : c.toNat < 128) : c.toLower.toNat < 128 ∧
    c.toLower.isUpper = false ∧ c.toLower.toLower = c.toLower ∧
    (c.isAlphanum = true → c.toLower.isAlphanum = true) :=
  of_ascii (p := fun c => c.toLower.toNat < 128 ∧ c.toLower.isUpper = false ∧
    c.toLower.toLower = c.toLower ∧ (c.isAlphanum = true → c.toLower.isAlphanum = true))
    (by decide) hAscii

theorem toUpper_ascii {c : Char} (hAscii : c.toNat < 128) : c.toUpper.toNat < 128 ∧
    (c.isAlphanum = true → c.toUpper.isAlphanum = true) :=
  of_ascii (p := fun c => c.toUpper.toNat < 128 ∧
    (c.isAlphanum = true → c.toUpper.isAlphanum = true)) (by decide) hAscii

theorem isAlpha_ascii {c : Char} (hAscii : c.toNat < 128) (hAlpha : c.isAlpha = true) :
    c.toLower.isAlpha = true ∧ c.toUpper.isAlpha = true :=
  of_ascii (p := fun c => c.isAlpha = true → c.toLower.isAlpha = true ∧ c.toUpper.isAlpha = true)
    (by decide) hAscii hAlpha

theorem identifierLetters_of_ascii (hAscii : ∀ c ∈ s, c.toNat < 128)
    (hFirst : ∀ c ∈ s.find? tables.isAlphanumeric, c.isAlpha = true) : seg.IdentifierLetters s where
  lower := by
    intro c hc hLetter d hd
    have hSmall := hAscii c hc
    rw [tables.toLowercase_ascii c hSmall, List.mem_singleton] at hd
    rw [tables.isAlphanumeric_ascii c hSmall] at hLetter
    obtain ⟨hLower, -, -, hKept⟩ := toLower_ascii hSmall
    rw [hd, tables.isXidContinue_ascii _ hLower, hKept hLetter, Bool.true_or]
  upper := by
    intro w hw c hc d hd
    have hMem : c ∈ w := List.mem_of_mem_head? hc
    have hSmall : c.toNat < 128 := (seg.forall_words_iff.mpr fun c hc _ => hAscii c hc) w hw c hMem
    have hLetter := seg.alphanumeric_of_mem_words hw c hMem
    rw [tables.isAlphanumeric_ascii c hSmall] at hLetter
    rw [tables.toUppercase_ascii c hSmall, List.mem_singleton] at hd
    obtain ⟨hUpper, hKept⟩ := toUpper_ascii hSmall
    rw [hd, tables.isXidContinue_ascii _ hUpper, hKept hLetter, Bool.true_or]
  startLower := by
    intro c hc d hd
    have hSmall := hAscii c (List.mem_of_find?_eq_some hc)
    rw [tables.toLowercase_ascii c hSmall, List.head?_cons] at hd
    cases hd
    rw [tables.isXidStart_ascii _ (toLower_ascii hSmall).1]
    exact (isAlpha_ascii hSmall (hFirst c hc)).1
  startUpper := by
    intro c hc d hd
    have hSmall := hAscii c (List.mem_of_find?_eq_some hc)
    rw [tables.toUppercase_ascii c hSmall, List.head?_cons] at hd
    cases hd
    rw [tables.isXidStart_ascii _ (toUpper_ascii hSmall).1]
    exact (isAlpha_ascii hSmall (hFirst c hc)).2

theorem lowercase_ascii (h : ∀ c ∈ w, c.toNat < 128) : tables.lowercase w = w.map Char.toLower := by
  rcases CharTables.lowercase_cases tables w with ⟨init, hInit, -⟩ | hLower
  · exact absurd (h 'Σ' (by simp [hInit])) (by decide)
  · rw [hLower, ← List.flatMap_pure_eq_map]
    exact List.flatMap_congr fun c hc => tables.toLowercase_ascii c (h c hc)

theorem words_intercalate {l : List (List Char)} (h : ∀ v ∈ l, seg.words v = [v]) :
    seg.words (['-'].intercalate l) = l := by
  have hDash : tables.isAlphanumeric '-' = false := tables.isAlphanumeric_ascii '-' (by decide)
  induction l with
  | nil => rw [List.intercalate_nil, words_nil]
  | cons v l ih =>
    rw [List.forall_mem_cons] at h
    cases l with
    | nil => rw [List.intercalate_singleton, h.1]
    | cons u l =>
      rw [List.intercalate_cons_cons, List.append_assoc, List.singleton_append,
        seg.words_append _ _ _ hDash, h.1, ih h.2]
      rfl

/-- The snake case of a kebab case, in ASCII. -/
theorem snake_kebab (hAscii : ∀ c ∈ s, c.toNat < 128) : seg.snake (seg.kebab s) = seg.snake s := by
  have hMem : ∀ w ∈ seg.words s, ∀ c ∈ w, c.toNat < 128 :=
    seg.forall_words_iff.mpr fun c hc _ => hAscii c hc
  have hLower : ∀ w ∈ seg.words s, tables.lowercase w = w.map Char.toLower := fun w hw =>
    lowercase_ascii (hMem w hw)
  have hOne : ∀ v ∈ (seg.words s).map tables.lowercase, seg.words v = [v] := by
    rw [List.forall_mem_map]
    intro w hw
    refine seg.words_of_no_uppercase _ (CharTables.lowercase_ne_nil (seg.ne_nil_of_mem s w hw)) ?_
    rw [hLower w hw, List.forall_mem_map]
    intro c hc
    obtain ⟨hSmall, hUpper, -, hAlphanumeric⟩ := toLower_ascii (hMem w hw c hc)
    have hc' := seg.alphanumeric_of_mem_words hw c hc
    rw [tables.isAlphanumeric_ascii c (hMem w hw c hc)] at hc'
    rw [tables.isAlphanumeric_ascii _ hSmall, tables.isUppercase_ascii _ hSmall]
    exact ⟨hAlphanumeric hc', hUpper⟩
  have hAgain : ∀ v ∈ (seg.words s).map tables.lowercase, tables.lowercase v = v := by
    rw [List.forall_mem_map]
    intro w hw
    rw [hLower w hw, lowercase_ascii, List.map_map]
    · refine List.map_congr_left ?_
      intro c hc
      exact (toLower_ascii (hMem w hw c hc)).2.2.1
    · rw [List.forall_mem_map]
      intro c hc
      exact (toLower_ascii (hMem w hw c hc)).1
  rw [snake, kebab, seg.words_intercalate hOne, List.map_congr_left hAgain, List.map_id', ← snake]

end Segmentation

end WordCase
