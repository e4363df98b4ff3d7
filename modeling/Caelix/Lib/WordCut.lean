import Caelix.Lib.WordCase

/-!
# Words cut where the case changes

A segmentation that scans a run of letters and digits once and keeps the case of the last
cased character.

* `caseWords_single_iff`: the runs of cased characters that are one word.
* `cut`: the segmentation, for tables in which no character has both cases.
* `latinTables`, `latinWords`: ASCII and the letter sigma.
-/

namespace WordCase

/-- The case of the last cased character of a word. -/
inductive CaseMode where
  | boundary
  | lowercase
  | uppercase
  deriving DecidableEq

namespace CharTables

variable (tables : CharTables)

def nextMode (mode : CaseMode) (c : Char) : CaseMode :=
  if tables.isLowercase c then .lowercase else if tables.isUppercase c then .uppercase else mode

/-- The words of a run of letters and digits, from the word that has begun. -/
def caseWords (mode : CaseMode) (word : List Char) : List Char → List (List Char)
  | [] => if word.isEmpty then [] else [word]
  | [c] => [word ++ [c]]
  | c :: next :: later =>
    if tables.nextMode mode c = .lowercase ∧ tables.isUppercase next then
      (word ++ [c]) :: caseWords .boundary [] (next :: later)
    else if mode = .uppercase ∧ tables.isUppercase c ∧ tables.isLowercase next then
      word :: caseWords .boundary [c] (next :: later)
    else caseWords (tables.nextMode mode c) (word ++ [c]) (next :: later)

/-- The words of all runs. -/
def cutWords (s : List Char) : List (List Char) :=
  (s.splitOnP fun c => !tables.isAlphanumeric c).flatMap (tables.caseWords .boundary [])

variable {tables} {mode : CaseMode} {word run : List Char}

theorem caseWords_flatten : (tables.caseWords mode word run).flatten = word ++ run := by
  fun_induction caseWords tables mode word run with
  | case1 mode word h => simp_all
  | case2 mode word h => simp
  | case3 mode word c => simp
  | case4 mode word c next later h ih => simp [ih]
  | case5 mode word c next later h h' ih => simp [ih]
  | case6 mode word c next later h h' ih => simp [ih]

theorem caseWords_ne_nil (hWord : mode = .uppercase → word ≠ []) :
    ∀ w ∈ tables.caseWords mode word run, w ≠ [] := by
  fun_induction caseWords tables mode word run with
  | case1 mode word h => simp
  | case2 mode word h => simpa using h
  | case3 mode word c => simp
  | case4 mode word c next later h ih =>
    rw [List.forall_mem_cons]
    exact ⟨by simp, ih (by simp)⟩
  | case5 mode word c next later h h' ih =>
    rw [List.forall_mem_cons]
    exact ⟨hWord h'.1, ih (by simp)⟩
  | case6 mode word c next later h h' ih => exact ih (by simp)

theorem caseWords_of_no_uppercase (hSome : run ≠ []) (h : ∀ c ∈ run, tables.isUppercase c = false) :
    tables.caseWords mode word run = [word ++ run] := by
  fun_induction caseWords tables mode word run with
  | case1 mode word hEmpty => exact absurd rfl hSome
  | case2 mode word hEmpty => exact absurd rfl hSome
  | case3 mode word c => rfl
  | case4 mode word c next later hCut ih => simp [h next] at hCut
  | case5 mode word c next later hKeep hCut ih => simp [h c] at hCut
  | case6 mode word c next later hKeep hKeep' ih =>
    rw [ih (by simp) (List.forall_mem_cons.mp h).2]
    simp

theorem caseWords_of_uppercase (hDisjoint : ∀ c, tables.isUppercase c = true → tables.isLowercase c = false)
    (hSome : run ≠ []) (h : ∀ c ∈ run, tables.isUppercase c = true) :
    tables.caseWords mode word run = [word ++ run] := by
  fun_induction caseWords tables mode word run with
  | case1 mode word hEmpty => exact absurd rfl hSome
  | case2 mode word hEmpty => exact absurd rfl hSome
  | case3 mode word c => rfl
  | case4 mode word c next later hCut ih =>
    simp [nextMode, hDisjoint c (h c (by simp)), h c] at hCut
  | case5 mode word c next later hKeep hCut ih => simp [hDisjoint next (h next (by simp))] at hCut
  | case6 mode word c next later hKeep hKeep' ih =>
    rw [ih (by simp) (List.forall_mem_cons.mp h).2]
    simp

theorem caseWords_cons_ne_nil {c : Char} : tables.caseWords mode word (c :: run) ≠ [] := by
  intro hNone
  have hFlatten : (tables.caseWords mode word (c :: run)).flatten = word ++ c :: run := caseWords_flatten
  rw [hNone, List.flatten_nil, eq_comm, List.append_eq_nil_iff] at hFlatten
  cases hFlatten.2

/-- Before another word there is no single one. -/
theorem length_cons_caseWords_ne {w : List Char} {c : Char} :
    (w :: tables.caseWords mode word (c :: run)).length ≠ 1 := by
  rw [List.length_cons]
  intro hOne
  exact caseWords_cons_ne_nil (List.length_eq_zero_iff.mp (Nat.succ.inj hOne))

/-- After a lower case character, an upper case one begins a word. -/
theorem lowercase_of_caseWords {c : Char} (h : (tables.caseWords mode word (c :: run)).length = 1)
    (hc : tables.isLowercase c = true) (hCased : ∀ d ∈ run, tables.IsCased d) :
    ∀ d ∈ run, tables.isLowercase d = true := by
  induction run generalizing mode word c with
  | nil => simp
  | cons next later ih =>
    rw [List.forall_mem_cons] at hCased ⊢
    have hMode : tables.nextMode mode c = .lowercase := by rw [nextMode, if_pos hc]
    have hNext : tables.isUppercase next = false := by
      by_contra hUpper
      rw [caseWords, if_pos ⟨hMode, by simpa using hUpper⟩] at h
      exact length_cons_caseWords_ne h
    have hLower : tables.isLowercase next = true := by
      rcases hCased.1 with hLower | hUpper
      · exact hLower
      · rw [hNext] at hUpper
        cases hUpper
    refine ⟨hLower, ?_⟩
    rw [caseWords, if_neg (by simp [hNext])] at h
    split at h
    · exact absurd h length_cons_caseWords_ne
    · exact ih h hLower hCased.2

/-- After several upper case characters, the last one begins a word when a lower case one
follows. -/
theorem uppercase_of_caseWords {c : Char}
    (h : (tables.caseWords .uppercase word (c :: run)).length = 1)
    (hc : tables.isUppercase c = true) (hNotLower : tables.isLowercase c = false)
    (hCased : ∀ d ∈ run, tables.IsCased d) : ∀ d ∈ run, tables.isUppercase d = true := by
  induction run generalizing word c with
  | nil => simp
  | cons next later ih =>
    rw [List.forall_mem_cons] at hCased ⊢
    have hMode : tables.nextMode .uppercase c = .uppercase := by simp [nextMode, hc, hNotLower]
    have hNext : tables.isLowercase next = false := by
      by_contra hLower
      rw [caseWords, hMode, if_neg (by simp), if_pos ⟨rfl, hc, by simpa using hLower⟩] at h
      exact length_cons_caseWords_ne h
    have hUpper : tables.isUppercase next = true := by
      rcases hCased.1 with hLower | hUpper
      · rw [hNext] at hLower
        cases hLower
      · exact hUpper
    refine ⟨hUpper, ?_⟩
    rw [caseWords, hMode, if_neg (by simp), if_neg (by simp [hNext])] at h
    exact ih h hUpper hNext hCased.2

/-- Cased characters make one word exactly in the three shapes. -/
theorem caseWords_single_iff
    (hDisjoint : ∀ c, tables.isUppercase c = true → tables.isLowercase c = false)
    (hSome : run ≠ []) (hCased : ∀ c ∈ run, tables.IsCased c) :
    tables.caseWords .boundary [] run = [run] ↔ tables.Uniform run := by
  have hLowerNot : ∀ c, tables.isLowercase c = true → tables.isUppercase c = false := by
    intro c hc
    by_contra hUpper
    rw [hDisjoint c (by simpa using hUpper)] at hc
    cases hc
  constructor
  · intro hOne
    have hLength : (tables.caseWords .boundary [] run).length = 1 := by rw [hOne]; rfl
    obtain ⟨c, later, rfl⟩ := List.exists_cons_of_ne_nil hSome
    rw [List.forall_mem_cons] at hCased
    rcases hCased.1 with hc | hc
    · exact .inl (List.forall_mem_cons.mpr ⟨hc, lowercase_of_caseWords hLength hc hCased.2⟩)
    · cases later with
      | nil => exact .inr (.inl (by simpa using hc))
      | cons next later =>
        -- The first character is upper case, so the second one decides the shape.
        have hMode : tables.nextMode .boundary c = .uppercase := by
          simp [nextMode, hc, hDisjoint c hc]
        rw [caseWords, hMode, if_neg (by simp), if_neg (by simp)] at hLength
        rw [List.forall_mem_cons] at hCased
        rcases hCased.2.1 with hNext | hNext
        · refine .inr (.inr ⟨c, next :: later, rfl, hc, List.forall_mem_cons.mpr ⟨hNext, ?_⟩⟩)
          exact lowercase_of_caseWords hLength hNext hCased.2.2
        · refine .inr (.inl (List.forall_mem_cons.mpr ⟨hc, List.forall_mem_cons.mpr ⟨hNext, ?_⟩⟩))
          exact uppercase_of_caseWords hLength hNext (hDisjoint next hNext) hCased.2.2
  · rintro (hLower | hUpper | ⟨first, later, rfl, hFirst, hLater⟩)
    · exact caseWords_of_no_uppercase hSome fun c hc => hLowerNot c (hLower c hc)
    · exact caseWords_of_uppercase hDisjoint hSome hUpper
    · cases later with
      | nil => rfl
      | cons next later =>
        have hMode : tables.nextMode .boundary first = .uppercase := by
          simp [nextMode, hFirst, hDisjoint first hFirst]
        rw [caseWords, hMode, if_neg (by simp), if_neg (by simp)]
        rw [caseWords_of_no_uppercase (by simp) fun c hc => hLowerNot c (hLater c hc)]
        rfl

theorem flatten_splitOnP (p : Char → Bool) (s : List Char) :
    (s.splitOnP p).flatten = s.filter fun c => !p c := by
  induction s with
  | nil => rfl
  | cons c s ih =>
    rw [List.splitOnP_cons_eq_if_modifyHead]
    cases hc : p c with
    | true => simp [hc, ih]
    | false =>
      obtain ⟨first, later, hSplit⟩ := List.exists_cons_of_ne_nil (List.splitOnP_ne_nil p s)
      rw [hSplit] at ih ⊢
      simp [hc, ← ih]

/-- The segmentation that cuts words at these places and no others. -/
def cut (tables : CharTables)
    (hDisjoint : ∀ c, tables.isUppercase c = true → tables.isLowercase c = false) :
    Segmentation tables where
  words := tables.cutWords
  flatten_words s := by
    have hRuns : ∀ l : List (List Char),
        (l.flatMap (tables.caseWords .boundary [])).flatten = l.flatten := by
      intro l
      induction l with
      | nil => rfl
      | cons run l ih =>
        rw [List.flatMap_cons, List.flatten_append, caseWords_flatten, ih]
        rfl
    rw [cutWords, hRuns, flatten_splitOnP]
    simp
  ne_nil_of_mem s w hw := by
    obtain ⟨run, -, hw⟩ := List.mem_flatMap.mp hw
    exact caseWords_ne_nil (by simp) w hw
  words_append s c t hc := by
    rw [cutWords, List.splitOnP_append_cons _ _ (by simp [hc]), List.flatMap_append]
    rfl
  words_of_no_uppercase s hSome h := by
    rw [cutWords, List.splitOnP_eq_singleton fun c hc => by simp [(h c hc).1], List.flatMap_singleton]
    exact caseWords_of_no_uppercase hSome fun c hc => (h c hc).2
  words_of_cased s hSome h := by
    rw [cutWords, List.splitOnP_eq_singleton fun c hc => by simp [tables.alphanumeric_of_cased c (h c hc)],
      List.flatMap_singleton]
    exact caseWords_single_iff hDisjoint hSome h

end CharTables

/-! ## Tables -/

/-- The letters sigma, whose lower case depends on the place. -/
def isSigma (c : Char) : Bool := c == 'Σ' || c == 'σ' || c == 'ς'

theorem ne_sigma_of_ascii {c : Char} (h : c.toNat < 128) : c ≠ 'Σ' ∧ c ≠ 'σ' ∧ c ≠ 'ς' := by
  refine ⟨?_, ?_, ?_⟩ <;> rintro rfl <;> exact absurd h (by decide)

theorem isSigma_ascii {c : Char} (h : c.toNat < 128) : isSigma c = false := by
  simp [isSigma, ne_sigma_of_ascii h]

theorem isAlpha_eq (c : Char) : c.isAlpha = (c.isUpper || c.isLower) := rfl

theorem isAlphanum_eq (c : Char) : c.isAlphanum = (c.isUpper || c.isLower || c.isDigit) := rfl

theorem isUpper_eq (c : Char) : c.isUpper = decide (65 ≤ c.val ∧ c.val ≤ 90) := rfl

theorem isLower_eq (c : Char) : c.isLower = (decide (97 ≤ c.val) && decide (c.val ≤ 122)) := rfl

theorem isDigit_eq (c : Char) : c.isDigit = (decide (48 ≤ c.val) && decide (c.val ≤ 57)) := rfl

theorem ascii_of_isAlphanum {c : Char} (h : c.isAlphanum = true) : c.toNat < 128 := by
  have hc : c.toNat = c.val.toNat := rfl
  simp only [isAlphanum_eq, isUpper_eq, isLower_eq, isDigit_eq, Bool.or_eq_true, Bool.and_eq_true,
    decide_eq_true_eq, UInt32.le_iff_toNat_le] at h
  rw [hc]
  rcases h with ((⟨-, h⟩ | ⟨-, h⟩) | ⟨-, h⟩)
  · exact Nat.lt_of_le_of_lt h (by decide)
  · exact Nat.lt_of_le_of_lt h (by decide)
  · exact Nat.lt_of_le_of_lt h (by decide)

theorem toLower_of_not_ascii {c : Char} (h : ¬c.toNat < 128) : c.toLower = c := by
  have hc : c.toNat = c.val.toNat := rfl
  rw [hc] at h
  unfold Char.toLower
  rw [dif_neg]
  rintro ⟨-, hUpper⟩
  rw [UInt32.le_iff_toNat_le] at hUpper
  exact h (Nat.lt_of_le_of_lt hUpper (by decide))

/-- Tables for ASCII and the letters sigma. -/
def latinTables : CharTables where
  isAlphanumeric c := c.isAlphanum || isSigma c
  isLowercase c := c.isLower || c == 'σ' || c == 'ς'
  isUppercase c := c.isUpper || c == 'Σ'
  toLowercase c := if c = 'Σ' then ['σ'] else [c.toLower]
  toUppercase c := if c = 'σ' ∨ c = 'ς' then ['Σ'] else [c.toUpper]
  isXidStart c := c.isAlpha || isSigma c
  isXidContinue c := c.isAlphanum || c == '_' || isSigma c
  isAlphanumeric_ascii c h := by simp [isSigma_ascii h]
  isLowercase_ascii c h := by
    obtain ⟨-, hLower, hFinal⟩ := ne_sigma_of_ascii h
    rw [beq_false_of_ne hLower, beq_false_of_ne hFinal, Bool.or_false, Bool.or_false]
  isUppercase_ascii c h := by rw [beq_false_of_ne (ne_sigma_of_ascii h).1, Bool.or_false]
  toLowercase_ascii c h := if_neg (ne_sigma_of_ascii h).1
  toUppercase_ascii c h := if_neg (by simp [ne_sigma_of_ascii h])
  isXidStart_ascii c h := by simp [isSigma_ascii h]
  isXidContinue_ascii c h := by simp [isSigma_ascii h]
  toLowercase_ne_nil c := by split <;> exact List.cons_ne_nil _ _
  toUppercase_ne_nil c := by split <;> exact List.cons_ne_nil _ _
  alphanumeric_of_cased c h := by
    simp only [isAlphanum_eq, isSigma, Bool.or_eq_true] at h ⊢
    tauto
  cased_of_ascii c h := by
    by_cases hSigma : c = 'Σ'
    · exact .inr (by simp [hSigma])
    · rw [if_neg hSigma, List.forall_mem_singleton] at h
      have hAlpha : c.isAlpha = true := by
        by_cases hAscii : c.toNat < 128
        · exact of_ascii (p := fun c => c.toLower.isAlpha = true → c.isAlpha = true) (by decide) hAscii h
        · rwa [toLower_of_not_ascii hAscii] at h
      simp only [isAlpha_eq, Bool.or_eq_true] at hAlpha ⊢
      tauto
  underscore_notMem c h := by
    rw [Bool.or_eq_true] at h
    rcases h with hAlphanum | hSigma
    · have hAscii := ascii_of_isAlphanum hAlphanum
      obtain ⟨hUpper, hLower, hFinal⟩ := ne_sigma_of_ascii hAscii
      rw [if_neg hUpper, if_neg (by simp [hLower, hFinal]), List.mem_singleton, List.mem_singleton]
      exact of_ascii (p := fun c => c.isAlphanum = true → '_' ≠ c.toLower ∧ '_' ≠ c.toUpper)
        (by decide) hAscii hAlphanum
    · simp only [isSigma, Bool.or_eq_true, beq_iff_eq] at hSigma
      rcases hSigma with (rfl | rfl) | rfl <;> decide
  continue_of_start c h := by
    simp only [isAlphanum_eq, isAlpha_eq, Bool.or_eq_true] at h ⊢
    tauto
  toLowercase_sigma := rfl
  isXidStart_sigma := by decide

/-- The segmentation of names in ASCII. -/
def latinWords : Segmentation latinTables := latinTables.cut <| by
  intro c h
  rw [latinTables, Bool.or_eq_true, beq_iff_eq] at h
  rcases h with hUpper | rfl
  · have hAscii : c.toNat < 128 := ascii_of_isAlphanum (by simp [isAlphanum_eq, hUpper])
    rw [latinTables.isLowercase_ascii c hAscii]
    exact of_ascii (p := fun c => c.isUpper = true → c.isLower = false) (by decide) hAscii hUpper
  · decide

example : latinWords.snake "XMLHttpRequest v2".toList = "xml_http_request_v2".toList := by decide

end WordCase
