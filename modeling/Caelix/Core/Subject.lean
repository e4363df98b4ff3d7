import Mathlib.Data.List.Basic

/-!
# Subjects and subject patterns

A subject is split at its dots into tokens. In a pattern the token `*` stands for any
one token and a last token `>` for one or more.

* `validMicroservicePattern_iff`: the check of a pattern, token by token.
* `microservicePatternsIntersect_iff`: on valid patterns the overlap check is exact, some
  concrete subject matches both of them.
-/

namespace Caelix

abbrev Token := List Char

/-- `split('.')`. -/
def tokens (s : String) : List Token := s.toList.splitOn '.'

/-- `char::is_whitespace`, the Unicode property `White_Space`. -/
def isWhitespace (c : Char) : Bool :=
  let n := c.toNat
  (9 ≤ n && n ≤ 13) || n == 0x20 || n == 0x85 || n == 0xA0 || n == 0x1680 ||
    (0x2000 ≤ n && n ≤ 0x200A) || n == 0x2028 || n == 0x2029 || n == 0x202F || n == 0x205F ||
    n == 0x3000

def star : Token := ['*']

def rest : Token := ['>']

def validToken (command last : Bool) (token : Token) : Bool :=
  !token.isEmpty && (!token.contains '*' || (!command && token == star)) &&
    (!token.contains '>' || (!command && token == rest && last))

def validMicroservicePattern (pattern : String) (command : Bool) : Bool :=
  if pattern.isEmpty || pattern.toList.any isWhitespace then false
  else
    let tokens := tokens pattern
    tokens.zipIdx.all fun p => validToken command (p.2 + 1 == tokens.length) p.1

/-- The loop of `microservice_patterns_intersect`, on the tokens from one index on. -/
def tokensIntersect : List Token → List Token → Bool
  | [], [] => true
  | left :: first, right :: second =>
    if left = rest ∨ right = rest then true
    else if left = star ∨ right = star ∨ left = right then tokensIntersect first second
    else false
  | _, _ => false

def microservicePatternsIntersect (first second : String) : Bool :=
  tokensIntersect (tokens first) (tokens second)

/-- The loop of `nats_pattern_matches`, on the tokens from one index on. -/
def tokensMatch : List Token → List Token → Bool
  | [], subject => subject.isEmpty
  | token :: pattern, subject =>
    if token = rest then !subject.isEmpty
    else
      match subject with
      | [] => false
      | value :: subject =>
        if token = star ∨ value = token then tokensMatch pattern subject else false

def natsPatternMatches (pattern subject : String) : Bool :=
  tokensMatch (tokens pattern) (tokens subject)

/-! ## Concrete subjects -/

/-- A token of a concrete subject. -/
def ConcreteToken (t : Token) : Prop := t ≠ [] ∧ '*' ∉ t ∧ '>' ∉ t ∧ '.' ∉ t

/-- A subject that a message can be sent to: non-empty tokens without wildcards. -/
def ConcreteSubject (subject : String) : Prop := ∀ t ∈ tokens subject, ConcreteToken t

/-- A concrete subject matches both patterns. -/
def Overlap (first second : String) : Prop :=
  ∃ subject, ConcreteSubject subject ∧ natsPatternMatches first subject = true ∧
    natsPatternMatches second subject = true

theorem dot_notMem_tokens (l : List Char) : ∀ t ∈ l.splitOn '.', '.' ∉ t := by
  induction l with
  | nil => simp
  | cons c l ih =>
    intro t ht
    rw [List.splitOn_cons_eq_if_modifyHead] at ht
    by_cases hc : c = '.'
    · rw [if_pos (by simp [hc])] at ht
      rcases List.mem_cons.mp ht with rfl | ht
      · simp
      · exact ih t ht
    · rw [if_neg (by simp [hc])] at ht
      cases hSplit : l.splitOn '.' with
      | nil => exact absurd hSplit (List.splitOn_ne_nil _ _)
      | cons u us =>
        rw [hSplit, List.modifyHead_cons] at ht
        rcases List.mem_cons.mp ht with rfl | ht
        · have hu := ih u (by simp [hSplit])
          simp [hu, Ne.symm hc]
        · exact ih t (by simp [hSplit, ht])

/-- Every list of concrete tokens is the token list of a subject. -/
theorem exists_subject {ts : List Token} (hne : ts ≠ []) (h : ∀ t ∈ ts, ConcreteToken t) :
    ∃ subject, tokens subject = ts := by
  refine ⟨String.ofList (['.'].intercalate ts), ?_⟩
  rw [tokens, String.toList_ofList, List.splitOn_intercalate '.' (fun t ht => (h t ht).2.2.2) hne]

/-! ## Valid patterns -/

/-- The tokens of a valid pattern; `wild` allows the wildcards of an event pattern. -/
def ValidTokens (wild : Prop) : List Token → Prop
  | [] => True
  | t :: ts => t ≠ [] ∧ ('*' ∈ t → wild ∧ t = star) ∧ ('>' ∈ t → wild ∧ t = rest ∧ ts = []) ∧
      ValidTokens wild ts

/-- A pattern that a handler may subscribe to. -/
def ValidPattern (pattern : String) (command : Bool) : Prop :=
  pattern ≠ "" ∧ (∀ c ∈ pattern.toList, isWhitespace c = false) ∧
    ValidTokens (command = false) (tokens pattern)

theorem validToken_iff {command last : Bool} {t : Token} :
    validToken command last t = true ↔ t ≠ [] ∧ ('*' ∈ t → command = false ∧ t = star) ∧
      ('>' ∈ t → command = false ∧ t = rest ∧ last = true) := by
  unfold validToken
  by_cases hStar : '*' ∈ t
  · by_cases hRest : '>' ∈ t
    · simp [hStar, hRest, and_assoc]
    · simp [hStar, hRest]
  · by_cases hRest : '>' ∈ t
    · simp [hStar, hRest, and_assoc]
    · simp [hStar, hRest]

theorem validTokens_iff {command : Bool} (ts : List Token) (start : Nat) :
    ((ts.zipIdx start).all fun p => validToken command (p.2 + 1 == start + ts.length) p.1) = true ↔
      ValidTokens (command = false) ts := by
  induction ts generalizing start with
  | nil => simp [ValidTokens]
  | cons t ts ih =>
    have hLast : (start + 1 == start + (t :: ts).length) = true ↔ ts = [] := by
      rw [beq_iff_eq, List.length_cons, ← List.length_eq_zero_iff]
      omega
    have hLen : start + (t :: ts).length = start + 1 + ts.length := by
      rw [List.length_cons]
      omega
    rw [List.zipIdx_cons, List.all_cons, Bool.and_eq_true, validToken_iff, hLast, hLen, ih,
      ValidTokens]
    simp only [and_assoc]

theorem validMicroservicePattern_iff (pattern : String) (command : Bool) :
    validMicroservicePattern pattern command = true ↔ ValidPattern pattern command := by
  have hTokens := @validTokens_iff command (tokens pattern) 0
  rw [Nat.zero_add] at hTokens
  unfold validMicroservicePattern ValidPattern
  rw [← hTokens]
  by_cases hEmpty : pattern = ""
  · simp [hEmpty]
  · by_cases hSpace : pattern.toList.any isWhitespace
    · have hSome : ¬ ∀ c ∈ pattern.toList, isWhitespace c = false := by
        obtain ⟨c, hc, hw⟩ := List.any_eq_true.mp hSpace
        intro hAll
        rw [hAll c hc] at hw
        cases hw
      simp only [hSpace, Bool.or_true, if_true, Bool.false_eq_true, hSome, false_and, and_false]
    · have hNone : ∀ c ∈ pattern.toList, isWhitespace c = false := by
        intro c hc
        by_contra hw
        exact hSpace (List.any_eq_true.mpr ⟨c, hc, by simpa using hw⟩)
      simp only [String.isEmpty_iff, hEmpty, hSpace, Bool.or_false, ne_eq, not_false_eq_true,
        true_and]
      rw [if_neg (by simp)]
      exact (and_iff_right hNone).symm

/-! ## The overlap check is exact -/

/-- A concrete token that the pattern token matches. -/
def instantiate (t : Token) : Token := if t = star ∨ t = rest then ['x'] else t

theorem instantiate_literal {t : Token} (hStar : t ≠ star) (hRest : t ≠ rest) :
    instantiate t = t := if_neg (not_or.mpr ⟨hStar, hRest⟩)

theorem ValidTokens.instantiate {wild : Prop} {t : Token} {ts : List Token}
    (h : ValidTokens wild (t :: ts)) (hDot : '.' ∉ t) : ConcreteToken (instantiate t) := by
  obtain ⟨hne, hStar, hRest, -⟩ := h
  unfold Caelix.instantiate
  by_cases ht : t = star ∨ t = rest
  · rw [if_pos ht]
    simp [ConcreteToken]
  · rw [if_neg ht]
    rw [not_or] at ht
    exact ⟨hne, fun hm => ht.1 (hStar hm).2, fun hm => ht.2 (hRest hm).2.1, hDot⟩

/-- A token other than a final `>` has a concrete instance. -/
theorem ValidTokens.exists_head {wild : Prop} {t : Token} {ts : List Token}
    (h : ValidTokens wild (t :: ts)) (hDot : '.' ∉ t) (ht : t ≠ rest) :
    ∃ v, ConcreteToken v ∧ (t = star ∨ v = t) := by
  refine ⟨Caelix.instantiate t, h.instantiate hDot, ?_⟩
  by_cases hStar : t = star
  · exact Or.inl hStar
  · exact Or.inr (instantiate_literal hStar ht)

/-- Every valid pattern has a concrete instance. -/
theorem ValidTokens.instances {wild : Prop} {ts : List Token} (h : ValidTokens wild ts)
    (hDot : ∀ t ∈ ts, '.' ∉ t) : (∀ t ∈ ts.map Caelix.instantiate, ConcreteToken t) ∧
      tokensMatch ts (ts.map Caelix.instantiate) = true := by
  induction ts with
  | nil => simp [tokensMatch]
  | cons t ts ih =>
    have hTail := ih h.2.2.2 fun u hu => hDot u (List.mem_cons_of_mem _ hu)
    constructor
    · intro u hu
      rcases List.mem_cons.mp hu with rfl | hu
      · exact h.instantiate (hDot t List.mem_cons_self)
      · exact hTail.1 u hu
    · by_cases hRest : t = rest
      · simp [tokensMatch, hRest]
      · rw [List.map_cons, tokensMatch, if_neg hRest, if_pos]
        · exact hTail.2
        · by_cases hStar : t = star
          · exact Or.inl hStar
          · exact Or.inr (instantiate_literal hStar hRest)

theorem tokensMatch_nil (subject : List Token) : tokensMatch [] subject = true ↔ subject = [] := by
  simp [tokensMatch]

theorem tokensMatch_empty {p : List Token} : tokensMatch p [] = true ↔ p = [] := by
  cases p with
  | nil => simp [tokensMatch]
  | cons t p =>
    by_cases ht : t = rest
    · simp [tokensMatch, ht]
    · simp [tokensMatch, ht]

theorem tokensMatch_rest {p subject : List Token} :
    tokensMatch (rest :: p) subject = true ↔ subject ≠ [] := by
  simp [tokensMatch]

theorem tokensMatch_cons {t : Token} {p subject : List Token} (ht : t ≠ rest) :
    tokensMatch (t :: p) subject = true ↔
      ∃ v s, subject = v :: s ∧ (t = star ∨ v = t) ∧ tokensMatch p s = true := by
  cases subject with
  | nil => simp [tokensMatch, ht]
  | cons v s =>
    rw [tokensMatch, if_neg ht]
    by_cases h : t = star ∨ v = t
    · simp [h]
    · simp [h]

/-- On valid token lists the overlap check finds a common concrete instance or there is none. -/
theorem tokensIntersect_iff {wild wild' : Prop} (p : List Token) :
    ∀ q, ValidTokens wild p → ValidTokens wild' q → (∀ t ∈ p, '.' ∉ t) → (∀ t ∈ q, '.' ∉ t) →
      (tokensIntersect p q = true ↔
        ∃ s, (∀ t ∈ s, ConcreteToken t) ∧ tokensMatch p s = true ∧ tokensMatch q s = true) := by
  induction p with
  | nil =>
    intro q hp hq _ _
    cases q with
    | nil =>
      simp only [tokensIntersect, true_iff]
      exact ⟨[], by simp, rfl, rfl⟩
    | cons r q =>
      simp only [tokensIntersect, Bool.false_eq_true, false_iff]
      rintro ⟨s, -, hs, hMatch⟩
      obtain rfl := (tokensMatch_nil s).mp hs
      cases tokensMatch_empty.mp hMatch
  | cons l p ih =>
    intro q hp hq hpDot hqDot
    cases q with
    | nil =>
      simp only [tokensIntersect, Bool.false_eq_true, false_iff]
      rintro ⟨s, -, hMatch, hs⟩
      obtain rfl := (tokensMatch_nil s).mp hs
      cases tokensMatch_empty.mp hMatch
    | cons r q =>
      by_cases hl : l = rest
      · -- a last `>` takes any instance of the other pattern
        rw [tokensIntersect, if_pos (Or.inl hl)]
        obtain ⟨hConcrete, hMatch⟩ := hq.instances hqDot
        exact iff_of_true rfl ⟨_, hConcrete, by rw [hl, tokensMatch_rest]; simp, hMatch⟩
      · by_cases hr : r = rest
        · rw [tokensIntersect, if_pos (Or.inr hr)]
          obtain ⟨hConcrete, hMatch⟩ := hp.instances hpDot
          exact iff_of_true rfl ⟨_, hConcrete, hMatch, by rw [hr, tokensMatch_rest]; simp⟩
        · rw [tokensIntersect, if_neg (not_or.mpr ⟨hl, hr⟩)]
          have hTail := ih q hp.2.2.2 hq.2.2.2 (fun t ht => hpDot t (List.mem_cons_of_mem _ ht))
            (fun t ht => hqDot t (List.mem_cons_of_mem _ ht))
          by_cases hMeet : l = star ∨ r = star ∨ l = r
          · rw [if_pos hMeet, hTail]
            constructor
            · rintro ⟨s, hs, hpMatch, hqMatch⟩
              -- the common token: an instance of whichever side is not `*`
              obtain ⟨v, hv, hlv, hrv⟩ : ∃ v, ConcreteToken v ∧ (l = star ∨ v = l) ∧
                  (r = star ∨ v = r) := by
                by_cases hlStar : l = star
                · obtain ⟨v, hv, hrv⟩ := hq.exists_head (hqDot r List.mem_cons_self) hr
                  exact ⟨v, hv, Or.inl hlStar, hrv⟩
                · obtain ⟨v, hv, hlv⟩ := hp.exists_head (hpDot l List.mem_cons_self) hl
                  refine ⟨v, hv, hlv, ?_⟩
                  rcases hMeet with h | h | h
                  · exact absurd h hlStar
                  · exact Or.inl h
                  · exact Or.inr ((hlv.resolve_left hlStar).trans h)
              refine ⟨v :: s, ?_, ?_, ?_⟩
              · intro t ht
                rcases List.mem_cons.mp ht with rfl | ht
                · exact hv
                · exact hs t ht
              · exact (tokensMatch_cons hl).mpr ⟨v, s, rfl, hlv, hpMatch⟩
              · exact (tokensMatch_cons hr).mpr ⟨v, s, rfl, hrv, hqMatch⟩
            · rintro ⟨s, hs, hpMatch, hqMatch⟩
              obtain ⟨v, s', rfl, -, hpMatch'⟩ := (tokensMatch_cons hl).mp hpMatch
              obtain ⟨v', s'', he, -, hqMatch'⟩ := (tokensMatch_cons hr).mp hqMatch
              cases he
              exact ⟨s', fun t ht => hs t (List.mem_cons_of_mem _ ht), hpMatch', hqMatch'⟩
          · rw [if_neg hMeet]
            simp only [Bool.false_eq_true, false_iff]
            rintro ⟨s, -, hpMatch, hqMatch⟩
            obtain ⟨v, s', rfl, hlv, -⟩ := (tokensMatch_cons hl).mp hpMatch
            obtain ⟨v', s'', he, hrv, -⟩ := (tokensMatch_cons hr).mp hqMatch
            cases he
            rw [not_or, not_or] at hMeet
            exact hMeet.2.2 ((hlv.resolve_left hMeet.1).symm.trans (hrv.resolve_left hMeet.2.1))

theorem microservicePatternsIntersect_iff {first second : String} {command command' : Bool}
    (hFirst : ValidPattern first command) (hSecond : ValidPattern second command') :
    microservicePatternsIntersect first second = true ↔ Overlap first second := by
  rw [microservicePatternsIntersect, tokensIntersect_iff _ _ hFirst.2.2 hSecond.2.2
    (dot_notMem_tokens _) (dot_notMem_tokens _)]
  constructor
  · rintro ⟨s, hs, hFirstMatch, hSecondMatch⟩
    have hne : s ≠ [] := by
      rintro rfl
      -- a pattern has at least one token, which needs one of the subject
      cases hTokens : tokens first with
      | nil => exact List.splitOn_ne_nil _ _ hTokens
      | cons t ts =>
        rw [hTokens] at hFirstMatch
        by_cases ht : t = rest
        · simp [ht, tokensMatch_rest] at hFirstMatch
        · simp [tokensMatch, ht] at hFirstMatch
    obtain ⟨subject, rfl⟩ := exists_subject hne hs
    exact ⟨subject, hs, hFirstMatch, hSecondMatch⟩
  · rintro ⟨subject, hs, hFirstMatch, hSecondMatch⟩
    exact ⟨tokens subject, hs, hFirstMatch, hSecondMatch⟩

end Caelix
