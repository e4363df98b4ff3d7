import Caelix.Microservices.SubjectSets

/-!
# Three validators of subjects

A client checks the subject of a request, the module graph the patterns of its handlers,
and the macro the literal of a handler when it is compiled. Each is the conjunction of
`PlainSubject` with a condition on the tokens, and only the macro looks for the NUL
character.

* `validators_agree_iff`: the strings about which the three agree.
-/

namespace Caelix

/-- The character `\0`. -/
def nul : Char := Char.ofNat 0

/-- The check of one token of `validate_subject`. -/
def invalidToken (command last : Bool) (token : Token) : Bool :=
  (token.contains '*' && (command || token != star)) ||
    (token.contains '>' && (command || token != rest || !last))

/-- `validate_subject` of the macro, with the text of the compile error. -/
def validateSubject (subject : String) (command : Bool) : Except String Unit :=
  let value := subject.toList
  let tokens := tokens subject
  if value.isEmpty || value.head? == some '.' || value.getLast? == some '.' ||
      tokens.any List.isEmpty then
    .error "microservice subjects must contain non-empty dot-separated tokens"
  else if value.any isWhitespace || value.any (fun character => character == nul) then
    .error "microservice subjects cannot contain whitespace or control characters"
  else if tokens.zipIdx.any fun p => invalidToken command (p.2 + 1 == tokens.length) p.1 then
    .error "invalid microservice wildcard pattern; `*` matches one token and terminal `>` matches one or more tokens"
  else .ok ()

/-! ## What each validator accepts -/

/-- What all validators ask of a string. -/
def PlainSubject (subject : String) : Prop :=
  (∀ t ∈ tokens subject, t ≠ []) ∧ ∀ c ∈ subject.toList, isWhitespace c = false

theorem ValidTokens.ne_nil {wild : Prop} {ts : List Token} (h : ValidTokens wild ts) :
    ∀ t ∈ ts, t ≠ [] := by
  induction ts with
  | nil => exact List.forall_mem_nil _
  | cons t ts ih => exact List.forall_mem_cons.mpr ⟨h.1, ih h.2.2.2⟩

/-- Without wildcards the tokens of a pattern are checked one by one. -/
theorem validTokens_false_iff {ts : List Token} :
    ValidTokens False ts ↔ ∀ t ∈ ts, t ≠ [] ∧ '*' ∉ t ∧ '>' ∉ t := by
  induction ts with
  | nil => simp [ValidTokens]
  | cons t ts ih =>
    rw [ValidTokens, ih, List.forall_mem_cons]
    simp only [false_and, imp_false, and_assoc]

theorem ValidTokens.mono {wild wild' : Prop} (hWild : wild → wild') {ts : List Token}
    (h : ValidTokens wild ts) : ValidTokens wild' ts := by
  induction ts with
  | nil => trivial
  | cons t ts ih =>
    obtain ⟨hne, hStar, hRest, hTail⟩ := h
    exact ⟨hne, fun hm => ⟨hWild (hStar hm).1, (hStar hm).2⟩,
      fun hm => ⟨hWild (hRest hm).1, (hRest hm).2⟩, ih hTail⟩

theorem tokens_ne_nil_of_plain {subject : String} (h : PlainSubject subject) : subject ≠ "" := by
  rintro rfl
  exact h.1 [] (by decide) rfl

theorem validPattern_iff_plain {subject : String} {command : Bool} :
    ValidPattern subject command ↔
      PlainSubject subject ∧ ValidTokens (command = false) (tokens subject) := by
  constructor
  · rintro ⟨-, hSpace, hTokens⟩
    exact ⟨⟨hTokens.ne_nil, hSpace⟩, hTokens⟩
  · rintro ⟨hPlain, hTokens⟩
    exact ⟨tokens_ne_nil_of_plain hPlain, hPlain.2, hTokens⟩

theorem validNatsSubject_iff {subject : String} :
    validNatsSubject subject = true ↔
      PlainSubject subject ∧ ∀ t ∈ tokens subject, t ≠ star ∧ t ≠ rest := by
  have hTokens : ((tokens subject).all fun token => !token.isEmpty && token != star && token != rest) = true ↔
      (∀ t ∈ tokens subject, t ≠ []) ∧ ∀ t ∈ tokens subject, t ≠ star ∧ t ≠ rest := by
    rw [List.all_eq_true, ← forall₂_and]
    simp [and_assoc]
  have hSpace : (!subject.toList.any isWhitespace) = true ↔
      ∀ c ∈ subject.toList, isWhitespace c = false := by simp
  unfold validNatsSubject
  rw [Bool.and_eq_true, Bool.and_eq_true, hTokens, hSpace]
  constructor
  · rintro ⟨⟨-, hs⟩, hne, hWild⟩
    exact ⟨⟨hne, hs⟩, hWild⟩
  · rintro ⟨hPlain, hWild⟩
    have hne := tokens_ne_nil_of_plain hPlain
    exact ⟨⟨by simpa using hne, hPlain.2⟩, hPlain.1, hWild⟩

/-- A dot at either end of a string leaves an empty token. -/
theorem nil_mem_tokens {subject : String}
    (h : subject.toList.head? = some '.' ∨ subject.toList.getLast? = some '.') :
    [] ∈ tokens subject := by
  unfold tokens
  rcases h with h | h
  · obtain ⟨l, hl⟩ := List.head?_eq_some_iff.mp h
    have hSplit := List.splitOn_append_cons_self [] l (a := '.')
    rw [hl, ← List.nil_append ('.' :: l), hSplit]
    simp
  · obtain ⟨l, hl⟩ := List.getLast?_eq_some_iff.mp h
    have hSplit := List.splitOn_append_cons_self l [] (a := '.')
    rw [hl, hSplit]
    simp

theorem invalidToken_eq {command last : Bool} {t : Token} (h : t ≠ []) :
    invalidToken command last t = !validToken command last t := by
  have hEmpty : t.isEmpty = false := by simpa using h
  unfold invalidToken validToken
  rw [hEmpty]
  cases command with
  | true => simp
  | false =>
    cases last with
    | true => simp [bne]
    | false => simp [bne]

/-- On non-empty tokens the macro finds no invalid token in a valid pattern. -/
theorem invalidTokens_iff {command : Bool} {ts : List Token} (h : ∀ t ∈ ts, t ≠ []) :
    (ts.zipIdx.any fun p => invalidToken command (p.2 + 1 == ts.length) p.1) = false ↔
      ValidTokens (command = false) ts := by
  have hTokens := @validTokens_iff command ts 0
  rw [Nat.zero_add] at hTokens
  rw [← hTokens, List.any_eq_false, List.all_eq_true]
  refine forall₂_congr ?_
  intro p hp
  rw [invalidToken_eq (h p.1 (List.fst_mem_of_mem_zipIdx hp))]
  simp

theorem validateSubject_ok_iff {subject : String} {command : Bool} :
    validateSubject subject command = .ok () ↔
      ValidPattern subject command ∧ nul ∉ subject.toList := by
  rw [validPattern_iff_plain]
  unfold validateSubject
  dsimp only
  by_cases hEmpty : [] ∈ tokens subject
  · have hAny : (tokens subject).any List.isEmpty = true :=
      List.any_eq_true.mpr ⟨[], hEmpty, rfl⟩
    rw [if_pos (by simp [hAny])]
    refine iff_of_false (fun h => by cases h) ?_
    rintro ⟨⟨hPlain, -⟩, -⟩
    exact hPlain.1 [] hEmpty rfl
  · have hne : ∀ t ∈ tokens subject, t ≠ [] := fun t ht h => hEmpty (h ▸ ht)
    have hEnds := mt nil_mem_tokens hEmpty
    rw [not_or] at hEnds
    have hValue : subject.toList ≠ [] := by
      intro h
      refine hne [] ?_ rfl
      rw [tokens, h]
      exact List.mem_singleton.mpr rfl
    have hAny : (tokens subject).any List.isEmpty = false := by
      rw [List.any_eq_false]
      intro t ht
      simpa using hne t ht
    rw [if_neg (by simp [hAny, hEnds, hValue])]
    by_cases hChars : (subject.toList.any isWhitespace || subject.toList.any fun character => character == nul) = true
    · rw [if_pos hChars]
      refine iff_of_false (fun h => by cases h) ?_
      rintro ⟨⟨hPlain, -⟩, hNul⟩
      rcases Bool.or_eq_true_iff.mp hChars with h | h
      · obtain ⟨c, hc, hSpace⟩ := List.any_eq_true.mp h
        rw [hPlain.2 c hc] at hSpace
        cases hSpace
      · obtain ⟨c, hc, hEq⟩ := List.any_eq_true.mp h
        rw [beq_iff_eq] at hEq
        exact hNul (hEq ▸ hc)
    · rw [if_neg hChars]
      rw [Bool.or_eq_true, not_or, Bool.not_eq_true, Bool.not_eq_true, List.any_eq_false,
        List.any_eq_false] at hChars
      have hPlain : PlainSubject subject := ⟨hne, fun c hc => by simpa using hChars.1 c hc⟩
      have hNul : nul ∉ subject.toList := fun h => hChars.2 nul h (beq_self_eq_true nul)
      rw [← invalidTokens_iff hne]
      by_cases hTokens : ((tokens subject).zipIdx.any fun p =>
          invalidToken command (p.2 + 1 == (tokens subject).length) p.1) = true
      · rw [if_pos hTokens, hTokens]
        exact iff_of_false (fun h => by cases h) fun h => by cases h.1.2
      · rw [if_neg hTokens]
        exact iff_of_true rfl ⟨⟨hPlain, by simpa using hTokens⟩, hNul⟩

/-! ## Agreement -/

/-- A subject that a command handler can declare: neither the macro nor the module graph
refuses it. -/
def DeclarableCommand (subject : String) : Prop :=
  validateSubject subject true = .ok () ∧ validMicroservicePattern subject true = true

/-- The validators agree about a string. -/
structure ValidatorsAgree (subject : String) : Prop where
  client : validNatsSubject subject = true ↔ validMicroservicePattern subject true = true
  command : validateSubject subject true = .ok () ↔ validMicroservicePattern subject true = true
  event : validateSubject subject false = .ok () ↔ validMicroservicePattern subject false = true
  declarable : validNatsSubject subject = true → DeclarableCommand subject

/-- A plain string has no wildcard character in a token unless some token is a wildcard, and
no `\0` if it is an event pattern. -/
def Unambiguous (subject : String) : Prop :=
  PlainSubject subject →
    ((∀ t ∈ tokens subject, '*' ∉ t ∧ '>' ∉ t) ∨ ∃ t ∈ tokens subject, t = star ∨ t = rest) ∧
      (ValidTokens True (tokens subject) → nul ∉ subject.toList)

theorem validMicroservicePattern_iff_plain {subject : String} {command : Bool} :
    validMicroservicePattern subject command = true ↔
      PlainSubject subject ∧ ValidTokens (command = false) (tokens subject) := by
  rw [validMicroservicePattern_iff, validPattern_iff_plain]

theorem validateSubject_ok_iff_plain {subject : String} {command : Bool} :
    validateSubject subject command = .ok () ↔
      (PlainSubject subject ∧ ValidTokens (command = false) (tokens subject)) ∧
        nul ∉ subject.toList := by
  rw [validateSubject_ok_iff, validPattern_iff_plain]

theorem validTokens_true_iff {ts : List Token} :
    ValidTokens (true = false) ts ↔ ∀ t ∈ ts, t ≠ [] ∧ '*' ∉ t ∧ '>' ∉ t := by
  rw [eq_false (by decide : ¬ true = false), validTokens_false_iff]

/-- A token without wildcard characters is not a wildcard. -/
theorem not_wildcard {t : Token} (hStar : '*' ∉ t) (hRest : '>' ∉ t) : t ≠ star ∧ t ≠ rest := by
  constructor
  · rintro rfl
    exact hStar (by decide)
  · rintro rfl
    exact hRest (by decide)

/-- The validators agree about exactly the unambiguous strings. -/
theorem validators_agree_iff (subject : String) :
    ValidatorsAgree subject ↔ Unambiguous subject := by
  constructor
  · intro h hPlain
    constructor
    · by_cases hWild : ∃ t ∈ tokens subject, t = star ∨ t = rest
      · exact Or.inr hWild
      · -- the client accepts, so the module graph does
        have hNone : ∀ t ∈ tokens subject, t ≠ star ∧ t ≠ rest := by
          intro t ht
          rw [← not_or]
          exact fun he => hWild ⟨t, ht, he⟩
        have hValid := h.client.mp (validNatsSubject_iff.mpr ⟨hPlain, hNone⟩)
        have hTokens := validTokens_true_iff.mp (validMicroservicePattern_iff_plain.mp hValid).2
        exact Or.inl fun t ht => (hTokens t ht).2
    · intro hTokens
      have hValid : validMicroservicePattern subject false = true :=
        validMicroservicePattern_iff_plain.mpr ⟨hPlain, hTokens.mono fun _ => rfl⟩
      exact (validateSubject_ok_iff_plain.mp (h.event.mpr hValid)).2
  · intro h
    have hMacro : ∀ command, validateSubject subject command = .ok () ↔
        validMicroservicePattern subject command = true := by
      intro command
      rw [validateSubject_ok_iff_plain, validMicroservicePattern_iff_plain]
      refine and_iff_left_of_imp ?_
      rintro ⟨hPlain, hTokens⟩
      exact (h hPlain).2 (hTokens.mono fun _ => trivial)
    have hClient : validNatsSubject subject = true ↔
        validMicroservicePattern subject true = true := by
      rw [validNatsSubject_iff, validMicroservicePattern_iff_plain, validTokens_true_iff]
      refine and_congr_right ?_
      intro hPlain
      constructor
      · intro hNone t ht
        rcases (h hPlain).1 with hChars | ⟨u, hu, hWild⟩
        · exact ⟨hPlain.1 t ht, hChars t ht⟩
        · exact absurd hWild (not_or.mpr (hNone u hu))
      · intro hTokens t ht
        exact not_wildcard (hTokens t ht).2.1 (hTokens t ht).2.2
    refine ⟨hClient, hMacro true, hMacro false, ?_⟩
    intro hAccepted
    have hValid := hClient.mp hAccepted
    exact ⟨(hMacro true).mpr hValid, hValid⟩

/-- A client may send to `orders*`, which no command handler can declare. -/
theorem validators_disagree : ¬ ∀ subject, ValidatorsAgree subject := by
  intro h
  have hDeclarable := (h "orders*").declarable (by decide +kernel)
  exact absurd hDeclarable.2 (by decide +kernel)

end Caelix
