import Caelix.Lib.Fallible
import Caelix.Microservices.Subjects
import Caelix.Microservices.Envelope

/-!
# The subjects of a pattern

A pattern stands for the set of the concrete subjects that it matches. The overlap check
of preflight decides whether two of these sets meet, and the check of a JetStream stream
whether one of them contains another.

* `patternsIntersect_exact`: `microservice_patterns_intersect` finds a common subject.
* `patternCovers_exact`: `nats_pattern_covers` is the inclusion of the sets.
* `NatsRuntime.startStream_stores`: the stream of a runtime that starts stores every event.
-/

namespace Caelix

/-- The concrete subjects that a pattern matches. -/
def matching (pattern : String) : Set String :=
  {subject | ConcreteSubject subject ∧ natsPatternMatches pattern subject = true}

/-- The loop of `nats_pattern_covers`, on the tokens from one index on. -/
def tokensCover : List Token → List Token → Bool
  | [], [] => true
  | [], _ :: _ => false
  | _ :: _, [] => false
  | configured :: c, declared :: d =>
    if configured = rest then true
    else if declared = rest then false
    else if configured = star ∨ configured = declared then tokensCover c d
    else false

def natsPatternCovers (configured declared : String) : Bool :=
  tokensCover (tokens configured) (tokens declared)

/-! ## Instances of a pattern -/

/-- A pattern of a subject has a token, so no instance of it is empty. -/
theorem ne_nil_of_tokensMatch {pattern : String} {s : List Token}
    (h : tokensMatch (tokens pattern) s = true) : s ≠ [] := by
  intro hs
  rw [hs, tokensMatch_empty] at h
  exact List.splitOn_ne_nil _ _ h

/-- An instance of `t` that is not `l`, for two tokens of which `l` does not match `t`. -/
theorem ValidTokens.exists_head_ne {wild : Prop} {t l : Token} {ts : List Token}
    (h : ValidTokens wild (t :: ts)) (hDot : '.' ∉ t) (ht : t ≠ rest) (hl : l ≠ t) :
    ∃ v, ConcreteToken v ∧ (t = star ∨ v = t) ∧ v ≠ l := by
  by_cases hStar : t = star
  · by_cases hx : l = ['x']
    · exact ⟨['y'], by simp [ConcreteToken], Or.inl hStar, by simp [hx]⟩
    · exact ⟨['x'], by simp [ConcreteToken], Or.inl hStar, Ne.symm hx⟩
  · obtain ⟨v, hv, hvt⟩ := h.exists_head hDot ht
    have hEq : v = t := hvt.resolve_left hStar
    exact ⟨v, hv, hvt, by rw [hEq]; exact Ne.symm hl⟩

/-! ## Inclusion -/

/-- Every concrete token list that matches `d` matches `c`. -/
def Includes (c d : List Token) : Prop :=
  ∀ s, (∀ t ∈ s, ConcreteToken t) → tokensMatch d s = true → tokensMatch c s = true

/-- A head that takes every token of the other head leaves the inclusion of the tails. -/
theorem includes_cons {wild : Prop} {l r : Token} {c d : List Token}
    (hValid : ValidTokens wild (r :: d)) (hDot : '.' ∉ r) (hl : l ≠ rest) (hr : r ≠ rest)
    (hHead : l = star ∨ l = r) : Includes (l :: c) (r :: d) ↔ Includes c d := by
  constructor
  · intro h s hs hMatch
    obtain ⟨v, hv, hvr⟩ := hValid.exists_head hDot hr
    have hCons : ∀ t ∈ v :: s, ConcreteToken t := List.forall_mem_cons.mpr ⟨hv, hs⟩
    have hWhole := h (v :: s) hCons ((tokensMatch_cons hr).mpr ⟨v, s, rfl, hvr, hMatch⟩)
    obtain ⟨v', s', he, -, hTail⟩ := (tokensMatch_cons hl).mp hWhole
    cases he
    exact hTail
  · intro h s hs hMatch
    obtain ⟨v, s', rfl, hvr, hTail⟩ := (tokensMatch_cons hr).mp hMatch
    have hvl : l = star ∨ v = l := by
      rcases hHead with hl | rfl
      · exact Or.inl hl
      · exact hvr
    have hs' := (List.forall_mem_cons.mp hs).2
    exact (tokensMatch_cons hl).mpr ⟨v, s', rfl, hvl, h s' hs' hTail⟩

/-- A final `>` has an instance with one token and one with two, and a pattern that does
not start with `>` misses one of them. -/
theorem not_includes_rest {l : Token} {c d : List Token} (hl : l ≠ rest) :
    ¬ Includes (l :: c) (rest :: d) := by
  intro h
  have hx : ConcreteToken ['x'] := by simp [ConcreteToken]
  by_cases hc : c = []
  · have hWhole := h [['x'], ['x']] (by simp [hx]) (by simp [tokensMatch_rest])
    obtain ⟨v, s, he, -, hTail⟩ := (tokensMatch_cons hl).mp hWhole
    cases he
    rw [hc, tokensMatch_nil] at hTail
    cases hTail
  · have hWhole := h [['x']] (by simp [hx]) (by simp [tokensMatch_rest])
    obtain ⟨v, s, he, -, hTail⟩ := (tokensMatch_cons hl).mp hWhole
    cases he
    exact hc (tokensMatch_empty.mp hTail)

/-- On valid token lists the walk is the inclusion. -/
theorem tokensCover_iff {wild : Prop} (c : List Token) :
    ∀ d, ValidTokens wild d → (∀ t ∈ d, '.' ∉ t) → (tokensCover c d = true ↔ Includes c d) := by
  induction c with
  | nil =>
    intro d hd hDot
    cases d with
    | nil =>
      rw [tokensCover]
      exact iff_of_true rfl fun s _ hMatch => hMatch
    | cons r d =>
      rw [tokensCover]
      refine iff_of_false (by decide) ?_
      intro h
      obtain ⟨hConcrete, hMatch⟩ := hd.instances hDot
      have hEmpty := h _ hConcrete hMatch
      rw [tokensMatch_nil, List.map_cons] at hEmpty
      cases hEmpty
  | cons l c ih =>
    intro d hd hDot
    cases d with
    | nil =>
      rw [tokensCover]
      refine iff_of_false (by decide) ?_
      intro h
      have hEmpty := h [] (List.forall_mem_nil _) rfl
      rw [tokensMatch_empty] at hEmpty
      cases hEmpty
    | cons r d =>
      rw [tokensCover]
      have hrDot := hDot r List.mem_cons_self
      by_cases hl : l = rest
      · -- `>` takes whatever is left, and `r` leaves a token
        rw [if_pos hl, hl]
        refine iff_of_true rfl ?_
        intro s _ hMatch
        rw [tokensMatch_rest]
        intro hs
        rw [hs, tokensMatch_empty] at hMatch
        cases hMatch
      · rw [if_neg hl]
        by_cases hr : r = rest
        · rw [if_pos hr, hr]
          exact iff_of_false (by decide) (not_includes_rest hl)
        · rw [if_neg hr]
          by_cases hHead : l = star ∨ l = r
          · rw [if_pos hHead, includes_cons hd hrDot hl hr hHead]
            exact ih d hd.2.2.2 fun t ht => hDot t (List.mem_cons_of_mem _ ht)
          · rw [if_neg hHead]
            rw [not_or] at hHead
            refine iff_of_false (by decide) ?_
            intro h
            -- a subject of `r :: d` whose first token is not the literal `l`
            obtain ⟨v, hv, hvr, hne⟩ := hd.exists_head_ne hrDot hr hHead.2
            obtain ⟨hTail, hTailMatch⟩ :=
              hd.2.2.2.instances fun t ht => hDot t (List.mem_cons_of_mem _ ht)
            have hWhole := h _ (List.forall_mem_cons.mpr ⟨hv, hTail⟩)
              ((tokensMatch_cons hr).mpr ⟨v, _, rfl, hvr, hTailMatch⟩)
            obtain ⟨v', s', he, hvl, -⟩ := (tokensMatch_cons hl).mp hWhole
            cases he
            exact hne (hvl.resolve_left hHead.1)

theorem matching_subset_iff {configured declared : String} :
    matching declared ⊆ matching configured ↔ Includes (tokens configured) (tokens declared) := by
  constructor
  · intro h s hs hMatch
    obtain ⟨subject, rfl⟩ := exists_subject (ne_nil_of_tokensMatch hMatch) hs
    exact (h ⟨hs, hMatch⟩).2
  · intro h subject hSubject
    exact ⟨hSubject.1, h _ hSubject.1 hSubject.2⟩

theorem natsPatternCovers_iff {configured declared : String} {command : Bool}
    (hDeclared : ValidPattern declared command) :
    natsPatternCovers configured declared = true ↔ matching declared ⊆ matching configured := by
  rw [natsPatternCovers, matching_subset_iff]
  exact tokensCover_iff _ _ hDeclared.2.2 (dot_notMem_tokens _)

/-- The overlap check of two valid patterns finds a common subject or there is none. -/
theorem patternsIntersect_exact (p q : String) (command command' : Bool)
    (hp : validMicroservicePattern p command = true)
    (hq : validMicroservicePattern q command' = true) :
    microservicePatternsIntersect p q = true ↔ (matching p ∩ matching q).Nonempty := by
  rw [validMicroservicePattern_iff] at hp hq
  rw [microservicePatternsIntersect_iff hp hq]
  constructor
  · rintro ⟨subject, hs, hpMatch, hqMatch⟩
    exact ⟨subject, ⟨hs, hpMatch⟩, ⟨hs, hqMatch⟩⟩
  · rintro ⟨subject, ⟨hs, hpMatch⟩, ⟨-, hqMatch⟩⟩
    exact ⟨subject, hs, hpMatch, hqMatch⟩

theorem patternsIntersect_exact_orders :
    (matching "orders.*.created" ∩ matching "orders.>").Nonempty ∧
      ¬ (matching "orders" ∩ matching "orders.>").Nonempty := by
  constructor
  · apply (patternsIntersect_exact "orders.*.created" "orders.>" false false (by decide +kernel)
      (by decide +kernel)).mp
    decide +kernel
  · rw [← patternsIntersect_exact "orders" "orders.>" true false (by decide +kernel)
      (by decide +kernel)]
    decide +kernel

/-- The coverage check is the inclusion of the subjects; `configured` may be any string. -/
theorem patternCovers_exact (configured declared : String) (command : Bool)
    (hDeclared : validMicroservicePattern declared command = true) :
    natsPatternCovers configured declared = true ↔ ∀ subject, ConcreteSubject subject →
      natsPatternMatches declared subject = true → natsPatternMatches configured subject = true := by
  rw [natsPatternCovers_iff ((validMicroservicePattern_iff declared command).mp hDeclared)]
  constructor
  · intro h subject hs hMatch
    exact (h ⟨hs, hMatch⟩).2
  · intro h subject hSubject
    exact ⟨hSubject.1, h subject hSubject.1 hSubject.2⟩

theorem patternCovers_exact_orders :
    (∀ subject, ConcreteSubject subject → natsPatternMatches "orders.*.>" subject = true →
      natsPatternMatches "orders.>" subject = true) ∧
      ¬ ∀ subject, ConcreteSubject subject → natsPatternMatches "orders.>" subject = true →
        natsPatternMatches "orders.*.>" subject = true := by
  constructor
  · apply (patternCovers_exact "orders.>" "orders.*.>" false (by decide +kernel)).mp
    decide +kernel
  · rw [← patternCovers_exact "orders.*.>" "orders.>" false (by decide +kernel)]
    decide +kernel

/-! ## The stream of a NATS runtime -/

def validNatsSubject (subject : String) : Bool :=
  !subject.isEmpty && !subject.toList.any isWhitespace &&
    (tokens subject).all fun token => !token.isEmpty && token != star && token != rest

namespace NatsRuntime

/-- The `event_subjects` of `start`. -/
def eventSubjects (handlers : List MessageHandlerDef) (deadLetterSubject : Option String) :
    List String :=
  ((handlers.filter fun handler => handler.kind == .event).map MessageHandlerDef.pattern) ++
    deadLetterSubject.toList

/-- The check of the dead-letter subject before the stream is created. -/
def checkDeadLetterSubject (handlers : List MessageHandlerDef) (subject : String) :
    Except MicroserviceError Unit :=
  if !validNatsSubject subject ||
      handlers.any fun handler => natsPatternMatches handler.pattern subject then
    .error (.configuration s!"dead-letter subject `{subject}` must be valid and disjoint from all command and event handlers")
  else .ok ()

/-- The check of the subjects of the stream, `subjects` in its configuration. -/
def checkStream (streamName : String) (subjects eventSubjects : List String) :
    Except MicroserviceError Unit :=
  if eventSubjects.any fun subject => !subjects.any fun configured => natsPatternCovers configured subject then
    .error (.configuration s!"JetStream stream {streamName} does not cover every declared event or dead-letter subject")
  else .ok ()

theorem covered_of_checkStream {streamName : String} {subjects eventSubjects : List String}
    (h : checkStream streamName subjects eventSubjects = .ok ()) :
    ∀ subject ∈ eventSubjects, ∃ configured ∈ subjects, natsPatternCovers configured subject = true := by
  unfold checkStream at h
  intro subject hSubject
  by_contra hNone
  have hAny : (subjects.any fun configured => natsPatternCovers configured subject) = false := by
    rw [List.any_eq_false]
    intro configured hConfigured hCovers
    exact hNone ⟨configured, hConfigured, hCovers⟩
  rw [if_pos (List.any_eq_true.mpr ⟨subject, hSubject, by simp [hAny]⟩)] at h
  cases h

variable (handlers : List MessageHandlerDef) (deadLetterSubject jetstreamStream : Option String)
  (getOrCreateStream : String → List String → Except String (List String))

/-- The part of `start` that creates the stream of the events. `getOrCreateStream` replies
with the subjects of the stream that the server has. -/
def startStream : Except MicroserviceError Unit :=
  let subjects := eventSubjects handlers deadLetterSubject
  if subjects.isEmpty then .ok ()
  else do
    deadLetterSubject.toList.forM (checkDeadLetterSubject handlers)
    match jetstreamStream with
    | none =>
      .error (.configuration "jetstream_stream is required when registering event handlers")
    | some streamName => do
      let stored ← orTransport (getOrCreateStream streamName subjects)
      checkStream streamName stored subjects

variable {handlers deadLetterSubject jetstreamStream getOrCreateStream}

/-- A runtime that starts has a stream that stores every concrete subject of its event
handlers. -/
theorem startStream_stores
    (h : startStream handlers deadLetterSubject jetstreamStream getOrCreateStream = .ok ())
    {handler : MessageHandlerDef} (hMem : handler ∈ handlers) (hEvent : handler.kind = .event)
    (hValid : validMicroservicePattern handler.pattern false = true) :
    ∃ streamName subjects, jetstreamStream = some streamName ∧
      getOrCreateStream streamName (eventSubjects handlers deadLetterSubject) = .ok subjects ∧
      ∃ configured ∈ subjects, matching handler.pattern ⊆ matching configured := by
  have hPattern : handler.pattern ∈ eventSubjects handlers deadLetterSubject := by
    apply List.mem_append_left
    apply List.mem_map_of_mem
    exact List.mem_filter.mpr ⟨hMem, by rw [hEvent]; rfl⟩
  have hSome : ¬ (eventSubjects handlers deadLetterSubject).isEmpty := by
    rw [List.isEmpty_iff]
    exact List.ne_nil_of_mem hPattern
  unfold startStream at h
  rw [if_neg hSome] at h
  obtain ⟨-, -, h⟩ := Fallible.bind_ok_iff.mp h
  cases hName : jetstreamStream with
  | none =>
    rw [hName] at h
    cases h
  | some streamName =>
    rw [hName] at h
    obtain ⟨subjects, hCreate, hCheck⟩ := Fallible.bind_ok_iff.mp h
    refine ⟨streamName, subjects, rfl, ?_, ?_⟩
    · cases hReply : getOrCreateStream streamName (eventSubjects handlers deadLetterSubject) with
      | error message =>
        rw [hReply] at hCreate
        cases hCreate
      | ok stored =>
        rw [hReply] at hCreate
        cases hCreate
        rfl
    · obtain ⟨configured, hConfigured, hCovers⟩ := covered_of_checkStream hCheck _ hPattern
      rw [natsPatternCovers_iff ((validMicroservicePattern_iff _ _).mp hValid)] at hCovers
      exact ⟨configured, hConfigured, hCovers⟩

end NatsRuntime

end Caelix
