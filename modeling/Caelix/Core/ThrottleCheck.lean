import Mathlib
import Caelix.Core.Response
import Caelix.Core.Throttle

/-!
# The throttle service

`Throttle::check` of `throttle.rs` on a store given by its `increment`. The clock is read
by `validate_policy` and again by the store.

* `check_answers_iff`: which records a check answers without an overflow.
* `throttleKey_injective`: the length-prefixed key determines client, method and route.
-/

namespace Caelix

structure ThrottlePolicy where
  limit : Nat
  window : Duration
  limit_le : limit ≤ u64Max

/-- `ThrottleOptions`, without the store. -/
structure ThrottleOptions (Ctx : Type) where
  policy : ThrottlePolicy
  retryAfterHeader : Bool
  tracker : Ctx → Except HttpException String

def validatePolicy (clock : Clock) (now : Instant) (policy : ThrottlePolicy) :
    Except HttpException Unit :=
  if policy.limit = 0 ∨ policy.window = 0 then
    .error (startupError "throttle limit and window must be greater than zero")
  else
    match clock.checkedAdd now policy.window with
    | none => .error (startupError "throttle window exceeds the clock range")
    | some _ => .ok ()

/-- A string after its length in bytes. -/
def lengthPrefixed (s : String) : String := toString s.utf8ByteSize ++ ":" ++ s

def throttleKey (client method route : String) : String :=
  lengthPrefixed client ++ lengthPrefixed method ++ lengthPrefixed route

/-- The seconds of a `Retry-After` header, `none` when the addition overflows. -/
def retryAfterSeconds (retryAfter : Duration) : Option Nat :=
  let seconds := retryAfter.asSecs + if 0 < retryAfter.subsecNanos then 1 else 0
  if seconds ≤ u64Max then some (max seconds 1) else none

/-- The response to a check whose count is over the limit. -/
def rejection (retryAfterHeader : Bool) (seconds : Nat) : HttpResponse :=
  let response := (HttpException.new 429 "Too Many Requests" "Rate limit exceeded").intoResponse
  if retryAfterHeader then response.insertHeader "Retry-After" (toString seconds) else response

/-- The end of `check`, on the record of the store. -/
def answerCheck (retryAfterHeader : Bool) (policy : ThrottlePolicy) (record : ThrottleStoreRecord) :
    Except Fault (Option HttpResponse) :=
  if record.count ≤ policy.limit then .ok none
  else if retryAfterHeader then
    match retryAfterSeconds record.retryAfter with
    | none => .error (.panic "attempt to add with overflow")
    | some seconds => .ok (some (rejection true seconds))
  else .ok (some (rejection false 0))

/-- `Throttle::check`; `increment` is the store's. -/
def Throttle.check {Ctx σ : Type} (options : ThrottleOptions Ctx)
    (increment : String → Duration → σ → Except Fault ThrottleStoreRecord × σ) (clock : Clock)
    (validatedAt : Instant) (context : Ctx) (method route : String) (policy : ThrottlePolicy)
    (store : σ) : Except Fault (Option HttpResponse) × σ :=
  match validatePolicy clock validatedAt policy with
  | .error e => (.error (.exception e), store)
  | .ok () =>
    match options.tracker context with
    | .error e => (.error (.exception e), store)
    | .ok client =>
      let x := increment (throttleKey client method route) policy.window store
      match x.1 with
      | .error e => (.error e, x.2)
      | .ok record => (answerCheck options.retryAfterHeader policy record, x.2)

theorem validatePolicy_ok_iff {clock : Clock} {now : Instant} {policy : ThrottlePolicy} :
    validatePolicy clock now policy = .ok () ↔
      0 < policy.limit ∧ 0 < policy.window ∧ now + policy.window ≤ clock.latest := by
  unfold validatePolicy Clock.checkedAdd
  by_cases hZero : policy.limit = 0 ∨ policy.window = 0
  · rw [if_pos hZero]
    refine ⟨nofun, fun h => ?_⟩
    rcases hZero with hZero | hZero
    · exact absurd hZero (Nat.pos_iff_ne_zero.mp h.1)
    · exact absurd hZero (Nat.pos_iff_ne_zero.mp h.2.1)
  · rw [if_neg hZero]
    rw [not_or, ← ne_eq, ← ne_eq, ← Nat.pos_iff_ne_zero, ← Nat.pos_iff_ne_zero] at hZero
    by_cases hRange : now + policy.window ≤ clock.latest
    · rw [if_pos hRange]
      exact ⟨fun _ => ⟨hZero.1, hZero.2, hRange⟩, fun _ => rfl⟩
    · rw [if_neg hRange]
      exact ⟨nofun, fun h => absurd h.2.2 hRange⟩

/-! ## The header of a rejection -/

/-- The remaining window in whole seconds, rounded up and at least one. -/
def secondsUp (remaining : Duration) : Nat := max ((remaining + nanosPerSec - 1) / nanosPerSec) 1

theorem roundUp_eq (n : Nat) : (n + nanosPerSec - 1) / nanosPerSec =
    n / nanosPerSec + if 0 < n % nanosPerSec then 1 else 0 := by
  unfold nanosPerSec
  split <;> omega

theorem isLeast_roundUp (n : Nat) :
    IsLeast {seconds | n ≤ seconds * nanosPerSec} ((n + nanosPerSec - 1) / nanosPerSec) := by
  unfold nanosPerSec
  constructor
  · change n ≤ _
    omega
  · intro seconds hSeconds
    change n ≤ _ at hSeconds
    omega

theorem retryAfterSeconds_eq (remaining : Duration) : retryAfterSeconds remaining =
    if remaining ≤ u64Max * nanosPerSec then some (secondsUp remaining) else none := by
  have hFits : ∀ n : Nat, n / nanosPerSec + (if 0 < n % nanosPerSec then 1 else 0) ≤ u64Max ↔
      n ≤ u64Max * nanosPerSec := by
    intro n
    unfold nanosPerSec u64Max
    split <;> omega
  unfold retryAfterSeconds secondsUp Duration.asSecs Duration.subsecNanos
  dsimp only
  rw [roundUp_eq]
  exact if_congr (hFits remaining) rfl rfl

/-- What a check makes of the record that its store returned. -/
structure AnswersRecord (retryAfterHeader : Bool) (policy : ThrottlePolicy)
    (record : ThrottleStoreRecord) (answer : Except Fault (Option HttpResponse)) : Prop where
  total : ∀ message, answer ≠ .error (.panic message)
  rejects_iff : (∃ response, answer = .ok (some response)) ↔ policy.limit < record.count
  retryAfter : ∀ response, answer = .ok (some response) → retryAfterHeader = true →
    ∃ seconds, IsLeast {n | record.retryAfter ≤ n * nanosPerSec} seconds ∧
      response.headers = [("Retry-After", toString (max 1 seconds))]

theorem answerCheck_answers_iff (retryAfterHeader : Bool) (policy : ThrottlePolicy)
    (record : ThrottleStoreRecord) :
    AnswersRecord retryAfterHeader policy record (answerCheck retryAfterHeader policy record) ↔
      (policy.limit < record.count → retryAfterHeader = true →
        record.retryAfter ≤ u64Max * nanosPerSec) := by
  unfold answerCheck
  by_cases hCount : record.count ≤ policy.limit
  · rw [if_pos hCount]
    refine iff_of_true ⟨nofun, ?_, nofun⟩ fun hOver => absurd hCount (Nat.not_le_of_lt hOver)
    exact iff_of_false (by rintro ⟨response, h⟩; cases h) (Nat.not_lt_of_le hCount)
  have hOver : policy.limit < record.count := Nat.lt_of_not_le hCount
  rw [if_neg hCount]
  cases retryAfterHeader with
  | false =>
    rw [if_neg Bool.false_ne_true]
    exact iff_of_true ⟨nofun, iff_of_true ⟨_, rfl⟩ hOver, nofun⟩ nofun
  | true =>
    rw [if_pos rfl, retryAfterSeconds_eq]
    by_cases hFits : record.retryAfter ≤ u64Max * nanosPerSec
    · rw [if_pos hFits]
      refine iff_of_true ⟨nofun, iff_of_true ⟨_, rfl⟩ hOver, ?_⟩ fun _ _ => hFits
      intro response h _
      cases h
      refine ⟨_, isLeast_roundUp record.retryAfter, ?_⟩
      rw [max_comm]
      rfl
    · rw [if_neg hFits]
      refine iff_of_false ?_ fun h => hFits (h hOver rfl)
      intro h
      exact h.total _ rfl

/-- A check under a valid policy answers what its store returned exactly when the seconds of
the header fit into a word, if it has to write them. -/
theorem check_answers_iff {Ctx σ : Type} (options : ThrottleOptions Ctx)
    (increment : String → Duration → σ → Except Fault ThrottleStoreRecord × σ) (clock : Clock)
    (validatedAt : Instant) (context : Ctx) (method route : String) (policy : ThrottlePolicy)
    (store stored : σ) (client : String) (record : ThrottleStoreRecord)
    (hPolicy : validatePolicy clock validatedAt policy = .ok ())
    (hClient : options.tracker context = .ok client)
    (hRecord : increment (throttleKey client method route) policy.window store =
      (.ok record, stored)) :
    AnswersRecord options.retryAfterHeader policy record
        (Throttle.check options increment clock validatedAt context method route policy store).1 ↔
      (policy.limit < record.count → options.retryAfterHeader = true →
        record.retryAfter ≤ u64Max * nanosPerSec) := by
  have hAnswer : (Throttle.check options increment clock validatedAt context method route policy
      store).1 = answerCheck options.retryAfterHeader policy record := by
    simp only [Throttle.check, hPolicy, hClient, hRecord]
  rw [hAnswer]
  exact answerCheck_answers_iff options.retryAfterHeader policy record

theorem one_le_u64Max : 1 ≤ u64Max := by decide

/-- One request a second, for clients that the context names. -/
def namedOptions : ThrottleOptions String where
  policy := ⟨1, Duration.fromSecs 1, one_le_u64Max⟩
  retryAfterHeader := true
  tracker := .ok

/-- A store whose every record is the same. -/
def constantStore (record : ThrottleStoreRecord) :
    String → Duration → Unit → Except Fault ThrottleStoreRecord × Unit :=
  fun _ _ store => (.ok record, store)

/-- Half a second more than the second request has to wait. -/
theorem check_answers_half :
    AnswersRecord true namedOptions.policy ⟨2, 1500000000⟩
      (Throttle.check namedOptions (constantStore ⟨2, 1500000000⟩) Clock.full 0 "ada" "GET" "/"
        namedOptions.policy ()).1 :=
  (check_answers_iff namedOptions (constantStore ⟨2, 1500000000⟩) Clock.full 0 "ada" "GET" "/"
    namedOptions.policy () () "ada" ⟨2, 1500000000⟩ (validatePolicy_ok_iff.mpr (by decide)) rfl
    rfl).mpr (by decide)

/-- A store may return `Duration::MAX`. -/
theorem check_overflows :
    ¬ ∀ (record : ThrottleStoreRecord), record.count ≤ u64Max → record.retryAfter ≤ Duration.max →
      AnswersRecord true namedOptions.policy record
        (Throttle.check namedOptions (constantStore record) Clock.full 0 "ada" "GET" "/"
          namedOptions.policy ()).1 := by
  intro h
  have hAnswers := h ⟨2, Duration.max⟩ (by decide) le_rfl
  exact hAnswers.total "attempt to add with overflow" (by decide)

/-! ## The key -/

theorem utf8ByteSize_eq_sum (s : String) : s.utf8ByteSize = (s.toList.map Char.utf8Size).sum := by
  obtain ⟨l, rfl⟩ : ∃ l, s = String.ofList l := ⟨s.toList, by simp⟩
  induction l with
  | nil => rfl
  | cons c l ih =>
    have hCons : String.ofList (c :: l) = String.singleton c ++ String.ofList l := by
      apply String.toList_inj.mp
      simp
    rw [hCons, String.utf8ByteSize_append, ih]
    simp

/-- The same number of bytes at the start of one text is the same string. -/
theorem append_inj_of_utf8Size {a b r t : List Char} (h : a ++ r = b ++ t)
    (hSize : (a.map Char.utf8Size).sum = (b.map Char.utf8Size).sum) : a = b ∧ r = t := by
  have hNil : ∀ l : List Char, (l.map Char.utf8Size).sum = 0 → l = [] := by
    intro l hl
    cases l with
    | nil => rfl
    | cons c l =>
      rw [List.map_cons, List.sum_cons] at hl
      have := c.utf8Size_pos
      omega
  rcases List.append_eq_append_iff.mp h with ⟨l, hb, hr⟩ | ⟨l, ha, ht⟩
  · have hl : l = [] := hNil l (by rw [hb, List.map_append, List.sum_append] at hSize; omega)
    subst hl
    exact ⟨by rw [hb, List.append_nil], hr⟩
  · have hl : l = [] := hNil l (by rw [ha, List.map_append, List.sum_append] at hSize; omega)
    subst hl
    exact ⟨by rw [ha, List.append_nil], ht.symm⟩

/-- A number in front of a colon is read back from the text. -/
theorem repr_colon_inj {m n : Nat} {r t : List Char}
    (h : (Nat.repr m).toList ++ ':' :: r = (Nat.repr n).toList ++ ':' :: t) : m = n ∧ r = t := by
  have hDigits : ∀ n : Nat, ∀ c ∈ (Nat.repr n).toList, (c != ':') = true := by
    intro n c hc
    rw [Nat.toList_repr] at hc
    have hDigit := Nat.isDigit_of_mem_toDigits (by decide) (by decide) hc
    rw [bne_iff_ne]
    rintro rfl
    revert hDigit
    decide
  have hTake : ∀ (n : Nat) (l : List Char),
      ((Nat.repr n).toList ++ ':' :: l).takeWhile (· != ':') = (Nat.repr n).toList := by
    intro n l
    rw [List.takeWhile_append_of_pos (hDigits n)]
    simp
  have hRepr := congrArg (List.takeWhile (· != ':')) h
  rw [hTake, hTake] at hRepr
  have hSame : m = n := Nat.repr_injective (String.toList_inj.mp hRepr)
  subst hSame
  exact ⟨rfl, (List.cons.inj (List.append_cancel_left h)).2⟩

theorem lengthPrefixed_inj {s s' : String} {r r' : List Char}
    (h : (lengthPrefixed s).toList ++ r = (lengthPrefixed s').toList ++ r') : s = s' ∧ r = r' := by
  have hText : ∀ s : String, ∀ r : List Char, (lengthPrefixed s).toList ++ r =
      (Nat.repr s.utf8ByteSize).toList ++ ':' :: (s.toList ++ r) := by
    intro s r
    simp [lengthPrefixed, toString]
  rw [hText, hText] at h
  obtain ⟨hSize, hRest⟩ := repr_colon_inj h
  rw [utf8ByteSize_eq_sum, utf8ByteSize_eq_sum] at hSize
  obtain ⟨hChars, hTail⟩ := append_inj_of_utf8Size hRest hSize
  exact ⟨String.toList_inj.mp hChars, hTail⟩

theorem throttleKey_injective {client method route client' method' route' : String}
    (h : throttleKey client method route = throttleKey client' method' route') :
    client = client' ∧ method = method' ∧ route = route' := by
  have hText := congrArg String.toList h
  simp only [throttleKey, String.toList_append, List.append_assoc] at hText
  obtain ⟨hClient, hRest⟩ := lengthPrefixed_inj hText
  obtain ⟨hMethod, hLast⟩ := lengthPrefixed_inj hRest
  rw [← List.append_nil (lengthPrefixed route).toList,
    ← List.append_nil (lengthPrefixed route').toList] at hLast
  exact ⟨hClient, hMethod, (lengthPrefixed_inj hLast).1⟩

/-- Clients, methods and routes share a bucket only when they are the same. -/
theorem throttleKey_eq_iff (client method route client' method' route' : String) :
    throttleKey client method route = throttleKey client' method' route' ↔
      (client, method, route) = (client', method', route') := by
  constructor
  · intro h
    obtain ⟨rfl, rfl, rfl⟩ := throttleKey_injective h
    rfl
  · intro h
    cases h
    rfl

end Caelix
