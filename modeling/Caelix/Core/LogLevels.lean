import Caelix.Core.RequestCookies

/-!
# The log level

`configured_log_priority` of `logging.rs`: `CAELIX_LOG`, then `RUST_LOG`, then `debug`. A
generic directive of `RUST_LOG` names a level only; a caelix-specific one gives the level of a
target of the framework.

* `directiveLevel_eq`: the first directive with a recognised level decides, of either kind.
* `rust_log_specific_iff`: when an agreed caelix-specific level is the result.
-/

namespace Caelix

/-! ## The code -/

inductive LogLevel where
  | info
  | log
  | warn
  | error
  | debug
  deriving DecidableEq, Repr

def LogLevel.priority : LogLevel → Nat
  | .error => 1
  | .warn => 2
  | .info | .log => 3
  | .debug => 4

/-- `to_ascii_lowercase`. -/
def toAsciiLowercase (s : List Char) : List Char := s.map Char.toLower

def parseLogLevel (value : List Char) : Option Nat :=
  match String.ofList (toAsciiLowercase (trim value)) with
  | "debug" | "trace" => some LogLevel.debug.priority
  | "info" | "log" => some LogLevel.info.priority
  | "warn" | "warning" => some LogLevel.warn.priority
  | "error" => some LogLevel.error.priority
  | "off" => some 0
  | _ => none

def isCaelixTarget (target : List Char) : Bool :=
  String.ofList target ∈ ["caelix", "caelix_core", "caelix-core"]

/-- What one directive gives. -/
def directiveLevel (directive : List Char) : Option Nat :=
  let directive := trim directive
  match splitOnce '=' directive with
  | some (target, level) => if isCaelixTarget (trim target) then parseLogLevel level else none
  | none => parseLogLevel directive

def directives (value : String) : List (List Char) := value.toList.splitOn ','

def parseRustLogLevel (value : String) : Option Nat := (directives value).findSome? directiveLevel

/-- The variables, where they are set. -/
def configuredLogPriority (caelixLog rustLog : Option String) : Nat :=
  ((caelixLog.bind fun value => parseLogLevel value.toList).or
    (rustLog.bind parseRustLogLevel)).getD LogLevel.debug.priority

/-! ## Kinds of directives -/

/-- The level that a directive gives to a target of the framework. -/
def specificLevel (directive : List Char) : Option Nat :=
  match splitOnce '=' (trim directive) with
  | some (target, level) => if isCaelixTarget (trim target) then parseLogLevel level else none
  | none => none

/-- The level that a directive names for all targets. -/
def genericLevel (directive : List Char) : Option Nat :=
  match splitOnce '=' (trim directive) with
  | some _ => none
  | none => parseLogLevel (trim directive)

/-- A directive is of one kind only; foreign and malformed ones are of neither. -/
theorem directiveLevel_eq (directive : List Char) :
    directiveLevel directive = (specificLevel directive).or (genericLevel directive) := by
  unfold directiveLevel specificLevel genericLevel
  dsimp only
  cases splitOnce '=' (trim directive) with
  | none => rfl
  | some x =>
    dsimp only
    rw [Option.or_none]

theorem specificLevel_or_genericLevel (directive : List Char) :
    specificLevel directive = none ∨ genericLevel directive = none := by
  unfold specificLevel genericLevel
  cases splitOnce '=' (trim directive) with
  | none => exact .inl rfl
  | some x => exact .inr rfl

theorem directiveLevel_eq_some_iff {directive : List Char} {level : Nat} :
    directiveLevel directive = some level ↔
      specificLevel directive = some level ∨ genericLevel directive = some level := by
  rw [directiveLevel_eq]
  rcases specificLevel_or_genericLevel directive with h | h <;> simp [h]

/-! ## The first match -/

section FirstMatch

variable {α β : Type} {f : α → Option β} {l : List α} {b : β}

/-- The first match gives `b` when every other match stands behind one that gives `b`. -/
theorem findSome?_eq_some_iff_behind (h : ∃ a ∈ l, f a = some b) :
    l.findSome? f = some b ↔ ∀ earlier a later, l = earlier ++ a :: later →
      ∀ c, f a = some c → c ≠ b → ∃ e ∈ earlier, f e = some b := by
  constructor
  · intro hFirst earlier a later hl c hc hOther
    obtain ⟨before, first, after, hSplit, hb, hNone⟩ := List.findSome?_eq_some_iff.mp hFirst
    rw [hl] at hSplit
    rcases List.append_eq_append_iff.mp hSplit with ⟨rest, hBefore, hTail⟩ | ⟨rest, hEarlier, hTail⟩
    · cases rest with
      | nil =>
        obtain rfl : a = first := List.head_eq_of_cons_eq hTail
        rw [hc] at hb
        exact absurd (Option.some.inj hb) hOther
      | cons x rest =>
        obtain rfl : a = x := List.head_eq_of_cons_eq hTail
        have hMissed := hNone a (by simp [hBefore])
        rw [hc] at hMissed
        cases hMissed
    · cases rest with
      | nil =>
        obtain rfl : first = a := List.head_eq_of_cons_eq hTail
        rw [hc] at hb
        exact absurd (Option.some.inj hb) hOther
      | cons x rest =>
        obtain rfl : first = x := List.head_eq_of_cons_eq hTail
        exact ⟨first, by simp [hEarlier], hb⟩
  · intro hBehind
    cases hFirst : l.findSome? f with
    | none =>
      obtain ⟨a, ha, hb⟩ := h
      rw [List.findSome?_eq_none_iff.mp hFirst a ha] at hb
      cases hb
    | some c =>
      obtain ⟨before, first, after, hSplit, hc, hNone⟩ := List.findSome?_eq_some_iff.mp hFirst
      by_contra hOther
      obtain ⟨e, he, hb⟩ := hBehind before first after hSplit c hc (by simpa using hOther)
      rw [hNone e he] at hb
      cases hb

/-- The order of the list does not matter when all matches give the same. -/
theorem findSome?_of_agree (h : ∃ a ∈ l, f a = some b) (hAgree : ∀ a ∈ l, ∀ c, f a = some c → c = b)
    {l' : List α} (hPerm : l'.Perm l) : l'.findSome? f = some b := by
  obtain ⟨a, ha, hb⟩ := h
  refine (findSome?_eq_some_iff_behind ⟨a, hPerm.mem_iff.mpr ha, hb⟩).mpr ?_
  intro earlier other later hl' c hc hOther
  refine absurd (hAgree other (hPerm.mem_iff.mp ?_) c hc) hOther
  simp [hl']

end FirstMatch

/-! ## Strings of directives -/

theorem comma_notMem_splitOn (s : List Char) : ∀ directive ∈ s.splitOn ',', ',' ∉ directive := by
  induction s with
  | nil => simp
  | cons c s ih =>
    rw [List.splitOn_cons_eq_if_modifyHead]
    split
    · simpa using ih
    · next hc =>
      have hOther : c ≠ ',' := by simpa using hc
      cases hSplit : s.splitOn ',' with
      | nil => exact absurd hSplit (List.splitOn_ne_nil _ _)
      | cons first later =>
        rw [hSplit, List.forall_mem_cons] at ih
        rw [List.modifyHead_cons, List.forall_mem_cons]
        refine ⟨?_, ih.2⟩
        rw [List.mem_cons]
        exact not_or.mpr ⟨hOther.symm, ih.1⟩

/-- The directives of a string in any other order are those of a string. -/
theorem exists_directives {value : String} {l : List (List Char)} (h : l.Perm (directives value)) :
    ∃ value', directives value' = l := by
  refine ⟨String.ofList ([','].intercalate l), ?_⟩
  rw [directives, String.toList_ofList]
  refine List.splitOn_intercalate ',' ?_ ?_
  · intro directive hDirective
    exact comma_notMem_splitOn value.toList directive (h.mem_iff.mp hDirective)
  · rintro rfl
    exact List.splitOn_ne_nil _ _ h.symm.eq_nil

/-- A string has caelix-specific directives with a recognised level, and they agree on it. -/
structure AgreedLevel (value : String) (level : Nat) : Prop where
  exists_specific : ∃ directive ∈ directives value, specificLevel directive = some level
  agree : ∀ directive ∈ directives value, ∀ l, specificLevel directive = some l → l = level

section AgreedLevel

variable {value value' : String} {level : Nat} {caelixLog : Option String}

theorem AgreedLevel.exists_level (h : AgreedLevel value level) :
    ∃ directive ∈ directives value, directiveLevel directive = some level := by
  obtain ⟨directive, hMem, hLevel⟩ := h.exists_specific
  exact ⟨directive, hMem, directiveLevel_eq_some_iff.mpr (.inl hLevel)⟩

theorem AgreedLevel.perm (h : AgreedLevel value level)
    (hPerm : (directives value').Perm (directives value)) : AgreedLevel value' level := by
  obtain ⟨directive, hMem, hLevel⟩ := h.exists_specific
  refine ⟨⟨directive, hPerm.mem_iff.mpr hMem, hLevel⟩, ?_⟩
  intro other hOther
  exact h.agree other (hPerm.mem_iff.mp hOther)

/-- Where `CAELIX_LOG` gives no level, the directives do. -/
theorem AgreedLevel.configured_eq_iff (h : AgreedLevel value level)
    (hUnset : (caelixLog.bind fun text => parseLogLevel text.toList) = none) (l : Nat) :
    configuredLogPriority caelixLog (some value) = l ↔
      (directives value).findSome? directiveLevel = some l := by
  rw [configuredLogPriority, hUnset, Option.none_or, Option.bind_some, parseRustLogLevel]
  cases hFirst : (directives value).findSome? directiveLevel with
  | none =>
    obtain ⟨directive, hMem, hLevel⟩ := h.exists_level
    rw [List.findSome?_eq_none_iff.mp hFirst directive hMem] at hLevel
    cases hLevel
  | some l' => simp

/-- Every order gives the agreed level exactly when no generic directive has another one. -/
theorem AgreedLevel.every_order_iff (h : AgreedLevel value level)
    (hUnset : (caelixLog.bind fun text => parseLogLevel text.toList) = none) :
    (∀ value', (directives value').Perm (directives value) →
        configuredLogPriority caelixLog (some value') = level) ↔
      ∀ directive ∈ directives value, ∀ l, genericLevel directive = some l → l = level := by
  constructor
  · intro hOrders directive hMem l hGeneric
    -- In another order this directive stands first, and gives the result.
    obtain ⟨value', hFront⟩ := exists_directives (List.perm_cons_erase hMem).symm
    have hPerm : (directives value').Perm (directives value) := by
      rw [hFront]
      exact (List.perm_cons_erase hMem).symm
    have hSame := hOrders value' hPerm
    rw [(h.perm hPerm).configured_eq_iff hUnset, hFront, List.findSome?_cons,
      directiveLevel_eq_some_iff.mpr (.inr hGeneric)] at hSame
    exact Option.some.inj hSame
  · intro hAgree value' hPerm
    have hAll : ∀ directive ∈ directives value, ∀ l, directiveLevel directive = some l →
        l = level := by
      intro directive hMem l hl
      rcases directiveLevel_eq_some_iff.mp hl with hSpecific | hGeneric
      · exact h.agree directive hMem l hSpecific
      · exact hAgree directive hMem l hGeneric
    rw [(h.perm hPerm).configured_eq_iff hUnset]
    exact findSome?_of_agree h.exists_level hAll hPerm

/-- This order gives the agreed level exactly when a directive with it stands before each
generic directive with another one. -/
theorem AgreedLevel.this_order_iff (h : AgreedLevel value level)
    (hUnset : (caelixLog.bind fun text => parseLogLevel text.toList) = none) :
    configuredLogPriority caelixLog (some value) = level ↔
      ∀ earlier directive later, directives value = earlier ++ directive :: later →
        ∀ l, genericLevel directive = some l → l ≠ level →
          ∃ e ∈ earlier, specificLevel e = some level ∨ genericLevel e = some level := by
  rw [h.configured_eq_iff hUnset, findSome?_eq_some_iff_behind h.exists_level]
  simp only [directiveLevel_eq_some_iff]
  constructor
  · intro hBehind earlier directive later hSplit l hGeneric hOther
    exact hBehind earlier directive later hSplit l (.inr hGeneric) hOther
  · intro hBehind earlier directive later hSplit l hl hOther
    rcases hl with hSpecific | hGeneric
    · exact absurd (h.agree directive (by simp [hSplit]) l hSpecific) hOther
    · exact hBehind earlier directive later hSplit l hGeneric hOther

/-- When `CAELIX_LOG` gives no level, an agreed caelix-specific level of `RUST_LOG` is the
result for all orders of its directives exactly when no generic directive has another level. For
the order at hand it is the result exactly when a directive with this level stands before each
generic directive with another one. -/
theorem rust_log_specific_iff (h : AgreedLevel value level)
    (hUnset : (caelixLog.bind fun text => parseLogLevel text.toList) = none) :
    ((configuredLogPriority caelixLog (some value) = level ∧
        ∀ value', (directives value').Perm (directives value) →
          configuredLogPriority caelixLog (some value') =
            configuredLogPriority caelixLog (some value)) ↔
      ∀ directive ∈ directives value, ∀ l, genericLevel directive = some l → l = level) ∧
    (configuredLogPriority caelixLog (some value) = level ↔
      ∀ earlier directive later, directives value = earlier ++ directive :: later →
        ∀ l, genericLevel directive = some l → l ≠ level →
          ∃ e ∈ earlier, specificLevel e = some level ∨ genericLevel e = some level) := by
  refine ⟨?_, h.this_order_iff hUnset⟩
  rw [← h.every_order_iff hUnset]
  constructor
  · rintro ⟨hLevel, hOrders⟩ value' hPerm
    exact (hOrders value' hPerm).trans hLevel
  · intro hEvery
    have hLevel := hEvery value (.refl _)
    exact ⟨hLevel, fun value' hPerm => (hEvery value' hPerm).trans hLevel.symm⟩

end AgreedLevel

theorem rust_log_specific_info :
    configuredLogPriority none (some "INFO, caelix = info ,sqlx=trace,caelix_core") = 3 := by
  have hAgreed : AgreedLevel "INFO, caelix = info ,sqlx=trace,caelix_core" 3 :=
    ⟨by decide, by decide⟩
  exact ((rust_log_specific_iff hAgreed rfl).1.mpr (by decide)).1

/-- A generic directive before the specific one decides. -/
theorem rust_log_generic_wins :
    ¬ ∀ (value : String) (level : Nat), AgreedLevel value level →
      configuredLogPriority none (some value) = level := by
  intro h
  have hAgreed : AgreedLevel "info,caelix=debug" 4 := ⟨by decide, by decide⟩
  have hLevel := h "info,caelix=debug" 4 hAgreed
  revert hLevel
  decide

end Caelix
