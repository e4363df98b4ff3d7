import Caelix.Core.Container

/-!
# Visiting marks

The marks `1` and `2` that module discovery and the provider scheduler keep for each
type, read as the open and the finished types of a depth-first walk.
-/

namespace Caelix

inductive VisitState where
  | visiting
  | visited
  deriving DecidableEq, Repr

/-- The marks of a walk with the given open and finished types. -/
structure Marks (states : TypeId → Option VisitState) (opened finished : List TypeId) : Prop where
  visiting : ∀ t, states t = some .visiting ↔ t ∈ opened
  visited : ∀ t, states t = some .visited ↔ t ∈ finished

namespace Marks

variable {states : TypeId → Option VisitState} {opened finished : List TypeId} {t : TypeId}

theorem none : Marks (fun _ => none) [] [] := by
  constructor <;> simp

theorem fresh (h : Marks states opened finished) (hDone : t ∉ finished) (hOpen : t ∉ opened) :
    states t = Option.none := by
  cases hs : states t with
  | none => rfl
  | some mark =>
    cases mark with
    | visiting => exact absurd ((h.visiting _).mp hs) hOpen
    | visited => exact absurd ((h.visited _).mp hs) hDone

theorem enter (h : Marks states opened finished) (hFresh : states t = Option.none) :
    Marks (Function.update states t (some .visiting)) (opened ++ [t]) finished := by
  constructor
  · intro u
    by_cases hu : u = t
    · subst hu
      simp
    · rw [Function.update_of_ne hu, h.visiting]
      simp [hu]
  · intro u
    by_cases hu : u = t
    · subst hu
      have hNew : u ∉ finished := by
        intro hMem
        rw [(h.visited u).mpr hMem] at hFresh
        cases hFresh
      simp [hNew]
    · rw [Function.update_of_ne hu, h.visited]

theorem leave (h : Marks states (opened ++ [t]) finished) (hOpen : t ∉ opened) :
    Marks (Function.update states t (some .visited)) opened (finished ++ [t]) := by
  constructor
  · intro u
    by_cases hu : u = t
    · subst hu
      simpa using hOpen
    · rw [Function.update_of_ne hu, h.visiting]
      simp [hu]
  · intro u
    by_cases hu : u = t
    · subst hu
      simp
    · rw [Function.update_of_ne hu, h.visited]
      simp [hu]

end Marks

end Caelix
