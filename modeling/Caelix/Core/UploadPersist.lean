import Caelix.Core.Upload

/-!
# Moving a staged file

`persist_to` creates the destination before it copies, so what fails after that leaves a
file behind.

* `leads_storage`, `leads_storage_bind`: the calls of the file system, one at a time.
* `moveFile_outcome`: how the calls of a move can end.
* `persist_iff`: a move is all or nothing exactly when nothing fails once the destination
  is created, and the destination is not the staged file itself.
-/

namespace Caelix

open Interaction

/-! ## Calls of the file system -/

section Storage

variable {s : Disk} {c : FileCall}

/-- What `map_err(storage_error)?` makes of a result. -/
def orStorageError (x : IoResult) : Except HttpException Unit := x.mapError storageError

theorem leads_orStorageError {Q : History UploadReply → Except HttpException Unit → Disk → Prop}
    (x : IoResult) (t : Disk) :
    ((match x with
      | .ok _ => return ()
      | .error error => throw (storageError error) : UploadRoutine Unit).run.Leads uploadEffects
        (fun later => Q ([⟨.file c, x⟩] ++ later)) t) ↔ Q [⟨.file c, x⟩] (orStorageError x) t := by
  cases x <;> exact Iff.rfl

theorem leads_storage {Q : History UploadReply → Except HttpException Unit → Disk → Prop} :
    (storage c).run.Leads uploadEffects Q s ↔
      ∀ files x, c.effect s.files files x →
        Q [⟨.file c, x⟩] (orStorageError x) { s with files := files } := by
  rw [storage, Proc.leads_bind_except, Proc.leads_ask]
  constructor
  · intro h files x hCall
    exact (leads_orStorageError x _).mp (h { s with files := files } x ⟨hCall, rfl⟩)
  · rintro h t x ⟨hCall, ht⟩
    rw [ht]
    exact (leads_orStorageError x _).mpr (h t.files x hCall)

theorem leads_storage_bind {α : Type} {g : Unit → UploadRoutine α}
    {Q : History UploadReply → Except HttpException α → Disk → Prop} :
    (storage c >>= g).run.Leads uploadEffects Q s ↔
      ∀ files x, c.effect s.files files x →
        match x with
        | .ok _ => (g ()).run.Leads uploadEffects (fun later => Q (⟨.file c, x⟩ :: later))
            { s with files := files }
        | .error e => Q [⟨.file c, x⟩] (.error (storageError e)) { s with files := files } := by
  rw [Proc.leads_bind_except, leads_storage]
  refine forall_congr' fun files => forall_congr' fun x => forall_congr' fun _ => ?_
  cases x <;> exact Iff.rfl

end Storage

/-- Every call of the file system in a history succeeds. -/
def Succeeds (history : History UploadReply) : Prop :=
  ∀ c x, ⟨.file c, x⟩ ∈ history → x = .ok ()

/-- The destination is created in a history. -/
def Creates (path : Path) (history : History UploadReply) : Prop :=
  ⟨.file (.createNew path), .ok ()⟩ ∈ history

/-! ## The calls of a move -/

/-- How the calls of a move can end, for a staged file that holds `bytes`. -/
inductive MoveOutcome (source destination : Path) (bytes : Bytes) (s : Disk) :
    History UploadReply → Except HttpException Path → Disk → Prop
  | moved {history : History UploadReply} {t : Disk} (hNew : s.files destination = none)
      (hSucceeds : Succeeds history) (hDestination : t.files destination = some bytes)
      (hSource : t.files source = none) :
      MoveOutcome source destination bytes s history (.ok destination) t
  | refused {history : History UploadReply} {e : HttpException}
      (hNotCreated : ¬ Creates destination history)
      (hNotRemoved : ∀ x, ⟨.file (.removeFile source), x⟩ ∉ history) :
      MoveOutcome source destination bytes s history (.error e) s
  | interrupted {history : History UploadReply} {e : HttpException} {t : Disk}
      (hNew : s.files destination = none) (hCreated : Creates destination history)
      (hFails : ¬ Succeeds history) (hLeft : t.files destination ≠ none) :
      MoveOutcome source destination bytes s history (.error e) t

theorem rewrites_some {path : Path} {R : Bytes → Bytes → Prop} {s t : Files} {old : Bytes}
    (hOld : s path = some old) (h : Rewrites path R s t) :
    ∃ new, R old new ∧ t = Function.update s path (some new) := by
  unfold Rewrites at h
  rwa [hOld] at h

@[simp] theorem succeeds_nil : Succeeds [] := fun _ _ h => absurd h List.not_mem_nil

@[simp] theorem succeeds_cons {c : FileCall} {x : IoResult} {history : History UploadReply} :
    Succeeds (⟨.file c, x⟩ :: history) ↔ x = .ok () ∧ Succeeds history := by
  constructor
  · intro h
    exact ⟨h c x (List.mem_cons_self ..), fun c x hx => h c x (List.mem_cons_of_mem _ hx)⟩
  · rintro ⟨hFirst, hRest⟩ d y hy
    rcases List.mem_cons.mp hy with hEq | hLater
    · cases hEq
      exact hFirst
    · exact hRest d y hLater

theorem moveFile_outcome {source destination : Path} {bytes : Bytes} {s : Disk}
    (hStaged : s.files source = some bytes) :
    (moveFile source destination).run.Leads uploadEffects
      (MoveOutcome source destination bytes s) s := by
  unfold moveFile
  refine leads_storage_bind.mpr fun opened x hOpen => ?_
  cases x with
  | error e =>
    obtain rfl : opened = s.files := hOpen
    exact .refused (by simp [Creates]) (by simp)
  | ok _ =>
    obtain rfl : opened = s.files := hOpen.2
    refine leads_storage_bind.mpr fun created x hCreate => ?_
    cases x with
    | error e =>
      obtain rfl : created = s.files := hCreate
      exact .refused (by simp [Creates]) (by simp)
    | ok _ =>
      obtain ⟨hNew, hCreated⟩ := hCreate
      have hDistinct : source ≠ destination := by
        rintro rfl
        rw [hStaged] at hNew
        cases hNew
      have hEmpty : created destination = some [] := by rw [hCreated, Function.update_self]
      have hSource : created source = some bytes := by
        rw [hCreated, Function.update_of_ne hDistinct, hStaged]
      refine leads_storage_bind.mpr fun copied x hCopy => ?_
      cases x with
      | error e =>
        obtain ⟨left, -, hCopied⟩ := rewrites_some hEmpty hCopy
        refine .interrupted hNew (by simp [Creates]) ((by simp)) ?_
        simp [hCopied]
      | ok _ =>
        obtain ⟨new, ⟨content, hContent, hNewBytes⟩, hCopied⟩ := rewrites_some hEmpty hCopy
        have hRead : content = bytes := Option.some.inj (hContent.symm.trans hSource)
        have hFull : copied destination = some bytes := by
          rw [hCopied, Function.update_self, hNewBytes, hRead, List.nil_append]
        refine leads_storage_bind.mpr fun flushed x hFlush => ?_
        cases x with
        | error e =>
          obtain ⟨left, -, hFlushed⟩ := rewrites_some hFull hFlush
          refine .interrupted hNew (by simp [Creates]) ((by simp)) ?_
          simp [hFlushed]
        | ok _ =>
          obtain rfl : flushed = copied := hFlush
          refine leads_storage_bind.mpr fun removed x hRemove => ?_
          cases x with
          | error e =>
            obtain rfl : removed = flushed := hRemove
            refine .interrupted hNew (by simp [Creates]) ((by simp)) ?_
            simp [hFull]
          | ok _ =>
            obtain ⟨-, hRemoved⟩ := hRemove
            have hGone : removed source = none := by rw [hRemoved, Function.update_self]
            have hMoved : removed destination = some bytes := by
              rw [hRemoved, Function.update_of_ne (Ne.symm hDistinct)]
              exact hFull
            exact .moved hNew (by simp) hMoved hGone

/-! ## All or nothing -/

/-- The staged file has become the destination, or the destination is as it was. -/
def MovedOrUntouched (source destination : Path) (bytes : Bytes) (s : Disk)
    (r : Except Fault Path) (t : Disk) : Prop :=
  match r with
  | .ok _ => t.files destination = some bytes ∧ t.files source = none
  | .error _ => t.files destination = s.files destination

/-- Nothing fails once the destination is created; and the drop of the handle does not
remove the destination itself. -/
def MoveUninterrupted (source destination : Path) (history : History UploadReply) : Prop :=
  (Creates destination history → Succeeds history) ∧
    (destination = source → ∀ x, ⟨.file (.removeFile source), x⟩ ∈ history → x ≠ .ok ())

theorem creates_append {destination : Path} {history later : History UploadReply}
    (hLater : ¬ Creates destination later) :
    Creates destination (history ++ later) ↔ Creates destination history := by
  unfold Creates at *
  rw [List.mem_append]
  exact or_iff_left hLater

theorem succeeds_append_left {history later : History UploadReply}
    (h : Succeeds (history ++ later)) : Succeeds history :=
  fun c x hx => h c x (List.mem_append_left _ hx)

theorem persistTo_leads {file : UploadedFile} {source destination : Path} {bytes : Bytes} {s : Disk}
    (hPath : file.tempPath = some source) (hStaged : s.files source = some bytes) :
    (file.persistTo destination).Leads uploadEffects (fun history r t =>
      MovedOrUntouched source destination bytes s r t ↔
        MoveUninterrupted source destination history) s := by
  simp only [UploadedFile.persistTo, UploadedFile.drop, hPath]
  refine Proc.leads_bind.mpr (Proc.leads_mono (moveFile_outcome hStaged) ?_)
  intro history r t h
  cases h with
  | moved hNew hSucceeds hDestination hSource =>
    refine iff_of_true ⟨hDestination, hSource⟩ ⟨fun _ => ?_, fun hSame => ?_⟩
    · rwa [List.append_nil]
    · rw [hSame, hStaged] at hNew
      cases hNew
  | refused hNotCreated hNotRemoved =>
    rintro u x ⟨hRemove, hu⟩
    have hCreates : ¬ Creates destination (history ++ [⟨.file (.removeFile source), x⟩]) := by
      rw [creates_append (by simp [Creates])]
      exact hNotCreated
    have hRemovals : ∀ y, ⟨.file (.removeFile source), y⟩ ∈
        history ++ [(⟨.file (.removeFile source), x⟩ : Interaction.Event UploadReply)] ↔ y = x := by
      intro y
      simp [hNotRemoved y]
    by_cases hSame : destination = source
    · subst hSame
      cases x with
      | error e =>
        refine iff_of_true ?_ ⟨fun h => absurd h hCreates, fun _ y hy => ?_⟩
        · exact congrFun (hu ▸ hRemove) destination
        · rw [(hRemovals y).mp hy]
          exact nofun
      | ok _ =>
        refine iff_of_false ?_ fun h => h.2 rfl _ ((hRemovals _).mpr rfl) rfl
        intro hKept
        have hGone : u.files destination = none := by rw [hRemove.2, Function.update_self]
        exact hRemove.1 (hKept.symm.trans hGone)
    · refine iff_of_true ?_ ⟨fun h => absurd h hCreates, fun h => absurd h hSame⟩
      cases x with
      | error e => exact congrFun hRemove destination
      | ok _ => exact (congrFun hRemove.2 destination).trans (Function.update_of_ne hSame ..)
  | interrupted hNew hCreated hFails hLeft =>
    rintro u x ⟨hRemove, hu⟩
    have hDistinct : destination ≠ source := by
      rintro rfl
      rw [hStaged] at hNew
      cases hNew
    have hStays : u.files destination = t.files destination := by
      cases x with
      | error e => exact congrFun hRemove destination
      | ok _ => exact (congrFun hRemove.2 destination).trans (Function.update_of_ne hDistinct ..)
    refine iff_of_false ?_ ?_
    · intro hUntouched
      exact hLeft (hStays.symm.trans (hUntouched.trans hNew))
    · rintro ⟨hSucceeds, -⟩
      exact hFails (succeeds_append_left (hSucceeds (List.mem_append_left _ hCreated)))

/-- For every staged file, destination and behaviour of the file system: the destination
holds exactly the staged bytes and the staged file is gone after `Ok`, and the destination is
as it was after an error, if and only if nothing fails once the destination is created, and
the destination is not the staged file, which the drop of the handle removes. -/
theorem persist_iff {file : UploadedFile} {source destination : Path} {bytes : Bytes} {s t : Disk}
    {history : History UploadReply} {r : Except Fault Path} (hPath : file.tempPath = some source)
    (hStaged : s.files source = some bytes)
    (hRun : (file.persistTo destination).Traced uploadEffects s history r t) :
    MovedOrUntouched source destination bytes s r t ↔
      MoveUninterrupted source destination history :=
  hRun.leads (persistTo_leads hPath hStaged)

/-- A staged file of two bytes. -/
def stagedFile : UploadedFile := ⟨"report", some "report.pdf", none, [], 2, some "staged"⟩

def stagedFiles : Files := Function.update (fun _ => none) "staged" (some [1, 2])

/-- A move in which every call succeeds. -/
theorem persist_iff_moved : ∃ history r t,
    (stagedFile.persistTo "report.pdf").Traced uploadEffects ⟨stagedFiles, 0, 0⟩ history r t ∧
      MovedOrUntouched "staged" "report.pdf" [1, 2] ⟨stagedFiles, 0, 0⟩ r t := by
  let created := Function.update stagedFiles "report.pdf" (some [])
  let copied := Function.update created "report.pdf" (some [1, 2])
  have hRun : (stagedFile.persistTo "report.pdf").Traced uploadEffects ⟨stagedFiles, 0, 0⟩
      [⟨.file (.openFile "staged"), .ok ()⟩, ⟨.file (.createNew "report.pdf"), .ok ()⟩,
        ⟨.file (.copy "staged" "report.pdf"), .ok ()⟩, ⟨.file (.flush "report.pdf"), .ok ()⟩,
        ⟨.file (.removeFile "staged"), .ok ()⟩]
      (.ok "report.pdf") ⟨Function.update copied "staged" none, 0, 0⟩ := by
    refine .call (t := ⟨stagedFiles, 0, 0⟩) ⟨⟨by decide, rfl⟩, rfl⟩ ?_
    refine .call (t := ⟨created, 0, 0⟩) ⟨⟨by decide, rfl⟩, rfl⟩ ?_
    refine .call (t := ⟨copied, 0, 0⟩) ⟨⟨_, ⟨_, rfl, rfl⟩, rfl⟩, rfl⟩ ?_
    refine .call (t := Disk.mk copied 0 0) ⟨rfl, rfl⟩ ?_
    exact .call (t := ⟨Function.update copied "staged" none, 0, 0⟩) ⟨⟨by decide, rfl⟩, rfl⟩ (.done _ _)
  refine ⟨_, _, _, hRun, (persist_iff rfl rfl hRun).mpr ⟨fun _ => ?_, fun hSame => ?_⟩⟩
  · simp
  · exact absurd hSame (by decide)

/-- A copy that fails after its first byte: the move is an error and leaves a partial file. -/
theorem persist_partial : ∃ history e t,
    (stagedFile.persistTo "report.pdf").Traced uploadEffects ⟨stagedFiles, 0, 0⟩ history
      (.error e) t ∧
    stagedFiles "report.pdf" = none ∧ t.files "report.pdf" = some [1] := by
  let created := Function.update stagedFiles "report.pdf" (some [])
  let copied := Function.update created "report.pdf" (some [1])
  have hRun : (stagedFile.persistTo "report.pdf").Traced uploadEffects ⟨stagedFiles, 0, 0⟩
      [⟨.file (.openFile "staged"), .ok ()⟩, ⟨.file (.createNew "report.pdf"), .ok ()⟩,
        ⟨.file (.copy "staged" "report.pdf"), .error ⟨"No space left on device"⟩⟩,
        ⟨.file (.removeFile "staged"), .ok ()⟩]
      (.error (.exception internalServerError)) ⟨Function.update copied "staged" none, 0, 0⟩ := by
    refine .call (t := ⟨stagedFiles, 0, 0⟩) ⟨⟨by decide, rfl⟩, rfl⟩ ?_
    refine .call (t := ⟨created, 0, 0⟩) ⟨⟨by decide, rfl⟩, rfl⟩ ?_
    refine .call (t := ⟨copied, 0, 0⟩) ⟨⟨_, ⟨[2], rfl⟩, rfl⟩, rfl⟩ ?_
    exact .call (t := ⟨Function.update copied "staged" none, 0, 0⟩) ⟨⟨by decide, rfl⟩, rfl⟩ (.done _ _)
  exact ⟨_, _, _, hRun, by decide, by decide⟩

end Caelix
