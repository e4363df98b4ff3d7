import Caelix.Core.UploadPersist

/-!
# Staged files of a multipart body

A file part is on disk from the creation of its file on, but it is owned by the form only
when all of its data is there. What fails in between leaves the file behind.

* `stagePart_outcome`, `parsePart_outcome`: how a part can end.
* `drop_leads`: what the drop of a form leaves.
* `parse_iff`: a failed parse leaves no file behind exactly when nothing fails while a part
  is staged and every removal succeeds.
-/

namespace Caelix

open Interaction

/-! ## Histories -/

def FileCall.opens : FileCall → Bool
  | .createDirAll _ => true
  | .openFile _ => true
  | .createNew _ => true
  | _ => false

/-- No write, flush or removal fails in a history. -/
def FailsOnlyOpening (history : History UploadReply) : Prop :=
  ∀ c e, ⟨.file c, .error e⟩ ∈ history → c.opens = true

/-- The event is the creation of a file. -/
def createsFile : Interaction.Event UploadReply → Bool
  | ⟨.file (.createNew _), .ok _⟩ => true
  | _ => false

/-- The number of file parts that are begun in a history. -/
def begun (history : History UploadReply) : Nat := history.countP createsFile

theorem begun_append (history later : History UploadReply) :
    begun (history ++ later) = begun history + begun later := List.countP_append

theorem failsOnlyOpening_append {history later : History UploadReply} :
    FailsOnlyOpening (history ++ later) ↔ FailsOnlyOpening history ∧ FailsOnlyOpening later := by
  unfold FailsOnlyOpening
  simp only [List.mem_append]
  constructor
  · intro h
    exact ⟨fun c e he => h c e (.inl he), fun c e he => h c e (.inr he)⟩
  · rintro ⟨hFirst, hLater⟩ c e he
    exact he.elim (hFirst c e) (hLater c e)

theorem failsOnlyOpening_cons {event : Interaction.Event UploadReply} {history : History UploadReply} :
    FailsOnlyOpening (event :: history) ↔ FailsOnlyOpening [event] ∧ FailsOnlyOpening history :=
  List.singleton_append ▸ failsOnlyOpening_append

@[simp] theorem failsOnlyOpening_nil : FailsOnlyOpening [] :=
  fun _ _ h => absurd h List.not_mem_nil

@[simp] theorem failsOnlyOpening_ok (c : FileCall) : FailsOnlyOpening [⟨.file c, .ok ()⟩] := by
  intro d e he
  simp at he

@[simp] theorem failsOnlyOpening_error {c : FileCall} {e : IoError} :
    FailsOnlyOpening [⟨.file c, .error e⟩] ↔ c.opens = true := by
  constructor
  · intro h
    exact h c e (List.mem_singleton_self _)
  · intro h d e' he
    obtain ⟨rfl, -⟩ : d = c ∧ e' = e := by simpa using he
    exact h

/-! ## One part -/

theorem temporaryPath_leads {config : UploadConfig} {s : Disk} :
    (temporaryPath config).run.Leads uploadEffects (fun history r t =>
      FailsOnlyOpening history ∧ begun history = 0 ∧ t.files = s.files ∧ ∃ path, r = .ok path) s := by
  rintro t id ⟨-, rfl⟩ u processId ⟨-, rfl⟩ v nanos rfl
  refine ⟨?_, rfl, rfl, _, rfl⟩
  intro c e he
  simp at he

/-- The received count after the data of a part, while it stays within the limit. -/
def receiveAll (limit received : Nat) (chunks : List Bytes) : Except HttpException Nat :=
  chunks.foldlM (receive limit) received

theorem writeChunks_leads {limit : Nat} {path : Path} {chunks : List Bytes} {size received : Nat}
    {s : Disk} {old : Bytes} (hOld : s.files path = some old) :
    (writeChunks limit path chunks size received).run.Leads uploadEffects (fun history r t =>
      begun history = 0 ∧
      match r with
      | .ok x => FailsOnlyOpening history ∧ receiveAll limit received chunks = .ok x.2 ∧
          x.1 = size + chunks.flatten.length ∧
          t.files = Function.update s.files path (some (old ++ chunks.flatten))
      | .error _ => ¬ (FailsOnlyOpening history ∧ ∃ total, receiveAll limit received chunks = .ok total) ∧
          ∃ left, t.files = Function.update s.files path (some left)) s := by
  induction chunks generalizing size received s old with
  | nil =>
    refine ⟨rfl, failsOnlyOpening_nil, rfl, rfl, ?_⟩
    simp [← hOld]
  | cons chunk chunks ih =>
    unfold writeChunks
    cases hReceive : receive limit received chunk with
    | error e =>
      refine ⟨rfl, ?_, old, ?_⟩
      · rintro ⟨-, total, hTotal⟩
        rw [receiveAll, List.foldlM_cons, hReceive] at hTotal
        cases hTotal
      · rw [← hOld, Function.update_eq_self]
    | ok count =>
      have hRest : receiveAll limit received (chunk :: chunks) = receiveAll limit count chunks := by
        rw [receiveAll, List.foldlM_cons, hReceive]
        rfl
      refine leads_storage_bind.mpr fun files x hWrite => ?_
      cases x with
      | error e =>
        obtain ⟨left, -, hLeft⟩ := rewrites_some hOld hWrite
        refine ⟨rfl, ?_, left, hLeft⟩
        rintro ⟨hOpening, -⟩
        simp [FileCall.opens] at hOpening
      | ok _ =>
        obtain ⟨new, rfl, hNew⟩ := rewrites_some hOld hWrite
        have hWritten : files path = some (old ++ chunk) := by rw [hNew, Function.update_self]
        refine Proc.leads_mono (ih hWritten) ?_
        intro history r t h
        refine ⟨h.1, ?_⟩
        rw [hRest]
        cases r with
        | ok x =>
          obtain ⟨-, hOpening, hCount, hSize, hFiles⟩ := h
          refine ⟨failsOnlyOpening_cons.mpr ⟨failsOnlyOpening_ok _, hOpening⟩, hCount, ?_, ?_⟩
          · rw [hSize, List.flatten_cons, List.length_append, Nat.add_assoc]
          · rw [hFiles, hNew]
            simp
        | error e =>
          obtain ⟨-, hFault, left, hFiles⟩ := h
          refine ⟨?_, left, ?_⟩
          · rintro ⟨hOpening, hTotal⟩
            exact hFault ⟨(failsOnlyOpening_cons.mp hOpening).2, hTotal⟩
          · rw [hFiles, hNew]
            simp

/-- The data of the part is complete and within the limit. -/
def Part.Arrives (limit received : Nat) (part : Part) : Prop :=
  part.complete = true ∧ ∃ total, receiveAll limit received part.chunks = .ok total

/-- How the staging of a file part can end. -/
inductive StageOutcome (limit received : Nat) (part : Part) (s : Disk) :
    History UploadReply → Except HttpException (Nat × Path × Nat) → Disk → Prop
  | staged {history : History UploadReply} {path : Path} {total : Nat} {t : Disk}
      (hNew : s.files path = none)
      (hFiles : t.files = Function.update s.files path (some part.chunks.flatten))
      (hComplete : part.complete = true)
      (hReceived : receiveAll limit received part.chunks = .ok total)
      (hOpening : FailsOnlyOpening history) (hBegun : begun history = 1) :
      StageOutcome limit received part s history
        (.ok (part.chunks.flatten.length, path, total)) t
  | refused {history : History UploadReply} {e : HttpException} {t : Disk}
      (hFiles : t.files = s.files) (hOpening : FailsOnlyOpening history)
      (hBegun : begun history = 0) :
      StageOutcome limit received part s history (.error e) t
  | interrupted {history : History UploadReply} {e : HttpException} {path : Path} {t : Disk}
      {left : Bytes} (hNew : s.files path = none)
      (hFiles : t.files = Function.update s.files path (some left)) (hBegun : begun history = 1)
      (hFault : ¬ (FailsOnlyOpening history ∧ part.Arrives limit received)) :
      StageOutcome limit received part s history (.error e) t

theorem stagePart_outcome {config : UploadConfig} {limit received : Nat} {part : Part} {s : Disk} :
    (stagePart config limit part received).run.Leads uploadEffects
      (StageOutcome limit received part s) s := by
  unfold stagePart
  refine Proc.leads_bind_except.mpr (Proc.leads_mono temporaryPath_leads ?_)
  rintro before _ t ⟨hBefore, hNone, hFiles, path, rfl⟩
  refine leads_storage_bind.mpr fun created x hCreate => ?_
  cases x with
  | error e =>
    refine .refused ((show created = t.files from hCreate).trans hFiles) ?_ ?_
    · exact failsOnlyOpening_append.mpr ⟨hBefore, failsOnlyOpening_error.mpr rfl⟩
    · rw [begun_append, hNone]
      rfl
  | ok _ =>
    obtain ⟨hNew, hCreated⟩ := hCreate
    rw [hFiles] at hNew hCreated
    have hEmpty : created path = some [] := by rw [hCreated, Function.update_self]
    refine Proc.leads_bind_except.mpr (Proc.leads_mono (writeChunks_leads hEmpty) ?_)
    rintro history r u ⟨hWrites, h⟩
    have hBegun : ∀ later, begun later = 0 →
        begun (before ++ ⟨.file (.createNew path), .ok ()⟩ :: (history ++ later)) = 1 := by
      intro later hLater
      rw [begun_append, hNone, begun, List.countP_cons_of_pos rfl, ← begun, begun_append, hWrites,
        hLater]
    cases r with
    | error e =>
      obtain ⟨hFault, left, hLeft⟩ := h
      rw [hCreated, Function.update_idem] at hLeft
      refine .interrupted hNew hLeft (by simpa using hBegun [] rfl) ?_
      · rintro ⟨hOpening, -, hTotal⟩
        have hHistory := (failsOnlyOpening_append.mp hOpening).2
        exact hFault ⟨(failsOnlyOpening_cons.mp hHistory).2, hTotal⟩
    | ok x =>
      obtain ⟨size, total⟩ := x
      obtain ⟨hOpening, hTotal, hSize, hContent⟩ := h
      rw [Nat.zero_add] at hSize
      rw [hCreated, Function.update_idem, List.nil_append] at hContent
      subst hSize
      cases hComplete : part.complete with
      | false =>
        refine .interrupted hNew hContent (by simpa using hBegun [] rfl) ?_
        rintro ⟨-, hPart, -⟩
        rw [hComplete] at hPart
        cases hPart
      | true =>
        refine leads_storage_bind.mpr fun flushed x hFlush => ?_
        have hStaged : u.files path = some part.chunks.flatten := by
          rw [hContent, Function.update_self]
        cases x with
        | error e =>
          obtain ⟨left, -, hLeft⟩ := rewrites_some hStaged hFlush
          rw [hContent, Function.update_idem] at hLeft
          refine .interrupted hNew hLeft (hBegun _ rfl) ?_
          · rintro ⟨hOpens, -⟩
            have hHistory := (failsOnlyOpening_append.mp hOpens).2
            have hEnd := (failsOnlyOpening_append.mp (failsOnlyOpening_cons.mp hHistory).2).2
            exact absurd (failsOnlyOpening_error.mp hEnd) (by simp [FileCall.opens])
        | ok _ =>
          refine .staged hNew ((show flushed = u.files from hFlush).trans hContent) hComplete hTotal
            ?_ (hBegun _ rfl)
          refine failsOnlyOpening_append.mpr ⟨hBefore, failsOnlyOpening_cons.mpr ⟨failsOnlyOpening_ok _, ?_⟩⟩
          exact failsOnlyOpening_append.mpr ⟨hOpening, failsOnlyOpening_ok _⟩

/-! ## Forms and what they own -/

/-- The handle of a staged part. -/
def Part.uploaded (part : Part) (path : Path) : UploadedFile where
  fieldName := part.name.getD ""
  fileName := part.fileName
  contentType := part.contentType
  headers := part.headers
  size := part.chunks.flatten.length
  tempPath := some path

/-- A part and the path it is staged under. -/
abbrev StagedPart := Part × Path

def StagedPart.file (staged : StagedPart) : UploadedFile := staged.1.uploaded staged.2

/-- The files are those of `s` and, under new paths, those of the staged parts with all of
their data. -/
structure Holds (s : Files) (staged : List StagedPart) (t : Files) : Prop where
  distinct : (staged.map Prod.snd).Nodup
  fresh : ∀ x ∈ staged, s x.2 = none
  content : ∀ x ∈ staged, t x.2 = some x.1.chunks.flatten
  others : ∀ path, path ∉ staged.map Prod.snd → t path = s path

theorem holds_nil {s t : Files} : Holds s [] t ↔ t = s := by
  constructor
  · intro h
    exact funext fun path => h.others path List.not_mem_nil
  · rintro rfl
    exact ⟨.nil, List.forall_mem_nil _, List.forall_mem_nil _, fun _ _ => rfl⟩

theorem Holds.perm {s t : Files} {staged staged' : List StagedPart} (h : Holds s staged t)
    (hPerm : staged.Perm staged') : Holds s staged' t where
  distinct := ((hPerm.map Prod.snd).nodup_iff).mp h.distinct
  fresh x hx := h.fresh x (hPerm.mem_iff.mpr hx)
  content x hx := h.content x (hPerm.mem_iff.mpr hx)
  others path hPath := h.others path fun hMem => hPath ((hPerm.map Prod.snd).mem_iff.mp hMem)

/-- A path that is free is that of no staged part. -/
theorem Holds.unclaimed {s t : Files} {staged : List StagedPart} (h : Holds s staged t) {path : Path}
    (hNew : t path = none) : path ∉ staged.map Prod.snd := by
  intro hMem
  obtain ⟨x, hx, rfl⟩ := List.mem_map.mp hMem
  rw [h.content x hx] at hNew
  cases hNew

/-- A new file under a path that is free. -/
theorem Holds.stage {s t u : Files} {staged : List StagedPart} (h : Holds s staged t) {part : Part}
    {path : Path} (hNew : t path = none)
    (hFiles : u = Function.update t path (some part.chunks.flatten)) :
    Holds s ((part, path) :: staged) u := by
  have hOther := h.unclaimed hNew
  refine ⟨List.nodup_cons.mpr ⟨hOther, h.distinct⟩, ?_, ?_, ?_⟩
  · intro x hx
    rcases List.mem_cons.mp hx with rfl | hx
    · exact (h.others path hOther).symm.trans hNew
    · exact h.fresh x hx
  · intro x hx
    rcases List.mem_cons.mp hx with rfl | hx
    · rw [hFiles, Function.update_self]
    · have hne : x.2 ≠ path := fun hEq => hOther (hEq ▸ List.mem_map_of_mem hx)
      rw [hFiles, Function.update_of_ne hne, h.content x hx]
  · intro other hNone
    rw [List.map_cons, List.mem_cons, not_or] at hNone
    rw [hFiles, Function.update_of_ne hNone.1, h.others other hNone.2]

/-- A new file under a path that is free, of which no handle is kept. -/
theorem Holds.leave {s t u : Files} {staged : List StagedPart} (h : Holds s staged t) {path : Path}
    {left : Bytes} (hNew : t path = none) (hFiles : u = Function.update t path (some left)) :
    Holds (Function.update s path (some left)) staged u := by
  have hNe : ∀ x ∈ staged, x.2 ≠ path :=
    fun x hx hEq => h.unclaimed hNew (hEq ▸ List.mem_map_of_mem hx)
  refine ⟨h.distinct, ?_, ?_, ?_⟩
  · intro x hx
    rw [Function.update_of_ne (hNe x hx)]
    exact h.fresh x hx
  · intro x hx
    rw [hFiles, Function.update_of_ne (hNe x hx)]
    exact h.content x hx
  · intro other hNone
    by_cases hPath : other = path
    · rw [hFiles, hPath, Function.update_self, Function.update_self]
    · rw [hFiles, Function.update_of_ne hPath, Function.update_of_ne hPath]
      exact h.others other hNone

/-- A value is pushed somewhere among those of the entries. -/
theorem flatMap_pushEntry {α : Type} (name : String) (value : α) (entries : List (String × List α)) :
    ∃ before after, entries.flatMap Prod.snd = before ++ after ∧
      (pushEntry name value entries).flatMap Prod.snd = before ++ value :: after := by
  induction entries with
  | nil => exact ⟨[], [], rfl, rfl⟩
  | cons entry entries ih =>
    obtain ⟨key, values⟩ := entry
    unfold pushEntry
    by_cases hKey : name = key
    · exact ⟨values, entries.flatMap Prod.snd, rfl, by simp [hKey]⟩
    · by_cases hBefore : name < key
      · exact ⟨[], values ++ entries.flatMap Prod.snd, rfl, by simp [hKey, hBefore]⟩
      · obtain ⟨before, after, hEntries, hPushed⟩ := ih
        refine ⟨values ++ before, after, ?_, ?_⟩
        · rw [List.flatMap_cons, hEntries, List.append_assoc]
        · rw [if_neg hKey, if_neg hBefore, List.flatMap_cons, hPushed, List.append_assoc]

/-- The form owns the staged parts. -/
def Owns (form : MultipartForm) (staged : List StagedPart) : Prop :=
  form.owned = staged.map StagedPart.file

theorem Owns.pushFile {form : MultipartForm} {staged : List StagedPart} (h : Owns form staged)
    (name : String) (part : Part) (path : Path) :
    ∃ staged', Owns (form.pushFile name (part.uploaded path)) staged' ∧
      ((part, path) :: staged).Perm staged' := by
  obtain ⟨before, after, hOwned, hPushed⟩ :=
    flatMap_pushEntry name (part.uploaded path) form.fileFields
  have hSplit : staged.map StagedPart.file = before ++ after := h.symm.trans hOwned
  obtain ⟨first, second, rfl, rfl, rfl⟩ := List.map_eq_append_iff.mp hSplit
  refine ⟨first ++ (part, path) :: second, ?_, List.perm_middle.symm⟩
  unfold Owns
  rw [List.map_append, List.map_cons]
  exact hPushed

/-! ## Dropping a form -/

theorem drop_leads {s : Files} {staged : List StagedPart} {t : Disk} (h : Holds s staged t.files) :
    ((staged.map StagedPart.file).forM UploadedFile.drop).Leads uploadEffects (fun history _ u =>
      begun history = 0 ∧ (u.files = s ↔ FailsOnlyOpening history) ∧
        ∀ path, path ∉ staged.map Prod.snd → u.files path = t.files path) t := by
  induction staged generalizing s t with
  | nil => exact ⟨rfl, iff_of_true (holds_nil.mp h) failsOnlyOpening_nil, fun _ _ => rfl⟩
  | cons x staged ih =>
    obtain ⟨hOther, hDistinct⟩ := List.nodup_cons.mp h.distinct
    have hNe : ∀ y ∈ staged, y.2 ≠ x.2 := fun y hy hEq => hOther (hEq ▸ List.mem_map_of_mem hy)
    refine Proc.leads_bind.mpr ?_
    rintro u result ⟨hRemove, -⟩
    cases result with
    | ok _ =>
      obtain ⟨-, hRemoved⟩ := hRemove
      have hRest : Holds s staged u.files := by
        refine ⟨hDistinct, fun y hy => h.fresh y (List.mem_cons_of_mem _ hy), ?_, ?_⟩
        · intro y hy
          rw [hRemoved, Function.update_of_ne (hNe y hy)]
          exact h.content y (List.mem_cons_of_mem _ hy)
        · intro path hPath
          by_cases hFirst : path = x.2
          · rw [hRemoved, hFirst, Function.update_self]
            exact (h.fresh x (List.mem_cons_self ..)).symm
          · rw [hRemoved, Function.update_of_ne hFirst]
            exact h.others path (by simpa [hFirst] using hPath)
      change ((staged.map StagedPart.file).forM UploadedFile.drop).Leads uploadEffects _ u
      refine Proc.leads_mono (ih hRest) ?_
      rintro history _ v ⟨hBegun, hKept, hOthers⟩
      refine ⟨hBegun, ?_, ?_⟩
      · rw [hKept]
        exact (failsOnlyOpening_cons.trans (and_iff_right (failsOnlyOpening_ok _))).symm
      · intro path hPath
        rw [List.map_cons, List.mem_cons, not_or] at hPath
        rw [hOthers path hPath.2, hRemoved, Function.update_of_ne hPath.1]
    | error e =>
      have hSame : u.files = t.files := hRemove
      -- The file that is still there belongs to no other handle.
      have hRest : Holds (Function.update s x.2 (some x.1.chunks.flatten)) staged u.files := by
        rw [hSame]
        refine ⟨hDistinct, ?_, fun y hy => h.content y (List.mem_cons_of_mem _ hy), ?_⟩
        · intro y hy
          rw [Function.update_of_ne (hNe y hy)]
          exact h.fresh y (List.mem_cons_of_mem _ hy)
        · intro path hPath
          by_cases hFirst : path = x.2
          · rw [hFirst, Function.update_self]
            exact h.content x (List.mem_cons_self ..)
          · rw [Function.update_of_ne hFirst]
            exact h.others path (by simpa [hFirst] using hPath)
      change ((staged.map StagedPart.file).forM UploadedFile.drop).Leads uploadEffects _ u
      refine Proc.leads_mono (ih hRest) ?_
      rintro history _ v ⟨hBegun, -, hOthers⟩
      refine ⟨hBegun, iff_of_false ?_ ?_, ?_⟩
      · intro hCleaned
        have hLeft := hOthers x.2 hOther
        rw [hSame, h.content x (List.mem_cons_self ..), hCleaned,
          h.fresh x (List.mem_cons_self ..)] at hLeft
        cases hLeft
      · intro hOpening
        exact absurd (hOpening _ e (List.mem_cons_self ..)) (by simp [FileCall.opens])
      · intro path hPath
        rw [List.map_cons, List.mem_cons, not_or] at hPath
        rw [hOthers path hPath.2, hSame]

/-! ## The loop over the parts -/

/-- The file parts begun are complete and within the limit. -/
def Settles (limit : Nat) : List Part → Nat → Nat → Prop
  | [], _, _ => True
  | part :: parts, received, n =>
    n = 0 ∨
      if part.fileName.isSome then
        part.complete = true ∧ ∃ total, receiveAll limit received part.chunks = .ok total ∧
          Settles limit parts total (n - 1)
      else ∀ value total, readText limit part received = .ok (value, total) →
        Settles limit parts total n

theorem settles_zero (limit : Nat) (parts : List Part) (received : Nat) :
    Settles limit parts received 0 := by
  cases parts with
  | nil => trivial
  | cons part parts => exact .inl rfl

theorem settles_file {limit received total n : Nat} {part : Part} {parts : List Part}
    (hFile : part.fileName.isSome = true) (hComplete : part.complete = true)
    (hReceived : receiveAll limit received part.chunks = .ok total) :
    Settles limit (part :: parts) received (1 + n) ↔ Settles limit parts total n := by
  rw [Settles, or_iff_right (by omega), if_pos hFile, Nat.add_sub_cancel_left, hReceived]
  constructor
  · rintro ⟨-, total', hTotal, hRest⟩
    rwa [Except.ok.inj hTotal]
  · intro hRest
    exact ⟨hComplete, total, rfl, hRest⟩

theorem settles_text {limit received total n : Nat} {part : Part} {parts : List Part} {value : String}
    (hText : ¬ part.fileName.isSome = true)
    (hRead : readText limit part received = .ok (value, total)) :
    Settles limit (part :: parts) received n ↔ Settles limit parts total n := by
  rw [Settles, if_neg hText, hRead]
  constructor
  · rintro (rfl | hRest)
    · exact settles_zero ..
    · exact hRest value total rfl
  · intro hRest
    refine .inr fun value' total' hSame => ?_
    cases hSame
    exact hRest

/-- How one part can end. -/
inductive PartOutcome (limit received : Nat) (part : Part) (form : MultipartForm) (s : Disk) :
    History UploadReply → Except HttpException (MultipartForm × Nat) → Disk → Prop
  | staged {history : History UploadReply} {name : String} {path : Path} {total : Nat} {t : Disk}
      (hFile : part.fileName.isSome = true) (hNew : s.files path = none)
      (hFiles : t.files = Function.update s.files path (some part.chunks.flatten))
      (hComplete : part.complete = true)
      (hReceived : receiveAll limit received part.chunks = .ok total)
      (hOpening : FailsOnlyOpening history) (hBegun : begun history = 1) :
      PartOutcome limit received part form s history
        (.ok (form.pushFile name (part.uploaded path), total)) t
  | text {name value : String} {total : Nat} (hText : ¬ part.fileName.isSome = true)
      (hRead : readText limit part received = .ok (value, total)) :
      PartOutcome limit received part form s [] (.ok (form.pushText name value, total)) s
  | refused {history : History UploadReply} {e : HttpException} {t : Disk}
      (hFiles : t.files = s.files) (hOpening : FailsOnlyOpening history)
      (hBegun : begun history = 0) :
      PartOutcome limit received part form s history (.error e) t
  | interrupted {history : History UploadReply} {e : HttpException} {path : Path} {t : Disk}
      {left : Bytes} (hFile : part.fileName.isSome = true) (hNew : s.files path = none)
      (hFiles : t.files = Function.update s.files path (some left)) (hBegun : begun history = 1)
      (hFault : ¬ (FailsOnlyOpening history ∧ part.Arrives limit received)) :
      PartOutcome limit received part form s history (.error e) t

theorem parsePart_outcome {config : UploadConfig} {limit received : Nat} {part : Part}
    {form : MultipartForm} {s : Disk} :
    (parsePart config limit part form received).run.Leads uploadEffects
      (PartOutcome limit received part form s) s := by
  unfold parsePart
  cases hName : part.name with
  | none => exact .refused rfl failsOnlyOpening_nil rfl
  | some name =>
    by_cases hFile : part.fileName.isSome
    · simp only [hFile, if_true]
      refine Proc.leads_bind_except.mpr (Proc.leads_mono stagePart_outcome ?_)
      intro history r t h
      cases h with
      | staged hNew hFiles hComplete hReceived hOpening hBegun =>
        rename_i path total
        have hHandle : part.uploaded path = ⟨name, part.fileName, part.contentType, part.headers,
            part.chunks.flatten.length, some path⟩ := by
          rw [Part.uploaded, hName]
          rfl
        rw [← List.append_nil history] at hOpening hBegun
        have hStaged : PartOutcome limit received part form s (history ++ [])
            (.ok (form.pushFile name (part.uploaded path), total)) t :=
          .staged hFile hNew hFiles hComplete hReceived hOpening hBegun
        rw [hHandle] at hStaged
        exact hStaged
      | refused hFiles hOpening hBegun => exact .refused hFiles hOpening hBegun
      | interrupted hNew hFiles hBegun hFault => exact .interrupted hFile hNew hFiles hBegun hFault
    · simp only [hFile]
      cases hRead : readText limit part received with
      | error e => exact .refused rfl failsOnlyOpening_nil rfl
      | ok x => exact .text hFile hRead

/-- The file parts of a body. -/
def fileParts (parts : List Part) : List Part := parts.filter fun part => part.fileName.isSome

theorem fileParts_snoc (parts : List Part) (part : Part) :
    fileParts (parts ++ [part]) = fileParts parts ++ if part.fileName.isSome then [part] else [] := by
  unfold fileParts
  rw [List.filter_append, List.filter_cons, List.filter_nil]

/-- Nothing remains of a failed parse; after a parse that succeeds the files are those the
form owns, one for each file part, with its data. -/
def OnlyOwnedFiles (parts : List Part) (s : Files) (r : Except HttpException MultipartForm)
    (t : Files) : Prop :=
  match r with
  | .ok form => ∃ staged, Owns form staged ∧ (staged.map Prod.fst).Perm (fileParts parts) ∧
      Holds s staged t
  | .error _ => t = s

/-- No write, flush or removal fails, and the file parts begun are complete and within the
limit. -/
def StagesCleanly (limit : Nat) (parts : List Part) (received : Nat)
    (history : History UploadReply) : Prop :=
  FailsOnlyOpening history ∧ Settles limit parts received (begun history)

theorem drop_form {s : Files} {staged : List StagedPart} {form : MultipartForm}
    (hOwns : Owns form staged) {t : Disk} (h : Holds s staged t.files) :
    form.drop.Leads uploadEffects (fun history _ u =>
      begun history = 0 ∧ (u.files = s ↔ FailsOnlyOpening history) ∧
        ∀ path, path ∉ staged.map Prod.snd → u.files path = t.files path) t := by
  unfold MultipartForm.drop
  rw [hOwns]
  exact drop_leads h

/-- The rest of a parse, from a form that owns what the parts before have staged. -/
theorem parseParts_leads {config : UploadConfig} {limit : Nat} {complete : Bool} {s₀ : Files}
    (before parts : List Part) {form : MultipartForm} {received : Nat} {s : Disk}
    {staged : List StagedPart} (hOwns : Owns form staged)
    (hParts : (staged.map Prod.fst).Perm (fileParts before)) (hHolds : Holds s₀ staged s.files) :
    (parseParts config limit complete parts form received).Leads uploadEffects (fun history r t =>
      match r with
      | .ok _ => StagesCleanly limit parts received history ∧
          OnlyOwnedFiles (before ++ parts) s₀ r t.files
      | .error _ => t.files = s₀ ↔ StagesCleanly limit parts received history) s := by
  induction parts generalizing before form received s staged with
  | nil =>
    rw [List.append_nil]
    cases complete with
    | true => exact ⟨⟨failsOnlyOpening_nil, trivial⟩, staged, hOwns, hParts, hHolds⟩
    | false =>
      refine Proc.leads_bind.mpr (Proc.leads_mono (drop_form hOwns hHolds) ?_)
      rintro history _ t ⟨-, hCleaned, -⟩
      refine hCleaned.trans ?_
      rw [List.append_nil]
      exact (and_iff_left trivial).symm
  | cons part parts ih =>
    refine Proc.leads_bind.mpr (Proc.leads_mono parsePart_outcome ?_)
    intro history r t h
    cases h with
    | @staged _ name path total _ hFile hNew hFiles hComplete hReceived hOpening hBegun =>
      obtain ⟨staged', hOwns', hPerm⟩ := hOwns.pushFile name part path
      have hParts' : (staged'.map Prod.fst).Perm (fileParts (before ++ [part])) := by
        rw [fileParts_snoc, if_pos hFile]
        exact ((hPerm.map Prod.fst).symm.trans (hParts.cons part)).trans
          (List.perm_append_singleton part _).symm
      have hHolds' := (hHolds.stage hNew hFiles).perm hPerm
      refine Proc.leads_mono (ih (before ++ [part]) hOwns' hParts' hHolds') ?_
      intro later r u h
      have hClean : StagesCleanly limit (part :: parts) received (history ++ later) ↔
          StagesCleanly limit parts total later := by
        rw [StagesCleanly, failsOnlyOpening_append, and_iff_right hOpening, begun_append, hBegun,
          settles_file hFile hComplete hReceived]
        rfl
      rw [List.append_assoc, List.singleton_append] at h
      cases r with
      | ok form' => exact ⟨hClean.mpr h.1, h.2⟩
      | error e => exact h.trans hClean.symm
    | @text name value total hText hRead =>
      have hParts' : (staged.map Prod.fst).Perm (fileParts (before ++ [part])) := by
        rw [fileParts_snoc, if_neg (by simp [hText]), List.append_nil]
        exact hParts
      have hOwns' : Owns (form.pushText name value) staged := hOwns
      refine Proc.leads_mono (ih (before ++ [part]) hOwns' hParts' hHolds) ?_
      intro later r u h
      have hClean : StagesCleanly limit (part :: parts) received later ↔
          StagesCleanly limit parts total later := by
        rw [StagesCleanly, settles_text hText hRead]
        rfl
      rw [List.append_assoc, List.singleton_append] at h
      cases r with
      | ok form' => exact ⟨hClean.mpr h.1, h.2⟩
      | error e => exact h.trans hClean.symm
    | refused hFiles hOpening hBegun =>
      refine Proc.leads_bind.mpr (Proc.leads_mono (drop_form hOwns (hFiles ▸ hHolds)) ?_)
      rintro later _ u ⟨hNone, hCleaned, -⟩
      refine hCleaned.trans ?_
      rw [List.append_nil, StagesCleanly, failsOnlyOpening_append, begun_append, hBegun, hNone]
      rw [and_iff_right hOpening, and_iff_left (settles_zero ..)]
    | @interrupted _ e path t left hFile hNew hFiles hBegun hFault =>
      have hOther := hHolds.unclaimed hNew
      have hFree : s₀ path = none := (hHolds.others path hOther).symm.trans hNew
      -- The unfinished file belongs to no handle, so the drop of the form leaves it.
      have hLeft := hHolds.leave hNew hFiles
      refine Proc.leads_bind.mpr (Proc.leads_mono (drop_form hOwns hLeft) ?_)
      rintro later _ u ⟨hNone, -, hOthers⟩
      refine iff_of_false ?_ ?_
      · intro hCleaned
        have hKept := hOthers path hOther
        rw [hFiles, Function.update_self, hCleaned, hFree] at hKept
        cases hKept
      · rintro ⟨hOpening, hSettles⟩
        rw [List.append_nil] at hOpening hSettles
        rw [begun_append, hBegun, hNone, Settles, or_iff_right (by omega), if_pos hFile] at hSettles
        obtain ⟨hComplete, total, hReceived, -⟩ := hSettles
        exact hFault ⟨(failsOnlyOpening_append.mp hOpening).1, hComplete, total, hReceived⟩

/-! ## Every parse -/

section Parse

variable {parseBoundary : String → Option String} {multipart : String → Bytes → Multipart}
  {contentType : String} {body : Bytes} {config : UploadConfig} {limit : Nat} {s t : Disk}

/-- The parts found in a body; none when there is no valid boundary. -/
def bodyParts (parseBoundary : String → Option String) (multipart : String → Bytes → Multipart)
    (contentType : String) (body : Bytes) : List Part :=
  match parseBoundary contentType with
  | none => []
  | some boundary => (multipart boundary body).parts

theorem parse_leads : (MultipartForm.parse parseBoundary multipart contentType body config
    limit).Leads uploadEffects (fun history r t =>
      OnlyOwnedFiles (bodyParts parseBoundary multipart contentType body) s.files r t.files ↔
        StagesCleanly limit (bodyParts parseBoundary multipart contentType body) 0 history) s := by
  unfold MultipartForm.parse bodyParts
  cases parseBoundary contentType with
  | none => exact iff_of_true rfl ⟨failsOnlyOpening_nil, trivial⟩
  | some boundary =>
    by_cases hLarge : limit < body.length
    · simp only [if_pos hLarge]
      exact iff_of_true rfl ⟨failsOnlyOpening_nil, settles_zero ..⟩
    · simp only [if_neg hLarge]
      refine Proc.leads_bind.mpr (leads_storage.mpr ?_)
      intro files x hCreate
      obtain rfl : files = s.files := by cases x <;> exact hCreate
      cases x with
      | error e =>
        exact iff_of_true rfl ⟨failsOnlyOpening_error.mpr rfl, settles_zero ..⟩
      | ok _ =>
        have hOwns : Owns .default [] := rfl
        have hHolds : Holds s.files [] s.files := holds_nil.mpr rfl
        refine Proc.leads_mono (parseParts_leads [] _ hOwns (.refl _) hHolds) ?_
        intro history r t h
        have hClean : ∀ parts, StagesCleanly limit parts 0
            ([⟨.file (.createDirAll config.tempDir), .ok ()⟩] ++ history) ↔
              StagesCleanly limit parts 0 history := by
          intro parts
          rw [StagesCleanly, failsOnlyOpening_append, and_iff_right (failsOnlyOpening_ok _),
            begun_append]
          exact iff_of_eq (congrArg (fun n => _ ∧ Settles limit parts 0 n) (Nat.zero_add _))
        refine Iff.trans ?_ (hClean _).symm
        cases r with
        | ok form => exact iff_of_true h.2 h.1
        | error e => exact h

/-- For every body, limit and behaviour of the file system: a failed parse leaves the files as
they were, and a successful one adds exactly the files its form owns, each with the data of
its part, if and only if no write, flush or removal fails and each file part that is begun is
complete and within the limit. -/
theorem parse_iff {history : History UploadReply} {r : Except HttpException MultipartForm}
    (hRun : (MultipartForm.parse parseBoundary multipart contentType body config limit).Traced
      uploadEffects s history r t) :
    OnlyOwnedFiles (bodyParts parseBoundary multipart contentType body) s.files r t.files ↔
      StagesCleanly limit (bodyParts parseBoundary multipart contentType body) 0 history :=
  hRun.leads parse_leads

end Parse

/-! ## A body of one file -/

def uploads : UploadConfig := ⟨"/tmp/caelix-uploads"⟩

def emptyDisk : Disk := ⟨fun _ => none, 7, 0⟩

/-- The path of the first file that is staged, at nanosecond 1. -/
def firstPath : Path :=
  join uploads.tempDir
    ("upload-" ++ toString (7 : Nat) ++ "-" ++ toString (0 : Nat) ++ "-" ++ toString (1 : Nat))

def reportPart (chunks : List Bytes) (complete : Bool) : Part :=
  ⟨some "report", some "report.pdf", none, [], chunks, complete⟩

def partText (text : String) : Bytes :=
  ("--b\r\nContent-Disposition: form-data; name=\"report\"; filename=\"report.pdf\"\r\n\r\n" ++
    text).toUTF8.toList

def boundaryOf (_ : String) : Option String := some "b"

/-- What is found in a body that holds one file of two bytes. -/
def onePart (_ : String) (_ : Bytes) : Multipart := ⟨[reportPart [[111, 107]] true], true⟩

/-- What is found in a body that ends within the data of its only file. -/
def truncatedPart (_ : String) (_ : Bytes) : Multipart := ⟨[reportPart [] false], true⟩

theorem parse_iff_onePart : ∃ history form t,
    (MultipartForm.parse boundaryOf onePart "multipart/form-data; boundary=b"
      (partText "ok\r\n--b--\r\n") uploads 1000).Traced uploadEffects emptyDisk history (.ok form) t ∧
    OnlyOwnedFiles [reportPart [[111, 107]] true] emptyDisk.files (.ok form) t.files := by
  let created := Function.update emptyDisk.files firstPath (some [])
  let written := Function.update created firstPath (some [111, 107])
  let form := MultipartForm.default.pushFile "report"
    ((reportPart [[111, 107]] true).uploaded firstPath)
  have hFits : ¬ 1000 < (partText "ok\r\n--b--\r\n").length := by decide +kernel
  have hWritten : Rewrites firstPath (fun old new => new = old ++ [111, 107]) created written := by
    unfold Rewrites
    rw [show created firstPath = some [] from Function.update_self ..]
    exact ⟨_, rfl, rfl⟩
  have hRun : (MultipartForm.parse boundaryOf onePart "multipart/form-data; boundary=b"
      (partText "ok\r\n--b--\r\n") uploads 1000).Traced uploadEffects emptyDisk
      [⟨.file (.createDirAll "/tmp/caelix-uploads"), .ok ()⟩, ⟨.fetchAddUploadId, (0 : Nat)⟩,
        ⟨.processId, (7 : Nat)⟩, ⟨.nanosSinceEpoch, (1 : Nat)⟩, ⟨.file (.createNew firstPath), .ok ()⟩,
        ⟨.file (.writeAll firstPath [111, 107]), .ok ()⟩, ⟨.file (.flush firstPath), .ok ()⟩]
      (.ok form) ⟨written, 7, 1⟩ := by
    simp only [MultipartForm.parse, boundaryOf, if_neg hFits]
    refine .call (t := emptyDisk) ⟨rfl, rfl⟩ ?_
    refine .call (t := Disk.mk emptyDisk.files 7 1) ⟨rfl, rfl⟩ ?_
    refine .call (t := Disk.mk emptyDisk.files 7 1) ⟨rfl, rfl⟩ ?_
    refine .call (t := Disk.mk emptyDisk.files 7 1) rfl ?_
    refine .call (t := Disk.mk created 7 1) ⟨⟨rfl, rfl⟩, rfl⟩ ?_
    refine .call (t := Disk.mk written 7 1) ⟨hWritten, rfl⟩ ?_
    exact .call (t := Disk.mk written 7 1) ⟨rfl, rfl⟩ (.done _ _)
  refine ⟨_, _, _, hRun, (parse_iff hRun).mpr ⟨?_, ?_⟩⟩
  · intro c e he
    simp at he
  · exact .inr ⟨rfl, 2, rfl, trivial⟩

/-- A body that ends within its file: the parse is an error and the file stays on disk. -/
theorem parse_truncated : ∃ history e t,
    (MultipartForm.parse boundaryOf truncatedPart "multipart/form-data; boundary=b"
      (partText "ok") uploads 1000).Traced uploadEffects emptyDisk history (.error e) t ∧
    emptyDisk.files firstPath = none ∧ t.files firstPath = some [] := by
  let created := Function.update emptyDisk.files firstPath (some [])
  have hFits : ¬ 1000 < (partText "ok").length := by decide +kernel
  have hRun : (MultipartForm.parse boundaryOf truncatedPart "multipart/form-data; boundary=b"
      (partText "ok") uploads 1000).Traced uploadEffects emptyDisk
      [⟨.file (.createDirAll "/tmp/caelix-uploads"), .ok ()⟩, ⟨.fetchAddUploadId, (0 : Nat)⟩,
        ⟨.processId, (7 : Nat)⟩, ⟨.nanosSinceEpoch, (1 : Nat)⟩, ⟨.file (.createNew firstPath), .ok ()⟩]
      (.error malformedBody) ⟨created, 7, 1⟩ := by
    simp only [MultipartForm.parse, boundaryOf, if_neg hFits]
    refine .call (t := emptyDisk) ⟨rfl, rfl⟩ ?_
    refine .call (t := Disk.mk emptyDisk.files 7 1) ⟨rfl, rfl⟩ ?_
    refine .call (t := Disk.mk emptyDisk.files 7 1) ⟨rfl, rfl⟩ ?_
    refine .call (t := Disk.mk emptyDisk.files 7 1) rfl ?_
    exact .call (t := Disk.mk created 7 1) ⟨⟨rfl, rfl⟩, rfl⟩ (.done _ _)
  have hLeft : created firstPath = some [] := Function.update_self ..
  exact ⟨_, _, _, hRun, rfl, hLeft⟩

end Caelix
