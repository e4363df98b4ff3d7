import Mathlib.Data.List.Infix
import Caelix.Cli.Generate

/-!
# How the commands end

Every execution of `caelix new` and `caelix generate` does what its plan says, or stops at the
first call that fails, or changes nothing at all because the plan refuses.

* `Outcome`: these endings, for a plan, with the calls that may have changed the tree.
* `Fresh`: the files of a plan are different ones and missing (`fresh_new`, `fresh_feature`).
* `ends_next`: a file of the plan is written, with those before it.
* `text_command_outcome`: the commands end as their plans say, and keep all that was there.
-/

namespace Caelix

namespace Cli

open Interaction WordCase

/-! ## Nodes -/

namespace Nodes

variable {node : Nodes} {path dir : ProjectPath} {contents : String}
  {files : List (ProjectPath × String)}

/-- The files one after the other. -/
def writeFiles (node : Nodes) (files : List (ProjectPath × String)) : Nodes :=
  files.foldl (fun node file => node.writeFile file.1 file.2) node

@[simp] theorem writeFiles_nil : node.writeFiles [] = node := rfl

theorem writeFiles_append (node : Nodes) (files files' : List (ProjectPath × String)) :
    node.writeFiles (files ++ files') = (node.writeFiles files).writeFiles files' :=
  List.foldl_append

theorem writeFile_same : node.writeFile path contents path = some (.file contents) :=
  Function.update_self ..

theorem writeFile_ne {other : ProjectPath} (h : other ≠ path) :
    node.writeFile path contents other = node other := Function.update_of_ne h ..

theorem writeFiles_of_notMem (h : path ∉ files.map Prod.fst) :
    node.writeFiles files path = node path := by
  induction files generalizing node with
  | nil => rfl
  | cons file files ih =>
    rw [List.map_cons, List.mem_cons, not_or] at h
    have hLater : node.writeFiles (file :: files) =
        (node.writeFile file.1 file.2).writeFiles files := rfl
    rw [hLater, ih h.2, writeFile_ne h.1]

theorem makeDirs_outside (h : ¬ path <+: dir) : node.makeDirs dir path = node path :=
  if_neg fun hMissing => h hMissing.2

theorem makeDirs_of_some (h : node path ≠ none) : node.makeDirs dir path = node path :=
  if_neg fun hMissing => h hMissing.1

end Nodes

/-! ## Endings -/

/-- The nodes when the first files of a plan have been written. -/
def Plan.reached (plan : Plan) (node : Nodes) (done : List (ProjectPath × String)) : Nodes :=
  (node.makeDirs plan.dir).writeFiles done

/-- The calls that have made the directory of a plan and its first files. -/
def Plan.called (plan : Plan) (done : List (ProjectPath × String)) : History TreeReply :=
  ⟨.createDirAll plan.dir, .ok ()⟩ :: done.map fun file => ⟨.write file.1 file.2, .ok ()⟩

/-- The calls of an execution that may have changed the tree. -/
def changes (history : History TreeReply) : History TreeReply :=
  history.filter fun e => e.1.changes

/-- The file that is in the making is missing, or has some contents. -/
def Partly (node : Nodes) (path : ProjectPath) (node' : Nodes) : Prop :=
  node' = node ∨ ∃ left, node' = node.writeFile path left

/-- What the files of a plan are before the command. -/
structure Plan.Fresh (plan : Plan) (node : Nodes) : Prop where
  nodup : (plan.files.map Prod.fst).Nodup
  missing : ∀ path ∈ plan.files.map Prod.fst, node path = none
  outside : ∀ path ∈ plan.files.map Prod.fst, ¬ path <+: plan.dir

/-- The result of a command, the nodes at its end and the calls that may have changed them. -/
inductive Outcome (node : Nodes) (plan : Except CommandError Plan) :
    Except CommandError String → Nodes → History TreeReply → Prop
  | refused {e : CommandError} (h : plan = .error e) : Outcome node plan (.error e) node []
  | written {p : Plan} (h : plan = .ok p) (hFresh : p.Fresh node) :
      Outcome node plan (.ok p.output) (p.reached node p.files) (p.called p.files)
  | dirFailed {p : Plan} {made : ProjectPath} {source : IoError} (h : plan = .ok p)
      (hMade : made <+: p.dir) :
      Outcome node plan (.error (.io p.dir source)) (node.makeDirs made)
        [⟨.createDirAll p.dir, .error source⟩]
  | fileFailed {p : Plan} {done later : List (ProjectPath × String)} {path : ProjectPath}
      {contents : String} {source : IoError} {node' : Nodes} (h : plan = .ok p)
      (hFresh : p.Fresh node)
      (hFiles : p.files = done ++ (path, contents) :: later)
      (hPartly : Partly (p.reached node done) path node') :
      Outcome node plan (.error (.io path source)) node'
        (p.called done ++ [⟨.write path contents, .error source⟩])

/-! ## Calls -/

/-- A tree, with the calls so far that may have changed it. -/
abbrev Worked := ProjectTree × History TreeReply

abbrev workedEffects : Effects Worked TreeCall TreeReply :=
  Proc.recording treeEffects TreeCall.changes

variable {s : ProjectTree} {t : Worked} {α : Type} {p : Plan}

theorem ends_lift {x : Except CliError α} {Q : Except CommandError α → Worked → Prop} :
    Proc.Ends workedEffects (lift x) Q t ↔ Q (x.mapError .cli) t := Iff.rfl

/-- A call that only looks at the tree. -/
theorem ends_look {c : TreeCall} {value : TreeReply c} (hChanges : c.changes = false)
    (hLook : ∀ u r, treeEffects t.1 c u r ↔ r = value ∧ u = t.1)
    {Q : Except CommandError (TreeReply c) → Worked → Prop} :
    Proc.Ends workedEffects (Proc.ask c) Q t ↔ Q (.ok value) t := by
  have hDone : ∀ r, ([Sigma.mk c r].filter fun e => e.1.changes) = ([] : History TreeReply) :=
    fun _ => List.filter_cons_of_neg (Bool.eq_false_iff.mp hChanges)
  rw [Proc.ends_ask]
  constructor
  · refine fun h => h t value ⟨(hLook _ _).mpr ⟨rfl, rfl⟩, ?_⟩
    rw [hDone, List.append_nil]
  · rintro h u r ⟨hEffect, hWorked⟩
    obtain ⟨rfl, hTree⟩ := (hLook _ _).mp hEffect
    rw [hDone, List.append_nil] at hWorked
    obtain rfl : u = t := Prod.ext hTree hWorked
    exact h

theorem ends_pathExists {path : ProjectPath} {Q : Except CommandError Bool → Worked → Prop} :
    Proc.Ends workedEffects (Proc.ask (TreeCall.pathExists path)) Q t ↔
      Q (.ok (t.1.node path).isSome) t := ends_look rfl fun _ _ => Iff.rfl

theorem ends_isFile {path : ProjectPath} {Q : Except CommandError Bool → Worked → Prop} :
    Proc.Ends workedEffects (Proc.ask (TreeCall.isFile path)) Q t ↔
      Q (.ok (t.1.node.isFile path)) t := ends_look rfl fun _ _ => Iff.rfl

theorem ends_ensureMissing {path : ProjectPath} {Q : Except CommandError Unit → Worked → Prop} :
    Proc.Ends workedEffects (ensureMissing path) Q t ↔
      Q (if t.1.node path = none then .ok () else .error (.cli (.alreadyExists path))) t := by
  rw [ensureMissing, Proc.ends_bind, ends_pathExists]
  dsimp only
  rw [ends_lift]
  cases hNode : t.1.node path <;> simp [Caelix.ensureMissing, Except.mapError]

theorem ends_ensureMissing_bind {path : ProjectPath} {g : Unit → TreeRoutine α}
    {Q : Except CommandError α → Worked → Prop}
    (hMissing : t.1.node path = none → Proc.Ends workedEffects (g ()) Q t)
    (hFound : t.1.node path ≠ none → Q (.error (.cli (.alreadyExists path))) t) :
    Proc.Ends workedEffects (ensureMissing path >>= g) Q t := by
  rw [Proc.ends_bind, ends_ensureMissing]
  by_cases hNode : t.1.node path = none
  · rw [if_pos hNode]
    exact hMissing hNode
  · rw [if_neg hNode]
    exact hFound hNode

theorem ends_createDirAll {dir : ProjectPath} {Q : Except CommandError Unit → Worked → Prop}
    (hOk : ∀ u : Worked, u.1.node = t.1.node.makeDirs dir →
      u.2 = t.2 ++ [⟨.createDirAll dir, .ok ()⟩] → Q (.ok ()) u)
    (hError : ∀ (u : Worked) made source, made <+: dir → u.1.node = t.1.node.makeDirs made →
      u.2 = t.2 ++ [⟨.createDirAll dir, .error source⟩] → Q (.error (.io dir source)) u) :
    Proc.Ends workedEffects (createDirAll dir) Q t := by
  rw [createDirAll, Proc.ends_bind, Proc.ends_ask]
  rintro u r ⟨hCall, hDone⟩
  cases r with
  | ok _ => exact hOk u hCall.2 hDone
  | error source =>
    obtain ⟨made, hMade, hNode⟩ := hCall
    exact hError u made source hMade hNode hDone

theorem ends_createFile {path : ProjectPath} {contents : String}
    {Q : Except CommandError Unit → Worked → Prop} (hMissing : t.1.node path = none)
    (hOk : ∀ u : Worked, u.1.node = t.1.node.writeFile path contents →
      u.2 = t.2 ++ [⟨.write path contents, .ok ()⟩] → Q (.ok ()) u)
    (hError : ∀ (u : Worked) source, Partly t.1.node path u.1.node →
      u.2 = t.2 ++ [⟨.write path contents, .error source⟩] → Q (.error (.io path source)) u) :
    Proc.Ends workedEffects (createFile path contents) Q t := by
  rw [createFile, Proc.ends_bind, ends_ensureMissing, if_pos hMissing]
  show Proc.Ends workedEffects (Proc.ask (TreeCall.write path contents) >>= _) Q t
  rw [Proc.ends_bind, Proc.ends_ask]
  rintro u r ⟨hCall, hDone⟩
  cases r with
  | ok _ => exact hOk u hCall.2 hDone
  | error source =>
    refine hError u source ?_ hDone
    rcases hCall with hSame | ⟨left, -, hLeft⟩
    · exact .inl hSame
    · exact .inr ⟨left, hLeft⟩

/-! ## The files of a plan -/

/-- Before the file at hand is written there is nothing at its path. -/
theorem Plan.Fresh.missing_next (h : p.Fresh s.node) {done later : List (ProjectPath × String)}
    {path : ProjectPath} {contents : String} (hFiles : p.files = done ++ (path, contents) :: later) :
    p.reached s.node done path = none := by
  have hMem : path ∈ p.files.map Prod.fst := by
    rw [hFiles]
    simp
  have hNodup := h.nodup
  rw [hFiles, List.map_append, List.nodup_append] at hNodup
  have hDone : path ∉ done.map Prod.fst := fun hDone =>
    hNodup.2.2 path hDone path (by simp) rfl
  rw [Plan.reached, Nodes.writeFiles_of_notMem hDone,
    Nodes.makeDirs_outside (h.outside path hMem), h.missing path hMem]

/-- The directory and the first files of a plan are made, and nothing else has been tried. -/
def Plan.At (p : Plan) (node : Nodes) (done : List (ProjectPath × String)) (t : Worked) : Prop :=
  t.1.node = p.reached node done ∧ t.2 = p.called done

theorem Plan.At.of_notMem {done : List (ProjectPath × String)} {path : ProjectPath}
    (ht : p.At s.node done t) (hDone : path ∉ done.map Prod.fst) (hDir : ¬ path <+: p.dir) :
    t.1.node path = s.node path := by
  rw [ht.1, Plan.reached, Nodes.writeFiles_of_notMem hDone, Nodes.makeDirs_outside hDir]

/-- What a command must have come to that began with this tree. -/
def Plan.Ended (plan : Except CommandError Plan) (s : ProjectTree) (r : Except CommandError String)
    (t : Worked) : Prop := Outcome s.node plan r t.1.node t.2

theorem ends_next (h : p.Fresh s.node) (done : List (ProjectPath × String))
    {later : List (ProjectPath × String)} {path : ProjectPath} {contents : String}
    (hFiles : p.files = done ++ (path, contents) :: later)
    (ht : p.At s.node done t) {g : Unit → TreeRoutine String}
    (hNext : ∀ u, p.At s.node (done ++ [(path, contents)]) u →
      Proc.Ends workedEffects (g ()) (Plan.Ended (.ok p) s) u) :
    Proc.Ends workedEffects (createFile path contents >>= g) (Plan.Ended (.ok p) s) t := by
  obtain ⟨hNode, hCalled⟩ := ht
  rw [Proc.ends_bind]
  refine ends_createFile (by rw [hNode, h.missing_next hFiles]) ?_ ?_
  · intro u hu hDone
    refine hNext u ⟨?_, ?_⟩
    · rw [hu, hNode, Plan.reached, Plan.reached, Nodes.writeFiles_append]
      rfl
    · rw [hDone, hCalled, Plan.called, Plan.called, List.map_append]
      rfl
  · intro u source hPartly hDone
    rw [hNode] at hPartly
    rw [hCalled] at hDone
    show Outcome s.node (.ok p) _ u.1.node u.2
    rw [hDone]
    exact .fileFailed rfl h hFiles hPartly

theorem ends_output (h : p.Fresh s.node) {done : List (ProjectPath × String)}
    (ht : p.At s.node done t) (hFiles : p.files = done) {output : String}
    (hOutput : p.output = output) :
    Proc.Ends workedEffects (pure output : TreeRoutine String) (Plan.Ended (.ok p) s) t := by
  obtain ⟨hNode, hCalled⟩ := ht
  refine (Proc.ends_pure ..).mpr ?_
  subst hFiles hOutput
  show Outcome s.node (.ok p) _ t.1.node t.2
  rw [hNode, hCalled]
  exact .written rfl h

/-- The directory of a plan comes first. -/
theorem ends_dir {g : Unit → TreeRoutine String}
    (hNext : ∀ t, p.At s.node [] t → Proc.Ends workedEffects (g ()) (Plan.Ended (.ok p) s) t) :
    Proc.Ends workedEffects (createDirAll p.dir >>= g) (Plan.Ended (.ok p) s) (s, []) := by
  rw [Proc.ends_bind]
  refine ends_createDirAll (fun u hu hDone => hNext u ⟨hu, hDone⟩) ?_
  intro u made source hMade hu hDone
  show Outcome s.node (.ok p) _ u.1.node u.2
  rw [hu, hDone]
  exact .dirFailed rfl hMade

/-! ## Features -/

theorem not_prefix_join (dir : ProjectPath) (name : String) : ¬ dir.join name <+: dir := by
  intro h
  have hLength := h.length_le
  rw [ProjectPath.join, List.length_append] at hLength
  simp at hLength

theorem join_inj {dir : ProjectPath} {name name' : String} (h : dir.join name = dir.join name') :
    name = name' := by
  simpa [ProjectPath.join] using h

theorem fresh_feature {node : Nodes} {dir : ProjectPath} {files : List (String × String)}
    {instructions : String} (hNodup : (files.map Prod.fst).Nodup)
    (hMissing : ∀ name ∈ files.map Prod.fst, node (dir.join name) = none) :
    (Plan.feature dir files instructions).Fresh node := by
  have hPaths : (Plan.feature dir files instructions).files.map Prod.fst =
      (files.map Prod.fst).map dir.join := by
    rw [Plan.feature, List.map_map, List.map_map]
    rfl
  refine ⟨?_, ?_, ?_⟩
  · rw [hPaths]
    exact hNodup.map fun _ _ => join_inj
  · rw [hPaths, List.forall_mem_map]
    exact hMissing
  · rw [hPaths, List.forall_mem_map]
    exact fun name _ => not_prefix_join dir name

/-- One file of a feature, and its `mod.rs` if that is missing. -/
theorem ends_feature {dir : ProjectPath} {name contents modContents instructions : String}
    {output : List ProjectPath → String} (hName : name ≠ "mod.rs")
    (hMissing : s.node (dir.join name) = none)
    (hOutput : ∀ paths, output paths = createdFiles paths ++ "\n\n" ++ instructions) :
    Proc.Ends workedEffects (do
      createDirAll dir
      createFile (dir.join name) contents
      let found ← Proc.ask (TreeCall.pathExists (dir.join "mod.rs"))
      let created ← if !found then do
          createFile (dir.join "mod.rs") modContents
          pure [dir.join name, dir.join "mod.rs"]
        else pure [dir.join name]
      return output created)
      (Plan.Ended (.ok (Plan.feature dir ((name, contents) ::
        if s.node (dir.join "mod.rs") = none then [("mod.rs", modContents)] else [])
        instructions)) s) (s, []) := by
  have hOther : dir.join "mod.rs" ≠ dir.join name := fun hSame => hName (join_inj hSame).symm
  by_cases hMod : s.node (dir.join "mod.rs") = none
  · rw [if_pos hMod]
    have hFresh : (Plan.feature dir [(name, contents), ("mod.rs", modContents)] instructions).Fresh
        s.node := fresh_feature (by simpa using hName) (by simpa using ⟨hMissing, hMod⟩)
    refine ends_dir fun t ht => ends_next hFresh [] rfl ht fun t ht => ?_
    rw [Proc.ends_bind, ends_pathExists,
      ht.of_notMem (by simpa using hOther) (not_prefix_join dir _), hMod]
    refine ends_next hFresh _ rfl ht fun t ht => ?_
    exact ends_output hFresh ht rfl (hOutput _).symm
  · rw [if_neg hMod]
    have hFresh : (Plan.feature dir [(name, contents)] instructions).Fresh s.node :=
      fresh_feature (by simp) (by simpa using hMissing)
    refine ends_dir fun t ht => ends_next hFresh [] rfl ht fun t ht => ?_
    rw [Proc.ends_bind, ends_pathExists,
      ht.of_notMem (by simpa using hOther) (not_prefix_join dir _),
      Option.isSome_iff_ne_none.mpr hMod]
    exact ends_output hFresh ht rfl (hOutput _).symm

variable {cwd : ProjectPath} {feature : FeatureName}

theorem ends_generateService : Proc.Ends workedEffects (generateService feature cwd)
    (Plan.Ended ((Plan.service s.node cwd feature).mapError .cli) s) (s, []) := by
  unfold generateService Plan.service
  extract_lets dir servicePath modPath
  refine ends_ensureMissing_bind (fun hService => ?_) fun hService => ?_
  · rw [if_neg (not_not.mpr hService)]
    exact ends_feature (by decide) hService fun _ => rfl
  · rw [if_pos hService]
    exact .refused rfl

/-- The note comes after the instructions. -/
theorem append_note (hasService : Bool) (created instructions note : String) :
    (if !hasService then created ++ instructions ++ note else created ++ instructions) =
      created ++ (instructions ++ if hasService then "" else note) := by
  cases hasService with
  | false => exact String.append_assoc
  | true => exact congrArg (created ++ ·) (String.append_empty).symm

theorem ends_generateController : Proc.Ends workedEffects (generateController feature cwd)
    (Plan.Ended ((Plan.controller s.node cwd feature).mapError .cli) s) (s, []) := by
  unfold generateController Plan.controller
  extract_lets dir servicePath controllerPath modPath hasService kind note
  rw [Proc.ends_bind, ends_pathExists]
  refine ends_ensureMissing_bind (fun hController => ?_) fun hController => ?_
  · rw [if_neg (not_not.mpr hController)]
    exact ends_feature (by decide) hController fun paths => append_note hasService _ _ _
  · rw [if_pos hController]
    exact .refused rfl

theorem ends_generateModule : Proc.Ends workedEffects (generateModule feature cwd)
    (Plan.Ended ((Plan.module s.node cwd feature).mapError .cli) s) (s, []) := by
  unfold generateModule Plan.module Plan.moduleFiles
  extract_lets dir modPath servicePath controllerPath
  refine ends_ensureMissing_bind (fun hMod => ?_) fun hMod => ?_
  · rw [List.find?_cons_of_neg (by simpa using hMod)]
    refine ends_ensureMissing_bind (fun hService => ?_) fun hService => ?_
    · rw [List.find?_cons_of_neg (by simpa using hService)]
      refine ends_ensureMissing_bind (fun hController => ?_) fun hController => ?_
      · rw [List.find?_cons_of_neg (by simpa using hController)]
        have hFresh : (Plan.feature dir (Plan.moduleFiles feature) (moduleInstructions feature)).Fresh
            s.node :=
          fresh_feature (by simp [Plan.moduleFiles])
            (by simpa [Plan.moduleFiles] using ⟨hMod, hService, hController⟩)
        refine ends_dir (p := Plan.feature dir (Plan.moduleFiles feature) _) fun t ht => ?_
        refine ends_next hFresh [] rfl ht fun t ht => ?_
        refine ends_next hFresh _ rfl ht fun t ht => ?_
        refine ends_next hFresh _ rfl ht fun t ht => ?_
        exact ends_output hFresh ht rfl rfl
      · rw [List.find?_cons_of_pos (by simpa using hController)]
        exact .refused rfl
    · rw [List.find?_cons_of_pos (by simpa using hService)]
      exact .refused rfl
  · rw [List.find?_cons_of_pos (by simpa using hMod)]
    exact .refused rfl

/-! ## Projects -/

section Heck

variable {renderAgentsMd : String} {tables : CharTables} {heck : Segmentation tables}

theorem children_missing {dir : ProjectPath} (h : s.node dir = none) (name : String) :
    s.node (dir.join name) = none := by
  by_contra hSome
  rw [s.parent dir name hSome] at h
  cases h

theorem fresh_new (renderAgentsMd : String) {dir : ProjectPath} (h : s.node dir = none)
    (names : ProjectNames) (backend : BackendChoice) (output : String) :
    (Plan.mk (dir.join "src") (Plan.projectFiles renderAgentsMd names backend dir) output).Fresh
      s.node := by
  have hSrc := children_missing h "src"
  have hPaths : (Plan.projectFiles renderAgentsMd names backend dir).map Prod.fst =
      ["Cargo.toml", ".gitignore", "AGENTS.md"].map dir.join ++
        ["main.rs", "lib.rs", "app.rs"].map (dir.join "src").join := rfl
  refine ⟨?_, ?_, ?_⟩
  · rw [hPaths]
    simp [ProjectPath.join]
  · rw [hPaths, List.forall_mem_append, List.forall_mem_map, List.forall_mem_map]
    exact ⟨fun name _ => children_missing h name, fun name _ => children_missing hSrc name⟩
  · rw [hPaths, List.forall_mem_append, List.forall_mem_map, List.forall_mem_map]
    refine ⟨?_, fun name _ => not_prefix_join _ name⟩
    simp [ProjectPath.join, List.prefix_append_right_inj]

theorem ends_generateNew {args : NewArgs} :
    Proc.Ends workedEffects (generateNew renderAgentsMd heck args cwd)
      (Plan.Ended ((Plan.new renderAgentsMd heck s.node cwd args).mapError .cli) s) (s, []) := by
  unfold generateNew Plan.new generateNewNames
  rw [Proc.ends_bind, ends_lift]
  cases hName : validateProjectName args.name with
  | error e => exact .refused rfl
  | ok _ =>
    refine ends_ensureMissing_bind (fun hTarget => ?_) fun hTarget => ?_
    · have hFree : Caelix.ensureMissing (fun path => (s.node path).isSome) (cwd.join args.name) =
          .ok () := if_neg (Option.not_isSome_iff_eq_none.mpr hTarget)
      rw [Proc.ends_bind, ends_lift]
      dsimp only [bind, Except.bind]
      rw [hFree]
      cases hPackage : packageNameForPath heck (cwd.join args.name) args.name with
      | error e => exact .refused rfl
      | ok packageName =>
        have hFresh := fresh_new renderAgentsMd hTarget
          ⟨packageName, String.ofList (heck.snake packageName.toList)⟩ args.backend
          (createdApplication packageName (cwd.join args.name))
        refine ends_dir (p := Plan.mk _ _ _) fun t ht => ?_
        refine ends_next hFresh [] rfl ht fun t ht => ?_
        refine ends_next hFresh _ rfl ht fun t ht => ?_
        refine ends_next hFresh _ rfl ht fun t ht => ?_
        refine ends_next hFresh _ rfl ht fun t ht => ?_
        refine ends_next hFresh _ rfl ht fun t ht => ?_
        refine ends_next hFresh _ rfl ht fun t ht => ?_
        exact ends_output hFresh ht rfl rfl
    · have hTaken : Caelix.ensureMissing (fun path => (s.node path).isSome) (cwd.join args.name) =
          .error (.alreadyExists (cwd.join args.name)) :=
        if_pos (Option.isSome_iff_ne_none.mpr hTarget)
      dsimp only [bind, Except.bind]
      rw [hTaken]
      exact .refused rfl

/-- Nothing that was there is changed. -/
theorem Outcome.keeps {node node' : Nodes} {plan : Except CommandError Plan}
    {r : Except CommandError String} {changed : History TreeReply}
    (h : Outcome node plan r node' changed) {path : ProjectPath} (hSome : node path ≠ none) :
    node' path = node path := by
  have hOther : ∀ {p : Plan}, p.Fresh node → path ∉ p.files.map Prod.fst := fun hFresh hMem =>
    hSome (hFresh.missing path hMem)
  cases h with
  | refused _ => rfl
  | written _ hFresh =>
    rw [Plan.reached, Nodes.writeFiles_of_notMem (hOther hFresh), Nodes.makeDirs_of_some hSome]
  | dirFailed _ _ => exact Nodes.makeDirs_of_some hSome
  | @fileFailed p done later file contents source _ _ hFresh hFiles hPartly =>
    have hNotMem := hOther hFresh
    rw [hFiles, List.map_append, List.map_cons, List.mem_append, List.mem_cons, not_or, not_or]
      at hNotMem
    obtain ⟨hDone, hFile, -⟩ := hNotMem
    have hReached : p.reached node done path = node path := by
      rw [Plan.reached, Nodes.writeFiles_of_notMem hDone, Nodes.makeDirs_of_some hSome]
    rcases hPartly with rfl | ⟨left, rfl⟩
    · exact hReached
    · rw [Nodes.writeFile_ne hFile, hReached]

/-- What an execution of a command must have made of the tree, and by which calls. -/
def Command.Ended (renderAgentsMd : String) (heck : Segmentation tables) (command : Command)
    (cwd : ProjectPath) (s : ProjectTree) (r : Except CommandError String) (t : ProjectTree)
    (changed : History TreeReply) : Prop :=
  match command.plan renderAgentsMd heck s.node cwd with
  | some plan => Outcome s.node plan r t.node changed
  | none => t = s ∧ changed = []

theorem ends_ensureCargoManifest {Q : Except CommandError Unit → Worked → Prop} :
    Proc.Ends workedEffects (ensureCargoManifest cwd) Q t ↔
      Q (if t.1.node.isFile (cwd.join "Cargo.toml") then .ok ()
        else .error (.missingCargoManifest (cwd.join "Cargo.toml"))) t := by
  rw [ensureCargoManifest, Proc.ends_bind, ends_isFile]
  cases t.1.node.isFile (cwd.join "Cargo.toml") <;> exact Iff.rfl

/-- A feature name that cannot be parsed refuses the command. -/
theorem ends_feature_name {name : String} {g : FeatureName → TreeRoutine String}
    {plan : FeatureName → Except CliError Plan}
    (h : ∀ feature, Proc.Ends workedEffects (g feature)
      (Plan.Ended ((plan feature).mapError .cli) s) (s, [])) :
    Proc.Ends workedEffects (lift (FeatureName.parse heck name) >>= g)
      (Plan.Ended (((FeatureName.parse heck name).bind plan).mapError .cli) s) (s, []) := by
  rw [Proc.ends_bind, ends_lift]
  cases FeatureName.parse heck name with
  | error e => exact .refused rfl
  | ok feature => exact h feature

theorem ends_runTextCommand (command : Command) :
    Proc.Ends workedEffects (runTextCommand renderAgentsMd heck command cwd)
      (fun r t => command.Ended renderAgentsMd heck cwd s r t.1 t.2) (s, []) := by
  cases command with
  | new args => exact ends_generateNew
  | generate kind =>
    unfold runTextCommand
    rw [Proc.ends_bind, ends_ensureCargoManifest]
    unfold Command.Ended Command.plan
    cases hFile : s.node.isFile (cwd.join "Cargo.toml") with
    | false => exact .refused rfl
    | true =>
      cases kind with
      | service name => exact ends_feature_name fun _ => ends_generateService
      | controller name => exact ends_feature_name fun _ => ends_generateController
      | module name => exact ends_feature_name fun _ => ends_generateModule
  | run appArgs => exact (Proc.ends_pure ..).mpr ⟨rfl, rfl⟩
  | doctor =>
    unfold runTextCommand
    rw [Proc.ends_bind, ends_ensureCargoManifest]
    cases s.node.isFile (cwd.join "Cargo.toml") with
    | false => exact ⟨rfl, rfl⟩
    | true => exact (Proc.ends_pure ..).mpr ⟨rfl, rfl⟩

/-- Every execution of a command ends as its plan says, by the calls that this takes and up to the
first of them that fails, and changes nothing that was there. -/
theorem text_command_outcome {t : ProjectTree} {command : Command} {history : History TreeReply}
    {r : Except CommandError String}
    (h : (runTextCommand renderAgentsMd heck command cwd).run.Traced treeEffects s history r t) :
    command.Ended renderAgentsMd heck cwd s r t (changes history) ∧
      ∀ path, s.node path ≠ none → t.node path = s.node path := by
  have hEnded : command.Ended renderAgentsMd heck cwd s r t (changes history) :=
    (h.recording TreeCall.changes []).leads (ends_runTextCommand command)
  refine ⟨hEnded, fun path hSome => ?_⟩
  unfold Command.Ended at hEnded
  cases hPlan : command.plan renderAgentsMd heck s.node cwd with
  | some plan =>
    rw [hPlan] at hEnded
    exact hEnded.keeps hSome
  | none =>
    rw [hPlan] at hEnded
    rw [hEnded.1]

end Heck

/-! ## A project -/

def entryNodes (entries : List (ProjectPath × TreeNode)) : Nodes := fun path =>
  if path = [] then some .dir else (entries.find? fun entry => entry.1 = path).map Prod.snd

/-- The tree of these entries, whose directories come with them. -/
def ProjectTree.ofEntries (entries : List (ProjectPath × TreeNode))
    (h : ∀ entry ∈ entries, entryNodes entries entry.1.dropLast = some .dir) : ProjectTree where
  node := entryNodes entries
  root := if_pos rfl
  parent path name hSome := by
    rw [entryNodes, if_neg (by simp [ProjectPath.join]), ne_eq, Option.map_eq_none_iff] at hSome
    obtain ⟨entry, hEntry⟩ := Option.ne_none_iff_exists'.mp hSome
    have hPath : entry.1 = path.join name := by simpa using List.find?_some hEntry
    have hParent := h entry (List.mem_of_find?_eq_some hEntry)
    rwa [hPath, ProjectPath.join, List.dropLast_concat] at hParent

def ordersEntries : List (ProjectPath × TreeNode) :=
  [(["Cargo.toml"], .file "[package]\n"), (["src"], .dir), (["src", "orders"], .dir),
    (["src", "orders", "mod.rs"], .file "")]

def ordersTree : ProjectTree := .ofEntries ordersEntries (by decide)

def ordersFeature : FeatureName := ⟨"orders", "orders", "orders", "Orders"⟩

def ordersWritten : ProjectTree :=
  .ofEntries ((["src", "orders", "service.rs"], .file (renderService ordersFeature)) :: ordersEntries)
    (by decide)

def ordersHistory : History TreeReply :=
  [⟨.isFile ["Cargo.toml"], true⟩, ⟨.pathExists ["src", "orders", "service.rs"], false⟩,
    ⟨.createDirAll ["src", "orders"], .ok ()⟩,
    ⟨.pathExists ["src", "orders", "service.rs"], false⟩,
    ⟨.write ["src", "orders", "service.rs"] (renderService ordersFeature), .ok ()⟩,
    ⟨.pathExists ["src", "orders", "mod.rs"], true⟩]

theorem traced_orders :
    (runTextCommand "" latinWords (.generate (.service "orders")) []).run.Traced treeEffects ordersTree
      ordersHistory (.ok (createdFiles [["src", "orders", "service.rs"]] ++ "\n\n" ++
        serviceInstructions ordersFeature)) ordersWritten := by
  have hDirs : ordersTree.node = ordersTree.node.makeDirs ["src", "orders"] := by
    funext path
    refine (ite_eq_right_iff.mpr ?_).symm
    rintro ⟨hMissing, hPrefix⟩
    have hAll : ∀ path ∈ ["src", "orders"].inits, entryNodes ordersEntries path ≠ none := by decide
    exact absurd hMissing (hAll path ((List.mem_inits _ _).mpr hPrefix))
  have hFree : ∀ path, path <+: ["src", "orders"] → ∀ text,
      ordersTree.node path ≠ some (.file text) := by
    intro path hPrefix text
    have hAll : ∀ path ∈ ["src", "orders"].inits, entryNodes ordersEntries path = some .dir := by
      decide
    rw [show ordersTree.node path = some .dir from hAll path ((List.mem_inits _ _).mpr hPrefix)]
    exact fun h => nomatch h
  have hWritten : ordersWritten.node =
      ordersTree.node.writeFile ["src", "orders", "service.rs"] (renderService ordersFeature) := by
    funext path
    by_cases hPath : path = ["src", "orders", "service.rs"]
    · rw [hPath, Nodes.writeFile_same]
      rfl
    · rw [Nodes.writeFile_ne hPath]
      show entryNodes _ path = entryNodes _ path
      unfold entryNodes
      rw [List.find?_cons_of_neg (by simpa using Ne.symm hPath)]
  show Proc.Traced treeEffects (.call (TreeCall.isFile ["Cargo.toml"]) _) _ _ _ _
  refine .call ⟨rfl, rfl⟩ ?_
  show Proc.Traced treeEffects (.call (TreeCall.pathExists ["src", "orders", "service.rs"]) _) _ _ _ _
  refine .call ⟨rfl, rfl⟩ ?_
  show Proc.Traced treeEffects (.call (TreeCall.createDirAll ["src", "orders"]) _) _ _ _ _
  refine .call ⟨hFree, hDirs⟩ ?_
  show Proc.Traced treeEffects (.call (TreeCall.pathExists ["src", "orders", "service.rs"]) _) _ _ _ _
  refine .call ⟨rfl, rfl⟩ ?_
  show Proc.Traced treeEffects (.call (TreeCall.write ["src", "orders", "service.rs"]
    (renderService ordersFeature)) _) _ _ _ _
  refine .call (t := ordersWritten) ⟨(fun h => nomatch h), hWritten⟩ ?_
  show Proc.Traced treeEffects (.call (TreeCall.pathExists ["src", "orders", "mod.rs"]) _) _ _ _ _
  refine .call ⟨rfl, rfl⟩ ?_
  exact .done _ _

theorem text_command_outcome_orders :
    ∃ r, Command.Ended "" latinWords (.generate (.service "orders")) [] ordersTree (.ok r)
      ordersWritten [⟨.createDirAll ["src", "orders"], .ok ()⟩,
        ⟨.write ["src", "orders", "service.rs"] (renderService ordersFeature), .ok ()⟩] ∧
      ordersWritten.node ["src", "orders", "mod.rs"] = some (.file "") := by
  obtain ⟨hEnded, hKept⟩ := text_command_outcome traced_orders
  exact ⟨_, hEnded, hKept _ (by decide)⟩

end Cli

end Caelix
