import SceneScript.Command.Runner
import SceneScript.Proofs.Files.Tree
import SceneScript.Proofs.Traversal

/-!
# What a failing command leaves behind

A command computes everything before it writes anything, so what can still fail is the writing, and
the printing after it. It writes its files one after the other and takes nothing back: an ingestion
that cannot write its second or third file leaves those in front of it
(`RunnerArguments.Interrupted`), and a command whose last line is not printed leaves all of them
(`RunnerArguments.Unprinted`). A script is encoded only when its file is open: if it has no
encoding, the file is not what it was (`RunnerArguments.Emptied`).

`runTexts` has no texts without an encoding, and everything that it prints is printed. `CanLeave`
adds what there is beside it: with a scene file that escapes a surrogate without its partner, a
command can come to anything that its task allows.

Main statement: there is nothing else. A command line whose exit code is not zero changes no file,
but for these cases (`exit_or_files`).
-/

namespace SceneScript.Command

open Files (Tree Target locationText)
open Files.Tree (overwrite)

/-! ## Writing -/

/-- Files as what is written to them. -/
def ready (files : List (Target × List UInt8)) : List (Target × Content) :=
  files.map fun w => (w.1, .bytes w.2)

theorem map_fst_ready (files : List (Target × List UInt8)) :
    (ready files).map Prod.fst = files.map Prod.fst := by
  simp [ready]

/-- Bytes are written; writing anything else, or bytes that cannot be written, changes no file or
empties the one of a text that has no encoding. -/
theorem put_cases (t : Tree) (path : Target) (content : Content) :
    (∃ bytes t', content = .bytes bytes ∧ t.write path bytes = (.ok (), t') ∧
      put t path content = (.ok (), t')) ∨
    ∃ f t', put t path content = (.error f, t') ∧ (t'.files = t.files ∨
      (∃ words, content = .broken words) ∧
        t'.files = t.files.insert (locationText path.place) []) := by
  cases content with
  | bytes bytes =>
    rcases t.write_cases path bytes with ⟨t', hwrite, -⟩ | ⟨e, t', hwrite, hgrown⟩
    · exact .inl ⟨bytes, t', rfl, hwrite, by rw [put, hwrite]; rfl⟩
    · exact .inr ⟨.file e, t', by rw [put, hwrite]; rfl, .inl hgrown.files⟩
  | missing cause =>
    have hgrown := Tree.grown_makeDirectory t path.parent
    rcases hmake : t.makeDirectory path.parent with ⟨e | _, t'⟩
    · rw [hmake] at hgrown
      exact .inr ⟨.file e, t', by rw [put, hmake], .inl hgrown.files⟩
    · rw [hmake] at hgrown
      exact .inr ⟨.number cause, t', by rw [put, hmake], .inl hgrown.files⟩
  | broken words =>
    rcases t.write_cases path [] with ⟨t', hwrite, hfiles, -⟩ | ⟨e, t', hwrite, hgrown⟩
    · exact .inr ⟨.unencodable words, t', by rw [put, hwrite], .inr ⟨⟨words, rfl⟩, hfiles⟩⟩
    · exact .inr ⟨.file e, t', by rw [put, hwrite], .inl hgrown.files⟩

/-- Some files are written one after the other: all of them, or those in front of the first that
fails. -/
theorem putAll_cases (t : Tree) (writes : List (Target × Content)) :
    (∃ files t', writes = ready files ∧ t.writeAll files = (.ok (), t') ∧
      putAll t writes = (.ok (), t')) ∨
    ∃ done path content rest f t₁ t', writes = ready done ++ (path, content) :: rest ∧
      t.writeAll done = (.ok (), t₁) ∧ put t₁ path content = (.error f, t') ∧
      putAll t writes = (.error f, t') := by
  induction writes generalizing t with
  | nil => exact .inl ⟨[], t, rfl, rfl, rfl⟩
  | cons w writes ih =>
    obtain ⟨path, content⟩ := w
    rcases put_cases t path content with ⟨bytes, t₀, rfl, hwrite, hput⟩ | ⟨f, t', hput, -⟩
    · have hputAll : putAll t ((path, .bytes bytes) :: writes) = putAll t₀ writes := by
        rw [putAll, hput]
      have hwriteAll : ∀ files, t.writeAll ((path, bytes) :: files) = t₀.writeAll files :=
        fun files => by rw [Tree.writeAll, hwrite]
      rcases ih t₀ with ⟨files, t', rfl, hfiles, hall⟩ |
        ⟨done, path', content', rest, f, t₁, t', rfl, hdone, hfail, hall⟩
      · exact .inl ⟨(path, bytes) :: files, t', rfl, (hwriteAll _).trans hfiles,
          hputAll.trans hall⟩
      · exact .inr ⟨(path, bytes) :: done, path', content', rest, f, t₁, t', rfl,
          (hwriteAll _).trans hdone, hfail, hputAll.trans hall⟩
    · refine .inr ⟨[], path, content, writes, f, t, t', rfl, rfl, hput, ?_⟩
      rw [putAll, hput]

/-! ## Plans -/

/-- The paths to which a task writes, in the order in which it does. -/
def Task.outputs : Task → List String
  | .generate _ out | .regenerate _ _ out => [out]
  | .ingest _ out _ decisionsOut? regenerateOut? =>
    out :: decisionsOut?.toList ++ regenerateOut?.toList

/-- The path to which a task writes a script. -/
def Task.scriptOut? : Task → Option String
  | .generate _ out | .regenerate _ _ out => some out
  | .ingest _ _ _ _ regenerateOut? => regenerateOut?

/-- That some paths are written to, in their order, with texts that all have an encoding. -/
def WritesTo (paths : List Target) (writes : List (Target × Content)) : Prop :=
  writes.map Prod.fst = paths ∧ ∀ w ∈ writes, ∀ words, w.2 ≠ .broken words

section Plans

variable {t : Tree} {scene script out : Target} {writes : List (Target × Content)}
  {lines : List String}

theorem target_of_usable {path path' : Target} (h : Tree.usable path = .ok path') :
    path' = path := by
  unfold Tree.usable at h
  split at h
  · cases h
  · exact (Except.ok.inj h).symm

theorem writesTo_ofText (path : Target) (s : List Char) : WritesTo [path] [(path, .ofText s)] :=
  ⟨rfl, List.forall_mem_singleton.2 nofun⟩

theorem Content.ofJson_ne_broken (v : Json) (words : String) :
    Content.ofJson v ≠ .broken words := by
  unfold ofJson
  split <;> nofun

theorem writesTo_of_planGenerate (h : planGenerate t scene out = .ok (.perform writes lines)) :
    WritesTo [out] writes := by
  obtain ⟨loaded, -, h⟩ := bind_eq_ok.1 h
  split at h
  · cases h
  · obtain ⟨out', hout, h⟩ := bind_eq_ok.1 h
    obtain ⟨script, -, h⟩ := bind_eq_ok.1 h
    cases h
    obtain rfl := target_of_usable (mapError_eq_ok.1 hout)
    exact writesTo_ofText out' script

theorem writesTo_of_planRegenerate
    (h : planRegenerate t scene script out = .ok (.perform writes lines)) :
    WritesTo [out] writes := by
  obtain ⟨loaded, -, h⟩ := bind_eq_ok.1 h
  split at h
  · cases h
  · obtain ⟨previous, -, h⟩ := bind_eq_ok.1 h
    obtain ⟨out', hout, h⟩ := bind_eq_ok.1 h
    obtain ⟨patched, -, h⟩ := bind_eq_ok.1 h
    cases h
    obtain rfl := target_of_usable (mapError_eq_ok.1 hout)
    exact writesTo_ofText out' patched

theorem writesTo_of_planSession {σ : Type} {time : String} {targets : IngestTargets}
    {session : Session σ} (h : planSession time targets session = .ok (.perform writes lines)) :
    WritesTo (targets.out :: targets.decisionsOut?.toList ++ targets.regenerateOut?.toList)
      writes := by
  obtain ⟨found, -, h⟩ := bind_eq_ok.1 h
  split at h
  · cases h
    constructor
    · cases targets.decisionsOut? <;> cases targets.regenerateOut? <;> rfl
    · intro w hw words
      rw [List.cons_append, List.mem_cons, List.mem_append] at hw
      simp only [Option.mem_toList, Option.map_eq_some_iff] at hw
      rcases hw with rfl | ⟨path, -, rfl⟩ | ⟨path, -, rfl⟩
      · exact Content.ofJson_ne_broken _ _
      · exact Content.ofJson_ne_broken _ _
      · nofun
  · cases h

/-- The refusal of a scene file writes nothing. -/
theorem baseScene_ne_perform {scene? : Option Target} :
    baseScene t scene? ≠ .ok (.inl (.perform writes lines)) := by
  intro h
  unfold baseScene at h
  split at h
  · cases h
  · obtain ⟨loaded, -, h⟩ := map_eq_ok.1 h
    cases loaded <;> cases h

theorem writesTo_of_planIngest {env : Environment} {config : EditorConfig}
    {scene? : Option Target} {targets : IngestTargets}
    (h : planIngest env config t scene? targets = .ok (.perform writes lines)) :
    WritesTo (targets.out :: targets.decisionsOut?.toList ++ targets.regenerateOut?.toList)
      writes := by
  obtain ⟨base, hbase, h⟩ := bind_eq_ok.1 h
  split at h
  · cases h
    exact absurd hbase baseScene_ne_perform
  · obtain ⟨text, -, h⟩ := bind_eq_ok.1 h
    dsimp only at h
    split at h
    · cases h
    · exact writesTo_of_planSession h

/-- A task writes to its outputs. -/
theorem writesTo_of_plan {env : Environment} {config : EditorConfig} {task : Task}
    (h : task.plan env config t = .ok (.perform writes lines)) :
    WritesTo (task.outputs.map (Target.resolved env.base)) writes := by
  cases task with
  | generate scene out => exact writesTo_of_planGenerate h
  | regenerate scene script out => exact writesTo_of_planRegenerate h
  | ingest script out scene? decisionsOut? regenerateOut? =>
    have hwrites := writesTo_of_planIngest h
    cases decisionsOut? <;> cases regenerateOut? <;> exact hwrites

end Plans

/-! ## What can be left behind -/

/-- That a task allows a plan, whatever the texts in its files: the plan writes to the outputs of
the task, in their order, and no text but a script has no encoding. -/
def Task.Allows (task : Task) (env : Environment) (plan : Except Failure Plan) : Prop :=
  ∀ writes lines, plan = .ok (.perform writes lines) →
    writes.map Prod.fst = task.outputs.map (Target.resolved env.base) ∧
      ∀ path words, (path, Content.broken words) ∈ writes →
        path ∈ task.scriptOut?.map (Target.resolved env.base)

namespace RunnerArguments

variable {a : RunnerArguments} {env : Environment} {t : Tree} {plan : Except Failure Plan}
  {writes : List (Target × Content)} {lines : List String}

/-- What a command can come to do: what is computed or, with a scene file that escapes a surrogate
without its partner, anything that its task allows. -/
inductive CanPlan (a : RunnerArguments) (env : Environment) (t : Tree) :
    Except Failure Plan → Prop
  | computed : a.CanPlan env t (a.plan env t)
  | unpaired {plan : Except Failure Plan}
      (hunpaired : a.plan env t = .error (.json .unpairedSurrogate))
      (hallows : a.task.Allows env plan) : a.CanPlan env t plan

theorem CanPlan.targets (h : a.CanPlan env t plan) (hplan : plan = .ok (.perform writes lines)) :
    writes.map Prod.fst = a.task.outputs.map (Target.resolved env.base) := by
  cases h with
  | computed =>
    obtain ⟨config, -, htask⟩ := bind_eq_ok.1 hplan
    exact (writesTo_of_plan htask).1
  | unpaired hunpaired hallows => exact (hallows _ _ hplan).1

/-- Only a surrogate without its partner takes the encoding from a text, and only from a script. -/
theorem CanPlan.broken (h : a.CanPlan env t plan) (hplan : plan = .ok (.perform writes lines))
    {path : Target} {words : String} (hmem : (path, Content.broken words) ∈ writes) :
    a.plan env t = .error (.json .unpairedSurrogate) ∧
      path ∈ a.task.scriptOut?.map (Target.resolved env.base) := by
  cases h with
  | computed =>
    obtain ⟨config, -, htask⟩ := bind_eq_ok.1 hplan
    exact absurd rfl ((writesTo_of_plan htask).2 _ hmem words)
  | unpaired hunpaired hallows => exact ⟨hunpaired, (hallows _ _ hplan).2 path words hmem⟩

/-- That a command is interrupted between the files that it writes: some of them are written in
full, the next one cannot be, and no other file has changed. -/
structure Interrupted (a : RunnerArguments) (env : Environment) (t : Tree) (r : Report)
    (done : List (Target × List UInt8)) (path : Target) (content : Content)
    (rest : List (Target × Content)) : Prop where
  /-- What is to be written has been computed, to the last file. -/
  plan : ∃ lines, a.CanPlan env t (.ok (.perform (ready done ++ (path, content) :: rest) lines))
  /-- It is written to the outputs of the task, in their order. -/
  outputs : done.map Prod.fst ++ path :: rest.map Prod.fst =
    a.task.outputs.map (Target.resolved env.base)
  /-- Something is written. -/
  started : done ≠ []
  /-- The next file cannot be written to the tree that this leaves, which is what is reported. -/
  failed : ∃ t₁ f t₂, t.writeAll done = (.ok (), t₁) ∧ put t₁ path content = (.error f, t₂) ∧
    r = failed f t₂
  /-- Nothing else has changed. -/
  files : r.files.files = overwrite t.files done

/-- One output is either written or not, so what is interrupted is an ingestion. -/
theorem Interrupted.exists_ingest {r : Report} {done : List (Target × List UInt8)} {path : Target}
    {content : Content} {rest : List (Target × Content)}
    (h : a.Interrupted env t r done path content rest) :
    ∃ script out scene? decisionsOut? regenerateOut?,
      a.task = .ingest script out scene? decisionsOut? regenerateOut? := by
  have hseveral : 2 ≤ a.task.outputs.length := by
    have hlength := congrArg List.length h.outputs
    have hdone := List.length_pos_iff.2 h.started
    simp only [List.length_append, List.length_map, List.length_cons] at hlength
    omega
  cases htask : a.task with
  | generate scene out | regenerate scene script out => simp [htask, Task.outputs] at hseveral
  | ingest script out scene? decisionsOut? regenerateOut? =>
    exact ⟨script, out, scene?, decisionsOut?, regenerateOut?, rfl⟩

/-- That a command has opened the file of a script that has no encoding. Nothing is said of what is
in that file afterwards. -/
structure Emptied (a : RunnerArguments) (env : Environment) (t : Tree) (r : Report)
    (done : List (Target × List UInt8)) (path : Target) : Prop where
  /-- What is to be written has been computed. -/
  plan : ∃ content rest lines,
    a.CanPlan env t (.ok (.perform (ready done ++ (path, content) :: rest) lines))
  /-- A scene file escapes a surrogate without its partner. -/
  unpaired : a.plan env t = .error (.json .unpairedSurrogate)
  /-- The file is that of a script. -/
  script : path ∈ a.task.scriptOut?.map (Target.resolved env.base)
  /-- The files in front of it are written. -/
  outputs : ∃ rest, done.map Prod.fst ++ path :: rest =
    a.task.outputs.map (Target.resolved env.base)
  /-- No other file has changed. -/
  files : ∀ name ≠ locationText path.place,
    r.files.files.get? name = (overwrite t.files done).get? name

/-- That a command has written all its files, but does not print what it says about them. -/
structure Unprinted (a : RunnerArguments) (env : Environment) (t : Tree) (r : Report)
    (done : List (Target × List UInt8)) : Prop where
  /-- What is to be written has been computed. -/
  plan : ∃ lines, a.CanPlan env t (.ok (.perform (ready done) lines))
  /-- It is written to the outputs of the task. -/
  outputs : done.map Prod.fst = a.task.outputs.map (Target.resolved env.base)
  /-- It is written in full, and nothing else has changed. -/
  files : r.files.files = overwrite t.files done

/-- How a command can end with files that it has written, and an exit code that is not zero. -/
inductive LeavesFiles (a : RunnerArguments) (env : Environment) (t : Tree) (r : Report) : Prop
  /-- It is an ingestion with several files, and interrupted between them. -/
  | interrupted {done : List (Target × List UInt8)} {path : Target} {content : Content}
      {rest : List (Target × Content)}
      (hingest : ∃ script out scene? decisionsOut? regenerateOut?,
        a.task = .ingest script out scene? decisionsOut? regenerateOut?)
      (h : a.Interrupted env t r done path content rest)
  /-- It has written all its files. -/
  | unprinted {done : List (Target × List UInt8)} (h : a.Unprinted env t r done)
  /-- It comes to a script that has no encoding. -/
  | emptied {done : List (Target × List UInt8)} {path : Target} (h : a.Emptied env t r done path)

/-- What a command leaves behind that writes all its files. -/
theorem carryOut_of_putAll {t' : Tree} (h : putAll t writes = (.ok (), t')) :
    carryOut (.ok (.perform writes lines)) t = ⟨0, String.join lines, "", t'⟩ := by
  simp only [carryOut, h]

/-- What a command leaves behind that cannot write one of its files. -/
theorem carryOut_of_putAll_error {t' : Tree} {f : Failure} (h : putAll t writes = (.error f, t')) :
    carryOut (.ok (.perform writes lines)) t = failed f t' := by
  simp only [carryOut, h]

/-- A command that cannot write one of its files changes no file, or leaves those in front of it, or
has emptied that of a script. -/
theorem files_or_leavesFiles {done : List (Target × List UInt8)} {path : Target}
    {content : Content} {rest : List (Target × Content)} {f : Failure} {t₁ t₂ : Tree} {r : Report}
    (hplan : a.CanPlan env t (.ok (.perform (ready done ++ (path, content) :: rest) lines)))
    (hdone : t.writeAll done = (.ok (), t₁)) (hfail : put t₁ path content = (.error f, t₂))
    (hreport : r = failed f t₂) : r.files.files = t.files ∨ a.LeavesFiles env t r := by
  have hwritten : t₁.files = overwrite t.files done := (Tree.written_of_writeAll hdone).files
  have hout : done.map Prod.fst ++ path :: rest.map Prod.fst =
      a.task.outputs.map (Target.resolved env.base) := by
    have htargets := hplan.targets rfl
    rwa [List.map_append, map_fst_ready, List.map_cons] at htargets
  rcases put_cases t₁ path content with ⟨_, _, -, -, hput⟩ |
    ⟨_, _, hput, hsame | ⟨⟨words, rfl⟩, hempty⟩⟩
  · cases hput.symm.trans hfail
  · obtain ⟨-, rfl⟩ := Prod.mk.inj (hput.symm.trans hfail)
    have hfiles : r.files.files = overwrite t.files done := by
      rw [hreport]
      exact hsame.trans hwritten
    by_cases hnil : done = []
    · subst hnil
      exact .inl hfiles
    · have hinterrupted : a.Interrupted env t r done path content rest :=
        ⟨⟨lines, hplan⟩, hout, hnil, ⟨t₁, f, _, hdone, hfail, hreport⟩, hfiles⟩
      exact .inr (.interrupted hinterrupted.exists_ingest hinterrupted)
  · obtain ⟨-, rfl⟩ := Prod.mk.inj (hput.symm.trans hfail)
    have hmem : (path, Content.broken words) ∈ ready done ++ (path, .broken words) :: rest := by
      simp
    obtain ⟨hunpaired, hscript⟩ := hplan.broken rfl hmem
    have hemptied : a.Emptied env t r done path := by
      refine ⟨⟨_, rest, lines, hplan⟩, hunpaired, hscript, ⟨_, hout⟩, fun name hname => ?_⟩
      rw [hreport, ← hwritten]
      exact hempty ▸ Table.get?_insert_of_ne _ _ hname
    exact .inr (.emptied hemptied)

/-- A command that is carried out with an exit code that is not zero changes no file, unless it is
interrupted or comes to a script that has no encoding. -/
theorem exit_or_leavesFiles (hplan : a.CanPlan env t plan) :
    (carryOut plan t).exit = 0 ∨ (carryOut plan t).files.files = t.files ∨
      a.LeavesFiles env t (carryOut plan t) := by
  cases plan with
  | error f => exact .inr (.inl rfl)
  | ok plan =>
    cases plan with
    | refuse lines => exact .inr (.inl rfl)
    | perform writes lines =>
      rcases putAll_cases t writes with ⟨files, t', rfl, -, hall⟩ |
        ⟨done, path, content, rest, f, t₁, t₂, rfl, hdone, hfail, hall⟩
      · left
        rw [carryOut_of_putAll hall]
      · exact .inr (files_or_leavesFiles hplan hdone hfail (carryOut_of_putAll_error hall))

end RunnerArguments

/-- What a command line can leave behind. Most of it is `runTexts`; beside that there are scene
files that escape a surrogate without its partner, and lines that are not printed because they have
no encoding where they go. -/
inductive CanLeave (texts : List String) (env : Environment) (t : Tree) : Report → Prop
  | computed : CanLeave texts env t (runTexts texts env t)
  | unpaired {a : RunnerArguments} {plan : Except Failure Plan}
      (ha : RunnerArguments.ofTexts texts = .ok a)
      (hunpaired : a.plan env t = .error (.json .unpairedSurrogate))
      (hallows : a.task.Allows env plan) :
      CanLeave texts env t (RunnerArguments.carryOut plan t)
  | unprinted {a : RunnerArguments} {writes : List (Target × Content)} {lines : List String}
      {t' : Tree} (ha : RunnerArguments.ofTexts texts = .ok a)
      (hplan : a.CanPlan env t (.ok (.perform writes lines)))
      (hwrites : putAll t writes = (.ok (), t')) (out words : String) :
      CanLeave texts env t ⟨2, out, RunnerArguments.failureLine (.unencodable words), t'⟩

/-- Where a command runs that reads the files of a small tree. -/
def smallEnvironment : Environment where
  base := ["w"]
  schemaPath := "scene.schema.json"
  time := ""
  ids := IdSource.ofGiven []
  readYaml _ _ := .ok (.json .null)

/-- A tree of an empty script and a directory. -/
def smallTree : Tree := Tree.ofFiles [[], ["w"], ["w", "d"]] [(["w", "f.lua"], [])]

/-- A command line whose exit code is not zero changes no file, unless it is an ingestion with
several files that is interrupted between them, it has written all its files and cannot print, or it
comes to a script that has no encoding. -/
theorem exit_or_files {texts : List String} {env : Environment} {t : Tree} {r : Report}
    (h : CanLeave texts env t r) :
    r.exit = 0 ∨ r.files.files = t.files ∨
      ∃ a, RunnerArguments.ofTexts texts = .ok a ∧ a.LeavesFiles env t r := by
  cases h with
  | computed =>
    rw [runTexts]
    cases ha : RunnerArguments.ofTexts texts with
    | error refusal => exact .inr (.inl (by cases refusal <;> rfl))
    | ok a =>
      exact (RunnerArguments.exit_or_leavesFiles .computed).imp_right (.imp_right (⟨a, rfl, ·⟩))
  | @unpaired a plan ha hunpaired hallows =>
    exact (RunnerArguments.exit_or_leavesFiles (.unpaired hunpaired hallows)).imp_right
      (.imp_right (⟨a, ha, ·⟩))
  | @unprinted a writes lines t' ha hplan hwrites out words =>
    rcases putAll_cases t writes with ⟨files, t₁, rfl, hall, hput⟩ |
      ⟨_, _, _, _, _, _, _, -, -, -, hput⟩
    · obtain rfl := (Prod.mk.inj (hput.symm.trans hwrites)).2
      exact .inr (.inr ⟨a, ha, .unprinted ⟨⟨lines, hplan⟩,
        (map_fst_ready files).symm.trans (hplan.targets rfl),
        (Tree.written_of_writeAll hall).files⟩⟩)
    · cases hput.symm.trans hwrites

/-- A scene of one text, which is an escaped surrogate without its partner. -/
def unpairedScene : String :=
  "\x7b\"schema_version\": \"1.0.0\", \"root_order\": [\"a\"], \"elements\": \x7b\"a\": " ++
    "\x7b\"id\": \"a\", \"type\": \"text\", \"name\": \"a\", \"x\": 0, \"y\": 0, \"w\": 9, " ++
    "\"h\": 9, \"props\": \x7b\"text\": \"\\ud800\"\x7d\x7d\x7d, \"selection\": []\x7d"

/-- A tree of that scene. -/
def unpairedTree : Tree :=
  Tree.ofFiles [[], ["w"]] [(["w", "s.json"], bytesOf unpairedScene.toList)]

/-- The script of the scene in that file is written. -/
def unpairedScript : List String := ["generate", "--scene", "s.json", "--out", "f.lua"]

/-- What this comes to if the script has no encoding. -/
def unpairedPlan : Except Failure Plan :=
  .ok (.perform [(Target.resolved ["w"] "f.lua", .broken "surrogates not allowed")] [])

/-- The script has no encoding, and its file is not what it was. -/
theorem exit_or_files_unpairedTree :
    ∃ a, RunnerArguments.ofTexts unpairedScript = .ok a ∧
      a.plan smallEnvironment unpairedTree = .error (.json .unpairedSurrogate) ∧
      a.task.Allows smallEnvironment unpairedPlan ∧
      (RunnerArguments.carryOut unpairedPlan unpairedTree).exit = 2 ∧
      a.LeavesFiles smallEnvironment unpairedTree
        (RunnerArguments.carryOut unpairedPlan unpairedTree) := by
  have ha : RunnerArguments.ofTexts unpairedScript = .ok ⟨none, .generate "s.json" "f.lua"⟩ := by
    decide +kernel
  have hplan : RunnerArguments.plan ⟨none, .generate "s.json" "f.lua"⟩ smallEnvironment
      unpairedTree = .error (.json .unpairedSurrogate) := by
    have hcause : (match RunnerArguments.plan ⟨none, .generate "s.json" "f.lua"⟩ smallEnvironment
        unpairedTree with | .error f => some f | .ok _ => none) =
          some (.json .unpairedSurrogate) := by
      decide +kernel
    split at hcause
    next f hfails => rw [hfails, Option.some.inj hcause]
    next => cases hcause
  have hallows : (Task.generate "s.json" "f.lua").Allows smallEnvironment unpairedPlan := by
    rintro writes lines ⟨⟩
    exact ⟨rfl, by simp [Task.scriptOut?, smallEnvironment]⟩
  have hleft : (RunnerArguments.carryOut unpairedPlan unpairedTree).exit = 2 ∧
      (RunnerArguments.carryOut unpairedPlan unpairedTree).files.files.keys =
        ["w/s.json", "w/f.lua"] := by
    decide +kernel
  rcases exit_or_files (.unpaired ha hplan hallows) with hexit | hfiles | ⟨a, ha', hleaves⟩
  · rw [hleft.1] at hexit
    cases hexit
  · rw [hfiles] at hleft
    exact absurd hleft.2 (by decide +kernel)
  · obtain rfl := Except.ok.inj (ha.symm.trans ha')
    exact ⟨_, ha, hplan, hallows, hleft.1, hleaves⟩

/-- The script is read, the scene is written, and the decisions cannot be. -/
def halfWritten : List String :=
  ["ingest", "--script", "f.lua", "--out", "s.json", "--decisions-out", "d"]

/-- Not every command line whose exit code is not zero changes no file. -/
theorem not_forall_files : ¬ ∀ (texts : List String) (env : Environment) (t : Tree),
    (runTexts texts env t).exit ≠ 0 → (runTexts texts env t).files.files = t.files := by
  intro hall
  have hrun : (runTexts halfWritten smallEnvironment smallTree).exit = 2 ∧
      (runTexts halfWritten smallEnvironment smallTree).files.files.keys =
        ["w/f.lua", "w/s.json"] := by
    decide +kernel
  have hfiles := hall halfWritten smallEnvironment smallTree (by rw [hrun.1]; decide)
  rw [hfiles] at hrun
  exact absurd hrun.2 (by decide +kernel)

end SceneScript.Command
