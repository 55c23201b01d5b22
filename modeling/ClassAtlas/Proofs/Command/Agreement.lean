import ClassAtlas.Command.Run
import ClassAtlas.Proofs.Extraction.Memory
import ClassAtlas.Proofs.Pipeline.Accounting

/-!
# Rendering once and serving

Two commands find the descriptor of a project, one to render it once and one to serve it. Each takes
what was asked for on the command line, or else what the settings file says, or else the default,
and puts it behind the root.

* `Settings.descriptor_of_load`: the descriptor of loaded settings is the one that the document
  gives in its project section, and the default if it gives none or there is no file.
* `Command.render_agrees_with_serve`: both commands fail alike on the settings, or both work with
  the same descriptor; and then the one prints a text exactly if a pipeline that is started with the
  descriptor publishes it as its first snapshot, and prints nothing exactly if that pipeline
  publishes nothing. The service of the other has such a pipeline.
-/
namespace ClassAtlas

namespace Settings

open Toml

/-! ## What a settings file says of the descriptor -/

/-- The path that an item gives, if it gives one. -/
def pathsOf : Item → List FilePath
  | .scalar (.string s) _ => [⟨s⟩]
  | _ => []

/-- The descriptors that a section gives: under their key, or as the first item of an array. -/
def descriptorsOf : Item → List FilePath
  | .table t | .inlineTable t =>
    t.entries.flatMap fun e => if e.1.name = "descriptor" then pathsOf e.2 else []
  | .array items _ => items.head?.toList.flatMap pathsOf
  | _ => []

/-- The descriptors that a document gives in its project section. -/
def descriptorsIn (t : Table Item) : List FilePath :=
  t.entries.flatMap fun e => if e.1.name = "project" then descriptorsOf e.2 else []

/-- The descriptor that the settings file of a root gives. -/
def fileDescriptor? (disk : Files.Disk) (root : FilePath) : Option FilePath :=
  if disk.exists? (filePath root) then do
    let text ← (disk.readText (filePath root)).toOption
    let document ← (parse text).toOption
    (descriptorsIn document).getLast?
  else none

/-! ## Reading it -/

theorem exists_of_bind_ok {ε α β : Type} {x : Except ε α} {f : α → Except ε β} {b : β}
    (h : x >>= f = .ok b) : ∃ a, x = .ok a ∧ f a = .ok b := by
  cases x with
  | error e => cases h
  | ok a => exact ⟨a, rfl, h⟩

/-- The settings with the last of some descriptors, if there is one. -/
def Gives (said : List FilePath) (s s' : Settings) : Prop :=
  s'.descriptor = said.getLast?.getD s.descriptor

theorem Gives.append {said more : List FilePath} {s s' s'' : Settings} (h : Gives said s s')
    (h' : Gives more s' s'') : Gives (said ++ more) s s'' := by
  unfold Gives at h h' ⊢
  rw [h', h, List.getLast?_append, Option.getD_or]

/-- Reading items one after the other gives what each of them gives. -/
theorem gives_foldlM {α : Type} {read : Settings → α → Except Error Settings}
    {said : α → List FilePath} {as : List α} {s s' : Settings}
    (hread : ∀ a ∈ as, ∀ s s', read s a = .ok s' → Gives (said a) s s')
    (h : as.foldlM read s = .ok s') : Gives (as.flatMap said) s s' := by
  induction as generalizing s with
  | nil =>
    cases h
    rfl
  | cons a as ih =>
    rw [List.foldlM_cons] at h
    obtain ⟨t, hfirst, hrest⟩ := exists_of_bind_ok h
    exact (hread a List.mem_cons_self s t hfirst).append
      (ih (fun b hb => hread b (List.mem_cons_of_mem a hb)) hrest)

/-- What fields read under a name gives what is said under it, and nothing is said under a name
that no field has. -/
structure Understands (fields : List Field) (said : String → Item → List FilePath) : Prop where
  gives : ∀ f ∈ fields, ∀ i s s', f.read i s = .ok s' → Gives (said f.name i) s s'
  silent : ∀ name, (∀ f ∈ fields, f.name ≠ name) → ∀ i, said name i = []

variable {fields : List Field} {said : String → Item → List FilePath}

theorem Understands.gives_readEntry (h : Understands fields said) (e : Key × Item)
    (s s' : Settings) (hread : readEntry fields s e = .ok s') :
    Gives (said e.1.name e.2) s s' := by
  unfold readEntry at hread
  split at hread
  · rename_i hnone
    rw [h.silent e.1.name (by simpa using hnone)]
    cases hread
    rfl
  · rename_i f hsome
    have hname : f.name = e.1.name := by simpa using List.find?_some hsome
    cases hf : f.read e.2 s with
    | error err => simp [hf, Except.mapError] at hread
    | ok t =>
      simp only [hf, Except.mapError, Except.ok.injEq] at hread
      exact hread ▸ hname ▸ h.gives f (List.mem_of_find?_eq_some hsome) e.2 s t hf

/-- What is said by a section: a table has names for it, an array the order of the fields. -/
def saidIn (fields : List Field) (said : String → Item → List FilePath) : Item → List FilePath
  | .table t | .inlineTable t => t.entries.flatMap fun e => said e.1.name e.2
  | .array items _ => (fields.zip items).flatMap fun e => said e.1.name e.2
  | .tables ts => (fields.zip ts).flatMap fun e => said e.1.name (.table e.2)
  | .scalar _ _ => []

theorem Understands.gives_readSection (h : Understands fields said) {name : String} {i : Item}
    {s s' : Settings} (hread : readSection name fields i s = .ok s') :
    Gives (saidIn fields said i) s s' := by
  have hentries (t : Table Item) (hread : t.entries.foldlM (readEntry fields) s = .ok s') :
      Gives (t.entries.flatMap fun e => said e.1.name e.2) s s' :=
    gives_foldlM (fun e _ => h.gives_readEntry e) hread
  cases i with
  | table t => exact hentries t hread
  | inlineTable t => exact hentries t hread
  | scalar v span => cases hread
  | array items span =>
    refine gives_foldlM (fun e he => ?_) hread
    exact h.gives e.1 (List.of_mem_zip he).1 e.2
  | tables ts =>
    refine gives_foldlM (fun e he => ?_) hread
    exact h.gives e.1 (List.of_mem_zip he).1 (.table e.2)

/-! ## The fields there are -/

theorem understands_serverFields : Understands serverFields fun _ _ => [] := by
  refine ⟨fun f hf i s s' hread => ?_, fun _ _ _ => rfl⟩
  simp only [serverFields, List.mem_cons, List.not_mem_nil, or_false] at hf
  rcases hf with rfl | rfl
  all_goals
    obtain ⟨v, -, hs⟩ := exists_of_bind_ok hread
    cases hs
    rfl

theorem understands_projectFields :
    Understands projectFields fun name i => if name = "descriptor" then pathsOf i else [] := by
  constructor
  · intro f hf i s s' hread
    simp only [projectFields, List.mem_cons, List.not_mem_nil, or_false] at hf
    rcases hf with rfl | rfl | rfl
    all_goals
      obtain ⟨v, hv, hs⟩ := exists_of_bind_ok hread
      cases hs
    · unfold path at hv
      split at hv
      · cases hv
        rfl
      · cases hv
    · rfl
    · rfl
  · intro name h i
    have hne : name ≠ "descriptor" := fun he => h _ List.mem_cons_self he.symm
    exact if_neg hne

theorem saidIn_serverFields (i : Item) : saidIn serverFields (fun _ _ => []) i = [] := by
  cases i <;> simp [saidIn]

theorem saidIn_projectFields (i : Item) :
    saidIn projectFields (fun name i => if name = "descriptor" then pathsOf i else []) i =
      descriptorsOf i := by
  -- an array or a list of tables is read along the three fields
  have hzip {α : Type} (as : List α) (item : α → Item) :
      ((projectFields.zip as).flatMap fun e =>
        if e.1.name = "descriptor" then pathsOf (item e.2) else []) =
      as.head?.toList.flatMap fun a => pathsOf (item a) := by
    rcases as with _ | ⟨a, _ | ⟨b, _ | ⟨c, as⟩⟩⟩ <;> simp [projectFields]
  cases i with
  | scalar v span => rfl
  | table t => rfl
  | inlineTable t => rfl
  | array items span => exact hzip items id
  | tables ts => exact (hzip ts .table).trans (by simp [descriptorsOf, pathsOf])

theorem understands_sections :
    Understands sections fun name i => if name = "project" then descriptorsOf i else [] := by
  constructor
  · intro f hf i s s' hread
    simp only [sections, List.mem_cons, List.not_mem_nil, or_false] at hf
    rcases hf with rfl | rfl
    · have hgives := understands_serverFields.gives_readSection hread
      rwa [saidIn_serverFields] at hgives
    · have hgives := understands_projectFields.gives_readSection hread
      rwa [saidIn_projectFields] at hgives
  · intro name h i
    have hne : name ≠ "project" := fun he =>
      h _ (List.mem_cons_of_mem _ List.mem_cons_self) he.symm
    exact if_neg hne

theorem gives_ofText {text : String} {s : Settings} (h : ofText text = .ok s) :
    ∃ document, parse text = .ok document ∧ Gives (descriptorsIn document) standard s := by
  unfold ofText at h
  split at h
  · rename_i t hread
    cases h
    obtain ⟨document, hparse, hfold⟩ := exists_of_bind_ok hread
    exact ⟨document, hparse,
      gives_foldlM (fun e _ => understands_sections.gives_readEntry e) hfold⟩
  · cases h

/-- The file before the default. -/
theorem descriptor_of_load {disk : Files.Disk} {root : FilePath} {s : Settings}
    (h : load disk root = .ok s) :
    s.descriptor = (fileDescriptor? disk root).getD standard.descriptor := by
  unfold load at h
  unfold fileDescriptor?
  by_cases hfile : disk.exists? (filePath root) = true
  · simp only [hfile, Bool.not_true, Bool.false_eq_true, if_false] at h
    rw [if_pos hfile]
    cases htext : disk.readText (filePath root) with
    | error f => simp [htext, Except.mapError, bind, Except.bind] at h
    | ok text =>
      cases hsettings : ofText text with
      | error reason => simp [htext, hsettings, Except.mapError, bind, Except.bind] at h
      | ok t =>
        simp only [htext, hsettings, Except.mapError, bind, Except.bind, Except.ok.injEq] at h
        subst h
        obtain ⟨document, hparse, hgives⟩ := gives_ofText hsettings
        simpa [Except.toOption, hparse, Gives] using hgives
  · simp only [hfile, Bool.not_false, if_true, Except.ok.injEq] at h
    rw [if_neg hfile, ← h]
    rfl

end Settings

namespace Command

variable (disk : Files.Disk) (root : FilePath)

/-! ## Which descriptor -/

/-- The descriptor of a project: the one asked for before the one of the settings file before the
default, and behind the root unless it is absolute. -/
def chosenDescriptor (project : Option FilePath) : FilePath :=
  let chosen := (project.or (Settings.fileDescriptor? disk root)).getD Settings.standard.descriptor
  if chosen.isAbsolute then chosen else root.join chosen

variable {disk root} {settings : Settings}

theorem join_getD_eq (h : Settings.load disk root = .ok settings) (project : Option FilePath) :
    root.join (project.getD settings.descriptor) = chosenDescriptor disk root project := by
  unfold chosenDescriptor
  rw [Option.getD_or, ← Settings.descriptor_of_load h]
  simp only
  split
  · rename_i habsolute
    exact if_pos habsolute
  · rfl

theorem descriptorFor_eq (h : Settings.load disk root = .ok settings) (project : Option FilePath) :
    descriptorFor disk root project = .ok (chosenDescriptor disk root project) := by
  unfold descriptorFor
  rw [h]
  exact congrArg Except.ok (join_getD_eq h project)

theorem descriptorPath_apply (h : Settings.load disk root = .ok settings) (o : Overrides) :
    (o.apply settings).descriptorPath root = chosenDescriptor disk root o.project :=
  join_getD_eq h o.project

/-! ## What comes of it -/

theorem render_of_error {e : SettingsError} (h : Settings.load disk root = .error e)
    (project : Option FilePath) : render disk root project = .fail [] (.ofSettings e) := by
  unfold render descriptorFor
  rw [h]
  rfl

theorem serve_of_error {e : SettingsError} (h : Settings.load disk root = .error e)
    (bind : String → Nat → Except BindFault Unit) (o : Overrides) :
    serve disk bind root o = .fail [] (.ofSettings e) := by
  unfold serve
  rw [h]

/-- What is served is the diagram of the descriptor, whatever else is served with it. -/
theorem serve_of_ok (h : Settings.load disk root = .ok settings)
    (bind : String → Nat → Except BindFault Unit) (o : Overrides) :
    let descriptor := chosenDescriptor disk root o.project
    (serve disk bind root o).logs = servingLines root descriptor ∧
    ∀ service watcher, (serve disk bind root o).ending = .serving service watcher →
      service.pipeline.publisher = ((Publisher.new descriptor).pass disk).2 := by
  unfold serve
  rw [h]
  simp only [descriptorPath_apply h]
  split
  · exact ⟨rfl, fun _ _ hending => nomatch hending⟩
  · split
    · exact ⟨rfl, fun _ _ hending => nomatch hending⟩
    · refine ⟨rfl, fun service watcher hending => ?_⟩
      cases hending
      exact Pipeline.run_publisher _

/-- A project that cannot be loaded. -/
theorem render_of_load_error (h : Settings.load disk root = .ok settings)
    {project : Option FilePath} {e : ProjectError}
    (hload : Project.load disk (chosenDescriptor disk root project) = .error e) :
    render disk root project =
      .fail [⟨.info, "Rendering " ++ (chosenDescriptor disk root project).text⟩]
        (.ofProject e) := by
  unfold render
  simp only [descriptorFor_eq h,
    Coordinator.run_of_error (c := .new (chosenDescriptor disk root project)) hload]

theorem render_of_ok (h : Settings.load disk root = .ok settings) {project : Option FilePath}
    {x : Extraction}
    (hrun : ((Coordinator.new (chosenDescriptor disk root project)).run disk).1 = .ok x) :
    render disk root project =
      ⟨Diagram.render x.model ++ "\n",
        [⟨.info, "Rendering " ++ (chosenDescriptor disk root project).text⟩] ++
          missingLines x.failures ++ [renderedLine x.model], .done⟩ := by
  unfold render
  simp only [descriptorFor_eq h, hrun]

theorem updated_mem_reports {s snapshot : Diagram.Snapshot} {failures : List FileFailure} :
    .updated snapshot ∈ Publisher.reports s failures ↔ s = snapshot := by
  unfold Publisher.reports
  split <;> simp [eq_comm]

theorem start_of_error {descriptor : FilePath} {e : ProjectError}
    (h : Project.load disk descriptor = .error e) (config : PipelineConfig) :
    Pipeline.start descriptor config disk =
      ([.failed (Publisher.failureMessage e)], ⟨config, .new descriptor, [], .ready⟩) := by
  unfold Pipeline.start
  rw [Publisher.pass_of_error (p := .new descriptor) h]

theorem start_of_ok {descriptor : FilePath} {x : Extraction}
    (h : ((Coordinator.new descriptor).run disk).1 = .ok x) (config : PipelineConfig) :
    Pipeline.start descriptor config disk =
      (Publisher.reports ⟨Diagram.render x.model, 1⟩ x.failures,
        ⟨config, ⟨((Coordinator.new descriptor).run disk).2, ⟨⟨Diagram.render x.model, 1⟩⟩⟩, [],
          .ready⟩) := by
  unfold Pipeline.start
  rw [Publisher.pass_of_ok (p := .new descriptor) h]
  rfl

/-- **Rendering agrees with serving.** -/
theorem render_agrees_with_serve (disk : Files.Disk) (root : FilePath)
    (bind : String → Nat → Except BindFault Unit) (overrides : Overrides) :
    let rendered := render disk root overrides.project
    let served := serve disk bind root overrides
    let descriptor := chosenDescriptor disk root overrides.project
    match Settings.load disk root with
    | .error e =>
      rendered = .fail [] (.ofSettings e) ∧ served = .fail [] (.ofSettings e)
    | .ok _ =>
      rendered.logs.head? = some ⟨.info, "Rendering " ++ descriptor.text⟩ ∧
      served.logs = servingLines root descriptor ∧
      ∀ config, let (reports, pipeline) := Pipeline.start descriptor config disk
        (∀ text, rendered.exitCode = 0 ∧ rendered.printed = text ++ "\n" ↔
          pipeline.current = ⟨text, 1⟩) ∧
        (rendered.exitCode = 1 ∧ rendered.printed = "" ↔ pipeline.current.revision = 0) ∧
        (∀ snapshot, .updated snapshot ∈ reports ↔
          pipeline.current = snapshot ∧ snapshot.revision = 1) ∧
        ∀ service watcher, served.ending = .serving service watcher →
          service.pipeline.publisher = pipeline.publisher := by
  intro rendered served descriptor
  cases hload : Settings.load disk root with
  | error e => exact ⟨render_of_error hload _, serve_of_error hload bind overrides⟩
  | ok settings =>
    obtain ⟨hlogs, hservice⟩ := serve_of_ok hload bind overrides
    have hpublisher (config : PipelineConfig) : ∀ service watcher,
        served.ending = .serving service watcher →
        service.pipeline.publisher = (Pipeline.start descriptor config disk).2.publisher :=
      hservice
    cases hproject : Project.load disk descriptor with
    | error e =>
      have hrendered : rendered = _ := render_of_load_error hload hproject
      refine ⟨by rw [hrendered]; rfl, hlogs, fun config => ?_⟩
      have hservice := hpublisher config
      rw [start_of_error hproject] at hservice ⊢
      refine ⟨fun text => ?_, ?_, fun snapshot => ?_, hservice⟩
      · simp [hrendered, Outcome.fail, Outcome.exitCode, Pipeline.current, Publisher.new,
          Diagram.Cell.new, Diagram.Snapshot.initial]
      · simp [hrendered, Outcome.fail, Outcome.exitCode, Pipeline.current, Publisher.new,
          Diagram.Cell.new, Diagram.Snapshot.initial]
      · constructor
        · intro hmem
          cases List.mem_singleton.1 hmem
        · rintro ⟨rfl, hrevision⟩
          cases hrevision
    | ok project =>
      obtain ⟨x, hrun, -⟩ := Coordinator.run_of_ok (c := .new descriptor) hproject
      have hrendered : rendered = _ := render_of_ok hload hrun
      refine ⟨by rw [hrendered]; rfl, hlogs, fun config => ?_⟩
      have hservice := hpublisher config
      rw [start_of_ok hrun] at hservice ⊢
      refine ⟨fun text => ?_, ?_, fun snapshot => ?_, hservice⟩
      · simp [hrendered, Outcome.exitCode, Pipeline.current]
      · simp [hrendered, Outcome.exitCode, Pipeline.current]
      · refine updated_mem_reports.trans ⟨fun hsnapshot => ?_, And.left⟩
        exact ⟨hsnapshot, hsnapshot ▸ rfl⟩

end Command
end ClassAtlas
