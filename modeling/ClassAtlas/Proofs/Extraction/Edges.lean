import ClassAtlas.Proofs.Diagram.Lines
import ClassAtlas.Proofs.Extraction.Entries

/-!
# Where edges start

Names do not tell classes apart: several may have one name, and those without a name are all shown
by the same. So an edge is tied to a class by position. `Model.Starts` is a map from the positions
of the edges to those of the classes that keeps their order, under which every edge has the name of
its class; a model that has one, and no empty name, is `Anchored`.

The map is a sublist in other words: the sources of the edges, in their order, are some of the names
of the classes (`exists_starts_iff`). So models may stand one behind the other (`Anchored.append`),
as they do after a pass over files. What a pass gives of a file is the model of contents that have
the digest of those read (`Coordinator.IsModelOf`), whatever disks the history went through. They
may be others if digests are alike, but their model is anchored too, so that `edges_anchored` needs
no condition on digests.
-/
namespace ClassAtlas

namespace Model

/-- The class from which each edge starts, both by their positions. -/
structure Starts (m : Model) (f : Fin m.relationships.length → Fin m.classes.length) : Prop where
  increasing : StrictMono f
  source : ∀ i, m.relationships[i].source = m.classes[f i].name

structure Anchored (m : Model) : Prop where
  named : ∀ c ∈ m.classes, c.name ≠ ""
  starts : ∃ f, m.Starts f

variable {m n : Model}

/-- Keeping the order, the sources of the edges are among the names of the classes. -/
theorem exists_starts_iff : (∃ f, m.Starts f) ↔
    (m.relationships.map (·.source)).Sublist (m.classes.map (·.name)) := by
  have hsources : (m.relationships.map (·.source)).length = m.relationships.length :=
    List.length_map _
  have hnames : (m.classes.map (·.name)).length = m.classes.length := List.length_map _
  rw [List.sublist_iff_exists_fin_orderEmbedding_get_eq]
  constructor
  · intro h
    obtain ⟨f, hf⟩ := h
    have hmono : StrictMono fun i => (f (Fin.cast hsources i)).cast hnames.symm :=
      fun i j hlt => hf.increasing hlt
    refine ⟨OrderEmbedding.ofStrictMono _ hmono, fun i => ?_⟩
    simpa using hf.source (i.cast hsources)
  · intro h
    obtain ⟨f, hf⟩ := h
    refine ⟨fun i => (f (Fin.cast hsources.symm i)).cast hnames, fun i j hlt => ?_, fun i => ?_⟩
    · exact f.strictMono hlt
    · simpa using hf (i.cast hsources.symm)

theorem anchored_iff : m.Anchored ↔ (∀ c ∈ m.classes, c.name ≠ "") ∧
    (m.relationships.map (·.source)).Sublist (m.classes.map (·.name)) :=
  ⟨fun h => ⟨h.named, exists_starts_iff.1 h.starts⟩, fun h => ⟨h.1, exists_starts_iff.2 h.2⟩⟩

theorem Anchored.append (hm : m.Anchored) (hn : n.Anchored) : (m ++ n).Anchored := by
  obtain ⟨hnamed, hsources⟩ := anchored_iff.1 hm
  obtain ⟨hnamed', hsources'⟩ := anchored_iff.1 hn
  refine anchored_iff.2 ⟨List.forall_mem_append.2 ⟨hnamed, hnamed'⟩, ?_⟩
  simpa using hsources.append hsources'

theorem anchored_empty : empty.Anchored :=
  anchored_iff.2 ⟨fun _ hc => absurd hc List.not_mem_nil, List.Sublist.refl _⟩

theorem displayName_ne_empty (name : Option String) : displayName name ≠ "" := by
  unfold displayName
  cases name with
  | none => decide
  | some n =>
    by_cases h : n = ""
    · simp [h, unnamedClass]
    · simp [h]

/-- Models one behind the other. -/
def joined (ms : List Model) : Model := ⟨ms.flatMap (·.classes), ms.flatMap (·.relationships)⟩

theorem anchored_joined {ms : List Model} (h : ∀ m ∈ ms, m.Anchored) : (joined ms).Anchored := by
  induction ms with
  | nil => exact anchored_empty
  | cons m ms ih =>
    obtain ⟨hm, hms⟩ := List.forall_mem_cons.1 h
    exact hm.append (ih hms)

/-- A class has an edge under its own name, or none. -/
theorem anchored_ofClasses (cs : List ClassDecl) : (ofClasses cs).Anchored := by
  refine anchored_iff.2 ⟨?_, ?_⟩
  · exact List.forall_mem_map.2 fun c _ => displayName_ne_empty c.name
  · induction cs with
    | nil => exact List.Sublist.refl _
    | cons c cs ih =>
      cases hbase : c.base with
      | none =>
        have hnone : c.relationship? = none := by rw [ClassDecl.relationship?, hbase]; rfl
        simp only [ofClasses, List.filterMap_cons_none hnone, List.map_cons] at ih ⊢
        exact ih.cons _
      | some b =>
        have hsome : c.relationship? = some ⟨displayName c.name, b⟩ := by
          rw [ClassDecl.relationship?, hbase]
          rfl
        simp only [ofClasses, List.filterMap_cons_some hsome, List.map_cons] at ih ⊢
        exact ih.cons_cons _

end Model

/-! ## Files -/

theorem anchored_of_extract {path : FilePath} {content : ByteArray} {m : Model}
    (h : extract path content = .ok m) : m.Anchored := by
  obtain ⟨d, text, -, -, -, rfl⟩ := exists_tree_of_extract h
  exact Model.anchored_ofClasses _

namespace Coordinator

variable {disk : Files.Disk} {cache : Cache} {rs : List (FilePath × Except ExtractError Model)}

/-- The files that gave a model, each with its own. -/
def modelsOf (rs : List (FilePath × Except ExtractError Model)) : List (FilePath × Model) :=
  rs.filterMap fun r => r.2.toOption.map (Prod.mk r.1)

theorem mem_modelsOf {y : FilePath × Model} : y ∈ modelsOf rs ↔ (y.1, .ok y.2) ∈ rs := by
  rw [modelsOf, List.mem_filterMap]
  constructor
  · intro h
    obtain ⟨⟨p, _ | m⟩, hr, heq⟩ := h
    · cases heq
    · cases heq
      exact hr
  · intro h
    exact ⟨_, h, rfl⟩

theorem modelsOf_sublist (rs : List (FilePath × Except ExtractError Model)) :
    ((modelsOf rs).map Prod.fst).Sublist (rs.map (·.1)) := by
  induction rs with
  | nil => exact List.Sublist.refl _
  | cons r rs ih =>
    obtain ⟨p, _ | m⟩ := r
    · exact ih.cons p
    · exact ih.cons_cons p

theorem model_foldl_add (x : Extraction) : (rs.foldl (fun x r => x.add r.1 r.2) x).model =
    x.model ++ Model.joined ((modelsOf rs).map Prod.snd) := by
  induction rs generalizing x with
  | nil => exact (Model.append_empty _).symm
  | cons r rs ih =>
    rw [List.foldl_cons, ih]
    obtain ⟨p, _ | m⟩ := r
    · rfl
    · exact Model.append_assoc _ _ _

/-- A model that a pass gives of a file: the file is read, and some contents of `S` that have the
digest of what is read give the model. -/
def IsModelOf (disk : Files.Disk) (S : ByteArray → Prop) (p : FilePath) (m : Model) : Prop :=
  ∃ content old, disk.read p = .ok content ∧ S old ∧
    Digest.ofBytes old = Digest.ofBytes content ∧ extract p old = .ok m

variable {S : ByteArray → Prop} {p : FilePath} {m : Model}

theorem IsModelOf.anchored (h : IsModelOf disk S p m) : m.Anchored := by
  obtain ⟨_, _, _, _, _, hm⟩ := h
  exact anchored_of_extract hm

/-- What comes from a cache was made of contents with the digest of those read, and what comes from
the disk of these themselves. -/
theorem isModelOf_extractFile (hc : cache.Faithful S)
    (hr : ∀ content, disk.read p = .ok content → S content)
    (h : (extractFile disk cache p).1 = .ok m) : IsModelOf disk S p m := by
  have hworked := worked_extractFile disk cache p
  generalize (extractFile disk cache p).1 = result at hworked h
  generalize (extractFile disk cache p).2 = cache' at hworked
  subst h
  cases hworked with
  | served hread hlookup =>
    obtain ⟨e, he, hkey, hdigest, rfl⟩ := Cache.exists_entry_of_lookup? hlookup
    obtain ⟨old, hold, hsame, hmodel⟩ := hc e he
    exact ⟨_, old, hread, hold, hsame.trans hdigest, hmodel p hkey.symm⟩
  | extracted hread hlookup hm => exact ⟨_, _, hread, hr _ hread, rfl, hm⟩

theorem isModelOf_of_mem_results {ps : List FilePath} (hc : cache.Faithful S)
    (hr : ∀ q ∈ ps, ∀ content, disk.read q = .ok content → S content)
    (h : (p, .ok m) ∈ results disk cache ps) : IsModelOf disk S p m := by
  induction ps generalizing cache with
  | nil => cases h
  | cons q ps ih =>
    have hq := hr q List.mem_cons_self
    rcases List.mem_cons.1 h with h | h
    · obtain ⟨hp, hm⟩ : p = q ∧ .ok m = (extractFile disk cache q).1 := Prod.mk.inj h
      subst hp
      exact isModelOf_extractFile hc hq hm.symm
    · exact ih (extractFile_faithful hc hq) (fun r hr' => hr r (List.mem_cons_of_mem q hr')) h

/-- What the disk alone gives. -/
theorem modelsOf_map_fileModel (disk : Files.Disk) (ps : List FilePath) :
    modelsOf (ps.map fun p => (p, Extraction.fileModel disk p)) =
      Extraction.contributions disk ps := by
  unfold modelsOf Extraction.contributions
  rw [List.filterMap_map]
  refine List.filterMap_congr fun p _ => ?_
  show (Extraction.fileModel disk p).toOption.map (Prod.mk p) = _
  cases Extraction.fileModel disk p with
  | error e => rfl
  | ok m => rfl

/-- A pass puts the models of files one behind the other, as they stand in the project. -/
theorem run_joined {c : Coordinator} (hc : c.cache.Faithful S)
    (hr : ∀ content, Reads disk c.descriptor content → S content) {x : Extraction}
    (h : (c.run disk).1 = .ok x) :
    ∃ (project : Project) (ms : List (FilePath × Model)),
      Project.load disk c.descriptor = .ok project ∧
      (ms.map Prod.fst).Sublist project.files ∧
      (∀ y ∈ ms, IsModelOf disk S y.1 y.2) ∧
      (Digest.Separates S → ms = Extraction.contributions disk project.files) ∧
      x.model = Model.joined (ms.map Prod.snd) := by
  cases hl : Project.load disk c.descriptor with
  | error e =>
    unfold run at h
    rw [hl] at h
    cases h
  | ok project =>
    rw [run_eq_of_ok hl] at h
    have hx := Except.ok.inj h
    rw [extractFiles_eq_foldl] at hx
    have hkept : (c.cache.retain project.files).Faithful S := hc.retain project.files
    have hreads : ∀ p ∈ project.files, ∀ content, disk.read p = .ok content → S content :=
      fun p hp content hread => hr content ⟨project, hl, p, hp, hread⟩
    refine ⟨project, modelsOf (results disk (c.cache.retain project.files) project.files), rfl,
      ?_, fun y hy => ?_, fun hS => ?_, ?_⟩
    · have hsub := modelsOf_sublist (results disk (c.cache.retain project.files) project.files)
      rwa [results_map_fst] at hsub
    · exact isModelOf_of_mem_results hkept hreads (mem_modelsOf.1 hy)
    · rw [results_eq hS hkept hreads, modelsOf_map_fileModel]
    · rw [← hx, model_foldl_add]
      rfl

end Coordinator

/-! ## Diagrams -/

namespace Diagram

/-- The lines of a diagram, cut around the block of a class and around an edge. -/
theorem lines_around (m : Model) (k : Fin m.classes.length) (i : Fin m.relationships.length) :
    lines m =
      (header :: (m.classes.take k).flatMap blockLines) ++ blockLines m.classes[k] ++
        ((m.classes.drop (k + 1)).flatMap blockLines ++ (m.relationships.take i).map edgeLine) ++
        edgeLine m.relationships[i] ::
          ((m.relationships.drop (i + 1)).map edgeLine ++ [trailer]) := by
  have hclasses : m.classes.take k ++ m.classes[k] :: m.classes.drop (k + 1) = m.classes := by
    simp
  have hedges : m.relationships.take i ++ m.relationships[i] :: m.relationships.drop (i + 1) =
      m.relationships := by
    simp
  have hblocks : m.classes.flatMap blockLines = (m.classes.take k).flatMap blockLines ++
      (blockLines m.classes[k] ++ (m.classes.drop (k + 1)).flatMap blockLines) := by
    rw [← List.flatMap_cons, ← List.flatMap_append, hclasses]
  have hlines : m.relationships.map edgeLine = (m.relationships.take i).map edgeLine ++
      edgeLine m.relationships[i] :: (m.relationships.drop (i + 1)).map edgeLine := by
    rw [← List.map_cons, ← List.map_append, hedges]
  rw [lines, hblocks, hlines]
  simp only [List.append_assoc, List.cons_append]

end Diagram

/-- **Where edges start.** Whatever a model comes from, class declarations, a file, a project after
any history, or two such models one behind the other: no class has an empty name, and each edge
starts at a class of its own, in the order of these classes. In a diagram the edge stands behind the
block of that class. -/
theorem edges_anchored :
    (∀ cs, (Model.ofClasses cs).Anchored) ∧
    (∀ path content,
      match extract path content with
      | .error _ => True
      | .ok m => m.Anchored) ∧
    (∀ descriptor disk es,
      let start := Workbench.new descriptor disk
      let w := start.replay es
      match (w.coordinator.run w.disk).1 with
      | .error _ => True
      | .ok x => x.model.Anchored ∧
        ∃ (project : Project) (ms : List (FilePath × Model)),
          Project.load w.disk descriptor = .ok project ∧
          (ms.map Prod.fst).Sublist project.files ∧
          (∀ y ∈ ms, y.2.Anchored ∧
            Coordinator.IsModelOf w.disk (start.Seen es) y.1 y.2) ∧
          x.model = Model.joined (ms.map Prod.snd)) ∧
    (∀ m n : Model, m.Anchored → n.Anchored → (m ++ n).Anchored) ∧
    ∀ m : Model, m.Anchored →
      (∀ r ∈ m.relationships, ∃ c ∈ m.classes, r.source = c.name) ∧
      ∃ f, m.Starts f ∧ Function.Injective f ∧ ∀ i,
        (Diagram.blockLines m.classes[f i]).head? =
          some ("class " ++ m.relationships[i].source ++ " \x7b") ∧
        Diagram.render m = String.intercalate "\n"
          ((Diagram.header :: (m.classes.take (f i)).flatMap Diagram.blockLines) ++
            Diagram.blockLines m.classes[f i] ++
            ((m.classes.drop (f i + 1)).flatMap Diagram.blockLines ++
              (m.relationships.take i).map Diagram.edgeLine) ++
            Diagram.edgeLine m.relationships[i] ::
              ((m.relationships.drop (i + 1)).map Diagram.edgeLine ++ [Diagram.trailer])) := by
  refine ⟨Model.anchored_ofClasses, ?_, ?_, fun m n hm hn => hm.append hn, ?_⟩
  · intro path content
    cases h : extract path content with
    | error e => trivial
    | ok m => exact anchored_of_extract h
  · intro descriptor disk es start w
    have hdescriptor : w.coordinator.descriptor = descriptor := Workbench.replay_descriptor es _
    cases h : (w.coordinator.run w.disk).1 with
    | error e => trivial
    | ok x =>
      obtain ⟨project, ms, hload, hfiles, hmodels, -, hmodel⟩ :=
        Coordinator.run_joined (Workbench.replay_new_faithful descriptor disk es)
          Workbench.seen_of_reads_replay h
      refine ⟨?_, project, ms, hdescriptor ▸ hload, hfiles,
        fun y hy => ⟨(hmodels y hy).anchored, hmodels y hy⟩, hmodel⟩
      rw [hmodel]
      exact Model.anchored_joined (List.forall_mem_map.2 fun y hy => (hmodels y hy).anchored)
  · intro m hm
    obtain ⟨f, hf⟩ := hm.starts
    refine ⟨fun r hr => ?_, f, hf, hf.increasing.injective, fun i => ⟨?_, ?_⟩⟩
    · obtain ⟨i, rfl⟩ := List.mem_iff_get.1 hr
      exact ⟨m.classes[f i], List.getElem_mem _, hf.source i⟩
    · rw [hf.source i]
      rfl
    · exact congrArg _ (Diagram.lines_around m (f i) i)

/-! ## Classes of one name -/

/-- Two classes without a name, the second with an edge, and a class that has the name by which
they are shown. -/
def unnamedClasses : List ClassDecl :=
  [⟨none, none, []⟩, ⟨some "", some "UnnamedClass", []⟩, ⟨some "UnnamedClass", none, []⟩]

/-- Put together by hand: the edge starts at the second class. -/
def twinModel : Model := ⟨[⟨"A", []⟩, ⟨"A", []⟩], [⟨"A", "B"⟩]⟩

theorem edges_anchored_twinModel :
    (Model.ofClasses unnamedClasses ++ twinModel).Anchored ∧
      Diagram.render (Model.ofClasses unnamedClasses ++ twinModel) =
        "@startuml\nclass UnnamedClass \x7b\n\x7d\nclass UnnamedClass \x7b\n\x7d\n" ++
        "class UnnamedClass \x7b\n\x7d\nclass A \x7b\n\x7d\nclass A \x7b\n\x7d\n" ++
        "UnnamedClass --> UnnamedClass\nA --> B\n@enduml" ∧
      ∀ r ∈ (Model.ofClasses unnamedClasses ++ twinModel).relationships,
        ∃ c ∈ (Model.ofClasses unnamedClasses ++ twinModel).classes, r.source = c.name := by
  have hstarts : twinModel.Starts fun _ => ⟨1, by decide⟩ := by
    refine ⟨fun i j hlt => ?_, by decide⟩
    have hone : twinModel.relationships.length = 1 := rfl
    omega
  have htwin : twinModel.Anchored := ⟨by decide, _, hstarts⟩
  obtain ⟨hclasses, -, -, happend, hdiagram⟩ := edges_anchored
  have hanchored := happend _ _ (hclasses unnamedClasses) htwin
  exact ⟨hanchored, by decide +kernel, (hdiagram _ hanchored).1⟩

end ClassAtlas
