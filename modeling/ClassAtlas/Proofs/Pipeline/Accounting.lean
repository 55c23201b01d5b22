import ClassAtlas.Pipeline.Pass
import Mathlib.Data.List.Induction

/-!
# What a pass reports and what it leaves

`Publisher.pass_of_error`: a pass that cannot load its project makes one report and leaves the
publisher as it was, with the snapshot, the entries of the cache and the count of its hits.

`Publisher.pass_of_ok`: any other pass publishes the model of the files that gave one and reports
the new snapshot first; files that gave none are named after it, in the order of the project.

`Publisher.snapshots` numbers what the successful passes published, from one on.
-/
namespace ClassAtlas

/-! ## What came of the files -/

/-- What came of a file that gave no model. -/
def FileFailure.ofResult? : FilePath × Except ExtractError Model → Option FileFailure
  | (_, .ok _) => none
  | (p, .error e) => some ⟨p, e⟩

namespace Coordinator

/-- What comes of each of some files, one after the other, by way of the cache. -/
def results (disk : Files.Disk) : Cache → List FilePath →
    List (FilePath × Except ExtractError Model)
  | _, [] => []
  | cache, p :: ps =>
    let (r, cache) := extractFile disk cache p
    (p, r) :: results disk cache ps

theorem results_map_fst (disk : Files.Disk) (cache : Cache) (ps : List FilePath) :
    (results disk cache ps).map (·.1) = ps := by
  induction ps generalizing cache with
  | nil => rfl
  | cons p ps ih => rw [results, List.map_cons, ih]

theorem extractFiles_eq_foldl (disk : Files.Disk) (e : Extraction) (cache : Cache)
    (ps : List FilePath) : (extractFiles disk (e, cache) ps).1 =
      (results disk cache ps).foldl (fun e r => e.add r.1 r.2) e := by
  induction ps generalizing e cache with
  | nil => rfl
  | cons p ps ih => rw [extractFiles, results, List.foldl_cons, ih]

theorem failures_foldl_add (rs : List (FilePath × Except ExtractError Model)) (e : Extraction) :
    (rs.foldl (fun e r => e.add r.1 r.2) e).failures =
      e.failures ++ rs.filterMap FileFailure.ofResult? := by
  induction rs generalizing e with
  | nil => simp
  | cons r rs ih =>
    obtain ⟨p, _ | m⟩ := r
    · rw [List.foldl_cons, ih]
      simp [Extraction.add, FileFailure.ofResult?]
    · rw [List.foldl_cons, ih, List.filterMap_cons_none rfl]
      rfl

/-- The files of a project that give no model in a pass, and why. -/
def failed (c : Coordinator) (disk : Files.Disk) (project : Project) : List FileFailure :=
  (results disk (c.cache.retain project.files) project.files).filterMap FileFailure.ofResult?

/-- They come in the order of the project. -/
theorem failed_sublist (c : Coordinator) (disk : Files.Disk) (project : Project) :
    List.Sublist ((c.failed disk project).map (·.path)) project.files := by
  have hsub : ∀ rs : List (FilePath × Except ExtractError Model),
      List.Sublist ((rs.filterMap FileFailure.ofResult?).map (·.path)) (rs.map (·.1)) := by
    intro rs
    induction rs with
    | nil => exact List.Sublist.refl []
    | cons r rs ih =>
      obtain ⟨p, _ | m⟩ := r
      · exact ih.cons_cons p
      · exact ih.cons p
  exact results_map_fst disk _ project.files ▸ hsub _

theorem run_of_error {c : Coordinator} {disk : Files.Disk} {e : ProjectError}
    (h : Project.load disk c.descriptor = .error e) : c.run disk = (.error e, c) := by
  unfold run
  rw [h]

theorem run_of_ok {c : Coordinator} {disk : Files.Disk} {project : Project}
    (h : Project.load disk c.descriptor = .ok project) :
    ∃ x, (c.run disk).1 = .ok x ∧ x.failures = c.failed disk project := by
  unfold run
  rw [h]
  refine ⟨_, rfl, ?_⟩
  rw [extractFiles_eq_foldl, failures_foldl_add]
  rfl

end Coordinator

namespace Publisher

/-! ## One pass -/

variable {p : Publisher} {disk : Files.Disk}

theorem pass_of_error {e : ProjectError}
    (h : Project.load disk p.coordinator.descriptor = .error e) :
    p.pass disk = ([.failed (failureMessage e)], p) := by
  unfold pass
  rw [Coordinator.run_of_error h]

theorem pass_of_ok {x : Extraction} (h : (p.coordinator.run disk).1 = .ok x) :
    p.pass disk = (reports ⟨Diagram.render x.model, p.cell.current.revision + 1⟩ x.failures,
      ⟨(p.coordinator.run disk).2, p.cell.publish (Diagram.render x.model)⟩) := by
  unfold pass
  cases hrun : p.coordinator.run disk with
  | mk r c =>
    rw [hrun] at h
    simp only at h
    subst h
    rfl

/-! ## What some passes have published -/

/-- The snapshots that passes with these outcomes have published, in order. -/
def snapshots (outcomes : List (Except ProjectError Extraction)) : List Diagram.Snapshot :=
  (outcomes.filterMap Except.toOption).mapIdx fun i x => ⟨Diagram.render x.model, i + 1⟩

theorem snapshots_error (outcomes : List (Except ProjectError Extraction)) (e : ProjectError) :
    snapshots (outcomes ++ [.error e]) = snapshots outcomes := by
  unfold snapshots
  rw [List.filterMap_append, List.filterMap_cons_none rfl, List.filterMap_nil, List.append_nil]

theorem snapshots_ok (outcomes : List (Except ProjectError Extraction)) (x : Extraction) :
    snapshots (outcomes ++ [.ok x]) =
      snapshots outcomes ++ [⟨Diagram.render x.model, (snapshots outcomes).length + 1⟩] := by
  simp [snapshots, Except.toOption, List.mapIdx_append]

theorem length_snapshots (outcomes : List (Except ProjectError Extraction)) :
    (snapshots outcomes).length = outcomes.countP Except.isOk := by
  induction outcomes using List.reverseRecOn with
  | nil => rfl
  | append_singleton outcomes r ih =>
    cases r with
    | error e => simp [snapshots_error, ih, Except.isOk, Except.toBool]
    | ok x => simp [snapshots_ok, ih, Except.isOk, Except.toBool]

/-- They are numbered without a gap. -/
theorem revisions_snapshots (outcomes : List (Except ProjectError Extraction)) :
    (snapshots outcomes).map (·.revision) = List.range' 1 (outcomes.countP Except.isOk) := by
  rw [← length_snapshots]
  induction outcomes using List.reverseRecOn with
  | nil => rfl
  | append_singleton outcomes r ih =>
    cases r with
    | error e => rw [snapshots_error, ih]
    | ok x => simp [snapshots_ok, ih, List.range'_concat, Nat.add_comm 1]

/-- The last bears their number. -/
theorem revision_getLast?_snapshots (outcomes : List (Except ProjectError Extraction)) :
    ((snapshots outcomes).getLast?.getD .initial).revision = outcomes.countP Except.isOk := by
  rw [← length_snapshots]
  induction outcomes using List.reverseRecOn with
  | nil => rfl
  | append_singleton outcomes r ih =>
    cases r with
    | error e => rw [snapshots_error, ih]
    | ok x => simp [snapshots_ok]

/-- Each shows the model of a pass that succeeded. -/
theorem exists_of_mem_snapshots {outcomes : List (Except ProjectError Extraction)}
    {s : Diagram.Snapshot} (h : s ∈ snapshots outcomes) :
    ∃ x, .ok x ∈ outcomes ∧ s.text = Diagram.render x.model ∧ 1 ≤ s.revision := by
  induction outcomes using List.reverseRecOn with
  | nil => cases h
  | append_singleton outcomes r ih =>
    cases r with
    | error e =>
      rw [snapshots_error] at h
      obtain ⟨x, hx, hs⟩ := ih h
      exact ⟨x, List.mem_append_left _ hx, hs⟩
    | ok x =>
      rw [snapshots_ok] at h
      rcases List.mem_append.1 h with h | h
      · obtain ⟨y, hy, hs⟩ := ih h
        exact ⟨y, List.mem_append_left _ hy, hs⟩
      · rw [List.mem_singleton.1 h]
        exact ⟨x, List.mem_append_right _ (List.mem_singleton_self _), rfl, Nat.succ_pos _⟩

end Publisher
end ClassAtlas
