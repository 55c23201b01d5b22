import ClassAtlas.Project.Selection
import Mathlib.Data.List.Nodup

/-!
# No file stands twice in a project

The files of a project have pairwise different components (`load_nodup`), however the descriptor
spells them and whether a file is listed, matched or both.
-/
namespace ClassAtlas

theorem mem_of_mem_firstOnly {seen : List (List Component)} {ps : List FilePath} {p : FilePath}
    (h : p ∈ firstOnly seen ps) : p ∈ ps := by
  induction ps generalizing seen with
  | nil => exact h
  | cons q ps ih =>
    unfold firstOnly at h
    split at h
    · exact List.mem_cons_of_mem q (ih h)
    · rcases List.mem_cons.1 h with h | h
      · exact h ▸ List.mem_cons_self
      · exact List.mem_cons_of_mem q (ih h)

theorem key_not_mem_of_mem_firstOnly {seen : List (List Component)} {ps : List FilePath}
    {p : FilePath} (h : p ∈ firstOnly seen ps) : p.key ∉ seen := by
  induction ps generalizing seen with
  | nil => simp [firstOnly] at h
  | cons q ps ih =>
    simp only [firstOnly] at h
    split at h
    · exact ih h
    · rename_i hq
      rcases List.mem_cons.1 h with rfl | h
      · simpa using hq
      · exact fun hs => ih h (List.mem_cons_of_mem _ hs)

theorem firstOnly_nodup (seen : List (List Component)) (ps : List FilePath) :
    ((firstOnly seen ps).map (·.key)).Nodup := by
  induction ps generalizing seen with
  | nil => simp [firstOnly]
  | cons q ps ih =>
    simp only [firstOnly]
    split
    · exact ih seen
    · refine List.nodup_cons.2 ⟨?_, ih _⟩
      intro hq
      obtain ⟨p, hp, hk⟩ := List.mem_map.1 hq
      exact key_not_mem_of_mem_firstOnly hp (hk ▸ List.mem_cons_self)

theorem addNew_nodup {paths : List FilePath} (h : (paths.map (·.key)).Nodup)
    (more : List FilePath) : ((addNew paths more).map (·.key)).Nodup := by
  unfold addNew
  rw [List.map_append]
  refine List.nodup_append.2 ⟨h, firstOnly_nodup _ _, ?_⟩
  rintro k hk _ hk' rfl
  obtain ⟨p, hp, rfl⟩ := List.mem_map.1 hk'
  exact key_not_mem_of_mem_firstOnly hp hk

namespace Project

theorem listedFiles_nodup (root : FilePath) (d : Descriptor) :
    ((listedFiles root d).map (·.key)).Nodup := by
  have hnil : (([] : List FilePath).map (·.key)).Nodup := List.nodup_nil
  exact addNew_nodup hnil _

theorem select_nodup {disk : Files.Disk} {root descriptor : FilePath} {d : Descriptor}
    {ps : List FilePath} (h : select disk root descriptor d = .ok ps) :
    (ps.map (·.key)).Nodup := by
  unfold select at h
  simp only at h
  split at h
  · cases h
    exact listedFiles_nodup root d
  · cases hi : compilePatterns descriptor d.options.allowJs d.includePatterns with
    | error e => simp [hi, bind, Except.bind] at h
    | ok includes =>
      cases he : compilePatterns descriptor d.options.allowJs d.excludePatterns with
      | error e => simp [hi, he, bind, Except.bind] at h
      | ok excludes =>
        simp only [hi, he, bind, Except.bind, Except.ok.injEq] at h
        exact h ▸ addNew_nodup (listedFiles_nodup root d) _

/-- No two files of a project are the same path. -/
theorem load_nodup {disk : Files.Disk} {descriptor : FilePath} {project : Project}
    (h : load disk descriptor = .ok project) : (project.files.map (·.key)).Nodup := by
  unfold load at h
  cases ht : (disk.readText descriptor).mapError (ProjectError.read descriptor) with
  | error e => simp [ht, bind, Except.bind] at h
  | ok text =>
    cases hd : (Descriptor.ofText text).mapError (ProjectError.parse descriptor) with
    | error e => simp [ht, hd, bind, Except.bind] at h
    | ok d =>
      cases hs : select disk (rootOf descriptor) descriptor d with
      | error e => simp [ht, hd, hs, bind, Except.bind] at h
      | ok files =>
        simp only [ht, hd, hs, bind, Except.bind, Except.ok.injEq] at h
        exact h ▸ select_nodup hs

end Project
end ClassAtlas
