/-
Where a repository is, told by the path of one of its manifests. Each name joined to the
path of the repository is a component behind its own, and each parent drops one, so the
place four folders up is that of the repository, however its path is spelled
(`repositoryRoot?_manifestPath`).
-/
import ReleaseSchema.Build
import ReleaseSchema.Proofs.Release.Folder

namespace ReleaseSchema.Release

open ReleaseSchema.Path (IsName components components_join)

theorem components_folder (repository : List Char) :
    components (folder repository) = ((components repository).1,
      (components repository).2 ++ ["postgres".toList, "release".toList]) := by
  rw [folder, components_join isName_release, components_join isName_postgres, List.append_assoc,
    List.singleton_append]

theorem components_manifestPath {version : String} (named : IsName version.toList)
    (root : List Char) :
    components (manifestPath root version).toList = ((components root).1,
      (components root).2 ++ [version.toList, Manifest.baseName.toList]) := by
  rw [manifestPath, String.toList_ofList, components_join isName_manifest, components_join named,
    List.append_assoc, List.singleton_append]

/-- **The root of a repository.** Four folders up from the manifest of a version is a path with the
components of the repository's own. -/
theorem repositoryRoot?_manifestPath (repository : List Char) {version : String}
    (named : IsName version.toList) :
    ∃ root, Catalog.repositoryRoot? (manifestPath (folder repository) version).toList = some root ∧
      components root = components repository := by
  have manifest : components (manifestPath (folder repository) version).toList =
      ((components repository).1, (components repository).2 ++ ["postgres".toList,
        "release".toList, version.toList, Manifest.baseName.toList]) := by
    rw [components_manifestPath named, components_folder, List.append_assoc, List.cons_append,
      List.singleton_append]
  have deep : 4 ≤ (components (manifestPath (folder repository) version).toList).2.length := by
    rw [manifest]
    simp
  obtain ⟨root, hroot, same⟩ := Path.components_of_ancestor? deep
  refine ⟨root, hroot, same.trans ?_⟩
  rw [manifest]
  simp [List.rdrop]

/-- A dot in front is kept, and what is idle behind the repository is not. -/
theorem repositoryRoot?_manifestPath_dotted :
    IsName "1.0.0.0".toList ∧
      ∃ root, Catalog.repositoryRoot?
          "./work//app/./postgres/release/1.0.0.0/version.json".toList = some root ∧
        components root = components "./work//app/./".toList := by
  have named : IsName "1.0.0.0".toList := by decide
  have path : manifestPath (folder "./work//app/./".toList) "1.0.0.0" =
      "./work//app/./postgres/release/1.0.0.0/version.json" := by decide +kernel
  exact ⟨named, path ▸ repositoryRoot?_manifestPath "./work//app/./".toList named⟩

end ReleaseSchema.Release
