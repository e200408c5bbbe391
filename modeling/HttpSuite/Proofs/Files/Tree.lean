import HttpSuite.Files.Tree
import Mathlib.Data.List.Perm.Subperm

/-!
# Canonical paths are paths of nodes

A path is followed through directories, and a step up never leads below what was passed on the way
down.  So all that lies above a place which a path leads to is there, and the place itself is the
root or a node of the tree (`FileTree.canonicalPath_mem_paths`).  There are only so many of those,
which bounds every list of distinct canonical paths (`FileTree.length_le_of_nodup`).
-/

namespace HttpSuite.FileTree

variable {tree : FileTree} {location l : List String}

/-- The paths of the root and of all nodes. -/
def paths (tree : FileTree) : List String :=
  tree.pathOf [] :: tree.nodes.map fun node => tree.pathOf node.1

/-- A location and all that lies above it are there. -/
def Stands (tree : FileTree) (location : List String) : Prop :=
  ∀ l, l <+: location → (tree.node? l).isSome

theorem stands_nil : tree.Stands [] := by
  intro l hl
  rw [List.prefix_nil.mp hl]
  rfl

theorem Stands.dropLast (h : tree.Stands location) : tree.Stands location.dropLast :=
  fun l hl => h l (hl.trans (List.dropLast_prefix location))

theorem Stands.concat {part : String} (h : tree.Stands location)
    (hpart : (tree.node? (location ++ [part])).isSome) : tree.Stands (location ++ [part]) := by
  intro l hl
  rcases List.prefix_concat_iff.mp hl with rfl | hl
  · exact hpart
  · exact h l hl

/-- Following a path from a place that is there leads to one that is there. -/
theorem Stands.follow {parts : List String} (h : tree.Stands location)
    (hl : tree.follow location parts = .ok l) : tree.Stands l := by
  fun_induction FileTree.follow tree location parts with
  | case1 location =>
    cases hl
    exact h
  | case2 location part rest hdirectory hstay ih => exact ih h hl
  | case5 location rest hdirectory hstay hlong hroot ih => exact ih h.dropLast hl
  | case6 location part rest hdirectory hstay hlong hup next hthere ih =>
    exact ih (h.concat hthere) hl
  -- the paths that lead nowhere
  | _ => cases hl

/-- What a path leads to is there. -/
theorem stands_of_locate {path : String} (h : tree.locate path = .ok l) : tree.Stands l := by
  unfold locate at h
  split at h
  · cases h
  · split at h
    · cases h
    · split at h
      · cases h
        exact stands_nil
      · split at h
        · exact stands_nil.follow h
        · cases h

theorem pathOf_mem_paths (h : (tree.node? l).isSome) : tree.pathOf l ∈ tree.paths := by
  cases l with
  | nil => exact List.mem_cons_self ..
  | cons part rest =>
    rw [node?, List.isEmpty_cons, if_neg Bool.false_ne_true, Option.isSome_map,
      List.find?_isSome] at h
    obtain ⟨node, hnode, heq⟩ := h
    rw [← beq_iff_eq.mp heq]
    exact List.mem_cons_of_mem _ (List.mem_map_of_mem hnode)

/-- **A canonical path is the path of the root or of a node.** -/
theorem canonicalPath_mem_paths {path q : String} (h : tree.canonicalPath path = .ok q) :
    q ∈ tree.paths := by
  unfold canonicalPath at h
  cases hl : tree.locate path with
  | error fault =>
    rw [hl] at h
    cases h
  | ok l =>
    rw [hl] at h
    cases h
    exact pathOf_mem_paths (stands_of_locate hl l (List.prefix_refl l))

/-- **Distinct paths of a tree are no more than its nodes and its root.** -/
theorem length_le_of_nodup {visited : List String} (h : visited.Nodup)
    (hpaths : ∀ q ∈ visited, q ∈ tree.paths) : visited.length ≤ tree.size + 1 := by
  have hle : visited.length ≤ tree.paths.length := (List.subperm_of_subset h hpaths).length_le
  rwa [paths, List.length_cons, List.length_map] at hle

end HttpSuite.FileTree

namespace HttpSuite

/-- A file of a text of ASCII characters. -/
def Compiler.asciiFile (text : String) : FileNode :=
  .file (text.toList.map fun c => c.toNat.toUInt8)

end HttpSuite
