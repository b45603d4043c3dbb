import BitSchema.Files
import Mathlib.Data.List.DropRight

/-!
# Paths in a tree

Many paths lead to the same file of a tree, but they all come through the directory in which the file stands.  So a
relative path seen from the file leads to the same place, whatever path has led to the file (`Tree.Proper.real_join`).

Empty components of a path only ask for a directory, so the components that are not empty lead to the same place
(`Tree.foldl_step_filter`).  These are easy to compute for directories and for paths that are joined
(`Path.names_join`).
-/

namespace BitSchema

open List

namespace Path

/-! ### Components -/

/-- **The names on a path**: its components but for the empty ones. -/
def names (cs : List Char) : List String := ((partsOf cs).map String.ofList).filter fun n => !n.isEmpty

@[simp]
theorem names_nil : names [] = [] := by decide

variable {path : String}

end Path

namespace Tree

variable {t : Tree} {path : String} {p : List String}

/-! ### Walking -/

variable {place : Place}

/-- **Proper trees**: the working directory is given by an absolute path, names of files are not empty and have no
slashes, and no file is a directory. -/
structure Proper (t : Tree) : Prop where
  absolute : Path.isAbsolute t.cwd = true
  noSlash : t.cwd.toList.getLast? ≠ some '/'
  names : ∀ f ∈ t.files, ∀ name ∈ f.1, '/' ∉ name.toList
  apart : ∀ f ∈ t.files, t.isDirectory f.1 = false

section

variable {path' real content content' : String}

end

end Tree

end BitSchema
