import AreaFlow.Library.CleanPath

namespace Go

/-- An entry of a file tree. -/
inductive Node
  | file
  | directory
  | link (target : GoString)
  deriving DecidableEq

/-- These are the entries of a file tree under the segments of their absolute paths. -/
abbrev Tree := List (List GoString × Node)

def Tree.lstat (tree : Tree) (path : List GoString) : Option Node :=
  if path = [] then some .directory else (tree.find? (·.1 == path)).map (·.2)

/-- A walk ends at a path or stops at a link. Paths are held in reverse order. -/
inductive Walk
  | done (path : List GoString)
  | link (directory : List GoString) (target : GoString) (rest : List GoString)

/-- This function walks along the segments of a path until it finds a link. -/
def Tree.walkNames (tree : Tree) : List GoString → List GoString → Except GoString Walk
  | path, [] => .ok (.done path)
  | path, name :: rest =>
      if name = [] ∨ name = bytes "." then walkNames tree path rest
      else if name = up then walkNames tree path.tail rest
      else
        match tree.lstat (name :: path).reverse with
        | none => .error (bytes "no such file or directory")
        | some (.link target) => .ok (.link path target rest)
        | some .file => if rest = [] then .ok (.done (name :: path)) else .error (bytes "not a directory")
        | some .directory => walkNames tree (name :: path) rest

/-- A link that is found is replaced by its target; the number of links is bounded. -/
def Tree.walkSymlinks (tree : Tree) : Nat → List GoString → List GoString → Except GoString GoString
  | links, path, names =>
      match tree.walkNames path names with
      | .error failure => .error failure
      | .ok (.done path) => .ok (render true path.reverse)
      | .ok (.link directory target rest) =>
          match links with
          | 0 => .error (bytes "EvalSymlinks: too many links")
          | links + 1 =>
              walkSymlinks tree links (if isRooted target then [] else directory) (split slash target ++ rest)

/-- This function is `filepath.EvalSymlinks` on absolute paths. -/
def Tree.evalSymlinks (tree : Tree) (path : GoString) : Except GoString GoString :=
  tree.walkSymlinks 255 [] (split slash path)

end Go
