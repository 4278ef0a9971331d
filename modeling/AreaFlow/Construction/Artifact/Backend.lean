import AreaFlow.Library.CleanPath
import AreaFlow.Construction.Project.Commands

namespace AreaFlow.Artifact
open Go

/-- This function is the check of a path below the artifact store. -/
def safeRelativePath (path : GoString) : Except GoString GoString :=
  let clean := pathClean path
  if clean = bytes "." ∨ clean.head? = some slash ∨ hasPrefix clean (bytes "../") = true then
    .error (bytes "artifact path must stay under artifact store root")
  else .ok clean

/-- This function is the check of a path below the namespace of a project. -/
def projectRelativePath (projectKey relativePath : GoString) : Except GoString GoString :=
  let clean := pathClean relativePath
  if clean = bytes "." ∨ clean.head? = some slash ∨ hasPrefix clean (bytes "../") = true then
    .error (bytes "artifact path must stay under project artifact namespace")
  else .ok (pathJoin [projectKey, clean])

/-- A tilde at the start of a path is the home directory, if there is one. -/
def expandHome (home : Option GoString) (path : GoString) : GoString :=
  if path = bytes "~" then home.getD path
  else if hasPrefix path (bytes "~/") then
    match home with
    | some directory => pathJoin [directory, trimPrefix path (bytes "~/")]
    | none => path
  else path

/-- This is the directory of a local backend. -/
def localRoot (home : Option GoString) (root : GoString) : GoString := expandHome home (trimSpace root)

/-- This is the file that a local backend writes for a path. -/
def localTarget (home : Option GoString) (root relativePath : GoString) : Except GoString GoString :=
  if localRoot home root = [] then .error (bytes "artifact store root is required")
  else (safeRelativePath relativePath).map fun clean => pathJoin [localRoot home root, clean]

/-- This is the file that a project with a local backend writes for a path. -/
def artifactFile (home : Option GoString) (root projectKey relativePath : GoString) : Except GoString GoString := do
  let below ← projectRelativePath projectKey relativePath
  let clean ← safeRelativePath below
  localTarget home root clean

end AreaFlow.Artifact
