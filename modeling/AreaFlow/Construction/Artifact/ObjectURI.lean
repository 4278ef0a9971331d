import AreaFlow.Library.ParseURL

namespace AreaFlow.Artifact
open Go

/-- This function reads the bucket and the key from the address of an object. -/
def parseS3URI (raw : GoString) : Except GoString (GoString × GoString) :=
  match parseURL (trimSpace raw) with
  | none => .error (bytes "invalid S3 artifact URI")
  | some parsed =>
      if parsed.scheme ≠ bytes "s3" ∨ parsed.host = [] ∨ trimByte slash parsed.path = [] then
        .error (bytes "invalid S3 artifact URI")
      else .ok (parsed.host, trimPrefix parsed.path [slash])

end AreaFlow.Artifact
