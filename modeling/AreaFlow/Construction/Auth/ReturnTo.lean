import AreaFlow.Library.Redirects

namespace AreaFlow.Auth
open Go

/-- This function keeps the place to return to after a login if it looks like a path of this server. -/
def safeReturnTo (raw : GoString) : GoString :=
  let value := trimSpace raw
  if hasPrefix value [slash] = false ∨ hasPrefix value [slash, slash] = true ∨ 92 ∈ value ∨ 13 ∈ value ∨ 10 ∈ value then [slash]
  else
    match parseURL value with
    | none => [slash]
    | some parsed =>
        if parsed.scheme ≠ [] ∨ parsed.host ≠ [] ∨ hasPrefix parsed.path [slash] = false then [slash] else value

end AreaFlow.Auth
