import Buildfile.Proofs.Outcomes

/-! # The sources of a copy

A source is an artifact if its expansion as a reference can be read as one, and the artifact that
is asked for is that very expansion. A copy of artifacts asks for each of them in order, a copy of
files makes one call for all, and a copy of both kinds is refused.
-/

namespace Buildfile

namespace Scope
variable {sc : Scope} {i : Invocation} {r : Flag.Reading} {sources : List String} {dest : String}
  {platform : Option Platform}

def copyOptions (sc : Scope) (r : Flag.Reading) : CopyOptions :=
  { isDir := r.switch "dir", keepTimes := r.switch "keep-ts", keepOwner := r.switch "keep-own",
    owner := sc.literal (r.text "chown") }

end Scope

namespace Session

end Session
end Buildfile
