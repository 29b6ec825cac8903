import ContentSchema.Digest.Sha256
import ContentSchema.Files.System
/-!
# Fingerprints

What a watcher knows of a path: the digest of its content, or that there is none to read. Touching a
file without changing it does not change its fingerprint.
-/

namespace ContentSchema

/-- The identity of what can be read at a path. -/
inductive Fingerprint where
  /-- Nothing can be read. -/
  | missing
  | present (digest : String)
deriving DecidableEq, Repr

namespace Fingerprint

/-- The fingerprint of what came of reading a path. -/
def ofContent : Except FileError ByteArray → Fingerprint
  | .ok content => .present (Sha256.digest content)
  | .error _ => .missing

variable {m : Type → Type} [Monad m] [FileSystem m]

/-- The fingerprint of a path. -/
def of (path : String) : m Fingerprint := return ofContent (← FileSystem.readBytes path)

/-- The fingerprints of a list of paths. -/
def snapshot (paths : List String) : m (List Fingerprint) := paths.mapM of

end Fingerprint

end ContentSchema
