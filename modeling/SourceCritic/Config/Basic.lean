/-!
# Run settings

The rules are fixed; settings only narrow what they are applied to.
-/

namespace SourceCritic

/-- What a run leaves out: directories with certain names, and files above a size in bytes. -/
structure Config where
  exclude : List String
  maxFileSize : Option Nat
  deriving DecidableEq, Repr

def Config.default : Config where
  exclude := []
  maxFileSize := none

end SourceCritic
