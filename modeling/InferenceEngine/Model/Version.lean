import InferenceEngine.Failure

/-!
# Asking for a version

A request names a version of its model by number, or asks for the latest one.
-/

namespace InferenceEngine

/-- The version of a model that is asked for. -/
inductive VersionChoice where
  | latest
  | specific (version : Int)
  deriving DecidableEq, Inhabited

namespace VersionChoice

/-- The choice that a number stands for: negative numbers ask for the latest version. -/
def ofInt (n : Int) : VersionChoice := if n < 0 then latest else specific n

def name : VersionChoice -> String
  | latest => "latest"
  | specific v => toString v

def description : VersionChoice -> String
  | latest => "Latest"
  | specific v => s!"Specific({v})"

end VersionChoice

end InferenceEngine
