import InferenceEngine.Engine.Schedule

/-!
# What servers tell about themselves

The status of a server and of its models is handed out as a blob: a document that is true
of the moment at which it was asked for.
-/

namespace InferenceEngine

/-- Whether a blob describes a value that is written as the very same blob. -/
def Blob.roundTrips {α : Type} (value? : Json -> Option α) (toJson : α -> Json) (b : Blob) : Bool :=
  match b.decode value? with
  | .ok a => ofJson (toJson a) = b
  | .error _ => false

namespace Engine

def status (e : Engine) (n : Nat) : Blob :=
  .ofJson ((e.server n).status e.statsOf e.readings).toJson

def modelStatus (e : Engine) (n : Nat) (name : String) : Except Failure Blob := do
  let status ← (e.server n).modelStatus e.statsOf name
  .ok (.ofJson status.toJson)

end Engine

end InferenceEngine
