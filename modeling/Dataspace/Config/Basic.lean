import Dataspace.Download
import Dataspace.Number.Binary64

/-!
# Configuration

What an owner may set of a connector, and the settings that hold where nothing is said.
-/

namespace Dataspace

structure Config where
  connectorId : String
  modelVersion : String
  token : String
  /-- The seconds that a reply may take. -/
  requestTimeout : Binary64
  /-- The seconds that a connection may take. -/
  connectTimeout : Binary64
  /-- The number of levels of a description that are asked for. -/
  depth : Int
  /-- Whether an agreement is sent back to the provider. -/
  confirms : Bool
  policy : FailurePolicy
  /-- The peers to turn to when none is named, with commas between them. -/
  defaultRecipients : String
deriving DecidableEq

namespace Config

def standard : Config :=
  ⟨"https://localhost:8080", "4.2.7", "", .ofInt 30, .ofInt 10, Service.defaultDepth, false,
    .abort, ""⟩

/-- The peers to turn to when none is named. -/
def recipients (c : Config) : List String :=
  ((Text.splitOn ',' c.defaultRecipients.toList).map (Text.stripBy Text.isBlank)).filterMap
    fun piece => if piece.isEmpty then none else some (String.ofList piece)

end Config

end Dataspace
