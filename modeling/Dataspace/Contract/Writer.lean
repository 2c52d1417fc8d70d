import Dataspace.Contract.Basic
import Dataspace.Json.Writer
import Dataspace.Time.Writer

/-!
# Writing contracts

A contract document has all members, in the order of their declaration, null for what is absent.
-/

namespace Dataspace

namespace Json

def ofText? : Option String → Json
  | some s => .str s
  | none => .null

def ofTexts (ss : List String) : Json :=
  .arr (ss.map .str)

end Json

def Rule.toJson (r : Rule) : Json :=
  .obj [("id", .ofText? r.id), ("type", .str r.type.name), ("action", .str r.action),
    ("target", .ofText? r.target), ("constraints", .ofTexts r.constraints)]

def Contract.toJson (c : Contract) : Json :=
  .obj [("id", .str c.id), ("consumer", .str c.consumer), ("provider", .str c.provider),
    ("start", .ofText? (c.start.map Timestamp.documentText)),
    ("end", .ofText? (c.finish.map Timestamp.documentText)),
    ("rules", .arr (c.rules.map Rule.toJson))]

def Rule.document (r : Rule) : String :=
  r.toJson.write .compact

def Contract.document (c : Contract) : String :=
  c.toJson.write .compact

end Dataspace
