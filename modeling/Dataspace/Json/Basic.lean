import Dataspace.Fields
import Dataspace.Number.Binary64

/-!
# JSON values

Whole numbers and doubles are kept apart, since the documents of this library treat them
differently. The members of an object are in the order of the text; readers leave no name twice.
-/

namespace Dataspace

inductive Json where
  | null
  | bool (b : Bool)
  | int (i : Int)
  | float (x : Binary64)
  | str (s : String)
  | arr (items : List Json)
  | obj (members : List (String × Json))
deriving Inhabited

namespace Json

/-- The member of an object with the given name. -/
def member? (name : String) : Json → Option Json
  | obj members => Entries.get? members name
  | _ => none

end Json

end Dataspace
