import Dataspace.Contract.Comparison
import Dataspace.Contract.Reader
import Dataspace.Error
import Dataspace.Log

/-!
# Examining agreements

The body of a reply is read as an agreement and held against the request. An `Examiner` says which
respects count; the strict one takes all of `Contract.compare`.
-/

namespace Dataspace

namespace Contract

/-- The contract that a text or octets spell out. -/
def readPayload (role : Role) : Received → Except Report Contract
  | .text s => checkDocument role.title read s.toList
  | .octets s => checkOctets role.title read s
  | .broken _ => .error ⟨role.title, [⟨.notUnicode, []⟩]⟩

/-- The agreement in the body of a reply. -/
def readAgreement : Option Received → Except AgreementFlaw Contract
  | none => .error .empty
  | some body =>
    if body.isBlank then .error .empty
    else (readPayload .agreement body).mapError .invalid

end Contract

/-- What is said of a body that cannot be read. -/
def AgreementFlaw.notes : AgreementFlaw → List Note
  | .invalid report => [(.warning, "Could not parse contract agreement: " ++ report.headline)]
  | _ => []

/-- A way of holding an agreement against a request: the respects in which it fails. -/
structure Examiner where
  compare : (agreement request : Contract) → List String

namespace Examiner

def strict : Examiner :=
  ⟨fun agreement request => (agreement.compare request).map Mismatch.text⟩

/-- Finds no fault with any agreement. -/
def lenient : Examiner :=
  ⟨fun _ _ => []⟩

/-- The agreement in a body, if it can be read and does not fail the request; and what is said of
it. -/
def examine (x : Examiner) (body : Option Received) (request : Contract) :
    Except Error Contract × List Note :=
  match Contract.readAgreement body with
  | .error flaw => (.error (.agreement flaw), flaw.notes)
  | .ok agreement =>
    match x.compare agreement request with
    | [] =>
      (.ok agreement,
        [(.info, "Agreement " ++ agreement.id ++ " matches request " ++ request.id)])
    | texts =>
      (.error (.mismatch texts),
        texts.map fun t => (.warning, "Agreement " ++ agreement.id ++ " rejected: " ++ t))

end Examiner

end Dataspace
