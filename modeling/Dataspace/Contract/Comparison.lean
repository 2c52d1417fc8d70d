import Dataspace.Contract.Content
import Dataspace.Number.Decimal

/-!
# Agreement against request

A provider may give an agreement and its rules identifiers of its own and may leave a bound of the
window away. Parties and rules must be those of the request, and a bound that both have must not
widen the window. `Contract.compare` lists every respect in which this fails.
-/

namespace Dataspace

inductive Mismatch where
  | consumer (requested granted : String)
  | provider (requested granted : String)
  /-- The numbers of requested contents that were not granted and of granted ones not requested. -/
  | rules (missing unexpected : Nat)
  | earlyStart
  | lateEnd
deriving DecidableEq, Repr

def Mismatch.text : Mismatch → String
  | consumer requested granted =>
    "consumer differs (requested " ++ requested ++ ", got " ++ granted ++ ")"
  | provider requested granted =>
    "provider differs (requested " ++ requested ++ ", got " ++ granted ++ ")"
  | rules missing unexpected =>
    "rules differ (" ++ Decimal.ofNat missing ++ " missing, " ++ Decimal.ofNat unexpected ++
      " unexpected)"
  | earlyStart => "agreement starts before requested start"
  | lateEnd => "agreement ends after requested end"

/-- The elements of the first list that the second lacks. -/
def lacking {α : Type} [DecidableEq α] (xs ys : List α) : List α :=
  xs.filter fun x => x ∉ ys

/-- Whether both points are there and the first lies before the second. -/
def liesBefore : Option Timestamp → Option Timestamp → Bool
  | some a, some b => a.isBefore b
  | _, _ => false

namespace Contract

def partyMismatches (agreement request : Contract) : List Mismatch :=
  (if agreement.consumer = request.consumer then []
    else [.consumer request.consumer agreement.consumer]) ++
  (if agreement.provider = request.provider then []
    else [.provider request.provider agreement.provider])

def ruleMismatches (agreement request : Contract) : List Mismatch :=
  if agreement.ruleSet = request.ruleSet then []
  else
    [.rules (lacking request.ruleSet agreement.ruleSet).length
      (lacking agreement.ruleSet request.ruleSet).length]

def windowMismatches (agreement request : Contract) : List Mismatch :=
  (if liesBefore agreement.start request.start then [.earlyStart] else []) ++
  (if liesBefore request.finish agreement.finish then [.lateEnd] else [])

/-- Every respect in which an agreement fails a request. -/
def compare (agreement request : Contract) : List Mismatch :=
  partyMismatches agreement request ++ ruleMismatches agreement request ++
    windowMismatches agreement request

end Contract

end Dataspace
