import Dataspace.Time.Calendar

/-!
# Contracts

A contract names two parties, the rules of use they agree on and the window of time in which it
holds. What a consumer asks for and what a provider grants have the same form; `Role` tells them
apart where a text names them.
-/

namespace Dataspace

inductive RuleType where
  | permission
  | prohibition
  | obligation
deriving DecidableEq, Repr

namespace RuleType

def all : List RuleType := [permission, prohibition, obligation]

def name : RuleType → String
  | permission => "permission"
  | prohibition => "prohibition"
  | obligation => "obligation"

def ofName? (s : String) : Option RuleType :=
  all.find? (·.name == s)

end RuleType

/-- One rule of use. Its identifier is no part of what it says. -/
structure Rule where
  id : Option String
  type : RuleType
  action : String
  target : Option String
  constraints : List String
deriving DecidableEq

/-- Whether a window with both bounds does not end before it starts. -/
def windowOrdered (start finish : Option Timestamp) : Bool :=
  match start, finish with
  | some s, some f => !f.isBefore s
  | _, _ => true

structure Contract where
  id : String
  consumer : String
  provider : String
  start : Option Timestamp
  finish : Option Timestamp
  rules : List Rule
  ordered : windowOrdered start finish = true
deriving DecidableEq

inductive Role where
  | request
  | agreement
deriving DecidableEq, Repr

def Role.title : Role → String
  | .request => "ContractRequest"
  | .agreement => "ContractAgreement"

end Dataspace
