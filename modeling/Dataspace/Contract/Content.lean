import Dataspace.Contract.Basic

/-!
# What rules say

Two rules say the same if they agree in type, action and target and in their constraints, whatever
the order and the number of times a constraint stands there. `Rule.content` is the form in which
this is equality, and `Contract.ruleSet` the form in which two contracts have the same rules exactly
if the forms are equal: no repetitions, and in ascending order.
-/

namespace Dataspace

/-! ## Sets as ascending lists -/

namespace Ascending

variable {α : Type}

/-- Puts an element in its place unless it is there. -/
def insert (lt : α → α → Bool) (x : α) : List α → List α
  | [] => [x]
  | y :: r => if lt x y then x :: y :: r else if lt y x then y :: insert lt x r else y :: r

/-- The elements of a list, each once and in ascending order. -/
def ofList (lt : α → α → Bool) (xs : List α) : List α :=
  xs.foldr (insert lt) []

end Ascending

/-- The order of texts by their characters. -/
def textBefore (a b : String) : Bool :=
  decide (a.toList < b.toList)

structure Content where
  type : RuleType
  action : String
  target : Option String
  /-- Each constraint once, in ascending order. -/
  constraints : List String
deriving DecidableEq

namespace Content

/-- The texts by which contents are ordered: type, action, whether there is a target, the target,
and the constraints one after another. -/
def sortKey (c : Content) : List (List Char) :=
  [c.type.name.toList, c.action.toList, if c.target.isSome then ['1'] else ['0'],
    (c.target.getD "").toList] ++ c.constraints.map String.toList

def before (a b : Content) : Bool :=
  decide (a.sortKey < b.sortKey)

end Content

def Rule.content (r : Rule) : Content :=
  ⟨r.type, r.action, r.target, Ascending.ofList textBefore r.constraints⟩

/-- The contents of a contract's rules, each once and in ascending order. -/
def Contract.ruleSet (c : Contract) : List Content :=
  Ascending.ofList Content.before (c.rules.map Rule.content)

end Dataspace
