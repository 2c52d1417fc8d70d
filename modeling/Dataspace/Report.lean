import Dataspace.Number.Decimal

/-!
# Validation reports

A document or a configuration is checked as a whole: every field that is wrong is listed, in the
order in which the fields are declared, with the way to it. `Checked.both` joins two checks and
keeps the problems of each.
-/

namespace Dataspace

/-- What is wrong with one value. -/
inductive Complaint where
  | missing
  | notText
  | notChoice
  | notList
  | notObject
  /-- The document is no JSON text. -/
  | notJson
  /-- The document is a text with halves of characters in it. -/
  | notUnicode
  /-- The value can stand for no point of time. -/
  | notTimestamp
  /-- The number is no point of time of the calendar. -/
  | unreachableTimestamp
  /-- The text is neither a point of time nor a date. -/
  | unreadableTimestamp
  /-- The end lies before the start. -/
  | reversedWindow
  | unreadableInteger
  | tooManyDigits
  | notWhole
  | notFinite
  | notInteger
  | unreadableNumber
  | notNumber
  | unreadableSwitch
  | notSwitch
  /-- There is no setting of this name. -/
  | unknownSetting
deriving DecidableEq, Repr

/-- One step of the way to a value. -/
inductive Step where
  | field (name : String)
  | item (index : Nat)
deriving DecidableEq, Repr

structure Problem where
  complaint : Complaint
  path : List Step
deriving DecidableEq, Repr

structure Report where
  /-- What was being read. -/
  title : String
  problems : List Problem
deriving DecidableEq, Repr

/-- The first line of a report. -/
def Report.headline (r : Report) : String :=
  Decimal.ofNat r.problems.length ++
    (if r.problems.length = 1 then " validation error for " else " validation errors for ") ++
    r.title

/-! ## Checks -/

/-- A value, or all that is wrong with it. -/
abbrev Checked (α : Type) := Except (List Problem) α

namespace Checked

variable {α β : Type}

def fail (complaint : Complaint) : Checked α :=
  .error [⟨complaint, []⟩]

/-- Puts a step in front of the way to every problem. -/
def under (step : Step) (c : Checked α) : Checked α :=
  c.mapError fun ps => ps.map fun p => { p with path := step :: p.path }

/-- Both values, or the problems of the first followed by those of the second. -/
def both (a : Checked α) (b : Checked β) : Checked (α × β) :=
  match a, b with
  | .ok x, .ok y => .ok (x, y)
  | .ok _, .error q => .error q
  | .error p, .ok _ => .error p
  | .error p, .error q => .error (p ++ q)

/-- Every item by one check, each under its index, counted from `start`. -/
def items (check : α → Checked β) : (start : Nat) → List α → Checked (List β)
  | _, [] => .ok []
  | i, x :: r =>
    (both (under (.item i) (check x)) (items check (i + 1) r)).map fun (y, ys) => y :: ys

end Checked

end Dataspace
