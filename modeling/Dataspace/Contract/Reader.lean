import Dataspace.Contract.Basic
import Dataspace.Json.Reader
import Dataspace.Report
import Dataspace.Text.Charset
import Dataspace.Time.Reader

/-!
# Reading contracts

A contract document is a JSON object. Members that no contract has are ignored. Texts are read from
texts alone; a contract may lack everything but its identifier and its parties, and a rule
everything but its action. The window is looked at once all members are in order.
-/

namespace Dataspace

/-! ## Members -/

namespace Checked

variable {α : Type}

def text : Json → Checked String
  | .str s => .ok s
  | _ => fail .notText

def list (check : Json → Checked α) : Json → Checked (List α)
  | .arr vs => items check 0 vs
  | _ => fail .notList

/-- A member that must be there. -/
def required (check : Json → Checked α) (members : List (String × Json)) (name : String) :
    Checked α :=
  under (.field name) <|
    match Entries.get? members name with
    | none => fail .missing
    | some v => check v

/-- A member that has a value of its own if it is not there. -/
def defaulting (check : Json → Checked α) (absent : α) (members : List (String × Json))
    (name : String) : Checked α :=
  match Entries.get? members name with
  | none => .ok absent
  | some v => under (.field name) (check v)

/-- A member that may be missing or null. -/
def optional (check : Json → Checked α) (members : List (String × Json)) (name : String) :
    Checked (Option α) :=
  match Entries.get? members name with
  | none => .ok none
  | some .null => .ok none
  | some v => under (.field name) ((check v).map some)

end Checked

def RuleType.read : Json → Checked RuleType
  | .str s =>
    match ofName? s with
    | some t => .ok t
    | none => Checked.fail .notChoice
  | _ => Checked.fail .notChoice

def TimestampFlaw.complaint : TimestampFlaw → Complaint
  | kind => .notTimestamp
  | unreachable => .unreachableTimestamp
  | text => .unreadableTimestamp

def Timestamp.check (v : Json) : Checked Timestamp :=
  (Timestamp.read v).mapError fun flaw => [⟨flaw.complaint, []⟩]

/-! ## Rules and contracts -/

open Checked

def Rule.read : Json → Checked Rule
  | .obj ms =>
    (both (optional text ms "id")
      (both (defaulting RuleType.read .permission ms "type")
        (both (required text ms "action")
          (both (optional text ms "target")
            (defaulting (list text) [] ms "constraints"))))).map
      fun (id, type, action, target, constraints) => ⟨id, type, action, target, constraints⟩
  | _ => fail .notObject

def Contract.read : Json → Checked Contract
  | .obj ms =>
    match
      both (required text ms "id")
        (both (required text ms "consumer")
          (both (required text ms "provider")
            (both (optional Timestamp.check ms "start")
              (both (optional Timestamp.check ms "end")
                (defaulting (list Rule.read) [] ms "rules"))))) with
    | .error ps => .error ps
    | .ok (id, consumer, provider, start, finish, rules) =>
      if h : windowOrdered start finish = true then
        .ok ⟨id, consumer, provider, start, finish, rules, h⟩
      else fail .reversedWindow
  | _ => fail .notObject

/-! ## Documents -/

/-- The value of a document and what a check says of it. -/
def checkDocument {α : Type} (title : String) (check : Json → Checked α) (s : List Char) :
    Except Report α :=
  match Json.read .document s with
  | .error _ => .error ⟨title, [⟨.notJson, []⟩]⟩
  | .ok v => (check v).mapError fun ps => ⟨title, ps⟩

/-- The characters of a document given as octets; a document that is not UTF-8 is no JSON. -/
def checkOctets {α : Type} (title : String) (check : Json → Checked α) (s : Text.Octets) :
    Except Report α :=
  match Text.Utf8.decode s with
  | .error _ => .error ⟨title, [⟨.notJson, []⟩]⟩
  | .ok cs => checkDocument title check cs

end Dataspace
