/-!
# Log records

What the parts of a connector say of their work.
-/

namespace Dataspace

inductive Level where
  | debug
  | info
  | warning
  | error
deriving DecidableEq, Repr

/-- The parts that speak. -/
inductive Component where
  | assembly
  | identity
  | engine
  | messaging
  | negotiation
  | examination
  | artifacts
  | metadata
  | memory
  | transport
deriving DecidableEq, Repr

structure LogRecord where
  level : Level
  component : Component
  text : String
deriving DecidableEq, Repr

/-- A level and a text, the component being understood. -/
abbrev Note := Level × String

def Note.by (component : Component) (n : Note) : LogRecord :=
  ⟨n.1, component, n.2⟩

/-- How an absent text shows in a record. -/
def shownOrNone : Option String → String
  | some s => s
  | none => "None"

/-- How the time that something took shows in a record: no clock is read for it. -/
def elapsed : String := "0ms"

end Dataspace
