import Dataspace.Config.Reader
import Dataspace.Engine
import Dataspace.Http

/-!
# Assembling an engine

An owner names what an engine is to be made of, in any order and each thing as often as wished, the
last word counting; `Assembly.build` fills in the rest. Without more, the identity is the configured
one, messages go out over HTTP with the configured limits, and everything is kept in memory.
-/

namespace Dataspace

structure Assembly (σ : Type) where
  config : Option Config
  identity : Option IdentitySource
  /-- The token at the n-th time of asking, in place of the configured one. -/
  tokenAt : Option (Nat → String)
  transport : Option (Transport σ)
  persistence : Option (Persistence σ)
  agreements : Option AgreementService
  examiner : Option Examiner
  policy : Option FailurePolicy
  confirms : Option Bool

/-- An engine, and what is said of its making. -/
structure Assembled (σ : Type) where
  engine : Engine σ
  /-- The limits for the transport that is taken where none is named. -/
  timeouts : Http.Timeouts
  announcement : LogRecord

/-- The identity that a configuration gives. -/
def IdentitySource.ofConfig (c : Config) (tokenAt : Option (Nat → String)) :
    Except Error IdentitySource :=
  if c.connectorId.isEmpty then .error .emptyConnectorId
  else .ok (.settled c.connectorId c.modelVersion (tokenAt.getD fun _ => c.token))

namespace Assembly

variable {σ : Type}

def empty : Assembly σ :=
  ⟨none, none, none, none, none, none, none, none, none⟩

def withConfig (c : Config) (a : Assembly σ) : Assembly σ := { a with config := some c }

def withIdentity (i : IdentitySource) (a : Assembly σ) : Assembly σ := { a with identity := some i }

def withTokens (tokenAt : Nat → String) (a : Assembly σ) : Assembly σ :=
  { a with tokenAt := some tokenAt }

def withTransport (t : Transport σ) (a : Assembly σ) : Assembly σ := { a with transport := some t }

def withPersistence (p : Persistence σ) (a : Assembly σ) : Assembly σ :=
  { a with persistence := some p }

def withAgreements (s : AgreementService) (a : Assembly σ) : Assembly σ :=
  { a with agreements := some s }

def withExaminer (x : Examiner) (a : Assembly σ) : Assembly σ := { a with examiner := some x }

def withPolicy (name : String) (a : Assembly σ) : Except Error (Assembly σ) :=
  match FailurePolicy.ofName? name with
  | some p => .ok { a with policy := some p }
  | none => .error (.unknownPolicy name)

def withConfirmation (confirms : Bool) (a : Assembly σ) : Assembly σ :=
  { a with confirms := some confirms }

/-- The configuration that was named, or the one that the environment gives. -/
def configIn (environment : List (String × String)) (a : Assembly σ) : Except Error Config :=
  match a.config with
  | some c => .ok c
  | none => (Config.read [] environment).mapError .invalid

def announcement (e : Engine σ) : LogRecord :=
  ⟨.info, .assembly, "ConnectorBuilder: built engine (transport=" ++ e.transport.name ++
    ", persistence=" ++ e.persistence.name ++ ", policy=" ++ e.policy.name ++ ", confirm=" ++
    (if e.confirms then "True" else "False") ++ ")"⟩

/-- The engine that was named, with what was not named filled in. -/
def build (environment : List (String × String)) (net : Http.Network σ) (uuidAt : Nat → Uuid)
    (clock : Nat → Timestamp) (a : Assembly σ) : Except Error (Assembled σ) := do
  let c ← a.configIn environment
  let identity ←
    match a.identity with
    | some i => pure i
    | none => IdentitySource.ofConfig c a.tokenAt
  let engine : Engine σ :=
    { identity := identity
      transport := a.transport.getD (Http.transport net)
      uuidAt := uuidAt
      clock := clock
      persistence := a.persistence.getD (.inMemory fun _ world => (none, world))
      agreements := a.agreements.getD .inMemory
      depth := c.depth
      policy := a.policy.getD c.policy
      confirms := a.confirms.getD c.confirms
      examiner := a.examiner.getD .strict }
  return ⟨engine, .ofLimits c.requestTimeout c.connectTimeout, announcement engine⟩

end Assembly

end Dataspace
