import Dataspace.Config.Basic
import Dataspace.Config.Scalar

/-!
# Reading a configuration

A setting is given by its name, or by a variable of the environment that has the name after a stem;
what is given by name counts. Variables may be in letters of either case, and those that name no
setting mean nothing here, while a given name without a setting is reported.
-/

namespace Dataspace.Config

open Checked (both defaulting fail)

def names : List String :=
  ["connector_id", "outbound_model_version", "security_token", "request_timeout_seconds",
    "connect_timeout_seconds", "description_depth", "confirm_agreements", "artifact_failure_policy",
    "default_recipients"]

/-- The beginning of the variables that hold settings, in lower case. -/
def stem : String := "dsc_"

/-- The setting that a variable of the environment names. -/
def settingOf? (variableName : String) : Option String :=
  let s := variableName.toList.map Setting.lower
  if stem.toList.isPrefixOf s then
    names.find? (·.toList = s.drop stem.length)
  else none

/-- The settings of an environment; of variables that differ in case only, the last one counts. -/
def ofEnvironment (environment : List (String × String)) : List (String × Json) :=
  Entries.merge (environment.filterMap fun (name, value) =>
    (settingOf? name).map fun setting => (setting, .str value))

/-- Every given name without a setting is reported. -/
def checkNames (given : List (String × Json)) : Checked Unit :=
  match given.filter fun (name, _) => name ∉ names with
  | [] => .ok ()
  | unknown => .error (unknown.map fun (name, _) => ⟨.unknownSetting, [.field name]⟩)

def check (settings : List (String × Json)) : Checked Config :=
  let d := standard
  (both (defaulting Checked.text d.connectorId settings "connector_id")
    (both (defaulting Checked.text d.modelVersion settings "outbound_model_version")
      (both (defaulting Checked.text d.token settings "security_token")
        (both (defaulting Setting.number d.requestTimeout settings "request_timeout_seconds")
          (both (defaulting Setting.number d.connectTimeout settings "connect_timeout_seconds")
            (both (defaulting Setting.whole d.depth settings "description_depth")
              (both (defaulting Setting.switch d.confirms settings "confirm_agreements")
                (both (defaulting Setting.policy d.policy settings "artifact_failure_policy")
                  (defaulting Checked.text d.defaultRecipients settings
                    "default_recipients"))))))))).map
    fun (connectorId, modelVersion, token, requestTimeout, connectTimeout, depth, confirms, policy,
        defaultRecipients) =>
      ⟨connectorId, modelVersion, token, requestTimeout, connectTimeout, depth, confirms, policy,
        defaultRecipients⟩

/-- The configuration by the given settings and the environment. -/
def read (given : List (String × Json)) (environment : List (String × String)) :
    Except Report Config :=
  match both (check (given ++ ofEnvironment environment)) (checkNames given) with
  | .ok (config, _) => .ok config
  | .error ps => .error ⟨"ConnectorConfig", ps⟩

end Dataspace.Config
