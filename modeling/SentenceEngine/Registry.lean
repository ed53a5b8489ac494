import SentenceEngine.Schema.Basic
import SentenceEngine.Validation.Failure

/-!
# Registries

Scripts are registered under names, each with the fields of its payload. What is registered is a
factory; the factories of one origin are aliases of each other. Services are registered at most
once each and keep the order of their registration.
-/

namespace SentenceEngine

/-- Identifies the code of a script. -/
abbrev ScriptId := String

/-- Identifies a service. -/
abbrev ServiceId := Nat

/-- Makes the instances of a script. -/
structure Factory where
  /-- What the factory is an instance of. -/
  origin : String
  /-- The fields of the payload; without them the factory cannot be registered. -/
  fields : Option Fields
  script : ScriptId

/-- A registered script. -/
structure ScriptEntry where
  origin : String
  fields : Fields
  script : ScriptId

/-- Why a registration or a look-up fails. -/
inductive RegistryError where
  | duplicateScript (name : String)
  | missingSchema (name : String)
  | duplicateService
  | unknownScript (name : String)
deriving DecidableEq, Repr

/-- The wording of an error. -/
def RegistryError.message : RegistryError → String
  | .duplicateScript name => "Script '" ++ name ++ "' is already registered"
  | .missingSchema name => "Script '" ++ name ++ "' does not expose a schema"
  | .duplicateService => "Service is already registered"
  | .unknownScript name => "No script is registered as '" ++ name ++ "'"

/-- The registered scripts by name. -/
abbrev Registry := Dictionary ScriptEntry

namespace Registry

/-- No scripts. -/
def empty : Registry := []

/-- The names of the scripts of one origin, in increasing order. -/
def namesOf (registry : Registry) (origin : String) : List String :=
  (registry.filter (·.2.origin == origin)).map (·.1)

/-- The first name under which a script of an origin is registered. -/
def existing? (registry : Registry) (origin : String) : Option String :=
  (registry.namesOf origin).head?

/-- Registers a factory under a name that is still free. -/
def register (registry : Registry) (name : String) (factory : Factory) :
    Except RegistryError Registry :=
  if registry.hasKey name then .error (.duplicateScript name)
  else match factory.fields with
    | none => .error (.missingSchema name)
    | some fields => .ok (registry.insert name ⟨factory.origin, fields, factory.script⟩)

/-- All names, in increasing order. -/
def names (registry : Registry) : List String := registry.keys

/-- The other names of the script of a name, in increasing order. -/
def aliases (registry : Registry) (name : String) : List String :=
  match registry.find? name with
  | some entry => (registry.namesOf entry.origin).filter (· ≠ name)
  | none => []

/-- The fields of the script of a name. -/
def fields? (registry : Registry) (name : String) : Option Fields :=
  (registry.find? name).map (·.fields)

/-- A new instance of the script of a name. -/
def create (registry : Registry) (name : String) : Except RegistryError ScriptId :=
  match registry.find? name with
  | some entry => .ok entry.script
  | none => .error (.unknownScript name)

end Registry

/-- The registered services, in the order of their registration. -/
abbrev ServiceSet := List ServiceId

/-- Registers a service that is not registered yet. -/
def ServiceSet.register (services : ServiceSet) (service : ServiceId) :
    Except RegistryError ServiceSet :=
  if service ∈ services then .error .duplicateService else .ok (services ++ [service])

end SentenceEngine
