import CertIssuer.Settings
import CertIssuer.Text.Digits

/-!
# The command line

The options of the process. An option is a name after two dashes; its value follows an equals sign
or is the next argument, provided that it does not look like an option. An option that is on or off
may stand without a value, which means on. An option is given at most once, there are no other
arguments, and the first mistake is the one that is reported. A value that stands apart is looked
at when the next option begins, or at the end.

The options are those of `Cli`, and `Options.settings` is `ReconcilerSettings::from_cli`.
-/

namespace CertIssuer.CommandLine

/-- The values of all options. -/
structure Options where
  metricsBindAddress : String := ":8080"
  healthProbeBindAddress : String := ":8081"
  leaderElect : Bool := false
  leaderElectionNamespace : Option String := none
  clusterResourceNamespace : String := ""
  disableApprovedCheck : Bool := false
  secretAccessAtClusterLevel : Bool := false
  /-- In seconds, as the next three. -/
  authorityTimeout : Nat := 30
  maxRetryInterval : Nat := 300
  maxRetryDuration : Nat := 3600
  healthCheckInterval : Nat := 60
  deriving DecidableEq, Repr

/-- The settings that options give, once the namespace for cluster issuers is known. A call to the
authority and the time between two checks last at least a second. -/
def Options.settings (o : Options) (clusterNamespace : String) : Settings where
  clusterResourceNamespace := clusterNamespace
  secretAccessAtClusterLevel := o.secretAccessAtClusterLevel
  checkApproved := !o.disableApprovedCheck
  authorityTimeout := .ofSeconds (max o.authorityTimeout 1)
  healthCheckInterval := .ofSeconds (max o.healthCheckInterval 1)
  retry := {
    maxInterval := .ofSeconds o.maxRetryInterval
    maxDuration := .ofSeconds o.maxRetryDuration }

/-- Why the options are not taken, or what is shown instead. -/
inductive Refusal where
  | unknownArgument
  | invalidValue
  | valueValidation
  | argumentConflict
  | tooManyValues
  | displayHelp
  | displayVersion
  deriving DecidableEq, Repr

def Refusal.text : Refusal → String
  | unknownArgument => "UnknownArgument"
  | invalidValue => "InvalidValue"
  | valueValidation => "ValueValidation"
  | argumentConflict => "ArgumentConflict"
  | tooManyValues => "TooManyValues"
  | displayHelp => "DisplayHelp"
  | displayVersion => "DisplayVersion"

/-! ### The options -/

/-- What an option's value is, and where it goes. -/
inductive Slot where
  | text (put : String → Options → Options)
  | switch (put : Bool → Options → Options)
  | number (put : Nat → Options → Options)

/-- The options by name. -/
def slots : List (String × Slot) := [
  ("metrics-bind-address", .text fun v o => { o with metricsBindAddress := v }),
  ("health-probe-bind-address", .text fun v o => { o with healthProbeBindAddress := v }),
  ("leader-elect", .switch fun v o => { o with leaderElect := v }),
  ("leader-election-namespace", .text fun v o => { o with leaderElectionNamespace := some v }),
  ("cluster-resource-namespace", .text fun v o => { o with clusterResourceNamespace := v }),
  ("disable-approved-check", .switch fun v o => { o with disableApprovedCheck := v }),
  ("secret-access-granted-at-cluster-level",
    .switch fun v o => { o with secretAccessAtClusterLevel := v }),
  ("ca-request-timeout", .number fun v o => { o with authorityTimeout := v }),
  ("max-retry-interval", .number fun v o => { o with maxRetryInterval := v }),
  ("max-retry-duration", .number fun v o => { o with maxRetryDuration := v }),
  ("health-check-interval", .number fun v o => { o with healthCheckInterval := v })]

/-- The options with a value, which is absent when none was given. -/
def Slot.store (slot : Slot) (value : Option String) (o : Options) : Except Refusal Options :=
  match slot, value with
  | .text put, some v => .ok (put v o)
  | .switch put, none => .ok (put true o)
  | .switch put, some "true" => .ok (put true o)
  | .switch put, some "false" => .ok (put false o)
  | .switch _, some _ => .error .invalidValue
  | .number put, some v =>
    match Text.unsigned? Text.maxUnsigned64 v with
    | some n => .ok (put n o)
    | none => .error .valueValidation
  | _, none => .error .invalidValue

/-- Whether a value must be given. -/
def Slot.needsValue : Slot → Bool
  | .switch _ => false
  | _ => true

/-! ### Reading -/

/-- An option that has been named and whose value may stand in the next argument. -/
structure Pending where
  name : String
  slot : Slot
  value : Option String

/-- How far the reading has come. -/
structure Progress where
  options : Options := {}
  /-- The names of the options that have been stored. -/
  given : List String := []
  pending : Option Pending := none

namespace Progress

/-- Stores an option; a missing value is noticed before a repeated name. -/
def store (p : Progress) (name : String) (slot : Slot) (value : Option String) :
    Except Refusal Progress :=
  if slot.needsValue && value.isNone then .error .invalidValue
  else if p.given.contains name then .error .argumentConflict
  else do
    let options ← slot.store value p.options
    return ⟨options, name :: p.given, none⟩

/-- Stores the option that is pending, if there is one. -/
def settle (p : Progress) : Except Refusal Progress :=
  match p.pending with
  | none => .ok p
  | some ⟨name, slot, value⟩ => { p with pending := none }.store name slot value

/-- Goes on after the name of an option and perhaps its value. -/
def named (p : Progress) (name : String) (value : Option String) : Except Refusal Progress :=
  match slots.find? (·.1 = name) with
  | some (_, slot) => do
    let p ← p.settle
    match value with
    | some v => p.store name slot (some v)
    | none => return { p with pending := some ⟨name, slot, none⟩ }
  | none =>
    let shown : Option Refusal :=
      if name = "help" then some .displayHelp
      else if name = "version" then some .displayVersion
      else none
    match shown with
    | none => .error .unknownArgument
    | some refusal =>
      if value.isSome then .error .tooManyValues else p.settle.bind fun _ => .error refusal

/-- Goes on after a letter that follows a single dash. -/
def letter (p : Progress) (c : Char) : Except Refusal Progress :=
  if c = 'h' then p.settle.bind fun _ => .error .displayHelp
  else if c = 'V' then p.settle.bind fun _ => .error .displayVersion
  else .error .unknownArgument

/-- Goes on after an argument that does not look like an option: it is the value of the one that
is pending and has none yet. -/
def plain (p : Progress) (argument : String) : Except Refusal Progress :=
  match p.pending with
  | some ⟨name, slot, none⟩ => .ok { p with pending := some ⟨name, slot, some argument⟩ }
  | _ => .error .unknownArgument

/-- Splits what follows the two dashes at the first equals sign. -/
def splitName (cs : List Char) : String × Option String :=
  let name := String.ofList (cs.takeWhile (· ≠ '='))
  match cs.dropWhile (· ≠ '=') with
  | [] => (name, none)
  | _ :: value => (name, some (String.ofList value))

/-- Reads the arguments one by one. After two dashes alone, no argument is allowed. -/
def read (p : Progress) : List String → Except Refusal Progress
  | [] => p.settle
  | argument :: rest =>
    match argument.toList with
    | ['-', '-'] => if rest.isEmpty then p.settle else .error .unknownArgument
    | '-' :: '-' :: cs =>
      let (name, value) := splitName cs
      (p.named name value).bind fun p => p.read rest
    | '-' :: c :: _ => (p.letter c).bind fun p => p.read rest
    | _ => (p.plain argument).bind fun p => p.read rest

end Progress

/-- The options that the arguments give. -/
def parse (arguments : List String) : Except Refusal Options :=
  (Progress.read {} arguments).map (·.options)

end CertIssuer.CommandLine
