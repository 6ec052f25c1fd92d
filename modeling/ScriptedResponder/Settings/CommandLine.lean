import ScriptedResponder.Settings

/-!
Settings from a command line and an environment. The arguments are read in order. A flag whose
value is its own argument is settled when the next flag, the request for help or the end is reached;
an argument that nothing expects is refused at once. Then every flag that was not given is looked
up in the environment, in the order of the flags, and what is still open takes its default.
-/

set_option autoImplicit false

namespace ScriptedResponder

inductive Flag
  | host
  | port
  | storageTtl
  | sweepInterval
  | logFormat
  deriving DecidableEq, Repr

namespace Flag

def all : List Flag := [.host, .port, .storageTtl, .sweepInterval, .logFormat]

def name : Flag → String
  | .host => "host"
  | .port => "port"
  | .storageTtl => "storage-ttl"
  | .sweepInterval => "sweep-interval"
  | .logFormat => "log-format"

def variableName : Flag → String
  | .host => "REPLIER_HOST"
  | .port => "REPLIER_PORT"
  | .storageTtl => "REPLIER_STORAGE_TTL"
  | .sweepInterval => "REPLIER_SWEEP_INTERVAL"
  | .logFormat => "REPLIER_LOG_FORMAT"

def ofName? (text : String) : Option Flag := all.find? fun flag => flag.name = text

end Flag

inductive Refusal
  | unknownArgument
  | invalidValue
  | unacceptableValue (cause : Option SecondsError)
  | repeatedFlag
  | unneededValue
  | helpRequested
  deriving DecidableEq, Repr

structure Choices where
  host : Option String
  port : Option Nat
  storageTtl : Option Nat
  sweepInterval : Option Nat
  logFormat : Option LogFormat
  deriving DecidableEq, Repr

namespace Choices

def empty : Choices :=
  { host := none, port := none, storageTtl := none, sweepInterval := none, logFormat := none }

def isGiven (choices : Choices) : Flag → Bool
  | .host => choices.host.isSome
  | .port => choices.port.isSome
  | .storageTtl => choices.storageTtl.isSome
  | .sweepInterval => choices.sweepInterval.isSome
  | .logFormat => choices.logFormat.isSome

def choose (choices : Choices) (flag : Flag) (text : String) : Except Refusal Choices :=
  match flag with
  | .host => .ok { choices with host := some text }
  | .port =>
      match Settings.port? text with
      | none => .error (.unacceptableValue none)
      | some port => .ok { choices with port := some port }
  | .storageTtl =>
      match Settings.seconds? text with
      | .error defect => .error (.unacceptableValue (some defect))
      | .ok seconds => .ok { choices with storageTtl := some seconds }
  | .sweepInterval =>
      match Settings.seconds? text with
      | .error defect => .error (.unacceptableValue (some defect))
      | .ok seconds => .ok { choices with sweepInterval := some seconds }
  | .logFormat =>
      match Settings.logFormat? text with
      | none => .error .invalidValue
      | some format => .ok { choices with logFormat := some format }

/-- Choose the value of a flag on the command line, where it may be given once only. -/
def give (choices : Choices) (flag : Flag) (text : String) : Except Refusal Choices :=
  if choices.isGiven flag then .error .repeatedFlag else choices.choose flag text

def addVariable (environment : String → Option String) (choices : Choices) (flag : Flag) :
    Except Refusal Choices :=
  if choices.isGiven flag then .ok choices
  else
    match environment flag.variableName with
    | none => .ok choices
    | some text => choices.choose flag text

def toSettings (choices : Choices) : Settings :=
  { host := choices.host.getD Settings.default.host
    port := choices.port.getD Settings.default.port
    storageTtl := choices.storageTtl.getD Settings.default.storageTtl
    sweepInterval := choices.sweepInterval
    logFormat := choices.logFormat.getD Settings.default.logFormat }

end Choices

namespace CommandLine

/-- A flag that waits for its value, or for its value to be judged. -/
inductive Pending
  | nothing
  | flag (flag : Flag)
  | value (flag : Flag) (text : String)
  deriving DecidableEq, Repr

structure State where
  choices : Choices
  pending : Pending
  deriving DecidableEq, Repr

inductive Argument
  | separator
  | flag (flag : Flag)
  | assignment (flag : Flag) (text : String)
  | help
  | helpAssignment
  | unknownFlag
  | plain (text : String)
  deriving DecidableEq, Repr

def splitAssignment (text : List Char) : List Char × Option (List Char) :=
  match text.dropWhile (· ≠ '=') with
  | [] => (text, none)
  | _ :: value => (text.takeWhile (· ≠ '='), some value)

def classify (argument : String) : Argument :=
  match argument.toList with
  | ['-', '-'] => .separator
  | '-' :: '-' :: long =>
      let (name, value?) := splitAssignment long
      if name = "help".toList then if value?.isSome then .helpAssignment else .help
      else
        match Flag.ofName? (String.ofList name), value? with
        | none, _ => .unknownFlag
        | some flag, none => .flag flag
        | some flag, some value => .assignment flag (String.ofList value)
  | ['-'] => .plain argument
  | '-' :: 'h' :: _ => .help
  | '-' :: _ => .unknownFlag
  | _ => .plain argument

def settle (state : State) : Except Refusal Choices :=
  match state.pending with
  | .nothing => .ok state.choices
  | .flag _ => .error .invalidValue
  | .value flag text => state.choices.give flag text

def readArgument (state : State) : Argument → Except Refusal State
  | .flag flag => do
      let choices ← settle state
      return { choices, pending := .flag flag }
  | .assignment flag text => do
      let choices ← settle state
      let choices ← choices.give flag text
      return { choices, pending := .nothing }
  | .help => do
      let _ ← settle state
      .error .helpRequested
  | .helpAssignment => .error .unneededValue
  | .plain text =>
      match state.pending with
      | .flag flag => .ok { state with pending := .value flag text }
      | _ => .error .unknownArgument
  | .separator | .unknownFlag => .error .unknownArgument

/-- Read arguments and settle what is pending at their end; after a separator there may be none. -/
def read (state : State) : List String → Except Refusal Choices
  | [] => settle state
  | argument :: rest =>
      match classify argument with
      | .separator => if rest.isEmpty then settle state else .error .unknownArgument
      | known =>
          match readArgument state known with
          | .error refusal => .error refusal
          | .ok state => read state rest

def settings (arguments : List String) (environment : String → Option String) :
    Except Refusal Settings := do
  let given ← read { choices := .empty, pending := .nothing } arguments
  let choices ← Flag.all.foldlM (Choices.addVariable environment) given
  return choices.toSettings

end CommandLine

end ScriptedResponder
