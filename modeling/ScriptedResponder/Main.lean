import ScriptedResponder.Scenario
import ScriptedResponder.Startup

/-!
The server's command line: it settles the configuration, reports how starting ended, and, when the
server runs, answers the structured events that arrive on standard input, one a line. Replies and
log records are written as lines of text.
-/

set_option autoImplicit false

namespace ScriptedResponder

def LogRecord.line (record : LogRecord) : String :=
  let shown : LogValue → String
    | .text value => value
    | .number value => toString value
    | .truth value => toString value
  record.fields.foldl (fun line field => line ++ " " ++ field.1 ++ "=" ++ shown field.2)
    (record.level.name ++ " " ++ record.message)

def structuredRequest (line : String) : Http.Request :=
  { method := "POST"
    path := "/"
    headers := [("content-type", Bytes.ofText Http.structuredContentType)]
    body := Bytes.ofText line }

def Http.Response.line (response : Http.Response) : String :=
  toString response.status ++ " " ++ (Bytes.text? response.body).getD ""

/-- Answer requests from standard input until it ends, each when its delivery is over. -/
partial def serve (timeline : Timeline) : IO Unit := do
  let line ← (← IO.getStdin).getLine
  if line.isEmpty then return
  let clock := max timeline.clock (← IO.monoNanosNow)
  let ready := { timeline with clock, records := [] }.runDue
  let (result, served) := ready.step (.exchange (structuredRequest line))
  for record in served.records do
    IO.eprintln record.line
  IO.sleep (Instant.milliseconds (served.clock - clock)).toUInt32
  match result with
  | .response response => IO.println response.line
  | _ => pure ()
  (← IO.getStdout).flush
  serve served

def readEnvironment : IO (List (String × String)) := do
  let values ← Flag.all.mapM fun flag => do
    let value? ← IO.getEnv flag.variableName
    return value?.map fun value => (flag.variableName, value)
  return values.filterMap id

def runServer (arguments : List String) : IO UInt32 := do
  let environment ← readEnvironment
  let canListen (host : String) (_ : Nat) : Bool := Startup.isDottedAddress host
  let startup := Startup.attempt canListen arguments fun name => environment.lookup name
  match startup with
  | .running settings sweep =>
      let clock ← IO.monoNanosNow
      serve (Startup.launch clock settings sweep)
  | .help =>
      for flag in Flag.all do
        IO.println ("--" ++ flag.name ++ " [env: " ++ flag.variableName ++ "]")
  | .overflowed overflow => IO.eprintln overflow.message
  | .refused (.unacceptableValue (some defect)) => IO.eprintln defect.message
  | .refused _ | .unbound _ => pure ()
  return (startup.exitStatus.getD 0).toUInt32

end ScriptedResponder

def main (arguments : List String) : IO UInt32 := ScriptedResponder.runServer arguments
