import ArithTokens.Command.Response
import Std.Time.Format

/-!
# The program

Fetches what a response depends on (the arguments, the environment, the input), and writes the
response: its text to the standard output, the log to the standard error output.
-/

namespace ArithTokens.Command

/-- The values of the variables that a response depends on. -/
def fetchEnvironment : IO Environment := do
  let names := Flag.all.map Flag.variableName ++ Help.styleVariables
  let pairs ← names.mapM fun name => return (name, ← IO.getEnv name)
  return fun name => (pairs.lookup name).join

/-- All octets of a stream. -/
partial def readAll (stream : IO.FS.Stream) (before : ByteArray) : IO ByteArray := do
  let octets ← stream.read 65536
  if octets.isEmpty then return before else readAll stream (before ++ octets)

/-- The octets of a file, or why there are none. -/
def fetchFile (name : String) : IO Opened :=
  try
    return .octets (← IO.FS.readBinFile name).toList
  catch
    | .noFileOrDirectory .. => return .missing
    | e@(.inappropriateType _ code _) =>
      if code = 20 ∨ code = -20 then return .notDirectory
      else if code = 21 ∨ code = -21 then return .directory
      else throw e
    | e@(.invalidArgument _ code _) =>
      if code = 36 ∨ code = -36 then return .nameTooLong else throw e
    | e => throw e

def fetchInput (settings : Settings) : IO Opened := do
  match settings.file with
  | some name => fetchFile name
  | none => return .octets (← readAll (← IO.getStdin) .empty).toList

def fetchTime : IO Text := do
  let time := Std.Time.DateTime.ofTimestampWithZone (← Std.Time.Timestamp.now) .UTC
  return (time.toPlainDateTime.format "uuuu-MM-dd'T'HH:mm:ss.SSSSSS'Z'").toList

def respond (arguments : List String) : IO Response := do
  let environment ← fetchEnvironment
  match Settings.ofArguments environment arguments with
  | .error halt => return Response.ofHalt environment halt
  | .ok settings => return Response.ofOpened settings (← fetchInput settings)

end ArithTokens.Command

def main (arguments : List String) : IO UInt32 := do
  let response ← ArithTokens.Command.respond arguments
  (← IO.getStdout).putStr (String.ofList response.output)
  (← IO.getStderr).putStr
    (String.ofList (response.logText (← ArithTokens.Command.fetchTime)))
  return UInt32.ofNat response.exitStatus
