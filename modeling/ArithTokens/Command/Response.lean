import ArithTokens.Command.Help
import ArithTokens.Command.Run

/-!
# Responses

What the command answers: a text on the standard output, events in the log, perhaps a failure, and
the exit status.  It is a function of the command line, the environment and what the file system
says about the input, so that nothing else is left to the program than to fetch the one and to
write the other.
-/

namespace ArithTokens.Command

/-! ## Inputs -/

inductive Opened
  /-- The octets of a file. -/
  | octets (contents : List UInt8)
  /-- A directory, which can be opened and not read. -/
  | directory
  /-- There is no such file. -/
  | missing
  /-- A part of the path is a file and no directory. -/
  | notDirectory
  /-- A part of the path is longer than any name can be, or the path itself is too long. -/
  | nameTooLong

/-- Why a command fails after its settings are known. -/
inductive Failure
  | cannotOpen (origin reason : Text)
  | cannotRead (line : Nat) (origin reason : Text)
  | outOfLimit (limit : Limit)
deriving DecidableEq

def Failure.toText : Failure → Text
  | cannotOpen origin reason =>
    Text.ofLines ["Error: Failed to open ".toList ++ origin, [], "Caused by:".toList,
      "    ".toList ++ reason]
  | cannotRead line origin reason =>
    Text.ofLines
      ["Error: Failed to read line ".toList ++ Text.ofNat line ++ " of ".toList ++ origin, [],
        "Caused by:".toList, "    ".toList ++ reason]
  | outOfLimit limit => Text.ofLines [limit.message]

/-! ## Fixed answers -/

def usage : Text :=
  Text.ofLines ["Invalid args!".toList, "Usage: arithlex [path to file]".toList]

def versionText : Text :=
  Text.ofLines ["arithlex 0.1.0".toList]

/-! ## Responses -/

structure Response where
  output : Text
  /-- The events that are kept. -/
  events : List Event
  /-- Whether the events are shown in color. -/
  colored : Bool
  failure : Option Failure
  exitStatus : Nat

namespace Response

def ofText (exitStatus : Nat) (output : Text) : Response :=
  ⟨output, [], false, none, exitStatus⟩

/-- The answer to a command line that asks for no run. -/
def ofHalt (environment : Environment) : Halt → Response
  | .help => ofText 0 (Help.text environment)
  | .version => ofText 0 versionText
  | .invalid => ofText 1 usage

def ofRun (settings : Settings) (run : Run) : Response :=
  { output := run.output.flatten
    events := run.events.filter (·.isKept settings.verbose)
    colored := !settings.noColor
    failure :=
      match run.ending with
      | .outOfLimit limit => some (.outOfLimit limit)
      | _ => none
    exitStatus :=
      match run.ending with
      | .complete => 0
      | .failedFast => 1
      | .outOfLimit _ => 101 }

/-- The answer where no line can be read, after the given events. -/
def ofFailure (settings : Settings) (events : List Event) (failure : Failure) : Response :=
  { output := []
    events := events.filter (·.isKept settings.verbose)
    colored := !settings.noColor
    failure := some failure
    exitStatus := 1 }

/-- The answer to a command line that asks for a run, by what comes of opening the input. -/
def ofOpened (settings : Settings) : Opened → Response
  | .octets contents => ofRun settings (Run.ofInput settings.failFast settings.origin contents)
  | .directory =>
    ofFailure settings [.reading settings.origin]
      (.cannotRead 1 settings.origin "Is a directory (os error 21)".toList)
  | .missing =>
    ofFailure settings []
      (.cannotOpen settings.origin "No such file or directory (os error 2)".toList)
  | .notDirectory =>
    ofFailure settings [] (.cannotOpen settings.origin "Not a directory (os error 20)".toList)
  | .nameTooLong =>
    ofFailure settings [] (.cannotOpen settings.origin "File name too long (os error 36)".toList)

/-- The text of the log, with one time for all events, and of the failure. -/
def logText (time : Text) (r : Response) : Text :=
  Text.ofLines (r.events.map (·.toText r.colored time)) ++
    match r.failure with
    | none => []
    | some failure => failure.toText

end Response

end ArithTokens.Command
