import ArithTokens.Text.Basic

/-!
# The command line

Arguments are read from left to right.  Each flag may be given once; a second file, an empty file
name and anything unknown make the command line invalid.  The first argument that asks for help or
the version, or is not valid, decides, and what follows it is not looked at.  A flag that is not
given is looked up in the environment when all arguments have been read; a variable must hold
`true` or `false`.
-/

namespace ArithTokens.Command

/-! ## Flags -/

inductive Flag
  | verbose
  | noColor
  | failFast
deriving DecidableEq

namespace Flag

/-- The name of a flag, behind two hyphens. -/
def name : Flag → String
  | verbose => "verbose"
  | noColor => "no-color"
  | failFast => "fail-fast"

/-- The letter of a flag, behind one hyphen, if it has one. -/
def letter? : Flag → Option Char
  | verbose => some 'v'
  | noColor => none
  | failFast => none

def all : List Flag :=
  [verbose, noColor, failFast]

/-- The variable of the environment that sets a flag. -/
def variableName : Flag → String
  | verbose => "ARITHLEX_VERBOSE"
  | noColor => "ARITHLEX_NO_COLOR"
  | failFast => "ARITHLEX_FAIL_FAST"

end Flag

/-- What is known of the environment: the values of its variables. -/
abbrev Environment :=
  String → Option String

/-! ## Arguments -/

/-- What arguments have said so far. -/
structure Arguments where
  file : Option String
  flags : List Flag
  /-- Whether only file names may follow. -/
  onlyFiles : Bool

/-- Why no run comes of a command line. -/
inductive Halt
  | help
  | version
  | invalid
deriving DecidableEq

namespace Arguments

def start : Arguments :=
  ⟨none, [], false⟩

/-- Takes a flag, unless it has been given before. -/
def takeFlag (a : Arguments) (flag : Flag) : Except Halt Arguments :=
  if flag ∈ a.flags then .error .invalid else .ok { a with flags := flag :: a.flags }

/-- Takes a file name, unless it is empty or there is one already. -/
def takeFile (a : Arguments) (name : String) : Except Halt Arguments :=
  if name.isEmpty || a.file.isSome then .error .invalid else .ok { a with file := some name }

/-- Takes a word behind two hyphens. -/
def takeLong (a : Arguments) (word : Text) : Except Halt Arguments :=
  match Flag.all.find? (·.name.toList = word) with
  | some flag => a.takeFlag flag
  | none =>
    if word = "help".toList then .error .help
    else if word = "version".toList then .error .version
    else .error .invalid

/-- Takes a letter behind one hyphen. -/
def takeShort (a : Arguments) (letter : Char) : Except Halt Arguments :=
  match Flag.all.find? (·.letter? = some letter) with
  | some flag => a.takeFlag flag
  | none =>
    if letter = 'h' then .error .help
    else if letter = 'V' then .error .version
    else .error .invalid

/-- Takes an argument.  A single hyphen is a file name, and after two hyphens that stand alone
everything is. -/
def take (a : Arguments) (argument : String) : Except Halt Arguments :=
  if a.onlyFiles then a.takeFile argument
  else
    match argument.toList with
    | ['-', '-'] => .ok { a with onlyFiles := true }
    | '-' :: '-' :: word => a.takeLong word
    | '-' :: letter :: more => (letter :: more).foldlM takeShort a
    | _ => a.takeFile argument

end Arguments

/-! ## Settings -/

/-- The settings of a run; without a file it reads the standard input. -/
structure Settings where
  file : Option String
  verbose : Bool
  noColor : Bool
  failFast : Bool
deriving DecidableEq

namespace Settings

/-- Whether a flag is set, by an argument or else by the environment. -/
def isSet (environment : Environment) (a : Arguments) (flag : Flag) : Except Halt Bool :=
  if flag ∈ a.flags then .ok true
  else
    match environment flag.variableName with
    | none => .ok false
    | some value =>
      if value = "true" then .ok true
      else if value = "false" then .ok false
      else .error .invalid

def ofArguments (environment : Environment) (arguments : List String) : Except Halt Settings := do
  let a ← arguments.foldlM Arguments.take Arguments.start
  let verbose ← isSet environment a .verbose
  let noColor ← isSet environment a .noColor
  let failFast ← isSet environment a .failFast
  return ⟨a.file, verbose, noColor, failFast⟩

/-- The name of the input in reports. -/
def origin (settings : Settings) : Text :=
  match settings.file with
  | none => "stdin".toList
  | some file => file.toList

end Settings

end ArithTokens.Command
