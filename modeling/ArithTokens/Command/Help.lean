import ArithTokens.Command.Settings
import ArithTokens.Text.ControlSequence
import ArithTokens.Text.Rendition

/-!
# The help

The help lists the file and the options, each with a description; the description of a flag ends
with the variable that sets it and the value of that variable.  Headings and names that are
written as they stand are marked for terminals, and the marks are taken out again unless the
environment asks for them.  They are taken out of the whole help, so a control sequence in the
value of a variable goes with them.
-/

namespace ArithTokens.Command.Help

/-! ## Style -/

/-- The variable that asks for marks. -/
def forceColor : String :=
  "CLICOLOR_FORCE"

/-- The variable that asks for no marks, even if the other one asks for them. -/
def noColor : String :=
  "NO_COLOR"

def styleVariables : List String :=
  [noColor, forceColor]

/-- Whether a variable says something: it is set, and not to the empty text. -/
def isSaid (environment : Environment) (name : String) : Bool :=
  (environment name).any (!·.isEmpty)

def isMarked (environment : Environment) : Bool :=
  isSaid environment forceColor && !isSaid environment noColor

def heading (s : Text) : Text :=
  Rendition.render [Rendition.bold, Rendition.underlined] (s ++ [':'])

/-- A name that is written as it stands. -/
def literal (s : Text) : Text :=
  Rendition.render [Rendition.bold] s

/-! ## Options -/

/-- The column in which descriptions of options start. -/
def descriptionColumn : Nat :=
  19

/-- A text of which each line after the first starts in the column `column`. -/
def hang (column : Nat) (s : Text) : Text :=
  s.flatMap fun c => if c = '\n' then c :: List.replicate column ' ' else [c]

/-- The letter and the name of an option, filled up to the column of the descriptions.  Before the
name there is room for the letter with its hyphen, a comma and blanks. -/
def optionNames (letter? : Option Char) (name : Text) : Text :=
  (match letter? with
    | some letter => ' ' :: ' ' :: literal ['-', letter] ++ [',', ' ']
    | none => List.replicate 6 ' ') ++
    literal ('-' :: '-' :: name) ++ List.replicate (descriptionColumn - (name.length + 8)) ' '

def option (letter? : Option Char) (name description : Text) : Text :=
  optionNames letter? name ++ hang descriptionColumn description

/-- What a flag is for. -/
def purpose : Flag → Text
  | .verbose => "Enable verbose logging on stderr".toList
  | .noColor => "Disable color in log output".toList
  | .failFast => "Stop at the first line that fails to lex and exit with status 1".toList

/-- The variable of a flag with its value, which is empty if the variable is not set. -/
def variableText (environment : Environment) (flag : Flag) : Text :=
  "[env: ".toList ++ flag.variableName.toList ++
    '=' :: ((environment flag.variableName).getD "").toList ++ [']']

def flagOption (environment : Environment) (flag : Flag) : Text :=
  option flag.letter? flag.name.toList
    (purpose flag ++ ' ' :: variableText environment flag)

/-! ## The text -/

def marked (environment : Environment) : Text :=
  Text.ofLines
    (["Tokenize arithmetic expressions, one per line".toList,
      [],
      heading "Usage".toList ++ ' ' :: literal "arithlex".toList ++ " [OPTIONS] [FILE]".toList,
      [],
      heading "Arguments".toList,
      "  [FILE]  File to read; standard input when omitted".toList,
      [],
      heading "Options".toList] ++
    Flag.all.map (flagOption environment) ++
    [option (some 'h') "help".toList "Print help".toList,
      option (some 'V') "version".toList "Print version".toList])

def text (environment : Environment) : Text :=
  if isMarked environment then marked environment
  else ControlSequence.visible (marked environment)

end ArithTokens.Command.Help
