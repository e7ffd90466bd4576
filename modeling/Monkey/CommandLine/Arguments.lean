import Monkey.Text
import Monkey.Text.Digit
import Monkey.Text.Quoted

/-!
The arguments of a command. Options may stand anywhere before `--`; file names stand in one row,
which options may not divide. What fits nowhere is reported once all arguments have been read,
unless help was asked for before. An argument for a flag, which none takes, is reported at once.
-/

namespace Monkey

inductive Flag where
  | help | verbose
deriving DecidableEq

namespace Flag

def ofLetter? : Char → Option Flag
  | 'h' => some help
  | 'v' => some verbose
  | _ => none

/-- The long name, where there is one. It may be cut short. -/
def ofLongName? (name : List Char) : Option Flag :=
  if name.isPrefixOf "--help".toList then some help else none

def names : Flag → String
  | help => "-h/--help"
  | verbose => "-v"

end Flag

/-- What one argument is taken for. -/
inductive Argument where
  | fileName (text : String)
  /-- `--`, after which all arguments are file names. -/
  | separator
  | flags (flags : List Flag)
  /-- It has the look of a flag, but is none. -/
  | unknown (text : String)
  /-- A flag was given an argument, which none takes. -/
  | surplus (flag : Flag) (argument : String)

namespace Argument

/-- Reads on after the letter of a flag. Every letter has to be a flag again; from the first that is
none, the rest is an argument for the flag before it. -/
def cluster (flag : Flag) : List Char → Argument
  | [] => flags [flag]
  | c :: rest =>
    match Flag.ofLetter? c with
    | none => surplus flag (String.ofList (c :: rest))
    | some next =>
      match cluster next rest with
      | flags more => flags (flag :: more)
      | other => other

/-- Reads what comes after a dash and the letter of a flag. An equals sign there is passed over, but
then something has to follow. -/
def short (flag : Flag) : List Char → Argument
  | ['='] => surplus flag ""
  | '=' :: letters => cluster flag letters
  | letters => cluster flag letters

/-- Reads what begins with two dashes. -/
def long? (text : List Char) : Option Argument :=
  let name := text.takeWhile (· ≠ '=')
  (Flag.ofLongName? name).map fun flag =>
    match text.dropWhile (· ≠ '=') with
    | [] => flags [flag]
    | _ :: argument => surplus flag (String.ofList argument)

/-- Digits, perhaps with a point among or before them, after a dash. -/
def isNegativeNumber (text : List Char) : Bool :=
  match text with
  | '-' :: number =>
    let number := if number.getLast? = some '\n' then number.dropLast else number
    match number.dropWhile Text.isDecimalDigit with
    | [] => !number.isEmpty
    | '.' :: places => !places.isEmpty && places.all Text.isDecimalDigit
    | _ => false
  | _ => false

/-- What names no flag is a file name if it is a number or holds a blank. -/
def unnamed (text : List Char) : Argument :=
  if isNegativeNumber text || text.contains ' ' then fileName (String.ofList text)
  else unknown (String.ofList text)

def ofText (text : String) : Argument :=
  match text.toList with
  | ['-', '-'] => separator
  | '-' :: '-' :: rest => (long? ('-' :: '-' :: rest)).getD (unnamed ('-' :: '-' :: rest))
  | '-' :: c :: rest =>
    match Flag.ofLetter? c with
    | some flag => short flag rest
    | none => unnamed ('-' :: c :: rest)
  | _ => fileName text

end Argument

/-- What a command is asked to do. -/
inductive Request where
  | help
  /-- The arguments make no sense, for the reason given. -/
  | misuse (reason : String)
  /-- Runs the files, or the shell if there are none. -/
  | run (verbosity : Nat) (files : List String)

/-- The one row of file names: still to come, being read, or past. -/
inductive Row where
  | ahead | current | past
deriving DecidableEq

/-- What has been read of the arguments. -/
structure Arguments where
  verbosity : Nat
  files : List String
  row : Row
  unrecognized : List String

namespace Arguments

def start : Arguments := ⟨0, [], .ahead, []⟩

def addFile (arguments : Arguments) (name : String) : Arguments :=
  if arguments.row = .past then
    { arguments with unrecognized := arguments.unrecognized ++ [name] }
  else
    { arguments with files := arguments.files ++ [name], row := .current }

/-- The separator belongs to the row of file names, but is none. -/
def addSeparator (arguments : Arguments) : Arguments :=
  if arguments.row = .past then
    { arguments with unrecognized := arguments.unrecognized ++ ["--"] }
  else
    { arguments with row := .current }

/-- What has the look of an option ends the row of file names. -/
def endRow (arguments : Arguments) : Arguments :=
  { arguments with row := if arguments.row = .ahead then .ahead else .past }

def addFlags (arguments : Arguments) (flags : List Flag) : Arguments :=
  { arguments.endRow with verbosity := arguments.verbosity + flags.count .verbose }

def addUnknown (arguments : Arguments) (text : String) : Arguments :=
  { arguments.endRow with unrecognized := arguments.unrecognized ++ [text] }

def request (arguments : Arguments) : Request :=
  if arguments.unrecognized.isEmpty then .run arguments.verbosity arguments.files
  else .misuse ("unrecognized arguments: " ++ Text.joined " " arguments.unrecognized)

def read (arguments : Arguments) : List String → Request
  | [] => arguments.request
  | text :: rest =>
    match Argument.ofText text with
    | .fileName name => (arguments.addFile name).read rest
    | .separator => (rest.foldl addFile arguments.addSeparator).request
    | .flags flags => if flags.contains .help then .help else (arguments.addFlags flags).read rest
    | .unknown text => (arguments.addUnknown text).read rest
    | .surplus flag argument =>
      .misuse ("argument " ++ flag.names ++ ": ignored explicit argument " ++ Text.quoted argument)

end Arguments

def Request.ofArguments (arguments : List String) : Request := Arguments.start.read arguments

end Monkey
