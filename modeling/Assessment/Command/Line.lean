import Assessment.Scalar

/-!
# The command line

The program has two commands on stored usages, each with its arguments in a fixed order, and the usual
requests for help and for the version.  `CommandLine.parse` says what a list of arguments asks for.
-/

namespace Assessment

/-- A command on stored usages. -/
inductive Command (ν : Type)
  /-- Replay the usages against the current definitions of their questions. -/
  | regrade (usageIds : List String)
  /-- Change the marks of a slot. -/
  | setMaxMark (slot : Nat) (mark : ν) (usageIds : List String)

/-- What a list of arguments asks for. -/
inductive Request (ν : Type)
  /-- Show a text and do nothing. -/
  | print (text : String)
  /-- The arguments make no sense. -/
  | misuse
  | run (command : Command ν)

namespace CommandLine

/-- The name of the program. -/
def programName : String := "trainingground-qengine"

/-- The version of the program. -/
def versionText : String := programName ++ " 0.1.0\n"

/-- The help on the program. -/
def helpText : String :=
  "Regrade stored question usages\n\nUsage: " ++ programName ++ " <COMMAND>\n\nCommands:\n"
  ++ "  regrade       Replay every attempt of the given usages against current question definitions\n"
  ++ "  set-max-mark  Change the max mark of one slot without replaying history\n"
  ++ "  help          Print this message or the help of the given subcommand(s)\n"
  ++ "\nOptions:\n  -h, --help     Print help\n  -V, --version  Print version\n"

/-- The help on regrading. -/
def regradeHelpText : String :=
  "Replay every attempt of the given usages against current question definitions\n\nUsage: "
  ++ programName ++ " regrade <USAGE_IDS>...\n\nArguments:\n  <USAGE_IDS>...  \n"
  ++ "\nOptions:\n  -h, --help  Print help\n"

/-- The help on changing marks. -/
def setMaxMarkHelpText : String :=
  "Change the max mark of one slot without replaying history\n\nUsage: " ++ programName
  ++ " set-max-mark <SLOT> <MARK> <USAGE_IDS>...\n\nArguments:\n  <SLOT>          \n"
  ++ "  <MARK>          \n  <USAGE_IDS>...  \n\nOptions:\n  -h, --help  Print help\n"

/-- The help on help. -/
def helpHelpText : String :=
  "Print this message or the help of the given subcommand(s)\n\nUsage: " ++ programName
  ++ " help [COMMAND]...\n\nArguments:\n  [COMMAND]...  Print help for the subcommand(s)\n"

/-- What an argument is, apart from its place. -/
inductive Shape
  /-- The end of the options. -/
  | endOfOptions
  /-- A word after two hyphens. -/
  | long (word : String)
  /-- A letter after one hyphen, with the text after the hyphen. -/
  | short (letter : Char) (text : String)
  /-- Anything else. -/
  | plain
  deriving Repr, DecidableEq

/-- The shape of an argument. -/
def Shape.of (arg : String) : Shape :=
  match arg.toList with
  | ['-', '-'] => endOfOptions
  | '-' :: '-' :: rest => long (String.ofList rest)
  | '-' :: c :: rest => short c (String.ofList (c :: rest))
  | _ => plain

/-- Whether an option asks for help. -/
def Shape.asksHelp : Shape → Bool
  | long word => word == "help"
  | short letter _ => letter == 'h'
  | _ => false

/-- Whether an option asks for the version. -/
def Shape.asksVersion : Shape → Bool
  | long word => word == "version"
  | short letter _ => letter == 'V'
  | _ => false

/-- Whether the text after a hyphen makes it a negative number: digits, with a point after some of
them and an exponent without a sign. -/
def isNumeral (text : String) : Bool :=
  let cs := text.toList
  let fraction := match cs.dropWhile Char.isDigit with
    | '.' :: rest => rest.dropWhile Char.isDigit
    | rest => rest
  cs.head?.any Char.isDigit && match fraction with
    | [] => true
    | c :: rest => (c == 'e' || c == 'E') && !rest.isEmpty && rest.all Char.isDigit

/-- The slot that an argument says. -/
def slot? (arg : String) : Option Nat :=
  (Number.readInt64? arg).bind fun n =>
    if 0 ≤ n ∧ n ≤ Number.max32 then some n.toNat else none

variable {ν : Type}

/-- Reads the arguments of a command.  `found` are the arguments found so far, `accepts` says whether
an option is an argument after all, `isValid` whether what was found so far makes sense. -/
def arguments (helpText : String) (accepts : List String → String → Bool)
    (isValid : List String → Bool) (finish : List String → Request ν) :
    Bool → List String → List String → Request ν
  | _, found, [] => finish found
  | true, found, arg :: rest => arguments helpText accepts isValid finish true (found ++ [arg]) rest
  | false, found, arg :: rest =>
    match Shape.of arg with
    | .endOfOptions => arguments helpText accepts isValid finish true found rest
    | .plain => arguments helpText accepts isValid finish false (found ++ [arg]) rest
    | .short letter text =>
      if accepts found text then
        arguments helpText accepts isValid finish false (found ++ [arg]) rest
      else if (Shape.short letter text).asksHelp && isValid found then .print helpText
      else .misuse
    | .long word =>
      if (Shape.long word).asksHelp && isValid found then .print helpText else .misuse

/-- The arguments of `regrade`: one or more ids. -/
def parseRegrade (args : List String) : Request ν :=
  arguments regradeHelpText (fun _ _ => false) (fun _ => true)
    (fun found => if found.isEmpty then .misuse else .run (.regrade found)) false [] args

variable [Scalar ν]

/-- Whether the arguments of `set-max-mark` make sense as far as they go. -/
def isMaxMarkStart (ν : Type) [Scalar ν] : List String → Bool
  | [] => true
  | [slot] => (slot? slot).isSome
  | slot :: mark :: _ => (slot? slot).isSome && (Scalar.read? mark : Option ν).isSome

/-- The arguments of `set-max-mark`: a slot, a mark, which may be negative, and one or more ids. -/
def parseSetMaxMark (args : List String) : Request ν :=
  arguments setMaxMarkHelpText (fun found text => found.length == 1 && isNumeral text)
    (isMaxMarkStart ν)
    (fun found =>
      match found with
      | slot :: mark :: id :: ids =>
        match slot? slot, Scalar.read? mark with
        | some n, some m => .run (.setMaxMark n m (id :: ids))
        | _, _ => .misuse
      | _ => .misuse)
    false [] args

/-- What `help` asks for with the names of commands. -/
def parseHelp : List String → Request ν
  | [] => .print helpText
  | ["regrade"] => .print regradeHelpText
  | ["set-max-mark"] => .print setMaxMarkHelpText
  | ["help"] => .print helpHelpText
  | _ => .misuse

/-- What the arguments of the program ask for. -/
def parse : List String → Request ν
  | [] => .misuse
  | "regrade" :: rest => parseRegrade rest
  | "set-max-mark" :: rest => parseSetMaxMark rest
  | "help" :: rest => parseHelp rest
  | arg :: _ =>
    if (Shape.of arg).asksHelp then .print helpText
    else if (Shape.of arg).asksVersion then .print versionText
    else .misuse

end CommandLine
end Assessment
