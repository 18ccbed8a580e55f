import ProofOfWork.Text.Blank

/-! The arguments that a command accepts, and why a command line is refused. -/
namespace ProofOfWork.CommandLine

inductive Kind
  | flag
  /-- A flag that counts how often it is given. -/
  | counter
  /-- An option with a value, which may have a default. -/
  | value (name : String) (default? : Option String)
  | help
  | version
  deriving DecidableEq

structure Argument where
  long : String
  short : Option Char
  kind : Kind
  deriving DecidableEq

namespace Argument

def flag (long : String) : Argument := ⟨long, none, .flag⟩

def option (long : String) (short : Option Char) (name : String) : Argument :=
  ⟨long, short, .value name none⟩

def defaulted (long : String) (short : Option Char) (name value : String) : Argument :=
  ⟨long, short, .value name (some value)⟩

def help : Argument := ⟨"help", some 'h', .help⟩

def version : Argument := ⟨"version", some 'V', .version⟩

def default? (a : Argument) : Option String :=
  match a.kind with
  | .value _ value => value
  | _ => none

def takesValue (a : Argument) : Bool :=
  match a.kind with
  | .value _ _ => true
  | _ => false

def mayRepeat (a : Argument) : Bool :=
  a.kind == .counter

/-- The argument with the name of its value. -/
def usage (a : Argument) : String :=
  match a.kind with
  | .value name _ => s!"--{a.long} <{name}>"
  | _ => s!"--{a.long}"

end Argument

/-- A command with its arguments; the word `help` is a subcommand wherever there are others. -/
structure Command where
  title : String
  arguments : List Argument
  subcommands : List String

/-- The title, and the arguments one to a line. -/
def Command.page (c : Command) : List String :=
  [c.title, "", "Arguments:"] ++ c.arguments.map (fun a => "    " ++ a.usage) ++
    if c.subcommands.isEmpty then [] else ["", "Commands:"] ++ c.subcommands.map ("    " ++ ·)

inductive Refusal
  /-- The page of a command was asked for. -/
  | help (c : Command)
  | version (title : String)
  | unknownArgument (text : String)
  | unknownCommand (text : String)
  | missingCommand
  | missingArgument (a : Argument)
  | emptyValue (a : Argument)
  | invalidValue (a : Argument) (cause : String)
  | repeated (a : Argument)

/-- Blanks at the end are cut. -/
def Refusal.message (r : Refusal) : String :=
  let text :=
    match r with
    | .help c => c.title
    | .version title => title
    | .unknownArgument text => s!"error: Found argument '{text}' which wasn't expected"
    | .unknownCommand text => s!"error: The subcommand '{text}' wasn't recognized"
    | .missingCommand => "error: A subcommand is required"
    | .missingArgument a => s!"error: The required argument '{a.usage}' was not provided"
    | .emptyValue a => s!"error: The argument '{a.usage}' requires a value but none was supplied"
    | .invalidValue a cause => s!"error: Invalid value for '{a.usage}': {cause}"
    | .repeated a => s!"error: The argument '{a.usage}' was provided more than once"
  String.ofList (Text.trimEnd text.toList)

end ProofOfWork.CommandLine
