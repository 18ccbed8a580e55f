import ProofOfWork.CommandLine.Argument

/-!
Splitting a command line into occurrences of arguments and their values. An option takes the next
word unless that starts like an argument; an attached value loses the equals signs in front.
-/
namespace ProofOfWork.CommandLine

/-- Something met on the command line, by the long name of its argument. -/
inductive Event
  | occurrence (long : String)
  | value (long text : String)

structure Scan where
  events : List Event
  /-- The option that the next word may be the value of. -/
  pending : Option Argument
  /-- Two hyphens have closed the arguments. -/
  closed : Bool

namespace Scan

def empty : Scan := ⟨[], none, false⟩

def count (s : Scan) (a : Argument) : Nat :=
  s.events.countP fun
    | .occurrence long => long == a.long
    | .value _ _ => false

def given (s : Scan) (a : Argument) : List String :=
  s.events.filterMap fun
    | .occurrence _ => none
    | .value long text => if long == a.long then some text else none

def takeValue (s : Scan) (a : Argument) (text : List Char) : Scan :=
  { s with events := s.events ++ [.value a.long (String.ofList text)], pending := none }

/-- An argument is met, perhaps with a value attached; a flag ignores it. -/
def meet (c : Command) (s : Scan) (a : Argument) (attached : Option (List Char)) :
    Except Refusal Scan :=
  let met := { s with events := s.events ++ [.occurrence a.long], pending := none }
  match a.kind, attached with
  | .help, _ => .error (.help c)
  | .version, _ => .error (.version c.title)
  | .flag, _ => .ok met
  | .counter, _ => .ok met
  | .value _ _, some text => .ok (met.takeValue a (text.dropWhile (· == '=')))
  | .value _ _, none => .ok { met with pending := some a }

/-- A word in front of an equals sign, and the rest after it. -/
def splitAtEquals (text : List Char) : List Char × Option (List Char) :=
  (text.takeWhile (· != '='), (text.dropWhile (· != '=')).tail?)

/-- All hyphens in front of a long name are dropped. -/
def scanLong (c : Command) (s : Scan) (text : List Char) : Except Refusal Scan :=
  let (name, attached) := splitAtEquals (text.dropWhile (· == '-'))
  match c.arguments.find? (·.long == String.ofList name) with
  | some a => s.meet c a attached
  | none => .error (.unknownArgument (String.ofList text))

/-- Letters that stand for flags, up to one that takes the rest as its value. -/
def scanShort (c : Command) (s : Scan) : List Char → Except Refusal Scan
  | [] => .ok s
  | letter :: rest =>
    match c.arguments.find? (·.short == some letter) with
    | none => .error (.unknownArgument ("-" ++ String.singleton letter))
    | some a =>
      if a.takesValue then s.meet c a (if rest.isEmpty then none else some rest)
      else do scanShort c (← s.meet c a none) rest

end Scan

/-- The scan of a command, up to a subcommand with the words after it. -/
def Command.scan (c : Command) (s : Scan) :
    List String → Except Refusal (Scan × Option (String × List String))
  | [] => .ok (s, none)
  | word :: rest =>
    if s.closed then .error (.unknownArgument word)
    else if word == "--" then c.scan { s with closed := true } rest
    else if s.pending.isNone && c.subcommands.contains word then .ok (s, some (word, rest))
    else
      match word.toList with
      | '-' :: '-' :: _ => do c.scan (← s.scanLong c word.toList) rest
      | '-' :: letter :: letters => do c.scan (← s.scanShort c (letter :: letters)) rest
      | text =>
        match s.pending with
        | some a => c.scan (s.takeValue a text) rest
        | none => .error (.unknownArgument word)

end ProofOfWork.CommandLine
