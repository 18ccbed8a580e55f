import ProofOfWork.CommandLine.Values
import ProofOfWork.LogLine

/-! Settings of the log, which every command accepts. -/
namespace ProofOfWork

structure LogSettings where
  /-- How often more detail was asked for. -/
  verbosity : Nat
  file : Option String

namespace LogSettings

open CommandLine

def verboseArgument : Argument := ⟨"verbose", some 'v', .counter⟩

def fileArgument : Argument := .option "log-file" none "path"

def arguments : List Argument := [verboseArgument, fileArgument]

/-- The count is kept in a byte. -/
def verbosityLimit : Nat := 256

def ofScan (s : Scan) : Except Refusal LogSettings := do
  let file ← s.optional fileArgument .ok
  return { verbosity := s.count verboseArgument % verbosityLimit, file }

/-- Each argument is taken from the command or from its subcommand. -/
def ofScans (outer inner : Scan) : Except Refusal LogSettings := do
  let _ ← ofScan inner
  let _ ← ofScan outer
  let verbose := outer.prevailing inner verboseArgument
  let file := outer.prevailing inner fileArgument
  return { verbosity := (← ofScan verbose).verbosity, file := (← ofScan file).file }

def level (s : LogSettings) : LogLevel :=
  match s.verbosity with
  | 0 => .info
  | 1 => .debug
  | _ => .trace

/-- The settings on a command line of their own. -/
def command (title : String) : Command where
  title := title
  arguments := arguments ++ [.help, .version]
  subcommands := []

def ofWords (title : String) (words : List String) : Except Refusal LogSettings := do
  let (s, _) ← (command title).scan .empty words
  s.settle []
  ofScan s

end LogSettings

end ProofOfWork
