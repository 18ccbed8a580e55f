/-! Lines of the log. -/
namespace ProofOfWork

inductive LogLevel
  | info
  | debug
  | trace
  deriving DecidableEq

namespace LogLevel

def name : LogLevel → String
  | .info => "INFO"
  | .debug => "DEBUG"
  | .trace => "TRACE"

/-- A finer level shows all that a coarser one shows. -/
def detail : LogLevel → Nat
  | .info => 0
  | .debug => 1
  | .trace => 2

end LogLevel

structure LogLine where
  level : LogLevel
  text : String

def LogLine.render (line : LogLine) : String :=
  s!"{line.level.name} {line.text}"

end ProofOfWork
