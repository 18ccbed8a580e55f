import ProofOfWork.Bytes.Hex
import ProofOfWork.Json.Text
import ProofOfWork.Report.Format
import ProofOfWork.Report.Writer
import ProofOfWork.Search.Attempt

/-! Reports: attempts written one per line. -/
namespace ProofOfWork

/-- A challenge is shown in JSON records only. -/
structure Report where
  format : LineFormat
  challenge : Option Bytes

namespace Report

inductive Error
  | io (cause : String)
  /-- The record itself could not be written, as against the end of its line. -/
  | json (cause : String)
  deriving DecidableEq

def Error.message : Error → String
  | .io cause => s!"IO error: {cause}"
  | .json cause => s!"JSON error: {cause}"

def jsonField (name value : String) : String :=
  Json.quote name ++ ":" ++ value

/-- The members of the JSON object, in their order. -/
def jsonFields (challenge : Option Bytes) (a : Attempt) : List String :=
  [jsonField "nonce" (Json.quote (Hex.encode a.nonce)),
    jsonField "leading_zeros" (toString a.leadingZeros),
    jsonField "passed" (toString a.passed)] ++
  challenge.toList.map fun c => jsonField "challenge" (Json.quote (Hex.encode c))

/-- What stands on the line of an attempt. -/
def record (r : Report) (a : Attempt) : String :=
  match r.format with
  | .text => Hex.encode a.nonce ++ " " ++ toString a.passed
  | .json => "\x7b" ++ ",".intercalate (jsonFields r.challenge a) ++ "\x7d"

def newline : Bytes := [10]

def recordBytes (r : Report) (a : Attempt) : Bytes :=
  Text.utf8 (r.record a).toList

/-- Writes the line of an attempt. -/
def write (r : Report) (w : Writer ω) (a : Attempt) (s : ω) : Except Error Unit × ω :=
  match r.format with
  | .text =>
    let (written, s) := w.writeAll (r.recordBytes a ++ newline) s
    (written.mapError .io, s)
  | .json =>
    match w.writeAll (r.recordBytes a) s with
    | (.error cause, s) => (.error (.json cause), s)
    | (.ok (), s) =>
      let (written, s) := w.writeAll newline s
      (written.mapError .io, s)

def flush (w : Writer ω) (s : ω) : Except Error Unit × ω :=
  let (flushed, s) := w.flush s
  (flushed.mapError .io, s)

end Report

end ProofOfWork
