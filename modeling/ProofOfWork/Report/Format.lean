import ProofOfWork.Text.Lowercase

/-! The line formats of reports. -/
namespace ProofOfWork

inductive LineFormat
  /-- The nonce in hexadecimal, a space, and the verdict. -/
  | text
  /-- One JSON object. -/
  | json
  deriving DecidableEq

namespace LineFormat

instance : Inhabited LineFormat := ⟨text⟩

def name : LineFormat → String
  | .text => "text"
  | .json => "json"

/-- An unknown format keeps its name in lowercase. -/
structure Invalid where
  text : String

def Invalid.message (e : Invalid) : String :=
  s!"Invalid report format: {e.text}"

def ofText (text : String) : Except Invalid LineFormat :=
  match String.ofList (Text.lowercase text.toList) with
  | "text" => .ok .text
  | "json" => .ok .json
  | other => .error ⟨other⟩

end LineFormat

end ProofOfWork
