import ProofOfWork.Difficulty.Basic
import ProofOfWork.Json.Text

/-! Difficulties as JSON strings of their hexadecimal text. -/
namespace ProofOfWork.Difficulty

def toJson (d : Difficulty) : String :=
  Json.quote d.toHex

def ofJson (document : String) : Except (Json.Error Error) Difficulty :=
  Json.readString (fun text => ofText (String.ofList text)) document.toList

end ProofOfWork.Difficulty
