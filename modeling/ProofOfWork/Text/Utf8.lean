import ProofOfWork.Bytes.Basic

/-! Characters as UTF-8 bytes. -/
namespace ProofOfWork.Text

def utf8 (text : List Char) : Bytes :=
  text.flatMap String.utf8EncodeChar

end ProofOfWork.Text
