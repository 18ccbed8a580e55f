/-! Single bytes shown as quoted characters. -/
namespace ProofOfWork.Text

/-- Control characters and the soft hyphen have no shape of their own. -/
def isShapeless (n : Nat) : Bool :=
  n < 32 || (127 ≤ n && n < 160) || n == 173

/-- Escapes have letters of their own for the commonest controls and else the code point. -/
def escaped (n : Nat) : String :=
  match n with
  | 0 => "\\0"
  | 9 => "\\t"
  | 10 => "\\n"
  | 13 => "\\r"
  | 39 => "\\'"
  | 92 => "\\\\"
  | _ =>
    if isShapeless n then "\\u\x7b" ++ String.ofList (Nat.toDigits 16 n) ++ "\x7d"
    else String.singleton (Char.ofNat n)

/-- The character whose code point is the byte, in single quotes. -/
def quoted (b : UInt8) : String :=
  "'" ++ escaped b.toNat ++ "'"

end ProofOfWork.Text
