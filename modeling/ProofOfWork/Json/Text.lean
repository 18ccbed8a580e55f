import ProofOfWork.Json.Number
import ProofOfWork.Text.Utf8

/-!
JSON documents that should hold one string. Any other value is named, and a string is handed to a
reader of its own before the rest of the document is looked at.
-/
namespace ProofOfWork.Json

/-- A value that is no string; lists and objects are not read. -/
inductive Other
  | null
  | boolean (b : Bool)
  | number (n : Number)
  | sequence
  | map

def Other.describe : Other → String
  | .null => "null"
  | .boolean b => s!"boolean `{b}`"
  | .number n => n.describe
  | .sequence => "sequence"
  | .map => "map"

/-- Lines count from one; a column is the number of characters of the line so far. -/
structure Position where
  line : Nat
  column : Nat

/-- The position after `consumed`. -/
def Position.after (consumed : List Char) : Position where
  line := consumed.count '\n' + 1
  column := (consumed.reverse.takeWhile (· != '\n')).length

inductive Error (ε : Type)
  | fault (fault : Fault)
  | wrongType (found : Other) (position : Position)
  | rejected (cause : ε)

def isSpace (c : Char) : Bool :=
  c == ' ' || c == '\n' || c == '\t' || c == '\r'

def skipSpace (text : List Char) : List Char :=
  text.dropWhile isSpace

def hexValue? (c : Char) : Option Nat :=
  let n := c.toNat
  if c.isDigit then some (n - 48)
  else if 65 ≤ n ∧ n ≤ 70 then some (n - 55)
  else if 97 ≤ n ∧ n ≤ 102 then some (n - 87)
  else none

/-- The four digits of an escape; fewer than four bytes are an end too early. -/
def hexEscape (text : List Char) : Except Fault (Nat × List Char) :=
  if (Text.utf8 (text.take 4)).length < 4 then .error .truncated
  else
    match text with
    | a :: b :: c :: d :: rest =>
      match hexValue? a, hexValue? b, hexValue? c, hexValue? d with
      | some a, some b, some c, some d => .ok (((16 * a + b) * 16 + c) * 16 + d, rest)
      | _, _, _, _ => .error .malformed
    | _ => .error .malformed

/-- The escape must go on with the given character. -/
def expectChar (c : Char) : List Char → Except Fault (List Char)
  | [] => .error .truncated
  | d :: rest => if d = c then .ok rest else .error .malformed

def isHighSurrogate (n : Nat) : Bool :=
  0xD800 ≤ n && n ≤ 0xDBFF

def isLowSurrogate (n : Nat) : Bool :=
  0xDC00 ≤ n && n ≤ 0xDFFF

def joinSurrogates (high low : Nat) : Char :=
  Char.ofNat (0x10000 + (high - 0xD800) * 0x400 + (low - 0xDC00))

/-- The escape of the low surrogate that must follow a high one. -/
def lowSurrogate (high : Nat) (text : List Char) : Except Fault (Char × List Char) := do
  let text ← expectChar '\\' text
  let text ← expectChar 'u' text
  let (low, rest) ← hexEscape text
  if isLowSurrogate low then .ok (joinSurrogates high low, rest) else .error .malformed

/-- What follows `\u`: one code unit, or two that form a surrogate pair. -/
def unicodeEscape (text : List Char) : Except Fault (Char × List Char) := do
  let (unit, rest) ← hexEscape text
  if isLowSurrogate unit then .error .malformed
  else if isHighSurrogate unit then lowSurrogate unit rest
  else .ok (Char.ofNat unit, rest)

def plainEscape? : Char → Option Char
  | '"' => some '"'
  | '\\' => some '\\'
  | '/' => some '/'
  | 'b' => some '\x08'
  | 'f' => some '\x0c'
  | 'n' => some '\n'
  | 'r' => some '\r'
  | 't' => some '\t'
  | _ => none

/-- One character of a string, or `none` for its closing quote, and what follows. -/
def nextChar (text : List Char) : Except Fault (Option Char × List Char) :=
  match text with
  | [] => .error .truncated
  | '"' :: rest => .ok (none, rest)
  | ['\\'] => .error .truncated
  | '\\' :: 'u' :: rest => (unicodeEscape rest).map fun (c, rest) => (some c, rest)
  | '\\' :: c :: rest =>
    match plainEscape? c with
    | some c => .ok (some c, rest)
    | none => .error .malformed
  | c :: rest => if c.toNat < 32 then .error .malformed else .ok (some c, rest)

private theorem length_of_hexEscape {text rest : List Char} {n : Nat}
    (h : hexEscape text = .ok (n, rest)) : rest.length < text.length := by
  unfold hexEscape at h
  split at h
  · cases h
  · split at h
    · split at h
      · cases h; simp only [List.length_cons]; omega
      · cases h
    · cases h

private theorem length_of_expectChar {c : Char} {text rest : List Char}
    (h : expectChar c text = .ok rest) : rest.length < text.length := by
  unfold expectChar at h
  split at h
  · cases h
  · split at h <;> cases h
    simp

private theorem length_of_lowSurrogate {text rest : List Char} {high : Nat} {c : Char}
    (h : lowSurrogate high text = .ok (c, rest)) : rest.length < text.length := by
  unfold lowSurrogate at h
  cases h1 : expectChar '\\' text with
  | error => simp [h1, bind, Except.bind] at h
  | ok text1 =>
    cases h2 : expectChar 'u' text1 with
    | error => simp [h1, h2, bind, Except.bind] at h
    | ok text2 =>
      cases h3 : hexEscape text2 with
      | error => simp [h1, h2, h3, bind, Except.bind] at h
      | ok pair =>
        simp only [h1, h2, h3, bind, Except.bind] at h
        have := length_of_expectChar h1
        have := length_of_expectChar h2
        have := length_of_hexEscape h3
        split at h
        · obtain ⟨-, rfl⟩ := Prod.mk.injEq .. ▸ Except.ok.inj h
          omega
        · exact nomatch h

private theorem length_of_unicodeEscape {text rest : List Char} {c : Char}
    (h : unicodeEscape text = .ok (c, rest)) : rest.length < text.length := by
  unfold unicodeEscape at h
  cases h1 : hexEscape text with
  | error => simp [h1, bind, Except.bind] at h
  | ok pair =>
    simp only [h1, bind, Except.bind] at h
    have := length_of_hexEscape h1
    split at h
    · exact nomatch h
    · split at h
      · have := length_of_lowSurrogate h
        omega
      · obtain ⟨-, rfl⟩ := Prod.mk.injEq .. ▸ Except.ok.inj h
        assumption

theorem length_of_nextChar {text rest : List Char} {c : Option Char}
    (h : nextChar text = .ok (c, rest)) : rest.length < text.length := by
  unfold nextChar at h
  split at h
  · cases h
  · cases h; simp
  · cases h
  · rename_i text
    cases h1 : unicodeEscape text with
    | error => simp [h1, Except.map] at h
    | ok pair =>
      have := length_of_unicodeEscape h1
      simp only [h1, Except.map, Except.ok.injEq, Prod.mk.injEq] at h
      obtain ⟨-, rfl⟩ := h
      simp only [List.length_cons]; omega
  · split at h <;> cases h
    simp only [List.length_cons]; omega
  · split at h <;> cases h
    simp

/-- The characters up to the closing quote. -/
def stringBody (text : List Char) : Except Fault (List Char × List Char) :=
  match h : nextChar text with
  | .error fault => .error fault
  | .ok (none, rest) => .ok ([], rest)
  | .ok (some c, rest) =>
    have := length_of_nextChar h
    (stringBody rest).map fun (cs, rest) => (c :: cs, rest)
termination_by text.length

/-- The letters of a literal after its first one. -/
def literal : List Char → List Char → Except Fault (List Char)
  | [], text => .ok text
  | _ :: _, [] => .error .truncated
  | c :: cs, d :: rest => if c = d then literal cs rest else .error .malformed

/-- A value that is no string, and what follows the part that is read of it. -/
def other (text : List Char) : Except Fault (Other × List Char) :=
  match text with
  | 'n' :: rest => (literal ['u', 'l', 'l'] rest).map (.null, ·)
  | 't' :: rest => (literal ['r', 'u', 'e'] rest).map (.boolean true, ·)
  | 'f' :: rest => (literal ['a', 'l', 's', 'e'] rest).map (.boolean false, ·)
  | '[' :: _ => .ok (.sequence, text)
  | '\x7b' :: _ => .ok (.map, text)
  | [] => .error .truncated
  | c :: _ =>
    if c = '-' || c.isDigit then (Number.read text).map fun (n, rest) => (.number n, rest)
    else .error .malformed

/-- Reads the document as a string that `interpret` takes. -/
def readString (interpret : List Char → Except ε α) (document : List Char) :
    Except (Error ε) α :=
  match skipSpace document with
  | '"' :: text => do
    let (value, rest) ← (stringBody text).mapError .fault
    let result ← (interpret value).mapError .rejected
    if (skipSpace rest).isEmpty then return result else throw (.fault .malformed)
  | text => do
    let (found, rest) ← (other text).mapError .fault
    throw (.wrongType found (.after (document.take (document.length - rest.length))))

/-- Hexadecimal texts need no escapes. -/
def quote (text : String) : String :=
  "\"" ++ text ++ "\""

/-- A wrong value is placed in the document, a rejected string is not. -/
def Error.message (describe : ε → String) : Error ε → Option String
  | .fault _ => none
  | .wrongType found position =>
    some s!"invalid type: {found.describe}, expected a string at line {position.line} column {position.column}"
  | .rejected cause => some (describe cause)

end ProofOfWork.Json
