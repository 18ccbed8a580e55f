import ProofOfWork.Text.CaseTable

/-! Full lowercasing, in which one character may become two and a closing sigma has its own form. -/
namespace ProofOfWork.Text

def isCaseIgnorable (c : Char) : Bool :=
  inRuns caseIgnorableRuns c

def isCased (c : Char) : Bool :=
  inRuns casedRuns c

/-- The capital I with a dot keeps its dot as a mark of its own. -/
def lowercaseChar (c : Char) : List Char :=
  if c = '\u0130' then ['i', '\u0307']
  else
    match lowercaseRuns.find? (·.covers c.toNat) with
    | some run => [Char.ofNat (run.lower c.toNat)]
    | none => [c]

/-- The nearest character that counts is a cased letter. -/
def meetsLetter (neighbours : List Char) : Bool :=
  ((neighbours.dropWhile isCaseIgnorable).head?.map isCased).getD false

/-- A capital sigma closes a word after a letter and before none. -/
def lowercaseSigma (before after : List Char) : Char :=
  if meetsLetter before && !meetsLetter after then '\u03c2' else '\u03c3'

/-- Lowercases what follows the characters of `before`, which come nearest first. -/
def lowercaseAfter (before : List Char) : List Char → List Char
  | [] => []
  | c :: after =>
    (if c = '\u03a3' then [lowercaseSigma before after] else lowercaseChar c) ++
      lowercaseAfter (c :: before) after

def lowercase (text : List Char) : List Char :=
  lowercaseAfter [] text

end ProofOfWork.Text
