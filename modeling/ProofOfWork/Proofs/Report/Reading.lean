import Mathlib.Algebra.Ring.Nat
import ProofOfWork.Proofs.Json.Object
import ProofOfWork.Proofs.Report.Lines
import ProofOfWork.Proofs.Text.Utf8

/-!
Reports are read back. Split at its newlines a report has one line for each attempt, and a line is
read as what its format carries of the attempt.
-/
namespace ProofOfWork.Report

/-- What a line says of an attempt, as far as its format carries it. -/
structure Entry where
  nonce : Bytes
  leadingZeros : Option Nat
  passed : Bool
  challenge : Option Bytes
  deriving DecidableEq

/-- A challenge is carried in JSON only, as are leading zero bits. -/
def entry (r : Report) (a : Attempt) : Entry :=
  match r.format with
  | .text => { nonce := a.nonce, leadingZeros := none, passed := a.passed, challenge := none }
  | .json =>
    { nonce := a.nonce, leadingZeros := some a.leadingZeros, passed := a.passed,
      challenge := r.challenge }

/-- The members of a record in JSON. -/
def jsonMembers (challenge : Option Bytes) (a : Attempt) : List Json.Member :=
  [("nonce".toList, .string (Hex.encodeChars a.nonce)),
    ("leading_zeros".toList, .number (.integer a.leadingZeros)),
    ("passed".toList, .boolean a.passed)] ++
  challenge.toList.map fun c => ("challenge".toList, .string (Hex.encodeChars c))

namespace Entry

def bytes? (digits : List Char) : Option Bytes :=
  (Hex.decode (Text.utf8 digits)).toOption

def verdict? (text : List Char) : Option Bool :=
  if text = "true".toList then some true
  else if text = "false".toList then some false
  else none

/-- A single space divides the nonce from the verdict. -/
def ofText? (text : List Char) : Option Entry :=
  match text.splitOn ' ' with
  | [digits, verdict] => do
    let nonce ← bytes? digits
    let passed ← verdict? verdict
    return { nonce, leadingZeros := none, passed, challenge := none }
  | _ => none

/-- The member may be missing. -/
def challenge? : Option Json.Scalar → Option (Option Bytes)
  | none => some none
  | some (.string digits) => (bytes? digits).map some
  | some _ => none

def ofMembers? (members : List Json.Member) : Option Entry :=
  match members.lookup "nonce".toList, members.lookup "leading_zeros".toList,
    members.lookup "passed".toList with
  | some (.string digits), some (.number (.integer zeros)), some (.boolean passed) => do
    let nonce ← bytes? digits
    let leadingZeros ← zeros.toNat?
    let challenge ← challenge? (members.lookup "challenge".toList)
    return { nonce, leadingZeros := some leadingZeros, passed, challenge }
  | _, _, _ => none

/-- What a line says, if it is one of the format. -/
def ofLine? (format : LineFormat) (line : Bytes) : Option Entry := do
  let text ← Text.ofUtf8? line
  match format with
  | .text => ofText? text
  | .json => (Json.readObject text).toOption.bind ofMembers?

theorem bytes?_encodeChars (bs : Bytes) : bytes? (Hex.encodeChars bs) = some bs := by
  rw [bytes?, Hex.decode_utf8_encodeChars]
  rfl

theorem verdict?_toString (b : Bool) : verdict? (toString b).toList = some b := by
  cases b <;> rfl

theorem ofText?_append (nonce : Bytes) (passed : Bool) :
    ofText? (Hex.encodeChars nonce ++ ' ' :: (toString passed).toList) =
      some { nonce, leadingZeros := none, passed, challenge := none } := by
  have hdigits : ' ' ∉ Hex.encodeChars nonce := Hex.not_mem_encodeChars (by decide) nonce
  have hverdict : ' ' ∉ (toString passed).toList := by decide +revert
  have hparts : (Hex.encodeChars nonce ++ ' ' :: (toString passed).toList).splitOn ' ' =
      [Hex.encodeChars nonce, (toString passed).toList] := by
    rw [List.splitOn_append_cons_self_of_not_mem hdigits, List.splitOn_eq_singleton hverdict]
  simp only [ofText?, hparts, bytes?_encodeChars, verdict?_toString]
  rfl

theorem ofMembers?_members (challenge : Option Bytes) (a : Attempt) :
    ofMembers? (jsonMembers challenge a) =
      some { nonce := a.nonce, leadingZeros := some a.leadingZeros, passed := a.passed, challenge } := by
  have hnonce : (jsonMembers challenge a).lookup "nonce".toList =
      some (.string (Hex.encodeChars a.nonce)) := by
    simp [jsonMembers]
  have hzeros : (jsonMembers challenge a).lookup "leading_zeros".toList =
      some (.number (.integer a.leadingZeros)) := by
    simp [jsonMembers, List.lookup_cons]
  have hpassed : (jsonMembers challenge a).lookup "passed".toList = some (.boolean a.passed) := by
    simp [jsonMembers, List.lookup_cons]
  have hchallenge : challenge? ((jsonMembers challenge a).lookup "challenge".toList) =
      some challenge := by
    cases challenge with
    | none => simp [jsonMembers, List.lookup_cons, challenge?]
    | some c => simp [jsonMembers, List.lookup_cons, challenge?, bytes?_encodeChars]
  simp only [ofMembers?, hnonce, hzeros, hpassed, hchallenge, bytes?_encodeChars]
  rfl

end Entry

theorem jsonField_spells {name value : String} {found : Json.Scalar}
    (hname : ∀ c ∈ name.toList, Json.IsPlain c) (hvalue : Json.Spells value.toList found) :
    Json.SpellsMember (jsonField name value).toList (name.toList, found) := by
  have htext : (jsonField name value).toList =
      '"' :: name.toList ++ '"' :: ':' :: value.toList := by
    simp [jsonField, Json.quote]
  rw [htext]
  exact Json.spellsMember hname hvalue

theorem quote_encode_spells (bs : Bytes) :
    Json.Spells (Json.quote (Hex.encode bs)).toList (.string (Hex.encodeChars bs)) := by
  have htext : (Json.quote (Hex.encode bs)).toList = '"' :: Hex.encodeChars bs ++ ['"'] := by
    simp [Json.quote, Hex.encode]
  rw [htext]
  exact Json.spells_string fun c hc => Json.isPlain_of_mem_encodeChars hc

/-- Each field of a record is the text of its member. -/
theorem jsonFields_spell (challenge : Option Bytes) {a : Attempt}
    (h : a.leadingZeros < Json.Number.wordLimit) :
    List.Forall₂ Json.SpellsMember ((jsonFields challenge a).map String.toList)
      (jsonMembers challenge a) := by
  have hnames : ∀ name ∈ ["nonce", "leading_zeros", "passed", "challenge"],
      ∀ c ∈ name.toList, Json.IsPlain c := by
    simp [Json.IsPlain]
  have hzeros : Json.Spells (toString a.leadingZeros).toList
      (.number (.integer a.leadingZeros)) := by
    rw [Nat.toString_eq_repr, Nat.toList_repr]
    exact Json.spells_natural h
  have hfirst := List.Forall₂.cons
    (jsonField_spells (hnames "nonce" (by simp)) (quote_encode_spells a.nonce))
    (.cons (jsonField_spells (hnames "leading_zeros" (by simp)) hzeros)
      (.cons (jsonField_spells (hnames "passed" (by simp)) (Json.spells_boolean a.passed)) .nil))
  cases challenge with
  | none => exact hfirst
  | some c =>
    have hlast := jsonField_spells (hnames "challenge" (by simp)) (quote_encode_spells c)
    exact List.rel_append hfirst (.cons hlast .nil)

theorem ofLine?_recordBytes (r : Report) {a : Attempt}
    (h : a.leadingZeros < Json.Number.wordLimit) :
    Entry.ofLine? r.format (r.recordBytes a) = some (r.entry a) := by
  rw [Entry.ofLine?, recordBytes, Text.ofUtf8?_utf8, Option.bind_eq_bind, Option.bind_some]
  cases hformat : r.format with
  | text =>
    have hrecord : (r.record a).toList =
        Hex.encodeChars a.nonce ++ ' ' :: (toString a.passed).toList := by
      simp [record, hformat, Hex.encode]
    simp only [hrecord, entry, hformat]
    exact Entry.ofText?_append a.nonce a.passed
  | json =>
    have hrecord : (r.record a).toList = '\x7b' ::
        [','].intercalate ((jsonFields r.challenge a).map String.toList) ++ ['\x7d'] := by
      simp [record, hformat]
    have hread := Json.readObject_of_spells (jsonFields_spell r.challenge h)
      (by simp [jsonFields])
    simp only [hrecord, hread, entry, hformat]
    exact Entry.ofMembers?_members r.challenge a

theorem newline_not_mem_recordBytes (r : Report) (a : Attempt) : 10 ∉ r.recordBytes a := by
  intro hmem
  have hchar : '\n' ∈ (r.record a).toList := Text.mem_of_mem_utf8 (by decide) hmem
  exact r.newline_not_mem_record a hchar

/-- Lines without a newline in them are the parts between the newlines. -/
theorem splitOn_lines {lines : List Bytes} (h : ∀ line ∈ lines, 10 ∉ line) :
    (lines.flatMap fun line => line ++ newline).splitOn 10 = lines ++ [[]] := by
  induction lines with
  | nil => rfl
  | cons line lines ih =>
    have hlater := ih fun other hother => h other (List.mem_cons_of_mem _ hother)
    have hsplit : ((line :: lines).flatMap fun line => line ++ newline) =
        line ++ 10 :: lines.flatMap fun line => line ++ newline := by
      simp [newline]
    rw [hsplit, List.splitOn_append_cons_self_of_not_mem (h line List.mem_cons_self), hlater]
    rfl

/-- The lines of some attempts are read as these attempts. -/
theorem exists_lines (r : Report) {attempts : List Attempt}
    (h : ∀ a ∈ attempts, a.leadingZeros < 2 ^ 32) :
    ∃ lines, (attempts.flatMap fun a => Program.Output.line (r.record a)).splitOn 10 =
        lines ++ [[]] ∧
      lines.map (Entry.ofLine? r.format) = (attempts.map r.entry).map some := by
  have hlines : (attempts.flatMap fun a => Program.Output.line (r.record a)) =
      (attempts.map r.recordBytes).flatMap fun line => line ++ newline := by
    rw [List.flatMap_map]
    rfl
  refine ⟨attempts.map r.recordBytes, ?_, ?_⟩
  · rw [hlines]
    apply splitOn_lines
    intro line hline
    obtain ⟨a, -, rfl⟩ := List.mem_map.1 hline
    exact r.newline_not_mem_recordBytes a
  · rw [List.map_map, List.map_map]
    apply List.map_congr_left
    intro a ha
    have hword : a.leadingZeros < Json.Number.wordLimit := Nat.lt_trans (h a ha) (by decide)
    exact r.ofLine?_recordBytes hword

variable {w : Writer ω} {contents : ω → Bytes}

/-- A report is read back: split at its newlines it has one line for each attempt, which is read as
what the format carries of the attempt. So reports with the same text are about the same. -/
theorem written_lines_read_back (hw : w.Reliable contents) (r : Report) {attempts : List Attempt}
    (hcount : ∀ a ∈ attempts, a.leadingZeros < 2 ^ 32) (s : ω) :
    Sink.Accepts (r.write w) attempts s ∧
    (∃ out lines, contents (Sink.after (r.write w) attempts s) = contents s ++ out ∧
      out.splitOn 10 = lines ++ [[]] ∧
      lines.map (Entry.ofLine? r.format) = (attempts.map r.entry).map some) ∧
    ∀ (r' : Report) (others : List Attempt), r'.format = r.format →
      (∀ a ∈ others, a.leadingZeros < 2 ^ 32) →
      contents (Sink.after (r'.write w) others s) = contents (Sink.after (r.write w) attempts s) →
      others.map r'.entry = attempts.map r.entry := by
  obtain ⟨haccepts, hcontents⟩ := r.write_after hw attempts s
  obtain ⟨lines, hlines, hread⟩ := r.exists_lines hcount
  refine ⟨haccepts, ⟨_, lines, hcontents, hlines, hread⟩, ?_⟩
  intro r' others hformat hothers hsame
  obtain ⟨lines', hlines', hread'⟩ := r'.exists_lines hothers
  rw [hcontents, (r'.write_after hw others s).2] at hsame
  obtain rfl : lines' = lines := by
    rw [List.append_cancel_left hsame, hlines] at hlines'
    exact (List.append_cancel_right hlines').symm
  rw [hformat, hread] at hread'
  exact ((List.map_inj_right fun _ _ => Option.some.inj).1 hread').symm

/-- Two attempts, one of them with the empty nonce, in JSON with the empty challenge. -/
theorem written_lines_read_back_two_attempts :
    let r : Report := ⟨.json, some []⟩
    let attempts : List Attempt := [⟨[], 4294967295, true⟩, ⟨[10, 32], 0, false⟩]
    (∀ a ∈ attempts, a.leadingZeros < 2 ^ 32) ∧
    Sink.Accepts (r.write .memory) attempts .empty ∧
    (∃ out lines, (Sink.after (r.write .memory) attempts .empty).bytes = out ∧
      out.splitOn 10 = lines ++ [[]] ∧
      lines.map (Entry.ofLine? .json) =
        [some ⟨[], some 4294967295, true, some []⟩, some ⟨[10, 32], some 0, false, some []⟩]) := by
  intro r attempts
  have hcount : ∀ a ∈ attempts, a.leadingZeros < 2 ^ 32 := by decide
  obtain ⟨haccepts, ⟨out, lines, hout, hlines, hread⟩, -⟩ :=
    written_lines_read_back Writer.memory_reliable r hcount .empty
  exact ⟨hcount, haccepts, out, lines, hout, hlines, hread⟩

end ProofOfWork.Report
