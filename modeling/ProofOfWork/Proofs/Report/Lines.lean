import ProofOfWork.Program
import ProofOfWork.Proofs.Bytes.Hex
import ProofOfWork.Proofs.Search.Sink

/-!
What a report writes if nothing fails: one line for each attempt, in JSON an object with four
members where a challenge is shown.
-/
namespace ProofOfWork

namespace Writer

/-- The writer never fails: of what it is given it takes one byte or more, and it keeps them. -/
structure Reliable (w : Writer ω) (contents : ω → Bytes) : Prop where
  exists_write : ∀ b rest s, ∃ n, n ≤ rest.length ∧ (w.write (b :: rest) s).1 = .ok (n + 1) ∧
    contents (w.write (b :: rest) s).2 = contents s ++ b :: rest.take n

theorem memory_reliable : memory.Reliable Written.bytes where
  exists_write b rest out := by
    refine ⟨rest.length, Nat.le_refl _, rfl, ?_⟩
    rw [List.take_length]
    exact out.bytes_append (b :: rest)

/-- However the bytes are cut into pieces, all of them are kept. -/
theorem Reliable.exists_writeAll {w : Writer ω} {contents : ω → Bytes} (h : w.Reliable contents)
    (bs : Bytes) (s : ω) :
    ∃ later, w.writeAll bs s = (.ok (), later) ∧ contents later = contents s ++ bs := by
  fun_induction writeAll w bs s with
  | case1 s => exact ⟨s, rfl, (List.append_nil _).symm⟩
  | case2 b rest s cause t hwrite =>
    obtain ⟨n, -, hok, -⟩ := h.exists_write b rest s
    rw [hwrite] at hok
    cases hok
  | case3 b rest s t hwrite =>
    obtain ⟨n, -, hok, -⟩ := h.exists_write b rest s
    rw [hwrite] at hok
    cases hok
  | case4 b rest s n t hwrite ih =>
    obtain ⟨later, hlater, hcontents⟩ := ih
    obtain ⟨m, -, hok, hkept⟩ := h.exists_write b rest s
    rw [hwrite] at hok hkept
    obtain rfl : n = m := by simpa using hok
    refine ⟨later, hlater, ?_⟩
    rw [hcontents, hkept, List.append_assoc, List.cons_append, List.take_append_drop]

end Writer

namespace Report

variable {w : Writer ω} {contents : ω → Bytes}

/-- A line is written as a whole, in either format. -/
theorem exists_write (h : w.Reliable contents) (r : Report) (a : Attempt) (s : ω) :
    ∃ later, r.write w a s = (.ok (), later) ∧
      contents later = contents s ++ Program.Output.line (r.record a) := by
  have hline : Program.Output.line (r.record a) = r.recordBytes a ++ newline := rfl
  rw [hline]
  cases hformat : r.format with
  | text =>
    obtain ⟨later, hwrite, hbytes⟩ := h.exists_writeAll (r.recordBytes a ++ newline) s
    refine ⟨later, ?_, hbytes⟩
    simp only [write, hformat, hwrite]
    rfl
  | json =>
    obtain ⟨middle, hrecord, hmiddle⟩ := h.exists_writeAll (r.recordBytes a) s
    obtain ⟨later, hnewline, hlater⟩ := h.exists_writeAll newline middle
    refine ⟨later, ?_, ?_⟩
    · simp only [write, hformat, hrecord, hnewline]
      rfl
    · rw [hlater, hmiddle, List.append_assoc]

/-- Nothing is refused, and each attempt leaves its line. -/
theorem write_after (h : w.Reliable contents) (r : Report) (seen : List Attempt) (s : ω) :
    Sink.Accepts (r.write w) seen s ∧ contents (Sink.after (r.write w) seen s) =
      contents s ++ seen.flatMap fun a => Program.Output.line (r.record a) := by
  induction seen generalizing s with
  | nil => exact ⟨Sink.accepts_nil _ _, (List.append_nil _).symm⟩
  | cons a seen ih =>
    obtain ⟨middle, hwrite, hmiddle⟩ := r.exists_write h a s
    obtain ⟨haccepts, hlater⟩ := ih middle
    constructor
    · intro answer hanswer
      rw [Sink.answers, hwrite] at hanswer
      rcases List.mem_cons.1 hanswer with rfl | hanswer
      · rfl
      · exact haccepts answer hanswer
    · rw [Sink.after, List.foldl_cons, hwrite, List.flatMap_cons, ← List.append_assoc, ← hmiddle]
      exact hlater

/-- A record stays on its line. -/
theorem newline_not_mem_record (r : Report) (a : Attempt) : '\n' ∉ (r.record a).toList := by
  have hhex : ∀ bs : Bytes, '\n' ∉ (Hex.encode bs).toList := by
    intro bs
    rw [Hex.encode, String.toList_ofList]
    exact Hex.not_mem_encodeChars (by decide) bs
  have hnumber : ∀ n : Nat, '\n' ∉ Nat.toDigits 10 n := by
    intro n hmem
    have hdigit := Nat.isDigit_of_mem_toDigits (by decide) (by decide) hmem
    exact absurd hdigit (by decide)
  have hverdict : ∀ b : Bool, '\n' ∉ (toString b).toList := by decide
  cases hformat : r.format with
  | text => simp [record, hformat, hhex, hverdict]
  | json =>
    cases hchallenge : r.challenge with
    | none =>
      simp [record, hformat, hchallenge, jsonFields, jsonField, Json.quote, hhex, hnumber, hverdict]
    | some challenge =>
      simp [record, hformat, hchallenge, jsonFields, jsonField, Json.quote, hhex, hnumber, hverdict]

end Report

/-- The members of the JSON object on a line. -/
structure Record where
  nonce : String
  leadingZeros : Nat
  passed : Bool
  challenge : String

namespace Record

def text (r : Record) : String :=
  "\x7b" ++ ",".intercalate ["\"nonce\":\"" ++ r.nonce ++ "\"",
    "\"leading_zeros\":" ++ toString r.leadingZeros, "\"passed\":" ++ toString r.passed,
    "\"challenge\":\"" ++ r.challenge ++ "\""] ++ "\x7d"

/-- Of an attempt at a puzzle with the challenge. -/
def ofAttempt (challenge : Bytes) (a : Attempt) : Record where
  nonce := Hex.encode a.nonce
  leadingZeros := a.leadingZeros
  passed := a.passed
  challenge := Hex.encode challenge

end Record

namespace Report

theorem record_json (challenge : Bytes) (a : Attempt) :
    (⟨.json, some challenge⟩ : Report).record a = (Record.ofAttempt challenge a).text := by
  apply String.toList_injective
  simp [record, jsonFields, jsonField, Json.quote, Record.text, Record.ofAttempt]

end Report

/-- A record stays on its line. -/
theorem Record.newline_not_mem_text (challenge : Bytes) (a : Attempt) :
    '\n' ∉ (ofAttempt challenge a).text.toList := by
  rw [← Report.record_json]
  exact Report.newline_not_mem_record _ a

end ProofOfWork
