import ProofOfWork.Proofs.Json.StringDocument

/-!
JSON objects on one level, as a reader of their members. An object whose members are written one
after another is read as these members.
-/
namespace ProofOfWork.Json

/-- A value that is no list and no object. -/
inductive Scalar
  | string (text : List Char)
  | null
  | boolean (b : Bool)
  | number (n : Number)

/-- A name with its value. -/
abbrev Member := List Char × Scalar

def scalar (text : List Char) : Except Fault (Scalar × List Char) :=
  match text with
  | '"' :: rest => (stringBody rest).map fun (value, rest) => (.string value, rest)
  | _ =>
    match other text with
    | .ok (.null, rest) => .ok (.null, rest)
    | .ok (.boolean b, rest) => .ok (.boolean b, rest)
    | .ok (.number n, rest) => .ok (.number n, rest)
    | .ok (.sequence, _) | .ok (.map, _) => .error .malformed
    | .error fault => .error fault

def member (text : List Char) : Except Fault (Member × List Char) := do
  let text ← expectChar '"' (skipSpace text)
  let (name, text) ← stringBody text
  let text ← expectChar ':' (skipSpace text)
  let (value, text) ← scalar (skipSpace text)
  return ((name, value), skipSpace text)

/-- The members up to the closing brace, if there are at most `count` of them. -/
def members : (count : Nat) → List Char → Except Fault (List Member × List Char)
  | 0, _ => .error .malformed
  | count + 1, text => do
    let (first, text) ← member text
    match text with
    | ',' :: text =>
      let (later, text) ← members count text
      return (first :: later, text)
    | '\x7d' :: text => return ([first], text)
    | [] => throw .truncated
    | _ => throw .malformed

/-- The members behind the opening brace. -/
def objectBody (text : List Char) : Except Fault (List Member × List Char) :=
  match skipSpace text with
  | '\x7d' :: rest => .ok ([], rest)
  | text => members text.length text

/-- Reads the document as one object. -/
def readObject (document : List Char) : Except Fault (List Member) := do
  let text ← expectChar '\x7b' (skipSpace document)
  let (found, rest) ← objectBody text
  if (skipSpace rest).isEmpty then return found else throw .malformed

/-- What can follow a member. -/
def IsNext (rest : List Char) : Prop :=
  ∃ c later, rest = c :: later ∧ (c = ',' ∨ c = '\x7d')

/-- The text is read as the value, whatever follows the member. -/
structure Spells (text : List Char) (value : Scalar) : Prop where
  skipSpace_eq : ∀ rest, skipSpace (text ++ rest) = text ++ rest
  scalar_eq : ∀ {rest}, IsNext rest → scalar (text ++ rest) = .ok (value, rest)

/-- The text is read as the member. -/
structure SpellsMember (text : List Char) (m : Member) : Prop where
  exists_cons : ∃ later, text = '"' :: later
  member_eq : ∀ {rest}, IsNext rest → member (text ++ rest) = .ok (m, rest)

theorem IsNext.skipSpace_eq {rest : List Char} (h : IsNext rest) : skipSpace rest = rest := by
  obtain ⟨c, later, rfl, rfl | rfl⟩ := h
  all_goals exact skipSpace_of_head rfl later

namespace Number

theorem le_ofDigitChars (digits : List Char) (n : Nat) : n ≤ Nat.ofDigitChars 10 digits n := by
  rw [Nat.ofDigitChars_eq_ofDigitChars_zero]
  have hpos : 0 < 10 ^ digits.length := Nat.pow_pos (by decide)
  exact Nat.le_add_right_of_le (Nat.le_mul_of_pos_left n hpos)

/-- Digits whose number keeps below the bound are taken as a whole. -/
theorem takeBelow_digits {bound n : Nat} {digits rest : List Char}
    (hdigits : ∀ c ∈ digits, c.isDigit = true) (hrest : startsWithDigit rest = false)
    (h : Nat.ofDigitChars 10 digits n < bound) :
    takeBelow bound n (digits ++ rest) = (Nat.ofDigitChars 10 digits n, rest) := by
  induction digits generalizing n with
  | nil =>
    rw [List.nil_append, Nat.ofDigitChars_nil]
    cases rest with
    | nil => rfl
    | cons c rest =>
      have hc : c.isDigit = false := by simpa [startsWithDigit] using hrest
      rw [takeBelow, hc]
      rfl
  | cons c digits ih =>
    have hvalue : digitValue c = c.toNat - '0'.toNat := rfl
    rw [Nat.ofDigitChars_cons, ← hvalue] at h ⊢
    have hbound := Nat.lt_of_le_of_lt (le_ofDigitChars digits _) h
    rw [List.cons_append, takeBelow, hdigits c List.mem_cons_self, decide_eq_true hbound]
    exact ih (fun d hd => hdigits d (List.mem_cons_of_mem _ hd)) h

/-- No number but zero is written with a zero in front. -/
theorem exists_toDigits_cons {n : Nat} (h : 0 < n) :
    ∃ c digits, Nat.toDigits 10 n = c :: digits ∧ c ≠ '0' := by
  induction n using Nat.strongRecOn with
  | ind n ih =>
    rw [Nat.toDigits_eq_if (by decide)]
    split
    · rename_i hsmall
      have hdigit : ∀ m : Fin 10, 0 < m.val → m.val.digitChar ≠ '0' := by decide
      exact ⟨_, [], rfl, hdigit ⟨n, hsmall⟩ h⟩
    · obtain ⟨c, digits, hdigits, hc⟩ := ih (n / 10) (by omega) (by omega)
      exact ⟨c, digits ++ [(n % 10).digitChar], by rw [hdigits]; rfl, hc⟩

theorem afterInteger_of_isNext {rest : List Char} (h : IsNext rest) (n : Nat) :
    afterInteger false n 0 rest = .ok (.integer n, rest) := by
  obtain ⟨c, later, rfl, rfl | rfl⟩ := h
  all_goals rfl

theorem startsWithDigit_of_isNext {rest : List Char} (h : IsNext rest) :
    startsWithDigit rest = false := by
  obtain ⟨c, later, rfl, rfl | rfl⟩ := h
  all_goals rfl

theorem skipDigits_of_isNext {rest : List Char} (h : IsNext rest) : skipDigits rest = rest := by
  obtain ⟨c, later, rfl, rfl | rfl⟩ := h
  all_goals rfl

/-- Without a zero in front the digits are all taken. -/
theorem read_of_digit {c : Char} {text rest : List Char} {n : Nat} (hdigit : c.isDigit = true)
    (hc : c ≠ '0') (htaken : takeBelow wordLimit 0 (c :: text) = (n, rest))
    (hrest : IsNext rest) : read (c :: text) = .ok (.integer n, rest) := by
  have hsign : c ≠ '-' := by
    rintro rfl
    cases hdigit
  have hread : read (c :: text) = unsigned false (c :: text) := by
    unfold read
    split
    · rename_i heq
      exact absurd (List.cons.inj heq).1 hsign
    · rfl
  rw [hread]
  unfold unsigned
  split
  · rename_i heq
    cases heq
  · rename_i heq
    exact absurd (List.cons.inj heq).1 hc
  · rename_i heq
    obtain ⟨rfl, -⟩ := List.cons.inj heq
    rw [hdigit, htaken]
    simp only [Bool.not_true, Bool.false_eq_true, if_false, skipDigits_of_isNext hrest, Nat.sub_self]
    exact afterInteger_of_isNext hrest n

/-- The decimal text of a number that fits a word is read as that number. -/
theorem read_toDigits {n : Nat} (h : n < wordLimit) {rest : List Char} (hrest : IsNext rest) :
    read (Nat.toDigits 10 n ++ rest) = .ok (.integer n, rest) := by
  have hends := startsWithDigit_of_isNext hrest
  rcases Nat.eq_zero_or_pos n with rfl | hpos
  · have hread : read (Nat.toDigits 10 0 ++ rest) =
        if startsWithDigit rest then .error .malformed else afterInteger false 0 0 rest := rfl
    rw [hread, hends]
    exact afterInteger_of_isNext hrest 0
  · have hall : ∀ c ∈ Nat.toDigits 10 n, c.isDigit = true :=
      fun c hc => Nat.isDigit_of_mem_toDigits (by decide) (by decide) hc
    have hvalue : Nat.ofDigitChars 10 (Nat.toDigits 10 n) 0 = n := Nat.ofDigitChars_ten_toDigits
    have htaken := takeBelow_digits hall hends (hvalue.symm ▸ h)
    obtain ⟨c, digits, hdigits, hc⟩ := exists_toDigits_cons hpos
    rw [hvalue, hdigits, List.cons_append] at htaken
    rw [hdigits, List.cons_append]
    exact read_of_digit (hall c (hdigits ▸ List.mem_cons_self)) hc htaken hrest

end Number

theorem spells_string {text : List Char} (h : ∀ c ∈ text, IsPlain c) :
    Spells ('"' :: text ++ ['"']) (.string text) where
  skipSpace_eq _ := skipSpace_of_head rfl _
  scalar_eq := by
    intro rest _
    have hbody := stringBody_of_plain h rest
    have hsplit : '"' :: text ++ ['"'] ++ rest = '"' :: (text ++ '"' :: rest) := by simp
    rw [hsplit, scalar, hbody]
    rfl

theorem spells_boolean (b : Bool) : Spells (toString b).toList (.boolean b) := by
  cases b with
  | false => exact ⟨fun _ => skipSpace_of_head rfl _, fun _ => rfl⟩
  | true => exact ⟨fun _ => skipSpace_of_head rfl _, fun _ => rfl⟩

theorem other_of_digit {c : Char} (h : c.isDigit = true) (text : List Char) :
    other (c :: text) = (Number.read (c :: text)).map fun (n, rest) => (.number n, rest) := by
  unfold other
  split
  case h_7 =>
    rename_i heq
    obtain ⟨rfl, -⟩ := List.cons.inj heq
    rw [h, Bool.or_true, if_pos rfl]
  all_goals
    rename_i heq
    cases heq
    try cases h

theorem scalar_of_digit {c : Char} (h : c.isDigit = true) {text rest : List Char} {n : Number}
    (hread : Number.read (c :: text) = .ok (n, rest)) :
    scalar (c :: text) = .ok (.number n, rest) := by
  unfold scalar
  split
  · rename_i heq
    cases heq
    cases h
  · rw [other_of_digit h, hread]
    rfl

theorem spells_natural {n : Nat} (h : n < Number.wordLimit) :
    Spells (Nat.toDigits 10 n) (.number (.integer n)) := by
  obtain ⟨c, digits, hdigits⟩ := List.exists_cons_of_ne_nil (Nat.toDigits_ne_nil (n := n) (b := 10))
  have hdigit : c.isDigit = true :=
    Nat.isDigit_of_mem_toDigits (by decide) (by decide) (hdigits ▸ List.mem_cons_self)
  constructor
  case skipSpace_eq =>
    intro rest
    rw [hdigits]
    apply skipSpace_of_head
    apply Bool.eq_false_iff.2
    intro hspace
    simp only [isSpace, Bool.or_eq_true, beq_iff_eq] at hspace
    rcases hspace with ((rfl | rfl) | rfl) | rfl
    all_goals cases hdigit
  case scalar_eq =>
    intro rest hrest
    have hread := Number.read_toDigits h hrest
    rw [hdigits, List.cons_append] at hread ⊢
    exact scalar_of_digit hdigit hread

theorem spellsMember {name text : List Char} {value : Scalar} (hname : ∀ c ∈ name, IsPlain c)
    (h : Spells text value) : SpellsMember ('"' :: name ++ '"' :: ':' :: text) (name, value) where
  exists_cons := ⟨_, rfl⟩
  member_eq := by
    intro rest hrest
    have hsplit : '"' :: name ++ '"' :: ':' :: text ++ rest =
        '"' :: (name ++ '"' :: (':' :: (text ++ rest))) := by simp
    have hopen : skipSpace ('"' :: (name ++ '"' :: (':' :: (text ++ rest)))) =
        '"' :: (name ++ '"' :: (':' :: (text ++ rest))) := skipSpace_of_head rfl _
    have hbody := stringBody_of_plain hname (':' :: (text ++ rest))
    have hcolon : skipSpace (':' :: (text ++ rest)) = ':' :: (text ++ rest) :=
      skipSpace_of_head rfl _
    rw [hsplit]
    unfold member
    simp only [hopen, expectChar, if_true, hbody, hcolon, h.skipSpace_eq, h.scalar_eq hrest,
      hrest.skipSpace_eq, bind, Except.bind]
    rfl

/-- Members with commas between them are read one after another. -/
theorem members_intercalate {texts : List (List Char)} {found : List Member}
    (h : List.Forall₂ SpellsMember texts found) (hne : texts ≠ []) {count : Nat}
    (hcount : texts.length ≤ count) (rest : List Char) :
    members count ([','].intercalate texts ++ '\x7d' :: rest) = .ok (found, rest) := by
  induction h generalizing count with
  | nil => exact absurd rfl hne
  | @cons first m later found hfirst hrest ih =>
    obtain ⟨count, rfl⟩ : ∃ n, count = n + 1 := ⟨count - 1, by simp at hcount; omega⟩
    cases hrest with
    | nil =>
      have hnext : IsNext ('\x7d' :: rest) := ⟨_, _, rfl, .inr rfl⟩
      rw [List.intercalate_singleton, members, hfirst.member_eq hnext]
      rfl
    | @cons second _ later _ hsecond hrest =>
      have hlater := ih (List.cons_ne_nil _ _) (Nat.le_of_succ_le_succ hcount)
      have hsplit : [','].intercalate (first :: second :: later) ++ '\x7d' :: rest =
          first ++ ',' :: ([','].intercalate (second :: later) ++ '\x7d' :: rest) := by
        simp [List.intercalate_cons_cons]
      have hnext : IsNext (',' :: ([','].intercalate (second :: later) ++ '\x7d' :: rest)) :=
        ⟨_, _, rfl, .inl rfl⟩
      rw [hsplit, members, hfirst.member_eq hnext]
      simp only [bind, Except.bind, hlater]
      rfl

theorem length_le_intercalate (fields : List (List Char)) :
    fields.length ≤ ([','].intercalate fields).length + 1 := by
  induction fields with
  | nil => exact Nat.zero_le _
  | cons first later ih =>
    cases later with
    | nil => simp
    | cons second later =>
      rw [List.intercalate_cons_cons]
      simp only [List.length_append, List.length_cons] at ih ⊢
      omega

theorem objectBody_of_quote (text : List Char) :
    objectBody ('"' :: text) = members ('"' :: text).length ('"' :: text) := by
  rw [objectBody, skipSpace_of_head rfl]
  rfl

/-- An object is read as the members that it was written from. -/
theorem readObject_of_spells {texts : List (List Char)} {found : List Member}
    (h : List.Forall₂ SpellsMember texts found) (hne : texts ≠ []) :
    readObject ('\x7b' :: [','].intercalate texts ++ ['\x7d']) = .ok found := by
  have hcount : texts.length ≤ ([','].intercalate texts ++ ['\x7d']).length := by
    rw [List.length_append]
    exact length_le_intercalate texts
  have hmembers := members_intercalate h hne hcount []
  obtain ⟨tail, htail⟩ : ∃ tail, [','].intercalate texts ++ ['\x7d'] = '"' :: tail := by
    cases h with
    | nil => exact absurd rfl hne
    | @cons first _ later _ hfirst hrest =>
      obtain ⟨tail, rfl⟩ := hfirst.exists_cons
      cases hrest with
      | nil => exact ⟨tail ++ ['\x7d'], by simp⟩
      | cons hsecond hrest => simp [List.intercalate_cons_cons]
  have hopen : skipSpace ('\x7b' :: '"' :: tail) = '\x7b' :: '"' :: tail := skipSpace_of_head rfl _
  rw [htail, ← objectBody_of_quote] at hmembers
  rw [List.cons_append, htail, readObject, hopen]
  simp only [expectChar, if_true, bind, Except.bind, hmembers]
  rfl

end ProofOfWork.Json
