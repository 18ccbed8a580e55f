import ProofOfWork.Json.Text
import ProofOfWork.Proofs.Bytes.HexDigits

/-!
JSON documents that are one string, as the JSON grammar has them. Each is read as the text that it
stands for, however its characters are escaped, and no other document is read.
-/
namespace ProofOfWork.Json

/-- The character stands for itself in a string. -/
def IsPlain (c : Char) : Prop :=
  c ≠ '"' ∧ c ≠ '\\' ∧ 32 ≤ c.toNat

instance : DecidablePred IsPlain := fun c =>
  inferInstanceAs (Decidable (c ≠ '"' ∧ c ≠ '\\' ∧ 32 ≤ c.toNat))

/-- The characters behind a backslash that are an escape by themselves, with what they stand for. -/
def shortEscapes : List (Char × Char) :=
  [('"', '"'), ('\\', '\\'), ('/', '/'), ('b', '\x08'), ('f', '\x0c'), ('n', '\n'), ('r', '\r'),
    ('t', '\t')]

/-- The four digits of a UTF-16 code unit. -/
def IsCodeUnit (digits : List Char) (unit : Nat) : Prop :=
  ∃ a b c d, List.Forall₂ Hex.IsDigit digits [a, b, c, d] ∧
    unit = 0x1000 * a + 0x100 * b + 0x10 * c + d

/-- The ways to write a character within a string. Half of a surrogate pair stands for none. -/
inductive Denotes : List Char → Char → Prop
  | plain {c : Char} (h : IsPlain c) : Denotes [c] c
  | short {e c : Char} (h : (e, c) ∈ shortEscapes) : Denotes ['\\', e] c
  | unit {digits : List Char} {c : Char} (h : IsCodeUnit digits c.toNat) :
    Denotes ('\\' :: 'u' :: digits) c
  | pair {high low : List Char} {c : Char} (hc : 0x10000 ≤ c.toNat)
    (hhigh : IsCodeUnit high (0xD800 + (c.toNat - 0x10000) / 0x400))
    (hlow : IsCodeUnit low (0xDC00 + (c.toNat - 0x10000) % 0x400)) :
    Denotes ('\\' :: 'u' :: high ++ '\\' :: 'u' :: low) c

/-- The document is a string that stands for the text, with any white space around it. -/
def IsStringOf (document text : List Char) : Prop :=
  ∃ before parts after, document = before ++ '"' :: (parts.flatten ++ '"' :: after) ∧
    (∀ c ∈ before ++ after, c ∈ [' ', '\t', '\n', '\r']) ∧ List.Forall₂ Denotes parts text

theorem skipSpace_of_head {c : Char} (h : isSpace c = false) (rest : List Char) :
    skipSpace (c :: rest) = c :: rest := by
  rw [skipSpace, List.dropWhile_cons, h]
  rfl

theorem nextChar_of_plain {c : Char} (h : IsPlain c) (rest : List Char) :
    nextChar (c :: rest) = .ok (some c, rest) := by
  obtain ⟨hquote, hescape, hshown⟩ := h
  have hlow : ¬ c.toNat < 32 := Nat.not_lt.2 hshown
  unfold nextChar
  split <;> simp_all

theorem hexValue?_of_isDigit {c : Char} {n : Nat} (h : Hex.IsDigit c n) :
    hexValue? c = some n ∧ (Text.utf8 [c]).length = 1 := by
  have hsmall : ∀ n : Fin 16, hexValue? (Hex.digit n) = some n.val ∧
      (Text.utf8 [Hex.digit n]).length = 1 := by decide
  have hcapital : ∀ n : Fin 16, hexValue? (Hex.digit n).toUpper = some n.val ∧
      (Text.utf8 [(Hex.digit n).toUpper]).length = 1 := by decide
  obtain ⟨hn, rfl | rfl⟩ := h
  · exact hsmall ⟨n, hn⟩
  · exact hcapital ⟨n, hn⟩

theorem hexEscape_of_isCodeUnit {digits : List Char} {unit : Nat} (h : IsCodeUnit digits unit)
    (rest : List Char) : hexEscape (digits ++ rest) = .ok (unit, rest) := by
  obtain ⟨ka, kb, kc, kd, hdigits, rfl⟩ := h
  obtain ⟨a, _, ha, hlater, rfl⟩ := List.forall₂_cons_right_iff.1 hdigits
  obtain ⟨b, _, hb, hlast, rfl⟩ := List.forall₂_cons_right_iff.1 hlater
  obtain ⟨c, _, hc, hfinal, rfl⟩ := List.forall₂_cons_right_iff.1 hlast
  obtain ⟨d, _, hd, hnone, rfl⟩ := List.forall₂_cons_right_iff.1 hfinal
  obtain rfl := List.forall₂_nil_right_iff.1 hnone
  obtain ⟨hreadA, hlengthA⟩ := hexValue?_of_isDigit ha
  obtain ⟨hreadB, hlengthB⟩ := hexValue?_of_isDigit hb
  obtain ⟨hreadC, hlengthC⟩ := hexValue?_of_isDigit hc
  obtain ⟨hreadD, hlengthD⟩ := hexValue?_of_isDigit hd
  have hsplit : [a, b, c, d] ++ rest = a :: b :: c :: d :: rest := rfl
  have hbytes : (Text.utf8 ((a :: b :: c :: d :: rest).take 4)).length = 4 := by
    simp only [Text.utf8, List.flatMap_singleton] at hlengthA hlengthB hlengthC hlengthD
    simp [Text.utf8, hlengthA, hlengthB, hlengthC, hlengthD]
  have hvalue : ((16 * ka + kb) * 16 + kc) * 16 + kd =
      0x1000 * ka + 0x100 * kb + 0x10 * kc + kd := by omega
  rw [hsplit, hexEscape, hbytes, if_neg (by decide), hreadA, hreadB, hreadC, hreadD]
  exact congrArg (fun unit => Except.ok (unit, rest)) hvalue

theorem isHighSurrogate_iff {n : Nat} :
    isHighSurrogate n = true ↔ 0xD800 ≤ n ∧ n ≤ 0xDBFF := by
  simp [isHighSurrogate]

theorem isLowSurrogate_iff {n : Nat} : isLowSurrogate n = true ↔ 0xDC00 ≤ n ∧ n ≤ 0xDFFF := by
  simp [isLowSurrogate]

/-- Surrogates are no characters. -/
theorem toNat_lt_or_gt (c : Char) : c.toNat < 0xD800 ∨ 0xDFFF < c.toNat ∧ c.toNat < 0x110000 :=
  c.valid

theorem unicodeEscape_of_unit {digits : List Char} {c : Char} (h : IsCodeUnit digits c.toNat)
    (rest : List Char) : unicodeEscape (digits ++ rest) = .ok (c, rest) := by
  have hvalid := toNat_lt_or_gt c
  have hread := hexEscape_of_isCodeUnit h rest
  have hlow : isLowSurrogate c.toNat = false := by
    rw [Bool.eq_false_iff, Ne, isLowSurrogate_iff]
    omega
  have hhigh : isHighSurrogate c.toNat = false := by
    rw [Bool.eq_false_iff, Ne, isHighSurrogate_iff]
    omega
  simp only [unicodeEscape, hread, bind, Except.bind, hlow, hhigh, Char.ofNat_toNat]
  rfl

/-- The halves of a pair are put together again. -/
theorem unicodeEscape_of_pair {high low : List Char} {c : Char} (hc : 0x10000 ≤ c.toNat)
    (hhigh : IsCodeUnit high (0xD800 + (c.toNat - 0x10000) / 0x400))
    (hlow : IsCodeUnit low (0xDC00 + (c.toNat - 0x10000) % 0x400)) (rest : List Char) :
    unicodeEscape (high ++ '\\' :: 'u' :: (low ++ rest)) = .ok (c, rest) := by
  have hvalid := toNat_lt_or_gt c
  have hreadHigh := hexEscape_of_isCodeUnit hhigh ('\\' :: 'u' :: (low ++ rest))
  have hreadLow := hexEscape_of_isCodeUnit hlow rest
  have hnotLow : isLowSurrogate (0xD800 + (c.toNat - 0x10000) / 0x400) = false := by
    rw [Bool.eq_false_iff, Ne, isLowSurrogate_iff]
    omega
  have hisHigh : isHighSurrogate (0xD800 + (c.toNat - 0x10000) / 0x400) = true := by
    rw [isHighSurrogate_iff]
    omega
  have hisLow : isLowSurrogate (0xDC00 + (c.toNat - 0x10000) % 0x400) = true := by
    rw [isLowSurrogate_iff]
    omega
  have hjoined : joinSurrogates (0xD800 + (c.toNat - 0x10000) / 0x400)
      (0xDC00 + (c.toNat - 0x10000) % 0x400) = c := by
    have hnumber : 0x10000 + (0xD800 + (c.toNat - 0x10000) / 0x400 - 0xD800) * 0x400 +
        (0xDC00 + (c.toNat - 0x10000) % 0x400 - 0xDC00) = c.toNat := by omega
    rw [joinSurrogates, hnumber, Char.ofNat_toNat]
  simp only [unicodeEscape, hreadHigh, bind, Except.bind, hnotLow, hisHigh, lowSurrogate,
    expectChar, if_true, hreadLow, hisLow, hjoined]
  rfl

/-- A character is read as the one that it stands for, whatever follows. -/
theorem nextChar_of_denotes {part : List Char} {c : Char} (h : Denotes part c) (rest : List Char) :
    nextChar (part ++ rest) = .ok (some c, rest) := by
  cases h with
  | plain h => exact nextChar_of_plain h rest
  | short h =>
    simp only [shortEscapes, List.mem_cons, Prod.mk.injEq, List.not_mem_nil, or_false] at h
    rcases h with ⟨rfl, rfl⟩ | ⟨rfl, rfl⟩ | ⟨rfl, rfl⟩ | ⟨rfl, rfl⟩ | ⟨rfl, rfl⟩ | ⟨rfl, rfl⟩ |
      ⟨rfl, rfl⟩ | ⟨rfl, rfl⟩
    all_goals rfl
  | unit h =>
    rw [List.cons_append, List.cons_append, nextChar, unicodeEscape_of_unit h]
    rfl
  | @pair high low _ hc hhigh hlow =>
    have hsplit : '\\' :: 'u' :: high ++ '\\' :: 'u' :: low ++ rest =
        '\\' :: 'u' :: (high ++ '\\' :: 'u' :: (low ++ rest)) := by simp
    rw [hsplit, nextChar, unicodeEscape_of_pair hc hhigh hlow]
    rfl

theorem stringBody_of_denotes {parts : List (List Char)} {text : List Char}
    (h : List.Forall₂ Denotes parts text) (rest : List Char) :
    stringBody (parts.flatten ++ '"' :: rest) = .ok (text, rest) := by
  induction h with
  | nil =>
    rw [List.flatten_nil, List.nil_append, stringBody]
    rfl
  | @cons part c parts text hpart _ ih =>
    have hnext := nextChar_of_denotes hpart (parts.flatten ++ '"' :: rest)
    rw [List.flatten_cons, List.append_assoc, stringBody]
    split
    all_goals
      rename_i hread
      rw [hnext] at hread
      cases hread
    rw [ih]
    rfl

theorem denotes_of_plain {text : List Char} (h : ∀ c ∈ text, IsPlain c) :
    List.Forall₂ Denotes (text.map ([·])) text := by
  rw [List.forall₂_map_left_iff, List.forall₂_same]
  exact fun c hc => .plain (h c hc)

theorem stringBody_of_plain {text : List Char} (h : ∀ c ∈ text, IsPlain c) (rest : List Char) :
    stringBody (text ++ '"' :: rest) = .ok (text, rest) := by
  have hbody := stringBody_of_denotes (denotes_of_plain h) rest
  rwa [← List.flatMap_def, List.flatMap_singleton'] at hbody

theorem skipSpace_append {before : List Char} (h : ∀ c ∈ before, c ∈ [' ', '\t', '\n', '\r'])
    (rest : List Char) : skipSpace (before ++ rest) = skipSpace rest := by
  have hall : [' ', '\t', '\n', '\r'].all isSpace = true := by decide
  exact List.dropWhile_append_of_pos fun c hc => List.all_eq_true.1 hall c (h c hc)

theorem readString_of_stringBody {document body text after : List Char}
    (hopen : skipSpace document = '"' :: body) (hbody : stringBody body = .ok (text, after))
    (hend : skipSpace after = []) (interpret : List Char → Except ε α) :
    readString interpret document = (interpret text).mapError .rejected := by
  rw [readString, hopen]
  show (stringBody body).mapError _ >>= _ = _
  rw [hbody]
  show (interpret text).mapError _ >>= _ = _
  cases interpret text with
  | error cause => rfl
  | ok value =>
    show (if (skipSpace after).isEmpty then _ else _) = _
    rw [hend]
    rfl

/-- A string is handed on as the text that it stands for, and there is nothing else to fail. -/
theorem readString_of_isStringOf {document text : List Char} (h : IsStringOf document text)
    (interpret : List Char → Except ε α) :
    readString interpret document = (interpret text).mapError .rejected := by
  obtain ⟨before, parts, after, rfl, hspace, hparts⟩ := h
  have hopen : skipSpace (before ++ '"' :: (parts.flatten ++ '"' :: after)) =
      '"' :: (parts.flatten ++ '"' :: after) := by
    rw [skipSpace_append fun c hc => hspace c (List.mem_append_left _ hc)]
    exact skipSpace_of_head rfl _
  have hend : skipSpace after = [] := by
    have hafter := skipSpace_append (fun c hc => hspace c (List.mem_append_right _ hc)) []
    rwa [List.append_nil] at hafter
  exact readString_of_stringBody hopen (stringBody_of_denotes hparts after) hend interpret

/-- Text without a character to escape is quoted as it is. -/
theorem quote_isStringOf {text : String} (h : ∀ c ∈ text.toList, IsPlain c) :
    IsStringOf (quote text).toList text.toList := by
  refine ⟨[], text.toList.map ([·]), [], ?_, by simp, denotes_of_plain h⟩
  simp [quote, ← List.flatMap_def]

/-- No digit has to be escaped. -/
theorem isPlain_of_mem_encodeChars {bs : Bytes} {c : Char} (h : c ∈ Hex.encodeChars bs) :
    IsPlain c := by
  have hplain : ∀ n : Fin 16, IsPlain (Hex.digit n) := by decide
  obtain ⟨n, rfl⟩ := Hex.exists_digit_of_mem_encodeChars h
  exact hplain n

theorem isDigit_of_hexValue? {c : Char} {n : Nat} (h : hexValue? c = some n) :
    Hex.IsDigit c n := by
  have hlow : c.toNat < 128 := by
    unfold hexValue? at h
    simp only at h
    split at h
    · rename_i hdigit
      have hnine : '9'.toNat = 57 := rfl
      have hle := (Char.isDigit_iff_toNat.1 hdigit).2
      omega
    · split at h
      · omega
      · split at h
        · omega
        · cases h
  have hall : ∀ k : Fin 128,
      (hexValue? (Char.ofNat k)).all fun n => decide (Hex.IsDigit (Char.ofNat k) n) := by decide
  have hdigit := hall ⟨c.toNat, hlow⟩
  rw [Char.ofNat_toNat, h, Option.all_some, decide_eq_true_iff] at hdigit
  exact hdigit

theorem isCodeUnit_of_hexEscape {text rest : List Char} {unit : Nat}
    (h : hexEscape text = .ok (unit, rest)) :
    ∃ digits, IsCodeUnit digits unit ∧ text = digits ++ rest := by
  unfold hexEscape at h
  split at h
  · cases h
  · split at h
    · split at h
      · rename_i ka kb kc kd ha hb hc hd
        cases h
        have hdigits := List.Forall₂.cons (isDigit_of_hexValue? ha) (.cons (isDigit_of_hexValue? hb)
          (.cons (isDigit_of_hexValue? hc) (.cons (isDigit_of_hexValue? hd) .nil)))
        exact ⟨_, ⟨ka, kb, kc, kd, hdigits, by omega⟩, rfl⟩
      · cases h
    · cases h

theorem IsCodeUnit.lt {digits : List Char} {unit : Nat} (h : IsCodeUnit digits unit) :
    unit < 0x10000 := by
  obtain ⟨a, b, c, d, hdigits, rfl⟩ := h
  simp only [List.forall₂_cons_right_iff] at hdigits
  obtain ⟨_, _, ⟨ha, -⟩, ⟨_, _, ⟨hb, -⟩, ⟨_, _, ⟨hc, -⟩, ⟨_, _, ⟨hd, -⟩, -⟩, -⟩, -⟩, -⟩ := hdigits
  omega

theorem eq_cons_of_expectChar {c : Char} {text rest : List Char}
    (h : expectChar c text = .ok rest) : text = c :: rest := by
  unfold expectChar at h
  split at h
  · cases h
  · split at h
    · rename_i heq
      cases h
      rw [heq]
    · cases h

theorem denotes_of_lowSurrogate {digits text rest : List Char} {high : Nat} {c : Char}
    (hdigits : IsCodeUnit digits high) (hhigh : isHighSurrogate high = true)
    (h : lowSurrogate high text = .ok (c, rest)) :
    ∃ escape, Denotes ('\\' :: 'u' :: digits ++ escape) c ∧ text = escape ++ rest := by
  obtain ⟨text₁, hslash, hlater⟩ := exists_of_bind_eq_ok h
  obtain ⟨text₂, hu, hlast⟩ := exists_of_bind_eq_ok hlater
  obtain ⟨⟨low, _⟩, hread, hpair⟩ := exists_of_bind_eq_ok hlast
  obtain rfl := eq_cons_of_expectChar hslash
  obtain rfl := eq_cons_of_expectChar hu
  obtain ⟨digits', hdigits', rfl⟩ := isCodeUnit_of_hexEscape hread
  dsimp only at hpair
  split at hpair
  · rename_i hlow
    obtain ⟨rfl, rfl⟩ := Prod.mk.inj (Except.ok.inj hpair)
    rw [isHighSurrogate_iff] at hhigh
    rw [isLowSurrogate_iff] at hlow
    have hnumber : (joinSurrogates high low).toNat =
        0x10000 + (high - 0xD800) * 0x400 + (low - 0xDC00) :=
      Text.toNat_ofNat_of_lt_or_gt (by omega)
    refine ⟨'\\' :: 'u' :: digits', .pair (by omega) ?_ ?_, rfl⟩
    · have hhalf : 0xD800 + ((joinSurrogates high low).toNat - 0x10000) / 0x400 = high := by omega
      rwa [hhalf]
    · have hhalf : 0xDC00 + ((joinSurrogates high low).toNat - 0x10000) % 0x400 = low := by omega
      rwa [hhalf]
  · cases hpair

theorem denotes_of_unicodeEscape {text rest : List Char} {c : Char}
    (h : unicodeEscape text = .ok (c, rest)) :
    ∃ escape, Denotes ('\\' :: 'u' :: escape) c ∧ text = escape ++ rest := by
  obtain ⟨⟨unit, later⟩, hunit, hlater⟩ := exists_of_bind_eq_ok h
  obtain ⟨digits, hdigits, rfl⟩ := isCodeUnit_of_hexEscape hunit
  dsimp only at hlater
  split at hlater
  · cases hlater
  · rename_i hlow
    split at hlater
    · rename_i hhigh
      obtain ⟨escape, hescape, rfl⟩ := denotes_of_lowSurrogate hdigits hhigh hlater
      exact ⟨digits ++ escape, hescape, (List.append_assoc _ _ _).symm⟩
    · rename_i hhigh
      cases hlater
      have hlt := hdigits.lt
      rw [isHighSurrogate_iff] at hhigh
      rw [isLowSurrogate_iff] at hlow
      have hnumber : (Char.ofNat unit).toNat = unit := Text.toNat_ofNat_of_lt_or_gt (by omega)
      exact ⟨digits, .unit (by rwa [hnumber]), rfl⟩

theorem mem_shortEscapes {e c : Char} (h : plainEscape? e = some c) : (e, c) ∈ shortEscapes := by
  unfold plainEscape? at h
  split at h
  all_goals cases h
  all_goals decide

theorem eq_cons_of_nextChar {text rest : List Char} (h : nextChar text = .ok (none, rest)) :
    text = '"' :: rest := by
  unfold nextChar at h
  split at h
  · cases h
  · cases h
    rfl
  · cases h
  · obtain ⟨_, -, heq⟩ := exists_of_map_eq_ok h
    cases heq
  · split at h
    all_goals cases h
  · split at h
    all_goals cases h

/-- What is read as a character is one of the ways to write it. -/
theorem denotes_of_nextChar {text rest : List Char} {c : Char}
    (h : nextChar text = .ok (some c, rest)) : ∃ part, Denotes part c ∧ text = part ++ rest := by
  unfold nextChar at h
  split at h
  · cases h
  · cases h
  · cases h
  · obtain ⟨_, hescape, heq⟩ := exists_of_map_eq_ok h
    cases heq
    obtain ⟨escape, hdenotes, rfl⟩ := denotes_of_unicodeEscape hescape
    exact ⟨_, hdenotes, rfl⟩
  · rename_i e later _ _
    split at h
    · rename_i hescape
      cases h
      exact ⟨_, .short (mem_shortEscapes hescape), rfl⟩
    · cases h
  · rename_i hquote hlone _ hescaped
    split at h
    · cases h
    · rename_i hshown
      cases h
      have hplain : IsPlain c := by
        refine ⟨hquote, fun hslash => ?_, Nat.not_lt.1 hshown⟩
        cases rest with
        | nil => exact hlone hslash rfl
        | cons e later => exact hescaped e later hslash rfl
      exact ⟨[c], .plain hplain, rfl⟩

theorem denotes_of_stringBody {text rest value : List Char}
    (h : stringBody text = .ok (value, rest)) :
    ∃ parts, List.Forall₂ Denotes parts value ∧ text = parts.flatten ++ '"' :: rest := by
  fun_induction stringBody text generalizing value with
  | case1 text fault hnext => cases h
  | case2 text later hnext =>
    cases h
    exact ⟨[], .nil, eq_cons_of_nextChar hnext⟩
  | case3 text c later hnext _ ih =>
    obtain ⟨_, hbody, heq⟩ := exists_of_map_eq_ok h
    cases heq
    obtain ⟨part, hpart, rfl⟩ := denotes_of_nextChar hnext
    obtain ⟨parts, hparts, rfl⟩ := ih hbody
    exact ⟨part :: parts, .cons hpart hparts, by simp⟩

theorem mem_of_skipSpace_eq {document rest : List Char} (h : skipSpace document = rest) :
    ∃ before, document = before ++ rest ∧ ∀ c ∈ before, c ∈ [' ', '\t', '\n', '\r'] := by
  refine ⟨document.takeWhile isSpace, ?_, ?_⟩
  · rw [← h, skipSpace, List.takeWhile_append_dropWhile]
  · intro c hc
    have hspace := List.all_eq_true.1 (List.all_takeWhile (p := isSpace) (l := document)) c hc
    simp only [isSpace, Bool.or_eq_true, beq_iff_eq] at hspace
    simp only [List.mem_cons, List.not_mem_nil, or_false]
    tauto

theorem isStringOf_of_stringBody {document body text after : List Char}
    (hopen : skipSpace document = '"' :: body) (hbody : stringBody body = .ok (text, after))
    (hend : skipSpace after = []) : IsStringOf document text := by
  obtain ⟨before, rfl, hbefore⟩ := mem_of_skipSpace_eq hopen
  obtain ⟨spaces, hafter, hspaces⟩ := mem_of_skipSpace_eq hend
  obtain ⟨parts, hparts, rfl⟩ := denotes_of_stringBody hbody
  rw [List.append_nil] at hafter
  subst hafter
  refine ⟨before, parts, _, rfl, ?_, hparts⟩
  intro c hc
  rcases List.mem_append.1 hc with hc | hc
  · exact hbefore c hc
  · exact hspaces c hc

/-- Only strings of the grammar are read, and as what their text is taken for. -/
theorem readString_eq_ok_iff {document : List Char} {interpret : List Char → Except ε α} {a : α} :
    readString interpret document = .ok a ↔
      ∃ text, IsStringOf document text ∧ interpret text = .ok a := by
  constructor
  · intro h
    unfold readString at h
    split at h
    · rename_i body hopen
      obtain ⟨⟨text, after⟩, hbody, hlater⟩ := exists_of_bind_eq_ok h
      obtain ⟨value, htext, hdone⟩ := exists_of_bind_eq_ok hlater
      split at hdone
      · rename_i hend
        cases hdone
        exact ⟨text, isStringOf_of_stringBody hopen (eq_ok_of_mapError hbody)
          (List.isEmpty_iff.1 hend), eq_ok_of_mapError htext⟩
      · cases hdone
    · obtain ⟨_, -, hdone⟩ := exists_of_bind_eq_ok h
      cases hdone
  · rintro ⟨text, hstring, htext⟩
    rw [readString_of_isStringOf hstring, htext]
    rfl

end ProofOfWork.Json
