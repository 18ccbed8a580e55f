import Mathlib.Data.List.TakeWhile
import ProofOfWork.CommandLine.Values

/-!
Command lines on which options stand with their values, each in a word of its own. An option that is
given once has the value that is given.
-/
namespace ProofOfWork.CommandLine

/-- The word that names an argument. -/
def Argument.word (a : Argument) : String :=
  "--" ++ a.long

theorem Argument.toList_word (a : Argument) : a.word.toList = '-' :: '-' :: a.long.toList := by
  rw [word, String.toList_append]
  rfl

theorem Argument.exists_kind {a : Argument} (h : a.takesValue = true) :
    ∃ name default?, a.kind = .value name default? := by
  unfold takesValue at h
  split at h
  · exact ⟨_, _, ‹_›⟩
  · cases h

/-- Options and their values as words. -/
def optionWords (options : List (Argument × String)) : List String :=
  options.flatMap fun (a, text) => [a.word, text]

/-- The word of the argument is read as that option of the command. -/
structure Command.Offers (c : Command) (a : Argument) : Prop where
  takesValue : a.takesValue = true
  find?_eq : c.arguments.find? (·.long == a.long) = some a
  not_subcommand : c.subcommands.contains a.word = false
  no_equals : '=' ∉ a.long.toList
  no_hyphen : a.long.toList.head?.any (· != '-') = true

/-- The word does not look like an argument. -/
def IsValue (text : String) : Prop :=
  text.toList.head? ≠ some '-'

namespace Scan

/-- What is met when options stand with their values. -/
def eventsOf (options : List (Argument × String)) : List Event :=
  options.flatMap fun (a, text) => [.occurrence a.long, .value a.long text]

def ofOptions (options : List (Argument × String)) : Scan :=
  ⟨eventsOf options, none, false⟩

variable {c : Command} {a : Argument} {events : List Event} {pending : Option Argument}

theorem scanLong_word (h : c.Offers a) : scanLong c ⟨events, pending, false⟩ a.word.toList =
    .ok ⟨events ++ [.occurrence a.long], some a, false⟩ := by
  have hname : a.word.toList.dropWhile (· == '-') = a.long.toList := by
    have hhead := h.no_hyphen
    rw [a.toList_word]
    cases hlong : a.long.toList with
    | nil => simp [hlong] at hhead
    | cons first rest =>
      have hfirst : (first == '-') = false := by simpa [hlong] using hhead
      simp [hfirst]
  have hsplit : splitAtEquals a.long.toList = (a.long.toList, none) := by
    have hall : ∀ letter ∈ a.long.toList, (letter != '=') = true := by
      intro letter hletter
      rw [bne_iff_ne]
      rintro rfl
      exact h.no_equals hletter
    rw [splitAtEquals, List.takeWhile_eq_self_iff.2 hall, List.dropWhile_eq_nil_iff.2 hall]
    rfl
  obtain ⟨name, default?, hkind⟩ := Argument.exists_kind h.takesValue
  unfold scanLong
  rw [hname, hsplit]
  simp only [String.ofList_toList, h.find?_eq, meet, hkind]

/-- The option waits for its value. -/
theorem scan_word (h : c.Offers a) (rest : List String) :
    c.scan ⟨events, pending, false⟩ (a.word :: rest) =
      c.scan ⟨events ++ [.occurrence a.long], some a, false⟩ rest := by
  have hword : (a.word == "--") = false := by
    have hhead := h.no_hyphen
    apply beq_false_of_ne
    intro heq
    have hlist := congrArg String.toList heq
    rw [a.toList_word] at hlist
    have hnil : a.long.toList = [] := by simpa using hlist
    simp [hnil] at hhead
  have hscan : Command.scan c ⟨events, pending, false⟩ (a.word :: rest) =
      (do c.scan (← scanLong c ⟨events, pending, false⟩ a.word.toList) rest) := by
    rw [Command.scan, hword, h.not_subcommand, Bool.and_false]
    simp only [Bool.false_eq_true, if_false]
    rw [a.toList_word]
    rfl
  rw [hscan, scanLong_word h]
  rfl

/-- The word behind the option is its value. -/
theorem scan_value {text : String} (h : IsValue text) (rest : List String) :
    c.scan ⟨events, some a, false⟩ (text :: rest) =
      c.scan ⟨events ++ [.value a.long text], none, false⟩ rest := by
  have hword : (text == "--") = false := by
    apply beq_false_of_ne
    rintro rfl
    exact h rfl
  rw [Command.scan, hword]
  simp only [Bool.false_eq_true, if_false, Option.isNone_some, Bool.false_and]
  split
  · rename_i hlist
    exact absurd (by rw [hlist]; rfl) h
  · rename_i hlist
    exact absurd (by rw [hlist]; rfl) h
  · rw [takeValue, String.ofList_toList]

theorem scan_optionWords {options : List (Argument × String)}
    (h : ∀ o ∈ options, c.Offers o.1 ∧ IsValue o.2) :
    c.scan ⟨events, none, false⟩ (optionWords options) =
      .ok (⟨events ++ eventsOf options, none, false⟩, none) := by
  induction options generalizing events with
  | nil =>
    rw [eventsOf, List.flatMap_nil, List.append_nil]
    rfl
  | cons o options ih =>
    obtain ⟨a, text⟩ := o
    obtain ⟨hoffers, hvalue⟩ := h _ List.mem_cons_self
    have hwords : optionWords ((a, text) :: options) = a.word :: text :: optionWords options := rfl
    rw [hwords, scan_word hoffers, scan_value hvalue,
      ih fun o ho => h o (List.mem_cons_of_mem _ ho), List.append_assoc, List.append_assoc]
    rfl

variable {options : List (Argument × String)}

theorem given_ofOptions (a : Argument) (options : List (Argument × String)) :
    (ofOptions options).given a = (options.filter (·.1.long == a.long)).map Prod.snd := by
  induction options with
  | nil => rfl
  | cons o options ih =>
    have hcons : (ofOptions (o :: options)).given a =
        (if o.1.long == a.long then [o.2] else []) ++ (ofOptions options).given a := by
      have hevents : (ofOptions (o :: options)).events =
          .occurrence o.1.long :: .value o.1.long o.2 :: (ofOptions options).events := rfl
      rw [given, hevents, List.filterMap_cons, List.filterMap_cons]
      dsimp only
      cases o.1.long == a.long <;> rfl
    rw [hcons, ih, List.filter_cons]
    split <;> rfl

theorem count_ofOptions (a : Argument) (options : List (Argument × String)) :
    (ofOptions options).count a = (options.filter (·.1.long == a.long)).length := by
  induction options with
  | nil => rfl
  | cons o options ih =>
    have hcons : (ofOptions (o :: options)).count a =
        (ofOptions options).count a + if o.1.long == a.long then 1 else 0 := by
      have hevents : (ofOptions (o :: options)).events =
          .occurrence o.1.long :: .value o.1.long o.2 :: (ofOptions options).events := rfl
      rw [count, hevents, List.countP_cons, List.countP_cons]
      rfl
    rw [hcons, ih, List.filter_cons]
    split <;> rfl

/-- An option that is given once is read from its value. -/
theorem required_ofOptions {b : Argument} {text : String} {read : String → Except String α} {x : α}
    (hgiven : options.filter (·.1.long == a.long) = [(b, text)]) (hread : read text = .ok x) :
    (ofOptions options).required a read = .ok x := by
  have hvalues : (ofOptions options).values a = [text] := by
    have hone : (ofOptions options).given a = [text] := by
      rw [given_ofOptions, hgiven]
      rfl
    rw [values, hone]
    rfl
  have hcount : (ofOptions options).count a = 1 := by
    rw [count_ofOptions, hgiven]
    rfl
  have honce : (ofOptions options).once a = .ok () := by
    rw [once, hcount]
    rfl
  have hoptional : (ofOptions options).optional a read = .ok (some x) := by
    rw [optional, hvalues, honce, List.mapM_cons, hread]
    rfl
  rw [required, hoptional]
  rfl

/-- An argument without a default that is not given has no value. -/
theorem optional_ofOptions {read : String → Except String α} (hdefault : a.default? = none)
    (hgiven : options.filter (·.1.long == a.long) = []) :
    (ofOptions options).optional a read = .ok none := by
  have hvalues : (ofOptions options).values a = [] := by
    have hnone : (ofOptions options).given a = [] := by
      rw [given_ofOptions, hgiven]
      rfl
    rw [values, hnone, hdefault]
    rfl
  have hcount : (ofOptions options).count a = 0 := by
    rw [count_ofOptions, hgiven]
    rfl
  rw [optional, once, hvalues, hcount]
  rfl

theorem settle_ofOptions {required : List Argument} (h : required ⊆ options.map Prod.fst) :
    (ofOptions options).settle required = .ok () := by
  have hnone : (required.find? fun a => (ofOptions options).count a == 0) = none := by
    apply List.find?_eq_none.2
    intro a ha
    obtain ⟨o, ho, rfl⟩ := List.mem_map.1 (h ha)
    have hmem : o ∈ options.filter (·.1.long == o.1.long) := List.mem_filter.2 ⟨ho, by simp⟩
    have hpos := List.length_pos_of_mem hmem
    rw [← count_ofOptions] at hpos
    simp only [beq_iff_eq]
    omega
  rw [settle, hnone]
  rfl

end Scan

end ProofOfWork.CommandLine
