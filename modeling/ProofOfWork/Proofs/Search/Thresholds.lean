import Mathlib.Data.List.Forall2
import ProofOfWork.Proofs.Search.Exhaustive
import ProofOfWork.Proofs.Search.FirstPass
import ProofOfWork.Proofs.Search.Stopping
import ProofOfWork.Proofs.Search.Verdicts

/-!
Searches that differ in nothing but their thresholds. They draw the same nonces and count the same
zero bits; a harder threshold passes fewer attempts and ends a search for the first pass later.
-/
namespace ProofOfWork

/-- The attempt with the verdict of another threshold. -/
def Attempt.judgedBy (t : Threshold) (a : Attempt) : Attempt :=
  { a with passed := t.required ≤ a.leadingZeros }

namespace Item

def judgedBy (t : Threshold) (item : Item) : Item :=
  item.map (·.judgedBy t)

theorem breaksDown_judgedBy (t : Threshold) (item : Item) :
    breaksDown (item.judgedBy t) = breaksDown item := by
  cases item with
  | error cause => rfl
  | ok a => rfl

/-- The same error, or the same nonce with the same count, and the first attempt passes if the
second does. -/
inductive Eases : Item → Item → Prop
  | error (cause : SearchError) : Eases (.error cause) (.error cause)
  | attempt {a b : Attempt} : a.nonce = b.nonce → a.leadingZeros = b.leadingZeros →
      (b.passed = true → a.passed = true) → Eases (.ok a) (.ok b)

theorem Eases.passes {item other : Item} (h : Eases item other) (hpass : passes other = true) :
    passes item = true := by
  cases h with
  | error cause => exact hpass
  | attempt _ _ himp => exact himp hpass

theorem countP_passes_le {items others : List Item} (h : List.Forall₂ Eases items others) :
    others.countP passes ≤ items.countP passes := by
  induction h with
  | nil => exact Nat.le_refl _
  | cons hfirst _ ih =>
    rw [List.countP_cons, List.countP_cons]
    refine Nat.add_le_add ih ?_
    split
    · rename_i hother
      rw [if_pos (hfirst.passes hother)]
    · exact Nat.zero_le _

end Item

/-- A sink that refuses nothing is given all attempts up to the first error, which is the same. -/
theorem Sink.drained_of_eases {sink : Sink τ ε} (hsink : ∀ a u, (sink a u).1 = .ok ())
    {items others : List Item} (h : List.Forall₂ Item.Eases items others) (u v : τ) :
    (sink.drained items u).2 = (sink.drained others v).2 := by
  induction h generalizing u v with
  | nil => rfl
  | cons hfirst _ ih =>
    cases hfirst with
    | error cause => rfl
    | @attempt a b =>
      rw [drained_of_accepted (hsink a u), drained_of_accepted (hsink b v)]
      exact ih _ _

namespace Feed

variable {f g : Feed ι} {i j : ι}

/-- Two deliveries that nothing has ended early count alike, but for what passes. -/
theorem counts_le_of_eases (h : List.Forall₂ Item.Eases (f.items i) (g.items j))
    {sink other : Sink τ ε} {u v : τ} {m n : Tally} (hm : (f.deliver sink i u).result = .ok m)
    (hn : (g.deliver other j v).result = .ok n) :
    m.attempts = n.attempts ∧ n.passed ≤ m.passed := by
  obtain ⟨hattempts, hpassed⟩ := tally_of_deliver_eq_ok hm
  obtain ⟨hattempts', hpassed'⟩ := tally_of_deliver_eq_ok hn
  rw [hattempts, hattempts', hpassed, hpassed']
  exact ⟨h.length_eq, Item.countP_passes_le h⟩

theorem result_eq_error_iff_of_eases (h : List.Forall₂ Item.Eases (f.items i) (g.items j))
    {sink : Sink τ ε} (hsink : ∀ a u, (sink a u).1 = .ok ()) (u : τ) (failure : Failure ε) :
    (f.deliver sink i u).result = .error failure ↔ (g.deliver sink j u).result = .error failure := by
  have hsame := Sink.drained_of_eases hsink h u u
  rw [(f.deliver_eq sink i u).1, (g.deliver_eq sink j u).1, Failure.orTally_eq_error_iff,
    Failure.orTally_eq_error_iff, hsame]

end Feed

namespace Search

theorem refusal?_eq_of_length_eq (hasher : Hasher) (challenge : Bytes) {t u : Threshold}
    (h : t.length = u.length) (plan : Plan) :
    refusal? ⟨hasher, challenge, t⟩ plan = refusal? ⟨hasher, challenge, u⟩ plan := by
  simp only [refusal?, Threshold.expect, h]

/-- The same search with another threshold. -/
def judgedBy (t : Threshold) (s : Search σ) : Search σ :=
  { s with puzzle := { s.puzzle with threshold := t } }

variable {s u : Search σ} {t : Threshold}

theorem itemOf_judgedBy (t : Threshold) (p : Puzzle) (drawn : Except String (Block n)) :
    itemOf { p with threshold := t } drawn = (itemOf p drawn).judgedBy t := by
  cases drawn with
  | error cause => rfl
  | ok nonce =>
    have hattempt : ({ p with threshold := t } : Puzzle).attempt nonce.val =
        (p.attempt nonce.val).map (·.judgedBy t) := by
      rw [Puzzle.attempt, Puzzle.attempt, Option.map_map]
      rfl
    rw [itemOf, itemOf, hattempt]
    cases p.attempt nonce.val with
    | none => rfl
    | some a => rfl

/-- The nonce is drawn and hashed all the same. -/
theorem pull_judgedBy (t : Threshold) (s : Search σ) :
    (s.judgedBy t).pull = (s.pull.1.judgedBy t, s.pull.2) := by
  unfold pull
  by_cases hlong : Bytes.lengthLimit < s.nonceLength
  · have hother : Bytes.lengthLimit < (s.judgedBy t).nonceLength := hlong
    rw [if_pos hlong, if_pos hother]
    rfl
  · have hother : ¬ Bytes.lengthLimit < (s.judgedBy t).nonceLength := hlong
    rw [if_neg hlong, if_neg hother]
    exact Prod.ext (itemOf_judgedBy t s.puzzle _) rfl

theorem endsWith_judgedBy (t : Threshold) (item : Item) :
    Mode.exhaustive.endsWith (item.judgedBy t) = Mode.exhaustive.endsWith item := by
  cases item with
  | error cause => rfl
  | ok a => exact (Bool.and_false _).trans (Bool.and_false _).symm

/-- A step of the one search is a step of the other, with the item judged anew. -/
theorem next_judgedBy (t : Threshold) (hmode : s.mode = .exhaustive) :
    (s.judgedBy t).next = s.next.map fun (item, u) => (item.judgedBy t, u.judgedBy t) := by
  by_cases hdone : s.ended = true ∨ s.remaining = 0
  · have hother : (s.judgedBy t).ended = true ∨ (s.judgedBy t).remaining = 0 := hdone
    rw [next_eq_none_iff.2 hdone, next_eq_none_iff.2 hother]
    rfl
  · obtain ⟨hended, hremaining⟩ := not_or.1 hdone
    have hlive : s.ended = false := Bool.eq_false_iff.2 hended
    have hpos : 0 < s.remaining := Nat.pos_of_ne_zero hremaining
    have hother : (s.judgedBy t).ended = false := hlive
    have hends : (s.judgedBy t).mode.endsWith (s.pull.1.judgedBy t) =
        s.mode.endsWith s.pull.1 := by
      show s.mode.endsWith _ = _
      rw [hmode, endsWith_judgedBy]
    rw [next_of_live hlive hpos, next_of_live hother hpos, pull_judgedBy, hends]
    rfl

theorem mode_of_next {item : Item} (h : s.next = some (item, u)) : u.mode = s.mode := by
  unfold next at h
  split at h
  · cases h
  · cases h
    rfl

theorem feed_items_judgedBy (t : Threshold) (hmode : s.mode = .exhaustive) :
    feed.items (s.judgedBy t) = (feed.items s).map (·.judgedBy t) := by
  fun_induction Feed.items feed s with
  | case1 s hnone =>
    have hother : feed.next (s.judgedBy t) = none := by
      show (s.judgedBy t).next = none
      have hnext : s.next = none := hnone
      rw [next_judgedBy t hmode, hnext]
      rfl
    rw [Feed.items_of_next_eq_none hother]
    rfl
  | case2 s item u hsome _ ih =>
    have hnext : s.next = some (item, u) := hsome
    have hother : feed.next (s.judgedBy t) = some (item.judgedBy t, u.judgedBy t) := by
      show (s.judgedBy t).next = _
      rw [next_judgedBy t hmode, hnext]
      rfl
    rw [Feed.items_of_next_eq_some hother, ih ((mode_of_next hnext).trans hmode), List.map_cons]

/-- A breakdown is none of the threshold, so that both runs are cut at the same item. -/
theorem items_judgedBy (t : Threshold) (hmode : s.mode = .exhaustive) :
    (s.judgedBy t).items = s.items.map (·.judgedBy t) := by
  have hbreaks : Item.breaksDown ∘ Item.judgedBy t = Item.breaksDown :=
    funext (Item.breaksDown_judgedBy t)
  unfold items Feed.yields
  rw [feed_items_judgedBy t hmode, upToFirst_map, hbreaks]

/-- After any number of calls the sources are in the same state. -/
theorem run_judgedBy (t : Threshold) (hmode : s.mode = .exhaustive) (calls : Nat) :
    (s.judgedBy t).run (List.replicate calls .next) =
      (s.run (List.replicate calls .next)).judgedBy t := by
  induction calls generalizing s with
  | zero => rfl
  | succ calls ih =>
    have hafter : (s.judgedBy t).after .next = (s.after .next).judgedBy t ∧
        (s.after .next).mode = .exhaustive := by
      cases hnext : s.next with
      | none =>
        have hother : (s.judgedBy t).next = none := by
          rw [next_judgedBy t hmode, hnext]
          rfl
        rw [after_next_of_eq_none hnext, after_next_of_eq_none hother]
        exact ⟨rfl, hmode⟩
      | some found =>
        have hother : (s.judgedBy t).next =
            some (found.1.judgedBy t, found.2.judgedBy t) := by
          rw [next_judgedBy t hmode, hnext]
          rfl
        rw [after_next_of_eq_some hnext, after_next_of_eq_some hother]
        exact ⟨rfl, (mode_of_next hnext).trans hmode⟩
    rw [List.replicate_succ]
    exact (congrArg (run · _) hafter.1).trans (ih hafter.2)

/-- Judged anew by a harder threshold, an item of the search is eased by the item itself. -/
theorem eases_judgedBy {p : Puzzle} {plan : Plan} {source : Source σ} {item : Item}
    (h : Reachable p plan source s) (hle : p.threshold.required ≤ t.required)
    (hitem : item ∈ feed.items s) : Item.Eases item (item.judgedBy t) := by
  cases item with
  | error cause => exact .error cause
  | ok a =>
    refine .attempt rfl rfl fun hpass => ?_
    have hcount : t.required ≤ a.leadingZeros := of_decide_eq_true hpass
    exact (h.confirms_items hitem).passed_iff.2 (Nat.le_trans hle hcount)

theorem forall₂_eases_map {items : List Item}
    (h : ∀ item ∈ items, Item.Eases item (item.judgedBy t)) :
    List.Forall₂ Item.Eases items (items.map (·.judgedBy t)) := by
  rw [List.forall₂_map_right_iff, List.forall₂_same]
  exact h

/-- A harder threshold lets a search for the first pass go on, if anything. -/
theorem exists_items_firstPass_judgedBy
    (h : ∀ item ∈ (s.inMode .exhaustive).items, Item.Eases item (item.judgedBy t)) :
    ∃ more, ((s.judgedBy t).inMode .firstPass).items =
      (s.inMode .firstPass).items.map (·.judgedBy t) ++ more := by
  have himp : ∀ item ∈ (s.inMode .exhaustive).items,
      Item.passes (item.judgedBy t) = true → Item.passes item = true :=
    fun item hitem => (h item hitem).passes
  obtain ⟨more, hmore⟩ := upToFirst_isPrefix_of_imp himp
  have hmode : (s.inMode .exhaustive).mode = .exhaustive := rfl
  have hall : ((s.judgedBy t).inMode .exhaustive).items =
      (s.inMode .exhaustive).items.map (·.judgedBy t) := items_judgedBy t hmode
  refine ⟨more.map (·.judgedBy t), ?_⟩
  rw [items_inMode_firstPass, items_inMode_firstPass, hall, upToFirst_map, ← List.map_append, hmore]
  rfl

/-- Searches whose thresholds differ in what they require, from the same state of the source. They
are refused alike. In exhaustive mode they yield the same items but for the verdicts, and what passes
the harder threshold passes the easier one; so they bring the source into the same states, and no
delivery counts more passes with the harder threshold than with the easier one. A search for the first
pass with the easier threshold yields no more items than one with the harder threshold, and as far as
it goes the two agree in nonces and counts. -/
theorem threshold_changes_verdicts_only (hasher : Hasher) (challenge : Bytes)
    {easy hard : Threshold} (hlength : easy.length = hard.length)
    (hle : easy.required ≤ hard.required) (plan : Plan) (source : Source σ) (state : σ) :
    let begin (threshold : Threshold) := start ⟨hasher, challenge, threshold⟩ plan source state
    (¬ (0 < plan.nonceLength ∧ hasher.outputLength = easy.length) →
      ∃ cause, begin easy = .error cause ∧ begin hard = .error cause) ∧
    (0 < plan.nonceLength → hasher.outputLength = easy.length →
      ∃ s t, begin easy = .ok s ∧ begin hard = .ok t ∧
        List.Forall₂ Item.Eases (s.inMode .exhaustive).items (t.inMode .exhaustive).items ∧
        (∀ calls, ((s.inMode .exhaustive).run (List.replicate calls .next)).state =
          ((t.inMode .exhaustive).run (List.replicate calls .next)).state) ∧
        (∀ (sink other : Sink τ ε) u v m n,
          (feed.deliver sink (s.inMode .exhaustive) u).result = .ok m →
          (feed.deliver other (t.inMode .exhaustive) v).result = .ok n →
          m.attempts = n.attempts ∧ n.passed ≤ m.passed) ∧
        (∀ (sink : Sink τ ε), (∀ a u, (sink a u).1 = .ok ()) → ∀ u failure,
          (feed.deliver sink (s.inMode .exhaustive) u).result = .error failure ↔
          (feed.deliver sink (t.inMode .exhaustive) u).result = .error failure) ∧
        (s.inMode .firstPass).items.length ≤ (t.inMode .firstPass).items.length ∧
        List.Forall₂ Item.Eases (s.inMode .firstPass).items
          ((t.inMode .firstPass).items.take (s.inMode .firstPass).items.length)) := by
  intro begin
  have hsame := refusal?_eq_of_length_eq hasher challenge hlength plan
  have hrefusal : refusal? ⟨hasher, challenge, easy⟩ plan = none ↔
      0 < plan.nonceLength ∧ hasher.outputLength = easy.length := refusal?_eq_none_iff
  constructor
  · intro hunfit
    obtain ⟨cause, hcause⟩ := Option.ne_none_iff_exists'.1 (mt hrefusal.1 hunfit)
    refine ⟨cause, ?_, ?_⟩
    · simp only [begin, start, hcause]
    · simp only [begin, start, ← hsame, hcause]
  · intro hnonce hdigest
    have hnone := hrefusal.2 ⟨hnonce, hdigest⟩
    obtain ⟨s, hs⟩ : ∃ s, begin easy = .ok s := exists_start_iff.2 hnone
    obtain ⟨t, ht⟩ : ∃ t, begin hard = .ok t := exists_start_iff.2 (hsame ▸ hnone)
    have hmode : s.mode = .exhaustive := by rw [eq_of_start hs]
    have hexhaustive : s.inMode .exhaustive = s := by rw [← hmode]; rfl
    obtain rfl : t = s.judgedBy hard := by rw [eq_of_start hs, eq_of_start ht]; rfl
    have hother : (s.judgedBy hard).inMode .exhaustive = s.judgedBy hard :=
      congrArg (judgedBy hard) hexhaustive
    have hpulled : List.Forall₂ Item.Eases (feed.items s) (feed.items (s.judgedBy hard)) := by
      rw [feed_items_judgedBy hard hmode]
      exact forall₂_eases_map fun item hitem => eases_judgedBy (.start hs) hle hitem
    have heases : ∀ item ∈ s.items, Item.Eases item (item.judgedBy hard) := fun item hitem =>
      eases_judgedBy (.start hs) hle ((feed.yields_isPrefix s).subset hitem)
    have hall : List.Forall₂ Item.Eases s.items (s.judgedBy hard).items := by
      rw [items_judgedBy hard hmode]
      exact forall₂_eases_map heases
    have hfirst : ∀ item ∈ (s.inMode .firstPass).items, Item.Eases item (item.judgedBy hard) := by
      intro item hitem
      rw [items_inMode_firstPass, hexhaustive] at hitem
      exact heases item ((upToFirst_isPrefix _ _).subset hitem)
    obtain ⟨more, hmore⟩ := exists_items_firstPass_judgedBy (hexhaustive.symm ▸ heases)
    have hcount : ((s.inMode .firstPass).items.map (·.judgedBy hard)).length =
        (s.inMode .firstPass).items.length := List.length_map _
    refine ⟨s, s.judgedBy hard, hs, ht, ?_⟩
    rw [hexhaustive, hother]
    refine ⟨hall, ?_, ?_, ?_, ?_, ?_⟩
    · intro calls
      rw [run_judgedBy hard hmode]
      rfl
    · intro sink other u v m n hm hn
      exact Feed.counts_le_of_eases hpulled hm hn
    · intro sink hsink u failure
      exact Feed.result_eq_error_iff_of_eases hpulled hsink u failure
    · rw [hmore, List.length_append, hcount]
      exact Nat.le_add_right _ _
    · rw [hmore, List.take_left' hcount]
      exact forall₂_eases_map hfirst

/-- Of three digests two pass the easier threshold, the second one first, and only the last passes the
harder one. -/
theorem threshold_changes_verdicts_only_three_digests :
    let echo : Hasher := { outputLength := 1, digest := List.getLast? }
    let shifting : Source UInt8 :=
      { draw := fun n b => (.ok ⟨List.replicate n b, List.length_replicate⟩, b >>> 4) }
    let easy : Threshold := ⟨4, 1⟩
    let hard : Threshold := ⟨8, 1⟩
    let s : Search UInt8 := fresh ⟨echo, [], easy⟩ shifting 1 0xFF 3
    let t : Search UInt8 := fresh ⟨echo, [], hard⟩ shifting 1 0xFF 3
    let sink : Sink Unit Empty := fun _ _ => (.ok (), ())
    easy.length = hard.length ∧ easy.required ≤ hard.required ∧ echo.outputLength = easy.length ∧
      start ⟨echo, [], easy⟩ ⟨3, 1⟩ shifting 0xFF = .ok s ∧
      start ⟨echo, [], hard⟩ ⟨3, 1⟩ shifting 0xFF = .ok t ∧
      List.Forall₂ Item.Eases s.items t.items ∧
      (∀ a u, (sink a u).1 = .ok ()) ∧
      (∀ failure, (feed.deliver sink s ()).result = .error failure ↔
        (feed.deliver sink t ()).result = .error failure) ∧
      (feed.deliver sink s ()).result = .ok ⟨3, 2⟩ ∧
      (∀ n, (feed.deliver sink t ()).result = .ok n → n.attempts = 3 ∧ n.passed ≤ 2) ∧
      (s.inMode .firstPass).items = [.ok ⟨[0xFF], 0, false⟩, .ok ⟨[0x0F], 4, true⟩] ∧
      2 ≤ (t.inMode .firstPass).items.length := by
  intro echo shifting easy hard s t sink
  have hall : s.items = [.ok ⟨[0xFF], 0, false⟩, .ok ⟨[0x0F], 4, true⟩, .ok ⟨[0x00], 8, true⟩] :=
    (items_eq s rfl).trans (by decide +revert)
  have hfirst : (s.inMode .firstPass).items = [.ok ⟨[0xFF], 0, false⟩, .ok ⟨[0x0F], 4, true⟩] := by
    rw [items_inMode_firstPass]
    show upToFirst Item.passes s.items = _
    rw [hall]
    rfl
  have hs : start ⟨echo, [], easy⟩ ⟨3, 1⟩ shifting 0xFF = .ok s := rfl
  have ht : start ⟨echo, [], hard⟩ ⟨3, 1⟩ shifting 0xFF = .ok t := rfl
  have hle : easy.required ≤ hard.required := by decide
  have hlength : easy.length = hard.length := rfl
  have hsink : ∀ a u, (sink a u).1 = .ok () := fun _ _ => rfl
  have hdeliver : (feed.deliver sink s ()).result = .ok ⟨3, 2⟩ := by
    rw [(feed.deliver_yields sink s ()).1]
    show Failure.orTally (sink.drained s.items ()).2 (.of (sink.drained s.items ()).1) = _
    rw [hall]
    rfl
  obtain ⟨-, hfit⟩ := threshold_changes_verdicts_only echo [] hlength hle ⟨3, 1⟩ shifting 0xFF
  obtain ⟨s', t', hs', ht', heases, -, hcounts, hfailures, hshorter, -⟩ := hfit (by decide) rfl
  obtain rfl : s = s' := Except.ok.inj (hs.symm.trans hs')
  obtain rfl : t = t' := Except.ok.inj (ht.symm.trans ht')
  refine ⟨hlength, hle, rfl, hs, ht, heases, hsink, hfailures sink hsink (), hdeliver, ?_, hfirst, ?_⟩
  · intro n hn
    obtain ⟨hattempts, hpassed⟩ := hcounts sink sink () () _ n hdeliver hn
    exact ⟨hattempts.symm, hpassed⟩
  · rwa [hfirst] at hshorter

end Search

end ProofOfWork
