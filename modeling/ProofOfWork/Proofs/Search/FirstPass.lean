import ProofOfWork.Proofs.Search.Drain
import ProofOfWork.Proofs.Search.Operations

/-!
Searches for the first pass. They yield what the exhaustive search yields from the same state up to
its first pass, which is the only one and comes last.
-/
namespace ProofOfWork

namespace Sink

variable {sink : Sink τ ε}

theorem accepts_of_never_refuses (h : ∀ a t, (sink a t).1 = .ok ()) (seen : List Attempt) (t : τ) :
    sink.Accepts seen t := by
  induction seen generalizing t with
  | nil => exact accepts_nil sink t
  | cons a seen ih =>
    intro answer hanswer
    rcases List.mem_cons.1 hanswer with rfl | hanswer
    · exact h a t
    · exact ih _ answer hanswer

end Sink

namespace Search

variable {s : Search σ} {front later : List Item} {item : Item}

theorem items_inMode_firstPass (s : Search σ) :
    (s.inMode .firstPass).items = upToFirst Item.passes (s.inMode .exhaustive).items := by
  cases hended : s.ended with
  | true =>
    have hfirst : (s.inMode .firstPass).items = [] := items_of_ended hended
    have hall : (s.inMode .exhaustive).items = [] := items_of_ended hended
    rw [hfirst, hall]
    rfl
  | false =>
    have hfirst := items_eq (s.inMode .firstPass) hended
    have hall := items_eq (s.inMode .exhaustive) hended
    rw [hfirst, hall]
    exact itemsFrom_inMode_firstPass s s.remaining s.state

theorem items_eq_nil_of_stopsAt (h : s.items = front ++ item :: later)
    (hstops : s.mode.stopsAt item = true) : later = [] := by
  cases hended : s.ended with
  | true =>
    rw [items_of_ended hended] at h
    simp at h
  | false =>
    rw [items_eq s hended] at h
    exact eq_nil_of_stopsAt h hstops

/-- Nothing that stops the run comes before an item. -/
theorem not_stopsAt_of_mem_front (h : s.items = front ++ item :: later) :
    ∀ first ∈ front, s.mode.stopsAt first = false := by
  intro first hfirst
  obtain ⟨before, between, rfl⟩ := List.append_of_mem hfirst
  rw [List.append_assoc, List.cons_append] at h
  apply Bool.eq_false_iff.2
  intro hstops
  have hnone := items_eq_nil_of_stopsAt h hstops
  simp at hnone

theorem exists_ok_of_mem_front (h : s.items = front ++ item :: later) :
    ∀ first ∈ front, ∃ a, first = .ok a := by
  intro first hfirst
  have hgoes := not_stopsAt_of_mem_front h first hfirst
  cases first with
  | error cause =>
    rw [Mode.stopsAt_error] at hgoes
    cases hgoes
  | ok a => exact ⟨a, rfl⟩

/-- A search for the first pass has at most one, behind attempts that do not pass. -/
theorem eq_nil_of_passed {a : Attempt}
    (h : (s.inMode .firstPass).items = front ++ .ok a :: later) (ha : a.passed = true) :
    later = [] ∧ ∀ b, .ok b ∈ front → b.passed = false := by
  constructor
  · refine items_eq_nil_of_stopsAt h ?_
    show (Mode.firstPass).stopsAt (.ok a) = true
    rw [Mode.stopsAt_ok, Mode.endsWith, ha]
    rfl
  · intro b hb
    have hgoes : (Mode.firstPass).stopsAt (.ok b) = false := not_stopsAt_of_mem_front h _ hb
    simpa [Mode.endsWith] using hgoes

/-- With a sink that refuses nothing, the tally of a search for the first pass counts one if there
is a pass to be found. -/
theorem deliver_firstPass_iff {sink : Sink τ ε} (hsink : ∀ a t, (sink a t).1 = .ok ()) (t : τ) :
    (∃ tally, (feed.deliver sink (s.inMode .firstPass) t).result = .ok tally ∧
      tally.passed = 1) ↔ ∃ a, .ok a ∈ (s.inMode .firstPass).items ∧ a.passed = true := by
  have hresult := (feed.deliver_yields sink (s.inMode .firstPass) t).1
  have hitems : feed.yields (s.inMode .firstPass) = (s.inMode .firstPass).items := rfl
  rw [hresult, hitems]
  constructor
  · rintro ⟨tally, htally, hone⟩
    cases hfailure : (sink.drained (s.inMode .firstPass).items t).2 with
    | some failure =>
      rw [hfailure] at htally
      cases htally
    | none =>
      rw [hfailure] at htally
      obtain rfl := Except.ok.inj htally
      have hpos : 0 < (Tally.of (sink.drained (s.inMode .firstPass).items t).1).passed := by
        rw [hone]
        exact Nat.one_pos
      obtain ⟨a, ha, hpass⟩ := List.countP_pos_iff.1 hpos
      exact ⟨a, Sink.of_mem_drained ha, hpass⟩
  · rintro ⟨a, ha, hpass⟩
    obtain ⟨front, later, hsplit⟩ := List.append_of_mem ha
    obtain ⟨rfl, hfront⟩ := eq_nil_of_passed hsplit hpass
    have hattempts : (attemptsOf front).map Except.ok = front :=
      map_ok_attemptsOf (exists_ok_of_mem_front hsplit)
    have hseen : (s.inMode .firstPass).items = (attemptsOf front ++ [a]).map .ok := by
      rw [hsplit, List.map_append, hattempts]
      rfl
    rw [hseen, Sink.drained_map_ok (Sink.accepts_of_never_refuses hsink _ t)]
    refine ⟨_, rfl, Tally.passed_of_concat_eq_one ?_ hpass⟩
    exact fun b hb => hfront b (mem_attemptsOf.1 hb)

/-- Whatever state a search is in, a run of it yields in search of the first pass what it yields in
exhaustive mode, up to and including the first pass, or all of it, an error at the end included, if
there is none. So there is at most one pass, which comes last, and a delivery counts one exactly if
the exhaustive search has a pass. -/
theorem firstPass_cuts_exhaustive (s : Search σ) :
    ((∃ front a later, (s.inMode .exhaustive).items = front ++ .ok a :: later ∧
        (∀ b, .ok b ∈ front → b.passed = false) ∧ a.passed = true ∧
        (s.inMode .firstPass).items = front ++ [.ok a]) ∨
      (∀ b, .ok b ∈ (s.inMode .exhaustive).items → b.passed = false) ∧
        (s.inMode .firstPass).items = (s.inMode .exhaustive).items) ∧
    (∀ front a later, (s.inMode .firstPass).items = front ++ .ok a :: later → a.passed = true →
      later = [] ∧ ∀ b, .ok b ∈ front → b.passed = false) ∧
    ∀ (sink : Sink τ ε), (∀ a t, (sink a t).1 = .ok ()) → ∀ t,
      ((∃ tally, (feed.deliver sink (s.inMode .firstPass) t).result = .ok tally ∧
        tally.passed = 1) ↔
      ∃ a, .ok a ∈ (s.inMode .exhaustive).items ∧ a.passed = true) := by
  have hcut := s.items_inMode_firstPass
  refine ⟨?_, fun front a later => eq_nil_of_passed, fun sink hsink t => ?_⟩
  · rcases upToFirst_cases Item.passes (s.inMode .exhaustive).items with
      ⟨front, item, later, hall, hfront, hitem, hfirst⟩ | ⟨hnone, hfirst⟩
    · cases item with
      | error cause => cases hitem
      | ok a => exact .inl ⟨front, a, later, hall, fun b hb => hfront _ hb, hitem, hcut.trans hfirst⟩
    · exact .inr ⟨fun b hb => hnone _ hb, hcut.trans hfirst⟩
  · rw [deliver_firstPass_iff hsink t]
    constructor
    · rintro ⟨a, ha, hpass⟩
      rw [hcut] at ha
      exact ⟨a, (upToFirst_isPrefix _ _).subset ha, hpass⟩
    · rintro ⟨a, ha, hpass⟩
      have hexists : ∃ item ∈ (s.inMode .exhaustive).items, Item.passes item = true :=
        ⟨.ok a, ha, hpass⟩
      obtain ⟨item, hitem, hfound⟩ := exists_mem_upToFirst hexists
      rw [← hcut] at hitem
      cases item with
      | error cause => cases hfound
      | ok b => exact ⟨b, hitem, hfound⟩

theorem firstPass_cuts_exhaustive_second_attempt :
    let echo : Hasher := { outputLength := 1, digest := List.getLast? }
    let shifting : Source UInt8 :=
      { draw := fun n b => (.ok ⟨List.replicate n b, List.length_replicate⟩, b >>> 4) }
    let s : Search UInt8 := ⟨⟨echo, [], ⟨4, 1⟩⟩, shifting, 1, .exhaustive, 0xFF, 3, false⟩
    let sink : Sink Unit Empty := fun _ _ => (.ok (), ())
    (∀ a t, (sink a t).1 = .ok ()) ∧
      (s.inMode .firstPass).items = [.ok ⟨[0xFF], 0, false⟩, .ok ⟨[0x0F], 4, true⟩] ∧
      ∃ tally, (feed.deliver sink (s.inMode .firstPass) ()).result = .ok tally ∧
        tally.passed = 1 := by
  intro echo shifting s sink
  have hcut : (s.inMode .firstPass).items = [.ok ⟨[0xFF], 0, false⟩, .ok ⟨[0x0F], 4, true⟩] :=
    (items_eq (s.inMode .firstPass) rfl).trans (by decide +revert)
  have hpass : .ok ⟨[0x0F], 4, true⟩ ∈ (s.inMode .exhaustive).items := by
    apply (upToFirst_isPrefix Item.passes _).subset
    rw [← items_inMode_firstPass, hcut]
    exact List.mem_cons_of_mem _ List.mem_cons_self
  have hsink : ∀ a t, (sink a t).1 = .ok () := fun _ _ => rfl
  obtain ⟨-, -, hdeliver⟩ := firstPass_cuts_exhaustive s
  exact ⟨hsink, hcut, (hdeliver sink hsink ()).2 ⟨_, hpass, rfl⟩⟩

end Search

end ProofOfWork
