import ProofOfWork.Proofs.Pool.Launching
import ProofOfWork.Proofs.Shuffle

/-!
Which worker sent what. What the workers of a pool have sent is with the manager, in the queue, or
dropped with the receiver; what a worker has still to send follows in its feed on what it has sent.
Only a delivery that was cut short loses items.
-/
namespace ProofOfWork.Pool

namespace Worker

/-- The items that a worker has still to send. A worker that is gone may have lost some. -/
def Owes (feed : Feed ι) (lossy : Prop) : Worker ι → List Item → Prop
  | .waiting (.ok i), rest => rest = feed.yields i
  | .waiting (.error _), _ => False
  | .pulling i, rest => rest = feed.yields i
  | .holding item i, rest => rest = item :: feed.yields i ∧ Item.breaksDown item = false
  | .sending item (some i), rest => rest = item :: feed.yields i ∧ Item.breaksDown item = false
  | .sending _ none, _ => False
  | .finished, rest => rest = [] ∨ lossy
  | .crashed, rest => ∃ item, rest = [item] ∧ Item.breaksDown item = true

variable {feed : Feed ι} {lossy : Prop} {w v : Worker ι} {rest sent : List Item}

theorem Owes.mono {lossier : Prop} (h : w.Owes feed lossy rest) (hlossy : lossy → lossier) :
    w.Owes feed lossier rest := by
  cases w with
  | finished => exact h.imp_right hlossy
  | waiting start => cases start <;> exact h
  | sending item later => cases later <;> exact h
  | _ => exact h

theorem Owes.launch (h : w.Owes feed lossy rest) : w.launch.Owes feed lossy rest := by
  cases w with
  | waiting start =>
    cases start with
    | error cause => exact h.elim
    | ok i => exact h
  | _ => exact h

/-- What a worker owes that is never launched is lost. -/
theorem Owes.dismiss (h : w.Owes feed lossy rest) (hlossy : lossy) :
    w.dismiss.Owes feed lossy rest := by
  cases w with
  | waiting start => exact .inr hlossy
  | _ => exact h

/-- A move sends the first items that are owed, and loses items only after the stop. -/
theorem Move.owes {manager : Manager} {room : Bool} (h : Move feed manager room w v sent)
    (howes : w.Owes feed lossy rest) (hlossy : manager.hasStopped = true → lossy) :
    ∃ later, rest = sent ++ later ∧ v.Owes feed lossy later := by
  cases h with
  | exhaust hnext =>
    rw [Owes, Feed.yields_of_next_eq_none hnext] at howes
    exact ⟨[], howes, .inl rfl⟩
  | crash hnext hb =>
    rw [Owes, Feed.yields_of_breaksDown hnext hb] at howes
    exact ⟨rest, rfl, _, howes, hb⟩
  | pull hnext hb =>
    rw [Owes, Feed.yields_of_next_eq_some hnext hb] at howes
    exact ⟨rest, rfl, howes, hb⟩
  | discard hs => exact ⟨rest, rfl, .inr (hlossy hs)⟩
  | offer _ => exact ⟨rest, rfl, howes⟩
  | giveUp ho => exact ⟨rest, rfl, .inr (hlossy (Manager.hasStopped_of_not_isOpen ho))⟩
  | @send item later _ _ =>
    cases later with
    | none => exact howes.elim
    | some i => exact ⟨feed.yields i, howes.1, rfl⟩

theorem Move.not_breaksDown {manager : Manager} {room : Bool} (h : Move feed manager room w v sent)
    (howes : w.Owes feed lossy rest) : ∀ item ∈ sent, Item.breaksDown item = false := by
  intro item hitem
  cases h with
  | @send held later _ _ =>
    obtain rfl := List.mem_singleton.1 hitem
    cases later with
    | none => exact howes.elim
    | some i => exact howes.2
  | _ => cases hitem

theorem Move.sent_eq_nil {manager : Manager} {room : Bool} (h : Move feed manager room w v sent)
    (hopen : manager.isOpen = false) : sent = [] := by
  cases h with
  | send ho =>
    rw [hopen] at ho
    cases ho
  | _ => rfl

end Worker

/-- The item that a manager took when the search failed, unless it was a launch that failed. -/
def failedItem : Option (Failure ε) → List Item
  | some (.search cause) => [.error cause]
  | some (.refused _) | none => []

namespace State

variable {r : Rules ι τ ε} {feeds : List ι} {t : τ} {s u : State ι (List Attempt × τ) ε}

/-- All items that were sent, with the number of the sender. Attempts that were sent have reached
the sink, unless they are in the queue or dropped; an error was taken out of the queue. -/
structure Ledger (r : Rules ι τ ε) (feeds : List ι) (s : State ι (List Attempt × τ) ε)
    (sent : List (Nat × Item)) (failed dropped : List Item) : Prop where
  length_eq : s.workers.length = feeds.length
  sent_eq : sent.map Prod.snd = s.received.map .ok ++ failed ++ s.queue ++ dropped
  failed_eq : failed = failedItem s.failure ∨ failed = [] ∧ ¬ r.launcher.Grants s.workers.length
  dropped_eq : dropped = [] ∨ s.manager.isOpen = false ∧ s.CutShort r.mode
  sound : ∀ x ∈ sent, x.1 < feeds.length ∧ Item.breaksDown x.2 = false
  owed : ∀ n i w, feeds[n]? = some i → s.workers[n]? = some w →
    ∃ rest, r.feed.yields i = labelled n sent ++ rest ∧ w.Owes r.feed (s.CutShort r.mode) rest

theorem ledger_initial (r : Rules ι τ ε) (feeds : List ι) (t : τ) :
    Ledger r feeds (.initial (feeds.map .ok) ([], t)) [] [] [] where
  length_eq := by simp [initial]
  sent_eq := rfl
  failed_eq := .inl rfl
  dropped_eq := .inl rfl
  sound := by
    intro x hx
    cases hx
  owed := by
    intro n i w hi hw
    have hstart : w = .waiting (.ok i) := by simpa [initial, hi] using hw.symm
    subst hstart
    exact ⟨_, rfl, rfl⟩

namespace Ledger

variable {sent : List (Nat × Item)} {failed dropped : List Item}

/-- Moves of the manager shift items and leave the workers alone. -/
theorem of_workers_eq (h : Ledger r feeds s sent failed dropped) (hworkers : u.workers = s.workers)
    {lost still : List Item}
    (hitems : u.received.map .ok ++ lost ++ u.queue ++ still =
      s.received.map .ok ++ failed ++ s.queue ++ dropped)
    (hlost : lost = failedItem u.failure ∨ lost = [] ∧ ¬ r.launcher.Grants u.workers.length)
    (hstill : still = [] ∨ u.manager.isOpen = false ∧ u.CutShort r.mode)
    (hcut : s.CutShort r.mode → u.CutShort r.mode) : Ledger r feeds u sent lost still where
  length_eq := hworkers ▸ h.length_eq
  sent_eq := h.sent_eq.trans hitems.symm
  failed_eq := hlost
  dropped_eq := hstill
  sound := h.sound
  owed := by
    intro n i w hi hw
    rw [hworkers] at hw
    obtain ⟨rest, hrest, howes⟩ := h.owed n i w hi hw
    exact ⟨rest, hrest, howes.mono hcut⟩

/-- Moves of the manager that neither take nor drop anything. -/
theorem keep (h : Ledger r feeds s sent failed dropped) (hworkers : u.workers = s.workers)
    (hqueue : u.queue = s.queue) (hsink : u.sink = s.sink) (hfailure : u.failure = s.failure)
    (hopen : u.manager.isOpen = s.manager.isOpen) : Ledger r feeds u sent failed dropped := by
  have hreceived : u.received = s.received := congrArg Prod.fst hsink
  have hcut : u.CutShort r.mode ↔ s.CutShort r.mode := by
    rw [CutShort, CutShort, hfailure, hreceived]
  refine h.of_workers_eq hworkers ?_ ?_ ?_ hcut.2
  · rw [hreceived, hqueue]
  · rw [hfailure, hworkers]
    exact h.failed_eq
  · rw [hopen, hcut]
    exact h.dropped_eq

theorem dropped_eq_nil (h : Ledger r feeds s sent failed dropped)
    (hopen : s.manager.isOpen = true) : dropped = [] := by
  rcases h.dropped_eq with hnil | ⟨hclosed, -⟩
  · exact hnil
  · rw [hopen] at hclosed
    cases hclosed

theorem failed_eq_nil (h : Ledger r feeds s sent failed dropped) (hfailure : s.failure = none) :
    failed = [] := by
  rcases h.failed_eq with hitem | ⟨hnil, -⟩
  · rw [hitem, hfailure, failedItem]
  · exact hnil

/-- Once all workers are launched, an error of the search was taken out of the queue. -/
theorem failed_of_grants (h : Ledger r feeds s sent failed dropped)
    (hgrants : r.launcher.Grants s.workers.length) : failed = failedItem s.failure :=
  h.failed_eq.resolve_right fun hdenied => hdenied.2 hgrants

/-- The manager takes an item while the delivery goes on. -/
theorem take (h : Ledger r feeds s sent failed dropped) (ha : s.Account r t)
    (hm : s.manager = .receiving) {item : Item} {rest : List Item} (hq : s.queue = item :: rest)
    (hworkers : u.workers = s.workers) (hqueue : u.queue = rest)
    (htaken : u.received.map .ok ++ failedItem u.failure = s.received.map .ok ++ [item]) :
    Ledger r feeds u sent (failedItem u.failure) dropped := by
  obtain ⟨hf, -, hg⟩ := ha.of_receiving hm
  have hnil := h.dropped_eq_nil (by rw [hm]; rfl)
  refine h.of_workers_eq hworkers ?_ (.inl rfl) (.inl hnil) ?_
  · rw [htaken, hqueue, hq, h.failed_eq_nil hf]
    simp
  · rintro (hfailed | hended)
    · exact absurd hf hfailed
    · exact absurd hg hended

theorem worker (h : Ledger r feeds s sent failed dropped) (ha : s.Account r t) {n : Nat}
    {w v : Worker ι} {new : List Item} (hw : s.workers[n]? = some w)
    (hmove : w.Move r.feed s.manager (s.queue.length < capacity) v new) :
    Ledger r feeds { s with workers := s.workers.set n v, queue := s.queue ++ new }
      (sent ++ new.map (n, ·)) failed dropped := by
  have hlt := (List.getElem?_eq_some_iff.1 hw).1
  -- a delivery that was not cut short is left when all workers are gone, and this one is not
  have hlossy : s.manager.hasStopped = true → s.CutShort r.mode := by
    intro hs
    apply Classical.byContradiction
    intro hcut
    have hgone := (ha.drained (Manager.hasLeft_of_hasStopped hs) hcut).2 w
      (List.mem_of_getElem? hw)
    rw [hmove.isGone_eq_false] at hgone
    cases hgone
  obtain ⟨i, hi⟩ : ∃ i, feeds[n]? = some i :=
    ⟨_, List.getElem?_eq_getElem (h.length_eq ▸ hlt)⟩
  obtain ⟨rest, hrest, howes⟩ := h.owed n i w hi hw
  obtain ⟨later, hlater, howes'⟩ := hmove.owes howes hlossy
  refine ⟨?_, ?_, ?_, h.dropped_eq, ?_, ?_⟩
  · rw [List.length_set]
    exact h.length_eq
  · show _ = s.received.map .ok ++ failed ++ (s.queue ++ new) ++ dropped
    have hdropped : new ++ dropped = dropped ++ new := by
      cases ho : s.manager.isOpen with
      | true => rw [h.dropped_eq_nil ho, List.append_nil, List.nil_append]
      | false => rw [hmove.sent_eq_nil ho, List.append_nil, List.nil_append]
    rw [List.map_append, h.sent_eq, List.map_map]
    simp only [List.append_assoc, hdropped]
    simp [Function.comp_def]
  · rw [List.length_set]
    exact h.failed_eq
  · intro x hx
    rcases List.mem_append.1 hx with hx | hx
    · exact h.sound x hx
    · obtain ⟨item, hitem, rfl⟩ := List.mem_map.1 hx
      exact ⟨h.length_eq ▸ hlt, hmove.not_breaksDown howes item hitem⟩
  · intro m j z hj hz
    rw [labelled_append, labelled_map_mk]
    by_cases hmn : n = m
    · subst hmn
      rw [List.getElem?_set_self hlt] at hz
      obtain rfl : v = z := Option.some.inj hz
      obtain rfl : i = j := Option.some.inj (hi.symm.trans hj)
      refine ⟨later, ?_, howes'⟩
      rw [if_pos rfl, hrest, hlater, List.append_assoc]
    · rw [List.getElem?_set_ne hmn] at hz
      rw [if_neg hmn, List.append_nil]
      exact h.owed m j z hj hz

theorem launch (h : Ledger r feeds s sent failed dropped) {n : Nat} {w : Worker ι}
    (hm : s.manager = .launching n) (hw : s.workers[n]? = some w) :
    Ledger r feeds { s with workers := s.workers.set n w.launch, manager := .launching (n + 1) }
      sent failed dropped := by
  have hlt := (List.getElem?_eq_some_iff.1 hw).1
  refine ⟨?_, h.sent_eq, ?_, .inl (h.dropped_eq_nil (by rw [hm]; rfl)), h.sound, ?_⟩
  · rw [List.length_set]
    exact h.length_eq
  · rw [List.length_set]
    exact h.failed_eq
  · intro m i z hi hz
    by_cases hmn : n = m
    · subst hmn
      rw [List.getElem?_set_self hlt] at hz
      obtain rfl : w.launch = z := Option.some.inj hz
      obtain ⟨rest, hrest, howes⟩ := h.owed n i w hi hw
      exact ⟨rest, hrest, howes.launch⟩
    · rw [List.getElem?_set_ne hmn] at hz
      exact h.owed m i z hi hz

/-- A launch that fails takes nothing out of the queue, and cuts the delivery short. -/
theorem abandon (h : Ledger r feeds s sent failed dropped) (ha : s.Account r t) {n : Nat}
    {cause : String} (hm : s.manager = .launching n) (hlt : n < s.workers.length)
    (hdenied : r.launcher n = .error cause) : Ledger r feeds (s.abandon cause) sent [] dropped := by
  have hcut : (s.abandon cause).CutShort r.mode := .inl (Option.some_ne_none _)
  have hlength : (s.abandon cause).workers.length = s.workers.length := List.length_map _
  obtain ⟨hfailure, -, -⟩ := ha.of_not_hasLeft (by rw [hm]; rfl)
  refine ⟨hlength.trans h.length_eq, ?_, .inr ⟨rfl, ?_⟩,
    .inl (h.dropped_eq_nil (by rw [hm]; rfl)), h.sound, ?_⟩
  · rw [← h.failed_eq_nil hfailure]
    exact h.sent_eq
  · intro hgrants
    have hanswer := hgrants n (hlength ▸ hlt)
    rw [hdenied] at hanswer
    cases hanswer
  · intro m i z hi hz
    have hworkers : (s.abandon cause).workers = s.workers.map Worker.dismiss := rfl
    rw [hworkers, List.getElem?_map] at hz
    obtain ⟨w, hw, rfl⟩ := Option.map_eq_some_iff.1 hz
    obtain ⟨rest, hrest, howes⟩ := h.owed m i w hi hw
    exact ⟨rest, hrest, (howes.mono fun _ => hcut).dismiss hcut⟩

theorem move (h : Ledger r feeds s sent failed dropped) (ha : s.Account r t)
    (hmove : Move r.noting s u) : ∃ sent failed dropped, Ledger r feeds u sent failed dropped := by
  cases hmove with
  | launch hm hw => exact ⟨sent, failed, dropped, h.launch hm hw⟩
  | abandon hm hlt hdenied => exact ⟨sent, [], dropped, h.abandon ha hm hlt hdenied⟩
  | listen hm | drain hm | stop hm | join hm =>
    exact ⟨sent, failed, dropped, h.keep rfl rfl rfl rfl (by rw [hm]; rfl)⟩
  | fail hm hq => exact ⟨sent, _, dropped, h.take ha hm hq rfl rfl rfl⟩
  | refuse hm hq hs =>
    refine ⟨sent, _, dropped, h.take ha hm hq rfl rfl ?_⟩
    simp [received, Rules.noting, failedItem]
  | finish hm hq hs he =>
    refine ⟨sent, _, dropped, h.take ha hm hq rfl rfl ?_⟩
    simp [received, Rules.noting, failedItem, (ha.of_receiving hm).1]
  | accept hm hq hs he =>
    refine ⟨sent, _, dropped, h.take ha hm hq rfl rfl ?_⟩
    simp [received, Rules.noting, failedItem, (ha.of_receiving hm).1]
  | close hm =>
    -- the receiver is dropped with what is in the queue
    have hnil := h.dropped_eq_nil (by rw [hm]; rfl)
    refine ⟨sent, failed, s.queue, h.of_workers_eq ?_ ?_ h.failed_eq ?_ ?_⟩
    · rfl
    · rw [hnil, List.append_nil, List.append_nil]
      rfl
    · by_cases hcut : s.CutShort r.mode
      · exact .inr ⟨rfl, hcut⟩
      · exact .inl (ha.drained (by rw [hm]; rfl) hcut).1
    · exact id
  | work hw hmove => exact ⟨_, failed, dropped, h.worker ha hw hmove⟩

end Ledger

end State

theorem Reaches.ledger (h : Reaches r.noting (.initial (feeds.map .ok) ([], t)) s) :
    ∃ sent failed dropped, s.Ledger r feeds sent failed dropped := by
  have hboth := h.invariant
    (P := fun s => s.Account r t ∧ ∃ sent failed dropped, s.Ledger r feeds sent failed dropped)
    ⟨State.account_initial _, [], [], [], State.ledger_initial r feeds t⟩ (by
      rintro s u ⟨ha, sent, failed, dropped, hledger⟩ hmove
      exact ⟨ha.move hmove, hledger.move ha hmove⟩)
  exact hboth.2

end ProofOfWork.Pool
