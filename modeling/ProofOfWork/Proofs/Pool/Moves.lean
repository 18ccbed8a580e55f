import ProofOfWork.Pool.State
import ProofOfWork.Proofs.Search.Items

/-!
What the actors of a pool can do, as relations with one constructor for each kind of move. What
holds along every run is proved by cases on them.
-/
namespace ProofOfWork

namespace Pool

namespace Worker

theorem pulled_eq (item : Item) (rest : ι) :
    pulled item rest = if Item.breaksDown item then crashed else holding item rest := by
  cases item with
  | error cause => rfl
  | ok a => rfl

/-- A move of a worker, and what it puts into the queue. -/
inductive Move (feed : Feed ι) (manager : Manager) (room : Bool) :
    Worker ι → Worker ι → List Item → Prop
  | exhaust {i} : feed.next i = none → Move feed manager room (.pulling i) .finished []
  | crash {i j item} : feed.next i = some (item, j) → Item.breaksDown item = true →
      Move feed manager room (.pulling i) .crashed []
  | pull {i j item} : feed.next i = some (item, j) → Item.breaksDown item = false →
      Move feed manager room (.pulling i) (.holding item j) []
  | discard {item i} : manager.hasStopped = true →
      Move feed manager room (.holding item i) .finished []
  | offer {item i} : manager.hasStopped = false →
      Move feed manager room (.holding item i) (.sending item (some i)) []
  | giveUp {item rest} : manager.isOpen = false →
      Move feed manager room (.sending item rest) .finished []
  | send {item rest} : manager.isOpen = true → room = true →
      Move feed manager room (.sending item rest) (rest.elim .finished .pulling) [item]

theorem step_iff_move {feed : Feed ι} {manager : Manager} {room : Bool} {w v : Worker ι}
    {sent : List Item} :
    w.step feed manager room = some (v, sent) ↔ Move feed manager room w v sent := by
  constructor
  · intro h
    cases w with
    | waiting start => cases h
    | pulling i =>
      simp only [step] at h
      split at h
      · rename_i hnext
        cases h
        exact .exhaust hnext
      · rename_i item rest hnext
        cases h
        rw [pulled_eq]
        split
        · rename_i hb
          exact .crash hnext hb
        · rename_i hb
          exact .pull hnext (by simpa using hb)
    | holding item i =>
      simp only [step] at h
      split at h
      · rename_i hs
        cases h
        exact .discard hs
      · rename_i hs
        cases h
        exact .offer (by simpa using hs)
    | sending item rest =>
      simp only [step] at h
      split at h
      · rename_i ho
        cases h
        exact .giveUp (by simpa using ho)
      · rename_i ho
        split at h
        · rename_i hr
          cases h
          exact .send (by simpa using ho) hr
        · cases h
    | finished => cases h
    | crashed => cases h
  · intro h
    cases h with
    | exhaust hnext => simp [step, hnext]
    | crash hnext hb => simp [step, hnext, pulled_eq, hb]
    | pull hnext hb => simp [step, hnext, pulled_eq, hb]
    | discard hs => simp [step, hs]
    | offer hs => simp [step, hs]
    | giveUp ho => simp [step, ho]
    | send ho hr => simp [step, ho, hr]

end Worker

/-- A move of the manager or of a worker. -/
inductive Move (r : Rules ι τ ε) (s : State ι τ ε) : State ι τ ε → Prop
  | launch {n w} : s.manager = .launching n → s.workers[n]? = some w → r.launcher n = .ok () →
      Move r s { s with workers := s.workers.set n w.launch, manager := .launching (n + 1) }
  | abandon {n cause} : s.manager = .launching n → n < s.workers.length →
      r.launcher n = .error cause → Move r s (s.abandon cause)
  | listen {n} : s.manager = .launching n → s.workers[n]? = none →
      Move r s { s with manager := .receiving }
  | fail {cause rest} : s.manager = .receiving → s.queue = .error cause :: rest →
      Move r s { s with queue := rest, failure := some (.search cause), manager := .leaving }
  | refuse {a rest cause} : s.manager = .receiving → s.queue = .ok a :: rest →
      (r.sink a s.sink).1 = .error cause →
      Move r s { s with queue := rest, tally := s.tally.add a, sink := (r.sink a s.sink).2,
                        failure := some (.refused cause), manager := .leaving }
  | finish {a rest} : s.manager = .receiving → s.queue = .ok a :: rest →
      (r.sink a s.sink).1 = .ok () → r.mode.endsWith (.ok a) = true →
      Move r s { s with queue := rest, tally := s.tally.add a, sink := (r.sink a s.sink).2,
                        manager := .leaving }
  | accept {a rest} : s.manager = .receiving → s.queue = .ok a :: rest →
      (r.sink a s.sink).1 = .ok () → r.mode.endsWith (.ok a) = false →
      Move r s { s with queue := rest, tally := s.tally.add a, sink := (r.sink a s.sink).2,
                        manager := .receiving }
  | drain : s.manager = .receiving → s.queue = [] → (∀ w ∈ s.workers, w.isGone = true) →
      Move r s { s with manager := .leaving }
  | stop : s.manager = .leaving → Move r s { s with manager := .stopped }
  | close : s.manager = .stopped → Move r s { s with manager := .joining, queue := [] }
  | join : s.manager = .joining → (∀ w ∈ s.workers, w.isGone = true) →
      Move r s { s with manager := .returned }
  | work {n w v sent} : s.workers[n]? = some w →
      w.Move r.feed s.manager (s.queue.length < capacity) v sent →
      Move r s { s with workers := s.workers.set n v, queue := s.queue ++ sent }

theorem move_of_receive {r : Rules ι τ ε} {s : State ι τ ε} {item : Item}
    {rest : List Item} (hm : s.manager = .receiving) (hq : s.queue = item :: rest) :
    Move r s (s.receive r item rest) := by
  unfold State.receive
  split
  · exact .fail hm hq
  · rename_i a
    split
    · rename_i cause sink hs
      have h1 : (r.sink a s.sink).1 = .error cause := by rw [hs]
      have h2 : (r.sink a s.sink).2 = sink := by rw [hs]
      rw [← h2]
      exact .refuse hm hq h1
    · rename_i sink hs
      have h1 : (r.sink a s.sink).1 = .ok () := by rw [hs]
      have h2 : (r.sink a s.sink).2 = sink := by rw [hs]
      rw [← h2]
      split
      · rename_i he
        exact .finish hm hq h1 he
      · rename_i he
        exact .accept hm hq h1 (by simpa using he)

theorem move_of_step {r : Rules ι τ ε} {s t : State ι τ ε} (h : Step r s t) : Move r s t := by
  obtain ⟨actor, h⟩ := h
  cases actor with
  | manager =>
    simp only [State.step, State.stepManager] at h
    split at h
    · rename_i n hm
      split at h
      · rename_i w hw hlaunch
        cases h
        exact .launch hm hw hlaunch
      · rename_i w cause hw hdenied
        cases h
        exact .abandon hm (List.getElem?_eq_some_iff.1 hw).1 hdenied
      · rename_i hw
        cases h
        exact .listen hm hw
    · rename_i hm
      split at h
      · rename_i item rest hq
        cases h
        exact move_of_receive hm hq
      · rename_i hq
        split at h
        · rename_i hg
          cases h
          exact .drain hm hq (by simpa using hg)
        · cases h
    · rename_i hm
      cases h
      exact .stop hm
    · rename_i hm
      cases h
      exact .close hm
    · rename_i hm
      split at h
      · rename_i hg
        cases h
        exact .join hm (by simpa using hg)
      · cases h
    · cases h
  | worker n =>
    simp only [State.step, State.stepWorker] at h
    split at h
    · cases h
    · rename_i w hw
      obtain ⟨⟨v, sent⟩, hv, rfl⟩ := Option.map_eq_some_iff.1 h
      exact .work hw (Worker.step_iff_move.1 hv)

theorem step_of_move {r : Rules ι τ ε} {s t : State ι τ ε} (h : Move r s t) : Step r s t := by
  cases h with
  | launch hm hw hlaunch =>
    exact ⟨.manager, by simp [State.step, State.stepManager, hm, hw, hlaunch]⟩
  | abandon hm hlt hdenied =>
    exact ⟨.manager, by simp [State.step, State.stepManager, hm, hlt, hdenied]⟩
  | listen hm hw => exact ⟨.manager, by simp [State.step, State.stepManager, hm, hw]⟩
  | fail hm hq => exact ⟨.manager, by simp [State.step, State.stepManager, State.receive, hm, hq]⟩
  | @refuse a rest cause hm hq hs =>
    have hpair : r.sink a s.sink = (.error cause, (r.sink a s.sink).2) := Prod.ext hs rfl
    refine ⟨.manager, ?_⟩
    simp only [State.step, State.stepManager, State.receive, hm, hq]
    rw [hpair]
  | @finish a rest hm hq hs he =>
    have hpair : r.sink a s.sink = (.ok (), (r.sink a s.sink).2) := Prod.ext hs rfl
    refine ⟨.manager, ?_⟩
    simp only [State.step, State.stepManager, State.receive, hm, hq]
    rw [hpair]
    simp only [he, if_true]
  | @accept a rest hm hq hs he =>
    have hpair : r.sink a s.sink = (.ok (), (r.sink a s.sink).2) := Prod.ext hs rfl
    refine ⟨.manager, ?_⟩
    simp only [State.step, State.stepManager, State.receive, hm, hq]
    rw [hpair]
    simp only [he, Bool.false_eq_true, if_false]
  | drain hm hq hg =>
    have hall : s.workers.all Worker.isGone = true := by simpa using hg
    exact ⟨.manager, by simp [State.step, State.stepManager, hm, hq, hall]⟩
  | stop hm => exact ⟨.manager, by simp [State.step, State.stepManager, hm]⟩
  | close hm => exact ⟨.manager, by simp [State.step, State.stepManager, hm]⟩
  | join hm hg =>
    have hall : s.workers.all Worker.isGone = true := by simpa using hg
    exact ⟨.manager, by simp [State.step, State.stepManager, hm, hall]⟩
  | @work n w v sent hw hmove =>
    refine ⟨.worker n, ?_⟩
    simp only [State.step, State.stepWorker, hw, Worker.step_iff_move.2 hmove, Option.map_some]

end Pool

end ProofOfWork
