import ProofOfWork.Search.Basic
import ProofOfWork.Search.Delivery

/-! Sinks that are given several attempts in a row. -/
namespace ProofOfWork

namespace Sink

/-- The answers to attempts that are given in a row. -/
def answers (sink : Sink τ ε) : List Attempt → τ → List (Except ε Unit)
  | [], _ => []
  | a :: later, t => (sink a t).1 :: sink.answers later (sink a t).2

/-- The sink after attempts that are given in a row. -/
def after (sink : Sink τ ε) (seen : List Attempt) (t : τ) : τ :=
  seen.foldl (fun t a => (sink a t).2) t

/-- No attempt is refused. -/
def Accepts (sink : Sink τ ε) (seen : List Attempt) (t : τ) : Prop :=
  ∀ answer ∈ sink.answers seen t, answer = .ok ()

theorem after_concat (sink : Sink τ ε) (seen : List Attempt) (a : Attempt) (t : τ) :
    sink.after (seen ++ [a]) t = (sink a (sink.after seen t)).2 := by
  rw [after, List.foldl_append]
  rfl

theorem answers_append (sink : Sink τ ε) (seen later : List Attempt) (t : τ) :
    sink.answers (seen ++ later) t =
      sink.answers seen t ++ sink.answers later (sink.after seen t) := by
  induction seen generalizing t with
  | nil => rfl
  | cons b seen ih => exact congrArg ((sink b t).1 :: ·) (ih (sink b t).2)

theorem answers_concat (sink : Sink τ ε) (seen : List Attempt) (a : Attempt) (t : τ) :
    sink.answers (seen ++ [a]) t = sink.answers seen t ++ [(sink a (sink.after seen t)).1] :=
  answers_append sink seen [a] t

theorem getElem?_answers (sink : Sink τ ε) {attempts : List Attempt} {k : Nat} {a : Attempt}
    (h : attempts[k]? = some a) (t : τ) :
    (sink.answers attempts t)[k]? = some (sink a (sink.after (attempts.take k) t)).1 := by
  induction attempts generalizing k t with
  | nil => cases h
  | cons b attempts ih =>
    cases k with
    | zero =>
      obtain rfl : b = a := by simpa using h
      rfl
    | succ k =>
      rw [List.getElem?_cons_succ] at h
      exact ih h (sink b t).2

theorem length_answers (sink : Sink τ ε) (attempts : List Attempt) (t : τ) :
    (sink.answers attempts t).length = attempts.length := by
  induction attempts generalizing t with
  | nil => rfl
  | cons a attempts ih => exact congrArg (· + 1) (ih (sink a t).2)

theorem accepts_nil (sink : Sink τ ε) (t : τ) : sink.Accepts [] t := by
  intro answer hanswer
  cases hanswer

theorem accepts_concat {sink : Sink τ ε} {seen : List Attempt} {a : Attempt} {t : τ} :
    sink.Accepts (seen ++ [a]) t ↔
      sink.Accepts seen t ∧ (sink a (sink.after seen t)).1 = .ok () := by
  simp only [Accepts, answers_concat, List.mem_append, List.mem_singleton]
  constructor
  · intro h
    exact ⟨fun answer hanswer => h answer (.inl hanswer), h _ (.inr rfl)⟩
  · rintro ⟨hseen, ha⟩ answer (hanswer | rfl)
    · exact hseen answer hanswer
    · exact ha

theorem accepts_of_forall {sink : Sink τ ε} (h : ∀ a t, (sink a t).1 = .ok ())
    (seen : List Attempt) (t : τ) : sink.Accepts seen t := by
  induction seen generalizing t with
  | nil => exact accepts_nil sink t
  | cons a seen ih =>
    intro answer hanswer
    rcases List.mem_cons.1 hanswer with rfl | hlater
    · exact h a t
    · exact ih _ answer hlater

theorem Accepts.of_append {sink : Sink τ ε} {seen later : List Attempt} {t : τ}
    (h : sink.Accepts (seen ++ later) t) : sink.Accepts seen t := by
  intro answer hanswer
  refine h answer ?_
  rw [answers_append]
  exact List.mem_append_left _ hanswer

theorem Accepts.not_mem_answers {sink : Sink τ ε} {seen : List Attempt} {t : τ}
    (h : sink.Accepts seen t) (cause : ε) : .error cause ∉ sink.answers seen t := by
  intro hcause
  cases h _ hcause

/-- The sink takes all attempts before number `r` and refuses that one, whatever they are. -/
def RefusesAt (sink : Sink τ ε) (r : Nat) (t : τ) : Prop :=
  ∀ seen a, sink.Accepts seen t →
    ((∃ cause, (sink a (sink.after seen t)).1 = .error cause) ↔ seen.length + 1 = r)

/-- A sink that counts its attempts and refuses one of them. -/
def refusing (r : Nat) : Sink Nat Unit := fun _ seen =>
  (if seen + 1 = r then .error () else .ok (), seen + 1)

theorem after_refusing (r : Nat) (seen : List Attempt) (count : Nat) :
    (refusing r).after seen count = count + seen.length := by
  induction seen generalizing count with
  | nil => rfl
  | cons a seen ih =>
    have hrest := ih (count + 1)
    rw [List.length_cons, Nat.add_comm seen.length 1, ← Nat.add_assoc]
    exact hrest

theorem refusing_refusesAt (r : Nat) : (refusing r).RefusesAt r 0 := by
  intro seen a _
  rw [after_refusing, Nat.zero_add, refusing]
  by_cases h : seen.length + 1 = r
  · simp [h]
  · simp [h]

@[simp] theorem noting_apply (sink : Sink τ ε) (a : Attempt) (seen : List Attempt × τ) :
    sink.noting a seen = ((sink a seen.2).1, seen.1 ++ [a], (sink a seen.2).2) := rfl

end Sink

namespace Tally

/-- The totals of some attempts. -/
def of (seen : List Attempt) : Tally where
  attempts := seen.length
  passed := seen.countP (·.passed)

theorem of_concat (seen : List Attempt) (a : Attempt) : of (seen ++ [a]) = (of seen).add a := by
  cases ha : a.passed <;> simp [of, add, ha]

theorem passed_of_eq_zero {seen : List Attempt} (h : ∀ a ∈ seen, a.passed = false) :
    (of seen).passed = 0 := by
  apply List.countP_eq_zero.2
  intro a ha
  rw [h a ha]
  exact Bool.false_ne_true

theorem passed_of_concat_eq_one {seen : List Attempt} {a : Attempt}
    (h : ∀ b ∈ seen, b.passed = false) (ha : a.passed = true) :
    (of (seen ++ [a])).passed = 1 := by
  rw [of_concat, add, if_pos ha, passed_of_eq_zero h]

end Tally

/-- None of the attempts ends a delivery. -/
def Mode.GoesOn (mode : Mode) (seen : List Attempt) : Prop :=
  ∀ a ∈ seen, mode.endsWith (.ok a) = false

namespace Mode

theorem goesOn_concat {mode : Mode} {seen : List Attempt} {a : Attempt} :
    mode.GoesOn (seen ++ [a]) ↔ mode.GoesOn seen ∧ mode.endsWith (.ok a) = false := by
  simp only [GoesOn, List.mem_append, List.mem_singleton]
  constructor
  · intro h
    exact ⟨fun b hb => h b (.inl hb), h a (.inr rfl)⟩
  · rintro ⟨hseen, ha⟩ b (hb | rfl)
    · exact hseen b hb
    · exact ha

theorem goesOn_exhaustive (seen : List Attempt) : exhaustive.GoesOn seen := by
  intro a _
  simp [endsWith]

theorem goesOn_firstPass {seen : List Attempt} :
    firstPass.GoesOn seen ↔ ∀ a ∈ seen, a.passed = false := by
  simp [GoesOn, endsWith]

end Mode

end ProofOfWork
