import ProofOfWork.Proofs.Report.Lines
import ProofOfWork.Proofs.Text.Utf8

/-!
Reports whose writer runs out of room. What is written ends at the byte where the room does, and
from the answers one can tell the whole lines from the others.
-/
namespace ProofOfWork

namespace Writer

/-- As long as there is room the writer takes some bytes, though not always all it has room for;
then it rejects what it is given, by an error or by taking nothing. -/
structure Bounded (w : Writer ω) (contents : ω → Bytes) (room : ω → Nat) : Prop where
  exists_write : ∀ b rest s, 0 < room s → ∃ n, n ≤ rest.length ∧ n < room s ∧
    (w.write (b :: rest) s).1 = .ok (n + 1) ∧
    contents (w.write (b :: rest) s).2 = contents s ++ b :: rest.take n ∧
    room (w.write (b :: rest) s).2 = room s - (n + 1)
  write_full : ∀ b rest s, room s = 0 →
    (∀ n, (w.write (b :: rest) s).1 ≠ .ok (n + 1)) ∧
    contents (w.write (b :: rest) s).2 = contents s ∧ room (w.write (b :: rest) s).2 = 0

theorem limited_bounded (full : Option String) :
    (limited full).Bounded (·.accepted.bytes) Limited.room where
  exists_write b rest out hroom := by
    have hnonzero : out.room ≠ 0 := Nat.ne_of_gt hroom
    obtain ⟨room, hsucc⟩ := Nat.exists_eq_succ_of_ne_zero hnonzero
    refine ⟨min room rest.length, Nat.min_le_right _ _, by omega, ?_, ?_, ?_⟩
    · simp [limited, hsucc]
    · simp [limited, hsucc, List.take_eq_take_iff]
    · simp [limited, hsucc]
  write_full b rest out hroom := by
    cases full with
    | none => simp [limited, hroom]
    | some cause => simp [limited, hroom]

/-- The pieces one after another, up to the first that fails. -/
def writePieces (w : Writer ω) : List Bytes → ω → Except String Unit × ω
  | [], s => (.ok (), s)
  | piece :: later, s =>
    match w.writeAll piece s with
    | (.error cause, s) => (.error cause, s)
    | (.ok (), s) => w.writePieces later s

theorem writePieces_singleton (w : Writer ω) (bs : Bytes) (s : ω) :
    w.writePieces [bs] s = w.writeAll bs s := by
  rw [writePieces]
  rcases w.writeAll bs s with ⟨cause | ⟨⟩, t⟩ <;> rfl

variable {contents : ω → Bytes} {room : ω → Nat}

/-- What there was room for has been added, up to the later state. -/
structure Keeps (contents : ω → Bytes) (room : ω → Nat) (s : ω) (bs : Bytes) (later : ω) :
    Prop where
  contents_eq : contents later = contents s ++ bs.take (room s)
  room_eq : room later = room s - bs.length

theorem Keeps.nil (s : ω) : Keeps contents room s [] s where
  contents_eq := by rw [List.take_nil, List.append_nil]
  room_eq := rfl

theorem Keeps.append {s t u : ω} {bs cs : Bytes} (h : Keeps contents room s bs t)
    (hlater : Keeps contents room t cs u) : Keeps contents room s (bs ++ cs) u where
  contents_eq := by
    rw [hlater.contents_eq, h.contents_eq, h.room_eq, List.take_append, List.append_assoc]
  room_eq := by rw [hlater.room_eq, h.room_eq, List.length_append, Nat.sub_sub]

/-- Nothing is added once the room is used up. -/
theorem Keeps.append_of_full {s t : ω} {bs : Bytes} (h : Keeps contents room s bs t)
    (hfull : room s ≤ bs.length) (cs : Bytes) : Keeps contents room s (bs ++ cs) t where
  contents_eq := by rw [h.contents_eq, List.take_append_of_le_length hfull]
  room_eq := by rw [h.room_eq, List.length_append]; omega

/-- The bytes are written as far as there is room, and the answer is whether it was enough. -/
structure Takes (contents : ω → Bytes) (room : ω → Nat) (s : ω) (bs : Bytes)
    (done : Except ε Unit × ω) : Prop extends Keeps contents room s bs done.2 where
  ok_iff : done.1 = .ok () ↔ bs.length ≤ room s

theorem Takes.append {s : ω} {bs cs : Bytes} {first : Except ε Unit × ω}
    {second : Except ε' Unit × ω} (h : Takes contents room s bs first) (hok : first.1 = .ok ())
    (hlater : Takes contents room first.2 cs second) : Takes contents room s (bs ++ cs) second where
  toKeeps := h.toKeeps.append hlater.toKeeps
  ok_iff := by
    have hfits := h.ok_iff.1 hok
    rw [hlater.ok_iff, h.room_eq, List.length_append]
    omega

/-- Where the first bytes are too many, so are all. -/
theorem Takes.append_error {s t : ω} {bs : Bytes} {cause : ε}
    (h : Takes contents room s bs (.error cause, t)) (cs : Bytes) :
    Takes contents room s (bs ++ cs) ((.error cause, t) : Except ε Unit × ω) where
  toKeeps := by
    have hshort : ¬ bs.length ≤ room s := by
      rw [← h.ok_iff]
      simp
    exact h.toKeeps.append_of_full (by omega) cs
  ok_iff := by
    have hshort := h.ok_iff
    simp only [reduceCtorEq, false_iff, List.length_append] at hshort ⊢
    omega

theorem Takes.mapError {s : ω} {bs : Bytes} {done : Except ε Unit × ω}
    (h : Takes contents room s bs done) (f : ε → ε') :
    Takes contents room s bs (done.1.mapError f, done.2) where
  toKeeps := h.toKeeps
  ok_iff := by
    rw [← h.ok_iff]
    rcases done with ⟨cause | ⟨⟩, t⟩
    · constructor
      all_goals
        intro hok
        cases hok
    · exact ⟨fun _ => rfl, fun _ => rfl⟩

namespace Bounded

variable {w : Writer ω}

theorem takes_write (h : w.Bounded contents room) {b : UInt8} {rest : Bytes} {s t : ω} {n : Nat}
    (hwrite : w.write (b :: rest) s = (.ok (n + 1), t)) :
    Takes contents room s (b :: rest.take n) ((.ok (), t) : Except ε Unit × ω) := by
  have hroom : 0 < room s := by
    rcases Nat.eq_zero_or_pos (room s) with hnone | hsome
    · have hrejected := (h.write_full b rest s hnone).1 n
      rw [hwrite] at hrejected
      exact absurd rfl hrejected
    · exact hsome
  obtain ⟨m, hlength, hm, hok, hcontents, hlater⟩ := h.exists_write b rest s hroom
  rw [hwrite] at hok hcontents hlater
  obtain rfl : n = m := by simpa using hok
  have hfits : (b :: rest.take n).length = n + 1 := by
    rw [List.length_cons, List.length_take, Nat.min_eq_left hlength]
  have htake : (b :: rest.take n).take (room s) = b :: rest.take n :=
    List.take_of_length_le (by omega)
  exact {
    contents_eq := by rw [hcontents, htake]
    room_eq := by rw [hlater, hfits]
    ok_iff := by simp only [hfits, true_iff]; omega }

theorem takes_rejected (h : w.Bounded contents room) {b : UInt8} {rest : Bytes} {s t : ω}
    {answer : Except String Nat} (hwrite : w.write (b :: rest) s = (answer, t))
    (hrejected : ∀ n, answer ≠ .ok (n + 1)) (cause : ε) :
    Takes contents room s (b :: rest) ((.error cause, t) : Except ε Unit × ω) := by
  have hroom : room s = 0 := by
    rcases Nat.eq_zero_or_pos (room s) with hnone | hsome
    · exact hnone
    · obtain ⟨n, -, -, hok, -⟩ := h.exists_write b rest s hsome
      rw [hwrite] at hok
      exact absurd hok (hrejected n)
  obtain ⟨-, hcontents, hlater⟩ := h.write_full b rest s hroom
  rw [hwrite] at hcontents hlater
  exact {
    contents_eq := by rw [hcontents, hroom, List.take_zero, List.append_nil]
    room_eq := by rw [hlater, hroom, Nat.zero_sub]
    ok_iff := by simp [hroom] }

theorem takes_writeAll (h : w.Bounded contents room) (bs : Bytes) (s : ω) :
    Takes contents room s bs (w.writeAll bs s) := by
  fun_induction writeAll w bs s with
  | case1 s => exact { toKeeps := .nil s, ok_iff := by simp }
  | case2 b rest s cause t hwrite => exact h.takes_rejected hwrite (by simp) cause
  | case3 b rest s t hwrite => exact h.takes_rejected hwrite (by simp) _
  | case4 b rest s n t hwrite ih =>
    have hfirst : Takes contents room s (b :: rest.take n) ((.ok (), t) : Except String Unit × ω) :=
      h.takes_write hwrite
    have hall := hfirst.append rfl ih
    rwa [List.cons_append, List.take_append_drop] at hall

/-- It does not matter how the bytes are cut into pieces. -/
theorem takes_writePieces (h : w.Bounded contents room) (pieces : List Bytes) (s : ω) :
    Takes contents room s pieces.flatten (w.writePieces pieces s) := by
  induction pieces generalizing s with
  | nil => exact { toKeeps := .nil s, ok_iff := by simp [writePieces] }
  | cons piece later ih =>
    have hpiece := h.takes_writeAll piece s
    rw [writePieces, List.flatten_cons]
    rcases hwrite : w.writeAll piece s with ⟨cause | ⟨⟩, t⟩
    · rw [hwrite] at hpiece
      exact hpiece.append_error later.flatten
    · rw [hwrite] at hpiece
      exact hpiece.append rfl (ih t)

end Bounded

end Writer

namespace Report

/-- What a never-failing writer is given. -/
def output (r : Report) (attempts : List Attempt) : Bytes :=
  (Sink.after (r.write .memory) attempts .empty).bytes

theorem output_eq (r : Report) (attempts : List Attempt) :
    r.output attempts = attempts.flatMap fun a => r.recordBytes a ++ newline :=
  (r.write_after Writer.memory_reliable attempts .empty).2

theorem output_concat (r : Report) (attempts : List Attempt) (a : Attempt) :
    r.output (attempts ++ [a]) = r.output attempts ++ (r.recordBytes a ++ newline) := by
  simp [output_eq]

theorem output_length_mono (r : Report) {seen attempts : List Attempt} (h : seen <+: attempts) :
    (r.output seen).length ≤ (r.output attempts).length := by
  obtain ⟨later, rfl⟩ := h
  rw [output_eq, output_eq, List.flatMap_append, List.length_append]
  exact Nat.le_add_right _ _

theorem recordBytes_length_pos (r : Report) (a : Attempt) : 0 < (r.recordBytes a).length := by
  have hsome : ∃ c, c ∈ (r.record a).toList := by
    cases hformat : r.format with
    | text => exact ⟨' ', by simp [record, hformat]⟩
    | json => exact ⟨'\x7b', by simp [record, hformat]⟩
  obtain ⟨c, hc⟩ := hsome
  obtain ⟨b, hb⟩ := Text.exists_mem_utf8EncodeChar c
  exact List.length_pos_of_mem (List.mem_flatMap.2 ⟨c, hc, hb⟩)

/-- The part of a line that is written as one. In JSON its newline comes apart. -/
def body (r : Report) (a : Attempt) : Bytes :=
  match r.format with
  | .text => r.recordBytes a ++ newline
  | .json => r.recordBytes a

/-- A way to write this part piece by piece. -/
structure Cut (r : Report) where
  pieces : Attempt → List Bytes
  flatten_pieces : ∀ a, (pieces a).flatten = r.body a

namespace Cut

variable {r : Report}

/-- Writes the line of an attempt, its pieces one after another. -/
def write (cut : r.Cut) (w : Writer ω) : Sink ω Error := fun a s =>
  match r.format with
  | .text =>
    let (written, s) := w.writePieces (cut.pieces a) s
    (written.mapError .io, s)
  | .json =>
    match w.writePieces (cut.pieces a) s with
    | (.error cause, s) => (.error (.json cause), s)
    | (.ok (), s) =>
      let (written, s) := w.writeAll newline s
      (written.mapError .io, s)

/-- There is a single piece. -/
def whole (r : Report) : r.Cut where
  pieces a := [r.body a]
  flatten_pieces a := by simp

theorem write_whole (r : Report) (w : Writer ω) : (whole r).write w = r.write w := by
  funext a s
  cases hformat : r.format with
  | text => simp only [write, Report.write, hformat, whole, body, Writer.writePieces_singleton]
  | json =>
    rcases hwrite : w.writeAll (r.recordBytes a) s with ⟨cause | ⟨⟩, t⟩
    all_goals
      simp only [write, Report.write, hformat, whole, body, Writer.writePieces_singleton, hwrite]

variable {w : Writer ω} {contents : ω → Bytes} {room : ω → Nat}

theorem takes_write (hw : w.Bounded contents room) (cut : r.Cut) (a : Attempt) (s : ω) :
    Writer.Takes contents room s (r.recordBytes a ++ newline) (cut.write w a s) := by
  have hbody := hw.takes_writePieces (cut.pieces a) s
  rw [cut.flatten_pieces, body] at hbody
  cases hformat : r.format with
  | text =>
    simp only [hformat] at hbody
    simp only [write, hformat]
    exact hbody.mapError Error.io
  | json =>
    simp only [hformat] at hbody
    simp only [write, hformat]
    rcases hwrite : w.writePieces (cut.pieces a) s with ⟨cause | ⟨⟩, t⟩
    · rw [hwrite] at hbody
      exact (hbody.mapError Error.json).append_error newline
    · rw [hwrite] at hbody
      exact hbody.append rfl ((hw.takes_writeAll newline t).mapError Error.io)

theorem keeps_after (hw : w.Bounded contents room) (cut : r.Cut) (attempts : List Attempt) (s : ω) :
    Writer.Keeps contents room s (r.output attempts) (Sink.after (cut.write w) attempts s) := by
  rw [output_eq]
  induction attempts generalizing s with
  | nil => exact .nil s
  | cons a attempts ih => exact (cut.takes_write hw a s).toKeeps.append (ih (cut.write w a s).2)

/-- A line is answered with success if there is room up to its end. -/
theorem answer_ok_iff (hw : w.Bounded contents room) (cut : r.Cut) {attempts : List Attempt}
    {k : Nat} (hk : k < attempts.length) (s : ω) :
    (Sink.answers (cut.write w) attempts s)[k]? = some (.ok ()) ↔
      (r.output (attempts.take (k + 1))).length ≤ room s := by
  have hsome : attempts[k]? = some attempts[k] := List.getElem?_eq_getElem hk
  have hpos : 0 < (r.recordBytes attempts[k] ++ newline).length := by
    rw [List.length_append]
    exact Nat.add_pos_left (r.recordBytes_length_pos _) _
  have hlength : (r.output (attempts.take (k + 1))).length =
      (r.output (attempts.take k)).length + (r.recordBytes attempts[k] ++ newline).length := by
    rw [List.take_add_one, hsome, Option.toList_some, output_concat, List.length_append]
  rw [Sink.getElem?_answers _ hsome s, Option.some_inj, (cut.takes_write hw _ _).ok_iff,
    (cut.keeps_after hw _ s).room_eq, hlength]
  omega

/-- No line is written after one that was not. -/
theorem answer_ok_of_le (hw : w.Bounded contents room) (cut : r.Cut) {attempts : List Attempt}
    {j k : Nat} (hjk : j ≤ k) {s : ω}
    (h : (Sink.answers (cut.write w) attempts s)[k]? = some (.ok ())) :
    (Sink.answers (cut.write w) attempts s)[j]? = some (.ok ()) := by
  have hk : k < attempts.length := by
    rw [← Sink.length_answers (cut.write w) attempts s]
    exact (List.getElem?_eq_some_iff.1 h).1
  have hfits := (cut.answer_ok_iff hw hk s).1 h
  have hle : (r.output (attempts.take (j + 1))).length ≤ (r.output (attempts.take (k + 1))).length :=
    r.output_length_mono (List.take_prefix_take_left (by omega))
  exact (cut.answer_ok_iff hw (by omega) s).2 (by omega)

theorem error_text (hformat : r.format = .text) (cut : r.Cut) {a : Attempt} {s : ω} {e : Error}
    (h : (cut.write w a s).1 = .error e) : ∃ cause, e = .io cause := by
  simp only [write, hformat] at h
  rcases hwrite : w.writePieces (cut.pieces a) s with ⟨cause | ⟨⟩, t⟩
  · rw [hwrite] at h
    exact ⟨cause, (Except.error.inj h).symm⟩
  · rw [hwrite] at h
    cases h

/-- Either the object was not written, or its newline was not. -/
theorem error_json (hw : w.Bounded contents room) (hformat : r.format = .json) (cut : r.Cut)
    {a : Attempt} {s : ω} {e : Error} (h : (cut.write w a s).1 = .error e) :
    ((∃ cause, e = .json cause) ∧ room s < (r.recordBytes a).length) ∨
    (∃ cause, e = .io cause) ∧ (r.recordBytes a).length ≤ room s := by
  have hbody := (hw.takes_writePieces (cut.pieces a) s).ok_iff
  simp only [cut.flatten_pieces, body, hformat] at hbody
  simp only [write, hformat] at h
  rcases hwrite : w.writePieces (cut.pieces a) s with ⟨cause | ⟨⟩, t⟩
  · rw [hwrite] at h hbody
    refine .inl ⟨⟨cause, (Except.error.inj h).symm⟩, ?_⟩
    simpa using hbody
  · rw [hwrite] at h hbody
    refine .inr ⟨?_, hbody.1 rfl⟩
    rcases hnewline : (w.writeAll newline t).1 with cause | ⟨⟩
    · simp only [hnewline] at h
      exact ⟨cause, (Except.error.inj h).symm⟩
    · simp only [hnewline] at h
      cases h

/-- The object ends so many bytes into the output. -/
theorem error_json_after (hw : w.Bounded contents room) (hformat : r.format = .json) (cut : r.Cut)
    (seen : List Attempt) {a : Attempt} {s : ω} {e : Error}
    (h : (cut.write w a (Sink.after (cut.write w) seen s)).1 = .error e) :
    ((∃ cause, e = .json cause) ∧ room s < (r.output seen).length + (r.recordBytes a).length) ∨
    (∃ cause, e = .io cause) ∧ (r.output seen).length + (r.recordBytes a).length ≤ room s := by
  have hpos := r.recordBytes_length_pos a
  have hroom := (cut.keeps_after hw seen s).room_eq
  rcases cut.error_json hw hformat h with ⟨hjson, hshort⟩ | ⟨hio, hfits⟩
  · exact .inl ⟨hjson, by omega⟩
  · exact .inr ⟨hio, by omega⟩

end Cut

variable {w : Writer ω} {contents : ω → Bytes} {room : ω → Nat}

/-- A report is cut at the byte where its writer runs out of room, however its lines are cut into
pieces. A line is answered with success if it is whole, so all later ones fail after the first.
In text each failure is one of output. In JSON it is such if the object is whole, which can be at
the first failure only, and one of the object otherwise. Outputs that are interrupted and ask to be
tried again are none of these writers. -/
theorem full_writer_truncates (hw : w.Bounded contents room) (r : Report) {sink : Sink ω Error}
    (hsink : sink = r.write w ∨ ∃ cut : r.Cut, sink = cut.write w) (attempts : List Attempt)
    (s : ω) :
    contents (sink.after attempts s) = contents s ++ (r.output attempts).take (room s) ∧
    ∀ k a, attempts[k]? = some a → ∃ answer, (sink.answers attempts s)[k]? = some answer ∧
      (answer = .ok () ↔ (r.output (attempts.take (k + 1))).length ≤ room s) ∧
      ∀ e, answer = .error e →
        (∀ j later, k ≤ j → (sink.answers attempts s)[j]? = some later → later ≠ .ok ()) ∧
        (r.format = .text → ∃ cause, e = .io cause) ∧
        (r.format = .json →
          let objectEnd := (r.output (attempts.take k)).length + (r.recordBytes a).length
          ((∃ cause, e = .io cause) ↔ objectEnd ≤ room s) ∧
          ((∃ cause, e = .json cause) ↔ room s < objectEnd) ∧
          (objectEnd ≤ room s → ∀ j < k, (sink.answers attempts s)[j]? = some (.ok ()))) := by
  obtain ⟨cut, rfl⟩ : ∃ cut : r.Cut, sink = cut.write w := by
    rcases hsink with rfl | hcut
    · exact ⟨.whole r, (Cut.write_whole r w).symm⟩
    · exact hcut
  refine ⟨(cut.keeps_after hw attempts s).contents_eq, ?_⟩
  intro k a hk
  have hlt : k < attempts.length := (List.getElem?_eq_some_iff.1 hk).1
  have hanswer := Sink.getElem?_answers (cut.write w) hk s
  have hok := cut.answer_ok_iff hw hlt s
  rw [hanswer, Option.some_inj] at hok
  refine ⟨_, hanswer, hok, fun e he => ⟨?_, fun hformat => cut.error_text hformat he, ?_⟩⟩
  · rintro j later hkj hj rfl
    have hsuccess := cut.answer_ok_of_le hw hkj hj
    rw [hanswer, he] at hsuccess
    cases hsuccess
  · intro hformat objectEnd
    have hearlier : objectEnd ≤ room s →
        ∀ j < k, (Sink.answers (cut.write w) attempts s)[j]? = some (.ok ()) := by
      intro hend j hj
      have hle : (r.output (attempts.take (j + 1))).length ≤ (r.output (attempts.take k)).length :=
        r.output_length_mono (List.take_prefix_take_left (by omega))
      exact (cut.answer_ok_iff hw (by omega) s).2 (by omega)
    rcases cut.error_json_after hw hformat _ he with ⟨⟨cause, rfl⟩, hshort⟩ | ⟨⟨cause, rfl⟩, hfits⟩
    · exact ⟨by simpa using hshort, by simpa using hshort, hearlier⟩
    · exact ⟨by simpa using hfits, by simpa using hfits, hearlier⟩

/-- There is room for two objects, but not for the newline of the second. -/
theorem full_writer_truncates_at_newline :
    let r : Report := ⟨.json, none⟩
    let sink := r.write (.limited none)
    let attempts : List Attempt := [⟨[1], 7, false⟩, ⟨[255], 0, true⟩, ⟨[2], 1, false⟩]
    let s : Writer.Limited := ⟨94, .empty⟩
    (Writer.limited none).Bounded (·.accepted.bytes) (·.room) ∧
    (Sink.after sink attempts s).accepted.bytes = (r.output attempts).take 94 ∧
    (Sink.answers sink attempts s)[0]? = some (.ok ()) ∧
    (∃ cause, (Sink.answers sink attempts s)[1]? = some (.error (.io cause))) ∧
    ∀ later, (Sink.answers sink attempts s)[2]? = some later → later ≠ .ok () := by
  intro r sink attempts s
  have hw := Writer.limited_bounded none
  obtain ⟨hcontents, hlines⟩ := full_writer_truncates hw r (.inl rfl) attempts s
  have hlength : (r.output (attempts.take 1)).length = 48 ∧
      (r.output (attempts.take 2)).length = 95 ∧ (r.recordBytes ⟨[255], 0, true⟩).length = 46 := by
    rw [output_eq, output_eq]
    decide
  obtain ⟨hfirst, hsecond, hobject⟩ := hlength
  obtain ⟨answer₀, hanswer₀, hok₀, -⟩ := hlines 0 _ rfl
  obtain ⟨answer₁, hanswer₁, hok₁, hfailure₁⟩ := hlines 1 _ rfl
  rw [hfirst] at hok₀
  rw [hsecond] at hok₁
  cases answer₁ with
  | ok => exact absurd (hok₁.1 rfl) (by decide)
  | error e =>
    obtain ⟨hlater, -, hjson⟩ := hfailure₁ e rfl
    obtain ⟨⟨-, hio⟩, -, -⟩ := hjson rfl
    rw [hfirst, hobject] at hio
    obtain ⟨cause, rfl⟩ := hio (by decide)
    refine ⟨hw, hcontents, ?_, ⟨cause, hanswer₁⟩, fun later => hlater 2 later (by decide)⟩
    rw [hanswer₀, hok₀.2 (by decide)]

end Report

end ProofOfWork
