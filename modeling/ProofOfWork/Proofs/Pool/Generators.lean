import Mathlib.Data.List.Nodup
import ProofOfWork.Proofs.Pool.Call
import ProofOfWork.Proofs.Random.Keys

/-!
The generators that the workers of a pool start with. No two workers of a seeded call start alike,
nor do workers of calls with different seeds.
-/
namespace ProofOfWork.Pool

/-- The generator of a worker that has a search to be launched with. -/
def Worker.generator? : Worker (Search σ) → Option σ
  | .waiting (.ok search) => some search.state
  | _ => none

namespace Call

/-- The generators of the workers before the first move. -/
def generators (c : Call τ ε) : List ChaCha.Generator :=
  c.first.workers.filterMap Worker.generator?

/-- What the generators make their first blocks from. -/
def startingWords (c : Call τ ε) : List ChaCha.Words :=
  c.generators.map ChaCha.Generator.words

variable {c : Call τ ε} {seed : UInt64}

theorem Admitted.generators_eq (h : c.Admitted) :
    c.generators = (List.range c.count).map c.stream := by
  have hworkers : c.first.workers = c.tasks.map fun search => .waiting (.ok search) := by
    rw [h.first_eq, State.initial, List.map_map]
    rfl
  rw [generators, hworkers, List.filterMap_map, tasks, List.filterMap_map]
  exact congrFun List.filterMap_eq_map _

theorem stream_of_seed (hseed : c.workers.seed = some seed) (index : Nat) :
    c.stream index = ChaCha.seeded seed index.toUInt64 := by
  unfold stream streamOf
  rw [hseed]

theorem count_lt (hthreads : c.workers.threads < 2 ^ 64) : c.count < 2 ^ 64 := by
  unfold count workerCount
  omega

theorem Admitted.mem_startingWords (h : c.Admitted) (hseed : c.workers.seed = some seed)
    {words : ChaCha.Words} : words ∈ c.startingWords ↔
      ∃ i < c.count, (ChaCha.seeded seed i.toUInt64).words = words := by
  rw [startingWords, h.generators_eq, List.map_map, List.mem_map]
  simp only [List.mem_range, Function.comp_apply, stream_of_seed hseed]

theorem Admitted.nodup_startingWords (h : c.Admitted) (hseed : c.workers.seed = some seed)
    (hthreads : c.workers.threads < 2 ^ 64) : c.startingWords.Nodup := by
  rw [startingWords, h.generators_eq, List.map_map]
  apply List.Nodup.map_on
  · intro i hi j hj heq
    have hcount := count_lt hthreads
    rw [List.mem_range] at hi hj
    rw [Function.comp_apply, Function.comp_apply, stream_of_seed hseed, stream_of_seed hseed] at heq
    obtain ⟨-, hindex⟩ := ChaCha.words_seeded_inj.1 heq
    have hnat : (UInt64.ofNat i).toNat = (UInt64.ofNat j).toNat := congrArg UInt64.toNat hindex
    rw [UInt64.toNat_ofNat', UInt64.toNat_ofNat'] at hnat
    omega
  · exact List.nodup_range

theorem disjoint_startingWords {d : Call υ δ} {other : UInt64} (hc : c.Admitted) (hd : d.Admitted)
    (hseed : c.workers.seed = some seed) (hother : d.workers.seed = some other)
    (hne : seed ≠ other) : c.startingWords.Disjoint d.startingWords := by
  intro words hwords hwords'
  obtain ⟨i, -, hi⟩ := (hc.mem_startingWords hseed).1 hwords
  obtain ⟨j, -, hj⟩ := (hd.mem_startingWords hother).1 hwords'
  exact hne (ChaCha.words_seeded_inj.1 (hi.trans hj.symm)).1

end Call

/-- Keys, and the words from which a generator makes its first block, tell every seed and every
stream apart. So no two workers of a call with a seed start alike, nor do workers of calls with
different seeds. The first worker starts as the sequential search does. A call that is not admitted
is refused before it has workers. -/
theorem seeded_workers_differ :
    (∀ seed₁ seed₂ stream₁ stream₂ : UInt64,
      (ChaCha.keyOf seed₁ stream₁ = ChaCha.keyOf seed₂ stream₂ ↔
        seed₁ = seed₂ ∧ stream₁ = stream₂) ∧
      ((ChaCha.seeded seed₁ stream₁).words = (ChaCha.seeded seed₂ stream₂).words ↔
        seed₁ = seed₂ ∧ stream₁ = stream₂)) ∧
    ∀ {τ ε : Type} (c : Call τ ε) (seed : UInt64), c.Admitted → c.workers.seed = some seed →
      c.workers.threads < 2 ^ 64 →
      c.generators = (List.range c.count).map (fun i => ChaCha.seeded seed i.toUInt64) ∧
      c.startingWords.Nodup ∧
      (∃ s, Search.start c.puzzle c.plan ChaCha.source (streamOf c.entropy (some seed) 0) = .ok s ∧
        c.generators.head? = some s.state) ∧
      ∀ {υ δ : Type} (d : Call υ δ) (other : UInt64), d.Admitted → d.workers.seed = some other →
        seed ≠ other → c.startingWords.Disjoint d.startingWords := by
  constructor
  · intro seed₁ seed₂ stream₁ stream₂
    exact ⟨ChaCha.keyOf_inj, ChaCha.words_seeded_inj⟩
  · intro τ ε c seed h hseed hthreads
    have hgenerators : c.generators =
        (List.range c.count).map (fun i => ChaCha.seeded seed i.toUInt64) := by
      rw [h.generators_eq]
      exact List.map_congr_left fun i _ => Call.stream_of_seed hseed i
    refine ⟨hgenerators, h.nodup_startingWords hseed hthreads, ?_, ?_⟩
    · have hstart := h.start_eq 0
      unfold Call.stream at hstart
      rw [hseed] at hstart
      refine ⟨c.whole 0, hstart, ?_⟩
      obtain ⟨n, hn⟩ := Nat.exists_eq_succ_of_ne_zero (Nat.ne_of_gt (Call.count_pos (c := c)))
      rw [h.generators_eq, hn, List.range_succ_eq_map]
      rfl
    · intro υ δ d other hd hother hne
      exact Call.disjoint_startingWords h hd hseed hother hne

theorem seeded_workers_differ_neighbouring_seeds :
    let c := Call.easy ⟨5, 8⟩ ⟨3, some 7, .exhaustive, false⟩
    let d := Call.easy ⟨5, 8⟩ ⟨2, some 8, .exhaustive, false⟩
    c.Admitted ∧ d.Admitted ∧ c.workers.threads < 2 ^ 64 ∧ c.generators.length = 3 ∧
      c.startingWords.Nodup ∧ c.startingWords.Disjoint d.startingWords ∧
      ChaCha.keyOf 7 1 ≠ ChaCha.keyOf 8 0 := by
  intro c d
  have hc : c.Admitted := Call.easy_admitted _ (by decide)
  have hd : d.Admitted := Call.easy_admitted _ (by decide)
  obtain ⟨hkeys, hcalls⟩ := seeded_workers_differ
  obtain ⟨hgenerators, hnodup, -, hother⟩ := hcalls c 7 hc rfl (by decide)
  refine ⟨hc, hd, by decide, ?_, hnodup, hother d 8 hd rfl (by decide), ?_⟩
  · rw [hgenerators, List.length_map, List.length_range]
    rfl
  · rw [Ne, (hkeys 7 8 1 0).1]
    decide

end ProofOfWork.Pool
