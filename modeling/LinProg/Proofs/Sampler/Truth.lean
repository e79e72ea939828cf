import LinProg.Proofs.Binding.Truth
import LinProg.Proofs.Sampler.InRange

namespace LinProg

variable {α : Type} [Scalar α]

namespace SamplingError

/-- What the error says is so of a problem, as far as it says anything of one. -/
def TrueOf (p : Problem α) : SamplingError α → Prop
  | problem e => e.TrueOf p
  | solver e => e.TrueOf p
  | status _ | infeasibleStart => True

def IsTrue (e : SamplingError α) : Prop :=
  ∀ p, e.TrueOf p

end SamplingError

open SamplingError

namespace Sampler

variable {B : Backend α} {G σ : Type} {p : Problem α} {rows : List (ModelRow α)}
  {line : Option (Line α)} {s : Sampler B G}

theorem honest_solveLine [Numeral α] (hB : B.BuiltIn) (origin direction : List α) (n : Nat) :
    (solveLine origin direction n : SamplerCall B G (List α)).Honest IsTrue := by
  have hsolve : (onBinding Binding.solve : SamplerCall B G (Solution α)).Honest IsTrue :=
    Call.honest_on (Binding.honest_solveMaybeWith hB none) fun _ he => he
  refine Call.honest_bind hsolve fun solution => ?_
  split
  · exact Call.ends_pure trivial
  · exact Call.honest_bind (Call.ends_emit _) fun _ => Call.ends_fail fun _ => trivial

theorem lineIntersection_failure [LawfulScalar α] [Numeral α] (hB : B.BuiltIn)
    (h : OnLine p rows line s) {origin direction : List α} {f : Failure (SamplingError α)}
    (hf : (lineIntersection origin direction s).result = .error f) : f.Satisfies IsTrue := by
  by_cases hl : origin.length = p.columns ∧ direction.length = p.columns
  · obtain ⟨b, -, -, hcall⟩ := lineIntersection_apply h hl.1 hl.2
    rw [hcall] at hf
    exact (honest_solveLine hB origin direction p.columns _ trivial).2.1 f hf
  · obtain ⟨part, found, hne, he⟩ := lineIntersection_refused hl
    rw [he line s h] at hf
    cases hf
    exact fun _ => hne

theorem Usable.error_isTrue [LawfulScalar α] [Numeral α] [Root α] (hB : B.BuiltIn)
    (R : Randomness α G) (h : Usable p rows s) {c : SamplerCommand α} {e : SamplingError α}
    (he : (c.call R s).result = .error (.error e)) : e.IsTrue := by
  have hends : Call.Ends (Usable p rows) (Failure.Satisfies IsTrue) (fun _ => True)
      (c.call R : SamplerCall B G Unit) := by
    refine ends_command (fun e he => he) R (fun t ht origin direction f hf => ?_) c
    obtain ⟨line, hline⟩ := ht.onLine
    exact lineIntersection_failure hB hline hf
  exact (hends s h).2.1 _ he

theorem honest_verifyStart [Numeral α] (hB : B.BuiltIn) (memory : B.Memory) (p : Problem α)
    (start : List α) : (verifyStart B memory p start : Call (Event α) (SamplingError α) σ
      B.Memory).Honest (·.TrueOf p) := by
  refine Call.honest_bind (Call.honest_on (Binding.honest_bind memory p) fun _ he => he)
    fun check => ?_
  have hfeasible : (Call.within check (Binding.isFeasible start) :
      Call (Event α) (SolverError α) σ (Bool × Binding B)).Honest SolverError.IsTrue :=
    (Call.ends_within (Binding.honest_isFeasible hB start)).mono fun _ _ => trivial
  refine Call.honest_bind (Call.honest_on hfeasible fun _ he => he p) fun answer => ?_
  have hclose : (Call.within answer.2 Binding.close :
      Call (Event α) (SolverError α) σ (Unit × Binding B)).Honest SolverError.IsTrue :=
    (Call.ends_within Binding.honest_close).mono fun _ _ => trivial
  refine Call.honest_bind (Call.honest_on hclose fun _ he => he p) fun _ => ?_
  exact Call.honest_bind (Call.ends_require fun _ => trivial) fun _ => Call.ends_pure trivial

theorem new_trueOf [LawfulScalar α] [Numeral α] (hB : B.BuiltIn) {memory : B.Memory}
    {generator : G} {start : List α} {config : SamplerConfig} {t : σ} {e : SamplingError α}
    (hm : p.MatrixFits) (he : (new B memory generator p start config t).result =
      .error (.error e)) : e.TrueOf p := by
  cases hv : p.validate with
  | error e' =>
    simp only [new, hv, Call.mapError_error, Call.ofExcept_error, Call.fail_bind] at he
    cases he
    exact Problem.validate_trueOf hv
  | ok u =>
    have hnew : (new B memory generator p start config : Call (Event α) (SamplingError α) σ
        (Sampler B G)).Honest (·.TrueOf p) := by
      refine Call.honest_bind (Call.ends_ofExcept fun e he => by simp [hv] at he) fun _ => ?_
      refine Call.honest_bind (Call.ends_require fun h => ?_) fun _ => ?_
      · have hne : p.columns ≠ start.length := by simpa using h
        exact hne.symm
      refine Call.honest_bind ?_ fun memory' => ?_
      · split
        · exact honest_verifyStart hB memory p start
        · exact Call.ends_pure trivial
      rw [Problem.augmented_eq hm hv]
      refine Call.ends_bind (P := (· = p.extended)) (Call.ends_pure rfl) fun a ha => ?_
      subst ha
      -- What is wrong with the augmented problem would be told of another problem than `p`, but the
      -- augmented problem of a valid one is valid.
      have hload : (Binding.bind B memory' p.extended : Call (Event α) (SolverError α) σ
          (Binding B)).Honest (·.TrueOf p) := by
        refine Call.honest_of_error fun t e he => ?_
        obtain ⟨-, ⟨rows, hrows⟩, -⟩ := Problem.validate_eq_ok.1 hv
        rw [Binding.bind_apply memory' (Problem.validate_extended hv) rfl hrows.extended t] at he
        cases he
      exact Call.honest_bind (Call.honest_on hload fun _ he => he) fun _ => Call.ends_pure trivial
    exact hnew.error he

/-- Whatever is called, on whatever state and with whatever arguments: the length that an error
finds fault with is wrong, the place is not there, the bounds are those of the column and not in
order. Only the changes of a problem that misreport are an exception, and their errors are never
true. -/
theorem errors_tell_the_truth [LawfulScalar α] [Numeral α] [Root α] (hB : B.BuiltIn)
    (R : Randomness α G) :
    ((∀ (change : MatrixChange α) (m : SparseMatrix α) (e : ProblemError α),
        ((change.call : MatrixCall Empty α Unit) m).result = .error (.error e) → e.IsTrue) ∧
      (∀ (columns : Nat) (rows : List (List α)) (e : ProblemError α),
        SparseMatrix.ofDense columns rows = .error (.error e) → e.IsTrue) ∧
      ∀ (rows columns : Nat) (triples : List (Nat × Nat × α)) (e : ProblemError α),
        SparseMatrix.ofTriples rows columns triples = .error (.error e) → e.IsTrue) ∧
    ((∀ (indices : List Nat) (coeffs : List α) (sense : Sense) (rhs : α) (e : ProblemError α),
        Constraint.ofLists indices coeffs sense rhs = .error e → e.IsTrue) ∧
      ∀ (c : Constraint α) (columns : Nat) (e : ProblemError α),
        c.checkColumns columns = .error e → e.IsTrue) ∧
    ((∀ (rows columns : Nat) (e : ProblemError α), Problem.empty rows columns = .error e →
        e = .empty ∧ columns = 0) ∧
      (∀ (change : ProblemChange α) (p : Problem α) (e : ProblemError α),
        (change.call p).result = .error (.error e) → (e.TrueOf p ↔ ¬ change.Misreports p)) ∧
      (∀ (p : Problem α) (e : ProblemError α), p.validate = .error e → e.TrueOf p) ∧
      ∀ (p : Problem α) (x : List α) (e : ProblemError α),
        p.maxViolation x = .error (.error e) → e.IsTrue) ∧
    ((∀ (memory : B.Memory) (p : Problem α) (e : SolverError α),
        (Binding.bind B memory p ()).result = .error (.error e) → e.TrueOf p) ∧
      ∀ (b : Binding B) (c : Command α) (e : SolverError α), b.Reachable →
        (c.call b).result = .error (.error e) → e.IsTrue) ∧
    (∀ (memory : B.Memory) (generator : G) (p : Problem α) (start : List α)
        (config : SamplerConfig) (e : SamplingError α), p.Built →
        (new B memory generator p start config ()).result = .error (.error e) → e.TrueOf p) ∧
      ∀ (p : Problem α) (line : Option (Line α)) (s : Sampler B G) (c : SamplerCommand α)
        (e : SamplingError α), p.Built → Reached R p line s →
        (c.call R s).result = .error (.error e) → e.IsTrue := by
  refine ⟨⟨?_, ?_, ?_⟩, ⟨?_, ?_⟩, ⟨?_, ?_, ?_, ?_⟩, ⟨?_, ?_⟩, ?_, ?_⟩
  · exact fun change _ _ => (SparseMatrix.honest_change change).error
  · exact fun _ _ _ => SparseMatrix.ofDense_isTrue
  · exact fun _ _ _ _ => SparseMatrix.ofTriples_isTrue
  · exact fun _ _ _ _ _ => Constraint.ofLists_isTrue
  · exact fun _ _ _ => Constraint.checkColumns_isTrue
  · exact fun _ _ _ => Problem.empty_error
  · exact fun _ _ _ => Problem.change_trueOf_iff
  · exact fun _ _ => Problem.validate_trueOf
  · exact fun _ _ _ => Problem.maxViolation_isTrue
  · exact fun _ _ _ => Binding.bind_trueOf
  · exact fun _ _ _ hb => Command.error_isTrue hB hb.aligned
  · exact fun _ _ _ _ _ _ hp => new_trueOf hB hp.matrixFits
  · intro p line s c e hp hs
    obtain ⟨-, ⟨rows, hrows⟩, -⟩ := Problem.validate_eq_ok.1 hs.valid
    exact (hs.usable hp.matrixFits hs.valid hrows).error_isTrue hB R

/-- Bounds in the wrong order, the removal of rows that are not there, and a start that is too
short. -/
theorem upToOne_errors_tell_the_truth :
    exactEmbedded.BuiltIn ∧ upToOne.Built ∧
    (let crossed := ((ProblemChange.bounds 0 1 0).call upToOne).state
      ∃ e, crossed.validate = .error e ∧ e.TrueOf crossed) ∧
    (∃ e, ((ProblemChange.rows (.removeLast 2)).call upToOne).result = .error (.error e) ∧
      e.TrueOf upToOne) ∧
    (∃ b : Binding exactEmbedded, b.Reachable ∧
      ∃ e, ((Command.changeRhs [(7, 1)]).call b).result = .error (.error e) ∧ e.IsTrue) ∧
    ∃ s : Sampler exactEmbedded Random.Stream, Reached streams upToOne none s ∧
      ∃ e, ((SamplerCommand.setStart []).call streams s).result = .error (.error e) ∧
        e.IsTrue := by
  have hbuiltIn : exactEmbedded.BuiltIn := .embedded _
  obtain ⟨-, -, ⟨-, hchange, hvalidate, -⟩, ⟨-, hbinding⟩, -, hsampler⟩ :=
    errors_tell_the_truth hbuiltIn streams
  refine ⟨hbuiltIn, upToOne_built, ?_, ⟨_, rfl, ?_⟩, ?_, ?_⟩
  · intro crossed
    have hbad : crossed.validate.isOk = false := by decide +kernel
    cases hv : crossed.validate with
    | ok u => simp [hv, Except.isOk, Except.toBool] at hbad
    | error e => exact ⟨e, rfl, hvalidate crossed e hv⟩
  · exact (hchange (.rows (.removeLast 2)) upToOne _ rfl).2 id
  · obtain ⟨-, ⟨rows, hrows⟩, -⟩ := Problem.validate_eq_ok.1 upToOne_valid
    have hbind := Binding.bind_apply (B := exactEmbedded) () upToOne_valid rfl hrows ()
    have hb : (Binding.loaded exactEmbedded () upToOne rows).Reachable :=
      .bound (congrArg Reply.result hbind)
    exact ⟨_, hb, _, rfl, hbinding _ (.changeRhs [(7, 1)]) _ hb rfl⟩
  · obtain ⟨s, hs⟩ := upToOne_reached
    have hstart : ((SamplerCommand.setStart []).call streams s).result =
        .error (.error (.problem (.length .startPoint 1 0))) := by
      obtain ⟨-, ⟨rows, hrows⟩, -⟩ := Problem.validate_eq_ok.1 upToOne_valid
      have hd := (hs.onLine upToOne_built.matrixFits upToOne_valid hrows).dimension
      rw [SamplerCommand.call, setStart, Call.state_bind, hd]
      rfl
    exact ⟨s, hs, _, hstart, hsampler upToOne none s (.setStart []) _ upToOne_built hs hstart⟩

/-- One row with one right-hand side and two senses is said to have 1 of something where 1 is
expected, and the first of two rows not to be there because there are no right-hand sides. -/
theorem misreported_lengths :
    (let change : ProblemChange Float := .rows (.dense [[1]] [1] [.lessEq, .lessEq])
      let e : ProblemError Float := .length .rowData 1 1
      (change.call freeColumn).result = .error (.error e) ∧ ¬ e.TrueOf freeColumn) ∧
    ∃ twoRows : Problem Float, Problem.empty 2 1 = .ok twoRows ∧
      let p := ((ProblemChange.rhs []).call twoRows).state
      let e : ProblemError Float := .missingEntry 0 0 2 1
      ((ProblemChange.rows (.rhs 0 1)).call p).result = .error (.error e) ∧ ¬ e.TrueOf p := by
  refine ⟨⟨rfl, fun h => h rfl⟩, _, rfl, rfl, ?_⟩
  rintro (hrow | hcolumn)
  · exact absurd hrow (by decide)
  · exact absurd hcolumn (by decide)

end Sampler

end LinProg
