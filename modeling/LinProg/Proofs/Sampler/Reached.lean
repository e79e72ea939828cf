import LinProg.Engine.Exact
import LinProg.Proofs.Sampler.OnLine
import LinProg.Proofs.Scalar.Binary
import LinProg.Sampler.Source

namespace LinProg

inductive SamplerCommand (α : Type) where
  | lineIntersection (origin direction : List α)
  | drawDirection
  | walk
  | walkFrom (start : List α) (steps : Nat)
  | sample (n : Nat)
  | setStart (start : List α)
  | linkGroups (groups : List (List Nat))
  | close

variable {α : Type} [Scalar α] {B : Backend α} {G : Type}

def SamplerCommand.call [Root α] (R : Randomness α G) : SamplerCommand α → SamplerCall B G Unit
  | lineIntersection origin direction => do
    let _ ← Sampler.lineIntersection origin direction
    return ()
  | drawDirection => do
    let _ ← Sampler.direction R
    return ()
  | walk => do
    let _ ← Sampler.walk R
    return ()
  | walkFrom start steps => do
    let _ ← Sampler.walkFrom R start steps
    return ()
  | sample n => do
    let _ ← Sampler.sample R n
    return ()
  | setStart start => Sampler.setStart start
  | linkGroups groups => Sampler.linkGroups groups
  | close => Sampler.close

namespace Sampler

/-- The samplers of a polytope, each with the last line that was set. -/
inductive Reached [Root α] (R : Randomness α G) (p : Problem α) :
    Option (Line α) → Sampler B G → Prop
  | new {memory : B.Memory} {generator : G} {start : List α} {config : SamplerConfig}
    {s : Sampler B G} (h : (new B memory generator p start config ()).result = .ok s) :
    Reached R p none s
  | call {line : Option (Line α)} {s : Sampler B G} (h : Reached R p line s)
    (c : SamplerCommand α) :
    Reached R p ((c.call R s).events.foldl noteLine line) (c.call R s).state

variable {p : Problem α} {rows : List (ModelRow α)}

/-- To go as far as one can on a line in a polytope with given rows. -/
def lineModel (p : Problem α) (rows : List (ModelRow α)) (line : Option (Line α)) : Model α where
  direction := .maximise
  objective := List.replicate p.columns 0 ++ [1]
  lower := p.lower ++ [Scalar.negInf]
  upper := p.upper ++ [Scalar.posInf]
  kinds := List.replicate (p.columns + 1) .continuous
  rows := rows ++ lineBlock p.columns line

theorem OnLine.model {line : Option (Line α)} {s : Sampler B G} (h : OnLine p rows line s) :
    s.binding.session.model = lineModel p rows line := by
  rw [h.tied.aligned.model, h.tied.rows, Problem.modelWith_of_frame h.tied.problem.frame]
  rfl

variable [LawfulScalar α]

theorem keeps_command [Root α] (R : Randomness α G) (c : SamplerCommand α) :
    Call.Keeps noteLine (OnLine p rows) (c.call R : SamplerCall B G Unit) := by
  cases c with
  | lineIntersection origin direction =>
    exact Call.keeps_bind (keeps_lineIntersection origin direction) fun _ => Call.keeps_pure ()
  | drawDirection => exact Call.keeps_bind (keeps_direction R) fun _ => Call.keeps_pure ()
  | walk => exact Call.keeps_bind (keeps_walk R) fun _ => Call.keeps_pure ()
  | walkFrom start steps =>
    exact Call.keeps_bind (keeps_walkFrom R start steps) fun _ => Call.keeps_pure ()
  | sample n => exact Call.keeps_bind (keeps_sample R n) fun _ => Call.keeps_pure ()
  | setStart start => exact keeps_setStart start
  | linkGroups groups => exact keeps_linkGroups groups
  | close => exact keeps_close

theorem tied_loaded (memory : B.Memory) (hv : p.validate = .ok ()) (hrows : p.HasRows rows) :
    (Binding.loaded B memory p.extended (rows ++ lineBlock p.columns none)).Tied p rows none where
  aligned :=
    Binding.loaded_aligned memory (Problem.validate_eq_ok.1 hv).1.extended rfl hrows.extended
  problem := .refl _
  shared := by simp [Binding.loaded]
  rows := rfl

theorem new_ok {σ : Type} (memory : B.Memory) (generator : G) {start : List α}
    {config : SamplerConfig} (t : σ) (hm : p.MatrixFits) (hv : p.validate = .ok ())
    (hs : start.length = p.columns) (hc : config.verifyStart = false) :
    ∃ s, (new B memory generator p start config t).result = .ok s := by
  obtain ⟨-, ⟨rows, hrows⟩, -⟩ := Problem.validate_eq_ok.1 hv
  have hbind := Binding.bind_apply memory (Problem.validate_extended hv) rfl hrows.extended t
  let b := Binding.loaded B memory p.extended (rows ++ lineBlock p.columns none)
  have hload : ((Binding.bind B memory p.extended).mapError SamplingError.solver t).result =
      .ok b := by
    rw [Call.mapError, Call.on_apply, id, hbind]
    rfl
  refine ⟨⟨b.rename "sampler", p.columns, p.numRows, start, [], config, generator⟩, ?_⟩
  simp only [new, hv, checkLength, hs, hc, Problem.augmented_eq hm hv, Call.mapError_ok,
    Call.ofExcept_ok, Call.pure_bind, beq_self_eq_true, Call.require_true, Call.ofResult_ok,
    Bool.false_eq_true, if_false, Call.bind_pure_apply, hload]
  rfl

theorem new_onLine {σ : Type} {memory : B.Memory} {generator : G} {start : List α}
    {config : SamplerConfig} {t : σ} {s : Sampler B G} (hm : p.MatrixFits)
    (hv : p.validate = .ok ()) (hrows : p.HasRows rows)
    (h : (new B memory generator p start config t).result = .ok s) : OnLine p rows none s := by
  obtain ⟨_, -, h⟩ := Call.result_bind_eq_ok h
  obtain ⟨_, -, h⟩ := Call.result_bind_eq_ok h
  obtain ⟨memory', -, h⟩ := Call.result_bind_eq_ok h
  obtain ⟨a, ha, h⟩ := Call.result_bind_eq_ok h
  obtain ⟨b, hb, h⟩ := Call.result_bind_eq_ok h
  rw [Problem.augmented_eq hm hv] at ha
  obtain rfl : p.extended = a := Except.ok.inj ha
  obtain ⟨-, -, rows', hrows', rfl⟩ := Binding.bind_eq_ok (Call.result_mapError_eq_ok hb)
  obtain rfl : rows' = rows ++ lineBlock p.columns none := by
    have hm := hrows'.modelRows?
    rw [hrows.extended.modelRows?] at hm
    exact (Option.some.inj hm).symm
  obtain rfl := Except.ok.inj h
  exact {
    tied := (tied_loaded memory' hv hrows).rename "sampler"
    fits := trivial
    dimension := rfl
    baseRows := hrows.numRows }

omit [LawfulScalar α] in
theorem new_eq {σ : Type} {memory : B.Memory} {generator : G} {start : List α}
    {config : SamplerConfig} {t : σ} {s : Sampler B G}
    (h : (new B memory generator p start config t).result = .ok s) :
    ∃ b : Binding B, b.session.closed = false ∧
      s = ⟨b, p.columns, p.numRows, start, [], config, generator⟩ := by
  obtain ⟨_, -, h⟩ := Call.result_bind_eq_ok h
  obtain ⟨_, -, h⟩ := Call.result_bind_eq_ok h
  obtain ⟨_, -, h⟩ := Call.result_bind_eq_ok h
  obtain ⟨_, -, h⟩ := Call.result_bind_eq_ok h
  obtain ⟨b, hb, h⟩ := Call.result_bind_eq_ok h
  obtain ⟨-, -, rows, -, rfl⟩ := Binding.bind_eq_ok (Call.result_mapError_eq_ok hb)
  exact ⟨_, rfl, (Except.ok.inj h).symm⟩

omit [LawfulScalar α] in
theorem start_of_new {σ : Type} {memory : B.Memory} {generator : G} {start : List α}
    {config : SamplerConfig} {t : σ} {s : Sampler B G}
    (h : (new B memory generator p start config t).result = .ok s) : s.start = start := by
  obtain ⟨b, -, rfl⟩ := new_eq h
  rfl

theorem Reached.onLine [Root α] {R : Randomness α G} {line : Option (Line α)} {s : Sampler B G}
    (hm : p.MatrixFits) (hv : p.validate = .ok ()) (hrows : p.HasRows rows)
    (h : Reached R p line s) : OnLine p rows line s := by
  induction h with
  | new h => exact new_onLine hm hv hrows h
  | call h c ih => exact keeps_command R c _ _ ih

theorem Reached.setLine [Root α] {R : Randomness α G} {line : Option (Line α)} {s : Sampler B G}
    (hm : p.MatrixFits) (hv : p.validate = .ok ()) (h : Reached R p line s)
    {origin direction : List α} (ho : origin.length = p.columns)
    (hd : direction.length = p.columns) : Reached R p (some (origin, direction))
      ((SamplerCommand.lineIntersection origin direction).call R s).state := by
  obtain ⟨-, ⟨rows, hrows⟩, -⟩ := Problem.validate_eq_ok.1 hv
  have hcall := h.call (.lineIntersection origin direction)
  rw [SamplerCommand.call, Call.bind_pure_apply,
    noteLine_lineIntersection (h.onLine hm hv hrows), if_pos ⟨ho, hd⟩] at hcall
  rw [SamplerCommand.call, Call.bind_pure_apply]
  exact hcall

/-- A valid polytope has a valid augmented problem, and no call on a sampler of it leaves anything
behind there but the line that was set last. -/
theorem reached_on_last_line [Root α] (R : Randomness α G) (hp : p.Built)
    (hv : p.validate = .ok ()) :
    (∃ a, p.augmented = .ok a ∧ a.validate = .ok ()) ∧
      ∀ (line : Option (Line α)) (s : Sampler B G), Reached R p line s →
        LineFits p.columns line ∧
        s.binding.problem.columns = p.columns + 1 ∧ s.binding.problem.kind = .linear ∧
        (∀ isShared ∈ s.binding.shared, isShared = true) ∧
        s.binding.problem.model? = some s.binding.session.model ∧
        (∃ rows, p.modelRows? = some rows ∧ s.binding.session.model = lineModel p rows line) ∧
        ∀ origin direction, (lineIntersection origin direction s).events.foldl noteLine line =
          if origin.length = p.columns ∧ direction.length = p.columns then some (origin, direction)
          else line := by
  refine ⟨⟨p.extended, Problem.augmented_eq hp.matrixFits hv, Problem.validate_extended hv⟩, ?_⟩
  intro line s hs
  obtain ⟨-, ⟨rows, hrows⟩, -⟩ := Problem.validate_eq_ok.1 hv
  have h := hs.onLine hp.matrixFits hv hrows
  have hkind : s.binding.problem.frame.kind = p.extended.frame.kind := by
    rw [h.tied.problem.frame]
  exact ⟨h.fits, h.tied.columns, hkind, h.tied.shared,
    h.tied.aligned.model?_of_shared h.tied.shared,
    ⟨rows, hrows.modelRows?, h.model⟩, noteLine_lineIntersection h⟩

def freeColumn : Problem Float where
  columns := 1
  kind := .linear
  direction := .maximise
  objective := [0]
  lower := [Scalar.negInf]
  upper := [Scalar.posInf]
  kinds := [.continuous]
  matrix := .zero 0 1
  rhs := []
  senses := []
  ranges := none

def upToOne : Problem Float :=
  ((ProblemChange.rows (.bound 0 .lessEq 1)).call freeColumn).state

theorem upToOne_built : upToOne.Built := by
  have hempty : Problem.empty 0 1 = .ok freeColumn := rfl
  exact .call (.empty hempty) _

theorem upToOne_valid : upToOne.validate = .ok () := by
  obtain ⟨u, hu⟩ := exists_of_isOk (x := upToOne.validate) (by decide +kernel)
  exact hu

theorem upToOne_reached :
    ∃ s : Sampler exactEmbedded Random.Stream, Reached streams upToOne none s := by
  have hm := upToOne_built.matrixFits
  have hlength : ([0] : List Float).length = upToOne.columns := rfl
  obtain ⟨s, hs⟩ := new_ok (B := exactEmbedded) () (Random.Stream.ofSeed 0) () hm upToOne_valid
    hlength (rfl : (SamplerConfig.mk 1 .length none false).verifyStart = false)
  exact ⟨s, .new hs⟩

/-- Two lines were set, and the direction of the second is zero. -/
theorem upToOne_on_last_line :
    upToOne.Built ∧ upToOne.validate = .ok () ∧
      (∃ a, upToOne.augmented = .ok a ∧ a.validate = .ok ()) ∧
      ∃ s : Sampler exactEmbedded Random.Stream, Reached streams upToOne (some ([2], [0])) s ∧
        s.binding.problem.model? = some s.binding.session.model ∧
        ∃ rows, upToOne.modelRows? = some rows ∧
          s.binding.session.model = lineModel upToOne rows (some ([2], [0])) := by
  have hm := upToOne_built.matrixFits
  have hlast := reached_on_last_line (B := exactEmbedded) streams upToOne_built upToOne_valid
  obtain ⟨s, hs⟩ := upToOne_reached
  have hset : ∃ t : Sampler exactEmbedded Random.Stream,
      Reached streams upToOne (some ([0], [1])) t :=
    ⟨_, hs.setLine hm upToOne_valid rfl rfl⟩
  obtain ⟨t, ht⟩ := hset
  have hreset : ∃ t : Sampler exactEmbedded Random.Stream,
      Reached streams upToOne (some ([2], [0])) t :=
    ⟨_, ht.setLine hm upToOne_valid rfl rfl⟩
  obtain ⟨t', ht'⟩ := hreset
  obtain ⟨-, -, -, -, hmodel, hrows, -⟩ := hlast.2 _ t' ht'
  exact ⟨upToOne_built, upToOne_valid, hlast.1, t', ht', hmodel, hrows⟩

end Sampler

end LinProg
