import LinProg.Proofs.Sampler.Line

/-!
What the calls on a sampler keep. The line is noted from the events of the calls; whatever a call
does after that, its rows are then those in the binding.
-/

namespace LinProg.Sampler

variable {α : Type} [Scalar α] {B : Backend α} {G : Type}

def noteLine (line : Option (Line α)) : Event α → Option (Line α)
  | .lineSet origin direction => some (origin, direction)
  | _ => line

structure OnLine (p : Problem α) (rows : List (ModelRow α)) (line : Option (Line α))
    (s : Sampler B G) : Prop where
  tied : s.binding.Tied p rows line
  fits : LineFits p.columns line
  dimension : s.dimension = p.columns
  baseRows : s.baseRows = rows.length

variable {p : Problem α} {rows : List (ModelRow α)} {line : Option (Line α)}
  {s s' : Sampler B G}

theorem OnLine.of_eq (h : OnLine p rows line s) (hb : s'.binding = s.binding)
    (hd : s'.dimension = s.dimension) (hr : s'.baseRows = s.baseRows) : OnLine p rows line s' where
  tied := hb ▸ h.tied
  fits := h.fits
  dimension := hd.trans h.dimension
  baseRows := hr.trans h.baseRows

theorem OnLine.of_unmoved (h : OnLine p rows line s) {b : Binding B}
    (hb : s.binding.Unmoved b) : OnLine p rows line { s with binding := b } where
  tied := h.tied.of_unmoved hb
  fits := h.fits
  dimension := h.dimension
  baseRows := h.baseRows

omit [Scalar α] in
theorem onBinding_apply {β : Type} {c : BindingCall B β} {x : β} {b : Binding B}
    {es : List (Event α)} (h : c s.binding = ⟨.ok x, b, es⟩) :
    (onBinding c : SamplerCall B G β) s = ⟨.ok x, { s with binding := b }, es⟩ := by
  simp [onBinding, Call.on_apply, h]

theorem keeps_set {f : Sampler B G → Sampler B G} (hb : ∀ s, (f s).binding = s.binding)
    (hd : ∀ s, (f s).dimension = s.dimension) (hr : ∀ s, (f s).baseRows = s.baseRows) :
    Call.Keeps noteLine (OnLine p rows) (Call.modify f : SamplerCall B G Unit) :=
  Call.keeps_modify fun _ s h => h.of_eq (hb s) (hd s) (hr s)

theorem keeps_direction [Root α] (R : Randomness α G) :
    Call.Keeps noteLine (OnLine p rows) (direction R : SamplerCall B G (List α)) := by
  refine Call.keeps_state_bind fun s => ?_
  obtain ⟨d, generator⟩ := nonzeroNormals R s.dimension tries s.generator
  refine Call.keeps_bind (keeps_set (fun _ => rfl) (fun _ => rfl) fun _ => rfl) fun _ => ?_
  exact Call.keeps_ofOption _

theorem keeps_uniform (R : Randomness α G) :
    Call.Keeps noteLine (OnLine p rows) (uniform R : SamplerCall B G α) := by
  refine Call.keeps_state_bind fun s => ?_
  obtain ⟨u, generator⟩ := R.uniform s.generator
  refine Call.keeps_bind (keeps_set (fun _ => rfl) (fun _ => rfl) fun _ => rfl) fun _ => ?_
  exact Call.keeps_pure u

theorem keeps_setStart (start : List α) :
    Call.Keeps noteLine (OnLine p rows) (setStart start : SamplerCall B G Unit) := by
  refine Call.keeps_state_bind fun s => ?_
  refine Call.keeps_bind (Call.keeps_require _ _) fun _ => ?_
  exact keeps_set (fun _ => rfl) (fun _ => rfl) fun _ => rfl

theorem keeps_linkGroups (groups : List (List Nat)) :
    Call.Keeps noteLine (OnLine p rows) (linkGroups groups : SamplerCall B G Unit) := by
  refine Call.keeps_state_bind fun s => ?_
  dsimp only
  split
  · exact Call.keeps_fail _
  · exact keeps_set (fun _ => rfl) (fun _ => rfl) fun _ => rfl

theorem keeps_close : Call.Keeps noteLine (OnLine p rows) (close : SamplerCall B G Unit) := by
  intro line s h
  cases hc : s.binding.session.closed with
  | true =>
    rw [close, onBinding_apply (Binding.close_again hc)]
    exact h.of_eq rfl rfl rfl
  | false =>
    rw [close, onBinding_apply (Binding.close_apply hc)]
    exact ⟨h.tied.withClosed, h.fits, h.dimension, h.baseRows⟩

/-- What is left to do for a line after it was written. -/
def solveLine (origin direction : List α) (n : Nat) : SamplerCall B G (List α) := do
  let solution ← onBinding Binding.solve
  if solution.status = .optimal then return solution.values.take n
  Call.emit (.lineLost origin direction solution.status)
  Call.fail (.status solution.status)

theorem keeps_solveLine {I : Option (Line α) → Sampler B G → Prop}
    (hI : ∀ line s b, s.binding.Unmoved b → I line s → I line { s with binding := b })
    (origin direction : List α) (n : Nat) :
    Call.Keeps noteLine I (solveLine origin direction n) := by
  have hsolve : Call.Keeps noteLine I (onBinding Binding.solve) := by
    refine Call.keeps_on (fun _ => rfl) fun s => ?_
    refine Call.keeps_on (fun _ => rfl) fun b => ?_
    refine Session.keeps_solve (fun _ _ => rfl) (fun _ _ _ => rfl) fun line t t' ht h => ?_
    exact hI line { s with binding := { b with session := t } } _ (.of_session _ ht) h
  refine Call.keeps_bind hsolve fun solution => ?_
  split
  · exact Call.keeps_pure _
  · exact Call.keeps_bind (Call.keeps_emit fun _ => rfl) fun _ => Call.keeps_fail _

theorem lineCoefficients_eq {n base : Nat} {direction : List α} (h : direction.length = n) :
    ((List.range n).map (base + ·)).zipWith (fun row d => (row, n, -d)) direction =
      (direction.zipIdx base).map fun (d, row) => (row, n, -d) := by
  apply List.ext_getElem (by simp [h])
  intro k hk hk'
  simp

omit [Scalar α] in
theorem lineValues_eq {n base : Nat} {origin : List α} (h : origin.length = n) :
    ((List.range n).map (base + ·)).zip origin =
      (origin.zipIdx base).map fun (a, row) => (row, a) := by
  apply List.ext_getElem (by simp [h])
  intro k hk hk'
  simp

theorem lineIntersection_refused {origin direction : List α}
    (hl : ¬ (origin.length = p.columns ∧ direction.length = p.columns)) :
    ∃ part found, found ≠ p.columns ∧
      ∀ (line : Option (Line α)) (s : Sampler B G), OnLine p rows line s →
        lineIntersection origin direction s =
          ⟨.error (.error (.problem (.length part p.columns found))), s, []⟩ := by
  by_cases ho : origin.length = p.columns
  · have hne : direction.length ≠ p.columns := fun hd => hl ⟨ho, hd⟩
    have hd : (p.columns == direction.length) = false := by simpa using hne.symm
    refine ⟨.lineDirection, direction.length, hne, fun line s h => ?_⟩
    simp [lineIntersection, checkLength, h.dimension, ho, hd]
  · have ho' : (p.columns == origin.length) = false := by simpa using fun h => ho h.symm
    refine ⟨.lineOrigin, origin.length, ho, fun line s h => ?_⟩
    simp [lineIntersection, checkLength, h.dimension, ho']

variable [LawfulScalar α]

theorem lineIntersection_apply (h : OnLine p rows line s) {origin direction : List α}
    (ho : origin.length = p.columns) (hd : direction.length = p.columns) :
    ∃ b : Binding B, OnLine p rows (some (origin, direction)) { s with binding := b } ∧
      s.binding.session.SameEngine b.session ∧
      lineIntersection origin direction s =
        let r := solveLine origin direction p.columns { s with binding := b }
        ⟨r.result, r.state, .lineSet origin direction :: r.events⟩ := by
  obtain ⟨b₁, b₂, hterms, hvalues, htied, hengine⟩ := h.tied.write h.fits ho hd
  refine ⟨b₂, ⟨htied, ⟨ho, hd⟩, h.dimension, h.baseRows⟩, hengine, ?_⟩
  have horigin : (s.dimension == origin.length) = true := by simp [h.dimension, ho]
  have hdirection : (s.dimension == direction.length) = true := by simp [h.dimension, hd]
  have hterms' : Binding.changeCoefficients
      (s.lineRows.zipWith (fun row d => (row, s.dimension, -d)) direction) s.binding =
      ⟨.ok (), b₁, []⟩ := by
    rw [Sampler.lineRows, h.dimension, h.baseRows, lineCoefficients_eq hd]
    exact hterms
  have hvalues' : Binding.changeRhs (s.lineRows.zip origin) b₁ = ⟨.ok (), b₂, []⟩ := by
    rw [Sampler.lineRows, h.dimension, h.baseRows, lineValues_eq ho]
    exact hvalues
  have hcoefficients := onBinding_apply hterms'
  have hrhs := onBinding_apply (s := { s with binding := b₁ }) hvalues'
  simp only [lineIntersection, Call.state_bind, checkLength, horigin, hdirection,
    Call.require_true, Call.pure_bind, Call.emit_bind, Call.bind_of_ok hcoefficients,
    Call.bind_of_ok hrhs, List.nil_append, ← h.dimension]
  rfl

theorem keeps_lineIntersection (origin direction : List α) :
    Call.Keeps noteLine (OnLine p rows)
      (lineIntersection origin direction : SamplerCall B G (List α)) := by
  intro line s h
  by_cases hl : origin.length = p.columns ∧ direction.length = p.columns
  · obtain ⟨b, hb, -, hcall⟩ := lineIntersection_apply h hl.1 hl.2
    rw [hcall]
    exact keeps_solveLine (fun _ _ _ hb h => h.of_unmoved hb) origin direction p.columns _ _ hb
  · obtain ⟨_, _, -, he⟩ := lineIntersection_refused hl
    rw [he line s h]
    exact h

theorem noteLine_lineIntersection (h : OnLine p rows line s) (origin direction : List α) :
    (lineIntersection origin direction s).events.foldl noteLine line =
      if origin.length = p.columns ∧ direction.length = p.columns then some (origin, direction)
      else line := by
  split
  · rename_i hl
    obtain ⟨b, -, -, hcall⟩ := lineIntersection_apply h hl.1 hl.2
    have hkeeps : Call.Keeps noteLine
        (fun line (_ : Sampler B G) => line = some (origin, direction))
        (solveLine origin direction p.columns) :=
      keeps_solveLine (fun _ _ _ _ h => h) origin direction p.columns
    rw [hcall]
    exact hkeeps _ _ rfl
  · rename_i hl
    obtain ⟨_, _, -, he⟩ := lineIntersection_refused hl
    rw [he line s h]
    rfl

section Walk

variable [Root α] (R : Randomness α G)

theorem keeps_step (current : List α) :
    Call.Keeps noteLine (OnLine p rows) (step R current : SamplerCall B G (List α)) := by
  refine Call.keeps_bind (keeps_direction R) fun d => ?_
  refine Call.keeps_bind (keeps_lineIntersection current d) fun boundary => ?_
  refine Call.keeps_bind (keeps_uniform R) fun u => ?_
  exact Call.keeps_bind (Call.keeps_emit fun _ => rfl) fun _ => Call.keeps_pure _

theorem keeps_stepsFrom (n : Nat) (current : List α) :
    Call.Keeps noteLine (OnLine p rows) (stepsFrom R n current : SamplerCall B G (List α)) := by
  induction n generalizing current with
  | zero => exact Call.keeps_pure current
  | succ n ih => exact Call.keeps_bind (keeps_step R current) ih

theorem keeps_walkFrom (start : List α) (steps : Nat) :
    Call.Keeps noteLine (OnLine p rows) (walkFrom R start steps : SamplerCall B G (List α)) := by
  refine Call.keeps_state_bind fun s => ?_
  exact Call.keeps_bind (Call.keeps_require _ _) fun _ => keeps_stepsFrom R steps start

theorem keeps_walk : Call.Keeps noteLine (OnLine p rows) (walk R : SamplerCall B G (List α)) :=
  Call.keeps_state_bind fun s => keeps_walkFrom R s.start s.config.steps

theorem keeps_walks (n : Nat) :
    Call.Keeps noteLine (OnLine p rows) (walks R n : SamplerCall B G (List (List α))) := by
  induction n with
  | zero => exact Call.keeps_pure []
  | succ n ih =>
    exact Call.keeps_bind (keeps_walk R) fun point => Call.keeps_bind ih fun _ => Call.keeps_pure _

theorem keeps_sample (n : Nat) :
    Call.Keeps noteLine (OnLine p rows) (sample R n : SamplerCall B G (List (List α))) := by
  refine Call.keeps_bind (keeps_walks R n) fun points => ?_
  refine Call.keeps_state_bind fun s => ?_
  exact Call.keeps_bind (Call.keeps_emit fun _ => rfl) fun _ => Call.keeps_pure points

end Walk

end LinProg.Sampler
