import LinProg.Proofs.Problem.Inside
import LinProg.Proofs.Sampler.Reached
import Mathlib.Data.Rat.Sqrt

/-!
Walks stay inside of the polytope. The model of a line has all the rows and bounds of the polytope,
so the last point on the line is inside of it; a step ends between two points that are inside. This
rests on an engine that is sound and on numbers that do not round.
-/

namespace LinProg

namespace Sampler

section Line

variable {α : Type} [Scalar α] {B : Backend α} {G : Type} {p : Problem α}
  {rows : List (ModelRow α)} {line : Option (Line α)} {s : Sampler B G}

theorem solveLine_of_run {o : Outcome B.Code α} {memory : B.Memory}
    (hopen : s.binding.session.closed = false)
    (hrun : B.run s.binding.session.model s.binding.session.memory = (.ok o, memory))
    (origin direction : List α) (n : Nat) : ∃ b, solveLine origin direction n s =
      let values := o.values.getD (List.replicate s.binding.session.model.numCols Scalar.nan)
      let told := [.ran s.binding.session.model, .finished B.sessionName (B.codeName o.code)]
      if B.classify o.code = .optimal then
        ⟨.ok (values.take n), { s with binding := b }, told⟩
      else
        ⟨.error (.error (.status (B.classify o.code))), { s with binding := b },
          told ++ [.lineLost origin direction (B.classify o.code)]⟩ := by
  let session : Session B := { s.binding.session with memory, last := some o }
  have hsolve := onBinding_apply (c := Binding.solve)
    (Binding.onSession_apply (b := s.binding) (Session.solve_of_run hopen hrun))
  have hstatus : (session.solution o.code).status = B.classify o.code := rfl
  refine ⟨{ s.binding with session }, ?_⟩
  by_cases hopt : B.classify o.code = .optimal
  · rw [if_pos hopt]
    exact Call.bind_eq hsolve (by rw [if_pos (hstatus.trans hopt)]; rfl)
  · rw [if_neg hopt]
    exact Call.bind_eq hsolve (by rw [if_neg (hstatus ▸ hopt)]; rfl)

theorem solveLine_of_error {f : Failure (SolverError α)}
    (h : (Session.solve s.binding.session).result = .error f) (origin direction : List α)
    (n : Nat) : ∃ e b, solveLine origin direction n s =
      ⟨.error e, { s with binding := b }, (Session.solve s.binding.session).events⟩ := by
  refine ⟨(f.map id).map .solver,
    { s.binding with session := (Session.solve s.binding.session).state }, ?_⟩
  rw [solveLine, Call.bind_apply]
  simp [onBinding, Binding.solve, Binding.onSession, Call.on_apply, h]

variable [LawfulScalar α]

theorem lineIntersection_of_run (h : OnLine p rows line s) {origin direction : List α}
    (ho : origin.length = p.columns) (hd : direction.length = p.columns)
    (hopen : s.binding.session.closed = false) {o : Outcome B.Code α} {memory : B.Memory}
    (hrun : B.run (lineModel p rows (some (origin, direction))) s.binding.session.memory =
      (.ok o, memory)) : ∃ b, lineIntersection origin direction s =
      let m := lineModel p rows (some (origin, direction))
      let values := o.values.getD (List.replicate m.numCols Scalar.nan)
      let told := [.lineSet origin direction, .ran m, .finished B.sessionName (B.codeName o.code)]
      if B.classify o.code = .optimal then
        ⟨.ok (values.take p.columns), { s with binding := b }, told⟩
      else
        ⟨.error (.error (.status (B.classify o.code))), { s with binding := b },
          told ++ [.lineLost origin direction (B.classify o.code)]⟩ := by
  obtain ⟨b, hb, hengine, hcall⟩ := lineIntersection_apply h ho hd
  have hmodel : b.session.model = lineModel p rows (some (origin, direction)) := hb.model
  have hopen' : b.session.closed = false := hengine.closed.trans hopen
  have hrun' : B.run b.session.model b.session.memory = (.ok o, memory) := by
    rw [hengine.memory, hmodel, hrun]
  obtain ⟨b', hsolve⟩ := solveLine_of_run (s := { s with binding := b }) hopen' hrun' origin
    direction p.columns
  refine ⟨b', ?_⟩
  rw [hcall, hsolve]
  simp only [hmodel]
  by_cases hopt : B.classify o.code = .optimal
  · simp only [if_pos hopt]
  · simp only [if_neg hopt]
    rfl

theorem lineIntersection_cases (h : OnLine p rows line s) (origin direction : List α) :
    let m := lineModel p rows (some (origin, direction))
    (∃ e b es, lineIntersection origin direction s = ⟨.error e, { s with binding := b }, es⟩ ∧
      ∀ e ∈ es, e = .lineSet origin direction ∨ e = .ran m) ∨
    origin.length = p.columns ∧ direction.length = p.columns ∧
      s.binding.session.closed = false ∧
      ∃ o memory, B.run m s.binding.session.memory = (.ok o, memory) := by
  intro m
  by_cases hl : origin.length = p.columns ∧ direction.length = p.columns
  · obtain ⟨b, hb, hengine, hcall⟩ := lineIntersection_apply h hl.1 hl.2
    have hmodel : b.session.model = m := hb.model
    obtain ⟨o, memory, hopen, hrun⟩ | ⟨f, hf, hevents⟩ := Session.solve_cases b.session
    · rw [hmodel, hengine.memory] at hrun
      exact .inr ⟨hl.1, hl.2, hengine.closed.symm.trans hopen, o, memory, hrun⟩
    · obtain ⟨e, b', hsolve⟩ := solveLine_of_error (s := { s with binding := b }) hf origin
        direction p.columns
      rw [hsolve] at hcall
      rw [hmodel] at hevents
      refine .inl ⟨e, b', _, hcall, ?_⟩
      simpa using fun e he => .inr (hevents e he)
  · obtain ⟨_, _, -, he⟩ := lineIntersection_refused hl
    exact .inl ⟨_, s.binding, [], he line s h, by simp⟩

end Line

section Walk

variable {B : Backend Extended} {G : Type} {p : Problem Extended}
  {rows : List (ModelRow Extended)} {line : Option (Line Extended)} {s : Sampler B G}

theorem contains_of_admits (hp : p.FrameValid) (hm : p.MatrixFits) (hrows : p.HasRows rows)
    {z : List Rat} (hz : (lineModel p rows line).Admits z) : p.Contains (z.take p.columns) where
  length := by
    have hl := hz.length
    simp [lineModel, Model.numCols] at hl
    simp [hl]
  bounds := by
    intro k hk
    have hwithin := hz.columns k (by simp [lineModel, Model.numCols]; omega)
    have hbounds : (lineModel p rows line).columnBounds? k = p.bounds? k := by
      have hl : k < p.lower.length := hp.lower.symm ▸ hk
      have hu : k < p.upper.length := hp.upper.symm ▸ hk
      simp [lineModel, Model.columnBounds?, Problem.bounds?, List.getElem?_append_left, hl, hu,
        Nat.lt_succ_of_lt hk]
    have hvalue : (exactly (z.take p.columns))[k]? = (exactly z)[k]? := by
      simp [exactly, List.getElem?_take_of_lt hk]
    rw [hvalue, ← hbounds]
    exact hwithin
  rows := by
    intro i hi
    rw [hrows.numRows] at hi
    have hr : rows[i]? = some rows[i] := List.getElem?_eq_getElem hi
    obtain ⟨q, interval, hq, hinterval, hcontains⟩ :=
      within_iff.1 (hz.rows rows[i] (List.mem_append_left _ (List.getElem_mem hi)))
    have hterms : p.matrix.row? i = some rows[i].terms := by
      simp [SparseMatrix.row?, ← hrows.terms, hr]
    have hmem : rows[i].terms ∈ p.matrix.rows := List.mem_of_getElem? hterms
    have hweighs : rows[i].terms.Weighs (z.take p.columns) q :=
      SparseRow.Weighs.take hq (hm.rows _ hmem).bound
    have hactivity : p.activity? i (z.take p.columns) = some (.fin q) := by
      simp only [Problem.activity?, hterms, Option.bind_eq_bind, Option.bind_some]
      exact hweighs
    exact within_iff.2 ⟨q, interval, hactivity, (hrows.rowInterval? hr).trans hinterval, hcontains⟩

def Starts (p : Problem Extended) (rows : List (ModelRow Extended)) (S : List Extended → Prop)
    (s : Sampler B G) : Prop :=
  (∃ line, OnLine p rows line s) ∧ S s.start

def visited (es : List (Event Extended)) : List (List Extended) :=
  es.filterMap fun
    | .moved x => some x
    | _ => none

theorem visited_append (es es' : List (Event Extended)) :
    visited (es ++ es') = visited es ++ visited es' :=
  List.filterMap_append

theorem visited_eq_nil {es : List (Event Extended)} (h : ∀ e ∈ es, ∀ x, e ≠ .moved x) :
    visited es = [] := by
  apply List.filterMap_eq_nil_iff.2
  intro e he
  cases e with
  | moved x => exact absurd rfl (h _ he x)
  | _ => rfl

/-- The error with which a walk ends after it lost a line. -/
def lost : Event Extended → Option (SamplingError Extended)
  | .lineLost _ _ status => some (.status status)
  | _ => none

def MovesInside (p : Problem Extended) : Event Extended → Prop
  | .moved x => p.Holds x
  | _ => True

variable {E : Event Extended → Prop} {S : List Extended → Prop}

theorem meets_lineIntersection (hB : B.Sound) (hp : p.FrameValid) (hm : p.MatrixFits)
    (hrows : p.HasRows rows) (hE : ∀ e, (∀ x, e ≠ .moved x) → E e)
    (origin direction : List Extended) : Call.Meets (Starts p rows S) E lost p.Holds
      (lineIntersection origin direction : SamplerCall B G (List Extended)) := by
  rintro s ⟨⟨line, h⟩, hstart⟩
  have hline := keeps_lineIntersection origin direction line s h
  obtain ⟨e, b, es, hcall, hes⟩ | ⟨ho, hd, hopen, o, memory, hrun⟩ :=
    lineIntersection_cases h origin direction
  · rw [hcall] at hline ⊢
    refine ⟨⟨⟨_, hline⟩, hstart⟩, fun e he => ?_, by simp⟩
    obtain rfl | rfl := hes e he <;> simp [hE, lost]
  · obtain ⟨b, hcall⟩ := lineIntersection_of_run h ho hd hopen hrun
    by_cases hopt : B.classify o.code = .optimal
    · simp only [if_pos hopt] at hcall
      rw [hcall] at hline ⊢
      refine ⟨⟨⟨_, hline⟩, hstart⟩, by simp [hE, lost], ?_⟩
      rintro _ ⟨rfl⟩
      obtain ⟨z, hz, hadmits⟩ := hB _ _ _ _ hrun hopt
      refine ⟨z.take p.columns, ?_, contains_of_admits hp hm hrows hadmits⟩
      simp [hz, exactly]
    · simp only [if_neg hopt] at hcall
      rw [hcall] at hline ⊢
      exact ⟨⟨⟨_, hline⟩, hstart⟩, by simp [hE, lost], by simp⟩

variable [Root Extended] {R : Randomness Extended G}

theorem meets_direction : Call.Meets (Starts p rows S) E lost (fun _ => True)
    (direction R : SamplerCall B G (List Extended)) := by
  refine Call.meets_bind (Call.meets_state (Q := fun _ => True) fun _ _ => trivial) fun s _ => ?_
  obtain ⟨d, generator⟩ := nonzeroNormals R s.dimension tries s.generator
  refine Call.meets_bind (Call.meets_modify fun s h => ?_) fun _ _ => Call.meets_ofOption _
  exact ⟨h.1.imp fun line h => h.of_eq rfl rfl rfl, h.2⟩

def UnitDraw (u : Extended) : Prop :=
  ∃ q : Rat, u = .fin q ∧ 0 ≤ q ∧ q < 1

omit [Root Extended] in
theorem meets_uniform (hR : ∀ g, UnitDraw (R.uniform g).1) :
    Call.Meets (Starts p rows S) E lost UnitDraw (uniform R : SamplerCall B G Extended) := by
  refine Call.meets_bind (Call.meets_state (Q := fun _ => True) fun _ _ => trivial) fun s _ => ?_
  refine Call.meets_bind (Call.meets_modify fun s h => ?_) fun _ _ => Call.meets_pure (hR _)
  exact ⟨h.1.imp fun line h => h.of_eq rfl rfl rfl, h.2⟩

section Steps

variable (hB : B.Sound) (hR : ∀ g, UnitDraw (R.uniform g).1) (hp : p.FrameValid)
  (hm : p.MatrixFits) (hrows : p.HasRows rows)

include hB hR hp hm hrows

theorem meets_step {current : List Extended} (hcurrent : p.Holds current) :
    Call.Meets (Starts p rows S) (MovesInside p) lost p.Holds
      (step R current : SamplerCall B G (List Extended)) := by
  have hquiet (e : Event Extended) (he : ∀ x, e ≠ .moved x) : MovesInside p e := by
    cases e with
    | moved x => exact absurd rfl (he x)
    | _ => trivial
  refine Call.meets_bind meets_direction fun d _ => ?_
  refine Call.meets_bind (meets_lineIntersection hB hp hm hrows hquiet current d) ?_
  intro boundary hboundary
  refine Call.meets_bind (meets_uniform hR) fun u hu => ?_
  obtain ⟨u, rfl, hu, hu'⟩ := hu
  have hnext := hcurrent.toward hboundary hu (le_of_lt hu')
  exact Call.meets_bind (Call.meets_emit hnext rfl) fun _ _ => Call.meets_pure hnext

theorem meets_stepsFrom (n : Nat) {current : List Extended} (hcurrent : p.Holds current) :
    Call.Meets (Starts p rows S) (MovesInside p) lost p.Holds
      (stepsFrom R n current : SamplerCall B G (List Extended)) := by
  induction n generalizing current with
  | zero => exact Call.meets_pure hcurrent
  | succ n ih =>
    exact Call.meets_bind (meets_step hB hR hp hm hrows hcurrent) fun next hnext => ih hnext

theorem meets_walkFrom {start : List Extended} (hstart : p.Holds start) (steps : Nat) :
    Call.Meets (Starts p rows S) (MovesInside p) lost p.Holds
      (walkFrom R start steps : SamplerCall B G (List Extended)) := by
  refine Call.meets_bind (Call.meets_state (Q := fun _ => True) fun _ _ => trivial) fun s _ => ?_
  refine Call.meets_bind (Call.meets_require _ _) fun _ _ => ?_
  exact meets_stepsFrom hB hR hp hm hrows steps hstart

theorem meets_walk : Call.Meets (Starts p rows p.Holds) (MovesInside p) lost p.Holds
    (walk R : SamplerCall B G (List Extended)) := by
  refine Call.meets_bind (Call.meets_state fun s h => h.2) fun s hs => ?_
  exact meets_walkFrom hB hR hp hm hrows hs s.config.steps

theorem meets_walks (n : Nat) :
    Call.Meets (Starts p rows p.Holds) (MovesInside p) lost (fun points => ∀ x ∈ points, p.Holds x)
      (walks R n : SamplerCall B G (List (List Extended))) := by
  induction n with
  | zero => exact Call.meets_pure (by simp)
  | succ n ih =>
    refine Call.meets_bind (meets_walk hB hR hp hm hrows) fun point hpoint => ?_
    refine Call.meets_bind ih fun points hpoints => Call.meets_pure ?_
    exact List.forall_mem_cons.2 ⟨hpoint, hpoints⟩

theorem meets_sample (n : Nat) :
    Call.Meets (Starts p rows p.Holds) (MovesInside p) lost (fun points => ∀ x ∈ points, p.Holds x)
      (sample R n : SamplerCall B G (List (List Extended))) := by
  refine Call.meets_bind (meets_walks hB hR hp hm hrows n) fun points hpoints => ?_
  refine Call.meets_bind (Call.meets_state (Q := fun _ => True) fun _ _ => trivial) fun s _ => ?_
  refine Call.meets_bind (Call.meets_emit trivial rfl) fun _ _ => ?_
  exact Call.meets_pure hpoints

theorem visited_step (h : OnLine p rows line s) {current x : List Extended}
    (hx : (step R current s).result = .ok x) : visited (step R current s).events = [x] := by
  obtain ⟨d, hd, hx⟩ := Call.result_bind_eq_ok hx
  obtain ⟨boundary, hboundary, hx⟩ := Call.result_bind_eq_ok hx
  obtain ⟨u, hu, hx⟩ := Call.result_bind_eq_ok hx
  have hs : Starts p rows (fun _ => True) s := ⟨⟨line, h⟩, trivial⟩
  obtain ⟨hs₁, hdirection, -⟩ := meets_direction (E := fun e => ∀ x, e ≠ .moved x) s hs
  obtain ⟨hs₂, hline, -⟩ := meets_lineIntersection (E := fun e => ∀ x, e ≠ .moved x) hB hp hm hrows
    (fun e he => he) current d _ hs₁
  obtain ⟨-, huniform, -⟩ := meets_uniform (E := fun e => ∀ x, e ≠ .moved x) hR _ hs₂
  have hnext : toward u current boundary = x := by simpa using hx
  rw [step, Call.events_bind_of_ok hd, Call.events_bind_of_ok hboundary,
    Call.events_bind_of_ok hu, visited_append, visited_append, visited_append,
    visited_eq_nil fun e he => (hdirection e he).1, visited_eq_nil fun e he => (hline e he).1,
    visited_eq_nil fun e he => (huniform e he).1]
  simp [visited, hnext]

theorem visited_stepsFrom {n : Nat} (h : OnLine p rows line s) {current x : List Extended}
    (hx : (stepsFrom R n current s).result = .ok x) :
    (visited (stepsFrom R n current s).events).length = n ∧
      (current :: visited (stepsFrom R n current s).events).getLast? = some x := by
  induction n generalizing line s current with
  | zero =>
    obtain rfl : current = x := Except.ok.inj hx
    exact ⟨rfl, rfl⟩
  | succ n ih =>
    obtain ⟨next, hnext, hx⟩ := Call.result_bind_eq_ok hx
    have hstep := visited_step hB hR hp hm hrows h hnext
    obtain ⟨hlength, hlast⟩ := ih (keeps_step R current line s h) hx
    rw [stepsFrom, Call.events_bind_of_ok hnext, visited_append, hstep]
    exact ⟨by simp [hlength], hlast⟩

theorem visited_walkFrom (h : OnLine p rows line s) {start x : List Extended} {steps : Nat}
    (hx : (walkFrom R start steps s).result = .ok x) :
    (visited (walkFrom R start steps s).events).length = steps ∧
      (start :: visited (walkFrom R start steps s).events).getLast? = some x := by
  cases hl : s.dimension == start.length with
  | false => simp [walkFrom, checkLength, hl] at hx
  | true =>
    have hcall : walkFrom R start steps s = stepsFrom R steps start s := by
      simp [walkFrom, checkLength, hl]
    rw [hcall] at hx ⊢
    exact visited_stepsFrom hB hR hp hm hrows h hx

end Steps

/-- A call that moves inside of a polytope only, and ends with a line that it lost. -/
structure StaysInside {β : Type} (p : Problem Extended) (Q : β → Prop)
    (r : Reply (Event Extended) (SamplingError Extended) (Sampler B G) β) : Prop where
  visited : ∀ x ∈ visited r.events, p.Holds x
  answer : ∀ b, r.result = .ok b → Q b
  lost : ∀ origin direction status, .lineLost origin direction status ∈ r.events →
    r.result = .error (.error (.status status))

omit [Root Extended] in
theorem staysInside_of_meets {β : Type} {Q : β → Prop} {c : SamplerCall B G β}
    (hc : Call.Meets (Starts p rows S) (MovesInside p) lost Q c) {s : Sampler B G}
    (hs : Starts p rows S s) : StaysInside p Q (c s) := by
  obtain ⟨-, hevents, hanswer⟩ := hc s hs
  refine ⟨fun x hx => ?_, hanswer, fun origin direction status h => (hevents _ h).2 _ rfl⟩
  obtain ⟨e, he, hx⟩ := List.mem_filterMap.1 hx
  cases e <;> simp at hx
  subst hx
  exact (hevents _ he).1

/-- With a sound engine and numbers that do not round, a walk that begins inside of a polytope comes
to points inside of it only, one for each step, and so does one from the start of the sampler. A
line on which the engine does not end as optimal ends the walk with the status for an error. -/
theorem walk_stays_inside (hB : B.Sound) (hR : ∀ g, UnitDraw (R.uniform g).1) (hp : p.Built)
    (hv : p.validate = .ok ()) (hs : Reached R p line s) :
    (∀ start steps, p.Holds start →
      StaysInside p p.Holds (walkFrom R start steps s) ∧
      ∀ x, (walkFrom R start steps s).result = .ok x →
        (visited (walkFrom R start steps s).events).length = steps ∧
          (start :: visited (walkFrom R start steps s).events).getLast? = some x) ∧
    (p.Holds s.start → StaysInside p p.Holds (walk R s) ∧
      ∀ n, StaysInside p (fun points => ∀ x ∈ points, p.Holds x) (sample R n s)) ∧
    ∃ rows, p.modelRows? = some rows ∧
      ∀ origin direction, origin.length = p.columns → direction.length = p.columns →
        s.binding.session.closed = false →
        ∀ o memory, B.run (lineModel p rows (some (origin, direction)))
            s.binding.session.memory = (.ok o, memory) → B.classify o.code ≠ .optimal →
          (lineIntersection origin direction s).result =
              .error (.error (.status (B.classify o.code))) ∧
            .lineLost origin direction (B.classify o.code) ∈
              (lineIntersection origin direction s).events := by
  obtain ⟨hframe, ⟨rows, hrows⟩, -⟩ := Problem.validate_eq_ok.1 hv
  have hm := hp.matrixFits
  have hline := hs.onLine hm hv hrows
  refine ⟨fun start steps hstart => ⟨?_, fun x hx => ?_⟩, fun hstart => ⟨?_, fun n => ?_⟩,
    rows, hrows.modelRows?, ?_⟩
  · exact staysInside_of_meets (S := fun _ => True)
      (meets_walkFrom hB hR hframe hm hrows hstart steps) ⟨⟨line, hline⟩, trivial⟩
  · exact visited_walkFrom hB hR hframe hm hrows hline hx
  · exact staysInside_of_meets (meets_walk hB hR hframe hm hrows) ⟨⟨line, hline⟩, hstart⟩
  · exact staysInside_of_meets (meets_sample hB hR hframe hm hrows n) ⟨⟨line, hline⟩, hstart⟩
  · intro origin direction ho hd hopen o memory hrun hopt
    obtain ⟨b, hcall⟩ := lineIntersection_of_run hline ho hd hopen hrun
    rw [hcall]
    simp [hopt]

end Walk

def picking (candidates : List (List Rat)) : Backend Extended where
  name := "Picking"
  sessionName := "PickingSession"
  Code := Bool
  codeName found := if found then "Found" else "NoneFound"
  classify found := if found then .optimal else .infeasible
  hasPoint found := found
  Memory := Unit
  run m _ := (.ok (match candidates.find? fun x => decide (m.Admits x) with
    | some x => .ofValues true m (exactly x)
    | none => .withoutValues false), ())

theorem picking_sound (candidates : List (List Rat)) : (picking candidates).Sound := by
  rintro m memory _ memory' ⟨⟩ hopt
  cases hx : candidates.find? fun x => decide (m.Admits x) with
  | some x => exact ⟨x, by simp [Outcome.ofValues], by simpa using List.find?_some hx⟩
  | none => simp [hx, picking, Outcome.withoutValues] at hopt

def picked : Backend Extended :=
  picking [[1, 1 / 2], [1, 1 / 4], [1 / 2]]

/-- The rational root of a square. -/
instance : Root Extended where
  root
    | .fin q => if Rat.sqrt q * Rat.sqrt q = q then .fin (Rat.sqrt q) else .nan
    | _ => .nan

/-- Every direction is upwards, and every step goes halfway. -/
def halves : Randomness Extended Unit where
  normal g := (1, g)
  uniform g := (.fin (1 / 2), g)

/-- The column is at least 0, and the row says that it is at most 1. -/
def fromZeroToOne : Problem Extended where
  columns := 1
  kind := .linear
  direction := .maximise
  objective := [0]
  lower := [0]
  upper := [.posInf]
  kinds := [.continuous]
  matrix := ⟨1, [[(0, 1)]]⟩
  rhs := [1]
  senses := [.lessEq]
  ranges := none

def walked : Call (Event Extended) (SamplingError Extended) Unit
    (List Extended × Sampler picked Unit) := do
  let s ← Sampler.new picked () () fromZeroToOne (exactly [1 / 2]) ⟨2, .squaredLength, none, true⟩
  Call.within s (walk halves)

theorem fromZeroToOne_built : fromZeroToOne.Built := by
  let p : Problem Extended :=
    { fromZeroToOne with lower := [.negInf], matrix := ⟨1, []⟩, rhs := [], senses := [] }
  have hempty : Problem.empty 0 1 = .ok p := rfl
  have hbounds := Problem.Built.call (.empty hempty) (.bounds 0 0 .posInf)
  have hstate : ((ProblemChange.rows (.bound 0 .lessEq 1)).call
      ((ProblemChange.bounds 0 0 .posInf).call p).state).state = fromZeroToOne := by
    decide +kernel
  rw [← hstate]
  exact hbounds.call (.rows (.bound 0 .lessEq 1))

theorem fromZeroToOne_holds : fromZeroToOne.Holds (exactly [1 / 2]) := by
  refine ⟨[1 / 2], rfl, rfl, ?_, ?_⟩ <;> decide +kernel

/-- The walk from the middle ends in the polytope. -/
theorem walked_stays_inside : picked.Sound ∧ (∀ g, UnitDraw (halves.uniform g).1) ∧
    fromZeroToOne.Built ∧ fromZeroToOne.validate = .ok () ∧
    ∃ s : Sampler picked Unit, Reached halves fromZeroToOne none s ∧
      fromZeroToOne.Holds s.start ∧ StaysInside fromZeroToOne fromZeroToOne.Holds (walk halves s) ∧
      ∃ x, (walk halves s).result = .ok x ∧ fromZeroToOne.Holds x := by
  have hunit : ∀ g, UnitDraw (halves.uniform g).1 := fun _ => ⟨1 / 2, rfl, by norm_num, by norm_num⟩
  have hvalid : fromZeroToOne.validate = .ok () := rfl
  obtain ⟨⟨x, s'⟩, hx⟩ := exists_of_isOk (x := (walked ()).result) (by decide +kernel)
  obtain ⟨s, hs, hx⟩ := Call.result_bind_eq_ok hx
  have hreached : Reached halves fromZeroToOne none s := .new hs
  have hstart : fromZeroToOne.Holds s.start := start_of_new hs ▸ fromZeroToOne_holds
  obtain ⟨-, hwalk, -⟩ := walk_stays_inside (picking_sound _) hunit fromZeroToOne_built hvalid
    hreached
  have hanswer : (walk halves s).result = .ok x := (Call.result_within_eq_ok hx).1
  exact ⟨picking_sound _, hunit, fromZeroToOne_built, hvalid, s, hreached, hstart,
    (hwalk hstart).1, x, hanswer, (hwalk hstart).1.answer x hanswer⟩

end Sampler

end LinProg
