import LinProg.Binding.Probe
import LinProg.Proofs.Problem.Rows

/-!
What the calls on a session do. A run leaves the model as it stands. A change of the model goes
through when the places that it names exist, and then it is a plain change of a list.
-/

namespace LinProg

variable {α : Type}

namespace Model

variable {m : Model α}

def withRows (m : Model α) (rows : List (ModelRow α)) : Model α :=
  { m with rows }

def withBounds (m : Model α) (lower upper : List α) : Model α :=
  { m with lower, upper }

theorem deleteRows?_eq {first : Nat} (h : first ≤ m.rows.length) :
    m.deleteRows? first m.rows.length = some (m.withRows (m.rows.take first)) := by
  simp [deleteRows?, numRows, withRows, h]

theorem changeRow?_eq {row : Nat} (h : row < m.rows.length) (f : ModelRow α → ModelRow α) :
    m.changeRow? row f = some (m.withRows (m.rows.modify row f)) := by
  have hrow : m.rows[row]? = some m.rows[row] := List.getElem?_eq_getElem h
  simp [changeRow?, hrow, place?_of_lt h, set_getElem_eq_modify h, withRows]

theorem setBounds?_eq {column : Nat} (hl : column < m.lower.length)
    (hu : column < m.upper.length) (lower upper : α) :
    m.setBounds? column lower upper =
      some (m.withBounds (m.lower.set column lower) (m.upper.set column upper)) := by
  simp [setBounds?, place?_of_lt hl, place?_of_lt hu, withBounds]

structure ColumnsFit (m : Model α) : Prop where
  lower : m.lower.length = m.numCols
  upper : m.upper.length = m.numCols
  kinds : m.kinds.length = m.numCols

theorem ColumnsFit.exists_bounds (h : m.ColumnsFit) {k : Nat} (hk : k < m.numCols) :
    ∃ kind l u, m.kinds[k]? = some kind ∧ m.lower[k]? = some l ∧ m.upper[k]? = some u :=
  ⟨m.kinds.get ⟨k, h.kinds.symm ▸ hk⟩, m.lower.get ⟨k, h.lower.symm ▸ hk⟩,
    m.upper.get ⟨k, h.upper.symm ▸ hk⟩, List.getElem?_eq_getElem _, List.getElem?_eq_getElem _,
    List.getElem?_eq_getElem _⟩

theorem ColumnsFit.withObjective (h : m.ColumnsFit) {objective : List α}
    (ho : objective.length = m.numCols) : (m.withObjective objective).ColumnsFit :=
  ⟨h.lower.trans ho.symm, h.upper.trans ho.symm, h.kinds.trans ho.symm⟩

theorem ColumnsFit.pinned (h : m.ColumnsFit) {x : List α} (hx : x.length = m.numCols) :
    (m.withBounds x x).ColumnsFit :=
  ⟨hx, hx, h.kinds⟩

variable [Scalar α]

def kindBounds (lower upper : α) : ColumnKind → Interval α
  | .binary => (Scalar.greatest lower 0, Scalar.least upper 1)
  | .continuous | .integer => (lower, upper)

theorem columnBounds?_eq {k : Nat} {kind : ColumnKind} {l u : α} (hk : m.kinds[k]? = some kind)
    (hl : m.lower[k]? = some l) (hu : m.upper[k]? = some u) :
    m.columnBounds? k = some (kindBounds l u kind) := by
  simp only [columnBounds?, hk, hl, hu, Option.bind_eq_bind, Option.bind_some]
  cases kind <;> rfl

def writeRows (writes : List (Nat × RowWrite α)) (rows : List (ModelRow α)) :
    List (ModelRow α) :=
  writes.foldl (fun rows w => rows.modify w.1 w.2.apply) rows

@[simp] theorem length_writeRows (writes : List (Nat × RowWrite α)) (rows : List (ModelRow α)) :
    (writeRows writes rows).length = rows.length := by
  induction writes generalizing rows with
  | nil => rfl
  | cons w writes ih => simpa [writeRows] using ih (rows.modify w.1 w.2.apply)

theorem forall_mem_writeRows {P : ModelRow α → Prop} {writes : List (Nat × RowWrite α)}
    {rows : List (ModelRow α)} (hrows : ∀ r ∈ rows, P r)
    (hwrites : ∀ w ∈ writes, ∀ r, P r → P (w.2.apply r)) : ∀ r ∈ writeRows writes rows, P r := by
  induction writes generalizing rows with
  | nil => exact hrows
  | cons w writes ih =>
    obtain ⟨hw, hwrites⟩ := List.forall_mem_cons.1 hwrites
    exact ih (forall_mem_modify hrows hw w.1) hwrites

theorem foldlM_changeRow?_eq {ρ : Type} (write : ρ → Nat × RowWrite α) {changes : List ρ}
    (h : ∀ c ∈ changes, (write c).1 < m.rows.length) :
    changes.foldlM (fun m c => m.changeRow? (write c).1 (write c).2.apply) m =
      some (m.withRows (writeRows (changes.map write) m.rows)) := by
  induction changes generalizing m with
  | nil => rfl
  | cons c changes ih =>
    have hc := changeRow?_eq (h c (by simp)) (write c).2.apply
    rw [List.foldlM_cons, hc]
    exact ih (by simpa [withRows] using fun d hd => h d (by simp [hd]))

def termWrite (change : Nat × Nat × α) : Nat × RowWrite α :=
  (change.1, .term change.2.1 change.2.2)

def rhsWrite (change : Nat × α) : Nat × RowWrite α :=
  (change.1, .rhs change.2)

theorem changeCoefficients?_eq {changes : List (Nat × Nat × α)}
    (h : ∀ c ∈ changes, c.1 < m.rows.length) :
    m.changeCoefficients? changes =
      some (m.withRows (writeRows (changes.map termWrite) m.rows)) :=
  foldlM_changeRow?_eq termWrite h

theorem changeRhs?_eq {changes : List (Nat × α)} (h : ∀ c ∈ changes, c.1 < m.rows.length) :
    m.changeRhs? changes = some (m.withRows (writeRows (changes.map rhsWrite) m.rows)) :=
  foldlM_changeRow?_eq rhsWrite h

end Model

def noteRun (runs : List (Model α)) : Event α → List (Model α)
  | .ran m => runs ++ [m]
  | _ => runs

namespace Session

variable {B : Backend α}

def withModel (s : Session B) (model : Model α) : Session B :=
  { s with model, last := none }

theorem change_apply (f : Model α → Model α) (s : Session B) :
    change f s = ⟨.ok (), s.withModel (f s.model), []⟩ := rfl

theorem change?_apply {f : Model α → Option (Model α)} {s : Session B} {m : Model α}
    (h : f s.model = some m) : change? f s = ⟨.ok (), s.withModel m, []⟩ := by
  simp [change?, Call.modify?, h, withModel]

theorem change?_refused {f : Model α → Option (Model α)} {s : Session B}
    (h : f s.model = none) : change? f s = ⟨.error (.fault .outOfRange), s, []⟩ := by
  simp [change?, Call.modify?, h]

/-- A later state of a session whose model was not touched. -/
structure Unmoved (s s' : Session B) : Prop where
  model : s'.model = s.model
  closed : s'.closed = s.closed

theorem Unmoved.refl (s : Session B) : s.Unmoved s := ⟨rfl, rfl⟩

theorem Unmoved.trans {s s' s'' : Session B} (h : s.Unmoved s') (h' : s'.Unmoved s'') :
    s.Unmoved s'' :=
  ⟨h'.model.trans h.model, h'.closed.trans h.closed⟩

/-- A later state of a session that was not run or closed in between. -/
structure SameEngine (s s' : Session B) : Prop where
  closed : s'.closed = s.closed
  memory : s'.memory = s.memory

section Run

variable {ρ : Type} {note : ρ → Event α → ρ} {I : ρ → Session B → Prop}

theorem keeps_optimize (hran : ∀ r m, note r (.ran m) = r)
    (hfinished : ∀ r name code, note r (.finished name code) = r)
    (hI : ∀ r s s', s.Unmoved s' → I r s → I r s') :
    Call.Keeps note I (optimize : SessionCall B B.Code) := by
  refine Call.keeps_state_bind fun s => ?_
  refine Call.keeps_bind (Call.keeps_require _ _) fun _ => ?_
  refine Call.keeps_bind (Call.keeps_emit fun r => hran r s.model) fun _ => ?_
  obtain ⟨result, memory⟩ := B.run s.model s.memory
  refine Call.keeps_bind (Call.keeps_modify fun r s => hI r s _ ⟨rfl, rfl⟩) fun _ => ?_
  refine Call.keeps_bind (Call.keeps_ofResult result) fun outcome => ?_
  refine Call.keeps_bind (Call.keeps_emit fun r => hfinished r _ _) fun _ => ?_
  refine Call.keeps_bind (Call.keeps_modify fun r s => hI r s _ ⟨rfl, rfl⟩) fun _ => ?_
  exact Call.keeps_pure _

theorem keeps_solve [Scalar α] (hran : ∀ r m, note r (.ran m) = r)
    (hfinished : ∀ r name code, note r (.finished name code) = r)
    (hI : ∀ r s s', s.Unmoved s' → I r s → I r s') :
    Call.Keeps note I (solve : SessionCall B (Solution α)) :=
  Call.keeps_bind (keeps_optimize hran hfinished hI) fun _ =>
    Call.keeps_state_bind fun _ => Call.keeps_pure _

theorem optimize_of_run {s : Session B} {o : Outcome B.Code α} {memory : B.Memory}
    (hopen : s.closed = false) (hrun : B.run s.model s.memory = (.ok o, memory)) :
    optimize s = ⟨.ok o.code, { s with memory, last := some o },
      [.ran s.model, .finished B.sessionName (B.codeName o.code)]⟩ := by
  simp [optimize, hopen, hrun]

theorem optimize_of_error {s : Session B} {f : Failure (SolverError α)} {memory : B.Memory}
    (hopen : s.closed = false) (hrun : B.run s.model s.memory = (.error f, memory)) :
    optimize s = ⟨.error f, { s with memory }, [.ran s.model]⟩ := by
  simp [optimize, hopen, hrun]

theorem optimize_of_closed {s : Session B} (h : s.closed = true) :
    optimize s = ⟨.error (.error .closed), s, []⟩ := by
  simp [optimize, h]

/-- A run goes through, or it fails and has told of nothing but itself. -/
theorem optimize_cases (s : Session B) :
    (∃ o memory, s.closed = false ∧ B.run s.model s.memory = (.ok o, memory)) ∨
      ∃ f, (optimize s).result = .error f ∧ ∀ e ∈ (optimize s).events, e = .ran s.model := by
  cases hclosed : s.closed with
  | true => exact .inr ⟨.error .closed, by simp [optimize_of_closed hclosed]⟩
  | false =>
    rcases hrun : B.run s.model s.memory with ⟨result, memory⟩
    cases result with
    | ok o => exact .inl ⟨o, memory, rfl, rfl⟩
    | error f => exact .inr ⟨f, by simp [optimize_of_error hclosed hrun]⟩

theorem solve_of_run [Scalar α] {s : Session B} {o : Outcome B.Code α} {memory : B.Memory}
    (hopen : s.closed = false) (hrun : B.run s.model s.memory = (.ok o, memory)) :
    solve s = ⟨.ok (Session.solution { s with memory, last := some o } o.code),
      { s with memory, last := some o },
      [.ran s.model, .finished B.sessionName (B.codeName o.code)]⟩ := by
  rw [solve, Call.bind_of_ok (optimize_of_run hopen hrun)]
  rfl

theorem solve_cases [Scalar α] (s : Session B) :
    (∃ o memory, s.closed = false ∧ B.run s.model s.memory = (.ok o, memory)) ∨
      ∃ f, (solve s).result = .error f ∧ ∀ e ∈ (solve s).events, e = .ran s.model := by
  obtain hrun | ⟨f, hf, hevents⟩ := optimize_cases s
  · exact .inl hrun
  · refine .inr ⟨f, ?_⟩
    rw [solve, Call.bind_apply, hf]
    exact ⟨rfl, hevents⟩

theorem model_of_ran {s : Session B} {m : Model α} (h : .ran m ∈ (optimize s).events) :
    m = s.model := by
  obtain ⟨o, memory, hopen, hrun⟩ | ⟨f, -, hevents⟩ := optimize_cases s
  · simpa [optimize_of_run hopen hrun] using h
  · exact Event.ran.inj (hevents _ h)

theorem model_of_ran_solve [Scalar α] {s : Session B} {m : Model α}
    (h : .ran m ∈ (solve s).events) : m = s.model := by
  obtain ⟨o, memory, hopen, hrun⟩ | ⟨f, -, hevents⟩ := solve_cases s
  · simpa [solve_of_run hopen hrun] using h
  · exact Event.ran.inj (hevents _ h)

end Run

theorem optimize_unmoved (s : Session B) : s.Unmoved (optimize s).state :=
  have hkeeps : Call.Preserves s.Unmoved (optimize : SessionCall B B.Code) :=
    keeps_optimize (fun _ _ => rfl) (fun _ _ _ => rfl) fun _ _ _ h' h => h.trans h'
  hkeeps.state (.refl s)

theorem solve_unmoved [Scalar α] (s : Session B) : s.Unmoved (solve s).state :=
  have hkeeps : Call.Preserves s.Unmoved (solve : SessionCall B (Solution α)) :=
    keeps_solve (fun _ _ => rfl) (fun _ _ _ => rfl) fun _ _ _ h' h => h.trans h'
  hkeeps.state (.refl s)

theorem solveFor_unmoved [Scalar α] (s : Session B) (objective : List α) :
    s.Unmoved (Call.thenAlways
      (do
        changeObjective objective
        solve)
      (changeObjective s.model.objective) s).state := by
  let s' := (solve (s.withModel (s.model.withObjective objective))).state
  have hs' : (s.withModel (s.model.withObjective objective)).Unmoved s' :=
    solve_unmoved _
  change s.Unmoved (s'.withModel (s'.model.withObjective s.model.objective))
  refine ⟨?_, hs'.closed⟩
  change s'.model.withObjective s.model.objective = s.model
  rw [hs'.model]
  rfl

theorem setBounds_apply {s : Session B} {column : Nat} (hl : column < s.model.lower.length)
    (hu : column < s.model.upper.length) (lower upper : α) :
    setBounds column lower upper s = ⟨.ok (), s.withModel (s.model.withBounds
      (s.model.lower.set column lower) (s.model.upper.set column upper)), []⟩ :=
  change?_apply (f := (·.setBounds? column lower upper)) (Model.setBounds?_eq hl hu lower upper)

theorem forM_setBounds {bounds : List (Interval α)} {column : Nat} {s : Session B}
    (hl : s.model.lower.length = column + bounds.length)
    (hu : s.model.upper.length = column + bounds.length) :
    ∃ s', ((bounds.zipIdx column).forM fun ((lower, upper), column) =>
        setBounds column lower upper) s = ⟨.ok (), s', []⟩ ∧
      (s.withModel (s.model.withBounds (s.model.lower.take column ++ bounds.map (·.1))
        (s.model.upper.take column ++ bounds.map (·.2)))).Unmoved s' := by
  induction bounds generalizing column s with
  | nil =>
    have hl' : s.model.lower.take column = s.model.lower := List.take_of_length_le (by simp [hl])
    have hu' : s.model.upper.take column = s.model.upper := List.take_of_length_le (by simp [hu])
    refine ⟨s, rfl, ?_, rfl⟩
    simp [withModel, Model.withBounds, hl', hu']
  | cons b bounds ih =>
    obtain ⟨lower, upper⟩ := b
    simp only [List.length_cons] at hl hu
    have hcl : column < s.model.lower.length := by omega
    have hcu : column < s.model.upper.length := by omega
    have hb := setBounds_apply hcl hcu lower upper
    let t := s.withModel (s.model.withBounds (s.model.lower.set column lower)
      (s.model.upper.set column upper))
    have htl' : t.model.lower.length = column + 1 + bounds.length := by
      simp [t, withModel, Model.withBounds]
      omega
    have htu' : t.model.upper.length = column + 1 + bounds.length := by
      simp [t, withModel, Model.withBounds]
      omega
    obtain ⟨s', hs', hmodel, hclosed⟩ := ih htl' htu'
    refine ⟨s', ?_, ?_, hclosed⟩
    · rw [List.zipIdx_cons, Call.forM_cons]
      exact Call.bind_eq hb hs'
    · have htl := take_succ_set hcl lower
      have htu := take_succ_set hcu upper
      simp [hmodel, t, withModel, Model.withBounds, htl, htu]

theorem setAllBounds_apply {bounds : List (Interval α)} {s : Session B}
    (hl : s.model.lower.length = bounds.length) (hu : s.model.upper.length = bounds.length) :
    ∃ s', Binding.setAllBounds bounds s = ⟨.ok (), s', []⟩ ∧
      (s.withModel (s.model.withBounds (bounds.map (·.1)) (bounds.map (·.2)))).Unmoved s' := by
  rw [← Nat.zero_add bounds.length] at hl hu
  exact forM_setBounds hl hu

theorem setAllBounds_sameEngine (bounds : List (Interval α)) (s : Session B) :
    s.SameEngine (Binding.setAllBounds bounds s).state := by
  have hkeeps : Call.Preserves s.SameEngine (Binding.setAllBounds bounds : SessionCall B Unit) := by
    refine Call.keeps_forM fun _ _ => Call.keeps_modify? fun _ t t' ht h => ?_
    obtain ⟨m, -, rfl⟩ := Option.map_eq_some_iff.1 ht
    exact ⟨h.closed, h.memory⟩
  exact hkeeps.state ⟨rfl, rfl⟩

theorem events_setAllBounds (bounds : List (Interval α)) (s : Session B) :
    (Binding.setAllBounds bounds s).events = [] := by
  refine Call.events_forM (fun b s => ?_) s
  change (Call.modify? _ s).events = []
  rw [Call.modify?]
  split <;> rfl

def pinnedRun (name : String) (x : List α) : SessionCall B B.Code := do
  Binding.setAllBounds (x.map fun v => (v, v))
  let code ← optimize
  Call.emit (.pointTried name (B.codeName code))
  return code

theorem pinnedRun_apply (s : Session B) (name : String) {x : List α}
    (hl : s.model.lower.length = x.length) (hu : s.model.upper.length = x.length) :
    ∃ s', (s.withModel (s.model.withBounds x x)).Unmoved s' ∧ s.SameEngine s' ∧
      pinnedRun name x s = (do
        let code ← optimize
        Call.emit (.pointTried name (B.codeName code))
        return code) s' := by
  have hpoints : (x.map fun v => (v, v)).length = x.length := List.length_map ..
  have hcoordinates (f : α × α → α) (hf : ∀ v, f (v, v) = v) :
      (x.map fun v => (v, v)).map f = x := by
    simp [Function.comp_def, hf]
  obtain ⟨s', hset, hs'⟩ :=
    setAllBounds_apply (hl.trans hpoints.symm) (hu.trans hpoints.symm)
  rw [hcoordinates _ fun _ => rfl, hcoordinates _ fun _ => rfl] at hs'
  have hsame := setAllBounds_sameEngine (x.map fun v => (v, v)) s
  rw [hset] at hsame
  refine ⟨s', hs', hsame, ?_⟩
  rw [pinnedRun, Call.bind_of_ok hset]
  rfl

theorem pinnedRun_unmoved (s : Session B) (name : String) {x : List α}
    (hl : s.model.lower.length = x.length) (hu : s.model.upper.length = x.length) :
    (s.withModel (s.model.withBounds x x)).Unmoved (pinnedRun name x s).state := by
  obtain ⟨s', hs', -, hrun⟩ := pinnedRun_apply s name hl hu
  rw [hrun, Call.bind_state (by intro code s; rfl)]
  exact hs'.trans (optimize_unmoved s')

theorem putBack_apply (s : Session B) (name : String) {x : List α} {bounds : List (Interval α)}
    (hl : s.model.lower.length = x.length) (hu : s.model.upper.length = x.length)
    (hlower : bounds.map (·.1) = s.model.lower) (hupper : bounds.map (·.2) = s.model.upper) :
    ∃ s', Binding.setAllBounds bounds (pinnedRun name x s).state = ⟨.ok (), s', []⟩ ∧
      s.Unmoved s' := by
  have hrun := pinnedRun_unmoved s name hl hu
  have hbounds : x.length = bounds.length := by
    rw [← hl, ← hlower, List.length_map]
  have hl' : (pinnedRun name x s).state.model.lower.length = bounds.length := by
    rw [hrun.model]
    exact hbounds
  have hu' : (pinnedRun name x s).state.model.upper.length = bounds.length := by
    rw [hrun.model]
    exact hbounds
  obtain ⟨s', hback, hs'⟩ := setAllBounds_apply hl' hu'
  refine ⟨s', hback, ?_, hs'.closed.trans hrun.closed⟩
  rw [hs'.model, hlower, hupper, hrun.model]
  rfl

theorem fixedRun_unmoved (s : Session B) (name : String) {x : List α}
    {bounds : List (Interval α)} (hl : s.model.lower.length = x.length)
    (hu : s.model.upper.length = x.length) (hlower : bounds.map (·.1) = s.model.lower)
    (hupper : bounds.map (·.2) = s.model.upper) :
    s.Unmoved ((pinnedRun name x).thenAlways (Binding.setAllBounds bounds) s).state := by
  obtain ⟨s', hback, hs'⟩ := putBack_apply s name hl hu hlower hupper
  rw [Call.thenAlways_apply, hback]
  exact hs'

end Session

end LinProg
