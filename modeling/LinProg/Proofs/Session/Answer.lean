import LinProg.Proofs.Session

namespace LinProg

variable {α : Type}

def Backend.Memoryless (B : Backend α) : Prop :=
  ∀ m memory memory', (B.run m memory).1 = (B.run m memory').1

def Outcome.solution [Scalar α] (B : Backend α) (columns : Nat) (o : Outcome B.Code α) :
    Solution α where
  values := o.values.getD (List.replicate columns Scalar.nan)
  objective := o.objective.getD Scalar.nan
  status := B.classify o.code
  feasible := B.hasPoint o.code && o.values.isSome

namespace Session

variable {B : Backend α} {s t : Session B}

def found (s : Session B) (m : Model α) : Except (Failure (SolverError α)) (Outcome B.Code α) :=
  if s.closed then .error (.error .closed) else (B.run m s.memory).1

theorem found_congr (hB : B.Memoryless) (hc : s.closed = t.closed) : s.found = t.found := by
  funext m
  rw [found, found, hc, hB m s.memory t.memory]

variable [Scalar α]

def answer (s : Session B) (m : Model α) : Except (Failure (SolverError α)) (Solution α) :=
  (s.found m).map (Outcome.solution B m.numCols)

theorem result_solve (s : Session B) : (solve s).result = s.answer s.model := by
  cases hclosed : s.closed with
  | true =>
    rw [solve, Call.bind_of_error (optimize_of_closed hclosed)]
    simp [answer, found, hclosed, Except.map]
  | false =>
    rcases hrun : B.run s.model s.memory with ⟨result, memory⟩
    have hfound : s.found s.model = result := by simp [found, hclosed, hrun]
    cases result with
    | ok o =>
      rw [solve_of_run hclosed hrun, answer, hfound]
      rfl
    | error f =>
      rw [solve, Call.bind_of_error (optimize_of_error hclosed hrun), answer, hfound]
      rfl

theorem answer_eq_ok {m : Model α} {x : Solution α} (h : s.answer m = .ok x) :
    s.closed = false ∧ ∃ o memory, B.run m s.memory = (.ok o, memory) ∧
      x = o.solution B m.numCols := by
  cases hclosed : s.closed with
  | true => simp [answer, found, hclosed, Except.map] at h
  | false =>
    rcases hrun : B.run m s.memory with ⟨result, memory⟩
    cases result with
    | ok o =>
      refine ⟨rfl, o, memory, rfl, ?_⟩
      simpa [answer, found, hclosed, hrun, Except.map] using h.symm
    | error f => simp [answer, found, hclosed, hrun, Except.map] at h

theorem answer_congr (hB : B.Memoryless) (hc : s.closed = t.closed) : s.answer = t.answer := by
  funext m
  rw [answer, answer, found_congr hB hc]

theorem solve_congr (hB : B.Memoryless) (hm : s.model = t.model) (hc : s.closed = t.closed) :
    (solve s).result = (solve t).result := by
  rw [result_solve, result_solve, hm, answer_congr hB hc]

theorem result_solveFor (s : Session B) (objective previous : List α) :
    (Call.thenAlways
      (do
        changeObjective objective
        solve)
      (changeObjective previous) s).result = s.answer (s.model.withObjective objective) := by
  let t := s.withModel (s.model.withObjective objective)
  change (solve t).result = _
  exact result_solve t

end Session

end LinProg
