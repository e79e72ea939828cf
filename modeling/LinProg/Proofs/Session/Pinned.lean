import LinProg.Proofs.Session.Answer

namespace LinProg.Session

variable {α : Type} {B : Backend α} {s t : Session B} {m : Model α}

/-- The engine is run just once, on a model, unless the session is closed; the answer is how the run
ended. -/
structure RunsOnce (s : Session B) (m : Model α)
    (r : Reply (Event α) (SolverError α) (Session B) B.Code) : Prop where
  result : r.result = (s.found m).map (·.code)
  runs : r.events.foldl noteRun [] = if s.closed then [] else [m]
  memory : r.state.memory = if s.closed then s.memory else (B.run m s.memory).2

theorem SameEngine.found (h : s.SameEngine t) : t.found = s.found := by
  funext m
  rw [Session.found, Session.found, h.closed, h.memory]

theorem SameEngine.runsOnce (h : s.SameEngine t)
    {r : Reply (Event α) (SolverError α) (Session B) B.Code} (hr : t.RunsOnce m r) :
    s.RunsOnce m r where
  result := by rw [hr.result, h.found]
  runs := by rw [hr.runs, h.closed]
  memory := by rw [hr.memory, h.closed, h.memory]

theorem optimize_runsOnce (s : Session B) : s.RunsOnce s.model (optimize s) := by
  cases hclosed : s.closed with
  | true =>
    rw [optimize_of_closed hclosed]
    constructor <;> simp [found, hclosed, Except.map]
  | false =>
    rcases hrun : B.run s.model s.memory with ⟨result, memory⟩
    cases result with
    | ok o =>
      rw [optimize_of_run hclosed hrun]
      constructor <;> simp [found, hclosed, hrun, Except.map, noteRun]
    | error f =>
      rw [optimize_of_error hclosed hrun]
      constructor <;> simp [found, hclosed, hrun, Except.map, noteRun]

theorem RunsOnce.then_emit {c : SessionCall B B.Code} (h : s.RunsOnce m (c t))
    {e : B.Code → Event α} (he : ∀ runs code, noteRun runs (e code) = runs) :
    s.RunsOnce m ((do
      let code ← c
      Call.emit (e code)
      return code) t) := by
  obtain ⟨hresult, hruns, hmemory⟩ := h
  rw [Call.bind_apply]
  cases hr : (c t).result with
  | error f => exact ⟨hr.symm.trans hresult, hruns, hmemory⟩
  | ok code => exact ⟨hr.symm.trans hresult, by simp [he, hruns], hmemory⟩

theorem pinnedRun_runsOnce (s : Session B) (name : String) {x : List α}
    (hl : s.model.lower.length = x.length) (hu : s.model.upper.length = x.length) :
    s.RunsOnce (s.model.withBounds x x) (pinnedRun name x s) := by
  obtain ⟨s', hs', hsame, hrun⟩ := pinnedRun_apply s name hl hu
  refine hsame.runsOnce ?_
  rw [← show s'.model = s.model.withBounds x x from hs'.model, hrun]
  exact (optimize_runsOnce s').then_emit fun _ _ => rfl

theorem fixedRun_runsOnce (s : Session B) (name : String) {x : List α}
    {bounds : List (Interval α)} (hl : s.model.lower.length = x.length)
    (hu : s.model.upper.length = x.length) (hlower : bounds.map (·.1) = s.model.lower)
    (hupper : bounds.map (·.2) = s.model.upper) :
    s.RunsOnce (s.model.withBounds x x)
      ((pinnedRun name x).thenAlways (Binding.setAllBounds bounds) s) := by
  have hrun := pinnedRun_runsOnce s name hl hu
  obtain ⟨s', hback, -⟩ := putBack_apply s name hl hu hlower hupper
  have hsame := setAllBounds_sameEngine bounds (pinnedRun name x s).state
  rw [Call.thenAlways_apply, hback]
  rw [hback] at hsame
  exact ⟨hrun.result, by simpa using hrun.runs, hsame.memory.trans hrun.memory⟩

end LinProg.Session
