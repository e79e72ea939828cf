import LinProg.Proofs.Binding.InRange
import LinProg.Proofs.Problem.Truth
import LinProg.Proofs.Sampler.Canonical
import LinProg.Proofs.Sampler.Groups

namespace LinProg.Sampler

variable {α : Type} [Scalar α] {B : Backend α} {G : Type} {p : Problem α}
  {rows : List (ModelRow α)} {line : Option (Line α)} {s : Sampler B G}

omit [Scalar α] in
theorem length_normals (R : Randomness α G) (n : Nat) (g : G) : (normals R n g).1.length = n := by
  induction n generalizing g with
  | zero => rfl
  | succ n ih => simp [normals, ih]

theorem length_nonzeroNormals (R : Randomness α G) (n tries : Nat) (g : G) :
    (nonzeroNormals R n tries g).1.length = n := by
  induction tries generalizing g with
  | zero => exact length_normals R n g
  | succ tries ih =>
    rw [nonzeroNormals]
    split
    · exact length_normals R n g
    · exact ih _

theorem length_toward (u : α) (xs bs : List α) : (toward u xs bs).length = xs.length := by
  induction xs generalizing bs with
  | nil => cases bs <;> rfl
  | cons x xs ih =>
    cases bs with
    | nil => rfl
    | cons b bs => simp [toward, ih]

structure Usable (p : Problem α) (rows : List (ModelRow α)) (s : Sampler B G) : Prop where
  onLine : ∃ line, OnLine p rows line s
  linked : ∀ i ∈ s.linked.flatten, i < p.columns

theorem Usable.of_eq {s' : Sampler B G} (h : Usable p rows s) (hb : s'.binding = s.binding)
    (hd : s'.dimension = s.dimension) (hr : s'.baseRows = s.baseRows)
    (hl : s'.linked = s.linked) : Usable p rows s' := by
  obtain ⟨line, hline⟩ := h.onLine
  exact ⟨⟨line, hline.of_eq hb hd hr⟩, hl ▸ h.linked⟩

theorem Usable.dimension (h : Usable p rows s) : s.dimension = p.columns := by
  obtain ⟨line, hline⟩ := h.onLine
  exact hline.dimension

section Ends

variable {F : Failure (SamplingError α) → Prop}

theorem ends_direction [Root α] (R : Randomness α G) : Call.Ends (Usable p rows) F
    (fun d => d.length = p.columns) (direction R : SamplerCall B G (List α)) := by
  refine Call.ends_state_bind (fun _ h => h) fun s hs => ?_
  have hdrawn := length_nonzeroNormals R s.dimension tries s.generator
  generalize nonzeroNormals R s.dimension tries s.generator = drawn at hdrawn
  obtain ⟨d, generator⟩ := drawn
  refine Call.ends_bind (Call.ends_modify fun _ h => h.of_eq rfl rfl rfl rfl) fun _ _ => ?_
  have hlength : (normalize s.config.normalization d).length = p.columns := by
    rw [← hs.dimension, ← hdrawn]
    exact List.length_map ..
  obtain ⟨d', hd', hlength', -⟩ := foldlM_link? (fun i hi => hlength.symm ▸ hs.linked i hi)
  rw [hd']
  exact Call.ends_pure (hlength'.trans hlength)

theorem ends_uniform (R : Randomness α G) :
    Call.Ends (Usable p rows) F (fun _ => True) (uniform R : SamplerCall B G α) := by
  refine Call.ends_state_bind (fun _ h => h) fun s _ => ?_
  exact Call.ends_bind (Call.ends_modify fun _ h => h.of_eq rfl rfl rfl rfl) fun _ _ =>
    Call.ends_pure trivial

theorem ends_close :
    Call.Ends (Usable p rows) F (fun _ => True) (close : SamplerCall B G Unit) := by
  intro s h
  obtain ⟨line, hline⟩ := h.onLine
  have hkept := keeps_close line s hline
  obtain ⟨b, es, hclose⟩ := Binding.close_ok s.binding
  rw [close, onBinding_apply hclose] at hkept ⊢
  exact ⟨⟨⟨_, hkept⟩, h.linked⟩, by simp, by simp⟩

variable (hF : ∀ e : ProblemError α, e.IsTrue → F (.error (.problem e)))

include hF

theorem ends_checkLength (part : Part) (expected found : Nat) :
    Call.Ends (Usable p rows) F (fun _ => True)
      (checkLength part expected found : SamplerCall B G Unit) :=
  Call.ends_require fun h => hF _ (ProblemError.isTrue_length (Ne.symm (by simpa using h)))

theorem ends_setStart (start : List α) :
    Call.Ends (Usable p rows) F (fun _ => True) (setStart start : SamplerCall B G Unit) := by
  refine Call.ends_state_bind (fun _ h => h) fun s _ => ?_
  refine Call.ends_bind (ends_checkLength hF _ _ _) fun _ _ => ?_
  exact Call.ends_modify fun _ h => h.of_eq rfl rfl rfl rfl

theorem ends_linkGroups (groups : List (List Nat)) :
    Call.Ends (Usable p rows) F (fun _ => True) (linkGroups groups : SamplerCall B G Unit) := by
  refine Call.ends_state_bind (fun _ h => h) fun s hs => ?_
  dsimp only
  split
  · rename_i index hfind
    have hout : s.dimension ≤ index := by simpa using List.find?_some hfind
    exact Call.ends_fail (hF _ (ProblemError.isTrue_missingColumn hout))
  · rename_i hfind
    refine Call.ends_modify fun t ht => ?_
    obtain ⟨line, hline⟩ := ht.onLine
    refine ⟨⟨line, hline.of_eq rfl rfl rfl⟩, ?_⟩
    rw [← hs.dimension]
    exact fun i hi => by simpa using List.find?_eq_none.1 hfind i hi

variable [LawfulScalar α] [Root α] (R : Randomness α G)
  (hline : ∀ s : Sampler B G, Usable p rows s → ∀ origin direction f,
    (lineIntersection origin direction s).result = .error f → F f)

include hline

omit hF [Root α] in
theorem ends_lineIntersection (origin direction : List α) :
    Call.Ends (Usable p rows) F (fun _ => True)
      (lineIntersection origin direction : SamplerCall B G (List α)) := by
  intro s hs
  refine ⟨?_, hline s hs origin direction, fun _ _ => trivial⟩
  obtain ⟨line, h⟩ := hs.onLine
  by_cases hl : origin.length = p.columns ∧ direction.length = p.columns
  · obtain ⟨b, hb, -, hcall⟩ := lineIntersection_apply h hl.1 hl.2
    have hkeeps : Call.Keeps noteLine (fun _ => Usable p rows)
        (solveLine origin direction p.columns : SamplerCall B G (List α)) := by
      refine keeps_solveLine (fun _ t b hb ht => ?_) origin direction p.columns
      obtain ⟨line, ht'⟩ := ht.onLine
      exact ⟨⟨line, ht'.of_unmoved hb⟩, ht.linked⟩
    rw [hcall]
    exact hkeeps none _ ⟨⟨_, hb⟩, hs.linked⟩
  · obtain ⟨_, _, -, he⟩ := lineIntersection_refused hl
    rw [he line s h]
    exact hs

omit hF in
theorem ends_step (current : List α) :
    Call.Ends (Usable p rows) F (fun next => next.length = current.length)
      (step R current : SamplerCall B G (List α)) := by
  refine Call.ends_bind (ends_direction R) fun d _ => ?_
  refine Call.ends_bind (ends_lineIntersection hline current d) fun boundary _ => ?_
  refine Call.ends_bind (ends_uniform R) fun u _ => ?_
  exact Call.ends_bind (Call.ends_emit _) fun _ _ =>
    Call.ends_pure (length_toward u current boundary)

omit hF in
theorem ends_stepsFrom (n : Nat) (current : List α) :
    Call.Ends (Usable p rows) F (fun last => last.length = current.length)
      (stepsFrom R n current : SamplerCall B G (List α)) := by
  induction n generalizing current with
  | zero => exact Call.ends_pure rfl
  | succ n ih =>
    refine Call.ends_bind (ends_step R hline current) fun next hnext => ?_
    exact (ih next).mono fun last hlast => hlast.trans hnext

theorem ends_walkFrom (start : List α) (steps : Nat) :
    Call.Ends (Usable p rows) F (fun last => last.length = start.length)
      (walkFrom R start steps : SamplerCall B G (List α)) := by
  refine Call.ends_state_bind (fun _ h => h) fun s _ => ?_
  exact Call.ends_bind (ends_checkLength hF _ _ _) fun _ _ => ends_stepsFrom R hline steps start

theorem ends_walk :
    Call.Ends (Usable p rows) F (fun _ => True) (walk R : SamplerCall B G (List α)) := by
  refine Call.ends_state_bind (fun _ h => h) fun s _ => ?_
  exact (ends_walkFrom hF R hline s.start s.config.steps).mono fun _ _ => trivial

theorem ends_walks (n : Nat) :
    Call.Ends (Usable p rows) F (fun _ => True) (walks R n : SamplerCall B G (List (List α))) := by
  induction n with
  | zero => exact Call.ends_pure trivial
  | succ n ih =>
    refine Call.ends_bind (ends_walk hF R hline) fun point _ => ?_
    exact Call.ends_bind ih fun _ _ => Call.ends_pure trivial

theorem ends_sample (n : Nat) :
    Call.Ends (Usable p rows) F (fun _ => True)
      (sample R n : SamplerCall B G (List (List α))) := by
  refine Call.ends_bind (ends_walks hF R hline n) fun points _ => ?_
  refine Call.ends_state_bind (fun _ h => h) fun s _ => ?_
  exact Call.ends_bind (Call.ends_emit _) fun _ _ => Call.ends_pure trivial

theorem ends_command (c : SamplerCommand α) :
    Call.Ends (Usable p rows) F (fun _ => True) (c.call R : SamplerCall B G Unit) := by
  have hdone {β : Type} {Q : β → Prop} {call : SamplerCall B G β}
      (h : Call.Ends (Usable p rows) F Q call) :
      Call.Ends (Usable p rows) F (fun _ => True) (call >>= fun _ => pure ()) :=
    Call.ends_bind h fun _ _ => Call.ends_pure trivial
  cases c with
  | lineIntersection origin direction => exact hdone (ends_lineIntersection hline origin direction)
  | drawDirection => exact hdone (ends_direction R)
  | walk => exact hdone (ends_walk hF R hline)
  | walkFrom start steps => exact hdone (ends_walkFrom hF R hline start steps)
  | sample n => exact hdone (ends_sample hF R hline n)
  | setStart start => exact ends_setStart hF start
  | linkGroups groups => exact ends_linkGroups hF groups
  | close => exact ends_close

end Ends

section Reached

variable [LawfulScalar α]

omit [LawfulScalar α] in
theorem validate_of_mapError {σ : Type} {t : σ} {u : Unit}
    (h : ((Call.ofExcept (p.validate.mapError .problem) :
      Call (Event α) (SamplingError α) σ Unit) t).result = .ok u) : p.validate = .ok () := by
  cases hv : p.validate with
  | ok _ => rfl
  | error e => simp [hv, Except.mapError] at h

omit [LawfulScalar α] in
theorem Reached.validate [Root α] {R : Randomness α G} (h : Reached R p line s) :
    p.validate = .ok () := by
  induction h with
  | new h =>
    obtain ⟨_, hv, -⟩ := Call.result_bind_eq_ok h
    exact validate_of_mapError hv
  | call h c ih => exact ih

theorem usable_of_new {σ : Type} {memory : B.Memory} {generator : G} {start : List α}
    {config : SamplerConfig} {t : σ} (hm : p.MatrixFits) (hv : p.validate = .ok ())
    (hrows : p.HasRows rows) (h : (new B memory generator p start config t).result = .ok s) :
    Usable p rows s := by
  refine ⟨⟨none, new_onLine hm hv hrows h⟩, ?_⟩
  obtain ⟨b, -, rfl⟩ := new_eq h
  simp

theorem Reached.usable [Root α] {R : Randomness α G} (hm : p.MatrixFits)
    (hv : p.validate = .ok ()) (hrows : p.HasRows rows) (h : Reached R p line s) :
    Usable p rows s := by
  induction h with
  | new h => exact usable_of_new hm hv hrows h
  | call h c ih =>
    have hends : Call.Ends (Usable p rows) (fun _ => True) (fun _ => True)
        (c.call R : SamplerCall B G Unit) :=
      ends_command (fun _ _ => trivial) R (fun _ _ _ _ _ _ => trivial) c
    exact (hends _ ih).1

theorem OnLine.fitted (h : OnLine p rows line s) (hm : p.MatrixFits) (hrows : p.HasRows rows) :
    s.binding.Fitted :=
  (h.canonical hm hrows).fitted

end Reached

section Calls

variable [Numeral α] (hB : B.BuiltIn)

include hB

theorem solveLine_inRange (h : s.binding.Fitted) (origin direction : List α) (n : Nat) :
    (solveLine origin direction n s).InRange := by
  refine Call.inRange_bind (Call.inRange_on (Binding.solve_inRange hB h) _) fun solution _ => ?_
  split
  · exact Call.inRange_of_ok (Call.pure_apply _ _)
  · exact Call.inRange_of_error rfl

variable [LawfulScalar α]

theorem lineIntersection_inRange (hm : p.MatrixFits) (hrows : p.HasRows rows)
    (h : OnLine p rows line s) (origin direction : List α) :
    (lineIntersection origin direction s).InRange := by
  by_cases hl : origin.length = p.columns ∧ direction.length = p.columns
  · obtain ⟨b, hb, -, hcall⟩ := lineIntersection_apply h hl.1 hl.2
    rw [hcall]
    exact solveLine_inRange hB (hb.fitted hm hrows) origin direction p.columns
  · obtain ⟨_, _, -, he⟩ := lineIntersection_refused hl
    exact Call.inRange_of_error (he line s h)

theorem Usable.call_inRange [Root α] (R : Randomness α G) (hm : p.MatrixFits)
    (hrows : p.HasRows rows) (h : Usable p rows s) (c : SamplerCommand α) :
    (c.call R s).InRange := by
  have hends : Call.Ends (Usable p rows) (· ≠ .fault .outOfRange) (fun _ => True)
      (c.call R : SamplerCall B G Unit) := by
    refine ends_command (fun e _ => by simp) R (fun t ht origin direction f hf => ?_) c
    obtain ⟨line, hline⟩ := ht.onLine
    rintro rfl
    exact lineIntersection_inRange hB hm hrows hline origin direction hf
  exact hends.inRange h

omit [LawfulScalar α] in
theorem verifyStart_inRange {σ : Type} (memory : B.Memory) (hm : p.MatrixFits) (start : List α)
    (t : σ) : (verifyStart B memory p start t).InRange := by
  refine Call.inRange_bind (Call.inRange_on (Binding.bind_inRange memory p _) _) fun check hc => ?_
  have hcheck := Binding.fitted_of_bind hm (Call.result_mapError_eq_ok hc)
  refine Call.inRange_bind (Call.inRange_on (Call.inRange_within
    (Binding.isFeasible_inRange hB hcheck start) _) _) fun answer _ => ?_
  refine Call.inRange_bind (Call.inRange_on (Call.inRange_within ?_ _) _) fun closed _ => ?_
  · obtain ⟨b, es, hclose⟩ := Binding.close_ok answer.2
    exact Call.inRange_of_ok hclose
  · exact Call.inRange_bind (Call.inRange_require _ _ _) fun _ _ =>
      Call.inRange_of_ok (Call.pure_apply _ _)

theorem new_inRange {σ : Type} (memory : B.Memory) (generator : G) (hm : p.MatrixFits)
    (start : List α) (config : SamplerConfig) (t : σ) :
    (new B memory generator p start config t).InRange := by
  refine Call.inRange_bind (Call.inRange_ofExcept _ _) fun _ hvalid => ?_
  have hv := validate_of_mapError hvalid
  refine Call.inRange_bind (Call.inRange_require _ _ _) fun _ _ => ?_
  refine Call.inRange_bind ?_ fun memory' _ => ?_
  · split
    · exact verifyStart_inRange hB memory hm start _
    · exact Call.inRange_of_ok (Call.pure_apply _ _)
  · rw [Problem.augmented_eq hm hv, Call.mapError_ok, Call.ofResult_ok, Call.pure_bind]
    exact Call.inRange_bind_pure (Call.inRange_on (Binding.bind_inRange memory' _ _) _) _

/-- After any calls on a problem, the next one looks up what is not there exactly if it changes a
column that one of the lists given before is too short for, and what is read off the problem is
there as far as its lists go. Nothing at all is missed where the problem is valid, nor by a binding
or a sampler of it, whatever the calls on these, their arguments and what came of the calls before
them, nor when what is there then is written out or handed to an engine. The only fault left is that
an engine refuses what it is given. -/
theorem misses_only_in_short_lists [Root α] (R : Randomness α G) (hp : p.Built)
    (changes : List (ProblemChange α)) :
    let q := p.after changes
    (∀ change : ProblemChange α, (change.call q).InRange ↔ ¬ change.Misses q) ∧ q.ReadAsGiven ∧
    (q.validate = .ok () → q.Readable ∧ ∀ change : ProblemChange α, (change.call q).InRange) ∧
    (∀ memory : B.Memory, (Binding.bind B memory q ()).InRange ∧
      ∀ (b : Binding B) (cs : List (Command α)), (Binding.bind B memory q ()).result = .ok b →
        (b.after cs).Readable ∧ (b.after cs).ChecksSuffice ∧
        ∀ c : Command α, (c.call (b.after cs)).InRange) ∧
    (∀ (memory : B.Memory) (generator : G) (start : List α) (config : SamplerConfig),
      (new B memory generator q start config ()).InRange) ∧
    ∀ (line : Option (Line α)) (s : Sampler B G), Reached R q line s →
      s.binding.Readable ∧ s.binding.ChecksSuffice ∧
      ∀ c : SamplerCommand α, (c.call R s).InRange := by
  intro q
  have hm : q.MatrixFits := (hp.after changes).matrixFits
  refine ⟨ProblemChange.inRange_iff hm.columns, hm.readAsGiven, fun hv => ?_, fun memory =>
    ⟨Binding.bind_inRange memory q (), fun b cs hb => ?_⟩,
    fun memory generator start config => new_inRange hB memory generator hm start config (), ?_⟩
  · have hwell := Problem.wellFormed_of_valid hm hv
    exact ⟨hwell.readable, fun change => (ProblemChange.inRange_iff hm.columns change).2
      (change.not_misses_of_columnsFit hwell.toColumnsFit)⟩
  · have hfitted := (Binding.fitted_of_bind hm hb).after cs
    exact ⟨hfitted.readable, hfitted.toAligned.checksSuffice, fun c => c.call_inRange hB hfitted⟩
  · intro line s hs
    have hv := hs.validate
    obtain ⟨-, ⟨rows, hrows⟩, -⟩ := Problem.validate_eq_ok.1 hv
    have hfitted := (hs.onLine hm hv hrows).fitted hm hrows
    exact ⟨hfitted.readable, hfitted.toAligned.checksSuffice,
      (hs.usable hm hv hrows).call_inRange hB R hm hrows⟩

end Calls

/-- Bounds are set for a column that the list of lower bounds does not have. -/
theorem short_bounds_missed :
    ∃ p : Problem Extended, Problem.empty 0 1 = .ok p ∧ p.validate = .ok () ∧
      ((ProblemChange.bounds 0 0 1).call (p.after [.lower []])).result =
        .error (.fault .outOfRange) ∧
      p.rowInterval? 0 = none :=
  ⟨_, rfl, rfl, rfl, rfl⟩

/-- A problem with a list that is too short for one of two changes, and of the problem before that a
binding that is asked for rows that it does not have, and a sampler. -/
theorem upToOne_in_range :
    upToOne.Built ∧ upToOne.validate = .ok () ∧ exactEmbedded.BuiltIn ∧
    (let q := upToOne.after [.lower []]
     ¬ ((ProblemChange.bounds 0 0 1).call q).InRange ∧
     ((ProblemChange.bounds 1 0 1).call q).InRange ∧ q.text?.isSome ∧
     (q.rowInterval? 0).isSome ∧ ¬ (q.rowInterval? 1).isSome) ∧
    (∃ b : Binding exactEmbedded, (Binding.bind exactEmbedded () upToOne ()).result = .ok b ∧
      let cs := [.addBound 0 .greaterEq 0 .sessionOnly, .changeRhs [(7, 1)], .removeLast 9]
      (b.after cs).Readable ∧ (b.after cs).ChecksSuffice ∧
        ∀ c : Command Float, (c.call (b.after cs)).InRange) ∧
    ∃ s : Sampler exactEmbedded Random.Stream, Reached streams upToOne none s ∧
      s.binding.Readable ∧ s.binding.ChecksSuffice ∧
      ∀ c : SamplerCommand Float, (c.call streams s).InRange := by
  have hbuiltIn : exactEmbedded.BuiltIn := .embedded _
  obtain ⟨hchange, hread, -⟩ :=
    misses_only_in_short_lists hbuiltIn streams upToOne_built [.lower []]
  obtain ⟨-, -, -, hbindings, -, hsamplers⟩ :=
    misses_only_in_short_lists hbuiltIn streams upToOne_built []
  obtain ⟨s, hs⟩ := upToOne_reached
  obtain ⟨-, ⟨rows, hrows⟩, -⟩ := Problem.validate_eq_ok.1 upToOne_valid
  have hbind := Binding.bind_apply (B := exactEmbedded) () upToOne_valid rfl hrows ()
  have hb := congrArg Reply.result hbind
  refine ⟨upToOne_built, upToOne_valid, hbuiltIn, ⟨?_, ?_, ?_, ?_, ?_⟩,
    ⟨_, hb, (hbindings ()).2 _ _ hb⟩, s, hs, hsamplers none s hs⟩
  · rw [hchange]
    exact not_not_intro ⟨by decide, by decide⟩
  · exact (hchange _).2 fun h => absurd h.1 (by decide)
  · exact hread.text.2 ⟨⟨by decide, by decide⟩, by decide⟩
  · exact (hread.interval 0).2 ⟨by decide, by decide⟩
  · exact fun h => absurd ((hread.interval 1).1 h).1 (by decide)

end LinProg.Sampler
