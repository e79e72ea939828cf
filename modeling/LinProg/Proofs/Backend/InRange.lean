import LinProg.Backend.Searched
import LinProg.Proofs.Backend.Rows

namespace LinProg

variable {α : Type} [Scalar α]

theorem Searched.isSome_input {m : Model α} (h : m.WellFormed)
    (parameters : List (String × String)) : (input? parameters m).isSome := by
  have hcolumns := h.isSome_mapM_columns (f := columnAt? m) fun cost k kind bounds hkind hbounds =>
    by simp [columnAt?, hkind, hbounds]
  have hrows : (m.rows.mapM (row? m.numCols)).isSome :=
    h.isSome_mapM_rows fun r hterms => by simp [row?, hterms]
  obtain ⟨columns, hcolumns⟩ := Option.isSome_iff_exists.1 hcolumns
  obtain ⟨rows, hrows⟩ := Option.isSome_iff_exists.1 hrows
  simp [input?, hcolumns, hrows]

structure Model.Translated [Numeral α] (m : Model α) : Prop where
  embedded : (Embedded.input? m).isSome
  ranged : (Ranged.input? m).isSome
  searched : ∀ parameters, (Searched.input? parameters m).isSome
  written : (Written.input? m).isSome

theorem Model.WellFormed.translated [Numeral α] {m : Model α} (h : m.WellFormed) :
    m.Translated where
  embedded := Embedded.isSome_input h
  ranged := Ranged.isSome_input h
  searched := Searched.isSome_input h
  written := Written.isSome_input h.toColumnsFit

theorem Embedded.run_inRange {m : Model α} (h : m.WellFormed) (engine : Input α → Answer α) :
    run engine m ≠ .error (.fault .outOfRange) := by
  obtain ⟨input, hinput⟩ := Option.isSome_iff_exists.1 (isSome_input h)
  rw [run, hinput]
  split <;> simp

theorem Ranged.run_inRange {m : Model α} (h : m.WellFormed) (takes : Options → Input α → Bool)
    (engine : Input α → Answer α) (options : Options) :
    run takes engine options m ≠ .error (.fault .outOfRange) := by
  obtain ⟨input, hinput⟩ := Option.isSome_iff_exists.1 (isSome_input h)
  rw [run, accepted, hinput]
  cases htakes : takes options input <;> simp [htakes]

theorem Searched.run_inRange {m : Model α} (h : m.WellFormed) (engine : Input α → Answer α)
    (parameters : List (String × String)) :
    run engine parameters m ≠ .error (.fault .outOfRange) := by
  obtain ⟨input, hinput⟩ := Option.isSome_iff_exists.1 (isSome_input h parameters)
  rw [run, hinput]
  simp

theorem Written.run_inRange [Numeral α] {m : Model α} (h : m.ColumnsFit) {M : Type}
    (solver : Input α → M → Except String (Answer α) × M) (memory : M) :
    (run solver m memory).1 ≠ .error (.fault .outOfRange) := by
  obtain ⟨input, hinput⟩ := Option.isSome_iff_exists.1 (isSome_input h)
  simp only [run, hinput]
  cases (solver input memory).1 <;> simp

namespace Backend

inductive BuiltIn [Numeral α] : Backend α → Prop
  | embedded (engine : Embedded.Input α → Embedded.Answer α) : BuiltIn (embedded engine)
  | ranged (takes : Options → Ranged.Input α → Bool) (engine : Ranged.Input α → Ranged.Answer α)
    (options : Options) : BuiltIn (ranged takes engine options)
  | searched (engine : Searched.Input α → Searched.Answer α)
    (parameters : List (String × String)) : BuiltIn (searched engine parameters)
  | written {M : Type} (solver : Written.Input α → M → Except String (Written.Answer α) × M) :
    BuiltIn (written solver)

theorem BuiltIn.run_inRange [Numeral α] {B : Backend α} (hB : B.BuiltIn) {m : Model α}
    (hm : m.WellFormed) (memory : B.Memory) :
    (B.run m memory).1 ≠ .error (.fault .outOfRange) := by
  cases hB with
  | embedded engine => exact Embedded.run_inRange hm engine
  | ranged takes engine options => exact Ranged.run_inRange hm takes engine options
  | searched engine parameters => exact Searched.run_inRange hm engine parameters
  | written solver => exact Written.run_inRange hm.toColumnsFit solver memory

end Backend

end LinProg
