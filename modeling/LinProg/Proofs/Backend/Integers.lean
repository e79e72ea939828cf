import LinProg.Proofs.Backend.Rows
import LinProg.Proofs.Binding.Runs
import Mathlib.Data.Rat.Floor

namespace LinProg

namespace Extended

variable {least greatest n : Int} {a : Extended}

theorem least_le_ceilWithin (ha : a ≠ .nan) (h : least ≤ greatest) :
    least ≤ a.ceilWithin least greatest := by
  cases a with
  | nan => exact absurd rfl ha
  | fin q => exact le_max_left _ _
  | negInf => exact le_rfl
  | posInf => exact h

theorem floorWithin_le_greatest (ha : a ≠ .nan) (h : least ≤ greatest) :
    a.floorWithin least greatest ≤ greatest := by
  cases a with
  | nan => exact absurd rfl ha
  | fin q => exact max_le h (min_le_left _ _)
  | negInf => exact h
  | posInf => exact le_rfl

theorem ceilWithin_le_iff (ha : a ≠ .nan) (hn : least ≤ n) :
    a.ceilWithin least greatest ≤ n ↔ greatest ≤ n ∨ a.le (.fin n) = true := by
  cases a with
  | nan => exact absurd rfl ha
  | fin q => simp [ceilWithin, hn, Rat.ceil_le_iff]
  | negInf => simp [ceilWithin, hn, le]
  | posInf => simp [ceilWithin, le]

theorem le_floorWithin_iff (ha : a ≠ .nan) (hn : n ≤ greatest) :
    n ≤ a.floorWithin least greatest ↔ n ≤ least ∨ (Extended.fin n).le a = true := by
  cases a with
  | nan => exact absurd rfl ha
  | fin q => simp [floorWithin, hn, Rat.le_floor_iff]
  | negInf => simp [floorWithin, le]
  | posInf => simp [floorWithin, hn, le]

end Extended

variable {α : Type} [Scalar α]

open Scalar

theorem Problem.badBounds_eq_false {bounds : Interval α} : badBounds bounds = false ↔
    Interval.IsProper bounds ∧ (value bounds.1).le (value bounds.2) = true := by
  rw [badBounds, Bool.or_eq_false_iff, Bool.or_eq_false_iff]
  refine and_congr_right fun h => ?_
  obtain ⟨hlower, hupper⟩ := Interval.isProper_iff.1 h
  rw [lt, Extended.lt_eq_not_le hupper hlower, Bool.not_eq_false']

theorem Scalar.le_greatest {b : α} (hb : value b ≠ .nan) (a : α) :
    (value b).le (value (greatest a b)) = true := by
  rw [greatest]
  split
  · exact Extended.le_refl hb
  · rename_i hnan
    have ha : value a ≠ .nan := isNaN_eq_false.1 (Bool.not_eq_true _ ▸ hnan)
    split
    · exact Extended.le_refl hb
    · rename_i hlt
      exact Extended.le_of_not_lt hb ha hlt

theorem Scalar.least_le {b : α} (hb : value b ≠ .nan) (a : α) :
    (value (least a b)).le (value b) = true := by
  rw [least]
  split
  · exact Extended.le_refl hb
  · rename_i hnan
    have ha : value a ≠ .nan := isNaN_eq_false.1 (Bool.not_eq_true _ ▸ hnan)
    split
    · exact Extended.le_refl hb
    · rename_i hlt
      exact Extended.le_of_not_lt ha hb hlt

namespace Embedded

def Domain.Admits : Domain α → Int → Prop
  | .real lower upper, n => Interval.Contains (lower, upper) n
  | .binary, n => n = 0 ∨ n = 1
  | .integer lower upper, n => lower ≤ n ∧ n ≤ upper

def Domain.SoundFor (d : Domain α) (bounds : Interval α) : Prop :=
  ∀ n, d.Admits n → Interval.Contains bounds n

/-- The variable may take all words within the bounds. -/
def Domain.CompleteFor (d : Domain α) (bounds : Interval α) : Prop :=
  ∀ n, leastInteger ≤ n → n ≤ greatestInteger → Interval.Contains bounds n → d.Admits n

def BeyondWords (bounds : Interval α) : Prop :=
  (Extended.fin greatestInteger).lt (value bounds.1) = true ∨
    (value bounds.2).lt (.fin leastInteger) = true

instance (bounds : Interval α) : Decidable (BeyondWords bounds) :=
  inferInstanceAs (Decidable (_ ∨ _))

variable {bounds : Interval α} {n : Int}

/-- The last word on a side may stand for whatever lies beyond it. -/
theorem admits_integer_iff (h : Interval.IsProper bounds) :
    (domain .integer bounds).Admits n ↔ (leastInteger ≤ n ∧ n ≤ greatestInteger) ∧
      (n = greatestInteger ∨ (value bounds.1).le (.fin n) = true) ∧
      (n = leastInteger ∨ (Extended.fin n).le (value bounds.2) = true) := by
  obtain ⟨hlower, hupper⟩ := Interval.isProper_iff.1 h
  have hwords : leastInteger ≤ greatestInteger := by decide
  constructor
  · rintro ⟨hle, hge⟩
    have hleast := (Extended.least_le_ceilWithin hlower hwords).trans hle
    have hgreatest := hge.trans (Extended.floorWithin_le_greatest hupper hwords)
    exact ⟨⟨hleast, hgreatest⟩,
      ((Extended.ceilWithin_le_iff hlower hleast).1 hle).imp_left hgreatest.antisymm,
      ((Extended.le_floorWithin_iff hupper hgreatest).1 hge).imp_left hleast.antisymm'⟩
  · rintro ⟨⟨hleast, hgreatest⟩, hle, hge⟩
    exact ⟨(Extended.ceilWithin_le_iff hlower hleast).2 (hle.imp_left ge_of_eq),
      (Extended.le_floorWithin_iff hupper hgreatest).2 (hge.imp_left le_of_eq)⟩

theorem completeFor_integer (h : Interval.IsProper bounds) :
    (domain .integer bounds).CompleteFor bounds := fun _ hleast hgreatest hn =>
  (admits_integer_iff h).2 ⟨⟨hleast, hgreatest⟩, .inr hn.1, .inr hn.2⟩

theorem soundFor_integer (h : Interval.IsProper bounds) (hbeyond : ¬ BeyondWords bounds) :
    (domain .integer bounds).SoundFor bounds := by
  obtain ⟨hlower, hupper⟩ := Interval.isProper_iff.1 h
  simp only [BeyondWords, Extended.lt_eq_not_le, ne_eq, hlower, hupper, reduceCtorEq,
    not_false_eq_true, not_or, Bool.not_eq_true', Bool.not_eq_false] at hbeyond
  intro n hn
  obtain ⟨-, hle, hge⟩ := (admits_integer_iff h).1 hn
  refine ⟨?_, ?_⟩
  · obtain rfl | hle := hle
    · exact hbeyond.1
    · exact hle
  · obtain rfl | hge := hge
    · exact hbeyond.2
    · exact hge

theorem not_soundFor_integer (h : Problem.badBounds bounds = false)
    (hbeyond : BeyondWords bounds) : ¬ (domain .integer bounds).SoundFor bounds := by
  obtain ⟨hproper, hordered⟩ := Problem.badBounds_eq_false.1 h
  intro hsound
  obtain habove | hbelow := hbeyond
  · simp only [Extended.lt, Bool.and_eq_true, Bool.not_eq_true'] at habove
    have hadmits := (admits_integer_iff hproper).2
      ⟨by decide, .inl rfl, .inr (Extended.le_trans habove.1 hordered)⟩
    simpa [habove.2] using (hsound greatestInteger hadmits).1
  · simp only [Extended.lt, Bool.and_eq_true, Bool.not_eq_true'] at hbelow
    have hadmits := (admits_integer_iff hproper).2
      ⟨by decide, .inr (Extended.le_trans hordered hbelow.1), .inl rfl⟩
    simpa [hbelow.2] using (hsound leastInteger hadmits).2

section Binary

variable [LawfulScalar α]

theorem domain_binary_cases (bounds : Interval α) :
    (domain .binary bounds = .binary ∧ value bounds.1 = .fin 0 ∧ value bounds.2 = .fin 1) ∨
      domain .binary bounds = domain .integer bounds := by
  cases h : same bounds.1 0 && same bounds.2 1 with
  | true =>
    obtain ⟨hlower, hupper⟩ := Bool.and_eq_true_iff.1 h
    have hzero := Extended.eq_of_same hlower
    have hone := Extended.eq_of_same hupper
    rw [LawfulScalar.value_zero] at hzero
    rw [LawfulScalar.value_one] at hone
    exact .inl ⟨if_pos h, hzero, hone⟩
  | false => exact .inr (if_neg (by simp [h]))

/-- Bounds that were brought between 0 and 1, whether or not they are in order. -/
structure Clamped (bounds : Interval α) : Prop where
  lower : (Extended.fin 0).le (value bounds.1) = true
  upper : (value bounds.2).le (.fin 1) = true

omit [LawfulScalar α] in
theorem Clamped.isProper (h : Clamped bounds) : Interval.IsProper bounds := by
  rw [Interval.isProper_iff]
  exact ⟨(Extended.ne_nan_of_le h.lower).2, (Extended.ne_nan_of_le h.upper).1⟩

theorem clamped_binary (lower upper : α) : Clamped (Model.kindBounds lower upper .binary) where
  lower := by
    have hzero : value (0 : α) ≠ .nan := by simp [LawfulScalar.value_zero]
    exact LawfulScalar.value_zero (α := α) ▸ le_greatest hzero lower
  upper := by
    have hone : value (1 : α) ≠ .nan := by simp [LawfulScalar.value_one]
    exact LawfulScalar.value_one (α := α) ▸ least_le hone upper

theorem soundFor_binary (h : Clamped bounds) : (domain .binary bounds).SoundFor bounds := by
  intro n hn
  obtain ⟨hdomain, hzero, hone⟩ | hdomain := domain_binary_cases bounds
  · rw [hdomain] at hn
    obtain rfl | rfl := hn <;> simp [Interval.Contains, hzero, hone]
  · rw [hdomain, admits_integer_iff h.isProper] at hn
    obtain ⟨-, hle, hge⟩ := hn
    have hone : n ≤ 1 := by
      obtain rfl | hge := hge
      · decide
      · exact_mod_cast of_decide_eq_true (Extended.le_trans hge h.upper)
    have hle := hle.resolve_left (by rintro rfl; exact absurd hone (by decide))
    have hzero : 0 ≤ n := by exact_mod_cast of_decide_eq_true (Extended.le_trans h.lower hle)
    have hge := hge.resolve_left (by rintro rfl; exact absurd hzero (by decide))
    exact ⟨hle, hge⟩

theorem completeFor_binary (h : Clamped bounds) :
    (domain .binary bounds).CompleteFor bounds := by
  obtain ⟨hdomain, hzero, hone⟩ | hdomain := domain_binary_cases bounds
  · rw [hdomain]
    intro n _ _ hn
    simp only [Interval.Contains, hzero, hone, Extended.fin_le_fin, decide_eq_true_eq] at hn
    have hle : 0 ≤ n := by exact_mod_cast hn.1
    have hge : n ≤ 1 := by exact_mod_cast hn.2
    change n = 0 ∨ n = 1
    omega
  · exact hdomain ▸ completeFor_integer h.isProper

theorem domain_spec {kind : ColumnKind} (hkind : kind.isInteger = true) {lower upper : α}
    (h : Problem.badBounds (lower, upper) = false) :
    let bounds := Model.kindBounds lower upper kind
    ((domain kind bounds).SoundFor bounds ↔ ¬ (kind = .integer ∧ BeyondWords bounds)) ∧
      (domain kind bounds).CompleteFor bounds := by
  intro bounds
  cases kind with
  | continuous => cases hkind
  | binary =>
    have hclamped := clamped_binary lower upper
    exact ⟨iff_of_true (soundFor_binary hclamped) (by simp), completeFor_binary hclamped⟩
  | integer =>
    have hproper := (Problem.badBounds_eq_false.1 h).1
    refine ⟨⟨fun hsound hbeyond => ?_, fun hwithin => ?_⟩, completeFor_integer hproper⟩
    · exact not_soundFor_integer h hbeyond.2 hsound
    · exact soundFor_integer hproper fun hbeyond => hwithin ⟨rfl, hbeyond⟩

end Binary

def columns? (m : Model α) : Option (List (Variable α)) :=
  m.objective.zipIdx.mapM fun (cost, column) => columnAt? m cost column

theorem columns_of_input {m : Model α} {e : Input α} (he : input? m = some e) :
    columns? m = some e.columns :=
  (of_input he).1

end Embedded

namespace Model

variable {m : Model α}

theorem Bounded.exists_columnBounds (h : m.Bounded) {k : Nat} {kind : ColumnKind}
    (hkind : m.kinds[k]? = some kind) : ∃ lower upper,
      m.columnBounds? k = some (kindBounds lower upper kind) ∧
        Problem.badBounds (lower, upper) = false := by
  have hk : k < m.numCols := h.kinds ▸ (List.getElem?_eq_some_iff.1 hkind).1
  obtain ⟨-, l, u, -, hl, hu⟩ := h.toColumnsFit.exists_bounds hk
  have hzip : (m.lower.zip m.upper)[k]? = some (l, u) := List.getElem?_zip_eq_some.2 ⟨hl, hu⟩
  exact ⟨l, u, columnBounds?_eq hkind hl hu, h.bounds _ (List.mem_of_getElem? hzip)⟩

theorem Bounded.isSome_columns (h : m.Bounded) : (Embedded.columns? m).isSome :=
  h.isSome_mapM_columns fun cost k kind bounds hkind hbounds => by
    simp [Embedded.columnAt?, hkind, hbounds]

theorem domain_of_columns {vs : List (Embedded.Variable α)} (hvs : Embedded.columns? m = some vs)
    (h : m.ColumnsFit) {k : Nat} {kind : ColumnKind} {bounds : Interval α}
    (hkind : m.kinds[k]? = some kind) (hbounds : m.columnBounds? k = some bounds) :
    ∃ v, vs[k]? = some v ∧ v.domain = Embedded.domain kind bounds := by
  have hk : k < m.numCols := h.kinds ▸ (List.getElem?_eq_some_iff.1 hkind).1
  rw [numCols] at hk
  refine ⟨⟨m.objective[k], Embedded.domain kind bounds⟩, ?_, rfl⟩
  rw [getElem?_of_mapM hvs]
  simp [hk, Embedded.columnAt?, hkind, hbounds]

end Model

namespace Binding

open Embedded

/-- The variables of the integer columns, whatever was called before and whatever a probe changes
for its run: they may take all words within the bounds of the column. They may take no others,
unless the column is integer and its bounds are beyond the words; then they may. -/
theorem integer_columns_sound [LawfulScalar α] (engine : Input α → Embedded.Answer α)
    {b : Binding (embedded engine)} (hb : b.Reachable) {m : Model α} (hm : b.Gives m) :
    ∃ vs, columns? m = some vs ∧ (∀ e, input? m = some e → e.columns = vs) ∧
      ∀ k kind, m.kinds[k]? = some kind → kind.isInteger = true →
        ∃ v bounds, vs[k]? = some v ∧ m.columnBounds? k = some bounds ∧
          (v.domain.SoundFor bounds ↔ ¬ (kind = .integer ∧ BeyondWords bounds)) ∧
          v.domain.CompleteFor bounds := by
  have hbounded := hb.bounded hm
  obtain ⟨vs, hvs⟩ := Option.isSome_iff_exists.1 hbounded.isSome_columns
  refine ⟨vs, hvs, fun e he => ?_, fun k kind hkind hinteger => ?_⟩
  · exact Option.some.inj ((columns_of_input he).symm.trans hvs)
  · obtain ⟨lower, upper, hbounds, hgood⟩ := hbounded.exists_columnBounds hkind
    obtain ⟨v, hv, hdomain⟩ := Model.domain_of_columns hvs hbounded.toColumnsFit hkind hbounds
    exact ⟨v, _, hv, hbounds, hdomain ▸ domain_spec hinteger hgood⟩

def oneInteger (lower upper : Rat) : Binding barren :=
  let p := { oneColumn with
    kind := .mixedLinear
    lower := [.fin lower]
    upper := [.fin upper]
    kinds := [.integer] }
  loaded barren () p []

theorem oneInteger_reachable {lower upper : Rat}
    (h : (oneInteger lower upper).problem.validate = .ok ()) :
    (oneInteger lower upper).Reachable := by
  have hrows : (oneInteger lower upper).problem.HasRows [] := ⟨rfl, rfl, rfl, rfl⟩
  have hbind := bind_apply (B := barren) () h rfl hrows ()
  exact .bound (congrArg Reply.result hbind)

/-- Bounds between the integers, before and after the column becomes binary. -/
theorem oneInteger_columns_sound :
    let b := oneInteger (1 / 2) (5 / 2)
    let b' := ((Command.changeKinds [.binary]).call b).state
    (b.Reachable ∧ columns? b.session.model = some [⟨.fin 1, .integer 1 2⟩] ∧
      (Domain.integer 1 2).SoundFor (Extended.fin (1 / 2), .fin (5 / 2)) ∧
      (Domain.integer 1 2).CompleteFor (Extended.fin (1 / 2), .fin (5 / 2))) ∧
    (b'.Reachable ∧ columns? b'.session.model = some [⟨.fin 1, .integer 1 1⟩] ∧
      (Domain.integer 1 1).SoundFor (Extended.fin (1 / 2), .fin 1) ∧
      (Domain.integer 1 1).CompleteFor (Extended.fin (1 / 2), .fin 1)) := by
  intro b b'
  have hb : b.Reachable := oneInteger_reachable (by decide +kernel)
  have hb' : b'.Reachable := hb.call _
  have hcolumns : columns? b.session.model = some [⟨.fin 1, .integer 1 2⟩] := by decide +kernel
  have hcolumns' : columns? b'.session.model = some [⟨.fin 1, .integer 1 1⟩] := by decide +kernel
  have hbounds' : b'.session.model.columnBounds? 0 = some (.fin (1 / 2), .fin 1) := by
    decide +kernel
  refine ⟨⟨hb, hcolumns, ?_⟩, hb', hcolumns', ?_⟩
  · obtain ⟨vs, hvs, -, hspec⟩ := integer_columns_sound _ hb (.inl rfl)
    obtain rfl := Option.some.inj (hvs.symm.trans hcolumns)
    obtain ⟨v, bounds, hv, hbounds, hsound, hcomplete⟩ := hspec 0 .integer rfl rfl
    obtain rfl := Option.some.inj hv
    obtain rfl := Option.some.inj hbounds
    exact ⟨hsound.2 (by decide +kernel), hcomplete⟩
  · obtain ⟨vs, hvs, -, hspec⟩ := integer_columns_sound _ hb' (.inl rfl)
    obtain rfl := Option.some.inj (hvs.symm.trans hcolumns')
    obtain ⟨v, bounds, hv, hbounds, hsound, hcomplete⟩ := hspec 0 .binary rfl rfl
    obtain rfl := Option.some.inj hv
    obtain rfl := Option.some.inj (hbounds.symm.trans hbounds')
    exact ⟨hsound.2 (by simp), hcomplete⟩

/-- Bounds beyond the words: the column may take the last word, which is below them. -/
theorem oneInteger_takes_last_word :
    let b := oneInteger 3000000000 4000000000
    b.Reachable ∧ b.session.model.kinds[0]? = some .integer ∧
      columns? b.session.model = some [⟨.fin 1, .integer 2147483647 2147483647⟩] ∧
      b.session.model.columnBounds? 0 = some (.fin 3000000000, .fin 4000000000) ∧
      (Domain.integer 2147483647 2147483647 : Domain Extended).Admits 2147483647 ∧
      ¬ Interval.Contains (Extended.fin 3000000000, .fin 4000000000) 2147483647 := by
  intro b
  have hb : b.Reachable := oneInteger_reachable (by decide +kernel)
  exact ⟨hb, rfl, rfl, rfl, ⟨by decide, by decide⟩, by decide⟩

end Binding

end LinProg
