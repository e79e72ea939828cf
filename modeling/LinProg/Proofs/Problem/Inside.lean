import LinProg.Proofs.Matrix.Row
import LinProg.Proofs.Problem.Valid
import LinProg.Proofs.Scalar.Interval
import LinProg.Sampler.Walk
import Mathlib.Tactic.Ring

/-!
Points inside of problems and of models, with numbers that do not round. What is inside of a problem
is convex: a part of the way from one point to another is inside if both points are.
-/

namespace LinProg

namespace Extended

theorem add_eq_fin {a b : Extended} {q : Rat} :
    a + b = .fin q ↔ ∃ p r, a = .fin p ∧ b = .fin r ∧ p + r = q := by
  constructor
  · intro h
    cases a with
    | fin p =>
      cases b with
      | fin r => exact ⟨p, r, rfl, rfl, Extended.fin.inj h⟩
      | _ => cases h
    | _ => cases b <;> cases h
  · rintro ⟨p, r, rfl, rfl, rfl⟩
    rfl

theorem mul_fin_eq_fin {a : Extended} {p q : Rat} :
    a * .fin p = .fin q ↔ ∃ w, a = .fin w ∧ w * p = q := by
  have hsigned (x y : Extended) (hx : x ≠ .fin q) (hy : y ≠ .fin q) : signed p x y ≠ .fin q := by
    rw [signed]
    split
    · exact Extended.noConfusion
    · split
      · exact hx
      · exact hy
  constructor
  · intro h
    cases a with
    | fin w => exact ⟨w, rfl, Extended.fin.inj h⟩
    | nan => cases h
    | posInf => exact absurd h (hsigned _ _ Extended.noConfusion Extended.noConfusion)
    | negInf => exact absurd h (hsigned _ _ Extended.noConfusion Extended.noConfusion)
  · rintro ⟨w, rfl, rfl⟩
    rfl

end Extended

/-- Numbers that do not round. -/
def exactly (x : List Rat) : List Extended :=
  x.map .fin

def partway (u : Rat) (x y : List Rat) : List Rat :=
  x.zipWith (fun a b => a + u * (b - a)) y

theorem toward_exactly (u : Rat) {x y : List Rat} (h : x.length = y.length) :
    Sampler.toward (.fin u) (exactly x) (exactly y) = exactly (partway u x y) := by
  induction x generalizing y with
  | nil => rfl
  | cons a x ih =>
    cases y with
    | nil => simp at h
    | cons b y =>
      have hrest := ih (Nat.succ.inj h)
      simp only [exactly, partway] at hrest
      simp [exactly, partway, Sampler.toward, hrest]

theorem getElem?_partway {u : Rat} {x y : List Rat} {k : Nat} {a b : Rat} (ha : x[k]? = some a)
    (hb : y[k]? = some b) : (partway u x y)[k]? = some (a + u * (b - a)) := by
  simp [partway, List.getElem?_zipWith, ha, hb]

theorem length_partway (u : Rat) {x y : List Rat} (h : x.length = y.length) :
    (partway u x y).length = x.length := by
  simp [partway, h]

namespace Scalar

/-- Only numbers that are finite have a finite sum. -/
theorem foldl_add_eq_fin {a : Extended} {xs : List Extended} {q : Rat} :
    xs.foldl (· + ·) a = .fin q ↔ ∃ p qs, a = .fin p ∧ xs = exactly qs ∧ p + qs.sum = q := by
  induction xs generalizing a with
  | nil => simp [exactly, eq_comm]
  | cons x xs ih =>
    rw [List.foldl_cons, ih]
    constructor
    · rintro ⟨r, qs, hr, rfl, rfl⟩
      obtain ⟨p, w, rfl, rfl, rfl⟩ := Extended.add_eq_fin.1 hr
      exact ⟨p, w :: qs, rfl, rfl, by simp [add_assoc]⟩
    · rintro ⟨p, qs, rfl, hqs, rfl⟩
      cases qs with
      | nil => simp [exactly] at hqs
      | cons w qs =>
        obtain ⟨rfl, rfl⟩ := List.cons.inj hqs
        exact ⟨p + w, qs, rfl, rfl, by simp [add_assoc]⟩

theorem sum_eq_fin {xs : List Extended} {q : Rat} :
    sum xs = .fin q ↔ ∃ qs, xs = exactly qs ∧ qs.sum = q := by
  rw [sum, foldl_add_eq_fin]
  constructor
  · rintro ⟨p, qs, hp, rfl, rfl⟩
    obtain rfl : 0 = p := Extended.fin.inj hp
    exact ⟨qs, rfl, by simp⟩
  · rintro ⟨qs, rfl, rfl⟩
    exact ⟨0, qs, rfl, rfl, by simp⟩

end Scalar

namespace SparseRow

def Weighs (row : SparseRow Extended) (x : List Rat) (q : Rat) : Prop :=
  row.activity? (exactly x) = some (.fin q)

theorem weighs_nil {x : List Rat} {q : Rat} : Weighs [] x q ↔ q = 0 := by
  simp [Weighs, activity?, Scalar.sum, Extended.zero_def, eq_comm]

theorem weighs_iff {row : SparseRow Extended} {x : List Rat} {q : Rat} :
    row.Weighs x q ↔ ∃ qs, row.mapM (fun t => (exactly x)[t.1]?.map (t.2 * ·)) =
      some (exactly qs) ∧ qs.sum = q := by
  rw [Weighs, activity?, Option.map_eq_some_iff]
  constructor
  · rintro ⟨xs, hxs, hsum⟩
    obtain ⟨qs, rfl, rfl⟩ := Scalar.sum_eq_fin.1 hsum
    exact ⟨qs, hxs, rfl⟩
  · rintro ⟨qs, hqs, rfl⟩
    exact ⟨exactly qs, hqs, Scalar.sum_eq_fin.2 ⟨qs, rfl, rfl⟩⟩

theorem weighs_cons {t : Nat × Extended} {row : SparseRow Extended} {x : List Rat} {q : Rat} :
    Weighs (t :: row) x q ↔
      ∃ w a p, t.2 = .fin w ∧ x[t.1]? = some a ∧ row.Weighs x p ∧ w * a + p = q := by
  rw [weighs_iff]
  simp only [List.mapM_cons, weighs_iff, Option.bind_eq_bind, Option.bind_eq_some_iff,
    Option.map_eq_some_iff, Option.pure_def, Option.some.injEq, exactly, List.getElem?_map]
  constructor
  · rintro ⟨qs, ⟨_, ⟨_, ⟨a, ha, rfl⟩, rfl⟩, xs, hxs, hqs⟩, rfl⟩
    cases qs with
    | nil => simp at hqs
    | cons v qs =>
      obtain ⟨hv, rfl⟩ := List.cons.inj hqs
      obtain ⟨w, hw, rfl⟩ := Extended.mul_fin_eq_fin.1 hv
      exact ⟨w, a, qs.sum, hw, ha, ⟨qs, hxs, rfl⟩, by simp⟩
  · rintro ⟨w, a, _, hw, ha, ⟨qs, hqs, rfl⟩, rfl⟩
    refine ⟨w * a :: qs, ⟨_, ⟨_, ⟨a, ha, rfl⟩, rfl⟩, _, hqs, ?_⟩, by simp⟩
    simp [hw]

theorem Weighs.partway {row : SparseRow Extended} {x y : List Rat} {p q u : Rat}
    (hp : row.Weighs x p) (hq : row.Weighs y q) :
    row.Weighs (partway u x y) (p + u * (q - p)) := by
  induction row generalizing p q with
  | nil =>
    obtain rfl := weighs_nil.1 hp
    obtain rfl := weighs_nil.1 hq
    exact weighs_nil.2 (by ring)
  | cons t row ih =>
    obtain ⟨w, a, p', hw, ha, hp', rfl⟩ := weighs_cons.1 hp
    obtain ⟨w', b, q', hw', hb, hq', rfl⟩ := weighs_cons.1 hq
    obtain rfl : w = w' := Extended.fin.inj (hw.symm.trans hw')
    refine weighs_cons.2 ⟨w, _, _, hw, getElem?_partway ha hb, ih hp' hq', ?_⟩
    ring

theorem Weighs.take {row : SparseRow Extended} {n : Nat} {x : List Rat} {q : Rat}
    (h : row.Weighs x q) (hrow : ∀ t ∈ row, t.1 < n) : row.Weighs (x.take n) q := by
  induction row generalizing q with
  | nil => exact weighs_nil.2 (weighs_nil.1 h)
  | cons t row ih =>
    obtain ⟨ht, hrow⟩ := List.forall_mem_cons.1 hrow
    obtain ⟨w, a, p, hw, ha, hp, rfl⟩ := weighs_cons.1 h
    have ha' : (x.take n)[t.1]? = some a := by
      rw [List.getElem?_take_of_lt ht, ha]
    exact weighs_cons.2 ⟨w, a, p, hw, ha', ih hp hrow, rfl⟩

end SparseRow

def Within : Option Extended → Option (Interval Extended) → Prop
  | some (.fin q), some i => Interval.Contains i q
  | _, _ => False

instance : (v : Option Extended) → (i : Option (Interval Extended)) → Decidable (Within v i)
  | some (.fin q), some i => inferInstanceAs (Decidable (Interval.Contains i q))
  | some (.fin _), none | some .nan, _ | some .negInf, _ | some .posInf, _ | none, _ =>
    .isFalse (by simp [Within])

theorem within_iff {v : Option Extended} {i : Option (Interval Extended)} :
    Within v i ↔ ∃ q j, v = some (.fin q) ∧ i = some j ∧ Interval.Contains j q := by
  constructor
  · intro h
    match v, i, h with
    | some (.fin q), some j, h => exact ⟨q, j, rfl, rfl, h⟩
  · rintro ⟨q, j, rfl, rfl, h⟩
    exact h

theorem Within.part {v w : Option Extended} {i : Option (Interval Extended)} (hv : Within v i)
    (hw : Within w i) {u : Rat} (hu : 0 ≤ u) (hu' : u ≤ 1) : ∃ p q, v = some (.fin p) ∧
      w = some (.fin q) ∧ Within (some (.fin (p + u * (q - p)))) i := by
  obtain ⟨p, j, rfl, rfl, hp⟩ := within_iff.1 hv
  obtain ⟨q, j, rfl, ⟨⟩, hq⟩ := within_iff.1 hw
  exact ⟨p, q, rfl, rfl, hp.part hq hu hu'⟩

theorem getElem?_exactly {x : List Rat} {k : Nat} {q : Rat} :
    (exactly x)[k]? = some (.fin q) ↔ x[k]? = some q := by
  simp [exactly]

namespace Problem

def bounds? (p : Problem Extended) (column : Nat) : Option (Interval Extended) := do
  return (← p.lower[column]?, ← p.upper[column]?)

def activity? (p : Problem Extended) (row : Nat) (x : List Rat) : Option Extended := do
  (← p.matrix.row? row).activity? (exactly x)

structure Contains (p : Problem Extended) (x : List Rat) : Prop where
  length : x.length = p.columns
  bounds : ∀ k < p.columns, Within (exactly x)[k]? (p.bounds? k)
  rows : ∀ i < p.numRows, Within (p.activity? i x) (p.rowInterval? i)

theorem activity?_partway {p : Problem Extended} {row : Nat} {x y : List Rat} {a b u : Rat}
    (ha : p.activity? row x = some (.fin a)) (hb : p.activity? row y = some (.fin b)) :
    p.activity? row (partway u x y) = some (.fin (a + u * (b - a))) := by
  obtain ⟨terms, hterms, ha⟩ := Option.bind_eq_some_iff.1 ha
  obtain ⟨terms', hterms', hb⟩ := Option.bind_eq_some_iff.1 hb
  obtain rfl : terms = terms' := Option.some.inj (hterms.symm.trans hterms')
  exact Option.bind_eq_some_iff.2 ⟨terms, hterms, SparseRow.Weighs.partway ha hb⟩

theorem Contains.partway {p : Problem Extended} {x y : List Rat} (hx : p.Contains x)
    (hy : p.Contains y) {u : Rat} (hu : 0 ≤ u) (hu' : u ≤ 1) :
    p.Contains (partway u x y) where
  length := by rw [length_partway u (hx.length.trans hy.length.symm), hx.length]
  bounds := by
    intro k hk
    obtain ⟨a, b, ha, hb, hpart⟩ := (hx.bounds k hk).part (hy.bounds k hk) hu hu'
    have hk := getElem?_partway (u := u) (getElem?_exactly.1 ha) (getElem?_exactly.1 hb)
    rw [getElem?_exactly.2 hk]
    exact hpart
  rows := by
    intro i hi
    obtain ⟨a, b, ha, hb, hpart⟩ := (hx.rows i hi).part (hy.rows i hi) hu hu'
    rw [activity?_partway ha hb]
    exact hpart

def Holds (p : Problem Extended) (point : List Extended) : Prop :=
  ∃ x, point = exactly x ∧ p.Contains x

theorem Holds.toward {p : Problem Extended} {x y : List Extended} (hx : p.Holds x)
    (hy : p.Holds y) {u : Rat} (hu : 0 ≤ u) (hu' : u ≤ 1) :
    p.Holds (Sampler.toward (.fin u) x y) := by
  obtain ⟨x, rfl, hx⟩ := hx
  obtain ⟨y, rfl, hy⟩ := hy
  exact ⟨partway u x y, toward_exactly u (hx.length.trans hy.length.symm), hx.partway hy hu hu'⟩

end Problem

namespace Model

structure Admits (m : Model Extended) (x : List Rat) : Prop where
  length : x.length = m.numCols
  columns : ∀ k < m.numCols, Within (exactly x)[k]? (m.columnBounds? k)
  rows : ∀ r ∈ m.rows, Within (r.terms.activity? (exactly x)) (some r.interval)

instance (m : Model Extended) (x : List Rat) : Decidable (m.Admits x) :=
  decidable_of_iff (x.length = m.numCols ∧
      (∀ k < m.numCols, Within (exactly x)[k]? (m.columnBounds? k)) ∧
      ∀ r ∈ m.rows, Within (r.terms.activity? (exactly x)) (some r.interval))
    ⟨fun ⟨hl, hc, hr⟩ => ⟨hl, hc, hr⟩, fun ⟨hl, hc, hr⟩ => ⟨hl, hc, hr⟩⟩

end Model

/-- A run that ends as optimal has found values that the model admits. -/
def Backend.Sound (B : Backend Extended) : Prop :=
  ∀ m memory o memory', B.run m memory = (.ok o, memory') → B.classify o.code = .optimal →
    ∃ x, o.values = some (exactly x) ∧ m.Admits x

end LinProg
