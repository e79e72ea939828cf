import LinProg.Proofs.Scalar.Binary
import LinProg.Proofs.Text.Decimal
import LinProg.Proofs.Text.Sum

/-!
The numerals of binary floating-point numbers. The reals that round to a number form a span,
seventeen digits are enough for a decimal in it, and the spans of different numbers have nothing in
common.
-/

namespace LinProg.Binary

open Float.Model (UnpackedFloat Format)
open Float.Model.UnpackedFloat

theorem scaled_eq (m e : Int) : scaled m e = m * (2 : Rat) ^ e := by
  rw [scaled, zpow_eq_ite]
  split
  · simp
  · simp [Rat.mkRat_eq_div, div_eq_mul_inv]

/-- How a finite number is unpacked: with all its bits, but for the smallest exponent. -/
structure Canonical (m : Nat) (e : Int) : Prop where
  pos : 0 < m
  lt : m < 2 ^ 53
  le : -1074 ≤ e
  full : 2 ^ 52 ≤ m ∨ e = -1074

theorem span_high (m : Nat) (e : Int) : (span m e).high = (m + 1 / 2) * (2 : Rat) ^ e := by
  simp only [span, scaled_eq]
  rw [zpow_sub_one₀ (by norm_num)]
  push_cast
  ring

theorem span_low {m : Nat} {e : Int} (h : ¬ (m = 2 ^ 52 ∧ -1074 < e)) :
    (span m e).low = (m - 1 / 2) * (2 : Rat) ^ e := by
  simp only [span, scaled_eq]
  rw [if_neg (by simpa using h), zpow_sub_one₀ (by norm_num)]
  push_cast
  ring

theorem span_low_power {m : Nat} {e : Int} (h : m = 2 ^ 52 ∧ -1074 < e) :
    (span m e).low = (m - 1 / 4) * (2 : Rat) ^ e := by
  simp only [span, scaled_eq]
  rw [if_pos (by simpa using h), zpow_sub₀ (by norm_num)]
  push_cast
  ring

theorem le_of_holds {s : Span} {q : Rat} (h : s.holds q = true) : s.low ≤ q ∧ q ≤ s.high := by
  rw [Span.holds] at h
  split at h
  · simpa using h
  · simp only [Bool.and_eq_true, decide_eq_true_eq] at h
    exact ⟨h.1.le, h.2.le⟩

theorem lt_of_holds {s : Span} {q : Rat} (h : s.holds q = true) (hs : s.closed = false) :
    s.low < q ∧ q < s.high := by
  simpa [Span.holds, hs] using h

theorem holds_of_lt {s : Span} {q : Rat} (hl : s.low < q) (hh : q < s.high) : s.holds q = true := by
  rw [Span.holds]
  split
  · simpa using ⟨hl.le, hh.le⟩
  · simpa using ⟨hl, hh⟩

/-- Two spans with nothing in common, of which the first is the lower one. -/
def Apart (s s' : Span) : Prop :=
  s.high < s'.low ∨ s.high = s'.low ∧ (s.closed = false ∨ s'.closed = false)

theorem Apart.not_holds {s s' : Span} (h : Apart s s') {q : Rat} (hq : s.holds q = true) :
    s'.holds q = false := by
  by_contra hq'
  rw [Bool.not_eq_false] at hq'
  have hle := (le_of_holds hq).2
  have hle' := (le_of_holds hq').1
  obtain hlt | ⟨heq, hopen | hopen⟩ := h
  · linarith
  · have hlt := (lt_of_holds hq hopen).2
    linarith
  · have hlt := (lt_of_holds hq' hopen).1
    linarith

theorem closed_eq_false {m : Nat} {e : Int} (h : m % 2 = 1) : (span m e).closed = false := by
  simp [span, h]

variable {m m' : Nat} {e e' : Int}

/-- Neighbours are not both even, so one of them leaves the end that they share to the other. -/
theorem apart_of_lt (h : Canonical m e) (hm : m < m') : Apart (span m e) (span m' e) := by
  have hpow : 0 < (2 : Rat) ^ e := by positivity
  have hlow : ¬ (m' = 2 ^ 52 ∧ -1074 < e) := by
    have hfull := h.full
    omega
  rw [Apart, span_high, span_low hlow]
  obtain hnext | hnext := Nat.lt_or_ge (m + 1) m'
  · left
    have hcast : (m : Rat) + 2 ≤ m' := by exact_mod_cast hnext
    nlinarith
  · obtain rfl : m' = m + 1 := by omega
    right
    refine ⟨by push_cast; ring, ?_⟩
    obtain hodd | hodd : m % 2 = 1 ∨ (m + 1) % 2 = 1 := by omega
    · exact .inl (closed_eq_false hodd)
    · exact .inr (closed_eq_false hodd)

theorem apart_of_exponent_lt (h : Canonical m e) (h' : Canonical m' e') (he : e < e') :
    Apart (span m e) (span m' e') := by
  have hpow : 0 < (2 : Rat) ^ e := by positivity
  have hdouble : 2 * (2 : Rat) ^ e ≤ (2 : Rat) ^ e' := by
    rw [← zpow_one_add₀ (by norm_num)]
    exact zpow_le_zpow_right₀ (by norm_num) (by omega)
  have hfull : 2 ^ 52 ≤ m' := h'.full.resolve_right (by have := h.le; omega)
  have hm : (m : Rat) ≤ 2 ^ 53 - 1 := by
    have hlt : m + 1 ≤ 2 ^ 53 := h.lt
    have hcast : (m : Rat) + 1 ≤ 2 ^ 53 := by exact_mod_cast hlt
    linarith
  rw [Apart, span_high]
  obtain rfl | hlt := hfull.eq_or_lt
  · -- the lower neighbour of a power of two has the last number of the smaller exponent
    rw [span_low_power ⟨rfl, by have := h.le; omega⟩]
    have hlow : (2 ^ 53 - 1 / 2) * (2 : Rat) ^ e ≤ ((2 ^ 52 : Nat) - 1 / 4) * (2 : Rat) ^ e' := by
      push_cast
      nlinarith
    obtain hodd | heven := Nat.mod_two_eq_zero_or_one m |>.symm
    · have hle : (m + 1 / 2) * (2 : Rat) ^ e ≤ (2 ^ 53 - 1 / 2) * (2 : Rat) ^ e := by nlinarith
      obtain hlt | heq := (hle.trans hlow).lt_or_eq
      · exact .inl hlt
      · exact .inr ⟨heq, .inl (closed_eq_false hodd)⟩
    · have hlt : m + 2 ≤ 2 ^ 53 := by have := h.lt; omega
      have hcast : (m : Rat) + 2 ≤ 2 ^ 53 := by exact_mod_cast hlt
      left
      nlinarith
  · rw [span_low (by omega)]
    have hcast : (2 : Rat) ^ 52 + 1 ≤ m' := by exact_mod_cast hlt
    left
    nlinarith

theorem span_unique (h : Canonical m e) (h' : Canonical m' e') {q : Rat}
    (hq : (span m e).holds q = true) (hq' : (span m' e').holds q = true) : m = m' ∧ e = e' := by
  have hno {s s' : Span} (hs : s.holds q = true) (hs' : s'.holds q = true) : ¬ Apart s s' :=
    fun hapart => by simp [hapart.not_holds hs] at hs'
  obtain hlt | rfl | hlt := lt_trichotomy e e'
  · exact absurd (apart_of_exponent_lt h h' hlt) (hno hq hq')
  · obtain hlt | rfl | hlt := lt_trichotomy m m'
    · exact absurd (apart_of_lt h hlt) (hno hq hq')
    · exact ⟨rfl, rfl⟩
    · exact absurd (apart_of_lt h' hlt) (hno hq' hq)
  · exact absurd (apart_of_exponent_lt h' h hlt) (hno hq' hq)

/-- Of the neighbours with seventeen digits, one is nearer than the ends of the span. -/
theorem withDigits?_ne_none (h : Canonical m e) :
    Decimal.withDigits? (scaled m e) (span m e) 17 ≠ none := by
  let q := scaled m e
  let unit := (10 : Rat) ^ (Decimal.magnitude q - (17 : Nat))
  have hq : q = m * (2 : Rat) ^ e := by simpa using scaled_eq m e
  have hpow : 0 < (2 : Rat) ^ e := by positivity
  have hpos : 0 < q := by
    have hm : (0 : Rat) < m := by exact_mod_cast h.pos
    rw [hq]
    positivity
  have hunit : unit * 10 ^ 16 ≤ q := by
    calc unit * 10 ^ 16 = (10 : Rat) ^ (Decimal.magnitude q - 1) := by
          rw [← zpow_natCast, ← zpow_add₀ (by norm_num)]
          congr 1
          push_cast
          ring
      _ ≤ q := Decimal.pow_magnitude_le hpos
  obtain ⟨hbelow, habove⟩ := Decimal.between_neighbours hpos.le 17
  have hwidth : (Decimal.above q 17).value = (Decimal.below q 17).value + unit :=
    Decimal.value_above q 17
  have hhigh : (span m e).high = q + 1 / 2 * (2 : Rat) ^ e := by
    rw [span_high, hq]
    ring
  rw [Ne, Decimal.withDigits?_eq_none]
  rintro ⟨hno, hno'⟩
  by_cases hpower : m = 2 ^ 52 ∧ -1074 < e
  · have hlow : (span m e).low = q - 1 / 4 * (2 : Rat) ^ e := by
      rw [span_low_power hpower, hq]
      ring
    have hcast : (m : Rat) = 2 ^ 52 := by exact_mod_cast hpower.1
    rw [holds_of_lt (by linarith) (by rw [hcast] at hq; linarith)] at hno'
    cases hno'
  · have hlow : (span m e).low = q - 1 / 2 * (2 : Rat) ^ e := by
      rw [span_low hpower, hq]
      ring
    have hsmall : unit < (2 : Rat) ^ e := by
      have hcast : (m : Rat) < 2 ^ 53 := by exact_mod_cast h.lt
      nlinarith
    obtain hnear | hfar := lt_or_ge (Decimal.above q 17).value (q + 1 / 2 * (2 : Rat) ^ e)
    · rw [holds_of_lt (by linarith) (by linarith)] at hno'
      cases hno'
    · rw [holds_of_lt (by linarith) (by linarith)] at hno
      cases hno

theorem holds_digits (h : Canonical m e) : (span m e).holds (digits m e).value = true := by
  rw [digits, Decimal.value_reduced]
  exact Decimal.holds_shortest (by decide : 16 < 17) (withDigits?_ne_none h)

theorem value_digits_pos (h : Canonical m e) : 0 < (digits m e).value := by
  have hpow : 0 < (2 : Rat) ^ e := by positivity
  have hm : (1 : Rat) ≤ m := by exact_mod_cast h.pos
  refine lt_of_lt_of_le ?_ (le_of_holds (holds_digits h)).1
  by_cases hpower : m = 2 ^ 52 ∧ -1074 < e
  · rw [span_low_power hpower]
    exact mul_pos (by linarith) hpow
  · rw [span_low hpower]
    exact mul_pos (by linarith) hpow

def sign? : UnpackedFloat → Option Sign
  | .notANumber => none
  | .infinity s | .zero s | .finite s _ _ _ => some s

def unsigned : UnpackedFloat → String
  | .notANumber => "NaN"
  | .infinity _ => "inf"
  | .zero _ => Decimal.positional ⟨0, 0⟩
  | .finite _ m e _ => (digits m e).positional

def bothMarks : Sign → String
  | .negative => "-"
  | .positive => "+"

def marked (marks : Sign → String) (u : UnpackedFloat) : String :=
  (sign? u).elim "" marks ++ unsigned u

theorem text_eq (u : UnpackedFloat) : text Decimal.positional u = marked mark u := by
  cases u <;> rfl

theorem plus_append_text (u : UnpackedFloat) :
    plus u ++ text Decimal.positional u = marked bothMarks u := by
  rw [text_eq, marked, marked, ← String.append_assoc]
  congr 1
  cases u with
  | notANumber => rfl
  | infinity s | zero s | finite s m e hm => cases s <;> rfl

/-- A number, with its finite values as they are unpacked. -/
def IsUnpacked : UnpackedFloat → Prop
  | .finite _ m e _ => Canonical m e
  | _ => True

theorem isUnpacked_unpack (b : BitVec Format.binary64.numBits) :
    IsUnpacked (unpack Format.binary64 b) := by
  have hbias : Format.binary64.exponentBias = 1023 := by decide
  have hbits : (unpackMantissa b).toNat < 2 ^ 52 := (unpackMantissa b).isLt
  simp only [unpack]
  split
  · split <;> trivial
  · split
    · split
      · trivial
      · rename_i hexponent hmantissa
        have hpos : (unpackMantissa b).toNat ≠ 0 := fun h => hmantissa (BitVec.eq_of_toNat_eq h)
        have hzero : (unpackExponent b).toNat = 0 := by rw [hexponent]; rfl
        refine ⟨Nat.pos_of_ne_zero hpos, by omega, ?_, .inr ?_⟩
        · rw [hzero, hbias]
          decide
        · rw [hzero, hbias]
          decide
    · rename_i hexponent
      have hpos : (unpackExponent b).toNat ≠ 0 := fun h => hexponent (BitVec.eq_of_toNat_eq h)
      have hvalue : (1#1 ++ unpackMantissa b).toNat = 2 ^ 52 + (unpackMantissa b).toNat := by
        rw [BitVec.toNat_append, ← Nat.shiftLeft_add_eq_or_of_lt hbits]
        rfl
      refine ⟨by omega, by omega, ?_, .inl (by omega)⟩
      rw [hbias]
      omega

theorem positional_ne {c : Char} {w : String} (hc : c ∈ w.toList) (hdigit : c.isDigit = false)
    (hpoint : c ≠ '.') (d : Decimal) : d.positional ≠ w := by
  rintro rfl
  obtain h | h := Decimal.isDigit_or_point hc
  · simp [h] at hdigit
  · exact hpoint h

theorem inf_ne_positional (d : Decimal) : "inf" ≠ d.positional :=
  (positional_ne (c := 'i') (by decide) (by decide) (by decide) d).symm

theorem eq_of_unsigned {u v : UnpackedFloat} (hu : IsUnpacked u) (hv : IsUnpacked v)
    (h : unsigned u = unsigned v) (hs : sign? u = sign? v) : u = v := by
  have hzero {m : Nat} {e : Int} (hm : Canonical m e) :
      Decimal.positional ⟨0, 0⟩ ≠ (digits m e).positional := by
    intro heq
    have hpos := value_digits_pos hm
    rw [← Decimal.value_eq_of_positional heq, Decimal.value_eq] at hpos
    simp at hpos
  cases u <;> cases v <;> cases hs
  case notANumber.notANumber => rfl
  case infinity.infinity => rfl
  case infinity.zero => exact absurd h (inf_ne_positional ⟨0, 0⟩)
  case infinity.finite => exact absurd h (inf_ne_positional _)
  case zero.infinity => exact absurd h.symm (inf_ne_positional ⟨0, 0⟩)
  case zero.zero => rfl
  case zero.finite => exact absurd h (hzero hv)
  case finite.infinity => exact absurd h.symm (inf_ne_positional _)
  case finite.zero => exact absurd h.symm (hzero hu)
  case finite.finite s m e hm m' e' hm' =>
    have hvalue := holds_digits hu
    rw [Decimal.value_eq_of_positional h] at hvalue
    obtain ⟨rfl, rfl⟩ := span_unique hu hv hvalue (holds_digits hv)
    rfl

theorem unsigned_eq_nan {u : UnpackedFloat} : unsigned u = "NaN" ↔ sign? u = none := by
  have hne (d : Decimal) : d.positional ≠ "NaN" :=
    positional_ne (c := 'N') (by decide) (by decide) (by decide) d
  cases u with
  | notANumber => exact ⟨fun _ => rfl, fun _ => rfl⟩
  | infinity s => simp [unsigned, sign?]
  | zero s => simpa [unsigned, sign?] using hne ⟨0, 0⟩
  | finite s m e hm => simpa [unsigned, sign?] using hne _

theorem isAlphanum_or_point {u : UnpackedFloat} {c : Char} (h : c ∈ (unsigned u).toList) :
    c.isAlphanum = true ∨ c = '.' := by
  have hpositional (d : Decimal) (h : c ∈ d.positional.toList) : c.isAlphanum = true ∨ c = '.' :=
    (Decimal.isDigit_or_point h).imp_left fun hdigit => by simp [Char.isAlphanum, hdigit]
  have hword {w : String} (hw : w.toList.all Char.isAlphanum = true) (h : c ∈ w.toList) :
      c.isAlphanum = true ∨ c = '.' :=
    .inl (List.all_eq_true.1 hw c h)
  cases u with
  | notANumber => exact hword (w := "NaN") (by decide) h
  | infinity s => exact hword (w := "inf") (by decide) h
  | zero s => exact hpositional ⟨0, 0⟩ h
  | finite s m e hm => exact hpositional _ h

structure Marks (marks : Sign → String) : Prop where
  injective : Function.Injective marks
  chars : ∀ s, ∀ c ∈ (marks s).toList, c = '+' ∨ c = '-'

theorem marks_mark : Marks mark where
  injective := by rintro (_ | _) (_ | _) <;> simp [mark]
  chars := by rintro (_ | _) <;> simp [mark]

theorem marks_bothMarks : Marks bothMarks where
  injective := by rintro (_ | _) (_ | _) <;> simp [bothMarks]
  chars := by rintro (_ | _) <;> simp [bothMarks]

variable {marks : Sign → String}

theorem Marks.mem_mark (h : Marks marks) {u : UnpackedFloat} :
    ∀ c ∈ ((sign? u).elim "" marks).toList, c = '+' ∨ c = '-' := by
  cases sign? u with
  | none => simp
  | some s => exact h.chars s

theorem Marks.isWord (h : Marks marks) (u : UnpackedFloat) : Text.IsWord (marked marks u) := by
  refine Text.IsWord.append (fun c hc => ?_) fun c hc => ?_
  · obtain rfl | rfl := h.mem_mark c hc <;> decide
  · obtain halphanum | rfl := isAlphanum_or_point hc
    · exact Text.isBlank_of_isAlphanum halphanum
    · decide

theorem Marks.marked_inj (hmarks : Marks marks) {u v : UnpackedFloat} (hu : IsUnpacked u)
    (hv : IsUnpacked v) (h : marked marks u = marked marks v) : u = v := by
  have hrest (w : UnpackedFloat) : ∀ c ∈ (unsigned w).toList, ¬ (c = '+' ∨ c = '-') := by
    rintro c hc (rfl | rfl)
    · exact absurd (isAlphanum_or_point hc) (by decide)
    · exact absurd (isAlphanum_or_point hc) (by decide)
  rw [marked, marked, ← String.toList_inj, String.toList_append, String.toList_append] at h
  obtain ⟨hsign, hunsigned⟩ := eq_of_append hmarks.mem_mark hmarks.mem_mark (hrest u) (hrest v) h
  rw [String.toList_inj] at hsign hunsigned
  have hnone : sign? u = none ↔ sign? v = none := by
    rw [← unsigned_eq_nan, hunsigned, unsigned_eq_nan]
  refine eq_of_unsigned hu hv hunsigned ?_
  cases hsu : sign? u with
  | none => exact (hnone.1 hsu).symm
  | some s =>
    cases hsv : sign? v with
    | none => simp [hnone.2 hsv] at hsu
    | some s' =>
      rw [hsu, hsv] at hsign
      exact congrArg some (hmarks.injective hsign)

theorem marked_bothMarks_ne_zero (u : UnpackedFloat) : marked bothMarks u ≠ "0" := by
  rw [marked]
  cases h : sign? u with
  | none =>
    rw [unsigned_eq_nan.2 h]
    decide
  | some s =>
    intro heq
    have hfirst := congrArg (fun w => w.toList.head?) heq
    cases s <;> simp [bothMarks] at hfirst

theorem eq_of_exact {u v : UnpackedFloat} (hu : (exact u).isFinite = false)
    (h : exact u = exact v) : u = v := by
  cases u with
  | zero s => cases hu
  | finite s m e hm => cases hu
  | notANumber =>
    cases v with
    | notANumber => rfl
    | infinity s => cases s <;> cases h
    | zero s => cases h
    | finite s m e hm => cases h
  | infinity s =>
    cases v with
    | notANumber => cases s <;> cases h
    | infinity s' => cases s <;> cases s' <;> simp [exact] at h ⊢
    | zero s' => cases s <;> cases h
    | finite s' m e hm => cases s <;> cases h

end LinProg.Binary

namespace LinProg

open Binary

instance : LawfulNumeral Float where
  plain_injective x y h := by
    simp only [Numeral.plain, text_eq] at h
    exact unpack_injective
      (marks_mark.marked_inj (isUnpacked_unpack _) (isUnpacked_unpack _) h)
  signed_injective x y h := by
    simp only [Numeral.signed, plus_append_text] at h
    exact unpack_injective
      (marks_bothMarks.marked_inj (isUnpacked_unpack _) (isUnpacked_unpack _) h)
  isWord_plain x := by
    simpa only [Numeral.plain, text_eq] using marks_mark.isWord _
  isWord_signed x := by
    simpa only [Numeral.signed, plus_append_text] using marks_bothMarks.isWord _
  plain_negInf := by
    decide +kernel
  signed_ne_zero x h := by
    simp only [Numeral.signed, plus_append_text] at h
    exact marked_bothMarks_ne_zero _ h
  eq_of_infinite hx h := unpack_injective (eq_of_exact hx h)

end LinProg
