import Mathlib
import LinProg.Text.Decimal

namespace LinProg

theorem zpow_eq_ite (b : Rat) (e : Int) :
    b ^ e = if 0 ≤ e then b ^ e.toNat else (b ^ (-e).toNat)⁻¹ := by
  split
  · rename_i h
    rw [← zpow_natCast, Int.toNat_of_nonneg h]
  · rename_i h
    rw [← zpow_natCast, Int.toNat_of_nonneg (by omega), zpow_neg, inv_inv]

namespace Decimal

theorem power_eq (e : Int) : power e = (10 : Rat) ^ e := by
  rw [power, zpow_eq_ite]
  split
  · simp
  · simp [Rat.mkRat_eq_div]

theorem value_eq (d : Decimal) : d.value = d.digits * (10 : Rat) ^ d.exponent := by
  rw [value, power_eq]

theorem value_reduced (d : Decimal) (k : Nat) : (d.reduced k).value = d.value := by
  induction k generalizing d with
  | zero => rfl
  | succ k ih =>
    rw [reduced]
    split
    · rename_i h
      rw [ih, value_eq, value_eq, zpow_add_one₀ (by norm_num)]
      have hdigits : (d.digits : Rat) = (d.digits / 10 : Nat) * 10 := by
        exact_mod_cast (Nat.div_mul_cancel (Nat.dvd_of_mod_eq_zero h)).symm
      rw [hdigits]
      ring
    · rfl

def read (cs : List Char) : Decimal :=
  let whole := cs.takeWhile (· != '.')
  let places := (cs.dropWhile (· != '.')).tail
  ⟨Nat.ofDigitChars 10 (whole ++ places) 0, -places.length⟩

theorem bne_point {cs : List Char} (h : '.' ∉ cs) : ∀ c ∈ cs, (c != '.') = true := by
  intro c hc
  rw [bne_iff_ne]
  rintro rfl
  exact h hc

theorem read_of_notMem {cs : List Char} (h : '.' ∉ cs) :
    read cs = ⟨Nat.ofDigitChars 10 cs 0, 0⟩ := by
  have hwhole : cs.takeWhile (· != '.') = cs := List.takeWhile_eq_self_iff.2 (bne_point h)
  have hplaces : cs.dropWhile (· != '.') = [] := List.dropWhile_eq_nil_iff.2 (bne_point h)
  simp only [read, hwhole, hplaces]
  simp

theorem read_append_cons {whole places : List Char} (h : '.' ∉ whole) :
    read (whole ++ '.' :: places) =
      ⟨Nat.ofDigitChars 10 (whole ++ places) 0, -places.length⟩ := by
  have hwhole : (whole ++ '.' :: places).takeWhile (· != '.') = whole := by
    rw [List.takeWhile_append_of_pos (bne_point h)]
    simp
  have hplaces : (whole ++ '.' :: places).dropWhile (· != '.') = '.' :: places := by
    rw [List.dropWhile_append_of_pos (bne_point h)]
    simp
  simp only [read, hwhole, hplaces]
  simp

theorem point_notMem_zeros_append (k n : Nat) :
    '.' ∉ List.replicate k '0' ++ Nat.toDigits 10 n := by
  rw [List.mem_append, not_or]
  refine ⟨by simp, fun h => ?_⟩
  exact absurd (Nat.isDigit_of_mem_toDigits (by decide) (by decide) h) (by decide)

theorem ofDigitChars_zeros_append (k n : Nat) :
    Nat.ofDigitChars 10 (List.replicate k '0' ++ Nat.toDigits 10 n) 0 = n := by
  rw [Nat.ofDigitChars_append, Nat.ofDigitChars_replicate_zero, Nat.mul_zero,
    Nat.ofDigitChars_ten_toDigits]

theorem read_positional_of_nonneg {d : Decimal} (h : 0 ≤ d.exponent) :
    read d.positional.toList = ⟨10 ^ d.exponent.toNat * d.digits, 0⟩ := by
  have hpoint : '.' ∉ Nat.toDigits 10 d.digits ++ List.replicate d.exponent.toNat '0' := by
    rw [List.mem_append, not_or]
    exact ⟨by simpa using point_notMem_zeros_append 0 d.digits, by simp⟩
  rw [positional, if_pos h, String.toList_ofList, read_of_notMem hpoint, Nat.ofDigitChars_append,
    Nat.ofDigitChars_replicate_zero, Nat.ofDigitChars_ten_toDigits]

/-- Zeros before the digits make sure that there is one before the point. -/
theorem read_positional_of_neg {d : Decimal} (h : d.exponent < 0) :
    read d.positional.toList = d := by
  obtain ⟨places, hplaces⟩ := Int.eq_ofNat_of_zero_le (Int.neg_nonneg_of_nonpos h.le)
  let cs := Nat.toDigits 10 d.digits
  let padded := List.replicate (places + 1 - cs.length) '0' ++ cs
  let whole := padded.length - places
  have htext : d.positional.toList = padded.take whole ++ '.' :: padded.drop whole := by
    rw [positional, if_neg (not_le.2 h), hplaces, String.toList_ofList, Int.toNat_natCast]
  have hpoint : '.' ∉ padded.take whole :=
    fun hmem => point_notMem_zeros_append _ _ (List.mem_of_mem_take hmem)
  have hlength : (padded.drop whole).length = places := by
    simp only [padded, whole, List.length_drop, List.length_append, List.length_replicate]
    omega
  rw [htext, read_append_cons hpoint, List.take_append_drop, hlength, ofDigitChars_zeros_append]
  congr 1
  omega

theorem value_read_positional (d : Decimal) : (read d.positional.toList).value = d.value := by
  by_cases h : 0 ≤ d.exponent
  · obtain ⟨e, he⟩ := Int.eq_ofNat_of_zero_le h
    rw [read_positional_of_nonneg h, value_eq, value_eq, he]
    simp [mul_comm]
  · rw [read_positional_of_neg (not_le.1 h)]

theorem value_eq_of_positional {d d' : Decimal} (h : d.positional = d'.positional) :
    d.value = d'.value := by
  rw [← value_read_positional, h, value_read_positional]

theorem isDigit_or_point {d : Decimal} {c : Char} (h : c ∈ d.positional.toList) :
    c.isDigit = true ∨ c = '.' := by
  have hdigit {n : Nat} (h : c ∈ Nat.toDigits 10 n) : c.isDigit = true :=
    Nat.isDigit_of_mem_toDigits (by decide) (by decide) h
  have hzero {k : Nat} (h : c ∈ List.replicate k '0') : c.isDigit = true := by
    obtain rfl := List.eq_of_mem_replicate h
    decide
  rw [positional] at h
  split at h
  · rw [String.toList_ofList, List.mem_append] at h
    exact .inl (h.elim hdigit hzero)
  · rw [String.toList_ofList, List.mem_append, List.mem_cons] at h
    obtain h | rfl | h := h
    · exact .inl ((List.mem_append.1 (List.mem_of_mem_take h)).elim hzero hdigit)
    · exact .inr rfl
    · exact .inl ((List.mem_append.1 (List.mem_of_mem_drop h)).elim hzero hdigit)

theorem lt_pow_length (n : Nat) : n < 10 ^ length n :=
  (Nat.length_toDigits_le_iff (by decide) Nat.length_toDigits_pos).1 le_rfl

theorem pow_length_le {n : Nat} (h : 0 < n) : 10 ^ (length n - 1) ≤ n := by
  cases hk : length n - 1 with
  | zero => exact h
  | succ k =>
    have hlt : ¬ length n ≤ k + 1 := by omega
    rw [length, Nat.length_toDigits_le_iff (by decide) k.succ_pos] at hlt
    exact not_lt.1 hlt

theorem length_pos (n : Nat) : 0 < length n :=
  Nat.length_toDigits_pos

theorem pow_magnitude_le {q : Rat} (h : 0 < q) : (10 : Rat) ^ (magnitude q - 1) ≤ q := by
  rw [magnitude]
  split
  · rename_i h1
    have hfloor : 1 ≤ q.floor := Rat.le_floor_iff.2 (by exact_mod_cast h1)
    obtain ⟨n, hn⟩ := Int.eq_ofNat_of_zero_le (zero_le_one.trans hfloor)
    have hexponent : (length n : Int) - 1 = (length n - 1 : Nat) := by
      have hlength := length_pos n
      omega
    rw [hn, Int.toNat_natCast]
    calc (10 : Rat) ^ ((length n : Int) - 1) = (10 ^ (length n - 1) : Nat) := by
          rw [hexponent, zpow_natCast]
          norm_cast
      _ ≤ n := by exact_mod_cast pow_length_le (by omega)
      _ = q.floor := by rw [hn]; rfl
      _ ≤ q := Rat.floor_le q
  · rename_i h1
    have hceil : 1 < (1 / q).ceil := by
      rw [Rat.lt_ceil_iff, Int.cast_one]
      exact one_lt_one_div h (not_le.1 h1)
    obtain ⟨n, hn⟩ := Int.eq_ofNat_of_zero_le (by omega : 0 ≤ (1 / q).ceil - 1)
    have hnat : (1 / q).ceil.toNat - 1 = n := by omega
    have hle : 1 / q ≤ (10 : Rat) ^ length n := by
      calc 1 / q ≤ (1 / q).ceil := Rat.le_ceil
        _ ≤ (10 ^ length n : Nat) := by
          have hlt := lt_pow_length n
          exact_mod_cast (by omega : (1 / q).ceil ≤ (10 ^ length n : Nat))
        _ = (10 : Rat) ^ length n := by norm_cast
    calc (10 : Rat) ^ (1 - (length ((1 / q).ceil.toNat - 1) : Int) - 1)
        = 1 / (10 : Rat) ^ length n := by
          rw [hnat, sub_sub_cancel_left, zpow_neg, zpow_natCast, one_div]
      _ ≤ q := by rwa [div_le_comm₀ (by positivity) h]

def below (q : Rat) (count : Nat) : Decimal :=
  ⟨(q / power (magnitude q - count)).floor.toNat, magnitude q - count⟩

def above (q : Rat) (count : Nat) : Decimal :=
  ⟨(below q count).digits + 1, magnitude q - count⟩

theorem value_above (q : Rat) (count : Nat) :
    (above q count).value = (below q count).value + (10 : Rat) ^ (magnitude q - count) := by
  simp only [above, below, value_eq]
  push_cast
  ring

theorem between_neighbours {q : Rat} (h : 0 ≤ q) (count : Nat) :
    (below q count).value ≤ q ∧ q < (above q count).value := by
  let unit := (10 : Rat) ^ (magnitude q - count)
  have hunit : 0 < unit := by positivity
  have hfloor : 0 ≤ (q / unit).floor := by
    rw [Rat.le_floor_iff, Int.cast_zero]
    positivity
  have hbelow : (below q count).value = (q / unit).floor * unit := by
    rw [below, value_eq, power_eq, ← Int.cast_natCast, Int.toNat_of_nonneg hfloor]
  have hle : ((q / unit).floor : Rat) ≤ q / unit := Rat.floor_le _
  have hlt : q / unit < ((q / unit).floor : Rat) + 1 := by
    exact_mod_cast Rat.lt_floor_add_one (q / unit)
  rw [value_above, hbelow]
  constructor
  · exact (le_div_iff₀ hunit).1 hle
  · calc q < ((q / unit).floor + 1) * unit := (div_lt_iff₀ hunit).1 hlt
      _ = (q / unit).floor * unit + unit := by ring

theorem withDigits?_eq_none {q : Rat} {s : Span} {count : Nat} : withDigits? q s count = none ↔
    s.holds (below q count).value = false ∧ s.holds (above q count).value = false := by
  simp only [withDigits?, below, above]
  split <;> simp_all

theorem holds_of_withDigits? {q : Rat} {s : Span} {count : Nat} {d : Decimal}
    (h : withDigits? q s count = some d) : s.holds d.value = true := by
  simp only [withDigits?] at h
  split at h
  · split at h <;> cases h <;> assumption
  · cases h; assumption
  · cases h; assumption
  · cases h

theorem holds_shortest {q : Rat} {s : Span} {most count : Nat} (hc : count < most)
    (h : withDigits? q s (count + 1) ≠ none) : s.holds (shortest q s most).value = true := by
  rw [shortest]
  cases hf : (List.range most).findSome? fun k => withDigits? q s (k + 1) with
  | none => exact absurd (List.findSome?_eq_none_iff.1 hf count (List.mem_range.2 hc)) h
  | some d =>
    obtain ⟨k, -, hk⟩ := List.exists_of_findSome?_eq_some hf
    exact holds_of_withDigits? hk

end Decimal

end LinProg
