import Mathlib.Tactic.FieldSimp
import Parley.Binary64.Decimal
import Parley.Proofs.Binary64.Value

/-! # Reading decimals to the nearest number

A numeral denotes a rational number, and what is read from it is the double-precision
number nearest to that, an exact half going to the even pattern. Nothing is lost on the
way: the exponents that are settled unread are those of numbers that round to zero or to
infinity.
-/

namespace Parley

/-- The quotient is rounded down in the lower half between two integers, and up in the upper one. -/
theorem roundDiv_cases (num den : Nat) :
    (roundDiv num den = num / den ∧ 2 * (num % den) ≤ den ∧
      (2 * (num % den) = den → num / den % 2 = 0)) ∨
    (roundDiv num den = num / den + 1 ∧ den ≤ 2 * (num % den) ∧
      (2 * (num % den) = den → num / den % 2 = 1)) := by
  simp only [roundDiv, Bool.and_eq_true, decide_eq_true_eq]
  split
  · exact .inr ⟨rfl, by omega, by omega⟩
  · split
    · exact .inr ⟨rfl, by omega, by omega⟩
    · exact .inl ⟨rfl, by omega, by omega⟩

theorem scaled_snd_pos (m : Nat) {b : Nat} (hb : 0 < b) (e : Int) : 0 < (scaled m b e).2 := by
  unfold scaled
  split
  · exact Nat.one_pos
  · exact Nat.pow_pos hb

theorem scaled_fst_pos {m b : Nat} (hm : 0 < m) (hb : 0 < b) (e : Int) : 0 < (scaled m b e).1 := by
  unfold scaled
  split
  · exact Nat.mul_pos hm (Nat.pow_pos hb)
  · exact hm

theorem scaled_div (m b : Nat) (e : Int) :
    ((scaled m b e).1 : ℚ) / (scaled m b e).2 = m * (b : ℚ) ^ e := by
  unfold scaled
  split
  case isTrue h =>
    obtain ⟨n, rfl⟩ := Int.eq_ofNat_of_zero_le h
    simp
  case isFalse h =>
    obtain ⟨n, rfl⟩ : ∃ n : Nat, e = -n := ⟨(-e).toNat, by omega⟩
    simp [div_eq_mul_inv]

theorem scaled_le_iff (m n : Nat) {b : Nat} (hb : 0 < b) (e : Int) :
    (scaled m b e).1 ≤ n * (scaled m b e).2 ↔ (m : ℚ) * (b : ℚ) ^ e ≤ n := by
  have hpos : (0 : ℚ) < (scaled m b e).2 := Nat.cast_pos.mpr (scaled_snd_pos m hb e)
  rw [← scaled_div, div_le_iff₀ hpos]
  exact_mod_cast Iff.rfl

theorem log2_bounds {n : Nat} (hn : 0 < n) :
    (2 : ℚ) ^ (n.log2 : Int) ≤ n ∧ (n : ℚ) < 2 ^ ((n.log2 : Int) + 1) := by
  constructor
  · rw [zpow_natCast]
    exact_mod_cast Nat.log2_self_le hn.ne'
  · rw [← Int.natCast_succ, zpow_natCast]
    exact_mod_cast Nat.lt_log2_self

/-- The binary exponent tells between which powers of two a quotient lies. -/
theorem binaryExponent_spec {num den : Nat} (hn : 0 < num) (hd : 0 < den) :
    (2 : ℚ) ^ binaryExponent num den ≤ (num : ℚ) / den ∧
      (num : ℚ) / den < 2 ^ (binaryExponent num den + 1) := by
  have hden : (0 : ℚ) < den := Nat.cast_pos.mpr hd
  have hsplit (i j : Int) : (2 : ℚ) ^ (i + j) = 2 ^ i * 2 ^ j := zpow_add₀ two_ne_zero i j
  have hpos (i : Int) : (0 : ℚ) < 2 ^ i := zpow_pos two_pos i
  obtain ⟨hnlow, hnhigh⟩ := log2_bounds hn
  obtain ⟨hdlow, hdhigh⟩ := log2_bounds hd
  -- The estimate from the lengths of the two numbers is right, or too large by one.
  rw [le_div_iff₀ hden, div_lt_iff₀ hden, binaryExponent]
  generalize hl : (num.log2 : Int) - den.log2 = l
  have hhigh : (num : ℚ) < 2 ^ (l + 1) * den := by
    calc (num : ℚ) < 2 ^ ((num.log2 : Int) + 1) := hnhigh
      _ = 2 ^ (l + 1) * 2 ^ (den.log2 : Int) := by
        rw [← hsplit]
        congr 1
        omega
      _ ≤ 2 ^ (l + 1) * den := by gcongr
  have hlow : (2 : ℚ) ^ (l - 1) * den ≤ num := by
    calc (2 : ℚ) ^ (l - 1) * den ≤ 2 ^ (l - 1) * 2 ^ ((den.log2 : Int) + 1) := by gcongr
      _ = 2 ^ (num.log2 : Int) := by
        rw [← hsplit]
        congr 1
        omega
      _ ≤ num := hnlow
  have htest := scaled_le_iff den num two_pos l
  simp only
  split
  case isTrue h =>
    rw [htest, mul_comm] at h
    exact ⟨h, hhigh⟩
  case isFalse h =>
    rw [htest, mul_comm, not_le] at h
    exact ⟨hlow, by simpa using h⟩

namespace Binary64

/-- Where the scaled number lies in the binade that its exponent names, or below the first one,
its rounded quotient makes the nearest pattern. -/
theorem isNearest_of_scaled {num den n : Nat} {v : ℚ} (hd : 0 < den)
    (hv : v = (num : ℚ) / den * 2 ^ ((n : Int) - 1074)) (hhigh : num / den < 2 ^ 53)
    (hlow : 2 ^ 52 ≤ num / den ∨ n = 0) :
    IsNearest v (min infinityMagnitude (roundDiv num den + n * 2 ^ 52)) := by
  have hden : (0 : ℚ) < den := Nat.cast_pos.mpr hd
  have hunit : (0 : ℚ) < 2 ^ ((n : Int) - 1074) := by positivity
  have hcases := roundDiv_cases num den
  have hmod : (num % den : Nat) < den := Nat.mod_lt num hd
  have hnum : (num : ℚ) = den * (num / den : Nat) + (num % den : Nat) := by
    exact_mod_cast (Nat.div_add_mod num den).symm
  generalize num / den = q at *
  generalize num % den = r at *
  have hk : magnitudeValue (q + n * 2 ^ 52) = q * 2 ^ ((n : Int) - 1074) :=
    magnitudeValue_add hhigh.le hlow
  have hk' : magnitudeValue (q + n * 2 ^ 52 + 1) = (q + 1) * 2 ^ ((n : Int) - 1074) := by
    have hnext : q + n * 2 ^ 52 + 1 = (q + 1) + n * 2 ^ 52 := by omega
    rw [hnext, magnitudeValue_add hhigh (hlow.imp_left (by omega))]
    push_cast
    rfl
  -- The number stands a part of the way from one neighbour to the other.
  have hpart : v = (q + (r : ℚ) / den) * 2 ^ ((n : Int) - 1074) := by
    rw [hv, hnum, add_div, mul_div_cancel_left₀ _ hden.ne']
  have hr0 : (0 : ℚ) ≤ (r : ℚ) / den := by positivity
  have hr1 : (r : ℚ) / den < 1 := (div_lt_one hden).mpr (Nat.cast_lt.mpr hmod)
  have hvlow : magnitudeValue (q + n * 2 ^ 52) ≤ v := by
    rw [hk, hpart]
    gcongr
    linarith
  have hvhigh : v ≤ magnitudeValue (q + n * 2 ^ 52 + 1) := by
    rw [hk', hpart]
    gcongr
  have hpos : (0 : ℚ) < 2 ^ ((n : Int) - 1074) / den := by positivity
  have hhalf : 2 * v - (magnitudeValue (q + n * 2 ^ 52) +
      magnitudeValue (q + n * 2 ^ 52 + 1)) =
        (2 * r - den) * (2 ^ ((n : Int) - 1074) / den) := by
    rw [hk, hk', hpart]
    field_simp
    ring
  have htie (h : 2 * v = magnitudeValue (q + n * 2 ^ 52) +
      magnitudeValue (q + n * 2 ^ 52 + 1)) : 2 * r = den := by
    rw [h, sub_self, eq_comm, mul_eq_zero, or_iff_left hpos.ne', sub_eq_zero] at hhalf
    exact_mod_cast hhalf
  rcases Nat.lt_or_ge (q + n * 2 ^ 52) infinityMagnitude with hfinite | hinfinite
  · rcases hcases with ⟨hround, hle, heven⟩ | ⟨hround, hge, hodd⟩
    · rw [hround, Nat.min_eq_right hfinite.le]
      have hle' : (2 * r - den : ℚ) ≤ 0 := sub_nonpos.mpr (by exact_mod_cast hle)
      have hneg := mul_nonpos_of_nonpos_of_nonneg hle' hpos.le
      rw [← hhalf] at hneg
      refine isNearest_lower hfinite hvlow (by linarith) fun h => ?_
      have := heven (htie h)
      omega
    · have hnext : q + 1 + n * 2 ^ 52 = q + n * 2 ^ 52 + 1 := by omega
      rw [hround, hnext, Nat.min_eq_right hfinite]
      have hge' : (0 : ℚ) ≤ 2 * r - den := sub_nonneg.mpr (by exact_mod_cast hge)
      have hnonneg := mul_nonneg hge' hpos.le
      rw [← hhalf] at hnonneg
      refine isNearest_upper hfinite hvhigh (by linarith) fun h => ?_
      have := hodd (htie h)
      omega
  · have hmin : min infinityMagnitude (roundDiv num den + n * 2 ^ 52) = infinityMagnitude := by
      omega
    rw [hmin]
    exact isNearest_infinity ((magnitudeValue_strictMono.monotone hinfinite).trans hvlow)

theorem isNearest_magnitudeOfQuotient {num den : Nat} (hn : 0 < num) (hd : 0 < den) :
    IsNearest ((num : ℚ) / den) (magnitudeOfQuotient num den) := by
  obtain ⟨hlow, hhigh⟩ := binaryExponent_spec hn hd
  rw [magnitudeOfQuotient]
  generalize binaryExponent num den = l at *
  obtain ⟨n, hmax⟩ : ∃ n : Nat, max (-1074) (l - 52) = (n : Int) - 1074 :=
    ⟨(max (-1074) (l - 52) + 1074).toNat, by omega⟩
  have hscale := scaled_div 1 2 (-((n : Int) - 1074))
  have hbottom := scaled_snd_pos 1 two_pos (-((n : Int) - 1074))
  have hexponent : ((n : Int) - 1074 + 1074).toNat = n := by omega
  simp only [hmax, hexponent]
  generalize scaled 1 2 (-((n : Int) - 1074)) = scale at *
  obtain ⟨top, bottom⟩ := scale
  simp only at hscale hbottom ⊢
  have hden : 0 < den * bottom := Nat.mul_pos hd hbottom
  have hunit : (0 : ℚ) < 2 ^ ((n : Int) - 1074) := by positivity
  have hscaled : ((num * top : Nat) : ℚ) / (den * bottom : Nat) =
      (num : ℚ) / den / 2 ^ ((n : Int) - 1074) := by
    rw [Nat.cast_mul, Nat.cast_mul, mul_div_mul_comm, hscale, Nat.cast_one, one_mul, zpow_neg,
      ← div_eq_mul_inv]
    rfl
  have hden' : (0 : ℚ) < (den * bottom : Nat) := Nat.cast_pos.mpr hden
  have hfits (k : Nat) :
      ((num * top : Nat) : ℚ) / (den * bottom : Nat) < (2 ^ k : Nat) ↔
        (num : ℚ) / den < 2 ^ ((k : Int) + ((n : Int) - 1074)) := by
    rw [hscaled, div_lt_iff₀ hunit, zpow_add₀ two_ne_zero, zpow_natCast]
    push_cast
    rfl
  have hquotient (c : Nat) : num * top / (den * bottom) < c ↔
      ((num * top : Nat) : ℚ) / (den * bottom : Nat) < c := by
    rw [Nat.div_lt_iff_lt_mul hden, div_lt_iff₀ hden']
    exact_mod_cast Iff.rfl
  refine isNearest_of_scaled hden ?_ ?_ ?_
  · rw [hscaled, div_mul_cancel₀ _ hunit.ne']
  · rw [hquotient, hfits]
    exact hhigh.trans_le (zpow_le_zpow_right₀ one_le_two (by omega))
  · rcases Nat.eq_zero_or_pos n with hzero | hpos
    · exact .inr hzero
    · refine .inl (not_lt.mp ?_)
      rw [hquotient, hfits, not_lt]
      exact (zpow_le_zpow_right₀ one_le_two (by omega)).trans hlow

theorem isNearest_zero {v : ℚ} (hv : 0 ≤ v) (h : v ≤ 2 ^ (-1075 : Int)) : IsNearest v 0 := by
  have hone : magnitudeValue (0 + 1) = 2 * 2 ^ (-1075 : Int) := by
    have hfirst := @magnitudeValue_add 1 0 (by omega) (.inr rfl)
    have hexponent : ((0 : Nat) : Int) - 1074 = 1 + -1075 := by omega
    rw [hexponent, zpow_add₀ two_ne_zero, zpow_one, Nat.cast_one, one_mul] at hfirst
    exact hfirst
  refine isNearest_lower (by decide) ?_ ?_ fun _ => rfl
  · rw [magnitudeValue_zero]
    exact hv
  · rw [magnitudeValue_zero, hone]
    linarith

theorem two_pow_le_ten_pow : (2 : ℚ) ^ 1200 ≤ 10 ^ 400 := by
  have h : (2 : ℚ) ^ 1200 = (2 ^ 3) ^ 400 := pow_mul 2 3 400
  rw [h]
  exact pow_le_pow_left₀ (by norm_num) (by norm_num) 400

theorem lt_pow_length_toDigits (m : Nat) : m < 10 ^ (Nat.toDigits 10 m).length :=
  (Nat.length_toDigits_le_iff (by omega) Nat.length_toDigits_pos).mp le_rfl

/-- The number of digits tells between which powers of ten a positive number lies. -/
theorem toDigits_bounds {m : Nat} (hm : m ≠ 0) :
    (10 : ℚ) ^ ((Nat.toDigits 10 m).length - 1 : Int) ≤ m ∧
      (m : ℚ) < 10 ^ ((Nat.toDigits 10 m).length : Int) := by
  have hhigh := lt_pow_length_toDigits m
  have hiff (k : Nat) (hk : 0 < k) : (Nat.toDigits 10 m).length ≤ k ↔ m < 10 ^ k :=
    Nat.length_toDigits_le_iff (by omega) hk
  obtain ⟨l, hl⟩ : ∃ l, (Nat.toDigits 10 m).length = l + 1 :=
    Nat.exists_eq_add_one.mpr Nat.length_toDigits_pos
  rw [hl] at hiff hhigh ⊢
  have hlow : 10 ^ l ≤ m := by
    rcases Nat.eq_zero_or_pos l with rfl | hpos
    · exact Nat.one_le_iff_ne_zero.mpr hm
    · exact not_lt.mp fun h => absurd ((hiff l hpos).mpr h) (by omega)
  constructor
  · rw [Nat.cast_add_one, add_sub_cancel_right, zpow_natCast]
    exact_mod_cast hlow
  · rw [zpow_natCast]
    exact_mod_cast hhigh

/-- A decimal is rounded to the nearest pattern, whatever its exponent. -/
theorem isNearest_magnitudeOfDecimal (m : Nat) (e : Int) :
    IsNearest ((m : ℚ) * 10 ^ e) (magnitudeOfDecimal m e) := by
  have hpos : (0 : ℚ) < 10 ^ e := by positivity
  have hsplit (i j : Int) : (10 : ℚ) ^ (i + j) = 10 ^ i * 10 ^ j :=
    zpow_add₀ (by norm_num) i j
  rcases eq_or_ne m 0 with rfl | hm
  · have hzero : magnitudeOfDecimal 0 e = 0 := by simp [magnitudeOfDecimal]
    rw [hzero, Nat.cast_zero, zero_mul]
    exact isNearest_zero le_rfl (by positivity)
  obtain ⟨hlow, hhigh⟩ := toDigits_bounds hm
  have hlow' : (10 : ℚ) ^ ((Nat.toDigits 10 m).length - 1 + e : Int) ≤ m * 10 ^ e := by
    rw [hsplit]
    gcongr
  have hhigh' : (m : ℚ) * 10 ^ e < 10 ^ ((Nat.toDigits 10 m).length + e : Int) := by
    rw [hsplit]
    gcongr
  simp only [magnitudeOfDecimal, Bool.or_eq_true, decide_eq_true_eq, hm, false_or]
  split
  · -- The number is below 10 ^ -400, and thus far below the smallest positive one.
    refine isNearest_zero (by positivity) (hhigh'.le.trans ?_)
    calc (10 : ℚ) ^ ((Nat.toDigits 10 m).length + e : Int)
        ≤ 10 ^ (-(400 : Nat) : Int) := zpow_le_zpow_right₀ (by norm_num) (by omega)
      _ ≤ 2 ^ (-(1200 : Nat) : Int) := by
        rw [zpow_neg, zpow_neg, zpow_natCast, zpow_natCast]
        exact inv_anti₀ (by positivity) two_pow_le_ten_pow
      _ ≤ 2 ^ (-1075 : Int) := zpow_le_zpow_right₀ one_le_two (by omega)
  split
  · -- The number is at least 10 ^ 400, and thus far above the largest finite one.
    refine isNearest_infinity (le_trans ?_ hlow')
    calc magnitudeValue infinityMagnitude = 2 ^ 1024 := magnitudeValue_infinity
      _ ≤ 2 ^ 1200 := pow_le_pow_right₀ one_le_two (by omega)
      _ ≤ 10 ^ 400 := two_pow_le_ten_pow
      _ = 10 ^ ((400 : Nat) : Int) := (zpow_natCast 10 400).symm
      _ ≤ 10 ^ ((Nat.toDigits 10 m).length - 1 + e : Int) :=
        zpow_le_zpow_right₀ (by norm_num) (by omega)
  · have hvalue := scaled_div m 10 e
    have hten : 0 < 10 := by omega
    have hnum := scaled_fst_pos (Nat.pos_of_ne_zero hm) hten e
    have hden := scaled_snd_pos m hten e
    rw [Nat.cast_ofNat] at hvalue
    rw [← hvalue]
    exact isNearest_magnitudeOfQuotient hnum hden

end Binary64

namespace DecimalNumeral

/-- The number that a numeral denotes. -/
def value (d : DecimalNumeral) : ℚ :=
  (Nat.ofDigitChars 10 d.whole 0 + Nat.ofDigitChars 10 d.fraction 0 / 10 ^ d.fraction.length) *
    10 ^ d.exponent

theorem value_nonneg (d : DecimalNumeral) : 0 ≤ d.value := by
  unfold value
  positivity

theorem isNearest_magnitude (d : DecimalNumeral) : Binary64.IsNearest d.value d.magnitude := by
  have hvalue : d.value = (Nat.ofDigitChars 10 (d.whole ++ d.fraction) 0 : Nat) *
      10 ^ (d.exponent - d.fraction.length) := by
    rw [Nat.ofDigitChars_append, Nat.ofDigitChars_eq_ofDigitChars_zero, value,
      zpow_sub₀ (by norm_num), zpow_natCast]
    push_cast
    field_simp
  rw [hvalue]
  exact Binary64.isNearest_magnitudeOfDecimal _ _

end DecimalNumeral

namespace Binary64

/-- The value of a number. Infinity counts as the power of two above the finite numbers. -/
def value (x : Binary64) : ℚ :=
  if x.isNegative then -magnitudeValue x.magnitude else magnitudeValue x.magnitude

/-- No number is nearer, and where a number with another value is as near, the pattern of this one
is even. -/
structure RoundsTo (v : ℚ) (x : Binary64) : Prop where
  number : x.isNaN = false
  nearest : ∀ y : Binary64, y.isNaN = false → |x.value - v| ≤ |y.value - v|
  even : ∀ y : Binary64, y.isNaN = false → y.value ≠ x.value →
    |x.value - v| = |y.value - v| → x.bits.toNat % 2 = 0

variable {v : ℚ} {k : Nat}

theorem toNat_ofMagnitude (negative : Bool) (hk : k ≤ infinityMagnitude) :
    (ofMagnitude negative k).bits.toNat = k + if negative then 2 ^ 63 else 0 := by
  have hlt : infinityMagnitude < 2 ^ 63 := by decide
  rw [ofMagnitude, UInt64.toNat_ofNat']
  cases negative <;> simp <;> omega

theorem isNegative_ofMagnitude (negative : Bool) (hk : k ≤ infinityMagnitude) :
    (ofMagnitude negative k).isNegative = negative := by
  have hlt : infinityMagnitude < 2 ^ 63 := by decide
  rw [isNegative, toNat_ofMagnitude negative hk]
  cases negative <;> simp
  omega

theorem magnitude_ofMagnitude (negative : Bool) (hk : k ≤ infinityMagnitude) :
    (ofMagnitude negative k).magnitude = k := by
  have hlt : infinityMagnitude < 2 ^ 63 := by decide
  rw [magnitude, toNat_ofMagnitude negative hk]
  cases negative <;> simp <;> omega

theorem abs_signed_sub (s t : Bool) (a v : ℚ) :
    |(if s then -a else a) - (if t then -v else v)| = if s = t then |a - v| else |a + v| := by
  have hneg : -a - -v = -(a - v) := by ring
  have hneg' : -a - v = -(a + v) := by ring
  cases s <;> cases t <;> simp only [Bool.false_eq_true, reduceCtorEq, if_true, if_false, hneg,
    hneg', abs_neg, sub_neg_eq_add]

theorem IsNearest.roundsTo (h : IsNearest v k) (hv : 0 ≤ v) (negative : Bool) :
    RoundsTo (if negative then -v else v) (ofMagnitude negative k) := by
  have hvalue : (ofMagnitude negative k).value =
      if negative then -magnitudeValue k else magnitudeValue k := by
    rw [value, isNegative_ofMagnitude negative h.le, magnitude_ofMagnitude negative h.le]
  have hzero : |magnitudeValue k - v| ≤ v := by
    have := h.nearest 0 (Nat.zero_le _)
    rwa [magnitudeValue_zero, zero_sub, abs_neg, abs_of_nonneg hv] at this
  have hlt : infinityMagnitude < 2 ^ 63 := by decide
  -- A number with the other sign is as far away as zero, or farther.
  have hother (j : Nat) : |magnitudeValue j + v| = magnitudeValue j + v :=
    abs_of_nonneg (add_nonneg (magnitudeValue_nonneg j) hv)
  refine ⟨?_, fun y hy => ?_, fun y hy hne he => ?_⟩
  · rw [isNaN, magnitude_ofMagnitude negative h.le]
    simpa using h.le
  · rw [hvalue, value, abs_signed_sub, abs_signed_sub, if_pos rfl]
    have hle : y.magnitude ≤ infinityMagnitude := by simpa [isNaN] using hy
    split
    · exact h.nearest _ hle
    · rw [hother]
      linarith [magnitudeValue_nonneg y.magnitude]
  · have hparity : (ofMagnitude negative k).bits.toNat % 2 = k % 2 := by
      rw [toNat_ofMagnitude negative h.le]
      cases negative <;> simp
      omega
    rw [hvalue, value, abs_signed_sub, abs_signed_sub, if_pos rfl] at he
    rw [hvalue, value] at hne
    have hle : y.magnitude ≤ infinityMagnitude := by simpa [isNaN] using hy
    rw [hparity]
    split at he
    case isTrue hsign =>
      refine h.even _ hle (fun hj => hne ?_) he
      rw [hsign, hj]
    case isFalse hsign =>
      rw [hother] at he
      have hj : magnitudeValue y.magnitude = 0 :=
        le_antisymm (by linarith) (magnitudeValue_nonneg _)
      refine h.even 0 (Nat.zero_le _) (fun hk => hne ?_) ?_
      · rw [← hk, magnitudeValue_zero, hj]
        simp
      · rw [he, hj, magnitudeValue_zero, zero_sub, abs_neg, abs_of_nonneg hv, zero_add]

def signed? (text : Text) : Option (Bool × DecimalNumeral) :=
  match text with
  | '-' :: rest => (DecimalNumeral.read? rest).map (true, ·)
  | '+' :: rest => (DecimalNumeral.read? rest).map (false, ·)
  | rest => (DecimalNumeral.read? rest).map (false, ·)

theorem ofText?_of_signed? {text : Text} {negative : Bool} {d : DecimalNumeral}
    (h : signed? text = some (negative, d)) :
    ofText? text = some (ofMagnitude negative d.magnitude) := by
  have hread {rest : Text} {sign : Bool}
      (h : (DecimalNumeral.read? rest).map (sign, ·) = some (negative, d)) :
      (magnitudeOf? rest).map (ofMagnitude sign) = some (ofMagnitude negative d.magnitude) := by
    obtain ⟨found, hd, he⟩ := Option.map_eq_some_iff.mp h
    obtain ⟨rfl, rfl⟩ := Prod.mk.inj he
    rw [magnitudeOf?, hd]
    rfl
  unfold signed? at h
  split at h
  · exact hread h
  · exact hread h
  case h_3 hminus hplus =>
    rw [ofText?]
    · exact hread h
    · exact hminus
    · exact hplus

/-- What is read from a numeral with its optional sign has this sign, and is the number nearest to
the one that the numeral denotes. -/
theorem ofText?_roundsTo {text : Text} {negative : Bool} {d : DecimalNumeral}
    (h : signed? text = some (negative, d)) :
    ∃ x, ofText? text = some x ∧ x.isNegative = negative ∧
      RoundsTo (if negative then -d.value else d.value) x :=
  ⟨_, ofText?_of_signed? h, isNegative_ofMagnitude negative d.isNearest_magnitude.le,
    d.isNearest_magnitude.roundsTo d.value_nonneg negative⟩

end Binary64

end Parley
