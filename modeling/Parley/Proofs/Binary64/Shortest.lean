import Mathlib.Data.List.TakeWhile
import Mathlib.Data.Nat.Cast.Order.Field
import Parley.Binary64.Shortest
import Parley.Proofs.Binary64.Nearest

/-! # Reading back what is shown

The decimal that is shown for a finite number lies between the middles to its neighbours, so
the number is the nearest one to it. Seventeen digits suffice to find such a decimal: their
grid is finer than the distance of the two middles. What is shown for a number, finite or
not, is therefore read back as the same number.
-/

namespace Parley

open Binary64

namespace Binary64

variable {v : ℚ} {k : Nat}

/-- A number between the middles to the neighbours of a pattern rounds to it, if it is even also at
the ends. -/
theorem isNearest_of_between (hk : k + 1 < infinityMagnitude)
    (hlow : magnitudeValue k + magnitudeValue (k + 1) ≤ 2 * v)
    (hhigh : 2 * v ≤ magnitudeValue (k + 1) + magnitudeValue (k + 2))
    (heven : 2 * v = magnitudeValue k + magnitudeValue (k + 1) ∨
      2 * v = magnitudeValue (k + 1) + magnitudeValue (k + 2) → (k + 1) % 2 = 0) :
    IsNearest v (k + 1) := by
  rcases le_total (magnitudeValue (k + 1)) v with h | h
  · exact isNearest_lower hk h hhigh fun he => heven (.inr he)
  · refine isNearest_upper (by omega) h hlow fun he => ?_
    have := heven (.inl he)
    omega

theorem magnitudeValue_le_below {c n : Nat} (hk : k + 1 = c + n * 2 ^ 52) (hc : c < 2 ^ 53)
    (hn : 2 ^ 52 ≤ c ∨ n = 0) :
    magnitudeValue k ≤
      (c - (if c = 2 ^ 52 then 1 else 2 : Nat) / 2) * 2 ^ ((n : Int) - 1074) := by
  have hunit : (0 : ℚ) < 2 ^ ((n : Int) - 1074) := by positivity
  by_cases hpred : 2 ^ 52 ≤ c - 1 ∨ n = 0
  · have hbelow : k = (c - 1) + n * 2 ^ 52 := by omega
    have hone : ((c - 1 : Nat) : ℚ) = c - 1 := Nat.cast_pred (by omega)
    rw [hbelow, magnitudeValue_add (by omega) hpred, hone]
    gcongr
    split <;> norm_num
  · -- The first pattern of a binade comes after the last one of the binade below.
    obtain rfl : c = 2 ^ 52 := by omega
    obtain ⟨n, rfl⟩ : ∃ i, n = i + 1 := Nat.exists_eq_succ_of_ne_zero (by omega)
    have hbelow : k = (2 ^ 53 - 1) + n * 2 ^ 52 := by omega
    have hexponent : ((n + 1 : Nat) : Int) - 1074 = (n : Int) - 1074 + 1 := by
      push_cast
      ring
    rw [hbelow, magnitudeValue_add (by omega) (.inl (by omega)), hexponent,
      zpow_add_one₀ two_ne_zero, if_pos rfl]
    apply le_of_eq
    norm_num
    ring

end Binary64

theorem decimalExponent_le {num den : Nat} (hn : 0 < num) (hd : 0 < den) :
    (10 : ℚ) ^ (decimalExponent num den - 1) ≤ (num : ℚ) / den := by
  have hnum : (0 : ℚ) < num := Nat.cast_pos.mpr hn
  have hden : (0 : ℚ) < den := Nat.cast_pos.mpr hd
  unfold decimalExponent
  split
  case isTrue h =>
    have hquotient : num / den ≠ 0 := (Nat.div_pos h hd).ne'
    exact (toDigits_bounds hquotient).1.trans Nat.cast_div_le
  case isFalse h =>
    -- The reciprocal, rounded up, is at most the power of ten that has one digit more.
    have hup : den ≤ (den + num - 1) / num * num := by
      have := Nat.div_add_mod (den + num - 1) num
      have := Nat.mod_lt (den + num - 1) hn
      rw [Nat.mul_comm]
      omega
    have hdigits := lt_pow_length_toDigits ((den + num - 1) / num - 1)
    simp only
    generalize (Nat.toDigits 10 ((den + num - 1) / num - 1)).length = l at *
    have hexponent : (1 : Int) - l - 1 = -l := by omega
    rw [hexponent, zpow_neg, zpow_natCast, inv_le_comm₀ (by positivity) (by positivity), inv_div,
      div_le_iff₀ hnum]
    have hle : (den + num - 1) / num ≤ 10 ^ l := by omega
    exact_mod_cast hup.trans (Nat.mul_le_mul_right num hle)

namespace RoundingInterval

variable {r : RoundingInterval} {v : ℚ}

theorem admits_iff (hd : 0 < r.den) (digits : Nat) (e : Int) :
    r.admits digits e = true ↔
      if r.closed then
        (r.low : ℚ) / r.den ≤ digits * 10 ^ e ∧ (digits : ℚ) * 10 ^ e ≤ r.high / r.den
      else (r.low : ℚ) / r.den < digits * 10 ^ e ∧ (digits : ℚ) * 10 ^ e < r.high / r.den := by
  have hvalue := scaled_div digits 10 e
  have hpos : (0 : ℚ) < (scaled digits 10 e).2 :=
    Nat.cast_pos.mpr (scaled_snd_pos digits (by omega) e)
  have hden : (0 : ℚ) < r.den := Nat.cast_pos.mpr hd
  rw [Nat.cast_ofNat] at hvalue
  rw [← hvalue, admits]
  generalize scaled digits 10 e = point at *
  obtain ⟨num, den⟩ := point
  simp only at hpos ⊢
  rw [div_le_div_iff₀ hden hpos, div_le_div_iff₀ hpos hden, div_lt_div_iff₀ hden hpos,
    div_lt_div_iff₀ hpos hden]
  split <;> simp only [Bool.and_eq_true, decide_eq_true_eq] <;> exact_mod_cast Iff.rfl

theorem admits_of_onGrid? {e : Int} {digits : Nat} (h : r.onGrid? e = some digits) :
    r.admits digits e = true := by
  simp only [onGrid?] at h
  split at h
  case h_1 hlow hhigh =>
    obtain rfl := Option.some.inj h
    split
    · exact hhigh
    · exact hlow
  case h_2 hlow _ =>
    obtain rfl := Option.some.inj h
    exact hlow
  case h_3 _ hhigh =>
    obtain rfl := Option.some.inj h
    exact hhigh
  case h_4 => cases h

/-- The interval lies between the middles to the neighbours of a pattern, and reaches farther than
half a unit of the seventeenth digit from its value. -/
structure Fits (r : RoundingInterval) (k : Nat) : Prop where
  den : 0 < r.den
  value : (r.value : ℚ) / r.den = magnitudeValue (k + 1)
  low : magnitudeValue k + magnitudeValue (k + 1) ≤ 2 * ((r.low : ℚ) / r.den)
  high : 2 * ((r.high : ℚ) / r.den) ≤ magnitudeValue (k + 1) + magnitudeValue (k + 2)
  closed : r.closed = true → (k + 1) % 2 = 0
  below : (r.low : ℚ) / r.den + magnitudeValue (k + 1) / (2 * 10 ^ 16) < magnitudeValue (k + 1)
  above : magnitudeValue (k + 1) + magnitudeValue (k + 1) / (2 * 10 ^ 16) < r.high / r.den

theorem fits_ofMagnitude (k : Nat) : (ofMagnitude (k + 1)).Fits k := by
  obtain ⟨c, n, hk, hc, hn⟩ := exists_significand (k + 1)
  have hsignificand := significand_add hc hn
  have hvalue := magnitudeValue_add hc.le hn
  have hsucc : magnitudeValue (k + 2) = (c + 1) * 2 ^ ((n : Int) - 1074) := by
    have hnext : k + 2 = (c + 1) + n * 2 ^ 52 := by omega
    rw [hnext, magnitudeValue_add hc (hn.imp_left (by omega))]
    push_cast
    rfl
  have hunit : (0 : ℚ) < 2 ^ ((n : Int) - 1074) := by positivity
  have hscale := scaled_div 1 2 ((n : Int) - 1074 - 2)
  have hden := scaled_snd_pos 1 two_pos ((n : Int) - 1074 - 2)
  have hbelow := magnitudeValue_le_below hk hc hn
  rw [zpow_sub₀ (by norm_num), Nat.cast_one, one_mul, Nat.cast_ofNat] at hscale
  rw [← hk] at hsignificand hvalue
  have hpow : Nat.pow 2 52 = 2 ^ 52 := rfl
  simp only [ofMagnitude, hsignificand, hpow]
  generalize scaled 1 2 ((n : Int) - 1074 - 2) = scale at *
  generalize (2 : ℚ) ^ ((n : Int) - 1074) = u at *
  obtain ⟨unit, den⟩ := scale
  simp only at hscale hden ⊢
  have hscaled (a : Nat) : ((a * unit : Nat) : ℚ) / den = a * u / 4 := by
    rw [Nat.cast_mul, mul_div_assoc, hscale]
    ring
  generalize hb : (if c = 2 ^ 52 then 1 else 2 : Nat) = b at *
  have hcases : b = 1 ∧ c = 2 ^ 52 ∨ b = 2 := by
    split at hb <;> omega
  have hcpos : 0 < c := by omega
  have hnarrow : 2 * (c : ℚ) < b * 10 ^ 16 := by
    have hnat : 2 * c < b * 10 ^ 16 := by omega
    exact_mod_cast hnat
  have htwo : (b : ℚ) ≤ 2 := by
    have hnat : b ≤ 2 := by omega
    exact_mod_cast hnat
  have hlow : ((4 * c - b : Nat) : ℚ) = 4 * c - b := by
    rw [Nat.cast_sub (by omega)]
    push_cast
    rfl
  have hnarrow' := mul_lt_mul_of_pos_right hnarrow hunit
  have htwo' := mul_le_mul_of_nonneg_right htwo hunit.le
  constructor
  · exact hden
  · rw [hscaled, hvalue]
    push_cast
    ring
  · rw [hscaled, hvalue, hlow]
    linarith
  · rw [hscaled, hvalue, hsucc]
    push_cast
    linarith
  · simp only [decide_eq_true_eq]
    omega
  · rw [hscaled, hvalue, hlow]
    linarith
  · rw [hscaled, hvalue]
    push_cast
    linarith

namespace Fits

variable {k : Nat} {digits : Nat} {e : Int}

theorem isNearest (h : r.Fits k) (hk : k + 1 < infinityMagnitude)
    (ha : r.admits digits e = true) : IsNearest (digits * 10 ^ e) (k + 1) := by
  have hlow := h.low
  have hhigh := h.high
  rw [admits_iff h.den] at ha
  split at ha
  case isTrue hclosed =>
    exact isNearest_of_between hk (by linarith) (by linarith) fun _ => h.closed hclosed
  case isFalse =>
    refine isNearest_of_between hk (by linarith) (by linarith) fun he => ?_
    rcases he with he | he <;> linarith

theorem value_pos (h : r.Fits k) : 0 < r.value := by
  have hpos : 0 < magnitudeValue (k + 1) :=
    magnitudeValue_zero ▸ magnitudeValue_strictMono k.succ_pos
  rw [← h.value] at hpos
  refine Nat.pos_of_ne_zero fun hzero => ?_
  simp [hzero] at hpos

theorem admits_of_near (h : r.Fits k)
    (hnear : |(digits : ℚ) * 10 ^ e - magnitudeValue (k + 1)| ≤
      magnitudeValue (k + 1) / (2 * 10 ^ 16)) : r.admits digits e = true := by
  obtain ⟨hlow, hhigh⟩ := abs_le.mp hnear
  have hbelow := h.below
  have habove := h.above
  rw [admits_iff h.den]
  split
  · exact ⟨by linarith, by linarith⟩
  · exact ⟨by linarith, by linarith⟩

/-- The two points of a grid around the value of the pattern, of which one is taken if it rounds to
the pattern. -/
theorem onGrid?_neighbours (h : r.Fits k) (e : Int) :
    ∃ lower : Nat, (lower : ℚ) * 10 ^ e ≤ magnitudeValue (k + 1) ∧
      magnitudeValue (k + 1) < (lower + 1 : Nat) * 10 ^ e ∧
      ((r.onGrid? e).isSome = true ↔
        r.admits lower e = true ∨ r.admits (lower + 1) e = true) := by
  have hunit : (0 : ℚ) < 10 ^ e := by positivity
  have hscale := scaled_div 1 10 (-e)
  have hpos := scaled_snd_pos 1 (b := 10) (by omega) (-e)
  simp only [onGrid?]
  generalize scaled 1 10 (-e) = scale at *
  obtain ⟨num, den⟩ := scale
  simp only at hscale hpos ⊢
  have hbottom : 0 < r.den * den := Nat.mul_pos h.den hpos
  have hquotient : ((r.value * num : Nat) : ℚ) / (r.den * den : Nat) =
      magnitudeValue (k + 1) / 10 ^ e := by
    rw [Nat.cast_mul, Nat.cast_mul, mul_div_mul_comm, h.value, hscale, Nat.cast_one, one_mul,
      zpow_neg, ← div_eq_mul_inv]
    rfl
  refine ⟨r.value * num / (r.den * den), ?_, ?_, ?_⟩
  · rw [← le_div_iff₀ hunit, ← hquotient]
    exact Nat.cast_div_le
  · rw [← div_lt_iff₀ hunit, ← hquotient, div_lt_iff₀ (Nat.cast_pos.mpr hbottom)]
    exact_mod_cast (Nat.div_lt_iff_lt_mul hbottom).mp (Nat.lt_succ_self _)
  · split <;> simp_all

theorem onGrid?_isSome (h : r.Fits k) (hgrid : (10 : ℚ) ^ e ≤ magnitudeValue (k + 1) / 10 ^ 16) :
    (r.onGrid? e).isSome = true := by
  obtain ⟨lower, hlower, hupper, hiff⟩ := h.onGrid?_neighbours e
  rw [Nat.cast_add_one] at hupper
  refine hiff.mpr ?_
  rcases le_total (magnitudeValue (k + 1) - lower * 10 ^ e) (10 ^ e / 2) with hhalf | hhalf
  · refine .inl (h.admits_of_near (abs_le.mpr ?_))
    constructor <;> linarith
  · refine .inr (h.admits_of_near (abs_le.mpr ?_))
    rw [Nat.cast_add_one]
    constructor <;> linarith

/-- The value lies in the interval, and with a point on one side of it all those between the two
do. -/
theorem admits_of_between (h : r.Fits k) {p : Nat} (ha : r.admits digits e = true)
    (hp : (digits : ℚ) * 10 ^ e ≤ p * 10 ^ e ∧ (p : ℚ) * 10 ^ e ≤ magnitudeValue (k + 1) ∨
      magnitudeValue (k + 1) ≤ p * 10 ^ e ∧ (p : ℚ) * 10 ^ e ≤ digits * 10 ^ e) :
    r.admits p e = true := by
  have hbelow := h.below
  have habove := h.above
  have hpos := div_nonneg (magnitudeValue_nonneg (k + 1)) (b := 2 * 10 ^ 16) (by norm_num)
  rw [admits_iff h.den] at ha ⊢
  split at ha
  case isTrue hclosed =>
    rw [if_pos hclosed]
    rcases hp with ⟨hfrom, hto⟩ | ⟨hfrom, hto⟩ <;> constructor <;> linarith
  case isFalse hopen =>
    rw [if_neg hopen]
    rcases hp with ⟨hfrom, hto⟩ | ⟨hfrom, hto⟩ <;> constructor <;> linarith

/-- If neither of the two points around the value rounds to the pattern, none does. -/
theorem not_admits_of_onGrid? (h : r.Fits k) (hnone : r.onGrid? e = none) (digits : Nat) :
    r.admits digits e = false := by
  obtain ⟨lower, hlower, hupper, hiff⟩ := h.onGrid?_neighbours e
  rw [hnone] at hiff
  rw [Bool.eq_false_iff]
  intro ha
  refine absurd (hiff.mpr ?_) (by simp)
  have hmono {i j : Nat} (hij : i ≤ j) : (i : ℚ) * 10 ^ e ≤ j * 10 ^ e := by gcongr
  rcases Nat.lt_or_ge lower digits with hlt | hge
  · exact .inr (h.admits_of_between ha (.inr ⟨hupper.le, hmono hlt⟩))
  · exact .inl (h.admits_of_between ha (.inl ⟨hmono hge, hlower⟩))

end Fits

/-- The search ends with a decimal in the interval, if one of the grids that it tries has one. -/
theorem admits_search {k : Int} {fuel count c : Nat} (hcount : count ≤ c) (hfuel : c < count + fuel)
    (hc : (r.onGrid? (k - c)).isSome = true) :
    r.admits (r.search k fuel count).1 (r.search k fuel count).2 = true := by
  induction fuel generalizing count with
  | zero => omega
  | succ fuel ih =>
    rw [search]
    cases hg : r.onGrid? (k - count) with
    | some digits => exact admits_of_onGrid? hg
    | none =>
      refine ih (Nat.lt_of_le_of_ne hcount ?_) (by omega)
      rintro rfl
      simp [hg] at hc

theorem search_none {k : Int} {fuel count c : Nat} (hcount : count ≤ c)
    (hc : (r.search k fuel count).2 < k - c) : r.onGrid? (k - c) = none := by
  induction fuel generalizing count with
  | zero =>
    simp only [search] at hc
    omega
  | succ fuel ih =>
    rw [search] at hc
    cases hg : r.onGrid? (k - count) with
    | some digits =>
      rw [hg] at hc
      simp only at hc
      omega
    | none =>
      rw [hg] at hc
      rcases hcount.eq_or_lt with rfl | hlt
      · exact hg
      · exact ih hlt hc

theorem isNearest_shortest {k : Nat} (hk : k + 1 < infinityMagnitude) :
    let decimal := (ofMagnitude (k + 1)).shortest
    IsNearest (decimal.1 * 10 ^ decimal.2) (k + 1) := by
  have hfits := fits_ofMagnitude k
  have hexponent := decimalExponent_le hfits.value_pos hfits.den
  refine hfits.isNearest hk (admits_search (c := 17) (by omega) (by omega) ?_)
  refine hfits.onGrid?_isSome ?_
  rw [hfits.value] at hexponent
  generalize decimalExponent _ _ = l at *
  have hsplit : l - (17 : Nat) = l - 1 - (16 : Nat) := by
    push_cast
    ring
  rw [hsplit, zpow_sub₀ (by norm_num), zpow_natCast]
  gcongr

/-- No decimal with fewer digits is in the interval. -/
theorem not_admits_coarser {k : Nat} {e : Int} (digits : Nat)
    (hlow : (ofMagnitude (k + 1)).shortest.2 < e)
    (hhigh : e < decimalExponent (ofMagnitude (k + 1)).value (ofMagnitude (k + 1)).den) :
    (ofMagnitude (k + 1)).admits digits e = false := by
  obtain ⟨c, hc⟩ : ∃ c : Nat, e =
      decimalExponent (ofMagnitude (k + 1)).value (ofMagnitude (k + 1)).den - (c + 1 : Nat) :=
    ⟨(decimalExponent (ofMagnitude (k + 1)).value (ofMagnitude (k + 1)).den - e - 1).toNat,
      by omega⟩
  subst hc
  exact (fits_ofMagnitude k).not_admits_of_onGrid? (search_none (by omega) hlow) digits

end RoundingInterval

namespace DecimalNumeral

variable {whole fraction : Text}

theorem read?_written (hw : whole ≠ []) (hwhole : ∀ c ∈ whole, c.isDigit = true)
    (hfraction : ∀ c ∈ fraction, c.isDigit = true) :
    read? (if fraction.isEmpty then whole else whole ++ '.' :: fraction) =
      some ⟨whole, fraction, 0⟩ := by
  have hne : whole.isEmpty = false := by simpa using hw
  have hpoint : Char.isDigit '.' = false := rfl
  cases fraction with
  | nil =>
    simp [read?, List.takeWhile_eq_self_iff.mpr hwhole, List.dropWhile_eq_nil_iff.mpr hwhole, hw]
  | cons c rest =>
    have htake : (whole ++ '.' :: c :: rest).takeWhile Char.isDigit = whole := by
      rw [List.takeWhile_append_of_pos hwhole, List.takeWhile_cons, hpoint]
      simp
    have hdrop : (whole ++ '.' :: c :: rest).dropWhile Char.isDigit = '.' :: c :: rest := by
      rw [List.dropWhile_append_of_pos hwhole, List.dropWhile_cons, hpoint]
      simp
    simp only [List.isEmpty_cons, Bool.false_eq_true, if_false, read?, htake, hdrop,
      List.takeWhile_eq_self_iff.mpr hfraction, List.dropWhile_eq_nil_iff.mpr hfraction, hne,
      Bool.false_and]

end DecimalNumeral

namespace Binary64

/-- Only zeros are left out at the end. -/
theorem exists_trailing_zeros (fraction : Text) :
    ∃ z, fraction =
      (fraction.reverse.dropWhile (· = '0')).reverse ++ List.replicate z '0' := by
  refine ⟨(fraction.reverse.takeWhile (· = '0')).length, ?_⟩
  have hzeros : fraction.reverse.takeWhile (· = '0') =
      List.replicate (fraction.reverse.takeWhile (· = '0')).length '0' := by
    refine List.eq_replicate_of_mem fun c hc => ?_
    simpa using List.mem_takeWhile_imp hc
  rw [← List.reverse_replicate, ← hzeros, ← List.reverse_append,
    List.takeWhile_append_dropWhile, List.reverse_reverse]

theorem isDigit_of_mem_toDigits {n : Nat} : ∀ c ∈ Nat.toDigits 10 n, c.isDigit = true :=
  fun _ => Nat.isDigit_of_mem_toDigits (by omega) (by omega)

/-- What stands without an exponent denotes the decimal. -/
theorem exists_read?_positional (digits : Nat) (e : Int) :
    ∃ d, DecimalNumeral.read? (positional digits e) = some d ∧ d.value = digits * 10 ^ e := by
  simp only [positional]
  split
  case isTrue h =>
    obtain ⟨n, rfl⟩ := Int.eq_ofNat_of_zero_le h
    refine ⟨⟨Nat.toDigits 10 (digits * Nat.pow 10 n), [], 0⟩, ?_, ?_⟩
    · exact @DecimalNumeral.read?_written _ [] Nat.toDigits_ne_nil isDigit_of_mem_toDigits
        (by simp)
    · simp [DecimalNumeral.value, Nat.ofDigitChars_ten_toDigits]
  case isFalse h =>
    obtain ⟨places, rfl⟩ : ∃ n : Nat, e = -n := ⟨(-e).toNat, by omega⟩
    rw [neg_neg, Int.toNat_natCast]
    generalize hp : List.replicate (places + 1 - (Nat.toDigits 10 digits).length) '0' ++
      Nat.toDigits 10 digits = padded
    have hlength : places + 1 ≤ padded.length := by
      rw [← hp, List.length_append, List.length_replicate]
      omega
    have hdigit : ∀ c ∈ padded, c.isDigit = true := by
      rw [← hp, List.forall_mem_append]
      refine ⟨fun c hc => ?_, isDigit_of_mem_toDigits⟩
      rw [List.eq_of_mem_replicate hc]
      rfl
    have hpadded : Nat.ofDigitChars 10 padded 0 = digits := by
      rw [← hp, Nat.ofDigitChars_append, Nat.ofDigitChars_replicate_zero, Nat.mul_zero,
        Nat.ofDigitChars_ten_toDigits]
    have hcut := List.take_append_drop (padded.length - places) padded
    have hwhole : padded.take (padded.length - places) ≠ [] := by
      rw [← List.length_pos_iff, List.length_take]
      omega
    have hplaces : (padded.drop (padded.length - places)).length = places := by
      rw [List.length_drop]
      omega
    generalize padded.take (padded.length - places) = whole at *
    generalize padded.drop (padded.length - places) = fraction at *
    obtain ⟨z, hz⟩ := exists_trailing_zeros fraction
    generalize (fraction.reverse.dropWhile (· = '0')).reverse = shown at *
    subst hz hcut
    rw [List.forall_mem_append, List.forall_mem_append] at hdigit
    refine ⟨⟨whole, shown, 0⟩, DecimalNumeral.read?_written hwhole hdigit.1 hdigit.2.1, ?_⟩
    rw [List.length_append, List.length_replicate] at hplaces
    rw [Nat.ofDigitChars_append, Nat.ofDigitChars_append, Nat.ofDigitChars_replicate_zero,
      Nat.ofDigitChars_eq_ofDigitChars_zero] at hpadded
    rw [DecimalNumeral.value, ← hpadded, ← hplaces, zpow_zero, mul_one, zpow_neg, zpow_natCast]
    push_cast
    rw [pow_add]
    field_simp

theorem exists_read?_renderMagnitude {k : Nat} (hk : k < infinityMagnitude) :
    ∃ d, DecimalNumeral.read? (renderMagnitude k) = some d ∧ d.magnitude = k := by
  cases k with
  | zero => exact ⟨⟨"0", [], 0⟩, rfl, rfl⟩
  | succ k =>
    obtain ⟨d, hread, hvalue⟩ := exists_read?_positional
      (RoundingInterval.ofMagnitude (k + 1)).shortest.1
      (RoundingInterval.ofMagnitude (k + 1)).shortest.2
    refine ⟨d, ?_, ?_⟩
    · rw [renderMagnitude, if_neg k.succ_ne_zero]
      exact hread
    · have hnearest := d.isNearest_magnitude
      rw [hvalue] at hnearest
      exact hnearest.unique (RoundingInterval.isNearest_shortest hk)

theorem ofMagnitude_magnitude (x : Binary64) : ofMagnitude x.isNegative x.magnitude = x := by
  obtain ⟨bits⟩ := x
  have hlt := bits.toNat_lt
  have htwo : Nat.pow 2 63 = 2 ^ 63 := rfl
  rw [ofMagnitude, mk.injEq, ← UInt64.toNat_inj, UInt64.toNat_ofNat']
  simp only [isNegative, magnitude, htwo, decide_eq_true_eq]
  split <;> omega

theorem signed?_of_read? {text : Text} {d : DecimalNumeral}
    (h : DecimalNumeral.read? text = some d) : signed? text = some (false, d) := by
  unfold signed?
  split
  · cases h
  · cases h
  · rw [h]
    rfl

/-- What is shown for a number, finite or infinite, is read back as the same number. -/
theorem ofText?_render {x : Binary64} (hx : x.isNaN = false) : ofText? x.render = some x := by
  have hle : x.magnitude ≤ infinityMagnitude := by simpa [isNaN] using hx
  rw [render, hx]
  rcases hle.lt_or_eq with hfinite | hinfinite
  · obtain ⟨d, hread, hmagnitude⟩ := exists_read?_renderMagnitude hfinite
    have hinf : x.isInfinite = false := by simpa [isInfinite] using hfinite.ne
    have hsigned : signed? ((if x.isNegative then ("-" : Text) else "") ++
        renderMagnitude x.magnitude) = some (x.isNegative, d) := by
      cases x.isNegative with
      | false => exact signed?_of_read? hread
      | true =>
        change (DecimalNumeral.read? (renderMagnitude x.magnitude)).map (true, ·) = _
        rw [hread]
        rfl
    simp only [hinf, Bool.false_eq_true, if_false]
    rw [ofText?_of_signed? hsigned, hmagnitude, ofMagnitude_magnitude]
  · have hinf : x.isInfinite = true := by simpa [isInfinite] using hinfinite
    have hword : ofText? ((if x.isNegative then ("-" : Text) else "") ++ "inf") =
        some (ofMagnitude x.isNegative infinityMagnitude) := by
      cases x.isNegative <;> rfl
    simp only [hinf, Bool.false_eq_true, if_false, if_true]
    rw [hword, ← hinfinite, ofMagnitude_magnitude]

end Binary64

end Parley
