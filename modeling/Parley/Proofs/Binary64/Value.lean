import Mathlib.Algebra.Order.Field.Power
import Mathlib.Data.Rat.Cast.Order
import Mathlib.Tactic.Linarith
import Mathlib.Tactic.Positivity
import Mathlib.Tactic.Ring
import Parley.Binary64.Basic

/-! # The values of patterns

Every pattern without a sign has a rational value, and a larger pattern has a larger value.
The pattern of infinity counts as the power of two above the finite numbers, so that a
number rounds to infinity from the middle between this power and the largest finite one.
The pattern nearest to a number, an exact half going to the even one, is unique.
-/

namespace Parley.Binary64

def magnitudeValue (k : Nat) : ℚ :=
  (significand k).1 * 2 ^ (significand k).2

theorem significand_add {c n : Nat} (hc : c < 2 ^ 53) (h : 2 ^ 52 ≤ c ∨ n = 0) :
    significand (c + n * 2 ^ 52) = (c, (n : Int) - 1074) := by
  have hpow : Nat.pow 2 52 = 2 ^ 52 := rfl
  rcases Nat.lt_or_ge c (2 ^ 52) with hlt | hge
  · obtain rfl : n = 0 := h.resolve_left (by omega)
    have hexponent : c / 2 ^ 52 = 0 := Nat.div_eq_of_lt hlt
    have hfraction : c % 2 ^ 52 = c := Nat.mod_eq_of_lt hlt
    simp only [significand, hpow, Nat.zero_mul, Nat.add_zero, hexponent, hfraction, if_true]
    rfl
  · have hexponent : (c + n * 2 ^ 52) / 2 ^ 52 = n + 1 := by omega
    have hfraction : (c + n * 2 ^ 52) % 2 ^ 52 + 2 ^ 52 = c := by omega
    simp only [significand, hpow, hexponent, hfraction, Nat.succ_ne_zero, if_false, Prod.mk.injEq,
      true_and]
    push_cast
    ring

/-- A pattern is a significand, moved up by one binade for each step of the exponent. -/
theorem exists_significand (k : Nat) :
    ∃ c n : Nat, k = c + n * 2 ^ 52 ∧ c < 2 ^ 53 ∧ (2 ^ 52 ≤ c ∨ n = 0) := by
  rcases Nat.lt_or_ge k (2 ^ 52) with hlt | hge
  · exact ⟨k, 0, by omega, by omega, .inr rfl⟩
  · exact ⟨k % 2 ^ 52 + 2 ^ 52, k / 2 ^ 52 - 1, by omega, by omega, .inl (by omega)⟩

theorem magnitudeValue_add {c n : Nat} (hc : c ≤ 2 ^ 53) (h : 2 ^ 52 ≤ c ∨ n = 0) :
    magnitudeValue (c + n * 2 ^ 52) = c * 2 ^ ((n : Int) - 1074) := by
  rcases Nat.lt_or_ge c (2 ^ 53) with hlt | hge
  · rw [magnitudeValue, significand_add hlt h]
  · obtain rfl : c = 2 ^ 53 := by omega
    have hnext : 2 ^ 53 + n * 2 ^ 52 = 2 ^ 52 + (n + 1) * 2 ^ 52 := by omega
    have hexponent : ((n + 1 : Nat) : Int) - 1074 = 1 + ((n : Int) - 1074) := by
      push_cast
      ring
    rw [hnext, magnitudeValue, significand_add (by omega) (.inl le_rfl), hexponent,
      zpow_add₀ two_ne_zero]
    push_cast
    ring

theorem magnitudeValue_lt_succ (k : Nat) : magnitudeValue k < magnitudeValue (k + 1) := by
  obtain ⟨c, n, rfl, hc, h⟩ := exists_significand k
  have hnext : c + n * 2 ^ 52 + 1 = (c + 1) + n * 2 ^ 52 := by omega
  rw [hnext, magnitudeValue_add hc.le h, magnitudeValue_add hc (h.imp_left (by omega))]
  push_cast
  have hpos : (0 : ℚ) < 2 ^ ((n : Int) - 1074) := by positivity
  linarith

theorem magnitudeValue_strictMono : StrictMono magnitudeValue :=
  strictMono_nat_of_lt_succ magnitudeValue_lt_succ

theorem magnitudeValue_zero : magnitudeValue 0 = 0 := by
  simp [magnitudeValue, significand]

theorem magnitudeValue_nonneg (k : Nat) : 0 ≤ magnitudeValue k :=
  magnitudeValue_zero ▸ magnitudeValue_strictMono.monotone k.zero_le

theorem magnitudeValue_infinity : magnitudeValue infinityMagnitude = 2 ^ 1024 := by
  have h : infinityMagnitude = 2 ^ 52 + 2046 * 2 ^ 52 := by rfl
  have hexponent : ((2046 : Nat) : Int) - 1074 = (972 : Nat) := rfl
  rw [h, magnitudeValue_add (by omega) (.inl le_rfl), hexponent, zpow_natCast,
    Nat.cast_pow, Nat.cast_ofNat, ← pow_add]

/-- No pattern is nearer to the number, and where another one is as near, this one is even. -/
structure IsNearest (v : ℚ) (k : Nat) : Prop where
  le : k ≤ infinityMagnitude
  nearest : ∀ j ≤ infinityMagnitude, |magnitudeValue k - v| ≤ |magnitudeValue j - v|
  even : ∀ j ≤ infinityMagnitude, j ≠ k →
    |magnitudeValue k - v| = |magnitudeValue j - v| → k % 2 = 0

variable {v : ℚ} {k j : Nat}

theorem IsNearest.not_lt (hk : IsNearest v k) (hj : IsNearest v j) : ¬ k < j := by
  intro hlt
  have hvalue := magnitudeValue_strictMono hlt
  have heq : |magnitudeValue k - v| = |magnitudeValue j - v| :=
    le_antisymm (hk.nearest j hj.le) (hj.nearest k hk.le)
  -- The number is the middle, so a pattern in between would be nearer.
  have hmiddle : magnitudeValue k + magnitudeValue j = 2 * v := by
    rcases abs_eq_abs.mp heq with h | h <;> linarith
  have hsucc : j = k + 1 := by
    by_contra hne
    have hlow := magnitudeValue_lt_succ k
    have hhigh : magnitudeValue (k + 1) < magnitudeValue j :=
      magnitudeValue_strictMono (by omega)
    have hnear := hk.nearest (k + 1) (by have := hj.le; omega)
    have hdistance : |magnitudeValue k - v| = v - magnitudeValue k := by
      rw [abs_of_nonpos (by linarith)]
      ring
    rw [hdistance, le_abs] at hnear
    rcases hnear with h | h <;> linarith
  have hevenk := hk.even j hj.le (by omega) heq
  have hevenj := hj.even k hk.le (by omega) heq.symm
  omega

theorem IsNearest.unique (hk : IsNearest v k) (hj : IsNearest v j) : k = j :=
  le_antisymm (Nat.le_of_not_lt (hj.not_lt hk)) (Nat.le_of_not_lt (hk.not_lt hj))

/-- The lower neighbour of a number in the lower half between two neighbours is nearest. -/
theorem isNearest_lower (hk : k < infinityMagnitude) (hlow : magnitudeValue k ≤ v)
    (hhalf : 2 * v ≤ magnitudeValue k + magnitudeValue (k + 1))
    (heven : 2 * v = magnitudeValue k + magnitudeValue (k + 1) → k % 2 = 0) :
    IsNearest v k := by
  have hdistance : |magnitudeValue k - v| = v - magnitudeValue k := by
    rw [abs_of_nonpos (by linarith)]
    ring
  have habove : ∀ j, k < j → magnitudeValue (k + 1) ≤ magnitudeValue j :=
    fun j hj => magnitudeValue_strictMono.monotone hj
  have hbelow : ∀ j, j < k → magnitudeValue j < magnitudeValue k :=
    fun j hj => magnitudeValue_strictMono hj
  refine ⟨hk.le, fun j _ => ?_, fun j _ hne he => ?_⟩
  · rw [hdistance, le_abs]
    rcases lt_trichotomy j k with hj | rfl | hj
    · exact .inr (by linarith [hbelow j hj])
    · exact .inr (by linarith)
    · exact .inl (by linarith [habove j hj])
  · rw [hdistance] at he
    rcases lt_or_gt_of_ne hne with hj | hj
    · have := hbelow j hj
      rw [abs_of_nonpos (by linarith)] at he
      linarith
    · have := habove j hj
      rw [abs_of_nonneg (by linarith)] at he
      exact heven (by linarith)

theorem isNearest_upper (hk : k < infinityMagnitude) (hhigh : v ≤ magnitudeValue (k + 1))
    (hhalf : magnitudeValue k + magnitudeValue (k + 1) ≤ 2 * v)
    (heven : 2 * v = magnitudeValue k + magnitudeValue (k + 1) → k % 2 = 1) :
    IsNearest v (k + 1) := by
  have hdistance : |magnitudeValue (k + 1) - v| = magnitudeValue (k + 1) - v :=
    abs_of_nonneg (by linarith)
  have habove : ∀ j, k + 1 < j → magnitudeValue (k + 1) < magnitudeValue j :=
    fun j hj => magnitudeValue_strictMono hj
  have hbelow : ∀ j, j < k + 1 → magnitudeValue j ≤ magnitudeValue k :=
    fun j hj => magnitudeValue_strictMono.monotone (Nat.le_of_lt_succ hj)
  refine ⟨hk, fun j _ => ?_, fun j _ hne he => ?_⟩
  · rw [hdistance, le_abs]
    rcases lt_trichotomy j (k + 1) with hj | rfl | hj
    · exact .inr (by linarith [hbelow j hj])
    · exact .inl le_rfl
    · exact .inl (by linarith [habove j hj])
  · rw [hdistance] at he
    rcases lt_or_gt_of_ne hne with hj | hj
    · have := hbelow j hj
      rw [abs_of_nonpos (by linarith)] at he
      have := heven (by linarith)
      omega
    · have := habove j hj
      rw [abs_of_nonneg (by linarith)] at he
      linarith

/-- Everything from the power of two above the finite numbers on rounds to infinity. -/
theorem isNearest_infinity (h : magnitudeValue infinityMagnitude ≤ v) :
    IsNearest v infinityMagnitude := by
  have hbelow : ∀ j, j < infinityMagnitude →
      magnitudeValue j < magnitudeValue infinityMagnitude :=
    fun j hj => magnitudeValue_strictMono hj
  have hdistance : |magnitudeValue infinityMagnitude - v| =
      v - magnitudeValue infinityMagnitude := by
    rw [abs_of_nonpos (by linarith)]
    ring
  refine ⟨le_rfl, fun j hj => ?_, fun _ _ _ _ => rfl⟩
  rw [hdistance, le_abs]
  rcases hj.lt_or_eq with hlt | rfl
  · exact .inr (by linarith [hbelow j hlt])
  · exact .inr (by linarith)

end Parley.Binary64
