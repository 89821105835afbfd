/-
  Mainflux.Lib.Binary64
  ─────────────────────
  **`float64`, AND DECIMALS AS NEAR TO IT AS CAN BE.**

  A number is its sign and its other 63 bits, which order the magnitudes.  The
  finite ones are whole multiples of `2 ^ -1074` (`units`), so that everything
  here is computed with natural numbers.

    • `ofDecimal` — the number next to a decimal, and the even one of two;
    • `round_units`, `roundDecimal_shift` — a magnitude is next to itself, and
      what is next depends on the value of the decimal alone;
    • `ofDecimal_int` — which whole numbers are kept as they are;
    • `value_toBinary64` — every `float32` is.
-/
import Mathlib.Algebra.Field.Rat
import Mathlib.Data.Int.Cast.Lemmas

namespace Mainflux.Lib

/-- The sign, and exponent and fraction as one number. -/
structure Binary64 where
  negative : Bool
  magnitude : Fin (2 ^ 63)
  deriving DecidableEq

/-- Also a `float32` has its sign, and exponent and fraction as one number. -/
structure Binary32 where
  negative : Bool
  magnitude : Fin (2 ^ 31)
  deriving DecidableEq

namespace Binary64

/-! ## §1. Magnitudes. -/

/-- The unit of the magnitudes is `2 ^ -precision`. -/
def precision : Nat := 1074

/-- The magnitude of the infinities; those behind it are no numbers. -/
def infinity : Nat := 2047 * 2 ^ 52

/-- The positive zero. -/
def zero : Binary64 := ⟨false, 0⟩

/-- A finite magnitude, in units. -/
def units (k : Nat) : Nat :=
  if k < 2 ^ 52 then k else (2 ^ 52 + k % 2 ^ 52) * 2 ^ (k / 2 ^ 52 - 1)

/-- The last magnitude that has at most `u` units. -/
def index (u : Nat) : Nat := (Nat.log2 u - 52) * 2 ^ 52 + u / 2 ^ (Nat.log2 u - 52)

/-- The magnitude that is next to `num / den` units. -/
def round (num den : Nat) : Nat :=
  let k := index (num / den)
  let middle := (units k + units (k + 1)) * den
  if 2 * num < middle ∨ 2 * num = middle ∧ k % 2 = 0 then k else k + 1

/-- The magnitude next to `n * 10 ^ e`. -/
def roundDecimal (n : Nat) (e : Int) : Nat :=
  round (n * 10 ^ e.toNat * 2 ^ precision) (10 ^ (-e).toNat)

/-- What is read for `n * 10 ^ e`, if it is not too large. -/
def ofDecimal (negative : Bool) (n : Nat) (e : Int) : Option Binary64 :=
  if h : roundDecimal n e < infinity then
    some ⟨negative, roundDecimal n e, Nat.lt_trans h (by decide)⟩
  else none

def Finite (x : Binary64) : Prop := x.magnitude.val < infinity

instance (x : Binary64) : Decidable x.Finite := inferInstanceAs (Decidable (_ < _))

/-! ## §2. Magnitudes and units. -/

/-- The units, by exponent and fraction. -/
theorem units_eq (e : Nat) {f : Nat} (hf : f < 2 ^ 52) :
    units (e * 2 ^ 52 + f) = if e = 0 then f else (2 ^ 52 + f) * 2 ^ (e - 1) := by
  unfold units
  by_cases he : e = 0
  · subst he
    rw [if_pos rfl, Nat.zero_mul, Nat.zero_add, if_pos hf]
  · have hdiv : (e * 2 ^ 52 + f) / 2 ^ 52 = e := by omega
    have hmod : (e * 2 ^ 52 + f) % 2 ^ 52 = f := by omega
    rw [if_neg he, if_neg (by omega), hdiv, hmod]

/-- Exponent and fraction of a magnitude. -/
theorem exists_parts (k : Nat) : ∃ e f, f < 2 ^ 52 ∧ k = e * 2 ^ 52 + f :=
  ⟨k / 2 ^ 52, k % 2 ^ 52, Nat.mod_lt _ (by decide), by omega⟩

theorem log2_mul_two_pow {q s : Nat} (h1 : 2 ^ 52 ≤ q) (h2 : q < 2 ^ 53) :
    Nat.log2 (q * 2 ^ s) = 52 + s := by
  have hne : q * 2 ^ s ≠ 0 := Nat.mul_ne_zero (by omega) (Nat.two_pow_pos s).ne'
  have hle : 52 + s ≤ Nat.log2 (q * 2 ^ s) := by
    rw [Nat.le_log2 hne, Nat.pow_add]
    exact Nat.mul_le_mul_right _ h1
  have hlt : Nat.log2 (q * 2 ^ s) < 53 + s := by
    rw [Nat.log2_lt hne, Nat.pow_add]
    exact Nat.mul_lt_mul_of_pos_right h2 (Nat.two_pow_pos s)
  omega

/-- A significand of full length, as a magnitude. -/
theorem index_mul_two_pow {q s : Nat} (h1 : 2 ^ 52 ≤ q) (h2 : q < 2 ^ 53) :
    index (q * 2 ^ s) = s * 2 ^ 52 + q := by
  unfold index
  rw [log2_mul_two_pow h1 h2, Nat.add_sub_cancel_left, Nat.mul_div_cancel _ (Nat.two_pow_pos s)]

theorem index_of_lt {u : Nat} (h : u < 2 ^ 53) : index u = u := by
  have hlog : Nat.log2 u - 52 = 0 := by
    by_cases hu : u = 0
    · rw [hu]
      rfl
    · have := (Nat.log2_lt hu).mpr h
      omega
  rw [index, hlog]
  omega

/-- `index` finds the magnitude again. -/
theorem index_units (k : Nat) : index (units k) = k := by
  obtain ⟨e, f, hf, rfl⟩ := exists_parts k
  rw [units_eq e hf]
  by_cases he : e = 0
  · rw [if_pos he, he, index_of_lt (by omega)]
    omega
  · rw [if_neg he, index_mul_two_pow (by omega) (by omega)]
    omega

/-- Magnitudes grow with their number. -/
theorem units_lt_succ (k : Nat) : units k < units (k + 1) := by
  obtain ⟨e, f, hf, rfl⟩ := exists_parts k
  rw [units_eq e hf]
  by_cases hlast : f + 1 < 2 ^ 52
  · rw [Nat.add_assoc, units_eq e hlast]
    split
    next => omega
    next => exact Nat.mul_lt_mul_of_pos_right (by omega) (Nat.two_pow_pos _)
  · -- the last fraction of an exponent
    have hnext : e * 2 ^ 52 + f + 1 = (e + 1) * 2 ^ 52 + 0 := by omega
    rw [hnext, units_eq (e + 1) (by decide), if_neg (Nat.succ_ne_zero e), Nat.add_sub_cancel]
    cases e with
    | zero =>
        rw [if_pos rfl, Nat.pow_zero]
        omega
    | succ e =>
        have hpos := Nat.two_pow_pos e
        have hdouble : 2 ^ (e + 1) = 2 ^ e * 2 := Nat.pow_succ 2 e
        rw [if_neg (Nat.succ_ne_zero e), Nat.add_sub_cancel, hdouble]
        have hle : (2 ^ 52 + f) * 2 ^ e ≤ (2 ^ 53 - 1) * 2 ^ e :=
          Nat.mul_le_mul_right _ (by omega)
        omega

theorem units_of_lt {u : Nat} (h : u < 2 ^ 53) : units u = u := by
  by_cases hu : u < 2 ^ 52
  · exact if_pos hu
  · have hparts : u = 1 * 2 ^ 52 + (u - 2 ^ 52) := by omega
    rw [hparts, units_eq 1 (by omega), if_neg Nat.one_ne_zero, Nat.sub_self, Nat.pow_zero]
    omega

/-- What has at most 53 significant bits is a magnitude. -/
theorem units_index {m : Nat} (s : Nat) (h : m < 2 ^ 53) :
    units (index (m * 2 ^ s)) = m * 2 ^ s := by
  by_cases hsmall : m * 2 ^ s < 2 ^ 53
  · rw [index_of_lt hsmall, units_of_lt hsmall]
  · -- `m` is moved up until it has full length
    have hm : m ≠ 0 := by
      intro h0
      rw [h0, Nat.zero_mul] at hsmall
      exact hsmall (by decide)
    have hlog : Nat.log2 m < 53 := (Nat.log2_lt hm).mpr h
    obtain ⟨j, hj⟩ : ∃ j, Nat.log2 m + j = 52 := ⟨52 - Nat.log2 m, by omega⟩
    have h1 : 2 ^ 52 ≤ m * 2 ^ j := by
      rw [← hj, Nat.pow_add]
      exact Nat.mul_le_mul_right _ (Nat.log2_self_le hm)
    have h2 : m * 2 ^ j < 2 ^ 53 := by
      rw [show 53 = Nat.log2 m + 1 + j by omega, Nat.pow_add]
      exact Nat.mul_lt_mul_of_pos_right Nat.lt_log2_self (Nat.two_pow_pos j)
    have hjs : j ≤ s := by
      by_contra hlt
      exact hsmall (lt_of_le_of_lt
        (Nat.mul_le_mul_left _ (Nat.pow_le_pow_right (by decide) (by omega))) h2)
    have hu : m * 2 ^ s = m * 2 ^ j * 2 ^ (s - j) := by
      rw [Nat.mul_assoc, ← Nat.pow_add, Nat.add_sub_cancel' hjs]
    have hparts : (s - j) * 2 ^ 52 + m * 2 ^ j = (s - j + 1) * 2 ^ 52 + (m * 2 ^ j - 2 ^ 52) := by
      omega
    rw [hu, index_mul_two_pow h1 h2, hparts, units_eq _ (by omega), if_neg (Nat.succ_ne_zero _),
      Nat.add_sub_cancel, Nat.add_sub_cancel' h1]

/-- Rounding depends on the quotient only. -/
theorem round_congr {a b c d : Nat} (hb : 0 < b) (hd : 0 < d) (h : a * d = c * b) :
    round a b = round c d := by
  have hdiv : a / b = c / d := by
    rw [← Nat.mul_div_mul_right a b hd, h, Nat.mul_comm b d, Nat.mul_div_mul_right c d hb]
  have hlt : ∀ M, 2 * a < M * b ↔ 2 * c < M * d := by
    intro M
    rw [← Nat.mul_lt_mul_right hd, ← Nat.mul_lt_mul_right hb (b := 2 * c), Nat.mul_assoc 2, h,
      Nat.mul_assoc 2, Nat.mul_assoc M, Nat.mul_assoc M, Nat.mul_comm b d]
  have heq : ∀ M, 2 * a = M * b ↔ 2 * c = M * d := by
    intro M
    rw [← Nat.mul_left_inj hd.ne', ← Nat.mul_left_inj hb.ne' (b := 2 * c), Nat.mul_assoc 2, h,
      Nat.mul_assoc 2, Nat.mul_assoc M, Nat.mul_assoc M, Nat.mul_comm b d]
  unfold round
  simp only [hdiv, hlt, heq]

/-- A magnitude is next to itself. -/
theorem round_units (k : Nat) : round (units k) 1 = k := by
  have hlt := units_lt_succ k
  unfold round
  rw [Nat.div_one, index_units]
  exact if_pos (.inl (by omega))

/-! ## §3. Decimals. -/

theorem roundDecimal_eq {n k : Nat} {e : Int}
    (h : n * 10 ^ e.toNat * 2 ^ precision = units k * 10 ^ (-e).toNat) : roundDecimal n e = k := by
  rw [roundDecimal, ← round_units k]
  exact round_congr (Nat.pow_pos (by decide)) Nat.one_pos (by rw [Nat.mul_one, h])

/-- Zeros at the end of the coefficient may go to the exponent. -/
theorem roundDecimal_shift (n z : Nat) (e : Int) :
    roundDecimal (n * 10 ^ z) e = roundDecimal n (e + z) := by
  refine round_congr (Nat.pow_pos (by decide)) (Nat.pow_pos (by decide)) ?_
  have hexp : z + e.toNat + (-(e + z)).toNat = (e + z).toNat + (-e).toNat := by omega
  calc n * 10 ^ z * 10 ^ e.toNat * 2 ^ precision * 10 ^ (-(e + z)).toNat
      = n * 10 ^ (z + e.toNat + (-(e + z)).toNat) * 2 ^ precision := by
        rw [Nat.pow_add, Nat.pow_add]
        generalize 2 ^ precision = unit
        ac_rfl
    _ = n * 10 ^ (e + z).toNat * 2 ^ precision * 10 ^ (-e).toNat := by
        rw [hexp, Nat.pow_add]
        generalize 2 ^ precision = unit
        ac_rfl

theorem roundDecimal_zero (e : Int) : roundDecimal 0 e = 0 := by
  apply roundDecimal_eq
  rw [Nat.zero_mul, Nat.zero_mul, units_of_lt (by decide), Nat.zero_mul]

theorem ofDecimal_eq {negative : Bool} {n : Nat} {e : Int} {x : Binary64}
    (h : roundDecimal n e = x.magnitude) (hx : x.Finite) (hsign : x.negative = negative) :
    ofDecimal negative n e = some x := by
  subst hsign
  have hlt : roundDecimal n e < infinity := by
    rw [h]
    exact hx
  rw [ofDecimal, dif_pos hlt]
  congr 2
  exact Fin.ext h

/-! ## §4. Values. -/

/-- A finite number, in units. -/
def signed (x : Binary64) : Int := if x.negative then -(units x.magnitude : Int) else units x.magnitude

/-- The value of a finite number. -/
def value (x : Binary64) : ℚ := x.signed / 2 ^ precision

/-- At most 53 significant bits. -/
def Short (n : Nat) : Prop := ∃ m s, m < 2 ^ 53 ∧ n = m * 2 ^ s

theorem value_eq_int {x : Binary64} {n : Int} : x.value = n ↔ x.signed = n * 2 ^ precision := by
  have hpos : (2 : ℚ) ^ precision ≠ 0 := pow_ne_zero _ (by decide)
  rw [value, div_eq_iff hpos]
  constructor
  · intro h
    exact_mod_cast h
  · intro h
    exact_mod_cast h

/-- A whole number that is a magnitude has at most 53 significant bits. -/
theorem short_of_units {k n : Nat} (h : units k = n * 2 ^ precision) : Short n := by
  obtain ⟨e, f, hf, rfl⟩ := exists_parts k
  rw [units_eq e hf] at h
  have hp := Nat.two_pow_pos precision
  by_cases he : e = 0
  · rw [if_pos he] at h
    refine ⟨n, 0, ?_, (Nat.mul_one n).symm⟩
    have hle : n * 1 ≤ n * 2 ^ precision := Nat.mul_le_mul_left n hp
    omega
  · rw [if_neg he] at h
    rcases Nat.le_total precision (e - 1) with hle | hle
    · obtain ⟨s, hs⟩ := Nat.exists_eq_add_of_le hle
      refine ⟨2 ^ 52 + f, s, by omega, ?_⟩
      rw [hs, Nat.pow_add, Nat.mul_comm (2 ^ precision), ← Nat.mul_assoc] at h
      exact (Nat.eq_of_mul_eq_mul_right hp h).symm
    · obtain ⟨s, hs⟩ := Nat.exists_eq_add_of_le hle
      refine ⟨n, 0, ?_, (Nat.mul_one n).symm⟩
      rw [hs, Nat.pow_add, Nat.mul_comm (2 ^ (e - 1)), ← Nat.mul_assoc] at h
      have hn : 2 ^ 52 + f = n * 2 ^ s := Nat.eq_of_mul_eq_mul_right (Nat.two_pow_pos _) h
      have hle : n * 1 ≤ n * 2 ^ s := Nat.mul_le_mul_left n (Nat.two_pow_pos s)
      omega

theorem index_lt {u s : Nat} (h : u < 2 ^ (52 + s)) : index u < (s + 1) * 2 ^ 52 := by
  by_cases hu : u < 2 ^ 52
  · rw [index_of_lt (by omega)]
    omega
  · have hne : u ≠ 0 := by omega
    have hge : 52 ≤ Nat.log2 u := (Nat.le_log2 hne).mpr (by omega)
    have hlt : Nat.log2 u < 52 + s := (Nat.log2_lt hne).mpr h
    obtain ⟨t, ht⟩ := Nat.exists_eq_add_of_le hge
    have hquot : u / 2 ^ t < 2 ^ 53 := by
      rw [Nat.div_lt_iff_lt_mul (Nat.two_pow_pos t), ← Nat.pow_add]
      have hself := Nat.lt_log2_self (n := u)
      rw [ht, show 52 + t + 1 = 53 + t by omega] at hself
      exact hself
    rw [index, ht, Nat.add_sub_cancel_left]
    omega

theorem round_le (num den : Nat) : round num den ≤ index (num / den) + 1 := by
  unfold round
  dsimp only
  split
  next => exact Nat.le_succ _
  next => exact Nat.le_refl _

theorem roundDecimal_int (n : Nat) : roundDecimal n 0 = round (n * 2 ^ precision) 1 := by
  rw [roundDecimal, Int.neg_zero, Int.toNat_zero, Nat.pow_zero, Nat.mul_one]

theorem mul_lt_two_pow {n a : Nat} (b c : Nat) (heq : a + b = 52 + c) (h : n < 2 ^ a) :
    n * 2 ^ b < 2 ^ (52 + c) := by
  rw [← heq, Nat.pow_add]
  exact Nat.mul_lt_mul_of_pos_right h (Nat.two_pow_pos b)

/-- A whole number below `2 ^ 64` is not too large. -/
theorem roundDecimal_int_lt {n : Nat} (h : n < 2 ^ 64) : roundDecimal n 0 < infinity := by
  have hindex := index_lt (mul_lt_two_pow precision 1086 rfl h)
  have hround := round_le (n * 2 ^ precision) 1
  rw [Nat.div_one] at hround
  rw [roundDecimal_int, infinity]
  omega

theorem units_roundDecimal_int {n : Nat} (h : Short n) :
    units (roundDecimal n 0) = n * 2 ^ precision := by
  obtain ⟨m, s, hm, rfl⟩ := h
  have hunits := units_index (s + precision) hm
  rw [Nat.pow_add, ← Nat.mul_assoc] at hunits
  have hround : roundDecimal (m * 2 ^ s) 0 = index (m * 2 ^ s * 2 ^ precision) := by
    apply roundDecimal_eq
    rw [hunits, Int.neg_zero, Int.toNat_zero, Nat.pow_zero, Nat.mul_one, Nat.mul_one]
  rw [hround, hunits]

/-- **A whole number is read as a number that has its value exactly when it has at most 53
significant bits.** -/
theorem ofDecimal_int {n : Int} (h : n.natAbs < 2 ^ 64) :
    ∃ x, ofDecimal (decide (n < 0)) n.natAbs 0 = some x ∧ (x.value = n ↔ Short n.natAbs) := by
  have hlt := roundDecimal_int_lt h
  have hbound : roundDecimal n.natAbs 0 < 2 ^ 63 := Nat.lt_trans hlt (by decide)
  refine ⟨⟨decide (n < 0), ⟨roundDecimal n.natAbs 0, hbound⟩⟩, ofDecimal_eq rfl hlt rfl, ?_⟩
  have hunits : signed ⟨decide (n < 0), ⟨roundDecimal n.natAbs 0, hbound⟩⟩ = n * 2 ^ precision ↔
      units (roundDecimal n.natAbs 0) = n.natAbs * 2 ^ precision := by
    have hcast : ((n.natAbs * 2 ^ precision : Nat) : Int) = n.natAbs * 2 ^ precision := by
      push_cast
      rfl
    rw [← Int.ofNat_inj, hcast, signed]
    show (if _ then -(units (roundDecimal n.natAbs 0) : Int) else units (roundDecimal n.natAbs 0))
      = _ ↔ _
    generalize (units (roundDecimal n.natAbs 0) : Int) = u
    by_cases hn : n < 0
    · have habs : (n.natAbs : Int) = -n := by omega
      rw [if_pos (by simpa using hn), habs, Int.neg_mul, Int.neg_eq_comm, eq_comm]
    · have habs : (n.natAbs : Int) = n := by omega
      rw [if_neg (by simpa using hn), habs]
  rw [value_eq_int, hunits]
  exact ⟨short_of_units, units_roundDecimal_int⟩

end Binary64

/-! ## §5. `float32`. -/

namespace Binary32

/-- The finite magnitude of a `float32`, in units of `2 ^ -149`. -/
def units (k : Nat) : Nat :=
  if k < 2 ^ 23 then k else (2 ^ 23 + k % 2 ^ 23) * 2 ^ (k / 2 ^ 23 - 1)

def Finite (x : Binary32) : Prop := x.magnitude.val < 255 * 2 ^ 23

instance (x : Binary32) : Decidable x.Finite := inferInstanceAs (Decidable (_ < _))

/-- The value of a finite number. -/
def value (x : Binary32) : ℚ :=
  (if x.negative then -(units x.magnitude : ℚ) else units x.magnitude) / 2 ^ 149

/-- `float64(x)`; the infinities and what is no number keep their fraction. -/
def toBinary64 (x : Binary32) : Binary64 where
  negative := x.negative
  magnitude := Fin.ofNat _ <|
    if 255 * 2 ^ 23 ≤ x.magnitude.val then
      Binary64.infinity + (x.magnitude.val - 255 * 2 ^ 23) * 2 ^ 29
    else Binary64.index (units x.magnitude.val * 2 ^ 925)

/-- Twenty-four significant bits, and a bounded exponent. -/
theorem exists_units {k : Nat} (h : k < 255 * 2 ^ 23) :
    ∃ m s, m < 2 ^ 24 ∧ s ≤ 253 ∧ units k = m * 2 ^ s := by
  unfold units
  split
  next hk => exact ⟨k, 0, by omega, by omega, (Nat.mul_one k).symm⟩
  next hk => exact ⟨2 ^ 23 + k % 2 ^ 23, k / 2 ^ 23 - 1, by omega, by omega, rfl⟩

theorem index_units_lt {k : Nat} (h : k < 255 * 2 ^ 23) :
    Binary64.index (units k * 2 ^ 925) < Binary64.infinity := by
  obtain ⟨m, s, hm, hs, hunits⟩ := exists_units h
  have hindex :=
    Binary64.index_lt (Binary64.mul_lt_two_pow (s + 925) (897 + s) (by omega) hm)
  rw [hunits, Nat.mul_assoc, ← Nat.pow_add]
  refine lt_of_lt_of_le hindex ?_
  rw [Binary64.infinity]
  exact Nat.mul_le_mul_right _ (by omega)

theorem magnitude_toBinary64 {x : Binary32} (h : x.Finite) :
    x.toBinary64.magnitude.val = Binary64.index (units x.magnitude * 2 ^ 925) := by
  have hlt := index_units_lt h
  have hx : ¬ 255 * 2 ^ 23 ≤ x.magnitude.val := Nat.not_le.mpr h
  rw [toBinary64, if_neg hx]
  exact Nat.mod_eq_of_lt (Nat.lt_trans hlt (by decide))

theorem finite_toBinary64 (x : Binary32) : x.toBinary64.Finite ↔ x.Finite := by
  by_cases h : x.Finite
  · refine iff_of_true ?_ h
    rw [Binary64.Finite, magnitude_toBinary64 h]
    exact index_units_lt h
  · refine iff_of_false ?_ h
    have hx : 255 * 2 ^ 23 ≤ x.magnitude.val := Nat.not_lt.mp h
    have hbound := x.magnitude.isLt
    have hmod : (Binary64.infinity + (x.magnitude.val - 255 * 2 ^ 23) * 2 ^ 29) % 2 ^ 63
        = Binary64.infinity + (x.magnitude.val - 255 * 2 ^ 23) * 2 ^ 29 := by
      apply Nat.mod_eq_of_lt
      rw [Binary64.infinity]
      omega
    rw [Binary64.Finite, toBinary64, if_pos hx]
    show ¬ (Binary64.infinity + (x.magnitude.val - 255 * 2 ^ 23) * 2 ^ 29) % 2 ^ 63 < _
    rw [hmod]
    omega

/-- **The conversion keeps the value.** -/
theorem value_toBinary64 {x : Binary32} (h : x.Finite) : x.toBinary64.value = x.value := by
  obtain ⟨m, s, hm, -, hunits⟩ := exists_units h
  have hmagnitude : Binary64.units x.toBinary64.magnitude = units x.magnitude * 2 ^ 925 := by
    rw [magnitude_toBinary64 h, hunits, Nat.mul_assoc, ← Nat.pow_add]
    exact Binary64.units_index (s + 925) (by omega)
  have hscale : (2 : ℚ) ^ Binary64.precision = 2 ^ 149 * 2 ^ 925 :=
    pow_add 2 149 925
  have hpos : (2 : ℚ) ^ 925 ≠ 0 := pow_ne_zero _ (by decide)
  have hsigned : (x.toBinary64.signed : ℚ)
      = (if x.negative then -(units x.magnitude : ℚ) else units x.magnitude) * 2 ^ 925 := by
    rw [Binary64.signed, hmagnitude, show x.toBinary64.negative = x.negative from rfl]
    split
    next => rw [Int.cast_neg, Int.cast_natCast, Nat.cast_mul, Nat.cast_pow, Nat.cast_ofNat, neg_mul]
    next => rw [Int.cast_natCast, Nat.cast_mul, Nat.cast_pow, Nat.cast_ofNat]
  rw [Binary64.value, hsigned, hscale, mul_div_mul_right _ _ hpos, value]

end Binary32

end Mainflux.Lib
