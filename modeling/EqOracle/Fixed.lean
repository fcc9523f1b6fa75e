/-
  EqOracle.Fixed
  ──────────────
  **THE PRICE TYPE: `sp_arithmetic::FixedI64`.**

  The pallet is generic over `T::Price: FixedPointNumber`; its runtime (and the mock,
  `mock.rs`) instantiates it with `FixedI64`: a signed fixed-point number whose inner value
  is an `i64` counting units of `10⁻⁹` (`DIV = 10⁹`).  The structure carries the `i64`
  range as fields, so an out-of-range price cannot be built.

  The operations the pallet and its price source use are modelled as the library computes
  them:

    * `add`          — `Self(self.0 + rhs.0)`, the native `i64` addition; a release build
                       wraps on overflow (`wrapI64`);
    * `checkedDiv`,
      `checkedMul`   — `multiply_by_rational` on the magnitudes, the sign put back, then the
                       range check of `from_i129`: truncation toward zero (`Int.tdiv`);
    * `saturatingFromInteger`, `saturatingFromRational`, `reciprocal`, `isNegative`,
      `isZero`, and the `Ord` of the inner value.

  `checkedDiv_two`: the division by `saturating_from_integer(2)` in `calc_median_price`
  never fails, so the panic of `Div::div` is unreachable there and `divTwo` is total.
-/
import Mathlib.Algebra.Group.Int
import Mathlib.Algebra.Group.Nat.Basic

namespace EqOracle

/-- `FixedI64::DIV`: one unit of the inner value is `10⁻⁹`. -/
def accuracy : Int := 1000000000

/-- A `FixedI64`: the inner `i64`, with its range. -/
structure FixedI64 where
  inner : Int
  min_le : -2 ^ 63 ≤ inner
  lt_max : inner < 2 ^ 63
  deriving DecidableEq

namespace FixedI64

theorem ext {a b : FixedI64} (h : a.inner = b.inner) : a = b := by
  cases a; cases b; cases h; rfl

/-! ## §1. Construction from an integer. -/

/-- `from_i129`: the inner value, if it fits `i64`. -/
def ofInt? (x : Int) : Option FixedI64 :=
  if h : -2 ^ 63 ≤ x ∧ x < 2 ^ 63 then some ⟨x, h.1, h.2⟩ else none

theorem ofInt?_of_range {x : Int} (h1 : -2 ^ 63 ≤ x) (h2 : x < 2 ^ 63) :
    ofInt? x = some ⟨x, h1, h2⟩ := by
  unfold ofInt?; rw [dif_pos ⟨h1, h2⟩]

/-- The two's-complement wrap of an integer into the `i64` range. -/
def wrapI64 (x : Int) : Int := (x + 2 ^ 63) % 2 ^ 64 - 2 ^ 63

theorem wrapI64_min_le (x : Int) : -2 ^ 63 ≤ wrapI64 x := by
  unfold wrapI64; omega

theorem wrapI64_lt_max (x : Int) : wrapI64 x < 2 ^ 63 := by
  unfold wrapI64; omega

/-- In range, the wrap is the identity. -/
theorem wrapI64_of_range {x : Int} (h1 : -2 ^ 63 ≤ x) (h2 : x < 2 ^ 63) : wrapI64 x = x := by
  unfold wrapI64; omega

/-- The `i64` value an integer wraps to. -/
def wrap (x : Int) : FixedI64 := ⟨wrapI64 x, wrapI64_min_le x, wrapI64_lt_max x⟩

/-- `saturating_from_integer`: `n · DIV`, clamped to the `i64` range. -/
def saturatingFromInteger (n : Int) : FixedI64 :=
  if h1 : n * accuracy < -2 ^ 63 then ⟨-2 ^ 63, by decide, by decide⟩
  else if h2 : 2 ^ 63 ≤ n * accuracy then ⟨2 ^ 63 - 1, by decide, by decide⟩
  else ⟨n * accuracy, by omega, by omega⟩

/-- `saturating_from_rational(n, d)` for `n ≥ 0` and `d > 0`: `n · DIV / d` rounded down
    (`multiply_by_rational`), saturated at `max_value()`. -/
def saturatingFromRational (n d : Nat) : FixedI64 :=
  if h : n * 1000000000 / d < 2 ^ 63 then
    ⟨(n * 1000000000 / d : Nat), Int.le_trans (by decide) (Int.ofNat_nonneg _), by omega⟩
  else ⟨2 ^ 63 - 1, by decide, by decide⟩

theorem saturatingFromRational_nonneg (n d : Nat) : 0 ≤ (saturatingFromRational n d).inner := by
  unfold saturatingFromRational
  split
  · exact Int.ofNat_nonneg _
  · decide

/-- `FixedI64::zero()`, the `Default`. -/
def zero : FixedI64 := ⟨0, by decide, by decide⟩

/-- `FixedI64::one()`. -/
def one : FixedI64 := ⟨accuracy, by decide, by decide⟩

/-- `FixedI64::max_value()`. -/
def maxValue : FixedI64 := ⟨2 ^ 63 - 1, by decide, by decide⟩

/-- `FixedI64::from_inner(1)`, the smallest positive value. -/
def minPositive : FixedI64 := ⟨1, by decide, by decide⟩

instance : Inhabited FixedI64 := ⟨zero⟩

/-! ## §2. Arithmetic. -/

/-- `impl Add for FixedI64`: `Self(self.0 + rhs.0)`, wrapping in a release build. -/
def add (a b : FixedI64) : FixedI64 := wrap (a.inner + b.inner)

/-- `checked_div`: `None` on a zero divisor or when the quotient leaves `i64`. -/
def checkedDiv (a b : FixedI64) : Option FixedI64 :=
  if b.inner = 0 then none else ofInt? ((a.inner * accuracy).tdiv b.inner)

/-- `checked_mul`: `None` when the product leaves `i64`. -/
def checkedMul (a b : FixedI64) : Option FixedI64 :=
  ofInt? ((a.inner * b.inner).tdiv accuracy)

/-- A product by a factor in `[-1, 1]` of a non-negative value never leaves `i64`. -/
theorem checkedMul_ne_none {a b : FixedI64} (ha : -accuracy ≤ a.inner ∧ a.inner ≤ accuracy)
    (hb : 0 ≤ b.inner) : checkedMul a b ≠ none := by
  have hdiv : ((a.inner * b.inner).tdiv accuracy).natAbs ≤ b.inner.natAbs := by
    rw [Int.natAbs_tdiv, Int.natAbs_mul]
    exact Nat.div_le_of_le_mul (Nat.mul_le_mul_right _ (by unfold accuracy at ha ⊢; omega))
  have := b.lt_max
  unfold checkedMul
  rw [ofInt?_of_range (by omega) (by omega)]
  simp

/-- `reciprocal`: `one().checked_div(self)`. -/
def reciprocal (x : FixedI64) : Option FixedI64 := checkedDiv one x

/-- The reciprocal fails exactly at zero: `|10¹⁸ / x| ≤ 10¹⁸` never leaves `i64`. -/
theorem reciprocal_eq_none_iff (x : FixedI64) : x.reciprocal = none ↔ x.inner = 0 := by
  unfold reciprocal checkedDiv
  by_cases h : x.inner = 0
  · simp [h]
  · have hq : ((one.inner * accuracy).tdiv x.inner).natAbs ≤ 10 ^ 18 := by
      rw [Int.natAbs_tdiv]; exact Nat.le_trans (Nat.div_le_self _ _) (by decide)
    rw [if_neg h, ofInt?_of_range (by omega) (by omega)]
    simp [h]

/-- The reciprocal of a non-negative value is non-negative. -/
theorem reciprocal_nonneg {x r : FixedI64} (h : x.reciprocal = some r) (hx : 0 ≤ x.inner) :
    0 ≤ r.inner := by
  unfold reciprocal checkedDiv ofInt? at h
  split at h
  · cases h
  · split at h
    · cases h
      exact Int.tdiv_nonneg (by decide) hx
    · cases h

/-- `is_negative`. -/
def isNegative (x : FixedI64) : Bool := decide (x.inner < 0)

/-- `is_zero`. -/
def isZero (x : FixedI64) : Bool := decide (x.inner = 0)

/-- Truncating division by a non-negative divisor, in terms of `/` (which floors), so that
    `omega` can reason about it. -/
theorem tdiv_eq_ite (z d : Int) (hd : 0 ≤ d) :
    z.tdiv d = if 0 ≤ z then z / d else -((-z) / d) := by
  split
  · exact Int.tdiv_eq_ediv ‹_› hd
  · rw [← Int.tdiv_eq_ediv (by omega) hd, Int.neg_tdiv, Int.neg_neg]

/-- Halving, truncated toward zero: what `x / saturating_from_integer(2)` computes
    (`checkedDiv_two`). -/
def divTwo (x : FixedI64) : FixedI64 :=
  ⟨x.inner.tdiv 2, by have := tdiv_eq_ite x.inner 2 (by decide); have := x.min_le; omega,
    by have := tdiv_eq_ite x.inner 2 (by decide); have := x.lt_max; omega⟩

/-- **The median's division never panics.**  Dividing by `saturating_from_integer(2)`
    always succeeds and halves toward zero. -/
theorem checkedDiv_two (x : FixedI64) :
    checkedDiv x (saturatingFromInteger 2) = some (divTwo x) := by
  have hs : (saturatingFromInteger 2).inner = 2 * accuracy := rfl
  have hq : (x.inner * accuracy).tdiv (2 * accuracy) = x.inner.tdiv 2 := by
    rw [tdiv_eq_ite _ _ (by decide), tdiv_eq_ite _ _ (by decide)]
    unfold accuracy
    split <;> split <;> omega
  simp only [checkedDiv, hs, hq, divTwo]
  exact ofInt?_of_range _ _

/-! ## §3. Order. -/

/-- `Ord for FixedI64`: the order of the inner values. -/
def cmp (a b : FixedI64) : Ordering := compare a.inner b.inner

theorem cmp_eq_lt {a b : FixedI64} : cmp a b = .lt ↔ a.inner < b.inner := by
  unfold cmp; simp only [compare, compareOfLessAndEq]
  by_cases h : a.inner < b.inner <;> by_cases h' : a.inner = b.inner <;> simp [h, h']

theorem cmp_eq_gt {a b : FixedI64} : cmp a b = .gt ↔ b.inner < a.inner := by
  unfold cmp; simp only [compare, compareOfLessAndEq]
  by_cases h : a.inner < b.inner <;> by_cases h' : a.inner = b.inner <;> simp [h, h'] <;> omega

theorem cmp_eq_eq {a b : FixedI64} : cmp a b = .eq ↔ a.inner = b.inner := by
  unfold cmp; simp only [compare, compareOfLessAndEq]
  by_cases h : a.inner < b.inner <;> by_cases h' : a.inner = b.inner <;> simp [h, h']

end FixedI64

end EqOracle
