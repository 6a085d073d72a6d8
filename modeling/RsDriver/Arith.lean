import Mathlib.Algebra.Order.Floor
import Mathlib.Data.Rat.Floor
import Mathlib.Order.Monotone.Basic

/-!
C++ arithmetic as the decoders use it.

Integers are `ℤ`; the C++ `%` on `int` truncates towards zero and is `Int.tmod`, and a cast
`(int)x` of a floating-point value truncates towards zero as well (`truncToInt`). A
floating-point value is the exact rational it denotes, and every floating-point operation
computes its exact result and rounds it. The rounding is a parameter: `FloatRounding` keeps only
the two properties of IEEE-754 round-to-nearest that the proofs use, that it is monotone and that
it is exact on integers of magnitude at most `2^24`, the width of a `float` significand. Every
result below therefore holds for `float` and for `double` alike, and for any rounding direction.
Infinities and NaN are outside the model. The packet decodes compute values far below the
`float` range, but `loadCalibrationFile` does not: `std::stof` returns an infinity or a NaN on
such text, and `stof(..) * 100` overflows above `FLT_MAX / 100`; the model's `stof` returns a
rational or fails, so those runs are not covered.

An `int` division traps on a zero divisor (`cDiv`): C++ leaves it undefined, and on the targets
the driver runs on the program ends with `SIGFPE`.
-/

namespace RsDriver

/-- A floating-point rounding: the value an operation stores, given its exact result. -/
structure FloatRounding where
  rnd : ℚ → ℚ
  rnd_mono : Monotone rnd
  rnd_int : ∀ n : ℤ, -2 ^ 24 ≤ n → n ≤ 2 ^ 24 → rnd n = n

namespace FloatRounding

variable (R : FloatRounding)

/-- Conversion of an integer: `(float)n`. -/
def ofInt (n : ℤ) : ℚ := R.rnd n

def add (a b : ℚ) : ℚ := R.rnd (a + b)

def sub (a b : ℚ) : ℚ := R.rnd (a - b)

def mul (a b : ℚ) : ℚ := R.rnd (a * b)

def div (a b : ℚ) : ℚ := R.rnd (a / b)

/-- Exact arithmetic, the rounding that keeps every value; it makes the model's statements on
concrete inputs checkable without fixing a float format. -/
def exact : FloatRounding where
  rnd := id
  rnd_mono := monotone_id
  rnd_int _ _ _ := rfl

variable {R}

theorem rnd_intCast {n : ℤ} (h₁ : -2 ^ 24 ≤ n) (h₂ : n ≤ 2 ^ 24) : R.rnd n = n :=
  R.rnd_int n h₁ h₂

@[simp] theorem rnd_zero : R.rnd 0 = 0 := by
  simpa using R.rnd_int 0 (by norm_num) (by norm_num)

/-- A rounded value stays above every small integer below the exact one. -/
theorem le_rnd {x : ℚ} {n : ℤ} (h₁ : -2 ^ 24 ≤ n) (h₂ : n ≤ 2 ^ 24) (h : (n : ℚ) ≤ x) :
    (n : ℚ) ≤ R.rnd x :=
  R.rnd_intCast h₁ h₂ ▸ R.rnd_mono h

/-- A rounded value stays below every small integer above the exact one. -/
theorem rnd_le {x : ℚ} {n : ℤ} (h₁ : -2 ^ 24 ≤ n) (h₂ : n ≤ 2 ^ 24) (h : x ≤ n) :
    R.rnd x ≤ n :=
  R.rnd_intCast h₁ h₂ ▸ R.rnd_mono h

theorem rnd_nonneg {x : ℚ} (h : 0 ≤ x) : 0 ≤ R.rnd x := by
  simpa using le_rnd (R := R) (n := 0) (by norm_num) (by norm_num) (by simpa using h)

theorem ofInt_eq {n : ℤ} (h₁ : -2 ^ 24 ≤ n) (h₂ : n ≤ 2 ^ 24) : R.ofInt n = n :=
  R.rnd_intCast h₁ h₂

/-- A product of integers is exact while it stays within the significand. -/
theorem mul_intCast {a b : ℤ} (h₁ : -2 ^ 24 ≤ a * b) (h₂ : a * b ≤ 2 ^ 24) :
    R.mul a b = ((a * b : ℤ) : ℚ) := by
  rw [mul, ← Int.cast_mul, R.rnd_intCast h₁ h₂]

end FloatRounding

/-- `(int)x` for a floating-point `x`: truncation towards zero. -/
def truncToInt (q : ℚ) : ℤ := if 0 ≤ q then ⌊q⌋ else ⌈q⌉

theorem truncToInt_nonneg {q : ℚ} (h : 0 ≤ q) : 0 ≤ truncToInt q := by
  simp only [truncToInt, if_pos h]
  exact Int.floor_nonneg.mpr h

/-! ### The C++ remainder

`a % b` on `int` takes the sign of `a`; for `b = 36000` it lands strictly between `-36000` and
`36000`, and it is non-negative exactly when `a` is. -/

private theorem tmod_ofNat (m k : ℕ) : (Int.ofNat m).tmod k = ((m % k : ℕ) : ℤ) := rfl

private theorem tmod_negSucc (m k : ℕ) :
    (Int.negSucc m).tmod k = -(((m + 1) % k : ℕ) : ℤ) := rfl

theorem tmod_lt_self (a : ℤ) {b : ℤ} (hb : 0 < b) : a.tmod b < b := Int.tmod_lt_of_pos a hb

theorem neg_lt_tmod (a : ℤ) {b : ℤ} (hb : 0 < b) : -b < a.tmod b := by
  obtain ⟨k, rfl⟩ := Int.eq_ofNat_of_zero_le hb.le
  cases a with
  | ofNat m => rw [tmod_ofNat]; omega
  | negSucc m =>
      have := Nat.mod_lt (m + 1) (by omega : 0 < k)
      rw [tmod_negSucc]; omega

theorem tmod_eq_self_of_neg {a b : ℤ} (h₁ : -b < a) (h₂ : a < 0) : a.tmod b = a := by
  obtain ⟨k, rfl⟩ := Int.eq_ofNat_of_zero_le (by omega : (0 : ℤ) ≤ b)
  cases a with
  | ofNat m => rw [Int.ofNat_eq_coe] at h₂; omega
  | negSucc m =>
      rw [Int.negSucc_coe] at h₁
      rw [tmod_negSucc, Nat.mod_eq_of_lt (by omega), Int.negSucc_coe]

/-- A remainder keeps every lower bound of the dividend that is above `-b`. -/
theorem le_tmod {a b c : ℤ} (hc : -b < c) (hc₀ : c ≤ 0) (h : c ≤ a) : c ≤ a.tmod b := by
  rcases lt_or_le a 0 with ha | ha
  · rw [tmod_eq_self_of_neg (by omega) ha]; exact h
  · exact hc₀.trans (Int.tmod_nonneg b ha)

/-! ### The C++ division -/

/-- How a call ends when it does not return: an `int` division by zero. -/
inductive Trap
  | divByZero
  deriving DecidableEq, Repr

/-- `a / b` on `int`: the quotient truncated towards zero, and a trap when `b = 0`. -/
def cDiv (a b : ℤ) : Except Trap ℤ := if b = 0 then .error .divByZero else .ok (a.tdiv b)

theorem cDiv_of_ne_zero (a : ℤ) {b : ℤ} (h : b ≠ 0) : cDiv a b = .ok (a.tdiv b) := if_neg h

theorem cDiv_zero (a : ℤ) : cDiv a 0 = .error .divByZero := if_pos rfl

/-- A field of a point: a finite value, or the `NAN` a placeholder carries. -/
inductive PointField
  | val (q : ℚ)
  | nan
  deriving DecidableEq, Repr

end RsDriver
