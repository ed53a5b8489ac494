import Mathlib.Algebra.Order.Field.Basic
import Mathlib.Algebra.Order.Ring.Rat
import Mathlib.Order.Monotone.Basic
import Mathlib.Tactic.Linarith
import Mathlib.Tactic.Ring
import SentenceEngine.Number.Basic

/-!
# The nearest double

What a double stands for, and what a number becomes when it is made one. The bit pattern of a double
orders doubles by their values, so that comparing keys compares real numbers. Rounding takes the
nearer one of two neighbouring magnitudes, and of two that are equally near the even one.

* `Double.value`, `Number.value`: the real number meant, which is a rational one.
* `Double.below_iff`, `Double.sameValue_iff`: doubles are compared by value.
* `Double.Nearest`: what it is to be rounded correctly.
* `Double.nearest_ofRatio?`, `Number.nearest_toDouble`: ratios and numbers are.
* `Number.Exact`: the numbers that rounding leaves alone, among them all whole numbers of at most 53
  binary digits.
-/

namespace SentenceEngine

namespace Double

/-! ## Magnitudes -/

/-- The units of a magnitude, in a format without an upper limit. -/
def unitsOf (magnitude : Nat) : Nat :=
  (if magnitude < Nat.pow 2 52 then magnitude
    else Nat.pow 2 52 + magnitude % Nat.pow 2 52) * Nat.pow 2 (magnitude / Nat.pow 2 52 - 1)

theorem units_eq (d : Double) : d.units = unitsOf d.magnitude := rfl

theorem pow_fraction : Nat.pow 2 52 = 4503599627370496 := by norm_num

theorem pow_two_pos (n : Nat) : 0 < Nat.pow 2 n := Nat.pow_pos Nat.two_pos

/-- Digits of full length, and digits of any length at the smallest shift. The next power of two is
let in as well, since it is the right neighbour of the greatest digits. -/
def Fits (shift digits : Nat) : Prop :=
  digits ≤ 9007199254740992 ∧ (shift = 0 ∨ 4503599627370496 ≤ digits)

/-- The fields of a magnitude side by side stand for digits that are moved by the shift. -/
theorem unitsOf_join {shift digits : Nat} (h : Fits shift digits) :
    unitsOf (shift * 4503599627370496 + digits) = digits * 2 ^ shift := by
  obtain ⟨hle, hshift⟩ := h
  unfold unitsOf
  rw [pow_fraction]
  rcases Nat.lt_or_ge digits 4503599627370496 with hsmall | hlarge
  · -- Subnormal: there is no leading digit to add.
    have hzero : shift = 0 := by omega
    subst hzero
    rw [if_pos (by omega), show (0 * 4503599627370496 + digits) / 4503599627370496 - 1 = 0 by omega]
    simp
  · rw [if_neg (by omega)]
    rcases Nat.lt_or_ge digits 9007199254740992 with hless | hmost
    · rw [show (shift * 4503599627370496 + digits) / 4503599627370496 - 1 = shift by omega,
        show 4503599627370496 + (shift * 4503599627370496 + digits) % 4503599627370496 = digits by
          omega]
      rfl
    · -- The next power of two carries into the exponent.
      have heq : digits = 9007199254740992 := by omega
      subst heq
      rw [show (shift * 4503599627370496 + 9007199254740992) / 4503599627370496 - 1 = shift + 1 by
          omega,
        show (shift * 4503599627370496 + 9007199254740992) % 4503599627370496 = 0 by omega]
      change (4503599627370496 + 0) * 2 ^ (shift + 1) = _
      rw [pow_succ]
      omega

theorem exists_fits (magnitude : Nat) :
    ∃ shift digits, Fits shift digits ∧ digits < 9007199254740992 ∧
      magnitude = shift * 4503599627370496 + digits := by
  rcases Nat.lt_or_ge magnitude 4503599627370496 with hsmall | hlarge
  · exact ⟨0, magnitude, ⟨by omega, .inl rfl⟩, by omega, by omega⟩
  · refine ⟨magnitude / 4503599627370496 - 1,
      4503599627370496 + magnitude % 4503599627370496, ⟨by omega, .inr (by omega)⟩, by omega, ?_⟩
    omega

theorem unitsOf_lt_succ (magnitude : Nat) : unitsOf magnitude < unitsOf (magnitude + 1) := by
  obtain ⟨shift, digits, hfits, hless, rfl⟩ := exists_fits magnitude
  have hnext : Fits shift (digits + 1) := ⟨by omega, by have := hfits.2; omega⟩
  rw [Nat.add_assoc, unitsOf_join hfits, unitsOf_join hnext]
  exact Nat.mul_lt_mul_of_pos_right (Nat.lt_succ_self digits) (Nat.pow_pos Nat.two_pos)

theorem unitsOf_zero : unitsOf 0 = 0 := by simp [unitsOf]

/-- The units of a key, with their sign. -/
def unitsAt (key : Int) : Int := unitsOf key.toNat - unitsOf (-key).toNat

theorem unitsAt_ofNat (magnitude : Nat) : unitsAt magnitude = unitsOf magnitude := by
  simp [unitsAt, unitsOf_zero]

theorem unitsAt_neg (key : Int) : unitsAt (-key) = -unitsAt key := by
  simp [unitsAt]

theorem unitsAt_lt_unitsAt {a b : Int} : unitsAt a < unitsAt b ↔ a < b := by
  have hmono : StrictMono unitsAt := by
    refine strictMono_int_of_lt_succ fun key => ?_
    unfold unitsAt
    rcases le_or_gt 0 key with hpos | hneg
    · have hlt := unitsOf_lt_succ key.toNat
      rw [show (key + 1).toNat = key.toNat + 1 by omega, show (-key).toNat = 0 by omega,
        show (-(key + 1)).toNat = 0 by omega]
      omega
    · have hlt := unitsOf_lt_succ (-(key + 1)).toNat
      rw [show (-(key + 1)).toNat + 1 = (-key).toNat by omega] at hlt
      rw [show key.toNat = 0 by omega, show (key + 1).toNat = 0 by omega]
      omega
  exact hmono.lt_iff_lt

theorem unitsAt_le_unitsAt {a b : Int} : unitsAt a ≤ unitsAt b ↔ a ≤ b := by
  rw [← not_lt, unitsAt_lt_unitsAt, not_lt]

/-! ## Values -/

/-- How many units make one. -/
def unitsInOne : Nat := Nat.pow 2 1074

theorem unitsInOne_pos : (0 : ℚ) < unitsInOne := by
  unfold unitsInOne
  generalize 1074 = bits
  rw [Nat.cast_pos]
  exact pow_two_pos bits

/-- The value of a double. -/
def value (d : Double) : ℚ := (if d.negative then -(d.units : ℚ) else d.units) / unitsInOne

/-- The value of a magnitude. -/
def valueOf (magnitude : Nat) : ℚ := unitsOf magnitude / unitsInOne

theorem value_eq (d : Double) : d.value = unitsAt d.key / unitsInOne := by
  unfold value key
  cases d.negative with
  | true =>
    simp only [if_true, unitsAt_neg, unitsAt_ofNat, units_eq, Int.cast_neg, Int.cast_natCast]
  | false => simp only [Bool.false_eq_true, if_false, unitsAt_ofNat, units_eq, Int.cast_natCast]

theorem value_of_nonneg {d : Double} (h : d.negative = false) : d.value = valueOf d.magnitude := by
  rw [value, h, units_eq, valueOf]
  rfl

theorem value_lt_value {a b : Double} : a.value < b.value ↔ a.key < b.key := by
  rw [value_eq, value_eq, div_lt_div_iff_of_pos_right unitsInOne_pos, Int.cast_lt,
    unitsAt_lt_unitsAt]

theorem value_le_value {a b : Double} : a.value ≤ b.value ↔ a.key ≤ b.key := by
  rw [← not_lt, value_lt_value, not_lt]

theorem below_iff {a b : Double} : a.below b = true ↔ a.value < b.value := by
  simp [below, value_lt_value]

theorem below_eq_false_iff {a b : Double} : a.below b = false ↔ b.value ≤ a.value := by
  rw [← Bool.not_eq_true, below_iff, not_lt]

theorem sameValue_iff {a b : Double} : a.sameValue b = true ↔ a.value = b.value := by
  rw [le_antisymm_iff (α := ℚ), value_le_value, value_le_value, ← le_antisymm_iff]
  simp [sameValue]

/-! ## Rounding -/

/-- The shift is chosen so that the quotient has full length, or is zero. -/
theorem quotient_fits {scaled den shift : Nat} (hshift : shift = (scaled / den).log2 - 52) :
    Fits shift (scaled / (den * 2 ^ shift)) ∧ scaled / (den * 2 ^ shift) < 9007199254740992 := by
  rw [← Nat.div_div_eq_div_mul]
  generalize scaled / den = whole at hshift
  have hless : whole < 2 ^ (whole.log2 + 1) := Nat.lt_log2_self
  rcases Nat.lt_or_ge whole.log2 52 with hshort | hlong
  · have hbound : 2 ^ (whole.log2 + 1) ≤ 2 ^ 52 := Nat.pow_le_pow_right (by omega) (by omega)
    have hzero : shift = 0 := by omega
    subst hzero
    have hsmall : whole / 2 ^ 0 < 4503599627370496 := by
      rw [pow_zero, Nat.div_one]
      exact hless.trans_le hbound
    exact ⟨⟨by omega, .inl rfl⟩, by omega⟩
  · have hwhole : whole ≠ 0 := by
      rintro rfl
      exact absurd hlong (by decide)
    have hmost : 2 ^ whole.log2 ≤ whole := Nat.log2_self_le hwhole
    rw [show whole.log2 = 52 + shift by omega, pow_add] at hmost
    rw [show whole.log2 + 1 = 53 + shift by omega, pow_add] at hless
    have hpos : 0 < 2 ^ shift := Nat.pow_pos Nat.two_pos
    have hlow : 4503599627370496 ≤ whole / 2 ^ shift := (Nat.le_div_iff_mul_le hpos).2 hmost
    have hhigh : whole / 2 ^ shift < 9007199254740992 := (Nat.div_lt_iff_lt_mul hpos).2 hless
    exact ⟨⟨hhigh.le, .inr hlow⟩, hhigh⟩

/-- The rounded quotient is the nearer neighbour of a ratio, and of two neighbours that are equally
near the even one. -/
theorem toEven_round (num den : Nat) :
    (Tie.toEven.round num den = num / den ∧ 2 * (num % den) ≤ den ∨
      Tie.toEven.round num den = num / den + 1 ∧ den ≤ 2 * (num % den)) ∧
    (2 * (num % den) = den → Tie.toEven.round num den % 2 = 0) := by
  unfold Tie.round
  by_cases hbelow : 2 * (num % den) < den
  · rw [if_pos hbelow]
    omega
  · by_cases habove : den < 2 * (num % den)
    · rw [if_neg hbelow, if_pos habove]
      omega
    · rw [if_neg hbelow, if_neg habove]
      dsimp only
      omega

theorem roundedMagnitude_eq (num den : Nat) :
    roundedMagnitude num den =
      ((num * unitsInOne / den).log2 - 52) * 4503599627370496 +
        Tie.toEven.round (num * unitsInOne)
          (den * 2 ^ ((num * unitsInOne / den).log2 - 52)) := by
  unfold roundedMagnitude unitsInOne
  rw [pow_fraction]
  rfl

/-- The magnitude goes to the nearer of two neighbours. -/
theorem roundedMagnitude_spec (num : Nat) {den : Nat} (hden : 0 < den) :
    ∃ low, unitsOf low * den ≤ num * unitsInOne ∧
      num * unitsInOne ≤ unitsOf (low + 1) * den ∧
      (roundedMagnitude num den = low ∧
          2 * (num * unitsInOne) ≤ unitsOf low * den + unitsOf (low + 1) * den ∨
        roundedMagnitude num den = low + 1 ∧
          unitsOf low * den + unitsOf (low + 1) * den ≤ 2 * (num * unitsInOne)) ∧
      (2 * (num * unitsInOne) = unitsOf low * den + unitsOf (low + 1) * den →
        roundedMagnitude num den % 2 = 0) := by
  rw [roundedMagnitude_eq]
  generalize num * unitsInOne = scaled
  generalize hshift : (scaled / den).log2 - 52 = shift
  obtain ⟨hfits, hless⟩ := quotient_fits hshift.symm
  have hnext : Fits shift (scaled / (den * 2 ^ shift) + 1) :=
    ⟨by omega, by have := hfits.2; omega⟩
  have hpos : 0 < den * 2 ^ shift := Nat.mul_pos hden (Nat.pow_pos Nat.two_pos)
  have hrest := Nat.mod_lt scaled hpos
  have hdivision := Nat.div_add_mod scaled (den * 2 ^ shift)
  have hround := toEven_round scaled (den * 2 ^ shift)
  refine ⟨shift * 4503599627370496 + scaled / (den * 2 ^ shift), ?_⟩
  rw [Nat.add_assoc, unitsOf_join hfits, unitsOf_join hnext]
  generalize scaled / (den * 2 ^ shift) = digits at *
  generalize scaled % (den * 2 ^ shift) = rest at *
  rw [show digits * 2 ^ shift * den = den * 2 ^ shift * digits by ring,
    show (digits + 1) * 2 ^ shift * den = den * 2 ^ shift * digits + den * 2 ^ shift by ring]
  generalize den * 2 ^ shift * digits = floor at *
  omega

/-- The double that a real number rounds to: no double is nearer to it, and if another one is as
near, its own magnitude is even. -/
structure Nearest (d : Double) (x : ℚ) : Prop where
  least : ∀ other : Double, |d.value - x| ≤ |other.value - x|
  even : ∀ other : Double, |other.value - x| = |d.value - x| →
    other.value = d.value ∨ d.magnitude % 2 = 0

/-- The nearer end of an interval is nearer than whatever lies outside. -/
theorem abs_sub_le_of_between {x low high chosen other : ℚ} (hlow : low ≤ x) (hhigh : x ≤ high)
    (hchosen : chosen = low ∧ 2 * x ≤ low + high ∨ chosen = high ∧ low + high ≤ 2 * x)
    (hother : other ≤ low ∨ high ≤ other) :
    |chosen - x| ≤ |other - x| ∧
      (|other - x| = |chosen - x| → other = chosen ∨ 2 * x = low + high) := by
  rcases hchosen with ⟨rfl, hnear⟩ | ⟨rfl, hnear⟩ <;> rcases hother with hother | hother
  · rw [abs_of_nonpos (by linarith), abs_of_nonpos (by linarith)]
    exact ⟨by linarith, fun _ => .inl (by linarith)⟩
  · rw [abs_of_nonpos (by linarith), abs_of_nonneg (by linarith)]
    exact ⟨by linarith, fun _ => .inr (by linarith)⟩
  · rw [abs_of_nonneg (by linarith), abs_of_nonpos (by linarith)]
    exact ⟨by linarith, fun _ => .inr (by linarith)⟩
  · rw [abs_of_nonneg (by linarith), abs_of_nonneg (by linarith)]
    exact ⟨by linarith, fun _ => .inl (by linarith)⟩

/-- No double lies between two neighbouring magnitudes. -/
theorem value_le_or_le_value (d : Double) (magnitude : Nat) :
    d.value ≤ valueOf magnitude ∨ valueOf (magnitude + 1) ≤ d.value := by
  rw [value_eq, valueOf, valueOf, div_le_div_iff_of_pos_right unitsInOne_pos,
    div_le_div_iff_of_pos_right unitsInOne_pos]
  rcases le_or_gt d.key magnitude with hle | hgt
  · left
    have := unitsAt_le_unitsAt.2 hle
    rw [unitsAt_ofNat] at this
    exact_mod_cast this
  · right
    have := unitsAt_le_unitsAt.2 (show ((magnitude + 1 : ℕ) : ℤ) ≤ d.key by omega)
    rw [unitsAt_ofNat] at this
    exact_mod_cast this

/-- The magnitude of a ratio is the nearer of two neighbours around it. -/
theorem exists_neighbours (num : Nat) {den : Nat} (hden : 0 < den) :
    ∃ low, valueOf low ≤ num / den ∧ num / den ≤ valueOf (low + 1) ∧
      (roundedMagnitude num den = low ∧ 2 * (num / den) ≤ valueOf low + valueOf (low + 1) ∨
        roundedMagnitude num den = low + 1 ∧
          valueOf low + valueOf (low + 1) ≤ 2 * (num / den)) ∧
      (2 * (num / den) = valueOf low + valueOf (low + 1) → roundedMagnitude num den % 2 = 0) := by
  obtain ⟨low, hlow, hhigh, hchosen, heven⟩ := roundedMagnitude_spec num hden
  have hone := unitsInOne_pos
  have hden' : (0 : ℚ) < den := by exact_mod_cast hden
  have hbelow : 2 * (num / den) ≤ valueOf low + valueOf (low + 1) ↔
      2 * (num * unitsInOne) ≤ unitsOf low * den + unitsOf (low + 1) * den := by
    rw [valueOf, valueOf, ← add_div, ← mul_div_assoc, div_le_div_iff₀ hden' hone, mul_assoc,
      add_mul]
    exact_mod_cast Iff.rfl
  have habove : valueOf low + valueOf (low + 1) ≤ 2 * (num / den) ↔
      unitsOf low * den + unitsOf (low + 1) * den ≤ 2 * (num * unitsInOne) := by
    rw [valueOf, valueOf, ← add_div, ← mul_div_assoc, div_le_div_iff₀ hone hden', mul_assoc,
      add_mul]
    exact_mod_cast Iff.rfl
  refine ⟨low, ?_, ?_, ?_, ?_⟩
  · rw [valueOf, div_le_div_iff₀ hone hden']
    exact_mod_cast hlow
  · rw [valueOf, div_le_div_iff₀ hden' hone]
    exact_mod_cast hhigh
  · exact hchosen.imp (And.imp_right hbelow.2) (And.imp_right habove.2)
  · intro heq
    exact heven (le_antisymm (hbelow.1 heq.le) (habove.1 heq.ge))

theorem nearest_roundedMagnitude (num : Nat) {den : Nat} (hden : 0 < den)
    (hfinite : roundedMagnitude num den < 0x7FF0000000000000) :
    Nearest ⟨false, roundedMagnitude num den, hfinite⟩ (num / den) := by
  obtain ⟨low, hlow, hhigh, hchosen, heven⟩ := exists_neighbours num hden
  have hvalue : (Double.mk false (roundedMagnitude num den) hfinite).value =
      valueOf (roundedMagnitude num den) := value_of_nonneg rfl
  have hends (other : Double) := abs_sub_le_of_between hlow hhigh
    (hchosen.imp (And.imp_left (congrArg valueOf)) (And.imp_left (congrArg valueOf)))
    (value_le_or_le_value other low)
  constructor
  · intro other
    rw [hvalue]
    exact (hends other).1
  · intro other
    rw [hvalue]
    exact fun htie => ((hends other).2 htie).imp_right heven

theorem value_withSign_not (d : Double) : (d.withSign (!d.negative)).value = -d.value := by
  unfold value withSign
  cases d.negative with
  | true => simp only [if_true, Bool.not_true, Bool.false_eq_true, if_false, neg_div, neg_neg]; rfl
  | false => simp only [if_true, Bool.not_false, Bool.false_eq_true, if_false, neg_div]; rfl

theorem Nearest.neg {d : Double} {x : ℚ} (h : d.Nearest x) :
    (d.withSign (!d.negative)).Nearest (-x) := by
  have hmirror (other : Double) :
      |other.value - -x| = |(other.withSign (!other.negative)).value - x| := by
    rw [value_withSign_not, ← abs_neg]
    congr 1
    ring
  have hself : |(d.withSign (!d.negative)).value - -x| = |d.value - x| := by
    rw [value_withSign_not, ← abs_neg]
    congr 1
    ring
  constructor
  · intro other
    rw [hself, hmirror]
    exact h.least _
  · intro other htie
    rw [hself, hmirror] at htie
    refine (h.even _ htie).imp_left fun heq => ?_
    rw [value_withSign_not] at heq
    rw [value_withSign_not, ← heq, neg_neg]

/-- Ratios are rounded to the nearest double. -/
theorem nearest_ofRatio? {negative : Bool} {num den : Nat} {d : Double} (hden : 0 < den)
    (h : ofRatio? negative num den = some d) :
    d.Nearest (if negative then -(num / den) else num / den) := by
  unfold ofRatio? at h
  split at h
  next hfinite =>
    cases h
    have hnearest := nearest_roundedMagnitude num hden hfinite
    cases negative with
    | false => exact hnearest
    | true => exact hnearest.neg
  next => cases h

theorem log2_mul_pow_lt {num bits : Nat} (h : num < 2 ^ bits) (hbits : 0 < bits) (k : Nat) :
    (num * Nat.pow 2 k).log2 < bits + k := by
  rcases Nat.eq_zero_or_pos num with rfl | hnum
  · rw [Nat.zero_mul, Nat.log2_zero]
    omega
  · rw [Nat.log2_lt (Nat.mul_pos hnum (pow_two_pos k)).ne', pow_add]
    exact Nat.mul_lt_mul_of_pos_right h (pow_two_pos k)

/-- Whole numbers of 64 bits are far below the largest double. -/
theorem roundedMagnitude_lt {num : Nat} (h : num < 18446744073709551616) :
    roundedMagnitude num 1 < 0x7FF0000000000000 := by
  have hlog : (num * unitsInOne / 1).log2 < 64 + 1074 := by
    unfold unitsInOne
    generalize 1074 = bits
    rw [Nat.div_one]
    exact log2_mul_pow_lt h (by omega) bits
  rw [roundedMagnitude_eq]
  generalize hshift : (num * unitsInOne / 1).log2 - 52 = shift
  have hless := (quotient_fits hshift.symm).2
  have hround := (toEven_round (num * unitsInOne) (1 * 2 ^ shift)).1
  omega

/-- Whole numbers of 64 bits are rounded to the nearest double. -/
theorem nearest_ofInt {i : Int} (hlower : leastInteger ≤ i) (hupper : i < integerLimit) :
    (ofInt i).Nearest i := by
  have hsize : i.natAbs < 18446744073709551616 := by
    unfold leastInteger at hlower
    unfold integerLimit at hupper
    omega
  have hratio : ofRatio? (i < 0) i.natAbs 1 = some (ofInt i) := by
    unfold ofInt
    rw [ofRatio?, dif_pos (roundedMagnitude_lt hsize)]
    rfl
  have hnearest := nearest_ofRatio? Nat.one_pos hratio
  rw [Nat.cast_one, div_one, Nat.cast_natAbs] at hnearest
  rcases lt_or_ge i 0 with hneg | hpos
  · rw [abs_of_neg hneg, Int.cast_neg, neg_neg] at hnearest
    simpa [hneg] using hnearest
  · rw [abs_of_nonneg hpos] at hnearest
    simpa [hpos.not_gt] using hnearest

theorem nearest_self (d : Double) : d.Nearest d.value := by
  constructor
  · intro other
    rw [sub_self, abs_zero]
    exact abs_nonneg _
  · intro other htie
    rw [sub_self, abs_zero, abs_eq_zero, sub_eq_zero] at htie
    exact .inl htie

/-- What is the value of some double is not changed by rounding. -/
theorem Nearest.value_eq {d exact : Double} {x : ℚ} (h : d.Nearest x) (hexact : exact.value = x) :
    d.value = x := by
  have hleast := h.least exact
  rw [hexact, sub_self, abs_zero] at hleast
  exact sub_eq_zero.1 (abs_eq_zero.1 (le_antisymm hleast (abs_nonneg _)))

/-- Rounding does not carry a value across a double. -/
theorem Nearest.le_of_le {d bound : Double} {x : ℚ} (h : d.Nearest x) (hbound : bound.value ≤ x) :
    bound.value ≤ d.value := by
  by_contra hless
  rw [not_le] at hless
  have hleast := h.least bound
  rw [abs_of_nonpos (by linarith), abs_of_nonpos (by linarith)] at hleast
  linarith

theorem Nearest.ge_of_ge {d bound : Double} {x : ℚ} (h : d.Nearest x) (hbound : x ≤ bound.value) :
    d.value ≤ bound.value := by
  by_contra hless
  rw [not_le] at hless
  have hleast := h.least bound
  rw [abs_of_nonneg (by linarith), abs_of_nonneg (by linarith)] at hleast
  linarith

theorem mul_pow_mul_pow (n : Nat) {part : Nat} (h : part ≤ 1074) :
    n * 2 ^ part * 2 ^ (1074 - part) = n * unitsInOne := by
  unfold unitsInOne
  generalize 1074 = bits at *
  rw [Nat.mul_assoc, ← pow_add, Nat.add_sub_cancel' h]
  rfl

/-- A number of at most 53 binary digits, moved up to full length. -/
theorem fits_moved {n : Nat} (hpos : 0 < n) (h : n ≤ 9007199254740992) (shift : Nat) :
    Fits shift (n * 2 ^ (52 - n.log2)) := by
  have hlow : 2 ^ n.log2 ≤ n := Nat.log2_self_le hpos.ne'
  have hhigh : n < 2 ^ (n.log2 + 1) := Nat.lt_log2_self
  rcases Nat.lt_or_ge 52 n.log2 with hlong | hshort
  · have hfull : 2 ^ 53 ≤ 2 ^ n.log2 := Nat.pow_le_pow_right Nat.two_pos hlong
    rw [show 52 - n.log2 = 0 by omega, pow_zero, Nat.mul_one]
    exact ⟨h, .inr (by omega)⟩
  · have hlow' := Nat.mul_le_mul_right (2 ^ (52 - n.log2)) hlow
    have hhigh' := Nat.mul_lt_mul_of_pos_right hhigh (pow_two_pos (52 - n.log2))
    change _ < _ * 2 ^ _ at hhigh'
    rw [← pow_add, show n.log2 + (52 - n.log2) = 52 by omega] at hlow'
    rw [← pow_add, show n.log2 + 1 + (52 - n.log2) = 53 by omega] at hhigh'
    exact ⟨hhigh'.le, .inr hlow'⟩

/-- Natural numbers of at most 53 binary digits are the values of doubles. -/
theorem exists_value_eq {n : Nat} (h : n ≤ 9007199254740992) : ∃ d : Double, d.value = n := by
  rcases Nat.eq_zero_or_pos n with rfl | hpos
  · refine ⟨zero, ?_⟩
    rw [value_of_nonneg rfl, valueOf, show zero.magnitude = 0 from rfl, unitsOf_zero, Nat.cast_zero,
      zero_div]
  · have hfits := fits_moved hpos h (1074 - (52 - n.log2))
    have hunits := unitsOf_join hfits
    rw [mul_pow_mul_pow n (by omega)] at hunits
    have hbound := hfits.1
    refine ⟨⟨false, (1074 - (52 - n.log2)) * 4503599627370496 + n * 2 ^ (52 - n.log2),
      by omega⟩, ?_⟩
    rw [value_of_nonneg rfl, valueOf, hunits, Nat.cast_mul]
    exact mul_div_cancel_right₀ _ unitsInOne_pos.ne'

end Double

namespace Number

/-- The value of a number. -/
def value : Number → ℚ
  | .integer i _ _ => i
  | .double d => d.value

/-- A number whose value is the value of a double. -/
def Exact (n : Number) : Prop := ∃ d : Double, d.value = n.value

theorem nearest_toDouble (n : Number) : n.toDouble.Nearest n.value := by
  cases n with
  | integer i hlower hupper => exact Double.nearest_ofInt hlower hupper
  | double d => exact d.nearest_self

theorem Exact.toDouble_value {n : Number} (h : n.Exact) : n.toDouble.value = n.value := by
  obtain ⟨d, hd⟩ := h
  exact n.nearest_toDouble.value_eq hd

theorem exact_double (d : Double) : Exact (.double d) := ⟨d, rfl⟩

/-- Whole numbers of at most 53 binary digits are exact. -/
theorem exact_integer {i : Int} (hlower : leastInteger ≤ i) (hupper : i < integerLimit)
    (hsize : i.natAbs ≤ 9007199254740992) : Exact (.integer i hlower hupper) := by
  obtain ⟨d, hd⟩ := Double.exists_value_eq hsize
  rw [Nat.cast_natAbs] at hd
  rcases lt_or_ge i 0 with hneg | hpos
  · refine ⟨d.withSign (!d.negative), ?_⟩
    rw [abs_of_neg hneg, Int.cast_neg] at hd
    rw [Double.value_withSign_not, hd, neg_neg]
    rfl
  · rw [abs_of_nonneg hpos] at hd
    exact ⟨d, hd⟩

theorem looseEq_iff {m n : Number} :
    m.looseEq n = true ↔ m.toDouble.value = n.toDouble.value := Double.sameValue_iff

/-- Numbers of one value have one nearest double. -/
theorem toDouble_value_congr {m n : Number} (h : m.value = n.value) :
    m.toDouble.value = n.toDouble.value := by
  cases m with
  | double d =>
    have hn : n.Exact := ⟨d, h⟩
    rw [hn.toDouble_value, ← h]
    rfl
  | integer i hlower hupper =>
    cases n with
    | double d =>
      have hm : Exact (.integer i hlower hupper) := ⟨d, h.symm⟩
      rw [hm.toDouble_value, h]
      rfl
    | integer j hlower' hupper' =>
      have hij : i = j := Int.cast_injective h
      subst hij
      rfl

end Number
end SentenceEngine
