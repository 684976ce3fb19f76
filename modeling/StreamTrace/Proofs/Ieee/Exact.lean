import Mathlib.Algebra.Group.Nat.Defs
import Mathlib.Data.Nat.Log
import StreamTrace.Ieee

/-!
# Exact conversions

A number that has a pattern in a format is rounded to just that pattern. So a single widened to a
double and rounded back is the same single.
-/

namespace StreamTrace

namespace FloatFormat

variable {f g : FloatFormat} {m m' : Nat} {e e' : Int} {bits : Nat}

/-- The mantissa and the exponent of a pattern: the mantissa fills its bits unless the exponent is
the least. -/
structure Canonical (f : FloatFormat) (m : Nat) (e : Int) : Prop where
  least : f.minExponent ≤ e
  below : m < 2 ^ (f.fractionBits + 1)
  normal : 2 ^ f.fractionBits ≤ m ∨ e = f.minExponent

/-- The magnitude bits of `m * 2 ^ e`. -/
def place (f : FloatFormat) (m : Nat) (e : Int) : Nat :=
  (e - f.minExponent).toNat * 2 ^ f.fractionBits + m

/-- `m * 2 ^ e` and `m' * 2 ^ e'` are the same number. -/
def SameNumber (m : Nat) (e : Int) (m' : Nat) (e' : Int) : Prop :=
  m * 2 ^ (e - e').toNat = m' * 2 ^ (e' - e).toNat

/-! ## Patterns and their parts -/

theorem parts_canonical (f : FloatFormat) (bits : Nat) :
    f.Canonical (f.parts bits).1 (f.parts bits).2 := by
  have hfraction : f.magnitude bits % 2 ^ f.fractionBits < 2 ^ f.fractionBits :=
    Nat.mod_lt _ (Nat.two_pow_pos _)
  have hdouble : 2 ^ (f.fractionBits + 1) = 2 ^ f.fractionBits + 2 ^ f.fractionBits := by
    rw [Nat.pow_succ]
    omega
  unfold parts
  simp only [Nat.pow_eq]
  split
  · exact ⟨le_rfl, by omega, .inr rfl⟩
  · exact ⟨by omega, by omega, .inl (Nat.le_add_left _ _)⟩

theorem place_parts (f : FloatFormat) (bits : Nat) :
    f.place (f.parts bits).1 (f.parts bits).2 = f.magnitude bits := by
  have hsplit := Nat.div_add_mod' (f.magnitude bits) (2 ^ f.fractionBits)
  unfold parts place
  simp only [Nat.pow_eq]
  split
  · rename_i hfield
    rw [hfield] at hsplit
    simpa using hsplit
  · rename_i hfield
    obtain ⟨field, hsucc⟩ := Nat.exists_eq_succ_of_ne_zero hfield
    rw [hsucc, Nat.succ_mul] at hsplit
    have hexponent : (f.minExponent + ((field.succ - 1 : Nat) : Int) - f.minExponent).toNat =
        field := by omega
    simp only [hsucc, hexponent]
    omega

/-- Only the magnitude decides the parts. -/
theorem parts_of_magnitude (h : f.Canonical m e) (hbits : f.magnitude bits = f.place m e) :
    f.parts bits = (m, e) := by
  have hpos : 0 < 2 ^ f.fractionBits := Nat.two_pow_pos _
  have hdouble : 2 ^ (f.fractionBits + 1) = 2 ^ f.fractionBits + 2 ^ f.fractionBits := by
    rw [Nat.pow_succ]
    omega
  have hbelow := h.below
  have hleast := h.least
  unfold parts
  simp only [Nat.pow_eq, hbits]
  by_cases hnormal : 2 ^ f.fractionBits ≤ m
  · -- The bit in front of the fraction is carried into the exponent's field.
    obtain ⟨fraction, rfl⟩ := Nat.exists_eq_add_of_le hnormal
    have hsmall : fraction < 2 ^ f.fractionBits := by omega
    have hplace : f.place (2 ^ f.fractionBits + fraction) e =
        fraction + ((e - f.minExponent).toNat + 1) * 2 ^ f.fractionBits := by
      rw [place, Nat.succ_mul]
      omega
    rw [hplace, Nat.add_mul_div_right _ _ hpos, Nat.add_mul_mod_self_right,
      Nat.div_eq_of_lt hsmall, Nat.mod_eq_of_lt hsmall, Nat.zero_add, if_neg (Nat.succ_ne_zero _),
      Nat.add_comm fraction, Nat.add_sub_cancel, Int.toNat_of_nonneg (by omega)]
    simp only [Prod.mk.injEq, true_and]
    omega
  · have he : e = f.minExponent := h.normal.resolve_left hnormal
    have hplace : f.place m e = m := by simp [place, he]
    have hsmall : m < 2 ^ f.fractionBits := by omega
    rw [hplace, Nat.div_eq_of_lt hsmall, Nat.mod_eq_of_lt hsmall, if_pos rfl, he]

/-! ## Rounding what needs none -/

theorem roundScaled_exact {num den q : Nat} (hden : 0 < den)
    (h : num * 2 ^ (-e).toNat = q * (den * 2 ^ e.toNat)) : roundScaled num den e = q := by
  have hexact : ∀ n d, 0 < d → n = q * d → roundQuotient n d = q := by
    rintro n d hd rfl
    simp [roundQuotient, Nat.mul_div_cancel _ hd, hd]
  unfold roundScaled
  simp only [Nat.pow_eq]
  split
  · refine hexact _ _ (Nat.mul_pos hden (Nat.two_pow_pos _)) ?_
    have hzero : (-e).toNat = 0 := by omega
    simpa [hzero] using h
  · refine hexact _ _ hden ?_
    have hzero : e.toNat = 0 := by omega
    simpa [hzero] using h

theorem log2_mul_two_pow (hm : 0 < m) (k : Nat) : (m * 2 ^ k).log2 = m.log2 + k := by
  rw [Nat.log2_eq_log_two, Nat.log2_eq_log_two]
  induction k with
  | zero => simp
  | succ k ih =>
      have hne : m * 2 ^ k ≠ 0 := (Nat.mul_pos hm (Nat.two_pow_pos k)).ne'
      rw [Nat.pow_succ, ← Nat.mul_assoc, Nat.log_mul_base Nat.one_lt_two hne, ih]
      rfl

theorem log2_two_pow_mul_lt (hm : 0 < m) {k : Nat} : ¬m * 2 ^ k < 2 ^ (m.log2 + k) := by
  rw [Nat.pow_add]
  exact Nat.not_lt_of_le (Nat.mul_le_mul_right _ (Nat.log2_self_le hm.ne'))

/-- The scale of a number with a mantissa and an exponent. -/
theorem scaleOf_eq (hm : 0 < m) :
    f.scaleOf (m * 2 ^ e.toNat) (2 ^ (-e).toNat) =
      max f.minExponent (m.log2 + e - f.fractionBits) := by
  have hguess : (((m * 2 ^ e.toNat).log2 : Int) - (2 ^ (-e).toNat).log2 - f.fractionBits) =
      m.log2 + e - f.fractionBits := by
    rw [log2_mul_two_pow hm, Nat.log2_two_pow]
    omega
  unfold scaleOf
  simp only [Nat.pow_eq, hguess]
  congr 1
  have hbelow : (if 0 ≤ (m.log2 : Int) + e - f.fractionBits then
      decide (m * 2 ^ e.toNat < 2 ^ (-e).toNat *
        2 ^ (((m.log2 : Int) + e - f.fractionBits).toNat + f.fractionBits))
    else decide (m * 2 ^ e.toNat * 2 ^ (-((m.log2 : Int) + e - f.fractionBits)).toNat <
      2 ^ (-e).toNat * 2 ^ f.fractionBits)) = false := by
    split
    · rw [← Nat.pow_add, decide_eq_false_iff_not]
      have hexponent : (-e).toNat + (((m.log2 : Int) + e - f.fractionBits).toNat + f.fractionBits) =
          m.log2 + e.toNat := by omega
      rw [hexponent]
      exact log2_two_pow_mul_lt hm
    · rw [← Nat.pow_add, Nat.mul_assoc, ← Nat.pow_add, decide_eq_false_iff_not]
      have hexponent : (-e).toNat + f.fractionBits =
          m.log2 + (e.toNat + (-((m.log2 : Int) + e - f.fractionBits)).toNat) := by omega
      rw [hexponent]
      exact log2_two_pow_mul_lt hm
  rw [hbelow]
  rfl

theorem SameNumber.log2 (h : SameNumber m e m' e') (hm : 0 < m) (hm' : 0 < m') :
    (m'.log2 : Int) + e' = m.log2 + e := by
  have hlog := congrArg Nat.log2 h
  rw [log2_mul_two_pow hm, log2_mul_two_pow hm'] at hlog
  omega

theorem SameNumber.symm (h : SameNumber m e m' e') : SameNumber m' e' m e := Eq.symm h

/-- Both sides of an equation between numbers, in units that make them naturals. -/
theorem SameNumber.scaled (h : SameNumber m e m' e') {a b c d : Nat}
    (hexponents : a + b + (e - e').toNat = c + d + (e' - e).toNat) :
    m' * 2 ^ a * 2 ^ b = m * (2 ^ c * 2 ^ d) := by
  refine Nat.eq_of_mul_eq_mul_right (Nat.two_pow_pos (e' - e).toNat) ?_
  calc m' * 2 ^ a * 2 ^ b * 2 ^ (e' - e).toNat
      = m' * 2 ^ (e' - e).toNat * 2 ^ (a + b) := by
        rw [Nat.pow_add, Nat.mul_assoc m', Nat.mul_right_comm]
    _ = m * 2 ^ (a + b + (e - e').toNat) := by
        rw [← h, Nat.pow_add _ (a + b), Nat.mul_comm (2 ^ (a + b)), Nat.mul_assoc]
    _ = m * (2 ^ c * 2 ^ d) * 2 ^ (e' - e).toNat := by
        rw [hexponents, Nat.pow_add, Nat.pow_add, ← Nat.mul_assoc m]

/-- The scale of a canonical number is its exponent. -/
theorem Canonical.scale (h : f.Canonical m e) (hm : 0 < m) :
    max f.minExponent (m.log2 + e - f.fractionBits) = e := by
  have hleast := h.least
  have hlog : m.log2 ≤ f.fractionBits := Nat.lt_succ_iff.mp
    ((Nat.log2_lt hm.ne').mpr h.below)
  rcases h.normal with hnormal | he
  · have hlog' : f.fractionBits ≤ m.log2 := (Nat.le_log2 hm.ne').mpr hnormal
    omega
  · omega

theorem Canonical.place_zero (h : f.Canonical 0 e) : f.place 0 e = 0 := by
  have hleast : e = f.minExponent := h.normal.resolve_left (Nat.not_le_of_lt (Nat.two_pow_pos _))
  simp [place, hleast]

/-- A number with a pattern is rounded to it. -/
theorem round_exact (h : g.Canonical m e) (hsame : SameNumber m e m' e') (neg : Bool) :
    g.round neg (m' * 2 ^ e'.toNat) (2 ^ (-e').toNat) =
      (if neg then g.signBit else 0) + min g.infinity (g.place m e) := by
  rcases Nat.eq_zero_or_pos m' with rfl | hm'
  · obtain rfl : m = 0 := by
      have hzero : m * 2 ^ (e - e').toNat = 0 := hsame.trans (Nat.zero_mul _)
      exact (Nat.mul_eq_zero.mp hzero).resolve_right (Nat.two_pow_pos _).ne'
    rw [Nat.zero_mul, round, if_pos (.inl rfl), h.place_zero, Nat.min_zero, Nat.add_zero]
  have hm : 0 < m := by
    have hpos : 0 < m * 2 ^ (e - e').toNat :=
      (Nat.mul_pos hm' (Nat.two_pow_pos (e' - e).toNat)).trans_eq hsame.symm
    exact Nat.pos_of_mul_pos_right hpos
  have hscale : g.scaleOf (m' * 2 ^ e'.toNat) (2 ^ (-e').toNat) = e := by
    rw [scaleOf_eq hm', hsame.log2 hm hm', h.scale hm]
  have hexact : roundScaled (m' * 2 ^ e'.toNat) (2 ^ (-e').toNat) e = m := by
    refine roundScaled_exact (Nat.two_pow_pos _) (hsame.scaled ?_)
    omega
  have hnum : ¬(m' * 2 ^ e'.toNat = 0 ∨ 2 ^ (-e').toNat = 0) := by
    have hpos := Nat.mul_pos hm' (Nat.two_pow_pos e'.toNat)
    have hpos' := Nat.two_pow_pos (-e').toNat
    omega
  rw [round, if_neg hnum, hscale]
  simp only [hexact]
  rfl

/-! ## Conversions -/

theorem convert_finite (hfinite : f.isFinite bits = true) :
    f.convert g bits = g.round (f.negative bits)
      ((f.parts bits).1 * 2 ^ (f.parts bits).2.toNat) (2 ^ (-(f.parts bits).2).toNat) := by
  unfold convert
  rw [if_pos hfinite]
  simp only [Nat.pow_eq]
  split
  · have hzero : (-(f.parts bits).2).toNat = 0 := by omega
    rw [hzero, Nat.pow_zero]
  · have hzero : (f.parts bits).2.toNat = 0 := by omega
    rw [hzero, Nat.pow_zero, Nat.mul_one]

/-- A finite number is converted to its pattern in the other format, if it has one. -/
theorem convert_exact (hfinite : f.isFinite bits = true) (h : g.Canonical m e)
    (hsame : SameNumber m e (f.parts bits).1 (f.parts bits).2) :
    f.convert g bits =
      (if f.negative bits then g.signBit else 0) + min g.infinity (g.place m e) := by
  rw [convert_finite hfinite, round_exact h hsame]

/-! ## Signs -/

theorem magnitude_signed {p : Nat} (hp : p < f.signBit) (neg : Bool) :
    f.magnitude ((if neg then f.signBit else 0) + p) = p := by
  cases neg <;> simp [magnitude, Nat.mod_eq_of_lt hp]

theorem negative_signed {p : Nat} (hp : p < f.signBit) (neg : Bool) :
    f.negative ((if neg then f.signBit else 0) + p) = neg := by
  cases neg <;> simp [negative, hp]

/-- A pattern is its sign and its magnitude. -/
theorem signed_magnitude (h : bits < 2 * f.signBit) :
    (if f.negative bits then f.signBit else 0) + f.magnitude bits = bits := by
  unfold negative magnitude
  by_cases hneg : f.signBit ≤ bits
  · have hmod : bits % f.signBit = bits - f.signBit := by
      rw [Nat.mod_eq_sub_mod hneg, Nat.mod_eq_of_lt (by omega)]
    rw [hmod, if_pos (by simpa using hneg)]
    omega
  · rw [Nat.mod_eq_of_lt (by omega), if_neg (by simpa using hneg), Nat.zero_add]

/-! ## Singles and doubles -/

theorem double_infinity_lt : double.infinity < double.signBit := by decide

/-- A single in the canonical form of doubles. -/
theorem widened_canonical (h : single.Canonical m e) (hm : 0 < m) :
    double.Canonical (m * 2 ^ (52 - m.log2)) (e - (52 - m.log2 : Nat)) := by
  have hleast : -149 ≤ e := h.least
  have hlog : m.log2 < 24 := (Nat.log2_lt hm.ne').mpr h.below
  have hbelow : m < 2 ^ (m.log2 + 1) := Nat.lt_log2_self
  refine ⟨?_, ?_, .inl ?_⟩
  · show -1074 ≤ _
    omega
  · show m * 2 ^ (52 - m.log2) < 2 ^ 53
    calc m * 2 ^ (52 - m.log2) < 2 ^ (m.log2 + 1) * 2 ^ (52 - m.log2) :=
          Nat.mul_lt_mul_of_pos_right hbelow (Nat.two_pow_pos _)
      _ = 2 ^ 53 := by rw [← Nat.pow_add]; congr 1; omega
  · show 2 ^ 52 ≤ m * 2 ^ (52 - m.log2)
    calc 2 ^ 52 = 2 ^ m.log2 * 2 ^ (52 - m.log2) := by rw [← Nat.pow_add]; congr 1; omega
      _ ≤ m * 2 ^ (52 - m.log2) := Nat.mul_le_mul_right _ (Nat.log2_self_le hm.ne')

/-- A finite single is a finite double of the same sign and magnitude. -/
theorem widened (hfinite : single.isFinite bits = true) :
    ∃ p < double.infinity,
      single.convert double bits = (if single.negative bits then double.signBit else 0) + p ∧
      SameNumber (single.parts bits).1 (single.parts bits).2 (double.parts p).1
        (double.parts p).2 := by
  have hcanonical := single.parts_canonical bits
  have hplace := single.place_parts bits
  have hconvert := convert_finite (g := double) hfinite
  rcases hparts : single.parts bits with ⟨m, e⟩
  rw [hparts] at hcanonical hplace hconvert
  rcases Nat.eq_zero_or_pos m with rfl | hm
  · refine ⟨0, by decide, ?_, ?_⟩
    · rw [hconvert, Nat.zero_mul, round, if_pos (.inl rfl), Nat.add_zero]
    · have hzero : (double.parts 0).1 = 0 := by decide
      rw [SameNumber, hzero, Nat.zero_mul, Nat.zero_mul]
  · have hwide := widened_canonical hcanonical hm
    have hsame : SameNumber (m * 2 ^ (52 - m.log2)) (e - (52 - m.log2 : Nat)) m e := by
      have hless : (e - (52 - m.log2 : Nat) - e).toNat = 0 := by omega
      have hmore : (e - (e - (52 - m.log2 : Nat))).toNat = 52 - m.log2 := by omega
      rw [SameNumber, hless, hmore, Nat.pow_zero, Nat.mul_one]
    have hsmall : double.place (m * 2 ^ (52 - m.log2)) (e - (52 - m.log2 : Nat)) <
        double.infinity := by
      have hmagnitude : single.magnitude bits < 2139095040 := of_decide_eq_true hfinite
      have hexponent : (e + 149).toNat * 8388608 + m = single.magnitude bits := hplace
      have hbelow : m * 2 ^ (52 - m.log2) < 9007199254740992 := hwide.below
      show (e - (52 - m.log2 : Nat) + 1074).toNat * 4503599627370496 + m * 2 ^ (52 - m.log2) <
        9218868437227405312
      generalize m * 2 ^ (52 - m.log2) = q at hbelow
      omega
    refine ⟨_, hsmall, ?_, ?_⟩
    · rw [hconvert, round_exact hwide hsame,
        Nat.min_eq_right hsmall.le]
    · rw [parts_of_magnitude hwide (Nat.mod_eq_of_lt (hsmall.trans double_infinity_lt))]
      exact hsame.symm

/-- A finite single is widened to a finite double, and rounded back to itself. -/
theorem convert_widened (hbits : bits < 2 ^ 32) (hfinite : single.isFinite bits = true) :
    double.isFinite (single.convert double bits) = true ∧
      single.convert double bits < 2 ^ 64 ∧
      double.convert single (single.convert double bits) = bits := by
  obtain ⟨p, hp, hwidened, hsame⟩ := widened hfinite
  have hsigned := hp.trans double_infinity_lt
  have hmagnitude := magnitude_signed hsigned (single.negative bits)
  have hparts : double.parts (single.convert double bits) = double.parts p := by
    unfold parts
    rw [hwidened, hmagnitude, magnitude, Nat.mod_eq_of_lt hsigned]
  have hfinite' : double.isFinite (single.convert double bits) = true := by
    rw [hwidened, isFinite, hmagnitude]
    exact decide_eq_true hp
  have hsize : single.convert double bits < 2 ^ 64 := by
    have hsignBit : double.signBit = 2 ^ 63 := rfl
    rw [hwidened]
    split <;> omega
  refine ⟨hfinite', hsize, ?_⟩
  have hnegative : double.negative (single.convert double bits) = single.negative bits := by
    rw [hwidened, negative_signed hsigned]
  have hback : (if single.negative bits then single.signBit else 0) + single.magnitude bits =
      bits := signed_magnitude (f := single) hbits
  have hplace := single.place_parts bits
  rw [convert_exact hfinite' (single.parts_canonical bits) (hparts ▸ hsame), hnegative, hplace,
    Nat.min_eq_right (of_decide_eq_true hfinite : single.magnitude bits < _).le, hback]

/-- A single that is not finite is no finite double. -/
theorem not_finite_widened (hfinite : single.isFinite bits = false) :
    double.isFinite (single.convert double bits) = false := by
  have hsigned : ∀ p, double.infinity ≤ p → p < double.signBit → double.isFinite
      ((if single.negative bits then double.signBit else 0) + p) = false := fun p hp hp' => by
    rw [isFinite, magnitude_signed hp']
    exact decide_eq_false (Nat.not_lt_of_le hp)
  unfold convert
  rw [hfinite, if_neg Bool.false_ne_true]
  split
  · exact hsigned _ (by decide) (by decide)
  · exact hsigned _ le_rfl double_infinity_lt

end FloatFormat

end StreamTrace
