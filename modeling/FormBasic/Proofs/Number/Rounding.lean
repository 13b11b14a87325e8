import FormBasic.Number.Arithmetic
import FormBasic.Proofs.Number.Bits
import FormBasic.Proofs.Number.Display

/-!
# Integers as floats

A float keeps 53 significant bits of an integer. An integer with more of them becomes the nearest
one that has no more, and stays what it is after that: taking it back as an integer, rounding it to
the nearest integer or to no places, and making it a float again change nothing any more.

## Main definitions

* `Binary64.Representable` - natural numbers with at most 53 significant bits
* `Binary64.roundNat` - a natural number rounded to 53 significant bits
* `Binary64.IsWhole` - floats with the value of a whole number
* `Number.rounded` - an integer rounded to 53 significant bits

## Main statements

* `Binary64.natAbs_sub_roundNat_le`, `Binary64.roundNat_eq_self_iff` - the nearest such number
* `Binary64.isWhole_magnitudeBits` - the float nearest to a natural number
* `Number.roundToInt_int`, `Number.roundTo_int` - rounding an integer as a float
-/

namespace FormBasic

namespace Binary64

-- ════════════════════════════════════════════════════════════════════════════
-- Quotients
-- ════════════════════════════════════════════════════════════════════════════

section Quotients

variable {n d : Nat}

theorem div_le_roundDiv (n d : Nat) : n / d ≤ roundDiv n d := by
  rw [roundDiv]
  split <;> omega

theorem roundDiv_le (n d : Nat) : roundDiv n d ≤ n / d + 1 := by
  rw [roundDiv]
  split <;> omega

/-- A multiple is not changed by rounding to the nearest one. -/
theorem roundDiv_mul_of_dvd (hd : 0 < d) (h : d ∣ n) : roundDiv n d * d = n := by
  obtain ⟨q, rfl⟩ := h
  rw [Nat.mul_comm d q, roundDiv_mul_self q hd]

/-- No multiple is nearer than the rounded one. -/
theorem natAbs_sub_roundDiv_le (hd : 0 < d) (n q : Nat) :
    ((n : Int) - (roundDiv n d * d : Nat)).natAbs ≤ ((n : Int) - (q * d : Nat)).natAbs := by
  have hn : d * (n / d) + n % d = n := Nat.div_add_mod n d
  have hr : n % d < d := Nat.mod_lt n hd
  rw [Nat.mul_comm] at hn
  have hnext : (n / d + 1) * d = n / d * d + d := Nat.succ_mul _ _
  -- the multiples below and above `n` are the candidates
  have hq : q * d ≤ n / d * d ∨ (n / d + 1) * d ≤ q * d := by
    rcases Nat.lt_or_ge (n / d) q with hlt | hle
    · exact .inr (Nat.mul_le_mul_right d hlt)
    · exact .inl (Nat.mul_le_mul_right d hle)
  simp only [roundDiv]
  split <;> omega

end Quotients

-- ════════════════════════════════════════════════════════════════════════════
-- Rounding to 53 bits
-- ════════════════════════════════════════════════════════════════════════════

/-- The natural numbers with at most 53 significant bits. -/
def Representable (n : Nat) : Prop := ∃ m e, m ≤ 2 ^ 53 ∧ n = m * 2 ^ e

/-- The number of significant bits of a natural number beyond the first 53. -/
def excessBits (n : Nat) : Nat := n.log2 - 52

/-- The natural number of at most 53 significant bits that is nearest to `n`; a tie goes to the one
whose 53rd bit is zero. -/
def roundNat (n : Nat) : Nat := roundDiv n (2 ^ excessBits n) * 2 ^ excessBits n

/-- The 53 bits that a float keeps of a natural number; rounded up to the next power of two they may
be `2 ^ 53`. -/
def significand (n : Nat) : Nat := roundDiv (n * 2 ^ (52 - n.log2)) (2 ^ excessBits n)

section Rounding

variable {n : Nat}

/-- With its first bit at the place of the 53rd one a number has the excess beyond 53 bits. -/
theorem scaled_bounds (hn : n ≠ 0) :
    2 ^ 52 * 2 ^ excessBits n ≤ n * 2 ^ (52 - n.log2) ∧
      n * 2 ^ (52 - n.log2) < 2 ^ 53 * 2 ^ excessBits n := by
  have hplaces : n.log2 + (52 - n.log2) = 52 + excessBits n := by
    rw [excessBits]
    omega
  have hpos : 0 < 2 ^ (52 - n.log2) := Nat.two_pow_pos _
  constructor
  · rw [← Nat.pow_add, ← hplaces, Nat.pow_add]
    exact Nat.mul_le_mul_right _ (Nat.log2_self_le hn)
  · rw [← Nat.pow_add, show 53 + excessBits n = n.log2 + 1 + (52 - n.log2) by omega, Nat.pow_add]
    exact Nat.mul_lt_mul_of_pos_right Nat.lt_log2_self hpos

theorem significand_bounds (hn : n ≠ 0) : 2 ^ 52 ≤ significand n ∧ significand n ≤ 2 ^ 53 := by
  obtain ⟨hlow, hhigh⟩ := scaled_bounds hn
  have hpos : 0 < 2 ^ excessBits n := Nat.two_pow_pos _
  have hdiv := (Nat.le_div_iff_mul_le hpos).2 hlow
  have hdiv' := (Nat.div_lt_iff_lt_mul hpos).2 hhigh
  have := div_le_roundDiv (n * 2 ^ (52 - n.log2)) (2 ^ excessBits n)
  have := roundDiv_le (n * 2 ^ (52 - n.log2)) (2 ^ excessBits n)
  rw [significand]
  omega

theorem roundNat_of_log2_le (h : n.log2 ≤ 52) : roundNat n = n := by
  rw [roundNat, excessBits, Nat.sub_eq_zero_of_le h]
  exact roundDiv_mul_of_dvd Nat.one_pos (Nat.one_dvd n)

/-- The value of the bits that are kept. -/
theorem significand_mul (n : Nat) :
    significand n * 2 ^ excessBits n = roundNat n * 2 ^ (52 - n.log2) := by
  rcases Nat.le_total n.log2 52 with hle | hge
  · have hzero : excessBits n = 0 := Nat.sub_eq_zero_of_le hle
    rw [roundNat_of_log2_le hle, significand, hzero]
    exact roundDiv_mul_of_dvd Nat.one_pos (Nat.one_dvd _)
  · rw [significand, Nat.sub_eq_zero_of_le hge, Nat.pow_zero, Nat.mul_one, Nat.mul_one, roundNat]

theorem roundNat_eq_significand_mul (h : 52 ≤ n.log2) :
    roundNat n = significand n * 2 ^ excessBits n := by
  rw [significand_mul, Nat.sub_eq_zero_of_le h, Nat.pow_zero, Nat.mul_one]

theorem ne_zero_of_log2 (h : 52 ≤ n.log2) : n ≠ 0 := by
  rintro rfl
  exact absurd h (by decide)

theorem representable_roundNat (n : Nat) : Representable (roundNat n) := by
  rcases Nat.le_total n.log2 52 with hle | hge
  · have hlt : n < 2 ^ (n.log2 + 1) := Nat.lt_log2_self
    have hpow : 2 ^ (n.log2 + 1) ≤ 2 ^ 53 := Nat.pow_le_pow_right Nat.two_pos (by omega)
    rw [roundNat_of_log2_le hle]
    exact ⟨n, 0, by omega, (Nat.mul_one n).symm⟩
  · have hbits := (significand_bounds (ne_zero_of_log2 hge)).2
    exact ⟨significand n, excessBits n, hbits, roundNat_eq_significand_mul hge⟩

/-- Of a number with 53 significant bits no bit is lost. -/
theorem two_pow_excessBits_dvd (h : Representable n) : 2 ^ excessBits n ∣ n := by
  obtain ⟨m, e, hm, rfl⟩ := h
  rcases Nat.lt_or_eq_of_le hm with hlt | rfl
  · have hexcess : excessBits (m * 2 ^ e) ≤ e := by
      rcases Nat.eq_zero_or_pos m with rfl | hpos
      · rw [Nat.zero_mul]
        exact Nat.zero_le e
      · have hlog : (m * 2 ^ e).log2 < 53 + e := by
          rw [Nat.log2_lt (Nat.ne_of_gt (Nat.mul_pos hpos (Nat.two_pow_pos e))), Nat.pow_add]
          exact Nat.mul_lt_mul_of_pos_right hlt (Nat.two_pow_pos e)
        rw [excessBits]
        omega
    exact Nat.dvd_trans (Nat.pow_dvd_pow 2 hexcess) (Nat.dvd_mul_left _ _)
  · rw [← Nat.pow_add, excessBits, Nat.log2_two_pow]
    exact Nat.pow_dvd_pow 2 (by omega)

theorem roundNat_eq_self_iff : roundNat n = n ↔ Representable n :=
  ⟨fun h => h ▸ representable_roundNat n,
    fun h => roundDiv_mul_of_dvd (Nat.two_pow_pos _) (two_pow_excessBits_dvd h)⟩

/-- No number with 53 significant bits is nearer than the rounded one. -/
theorem natAbs_sub_roundNat_le {k : Nat} (hk : Representable k) :
    ((n : Int) - roundNat n).natAbs ≤ ((n : Int) - k).natAbs := by
  rcases Nat.lt_or_ge 52 n.log2 with hlt | hle
  · have hpos : 0 < 2 ^ excessBits n := Nat.two_pow_pos _
    have hlow := (scaled_bounds (ne_zero_of_log2 (Nat.le_of_lt hlt))).1
    rw [Nat.sub_eq_zero_of_le (Nat.le_of_lt hlt), Nat.pow_zero, Nat.mul_one] at hlow
    obtain ⟨m, e, hm, rfl⟩ := hk
    rcases Nat.lt_or_ge e (excessBits n) with hfine | hcoarse
    · -- a finer number is below the power of two that `n` starts with, which is a multiple
      have hbelow : m * 2 ^ e ≤ 2 ^ 52 * 2 ^ excessBits n := by
        calc m * 2 ^ e ≤ 2 ^ 53 * 2 ^ e := Nat.mul_le_mul_right _ hm
          _ = 2 ^ 52 * 2 ^ (e + 1) := by rw [Nat.pow_succ]; omega
          _ ≤ 2 ^ 52 * 2 ^ excessBits n :=
            Nat.mul_le_mul_left _ (Nat.pow_le_pow_right Nat.two_pos hfine)
      have hnear := natAbs_sub_roundDiv_le hpos n (2 ^ 52)
      rw [roundNat]
      omega
    · obtain ⟨q, hq⟩ : 2 ^ excessBits n ∣ m * 2 ^ e :=
        Nat.dvd_trans (Nat.pow_dvd_pow 2 hcoarse) (Nat.dvd_mul_left _ _)
      rw [hq, Nat.mul_comm _ q]
      exact natAbs_sub_roundDiv_le hpos n q
  · rw [roundNat_of_log2_le hle, Int.sub_self]
    exact Nat.zero_le _

/-- Rounding up may reach the next power of two, and no more. -/
theorem log2_roundNat_le (n : Nat) : (roundNat n).log2 ≤ n.log2 + 1 := by
  rcases Nat.le_total n.log2 52 with hle | hge
  · rw [roundNat_of_log2_le hle]
    omega
  · obtain ⟨hlow, hhigh⟩ := significand_bounds (ne_zero_of_log2 hge)
    have hpos : 0 < 2 ^ excessBits n := Nat.two_pow_pos _
    have hlog : (significand n * 2 ^ excessBits n).log2 < n.log2 + 2 := by
      rw [Nat.log2_lt (Nat.ne_of_gt (Nat.mul_pos (by omega) hpos)),
        show n.log2 + 2 = 54 + excessBits n by rw [excessBits]; omega, Nat.pow_add]
      exact Nat.mul_lt_mul_of_pos_right (by omega) hpos
    rw [roundNat_eq_significand_mul hge]
    omega

end Rounding

-- ════════════════════════════════════════════════════════════════════════════
-- The nearest float
-- ════════════════════════════════════════════════════════════════════════════

/-- Whether a float is a natural number with a sign. -/
def IsWhole (x : Float) (negative : Bool) (v : Nat) : Prop :=
  ∃ s e, decode x = .finite negative s e ∧ s * (powerOfTwo e).1 = v * (powerOfTwo e).2

theorem powerOfTwo_pos (e : Int) : 0 < (powerOfTwo e).2 := Nat.two_pow_pos _

section Nearest

variable {n : Nat}

theorem powerOfTwo_log2 (n : Nat) :
    powerOfTwo ((n.log2 : Int) - 52) = (2 ^ excessBits n, 2 ^ (52 - n.log2)) := by
  have hup : ((n.log2 : Int) - 52).toNat = excessBits n := by
    rw [excessBits]
    omega
  have hdown : (-((n.log2 : Int) - 52)).toNat = 52 - n.log2 := by omega
  rw [powerOfTwo, hup, hdown]
  rfl

/-- The bits of the float nearest to a natural number that is not too large. -/
theorem magnitudeBits_one (hn : n ≠ 0) (h : n.log2 ≤ 1022) :
    magnitudeBits n 1 = (n.log2 + 1022) * 2 ^ 52 + significand n := by
  have hguess : (n.log2 : Int) - (1 : Nat).log2 - 52 = n.log2 - 52 := by
    rw [show Nat.log2 1 = 0 by decide]
    omega
  have hexponent : max ((n.log2 : Int) - 52) (-1074) = n.log2 - 52 := by omega
  have hplace : ((n.log2 : Int) - 52 + 1074).toNat = n.log2 + 1022 := by omega
  have hhigh := (significand_bounds hn).2
  rw [magnitudeBits, if_neg hn]
  simp only [hguess, powerOfTwo_log2, Nat.pow_eq, Nat.one_mul, if_pos (scaled_bounds hn).1,
    hexponent, hplace]
  refine Nat.min_eq_left ?_
  change _ + significand n ≤ _
  simp only [infinityBits, Nat.pow_eq]
  omega

/-- The float nearest to a natural number is the number rounded to 53 bits. -/
theorem isWhole_magnitudeBits (h : n.log2 ≤ 1022) (negative : Bool) :
    magnitudeBits n 1 < infinityBits ∧
      IsWhole (ofMagnitude negative (magnitudeBits n 1)) negative (roundNat n) := by
  rcases Nat.eq_zero_or_pos n with rfl | hpos
  · have hfinite : magnitudeBits 0 1 < infinityBits := by decide
    refine ⟨hfinite, 0, -1074, decode_ofMagnitude hfinite negative, ?_⟩
    rw [roundNat_of_log2_le (by decide), Nat.zero_mul, Nat.zero_mul]
  · have hn : n ≠ 0 := by omega
    obtain ⟨hlow, hhigh⟩ := significand_bounds hn
    have hbits := magnitudeBits_one hn h
    have hfinite : magnitudeBits n 1 < infinityBits := by
      simp only [hbits, infinityBits, Nat.pow_eq]
      omega
    refine ⟨hfinite, ?_⟩
    have hdecode := decode_ofMagnitude hfinite negative
    rw [if_neg (by omega)] at hdecode
    rcases Nat.lt_or_eq_of_le hhigh with hlt | hcarry
    · refine ⟨significand n, n.log2 - 52, ?_, ?_⟩
      · rw [hdecode]
        congr 1 <;> omega
      · rw [powerOfTwo_log2]
        exact significand_mul n
    · -- the carry makes the significand a power of two again
      have hlong : 52 < n.log2 := by
        rcases Nat.lt_or_ge 52 n.log2 with hlt | hle
        · exact hlt
        · have hzero : excessBits n = 0 := Nat.sub_eq_zero_of_le hle
          have hvalue := significand_mul n
          have hscaled := (scaled_bounds hn).2
          rw [roundNat_of_log2_le hle, hzero] at hvalue
          rw [hzero] at hscaled
          omega
      have hexcess : (n.log2 : Int) - 51 = (excessBits n + 1 : Nat) := by
        rw [excessBits]
        omega
      refine ⟨2 ^ 52, n.log2 - 51, ?_, ?_⟩
      · rw [hdecode]
        congr 1 <;> omega
      · rw [roundNat_eq_significand_mul (Nat.le_of_lt hlong), hcarry, hexcess]
        change 2 ^ 52 * 2 ^ (excessBits n + 1) = 2 ^ 53 * 2 ^ excessBits n * 1
        rw [Nat.pow_succ]
        omega

/-- A decimal number without places is made a float as a natural number is. -/
theorem ofDecimal_zero (h : n.log2 ≤ 1022) (negative : Bool) :
    ofDecimal negative n 0 = ofMagnitude negative (magnitudeBits n 1) := by
  rw [ofDecimal]
  split
  · next hzero =>
    have hn : n = 0 := by omega
    rw [hn]
    rfl
  · rw [if_neg (by omega), ofRatio]
    exact congrArg (fun m => ofMagnitude negative (magnitudeBits m 1)) (Nat.mul_one n)

end Nearest

end Binary64

namespace Number

open Binary64 (Representable roundNat IsWhole)

-- ════════════════════════════════════════════════════════════════════════════
-- Back to integers
-- ════════════════════════════════════════════════════════════════════════════

section Whole

variable {x : Float} {negative : Bool} {v : Nat}

theorem whole?_of_isWhole (h : IsWhole x negative v) : whole? x = some (signedInt negative v) := by
  obtain ⟨s, e, hdecode, hvalue⟩ := h
  simp only [whole?, hdecode, hvalue, Nat.mul_mod_left, if_true,
    Nat.mul_div_cancel v (Binary64.powerOfTwo_pos e)]

theorem normalize_of_isWhole (h : IsWhole x negative v) :
    normalize (.float x) = .int (signedInt negative v) := by
  rw [normalize, whole?_of_isWhole h]

theorem nearest_of_isWhole (h : IsWhole x negative v) :
    nearest (.float x) = .ok (signedInt negative v) := by
  obtain ⟨s, e, hdecode, hvalue⟩ := h
  simp only [nearest, toInteger, hdecode, hvalue,
    Binary64.roundDiv_mul_self v (Binary64.powerOfTwo_pos e)]

/-- Rounding to no places changes nothing. -/
theorem roundFloat_of_isWhole (h : IsWhole x negative v) (hv : v.log2 ≤ 1022)
    (hrepresentable : Representable v) :
    ∃ y, roundFloat x 0 = .ok y ∧ IsWhole y negative v := by
  obtain ⟨s, e, hdecode, hvalue⟩ := h
  obtain ⟨hfinite, hwhole⟩ := Binary64.isWhole_magnitudeBits hv negative
  rw [Binary64.roundNat_eq_self_iff.2 hrepresentable] at hwhole
  refine ⟨_, ?_, hwhole⟩
  have hunits : Binary64.scaledTo 0 s e = v := by
    change Binary64.roundDiv (s * (Binary64.powerOfTwo e).1 * 1) ((Binary64.powerOfTwo e).2 * 1) = v
    rw [Nat.mul_one, Nat.mul_one, hvalue,
      Binary64.roundDiv_mul_self v (Binary64.powerOfTwo_pos e)]
  rw [roundFloat, hdecode]
  simp only
  rw [if_neg (by omega), if_neg (by omega), hunits, Int.neg_zero, Binary64.ofDecimal_zero hv,
    if_pos (Binary64.isFinite_ofMagnitude hfinite negative)]

end Whole

-- ════════════════════════════════════════════════════════════════════════════
-- Integers rounded as floats
-- ════════════════════════════════════════════════════════════════════════════

/-- An integer rounded to 53 significant bits. -/
def rounded (n : Int) : Int := signedInt (n < 0) (roundNat n.natAbs)

section Rounded

variable {n : Int}

theorem natAbs_signedInt (negative : Bool) (v : Nat) : (signedInt negative v).natAbs = v := by
  rw [signedInt]
  split <;> omega

theorem rounded_eq_self_iff : rounded n = n ↔ Representable n.natAbs := by
  rw [← Binary64.roundNat_eq_self_iff]
  constructor
  · intro h
    have habs := congrArg Int.natAbs h
    rwa [rounded, natAbs_signedInt] at habs
  · intro h
    rw [rounded, h, signedInt_natAbs]

theorem representable_rounded (n : Int) : Representable (rounded n).natAbs := by
  rw [rounded, natAbs_signedInt]
  exact Binary64.representable_roundNat _

/-- No integer with 53 significant bits is nearer than the rounded one. -/
theorem natAbs_sub_rounded_le {k : Int} (hk : Representable k.natAbs) :
    (n - rounded n).natAbs ≤ (n - k).natAbs := by
  have hnear := Binary64.natAbs_sub_roundNat_le (n := n.natAbs) hk
  rw [rounded]
  rcases Int.lt_or_le n 0 with hn | hn
  · rw [decide_eq_true hn, signedInt, if_pos rfl]
    omega
  · rw [decide_eq_false (Int.not_lt.2 hn), signedInt, if_neg Bool.false_ne_true]
    omega

variable (h : n.natAbs.log2 ≤ 1021)

include h

theorem toFloat_int : ∃ x, toFloat (.int n) = .ok x ∧
    IsWhole x (n < 0) (roundNat n.natAbs) := by
  obtain ⟨hfinite, hwhole⟩ := Binary64.isWhole_magnitudeBits (n := n.natAbs) (by omega) (n < 0)
  refine ⟨_, ?_, hwhole⟩
  rw [toFloat, Binary64.ofInt?, if_pos hfinite]

/-- To the nearest integer. -/
theorem roundToInt_int : roundToInt (.int n) = .ok (rounded n) := by
  obtain ⟨x, hx, hwhole⟩ := toFloat_int h
  rw [roundToInt, hx]
  exact nearest_of_isWhole hwhole

/-- To no places. -/
theorem roundTo_int : roundTo (.int n) (.int 0) = .ok (.int (rounded n)) := by
  obtain ⟨x, hx, hwhole⟩ := toFloat_int h
  have hlog : (roundNat n.natAbs).log2 ≤ 1022 := by
    have := Binary64.log2_roundNat_le n.natAbs
    omega
  obtain ⟨y, hy, hround⟩ :=
    roundFloat_of_isWhole hwhole hlog (Binary64.representable_roundNat n.natAbs)
  rw [roundTo, hx]
  simp only [bind, Except.bind, truncate_int, hy, pure, Except.pure, normalize_of_isWhole hround]
  rfl

end Rounded

end Number

end FormBasic
