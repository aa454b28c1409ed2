import Mathlib.Tactic

namespace Cnegative

namespace Math

/-! `std.math.gcd` and `std.math.lcm` on 64-bit words.  `none` is a division that traps. -/

def abs (value : BitVec 64) : BitVec 64 :=
  if (0#64).sle value then value else 0#64 - value

/-- `sdiv` and `srem` trap at a zero divisor and at the minimum divided by -1. -/
def Traps (left right : BitVec 64) : Prop :=
  right = 0 ∨ left = BitVec.intMin 64 ∧ right = -1

instance (left right : BitVec 64) : Decidable (Traps left right) :=
  inferInstanceAs (Decidable (_ ∨ _))

theorem natAbs_srem_lt (a : BitVec 64) {b : BitVec 64} (hb : b ≠ 0) :
    (a.srem b).toInt.natAbs < b.toInt.natAbs := by
  have hne : b.toInt ≠ 0 := fun hzero => hb (BitVec.eq_of_toInt_eq (by simpa using hzero))
  rw [BitVec.toInt_srem, Int.natAbs_tmod]
  exact Nat.mod_lt _ (by omega)

def gcdLoop (a b : BitVec 64) : Option (BitVec 64) :=
  if _hdone : b = 0 then some a
  else if Traps a b then none
  else gcdLoop b (a.srem b)
termination_by b.toInt.natAbs
decreasing_by exact natAbs_srem_lt a _hdone

def gcd (left right : BitVec 64) : Option (BitVec 64) := gcdLoop (abs left) (abs right)

def lcm (left right : BitVec 64) : Option (BitVec 64) :=
  if left = 0 ∨ right = 0 then some 0
  else
    match gcd left right with
    | none => none
    | some gcd => if Traps left gcd then none else some (abs (left.sdiv gcd * right))

def magnitude (value : BitVec 64) : Nat := value.toInt.natAbs

/-- What the two functions are to give: the results that fit, and no trap. -/
structure Correct (a b : BitVec 64) : Prop where
  gcd : ∃ result, gcd a b = some result ∧ 0 ≤ result.toInt ∧
    (Nat.gcd (magnitude a) (magnitude b) < 2 ^ 63 →
      result.toInt = Nat.gcd (magnitude a) (magnitude b))
  lcm : ∃ result, lcm a b = some result ∧
    (Nat.lcm (magnitude a) (magnitude b) < 2 ^ 63 →
      result.toInt = Nat.lcm (magnitude a) (magnitude b))

/-- How many divisions Euclid's algorithm makes on two natural numbers. -/
def divisions (x y : Nat) : Nat :=
  if _hdone : y = 0 then 0 else divisions y (x % y) + 1
termination_by y
decreasing_by exact Nat.mod_lt x (Nat.pos_of_ne_zero _hdone)

/-! Euclid's loop on words. -/

theorem magnitude_srem (a b : BitVec 64) :
    magnitude (a.srem b) = magnitude a % magnitude b := by
  rw [magnitude, BitVec.toInt_srem, Int.natAbs_tmod]
  rfl

theorem magnitude_eq_zero_iff (value : BitVec 64) : magnitude value = 0 ↔ value = 0 := by
  rw [magnitude, Int.natAbs_eq_zero, ← BitVec.toInt_inj, BitVec.toInt_ofNat]
  rfl

theorem gcd_magnitude_srem (a b : BitVec 64) :
    Nat.gcd (magnitude b) (magnitude (a.srem b)) = Nat.gcd (magnitude a) (magnitude b) := by
  rw [magnitude_srem, Nat.gcd_comm (magnitude a), Nat.gcd_rec (magnitude b) (magnitude a),
    Nat.gcd_comm (magnitude b)]

theorem not_traps {a b : BitVec 64} (hne : b ≠ 0) (hsign : 0 ≤ a.toInt ∨ 0 ≤ b.toInt) :
    ¬ Traps a b := by
  rintro (hzero | ⟨rfl, rfl⟩)
  · exact hne hzero
  · revert hsign
    decide

theorem gcdLoop_zero (a : BitVec 64) : gcdLoop a 0 = some a := by
  rw [gcdLoop, dif_pos rfl]

theorem gcdLoop_step {a b : BitVec 64} (hne : b ≠ 0) (hsign : 0 ≤ a.toInt ∨ 0 ≤ b.toInt) :
    gcdLoop a b = gcdLoop b (a.srem b) := by
  rw [gcdLoop, dif_neg hne, if_neg (not_traps hne hsign)]

theorem toInt_of_nonneg {value : BitVec 64} (hnonneg : 0 ≤ value.toInt) :
    value.toInt = magnitude value := (Int.natAbs_of_nonneg hnonneg).symm

theorem gcdLoop_nonneg (a b : BitVec 64) (ha : 0 ≤ a.toInt) (hb : 0 ≤ b.toInt) :
    ∃ result, gcdLoop a b = some result ∧
      result.toInt = Nat.gcd (magnitude a) (magnitude b) := by
  induction a, b using gcdLoop.induct with
  | case1 a =>
      refine ⟨a, gcdLoop_zero a, ?_⟩
      rw [(magnitude_eq_zero_iff 0).mpr rfl, Nat.gcd_zero_right, toInt_of_nonneg ha]
  | case2 a b hne htraps => exact absurd htraps (not_traps hne (Or.inl ha))
  | case3 a b hne htraps ih =>
      have hrest : 0 ≤ (a.srem b).toInt := by
        rw [BitVec.toInt_srem]
        exact Int.tmod_nonneg _ ha
      obtain ⟨result, hresult, hgcd⟩ := ih hb hrest
      rw [gcdLoop_step hne (Or.inl ha)]
      exact ⟨result, hresult, by rw [hgcd, gcd_magnitude_srem]⟩

theorem divisions_step (a : BitVec 64) {b : BitVec 64} (hne : b ≠ 0) :
    divisions (magnitude a) (magnitude b) =
      divisions (magnitude b) (magnitude (a.srem b)) + 1 := by
  rw [divisions, dif_neg (mt (magnitude_eq_zero_iff b).mp hne), magnitude_srem]

/-- With operands of different signs each division turns the sign of the remainder. -/
theorem gcdLoop_mixed (a b : BitVec 64) :
    (0 ≤ a.toInt → b.toInt ≤ 0 → ∃ result, gcdLoop a b = some result ∧
      result.toInt = (-1) ^ divisions (magnitude a) (magnitude b) *
        Nat.gcd (magnitude a) (magnitude b)) ∧
    (a.toInt ≤ 0 → 0 ≤ b.toInt → ∃ result, gcdLoop a b = some result ∧
      result.toInt = -((-1) ^ divisions (magnitude a) (magnitude b) *
        Nat.gcd (magnitude a) (magnitude b))) := by
  induction a, b using gcdLoop.induct with
  | case1 a =>
      have hzero : magnitude 0 = 0 := (magnitude_eq_zero_iff 0).mpr rfl
      have hdivisions : divisions (magnitude a) 0 = 0 := by rw [divisions, dif_pos rfl]
      rw [hzero, hdivisions, Nat.gcd_zero_right]
      refine ⟨fun ha _ => ⟨a, gcdLoop_zero a, ?_⟩, fun ha _ => ⟨a, gcdLoop_zero a, ?_⟩⟩
      · rw [pow_zero, one_mul, toInt_of_nonneg ha]
      · rw [pow_zero, one_mul, magnitude, Int.ofNat_natAbs_of_nonpos ha, neg_neg]
  | case2 a b hne htraps =>
      exact ⟨fun ha _ => absurd htraps (not_traps hne (Or.inl ha)),
        fun _ hb => absurd htraps (not_traps hne (Or.inr hb))⟩
  | case3 a b hne htraps ih =>
      rw [divisions_step a hne, ← gcd_magnitude_srem, pow_succ]
      constructor
      · intro ha hb
        have hrest : 0 ≤ (a.srem b).toInt := by
          rw [BitVec.toInt_srem]
          exact Int.tmod_nonneg _ ha
        obtain ⟨result, hresult, hgcd⟩ := ih.2 hb hrest
        rw [gcdLoop_step hne (Or.inl ha)]
        exact ⟨result, hresult, by rw [hgcd]; ring⟩
      · intro ha hb
        have hrest : (a.srem b).toInt ≤ 0 := by
          have hflip : 0 ≤ (-a.toInt).tmod b.toInt := Int.tmod_nonneg _ (by omega)
          rw [Int.neg_tmod] at hflip
          rw [BitVec.toInt_srem]
          omega
        obtain ⟨result, hresult, hgcd⟩ := ih.1 hb hrest
        rw [gcdLoop_step hne (Or.inr hb)]
        exact ⟨result, hresult, by rw [hgcd]; ring⟩

/-! Absolute values, and the minimum that has none. -/

theorem toInt_range (value : BitVec 64) : -2 ^ 63 ≤ value.toInt ∧ value.toInt < 2 ^ 63 :=
  ⟨BitVec.le_toInt value, BitVec.toInt_lt⟩

theorem toInt_min : (BitVec.intMin 64).toInt = -2 ^ 63 := BitVec.toInt_intMin_of_pos (by decide)

theorem magnitude_min : magnitude (BitVec.intMin 64) = 2 ^ 63 := by
  rw [magnitude, toInt_min]
  rfl

theorem magnitude_lt {value : BitVec 64} (hmin : value ≠ BitVec.intMin 64) :
    magnitude value < 2 ^ 63 := by
  have hrange := toInt_range value
  have hne : value.toInt ≠ -2 ^ 63 := fun heq =>
    hmin (BitVec.eq_of_toInt_eq (heq.trans toInt_min.symm))
  unfold magnitude
  omega

theorem abs_min : abs (BitVec.intMin 64) = BitVec.intMin 64 := by decide

theorem toInt_abs {value : BitVec 64} (hmin : value ≠ BitVec.intMin 64) :
    (abs value).toInt = magnitude value := by
  unfold abs magnitude
  rw [BitVec.sle_eq_decide, BitVec.toInt_zero]
  split
  · rename_i hnonneg
    exact (Int.natAbs_of_nonneg (of_decide_eq_true hnonneg)).symm
  · rename_i hneg
    have hneg : ¬ 0 ≤ value.toInt := by simpa using hneg
    rw [BitVec.zero_sub, BitVec.toInt_neg_of_ne_intMin hmin]
    omega

theorem magnitude_abs (value : BitVec 64) : magnitude (abs value) = magnitude value := by
  by_cases hmin : value = BitVec.intMin 64
  · rw [hmin, abs_min]
  · rw [magnitude, toInt_abs hmin, Int.natAbs_natCast]

/-! When the two functions are correct. -/

/-- The minimum against another word: Euclid's algorithm divides an odd number of times. -/
def MinimumFits (other : BitVec 64) : Prop :=
  other ≠ BitVec.intMin 64 ∧ Odd (divisions (2 ^ 63) (magnitude other))

theorem gcd_of_ne_min {a b : BitVec 64} (ha : a ≠ BitVec.intMin 64) (hb : b ≠ BitVec.intMin 64) :
    ∃ result, gcd a b = some result ∧
      result.toInt = Nat.gcd (magnitude a) (magnitude b) := by
  obtain ⟨result, hresult, hgcd⟩ := gcdLoop_nonneg (abs a) (abs b)
    (by rw [toInt_abs ha]; omega) (by rw [toInt_abs hb]; omega)
  exact ⟨result, hresult, by rw [hgcd, magnitude_abs, magnitude_abs]⟩

theorem gcd_min_left {other : BitVec 64} (hother : other ≠ BitVec.intMin 64) :
    ∃ result, gcd (BitVec.intMin 64) other = some result ∧
      result.toInt = -((-1) ^ divisions (2 ^ 63) (magnitude other) *
        Nat.gcd (2 ^ 63) (magnitude other)) := by
  obtain ⟨result, hresult, hgcd⟩ := (gcdLoop_mixed (BitVec.intMin 64) (abs other)).2
    (by rw [toInt_min]; decide) (by rw [toInt_abs hother]; omega)
  rw [magnitude_min, magnitude_abs] at hgcd
  exact ⟨result, by rw [gcd, abs_min]; exact hresult, hgcd⟩

theorem gcd_min_right {other : BitVec 64} (hother : other ≠ BitVec.intMin 64) :
    ∃ result, gcd other (BitVec.intMin 64) = some result ∧
      result.toInt = -((-1) ^ divisions (2 ^ 63) (magnitude other) *
        Nat.gcd (2 ^ 63) (magnitude other)) := by
  obtain ⟨result, hresult, hgcd⟩ := (gcdLoop_mixed (abs other) (BitVec.intMin 64)).1
    (by rw [toInt_abs hother]; omega) (by rw [toInt_min]; decide)
  have hlt := magnitude_lt hother
  have hswap : divisions (magnitude other) (2 ^ 63) =
      divisions (2 ^ 63) (magnitude other) + 1 := by
    rw [divisions, dif_neg (by decide), Nat.mod_eq_of_lt hlt]
  rw [magnitude_min, magnitude_abs, hswap, Nat.gcd_comm, pow_succ] at hgcd
  exact ⟨result, by rw [gcd, abs_min]; exact hresult, by rw [hgcd]; ring⟩

theorem gcd_min_min : gcd (BitVec.intMin 64) (BitVec.intMin 64) = some (BitVec.intMin 64) := by
  have hne : ¬ BitVec.intMin 64 = 0 := by decide
  have htraps : ¬ Traps (BitVec.intMin 64) (BitVec.intMin 64) := by decide
  have hrest : (BitVec.intMin 64).srem (BitVec.intMin 64) = 0 := by decide
  rw [gcd, abs_min, gcdLoop, dif_neg hne, if_neg htraps, hrest, gcdLoop_zero]

/-- The inputs on which the absolute values leave Euclid's loop a result with the right sign. -/
def Fits (a b : BitVec 64) : Prop :=
  a ≠ BitVec.intMin 64 ∧ b ≠ BitVec.intMin 64 ∨
    a = BitVec.intMin 64 ∧ MinimumFits b ∨ b = BitVec.intMin 64 ∧ MinimumFits a

theorem gcd_of_fits {a b : BitVec 64} (hfits : Fits a b) :
    ∃ result, gcd a b = some result ∧
      result.toInt = Nat.gcd (magnitude a) (magnitude b) := by
  rcases hfits with ⟨ha, hb⟩ | ⟨rfl, hother, hodd⟩ | ⟨rfl, hother, hodd⟩
  · exact gcd_of_ne_min ha hb
  · obtain ⟨result, hresult, hgcd⟩ := gcd_min_left hother
    exact ⟨result, hresult, by rw [hgcd, hodd.neg_one_pow, magnitude_min]; ring⟩
  · obtain ⟨result, hresult, hgcd⟩ := gcd_min_right hother
    exact ⟨result, hresult, by
      rw [hgcd, hodd.neg_one_pow, magnitude_min, Nat.gcd_comm (magnitude a)]; ring⟩

theorem gcd_negative {a b : BitVec 64} (hfits : ¬ Fits a b) :
    ∃ result, gcd a b = some result ∧ result.toInt < 0 := by
  have hnegative : ∀ {other result : BitVec 64}, ¬ Odd (divisions (2 ^ 63) (magnitude other)) →
      result.toInt = -((-1) ^ divisions (2 ^ 63) (magnitude other) *
        Nat.gcd (2 ^ 63) (magnitude other)) → result.toInt < 0 := by
    intro other result heven hresult
    have hpos : 0 < Nat.gcd (2 ^ 63) (magnitude other) := Nat.gcd_pos_of_pos_left _ (by decide)
    rw [hresult, (Nat.not_odd_iff_even.mp heven).neg_one_pow, one_mul]
    omega
  by_cases ha : a = BitVec.intMin 64
  · subst ha
    by_cases hb : b = BitVec.intMin 64
    · subst hb
      exact ⟨_, gcd_min_min, by rw [toInt_min]; decide⟩
    · obtain ⟨result, hresult, hgcd⟩ := gcd_min_left hb
      exact ⟨result, hresult, hnegative
        (fun hodd => hfits (Or.inr (Or.inl ⟨rfl, hb, hodd⟩))) hgcd⟩
  · by_cases hb : b = BitVec.intMin 64
    · subst hb
      obtain ⟨result, hresult, hgcd⟩ := gcd_min_right ha
      exact ⟨result, hresult, hnegative
        (fun hodd => hfits (Or.inr (Or.inr ⟨rfl, ha, hodd⟩))) hgcd⟩
    · exact absurd (Or.inl ⟨ha, hb⟩) hfits

/-- A least common multiple that fits is not one of the minimum. -/
theorem ne_min_of_lcm_lt {a b : BitVec 64} (ha : a ≠ 0) (hb : b ≠ 0)
    (hlcm : Nat.lcm (magnitude a) (magnitude b) < 2 ^ 63) :
    a ≠ BitVec.intMin 64 ∧ b ≠ BitVec.intMin 64 := by
  have hpos : 0 < Nat.lcm (magnitude a) (magnitude b) :=
    Nat.lcm_pos (Nat.pos_of_ne_zero (mt (magnitude_eq_zero_iff a).mp ha))
      (Nat.pos_of_ne_zero (mt (magnitude_eq_zero_iff b).mp hb))
  constructor
  · rintro rfl
    have hle := Nat.le_of_dvd hpos (Nat.dvd_lcm_left (magnitude (BitVec.intMin 64)) (magnitude b))
    rw [magnitude_min] at hle hlcm
    omega
  · rintro rfl
    have hle := Nat.le_of_dvd hpos (Nat.dvd_lcm_right (magnitude a) (magnitude (BitVec.intMin 64)))
    rw [magnitude_min] at hle hlcm
    omega

theorem toInt_product {a b divisor : BitVec 64} (ha : a ≠ BitVec.intMin 64)
    (hdivisor : divisor.toInt = Nat.gcd (magnitude a) (magnitude b))
    (hlcm : Nat.lcm (magnitude a) (magnitude b) < 2 ^ 63) :
    (abs (a.sdiv divisor * b)).toInt = Nat.lcm (magnitude a) (magnitude b) := by
  have hquotient : (a.sdiv divisor).toInt = a.toInt.tdiv divisor.toInt :=
    BitVec.toInt_sdiv_of_ne_or_ne a divisor (Or.inl ha)
  have hnatAbs : (a.toInt.tdiv divisor.toInt * b.toInt).natAbs =
      Nat.lcm (magnitude a) (magnitude b) := by
    rw [Int.natAbs_mul, Int.natAbs_tdiv, hdivisor, Int.natAbs_natCast, Nat.lcm_eq_mul_div]
    exact Nat.div_mul_right_comm (Nat.gcd_dvd_left _ _) _
  have hproduct : (a.sdiv divisor * b).toInt = a.toInt.tdiv divisor.toInt * b.toInt := by
    rw [BitVec.toInt_mul, hquotient]
    exact Int.bmod_eq_of_le_mul_two (by omega) (by omega)
  have hmagnitude : magnitude (a.sdiv divisor * b) = Nat.lcm (magnitude a) (magnitude b) := by
    rw [magnitude, hproduct, hnatAbs]
  have hmin : a.sdiv divisor * b ≠ BitVec.intMin 64 := by
    intro heq
    rw [heq, magnitude_min] at hmagnitude
    omega
  rw [toInt_abs hmin, hmagnitude]

theorem lcm_of_fits {a b : BitVec 64} (hfits : Fits a b) :
    ∃ result, lcm a b = some result ∧ (Nat.lcm (magnitude a) (magnitude b) < 2 ^ 63 →
      result.toInt = Nat.lcm (magnitude a) (magnitude b)) := by
  by_cases hzero : a = 0 ∨ b = 0
  · refine ⟨0, by rw [lcm, if_pos hzero], fun _ => ?_⟩
    have hlcm : Nat.lcm (magnitude a) (magnitude b) = 0 := by
      rcases hzero with rfl | rfl
      · rw [(magnitude_eq_zero_iff 0).mpr rfl, Nat.lcm_zero_left]
      · rw [(magnitude_eq_zero_iff 0).mpr rfl, Nat.lcm_zero_right]
    rw [hlcm]
    rfl
  · obtain ⟨ha, hb⟩ := not_or.mp hzero
    obtain ⟨divisor, hdivisor, hgcd⟩ := gcd_of_fits hfits
    have hpos : 0 < divisor.toInt := by
      rw [hgcd]
      exact_mod_cast Nat.gcd_pos_of_pos_left _
        (Nat.pos_of_ne_zero (mt (magnitude_eq_zero_iff a).mp ha))
    have htraps : ¬ Traps a divisor := by
      rintro (rfl | ⟨-, rfl⟩)
      · exact absurd hpos (by decide)
      · exact absurd hpos (by decide)
    refine ⟨abs (a.sdiv divisor * b), by simp only [lcm, if_neg hzero, hdivisor, if_neg htraps],
      fun hlcm => ?_⟩
    exact toInt_product (ne_min_of_lcm_lt ha hb hlcm).1 hgcd hlcm

theorem gcd_lcm_correct_iff (a b : BitVec 64) : Correct a b ↔ Fits a b := by
  constructor
  · intro hcorrect
    by_contra hfits
    obtain ⟨result, hresult, hnonneg, -⟩ := hcorrect.gcd
    obtain ⟨negative, hnegative, hlt⟩ := gcd_negative hfits
    obtain rfl : result = negative := Option.some.inj (hresult.symm.trans hnegative)
    omega
  · intro hfits
    obtain ⟨result, hresult, hgcd⟩ := gcd_of_fits hfits
    exact ⟨⟨result, hresult, by rw [hgcd]; exact Int.natCast_nonneg _, fun _ => hgcd⟩,
      lcm_of_fits hfits⟩

/-- The minimum and 5: the divisor is -1, and `lcm` divides the minimum by it. -/
theorem min_five_traps :
    ¬ (∀ a b, Correct a b) ∧ gcd (BitVec.intMin 64) 5 = some (-1) ∧
      lcm (BitVec.intMin 64) 5 = none := by
  have hgcd : gcd (BitVec.intMin 64) 5 = some (-1) := by
    rw [gcd, gcdLoop, dif_neg (by decide), if_neg (by decide), gcdLoop, dif_neg (by decide),
      if_neg (by decide), gcdLoop, dif_neg (by decide), if_neg (by decide), gcdLoop,
      dif_neg (by decide), if_neg (by decide), gcdLoop, dif_pos (by decide)]
    decide
  refine ⟨fun hcorrect => ?_, hgcd, ?_⟩
  · obtain ⟨result, hresult, hnonneg, -⟩ := (hcorrect (BitVec.intMin 64) 5).gcd
    rw [hgcd, Option.some.injEq] at hresult
    rw [← hresult] at hnonneg
    exact absurd hnonneg (by decide)
  · rw [lcm, if_neg (by decide), hgcd]
    exact if_pos (by decide)

end Math

end Cnegative
