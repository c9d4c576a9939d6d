/-
The numbers of a text are finite. Each is rounded from a significand of 64 bits and then scaled by a power
of ten: a scaling up is given up where it leaves the range, and a scaling down divides by what is at least
one, so that the exponent stays far below its end all along. A bound on the exponent is what each step keeps,
up to the few bits that its rounding may add.
-/
import Mathlib
import Mediation.Json.Numeral
import Mediation.Proofs.Price

namespace Mediation.Numeral

open Float.Model UnpackedFloat

/-! ## Bounds -/

/-- The number is zero, or finite with a mantissa of at most 53 bits and an exponent up to a bound. -/
inductive Bounded (k : Int) : UnpackedFloat → Prop
  | zero (s : Sign) : Bounded k (.zero s)
  | finite (s : Sign) {m : Nat} {e : Int} (hpos : 0 < m) : m < 2 ^ 53 → e ≤ k →
      Bounded k (.finite s m e hpos)

theorem Bounded.mono {k l : Int} {u : UnpackedFloat} (h : Bounded k u) (hkl : k ≤ l) : Bounded l u := by
  cases h with
  | zero s => exact .zero s
  | finite s hpos hm he => exact .finite s hpos hm (Int.le_trans he hkl)

theorem Bounded.isFinite {k : Int} {u : UnpackedFloat} (h : Bounded k u) : u.isFinite = true := by
  cases h <;> rfl

theorem Bounded.isNaN {k : Int} {u : UnpackedFloat} (h : Bounded k u) : u.isNaN = false := by
  cases h <;> rfl

theorem Bounded.neg {k : Int} {u : UnpackedFloat} (h : Bounded k u) : Bounded k u.neg := by
  cases h with
  | zero s => exact .zero _
  | finite s hpos hm he => exact .finite _ hpos hm he

/-- A number that is at least one as its parts show it: it has all its bits and the exponent of one. -/
inductive Large : UnpackedFloat → Prop
  | finite (s : Sign) {m : Nat} {e : Int} (hpos : 0 < m) : 2 ^ 52 ≤ m → -52 ≤ e → Large (.finite s m e hpos)

theorem Large.isFinite {u : UnpackedFloat} (h : Large u) : u.isFinite = true := by
  cases h
  rfl

/-! ## Rounding -/

theorem mantissa_shiftRight (k : Nat) (em : ExtendedMantissa) :
    (em >>> k).mantissa = em.mantissa / 2 ^ k := by
  induction k with
  | zero =>
    show em.mantissa = _
    rw [Nat.pow_zero, Nat.div_one]
  | succ k ih =>
    show (em >>> k).mantissa / 2 = _
    rw [ih, Nat.div_div_eq_div_mul, Nat.pow_succ]

theorem mantissa_ofMantissaAndAccuracy (m : Nat) (a : Accuracy) :
    (ExtendedMantissa.ofMantissaAndAccuracy m a).mantissa = m := by
  cases a with
  | exact => rfl
  | inexact o => cases o <;> rfl

theorem le_roundToNearestEven (m : Nat) (a : Accuracy) : m ≤ a.roundToNearestEven m := by
  cases a with
  | exact => exact Nat.le_refl m
  | inexact o => cases o <;> simp only [Accuracy.roundToNearestEven] <;> omega

theorem roundToNearestEven_le (m : Nat) (a : Accuracy) : a.roundToNearestEven m ≤ m + 1 := by
  cases a with
  | exact => exact Nat.le_succ m
  | inexact o => cases o <;> simp only [Accuracy.roundToNearestEven] <;> omega

theorem targetExponent_eq (t : Int) : Format.binary64.targetExponent t = max (t - 53) (-1074) := rfl

/-- How far a mantissa is shifted to have its place in the format. -/
def shift (m : Nat) (e : Int) : Nat := (Format.binary64.targetExponent (totalExponent m e) - e).toNat

theorem shift_eq (m : Nat) (e : Int) :
    (shift m e : Int) = max (max ((m.log2 : Int) - 52) (-1074 - e)) 0 := by
  unfold shift totalExponent
  rw [targetExponent_eq]
  omega

/-- A shifted mantissa has at most 53 bits. -/
theorem div_shift_lt (m : Nat) (e : Int) : m / 2 ^ shift m e < 2 ^ 53 := by
  have hshift := shift_eq m e
  rw [Nat.div_lt_iff_lt_mul (Nat.two_pow_pos _), ← Nat.pow_add]
  exact Nat.lt_of_lt_of_le Nat.lt_log2_self (Nat.pow_le_pow_right (by decide) (by omega))

theorem log2_lt_of_lt {m b : Nat} (h : m < 2 ^ b) (hb : 0 < b) : m.log2 < b := by
  by_cases hm : m = 0
  · subst hm
    exact hb
  · exact (Nat.log2_lt hm).2 h

theorem log2_mul_le (m n : Nat) : (m * n).log2 ≤ m.log2 + n.log2 + 1 := by
  have hlt : m * n < 2 ^ (m.log2 + 1) * 2 ^ (n.log2 + 1) :=
    Nat.mul_lt_mul'' Nat.lt_log2_self Nat.lt_log2_self
  rw [← Nat.pow_add] at hlt
  have := log2_lt_of_lt hlt (by omega)
  omega

/-- Rounding shifts a mantissa to its place, adds at most one to it, and shifts what that gives again. -/
theorem roundWithAccuracy_eq (s : Sign) (m : Nat) (e : Int) (a : Accuracy) :
    ∃ r, m / 2 ^ shift m e ≤ r ∧ r ≤ m / 2 ^ shift m e + 1 ∧ roundWithAccuracy .binary64 s m e a =
      if h : r / 2 ^ shift r (e + shift m e) = 0 then .zero s
      else .finite s (r / 2 ^ shift r (e + shift m e)) (e + shift m e + shift r (e + shift m e))
        (Nat.pos_of_ne_zero h) := by
  have hmantissa : (ExtendedMantissa.ofMantissaAndAccuracy m a >>> shift m e).mantissa =
      m / 2 ^ shift m e := by
    rw [mantissa_shiftRight, mantissa_ofMantissaAndAccuracy]
  refine ⟨(ExtendedMantissa.ofMantissaAndAccuracy m a >>> shift m e).roundedMantissa, ?_, ?_, ?_⟩
  · rw [← hmantissa]
    exact le_roundToNearestEven _ _
  · rw [← hmantissa]
    exact roundToNearestEven_le _ _
  · unfold roundWithAccuracy shiftToTargetExponent shiftToExponent
    dsimp only
    simp only [mantissa_shiftRight, mantissa_ofMantissaAndAccuracy]
    rfl

/-- What is rounded may take one more bit, so its exponent is at most one above the bound. -/
theorem bounded_roundWithAccuracy {k : Int} (s : Sign) {m : Nat} {e : Int} (a : Accuracy) (hk : -1074 ≤ k)
    (he : e ≤ k) (hm : m.log2 + e ≤ k + 52) : Bounded (k + 1) (roundWithAccuracy .binary64 s m e a) := by
  obtain ⟨r, -, hr, hround⟩ := roundWithAccuracy_eq s m e a
  have hlt := div_shift_lt m e
  have hfirst := shift_eq m e
  have hsecond := shift_eq r (e + shift m e)
  -- 53 bits are left, of which rounding up may make 54, so that the second shift is by at most one
  have hbits := log2_lt_of_lt (show r < 2 ^ 54 by omega) (by decide)
  rw [hround]
  split
  · exact .zero s
  · exact .finite s _ (div_shift_lt _ _) (by omega)

theorem le_div_shift {m : Nat} {e : Int} (hm : 2 ^ 52 ≤ m) (he : -1022 ≤ m.log2 + e) :
    2 ^ 52 ≤ m / 2 ^ shift m e := by
  have hne : m ≠ 0 := by omega
  have hlog : 52 ≤ m.log2 := (Nat.le_log2 hne).2 hm
  have hshift := shift_eq m e
  rw [Nat.le_div_iff_mul_le (Nat.two_pow_pos _), ← Nat.pow_add]
  exact Nat.le_trans (Nat.pow_le_pow_right (by decide) (by omega)) (Nat.log2_self_le hne)

theorem large_roundWithAccuracy (s : Sign) {m : Nat} {e : Int} (a : Accuracy) (hm : 2 ^ 52 ≤ m)
    (he : 0 ≤ m.log2 + e) : Large (roundWithAccuracy .binary64 s m e a) := by
  obtain ⟨r, hle, -, hround⟩ := roundWithAccuracy_eq s m e a
  have hr : 2 ^ 52 ≤ r := Nat.le_trans (le_div_shift hm (by omega)) hle
  have hlog : 52 ≤ r.log2 := (Nat.le_log2 (by omega)).2 hr
  have hshift := shift_eq m e
  have hagain : 2 ^ 52 ≤ r / 2 ^ shift r (e + shift m e) := le_div_shift hr (by omega)
  rw [hround, dif_neg (by omega)]
  exact .finite s _ hagain (by omega)

/-! ## Packing -/

/-- A bit pattern denotes a number that its exponent bounds. -/
theorem bounded_unpack {k : Int} {b : BitVec 64} (hlow : -1074 ≤ k) (hhigh : k ≤ 971)
    (hb : (@unpackExponent .binary64 b).toNat ≤ k + 1075) : Bounded k (.unpack .binary64 b) := by
  fun_cases UnpackedFloat.unpack with
  | case1 mantissa exponent _ _ hall | case2 mantissa exponent hall =>
    have htop : exponent.toNat = 2047 := congrArg BitVec.toNat hall
    have hle : exponent.toNat ≤ k + 1075 := hb
    omega
  | case3 => exact .zero _
  | case4 mantissa exponent e signVec sign hall hnone hsome =>
    have hlt : mantissa.toNat < 2 ^ 52 := mantissa.isLt
    have hexponent : exponent.toNat = 0 := congrArg BitVec.toNat hnone
    have he : e = (exponent.toNat : Int) - 1075 := rfl
    exact .finite sign _ (by omega) (by omega)
  | case5 mantissa exponent e signVec sign hall hnone =>
    have hle : exponent.toNat ≤ k + 1075 := hb
    have hlt : mantissa.toNat < 2 ^ 52 := mantissa.isLt
    have he : e = (exponent.toNat : Int) - 1075 := rfl
    have happend := Price.toNat_implicit_append mantissa
    exact .finite sign _ (by omega) (by omega)

theorem bounded_unpack_pack {k : Int} {u : UnpackedFloat} (h : Bounded k u) (hlow : -1074 ≤ k)
    (hhigh : k ≤ 971) : Bounded k (.unpack .binary64 (u.pack .binary64)) := by
  cases h with
  | zero s => cases s <;> exact Bounded.zero _
  | @finite s m e hpos hm he =>
    apply bounded_unpack hlow hhigh
    unfold UnpackedFloat.pack
    dsimp only
    have hbias : (Format.binary64.exponentBias : Int) = 1023 := rfl
    split
    · rename_i h
      have : 2 ^ 11 ≤ (e + 1023 + 52).toNat + 1 := h
      omega
    · split
      · rw [unpackExponent_packComponents, BitVec.toNat_ofNat, hbias]
        have : (e + 1023 + 52).toNat % 2 ^ 11 ≤ (e + 1023 + 52).toNat := Nat.mod_le _ _
        show ((((e + 1023 + 52).toNat % 2 ^ 11 : Nat)) : Int) ≤ _
        omega
      · rw [unpackExponent_packComponents]
        show ((0 : Nat) : Int) ≤ _
        omega

theorem large_unpack {b : BitVec 64} (hlow : 1023 ≤ (@unpackExponent .binary64 b).toNat)
    (hhigh : (@unpackExponent .binary64 b).toNat ≤ 2046) : Large (.unpack .binary64 b) := by
  fun_cases UnpackedFloat.unpack with
  | case1 mantissa exponent _ _ hall | case2 mantissa exponent hall =>
    have htop : exponent.toNat = 2047 := congrArg BitVec.toNat hall
    have hle : exponent.toNat ≤ 2046 := hhigh
    omega
  | case3 mantissa exponent _ _ _ hnone | case4 mantissa exponent _ _ _ _ hnone =>
    have hzero : exponent.toNat = 0 := congrArg BitVec.toNat hnone
    have hle : 1023 ≤ exponent.toNat := hlow
    omega
  | case5 mantissa exponent e signVec sign hall hnone =>
    have hle : 1023 ≤ exponent.toNat := hlow
    have he : e = (exponent.toNat : Int) - 1075 := rfl
    have happend := Price.toNat_implicit_append mantissa
    exact .finite sign _ (by omega) (by omega)

/-- What has all its bits and is not too large keeps its exponent. -/
theorem large_unpack_pack {u : UnpackedFloat} (h : Large u) (hb : Bounded 971 u) :
    Large (.unpack .binary64 (u.pack .binary64)) := by
  obtain ⟨s, hpos, hm, he⟩ := h
  rename_i m e
  cases hb with
  | finite _ _ hlt hle =>
    have hfull : m.log2 + 1 = Format.binary64.mantissaBits := by
      have := (Nat.le_log2 (by omega)).2 hm
      have := log2_lt_of_lt hlt (by decide)
      show m.log2 + 1 = 53
      omega
    have hexponent : (@unpackExponent .binary64 (UnpackedFloat.pack .binary64 (.finite s m e hpos))).toNat =
        (e + 1023 + 52).toNat % 2 ^ 11 := by
      have hfits : ¬ 2 ^ 11 ≤ (e + 1023 + 52).toNat + 1 := by omega
      unfold UnpackedFloat.pack
      dsimp only
      rw [if_pos hfull]
      refine (congrArg (BitVec.toNat ∘ unpackExponent) (if_neg hfits)).trans ?_
      show (unpackExponent _).toNat = _
      rw [unpackExponent_packComponents, BitVec.toNat_ofNat]
      rfl
    apply large_unpack <;> omega

/-- Packing makes an infinity of what is too large, and never something that is no number. -/
theorem isNaN_unpack_pack {k : Int} {u : UnpackedFloat} (h : Bounded k u) :
    (UnpackedFloat.unpack .binary64 (u.pack .binary64)).isNaN = false := by
  cases h with
  | zero s => cases s <;> rfl
  | @finite s m e hpos hm he =>
    by_cases hin : e ≤ 971
    · exact (bounded_unpack_pack (.finite s hpos hm hin) (by decide) (by decide)).isNaN
    · have hpack : UnpackedFloat.pack .binary64 (.finite s m e hpos) = packedInfinity .binary64 s := by
        unfold UnpackedFloat.pack
        dsimp only
        rw [if_pos]
        show 2 ^ 11 ≤ (e + 1023 + 52).toNat + 1
        omega
      rw [hpack]
      cases s <;> rfl

/-! ## Arithmetic -/

theorem bounded_mul_finite {k e e' : Int} {m m' : Nat} (s s' : Sign) (hpos : 0 < m) (hpos' : 0 < m')
    (hk : -1074 ≤ k) (he : e + e' ≤ k) (hm : m.log2 + m'.log2 + (e + e') ≤ k + 51) :
    Bounded (k + 1) (UnpackedFloat.mul .binary64 (.finite s m e hpos) (.finite s' m' e' hpos')) := by
  have hlog := log2_mul_le m m'
  exact bounded_roundWithAccuracy (s * s') .exact hk he (by omega)

theorem bounded_mul {k l : Int} {u v : UnpackedFloat} (hu : Bounded k u) (hv : Bounded l v)
    (hkl : -1127 ≤ k + l) : Bounded (k + l + 54) (u.mul .binary64 v) := by
  cases hu with
  | zero s => cases hv <;> exact Bounded.zero _
  | finite s hpos hm he =>
    cases hv with
    | zero s' => exact Bounded.zero _
    | finite s' hpos' hm' he' =>
      have hlt := log2_lt_of_lt hm (by decide)
      have hlt' := log2_lt_of_lt hm' (by decide)
      refine (bounded_mul_finite (k := k + l + 53) s s' hpos hpos' ?_ ?_ ?_).mono ?_ <;> omega

/-- Dividing by what is at least one leaves little more than there was. -/
theorem bounded_div {k : Int} {u v : UnpackedFloat} (hu : Bounded k u) (hv : Large v) (hk : -1074 ≤ k) :
    Bounded (k + 53) (u.div .binary64 v) := by
  obtain ⟨s', hpos', -, he'⟩ := hv
  rename_i m' e'
  cases hu with
  | zero s => exact Bounded.zero _
  | @finite s m e hpos hm he =>
    show Bounded _ (roundWithAccuracy _ _ (divCore _ m e m' e').1 (divCore _ m e m' e').2.1 _)
    -- the dividend is shifted as far as its exponent is lowered, and the quotient is not larger than it
    obtain ⟨shift, hle, hlog⟩ : ∃ q : Nat, (divCore .binary64 m e m' e').2.1 + q = e - e' ∧
        (divCore .binary64 m e m' e').1 = m <<< q / m' := by
      unfold divCore
      dsimp only
      refine ⟨_, ?_, rfl⟩
      omega
    have hquotient : (m <<< shift / m').log2 < 53 + shift :=
      log2_lt_of_lt (Nat.lt_of_le_of_lt (Nat.div_le_self _ _) (Nat.shiftLeft_lt hm)) (by omega)
    rw [← hlog] at hquotient
    have hround := bounded_roundWithAccuracy (s / s') (divCore .binary64 m e m' e').2.2
      (show -1074 ≤ k + 52 by omega) (show (divCore .binary64 m e m' e').2.1 ≤ k + 52 by omega)
      (show (divCore .binary64 m e m' e').1.log2 + (divCore .binary64 m e m' e').2.1 ≤ _ by omega)
    exact hround.mono (by omega)

/-! ## Numbers as texts denote them -/

theorem bounded_of_isFinite {x : Float} (h : x.isFinite) : Bounded 971 x.toModel.unpack := by
  apply bounded_unpack (by decide) (by decide)
  have hlt : (@unpackExponent .binary64 x.toModel.toBits.toBitVec).toNat < 2 ^ 11 := BitVec.isLt _
  by_cases htop : @unpackExponent .binary64 x.toModel.toBits.toBitVec = -1#11
  · -- such a pattern denotes an infinity or no number
    have hnot : (UnpackedFloat.unpack .binary64 x.toModel.toBits.toBitVec).isFinite = false := by
      unfold UnpackedFloat.unpack
      dsimp only
      rw [if_pos htop]
      split <;> rfl
    exact absurd (hnot.symm.trans h) (by decide)
  · have hne : (@unpackExponent .binary64 x.toModel.toBits.toBitVec).toNat ≠ 2047 :=
      fun h => htop (BitVec.eq_of_toNat_eq h)
    omega

theorem isNaN_of_isFinite {x : Float} (h : x.isFinite) : x.isNaN = false := (bounded_of_isFinite h).isNaN

theorem isFinite_mul {x y : Float} (hx : x.isFinite) (hy : y.isFinite) (hxy : ¬ (x * y).isInf) :
    (x * y).isFinite := by
  have hmul := isNaN_unpack_pack (bounded_mul (bounded_of_isFinite hx) (bounded_of_isFinite hy) (by decide))
  change ¬ (x * y).toModel.unpack.isInf = true at hxy
  change (x * y).toModel.unpack.isNaN = false at hmul
  show (x * y).toModel.unpack.isFinite = true
  generalize (x * y).toModel.unpack = u at hxy hmul
  cases u with
  | infinity => exact absurd rfl hxy
  | notANumber => cases hmul
  | zero | finite => rfl

theorem bounded_round (s : Sign) {n : Nat} (hn : n < UInt64.size) : Bounded 12 (round .binary64 s n 0) := by
  unfold UnpackedFloat.round decreaseExponent
  dsimp only
  generalize (0 - Format.binary64.targetExponent (totalExponent n 0)).toNat = shift
  have hlog : (n <<< shift).log2 < 64 + shift := log2_lt_of_lt (Nat.shiftLeft_lt hn) (by omega)
  exact bounded_roundWithAccuracy (k := 11) s .exact (by decide) (by omega) (by omega)

theorem bounded_toFloat (n : UInt64) : Bounded 12 n.toFloat.toModel.unpack := by
  apply bounded_unpack_pack _ (by decide) (by decide)
  show Bounded _ (UnpackedFloat.normalize .binary64 (n.toNat : Int) 0 .positive)
  unfold UnpackedFloat.normalize
  split
  · rename_i h
    rw [Int.compare_eq_lt] at h
    omega
  · exact .zero _
  · exact bounded_round _ n.toNat_lt

/-- The exponent that the bit pattern of a power of ten shows, for those that are stored and for the last. -/
theorem exponent_powerOfTen : ∀ n ∈ 308 :: List.range 23,
    1023 ≤ (@unpackExponent .binary64 (powerOfTen n).toModel.toBits.toBitVec).toNat ∧
      (@unpackExponent .binary64 (powerOfTen n).toModel.toBits.toBitVec).toNat ≤ 2046 := by
  decide +kernel

theorem large_powerOfTen {n : Nat} (hn : n ≤ 308) : Large (powerOfTen n).toModel.unpack := by
  by_cases hstored : n ∈ 308 :: List.range 23
  · obtain ⟨hlow, hhigh⟩ := exponent_powerOfTen n hstored
    exact large_unpack hlow hhigh
  · rw [List.mem_cons, List.mem_range, not_or] at hstored
    have hten : 0 < 10 ^ n := Nat.pow_pos (by decide)
    have hlog : (10 ^ n).log2 < 1020 :=
      log2_lt_of_lt (Nat.lt_of_le_of_lt (Nat.pow_le_pow_right (by decide) (show n ≤ 307 by omega))
        (by decide +kernel)) (by decide)
    have hlarge : 2 ^ 53 ≤ 2 ^ 53 * 10 ^ n := Nat.le_mul_of_pos_right _ hten
    have hlow := (Nat.le_log2 (by omega)).2 hlarge
    -- others are a product of whole numbers, which is rounded once
    have hrounded : UnpackedFloat.ofScientific .binary64 1 n =
        .mul .binary64 (.finite .positive (2 ^ 53) (-53) (Nat.two_pow_pos _))
          (.finite .positive (10 ^ n) 0 hten) := by
      unfold UnpackedFloat.ofScientific
      have hbelow : ¬ (n : Int) > 2 ^ 11 := by omega
      have habove : ¬ (n : Int) < -(2 ^ 11 + (Nat.log2 1 : Nat)) := by omega
      rw [dif_neg (by decide), if_neg hbelow, if_neg habove, if_pos (by omega)]
      rfl
    have hunpack : (powerOfTen n).toModel = .pack (UnpackedFloat.ofScientific .binary64 1 n) := by
      show (Float.ofScientific 1 false n).toModel = _
      unfold Float.ofScientific
      rw [dif_neg (by omega)]
      rfl
    rw [hunpack, hrounded]
    refine large_unpack_pack ?_ ?_
    · exact large_roundWithAccuracy _ .exact (by omega) (by omega)
    · exact bounded_mul_finite (k := 970) _ _ _ _ (by decide) (by decide)
        (by rw [Nat.log2_two_pow]; omega)

theorem bounded_scaleDown {k : Int} {x : Float} {steps n : Nat} (hx : Bounded k x.toModel.unpack)
    (hn : n ≤ 308 * (steps + 1)) (hlow : -1074 ≤ k) (hhigh : k + 53 * (steps + 1) ≤ 971) :
    Bounded (k + 53 * (steps + 1)) (scaleDown x steps n).toModel.unpack := by
  -- each division adds its 53 to the bound that the next one starts from
  induction steps generalizing k x n with
  | zero =>
    have hdiv := bounded_div hx (large_powerOfTen (n := n) (by omega)) hlow
    exact bounded_unpack_pack hdiv (by omega) (by omega)
  | succ steps ih =>
    unfold scaleDown
    split
    · rename_i hle
      have hdiv := bounded_div hx (large_powerOfTen (n := n) (by omega)) hlow
      exact (bounded_unpack_pack hdiv (by omega) (by omega)).mono (by omega)
    · have hdiv := bounded_div hx (large_powerOfTen (n := 308) (by decide)) hlow
      have hrest := ih (x := x / powerOfTen 308) (n := n - 308)
        (bounded_unpack_pack hdiv (by omega) (by omega)) (by omega) (by omega) (by omega)
      exact hrest.mono (by omega)

theorem isFinite_scale {significand : Nat} {exponent : Int} {x : Float}
    (h : scale significand exponent = some x) : x.isFinite = true := by
  have hstart := bounded_toFloat significand.toUInt64
  unfold scale at h
  dsimp only at h
  split at h
  · split at h
    · split at h
      · cases h
      · rename_i hexp hinf
        obtain rfl := Option.some.inj h
        refine isFinite_mul hstart.isFinite ?_ hinf
        exact (large_powerOfTen (n := exponent.toNat) (by omega)).isFinite
    · split at h
      · obtain rfl := Option.some.inj h
        exact hstart.isFinite
      · cases h
  · split at h
    · obtain rfl := Option.some.inj h
      exact hstart.isFinite
    · split at h
      · obtain rfl := Option.some.inj h
        rfl
      · obtain rfl := Option.some.inj h
        exact (bounded_scaleDown hstart (by omega) (by decide) (by decide)).isFinite

theorem isFinite_neg {x : Float} (h : x.isFinite) : (-x).isFinite = true :=
  (bounded_unpack_pack (bounded_of_isFinite h).neg (by decide) (by decide)).isFinite

/-- A number that a text denotes is finite. -/
theorem isFinite_of_float? {n : Numeral} {x : Float} (h : n.float? = some x) : x.isFinite = true := by
  unfold float? at h
  dsimp only at h
  obtain ⟨y, hy, rfl⟩ := Option.map_eq_some_iff.1 h
  split
  · exact isFinite_neg (isFinite_scale hy)
  · exact isFinite_scale hy

theorem bounded_one : Bounded (-52) Float.exactlyRepresentablePowersOfTen[0].toModel.unpack :=
  bounded_unpack (by decide) (by decide) (by decide +kernel)

/-- A whole number of 64 bits is finite as a binary64 number. -/
theorem isFinite_ofNat {n : Nat} (h : n < UInt64.size) : (Float.ofNat n).isFinite = true := by
  show (Float.ofScientific n false 0).isFinite = true
  unfold Float.ofScientific
  split
  · have hmul := bounded_mul (bounded_toFloat n.toUInt64) bounded_one (by decide)
    exact (bounded_unpack_pack hmul (by decide) (by decide)).isFinite
  · rename_i hlarge
    have hne : n ≠ 0 := by
      rintro rfl
      exact hlarge (by decide)
    -- the number is multiplied by the zeroth power of ten, which takes one rounding
    have hround : Bounded 13 (UnpackedFloat.ofScientific .binary64 n 0) := by
      have hrange : ¬ (0 : Int) < -(2 ^ 11 + n.log2) := by omega
      unfold UnpackedFloat.ofScientific
      rw [dif_neg hne, if_neg (by decide), if_neg hrange, if_pos (by decide)]
      have hlog : (n <<< Format.binary64.mantissaBits).log2 < 64 + 53 :=
        log2_lt_of_lt (Nat.shiftLeft_lt h) (by decide)
      exact bounded_mul_finite (k := 12) _ _ _ _ (by decide) (by decide)
        (show ((n <<< Format.binary64.mantissaBits).log2 : Int) + (0 : Nat) + (-53 + 0) ≤ _ by omega)
    exact (bounded_unpack_pack hround (by decide) (by decide)).isFinite

theorem isFinite_ofInt {n : Int} (hlow : Int64.minValue.toInt ≤ n) (hhigh : n < UInt64.size) :
    (Float.ofInt n).isFinite = true := by
  unfold Float.ofInt
  split
  · exact isFinite_ofNat (Int.ofNat_lt.1 hhigh)
  · have hmin : Int64.minValue.toInt = -2 ^ 63 := rfl
    exact isFinite_neg (isFinite_ofNat (by unfold UInt64.size; omega))

end Mediation.Numeral
