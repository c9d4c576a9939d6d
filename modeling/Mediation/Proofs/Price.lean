/-
How prices lie on the line. The numeric order of two binary64 numbers is that of their levels: a level is
the magnitude of the bit pattern, counted down for a negative number, so that it runs through the total
order of ranks and only puts the two zeros in one place. So what is ranked by the total order is in
numeric order as well, and the numerically highest of some prices is theirs in any order.
-/
import Mathlib
import Mediation.Price

namespace Mediation.Price

open Float.Model UnpackedFloat

/-! ## Places on the line -/

/-- Place of a number on the line, where both zeros have one place. -/
def level (x : Price) : Int := if rank x < 0 then rank x + 1 else rank x

/-- Places from one power of two to the next. -/
def binade : Int := 0x10000000000000

/-- The place of a number by its parts: zero in the middle, then for each exponent one place for each
mantissa, and the infinities at the ends. -/
inductive HasPlace : UnpackedFloat → Int → Prop
  | zero (s : Sign) : HasPlace (.zero s) 0
  | infinity (s : Sign) : HasPlace (.infinity s) (s.apply (2047 * binade))
  | finite (s : Sign) {m : Nat} {e k : Int} (hpos : 0 < m) : (m : Int) < 2 * binade →
      e = -1074 ∨ binade ≤ m → -1074 ≤ e → e ≤ 971 → k = m + (e + 1074) * binade →
      HasPlace (.finite s m e hpos) (s.apply k)

/-- Magnitudes compare by exponent first, then by mantissa, for a mantissa never fills more than its
share of the line. -/
theorem compare_magnitudes {m₁ m₂ : Nat} {e₁ e₂ : Int} (h₁ : (m₁ : Int) < 2 * binade)
    (h₂ : (m₂ : Int) < 2 * binade) (hn₁ : e₁ = -1074 ∨ binade ≤ m₁) (hn₂ : e₂ = -1074 ∨ binade ≤ m₂)
    (hl₁ : -1074 ≤ e₁) (hl₂ : -1074 ≤ e₂) :
    (compare e₁ e₂).then (compare m₁ m₂) =
      compare (m₁ + (e₁ + 1074) * binade) (m₂ + (e₂ + 1074) * binade) := by
  unfold binade at *
  rcases Int.lt_trichotomy e₁ e₂ with h | rfl | h
  · rw [Int.compare_eq_lt.2 h, Int.compare_eq_lt.2 (by omega)]
    rfl
  · rcases Nat.lt_trichotomy m₁ m₂ with hm | rfl | hm
    · rw [Int.compare_eq_lt.2 (show (m₁ : Int) + _ < _ by omega), Nat.compare_eq_lt.2 hm,
        Int.compare_eq_eq.2 rfl]
      rfl
    · rw [Int.compare_eq_eq.2 rfl, Nat.compare_eq_eq.2 rfl, Int.compare_eq_eq.2 rfl]
      rfl
    · rw [Int.compare_eq_gt.2 (show _ < (m₁ : Int) + _ by omega), Nat.compare_eq_gt.2 hm,
        Int.compare_eq_eq.2 rfl]
      rfl
  · rw [Int.compare_eq_gt.2 h, Int.compare_eq_gt.2 (by omega)]
    rfl

theorem magnitude_bounds {m : Nat} {e : Int} (hpos : 0 < m) (hm : (m : Int) < 2 * binade)
    (hl : -1074 ≤ e) (hu : e ≤ 971) :
    0 < m + (e + 1074) * binade ∧ m + (e + 1074) * binade < 2047 * binade := by
  unfold binade at *
  omega

theorem some_lt {i j : Int} (h : i < j) : some Ordering.lt = some (compare i j) :=
  congrArg some (Int.compare_eq_lt.2 h).symm

theorem some_gt {i j : Int} (h : j < i) : some Ordering.gt = some (compare i j) :=
  congrArg some (Int.compare_eq_gt.2 h).symm

theorem compare_neg (i j : Int) : compare (-i) (-j) = (compare i j).swap := by
  rcases Int.lt_trichotomy i j with h | rfl | h
  · rw [Int.compare_eq_lt.2 h, Int.compare_eq_gt.2 (Int.neg_lt_neg h)]
    rfl
  · rw [Int.compare_eq_eq.2 rfl, Int.compare_eq_eq.2 rfl]
    rfl
  · rw [Int.compare_eq_gt.2 h, Int.compare_eq_lt.2 (Int.neg_lt_neg h)]
    rfl

theorem compare_eq_of_hasPlace {a b : UnpackedFloat} {i j : Int} (ha : HasPlace a i) (hb : HasPlace b j) :
    a.compare b = some (compare i j) := by
  -- a finite number lies between zero and an infinity, so that only two of one sign take more than that
  cases ha with
  | zero s =>
    cases hb with
    | zero s' => rfl
    | infinity s' => cases s' <;> rfl
    | finite s' hpos hm hn hl hu hk =>
      subst hk
      have hk := magnitude_bounds hpos hm hl hu
      cases s' with
      | negative => exact some_gt (by dsimp only [Sign.apply]; omega)
      | positive => exact some_lt hk.1
  | infinity s =>
    cases hb with
    | zero s' => cases s <;> rfl
    | infinity s' => cases s <;> cases s' <;> rfl
    | finite s' hpos hm hn hl hu hk =>
      subst hk
      have hk := magnitude_bounds hpos hm hl hu
      cases s with
      | negative => exact some_lt (by cases s' <;> dsimp only [Sign.apply] <;> omega)
      | positive => exact some_gt (by cases s' <;> dsimp only [Sign.apply] <;> omega)
  | finite s hpos hm hn hl hu hk =>
    subst hk
    have hk := magnitude_bounds hpos hm hl hu
    cases hb with
    | zero s' =>
      cases s with
      | negative => exact some_lt (by dsimp only [Sign.apply]; omega)
      | positive => exact some_gt hk.1
    | infinity s' =>
      cases s' with
      | negative => exact some_gt (by cases s <;> dsimp only [Sign.apply] <;> omega)
      | positive => exact some_lt (by cases s <;> dsimp only [Sign.apply] <;> omega)
    | finite s' hpos' hm' hn' hl' hu' hk' =>
      subst hk'
      have hk' := magnitude_bounds hpos' hm' hl' hu'
      cases s with
      | negative =>
        cases s' with
        | negative =>
          show some _ = some (compare (-_) (-_))
          rw [compare_neg, compare_magnitudes hm hm' hn hn' hl hl']
        | positive => exact some_lt (by dsimp only [Sign.apply]; omega)
      | positive =>
        cases s' with
        | negative => exact some_gt (by dsimp only [Sign.apply]; omega)
        | positive => exact congrArg some (compare_magnitudes hm hm' hn hn' hl hl')

/-! ## Bit patterns -/

theorem toNat_sign (b : BitVec 64) :
    (@unpackSign .binary64 b).toNat = b.toNat / 0x8000000000000000 % 2 := by
  unfold unpackSign
  rw [BitVec.toNat_cast, BitVec.extractLsb_toNat, Nat.shiftRight_eq_div_pow]
  rfl

theorem toNat_exponent (b : BitVec 64) :
    (@unpackExponent .binary64 b).toNat = b.toNat / 0x10000000000000 % 2048 := by
  unfold unpackExponent
  rw [BitVec.toNat_cast, BitVec.extractLsb_toNat, Nat.shiftRight_eq_div_pow]
  rfl

theorem toNat_mantissa (b : BitVec 64) :
    (@unpackMantissa .binary64 b).toNat = b.toNat % 0x10000000000000 := by
  unfold unpackMantissa
  rw [BitVec.toNat_cast, BitVec.extractLsb_toNat, Nat.shiftRight_zero]
  rfl

/-- The sign of a bit pattern is negative from the sign bit on. -/
theorem ofBitVec_unpackSign (b : BitVec 64) : Sign.ofBitVec (@unpackSign .binary64 b) =
    if b.toNat < signBit then .positive else .negative := by
  have hb := b.isLt
  have hs := toNat_sign b
  unfold signBit
  by_cases h : b.toNat < 0x8000000000000000
  · have hzero : @unpackSign .binary64 b = 0#1 := by
      apply BitVec.eq_of_toNat_eq
      rw [hs, BitVec.toNat_ofNat]
      omega
    rw [if_pos h, hzero]
    rfl
  · have hone : @unpackSign .binary64 b = 1#1 := by
      apply BitVec.eq_of_toNat_eq
      rw [hs, BitVec.toNat_ofNat]
      omega
    rw [if_neg h, hone]
    rfl

theorem toNat_implicit_append (v : BitVec 52) : (1#1 ++ v).toNat = 0x10000000000000 + v.toNat := by
  rw [BitVec.toNat_append, ← Nat.shiftLeft_add_eq_or_of_lt v.isLt]
  rfl

theorem level_eq (x : Price) : level x =
    (Sign.ofBitVec (@unpackSign .binary64 x.bits.toBitVec)).apply (x.bits.toNat % signBit : Nat) := by
  have hx : x.bits.toNat < 2 * signBit := x.bits.toBitVec.isLt
  rw [ofBitVec_unpackSign]
  show _ = (if x.bits.toNat < signBit then _ else _ : Sign).apply _
  unfold level rank
  dsimp only
  generalize x.bits.toNat = n at *
  by_cases h : n < signBit
  · rw [if_pos h, if_pos h, if_neg (by omega), Nat.mod_eq_of_lt h]
    rfl
  · rw [if_neg h, if_neg h, if_pos (by omega)]
    show _ = -((n % signBit : Nat) : Int)
    rw [Nat.mod_eq_sub_mod (by omega), Nat.mod_eq_of_lt (by omega)]
    omega

theorem toNat_fields (b : BitVec 64) : ((b.toNat % signBit : Nat) : Int) =
    (@unpackMantissa .binary64 b).toNat +
      (@unpackExponent .binary64 b).toNat * binade := by
  rw [toNat_mantissa, toNat_exponent]
  unfold signBit binade
  omega

theorem hasPlace_unpack (b : BitVec 64) (h : (UnpackedFloat.unpack .binary64 b).isNaN = false) :
    HasPlace (UnpackedFloat.unpack .binary64 b)
      ((Sign.ofBitVec (@unpackSign .binary64 b)).apply (b.toNat % signBit : Nat)) := by
  rw [toNat_fields]
  revert h
  fun_cases UnpackedFloat.unpack with
  | case1 mantissa exponent signVec sign hall hnone =>
    intro _
    show HasPlace _ (sign.apply (mantissa.toNat + exponent.toNat * binade))
    rw [hall, hnone, BitVec.toNat_zero, Int.natCast_zero, Int.zero_add]
    exact .infinity sign
  | case2 =>
    intro h
    cases h
  | case3 mantissa exponent signVec sign hall hnone hzero =>
    intro _
    show HasPlace _ (sign.apply (mantissa.toNat + exponent.toNat * binade))
    rw [hnone, hzero, BitVec.toNat_zero, BitVec.toNat_zero]
    cases sign <;> exact .zero _
  | case4 mantissa exponent e signVec sign hall hnone hsome =>
    -- below the first power of two the mantissa is all there is
    intro _
    show HasPlace _ (sign.apply (mantissa.toNat + exponent.toNat * binade))
    have hpos : 0 < mantissa.toNat := Nat.pos_of_ne_zero fun h => hsome (BitVec.eq_of_toNat_eq h)
    have hlt : mantissa.toNat < 0x10000000000000 := mantissa.isLt
    have hexponent : exponent.toNat = 0 := congrArg BitVec.toNat hnone
    have he : e = (exponent.toNat : Int) - 1075 := rfl
    refine .finite sign hpos ?_ (.inl (by omega)) (by omega) (by omega) ?_ <;> unfold binade <;> omega
  | case5 mantissa exponent e signVec sign hall hnone =>
    -- elsewhere its leading one stands for the step to the exponent
    intro _
    show HasPlace _ (sign.apply (mantissa.toNat + exponent.toNat * binade))
    have hpos : exponent.toNat ≠ 0 := fun h => hnone (BitVec.eq_of_toNat_eq h)
    have htop : exponent.toNat ≠ 2047 := fun h => hall (BitVec.eq_of_toNat_eq h)
    have hlt : mantissa.toNat < 0x10000000000000 := mantissa.isLt
    have hle : exponent.toNat < 2048 := exponent.isLt
    have he : e = (exponent.toNat : Int) - 1075 := rfl
    have happend := toNat_implicit_append mantissa
    refine .finite sign _ ?_ (.inr ?_) (by omega) (by omega) ?_ <;> unfold binade <;> omega

/-! ## Numeric order -/

/-- What a bit pattern says: a number by its parts, or none. -/
def parts (x : Price) : UnpackedFloat := .unpack .binary64 x.bits.toBitVec

theorem toFloat_ofFloat (x : Float) : (ofFloat x).toFloat = x := Float.ofBits_toBits x

theorem isFinite_ofFloat (x : Float) : (ofFloat x).isFinite = x.isFinite := by
  unfold isFinite
  rw [toFloat_ofFloat]

/-- Of the patterns that stand for no number only one is left in the number that a price is; the parts
are none before and after. -/
theorem unpack_toFloat (x : Price) : x.toFloat.toModel.unpack = x.parts := by
  show UnpackedFloat.unpack .binary64 (UnpackedFloat.pack .binary64 x.parts) = x.parts
  unfold parts
  rw [pack_unpack]
  split
  · rename_i h
    obtain ⟨hall, hsome⟩ := of_decide_eq_true h
    rw [unpack_packedNaN, UnpackedFloat.unpack, if_pos hall, if_neg hsome]
  · rfl

/-- A number is given back with the very pattern it had. -/
theorem ofFloat_toFloat {x : Price} (h : x.isNaN = false) : ofFloat x.toFloat = x := by
  change x.toFloat.toModel.unpack.isNaN = false at h
  rw [unpack_toFloat] at h
  have hbits : x.toFloat.toBits = x.bits := by
    show UInt64.ofBitVec (UnpackedFloat.pack .binary64 (.unpack .binary64 x.bits.toBitVec)) = x.bits
    rw [pack_unpack, if_neg fun hn => ?_]
    obtain ⟨hall, hsome⟩ := of_decide_eq_true hn
    rw [parts, UnpackedFloat.unpack, if_pos hall, if_neg hsome] at h
    cases h
  exact congrArg Price.mk hbits

/-- Two numbers compare as their levels do. -/
theorem compare_parts {x y : Price} (hx : x.isNaN = false) (hy : y.isNaN = false) :
    x.parts.compare y.parts = some (compare (level x) (level y)) := by
  change x.toFloat.toModel.unpack.isNaN = false at hx
  change y.toFloat.toModel.unpack.isNaN = false at hy
  rw [unpack_toFloat] at hx hy
  rw [level_eq, level_eq]
  exact compare_eq_of_hasPlace (hasPlace_unpack _ hx) (hasPlace_unpack _ hy)

theorem compare_eq_none_of_isNaN {a b : UnpackedFloat} (h : a.isNaN ∨ b.isNaN) :
    a.compare b = none := by
  rcases h with h | h
  · cases a <;> first | rfl | cases h
  · cases b <;> cases h
    cases a <;> rfl

section

variable {x y : Price}

theorem compare_parts_of_isNaN (h : x.isNaN ∨ y.isNaN) : x.parts.compare y.parts = none := by
  rw [← unpack_toFloat, ← unpack_toFloat]
  exact compare_eq_none_of_isNaN h

theorem lt_iff_compare : x < y ↔ x.parts.compare y.parts = some .lt := by
  rw [← unpack_toFloat, ← unpack_toFloat]
  show decide ((_ == some Ordering.lt) = true) = true ↔ _
  rw [decide_eq_true_iff, beq_iff_eq]

theorem le_iff_compare : x ≤ y ↔ (x.parts.compare y.parts).any (·.isLE) = true := by
  rw [← unpack_toFloat, ← unpack_toFloat]
  show decide ((UnpackedFloat.compare _ _).any (·.isLE) = true) = true ↔ _
  rw [decide_eq_true_iff]

theorem lt_iff_level (hx : x.isNaN = false) (hy : y.isNaN = false) : x < y ↔ level x < level y := by
  rw [lt_iff_compare, compare_parts hx hy, Option.some.injEq, Int.compare_eq_lt]

theorem le_iff_level (hx : x.isNaN = false) (hy : y.isNaN = false) : x ≤ y ↔ level x ≤ level y := by
  rw [le_iff_compare, compare_parts hx hy, Option.any_some, Int.isLE_compare]

theorem beq_iff_level (hx : x.isNaN = false) (hy : y.isNaN = false) : x == y ↔ level x = level y := by
  show (x.toFloat.toModel.unpack.compare y.toFloat.toModel.unpack == some .eq) = true ↔ _
  rw [unpack_toFloat, unpack_toFloat, compare_parts hx hy, beq_iff_eq, Option.some.injEq, Int.compare_eq_eq]

/-- What compares at all is a number. -/
theorem isNaN_eq_false_of_lt (h : x < y) : x.isNaN = false ∧ y.isNaN = false := by
  rw [← Bool.not_eq_true, ← Bool.not_eq_true, ← not_or]
  intro hn
  rw [lt_iff_compare, compare_parts_of_isNaN hn] at h
  cases h

theorem isNaN_eq_false_of_le (h : x ≤ y) : x.isNaN = false ∧ y.isNaN = false := by
  rw [← Bool.not_eq_true, ← Bool.not_eq_true, ← not_or]
  intro hn
  rw [le_iff_compare, compare_parts_of_isNaN hn] at h
  cases h

theorem le_refl_of_isNaN_eq_false (hx : x.isNaN = false) : x ≤ x := (le_iff_level hx hx).2 (Int.le_refl _)

theorem le_trans {z : Price} (h₁ : x ≤ y) (h₂ : y ≤ z) : x ≤ z := by
  obtain ⟨hx, hy⟩ := isNaN_eq_false_of_le h₁
  obtain ⟨-, hz⟩ := isNaN_eq_false_of_le h₂
  exact (le_iff_level hx hz).2 (Int.le_trans ((le_iff_level hx hy).1 h₁) ((le_iff_level hy hz).1 h₂))

theorem lt_of_le_of_lt {z : Price} (h₁ : x ≤ y) (h₂ : y < z) : x < z := by
  obtain ⟨hx, hy⟩ := isNaN_eq_false_of_le h₁
  obtain ⟨-, hz⟩ := isNaN_eq_false_of_lt h₂
  exact (lt_iff_level hx hz).2 (Int.lt_of_le_of_lt ((le_iff_level hx hy).1 h₁) ((lt_iff_level hy hz).1 h₂))

theorem le_of_lt (h : x < y) : x ≤ y := by
  obtain ⟨hx, hy⟩ := isNaN_eq_false_of_lt h
  exact (le_iff_level hx hy).2 (Int.le_of_lt ((lt_iff_level hx hy).1 h))

theorem le_of_not_lt (hx : x.isNaN = false) (hy : y.isNaN = false) (h : ¬ x < y) : y ≤ x := by
  rw [lt_iff_level hx hy, Int.not_lt] at h
  exact (le_iff_level hy hx).2 h

theorem not_lt_of_le (h : y ≤ x) : ¬ x < y := by
  obtain ⟨hy, hx⟩ := isNaN_eq_false_of_le h
  rw [lt_iff_level hx hy, Int.not_lt]
  exact (le_iff_level hy hx).1 h

/-! ## Total order -/

/-- The total order refines the numeric one. -/
theorem le_of_rank_le (hx : x.isNaN = false) (hy : y.isNaN = false) (h : rank x ≤ rank y) : x ≤ y := by
  rw [le_iff_level hx hy]
  unfold level
  split <;> split <;> omega

end

/-! ## Highest prices -/

/-- The highest of some prices: it is one of them, and at least every one of them that is a number. -/
structure IsHighest (P : Price → Prop) (x : Price) : Prop where
  mem : P x
  ge : ∀ p, P p → p.isNaN = false → p ≤ x

section

variable {P Q : Price → Prop} {a b : Price}

/-- The highest price is a number unless none of the prices is one. -/
theorem IsHighest.isNaN_eq_true (h : IsHighest P a) (ha : a.isNaN = true) {p : Price} (hp : P p) :
    p.isNaN = true := by
  rcases hn : p.isNaN with _ | _
  · have hle := h.ge p hp hn
    rw [(isNaN_eq_false_of_le hle).2] at ha
    cases ha
  · rfl

/-- There is one highest price, up to the sign of a zero. -/
theorem IsHighest.unique (ha : IsHighest P a) (hb : IsHighest P b) :
    a == b ∨ (a.isNaN = true ∧ b.isNaN = true) := by
  by_cases hn : a.isNaN = true
  · exact .inr ⟨hn, ha.isNaN_eq_true hn hb.mem⟩
  · have hna : a.isNaN = false := Bool.eq_false_iff.2 hn
    have hab := hb.ge a ha.mem hna
    obtain ⟨-, hnb⟩ := isNaN_eq_false_of_le hab
    have hba := ha.ge b hb.mem hnb
    rw [le_iff_level hna hnb] at hab
    rw [le_iff_level hnb hna] at hba
    exact .inl ((beq_iff_level hna hnb).2 (Int.le_antisymm hab hba))

/-- Where every price that is a number is reached by some price of another kind, so is the highest one. -/
theorem IsHighest.le (ha : IsHighest P a) (hb : IsHighest Q b) (hnum : a.isNaN = false)
    (h : ∀ p, P p → p.isNaN = false → ∃ q, Q q ∧ p ≤ q) : a ≤ b := by
  obtain ⟨q, hq, hle⟩ := h a ha.mem hnum
  exact le_trans hle (hb.ge q hq (isNaN_eq_false_of_le hle).2)

theorem IsHighest.congr (h : IsHighest P a) (hPQ : ∀ p, P p ↔ Q p) : IsHighest Q a :=
  ⟨(hPQ a).1 h.mem, fun p hp hn => h.ge p ((hPQ p).2 hp) hn⟩

theorem isHighest_eq (a : Price) : IsHighest (· = a) a := by
  refine ⟨rfl, ?_⟩
  rintro p rfl hn
  exact le_refl_of_isNaN_eq_false hn

theorem IsHighest.highest (ha : IsHighest P a) (hb : IsHighest Q b) :
    IsHighest (fun p => P p ∨ Q p) (highest a b) := by
  unfold Price.highest
  split
  · -- the first one is taken: the second is no number, or below it
    rename_i h
    refine ⟨.inl ha.mem, fun p hp hn => hp.elim (fun hp => ha.ge p hp hn) fun hp => ?_⟩
    -- a number among the second prices keeps their highest from being none, so it is below the first
    have hpb := hb.ge p hp hn
    have hba : b < a := h.resolve_left (by rw [(isNaN_eq_false_of_le hpb).2]; exact Bool.false_ne_true)
    exact le_trans hpb (le_of_lt hba)
  · rename_i h
    obtain ⟨hnb, hba⟩ := not_or.1 h
    refine ⟨.inr hb.mem, fun p hp hn => hp.elim (fun hp => ?_) fun hp => hb.ge p hp hn⟩
    have hpa := ha.ge p hp hn
    exact le_trans hpa (le_of_not_lt (Bool.eq_false_iff.2 hnb) (isNaN_eq_false_of_le hpa).2 hba)

theorem IsHighest.highestOf (ha : IsHighest P a) (ps : List Price) :
    IsHighest (fun p => P p ∨ p ∈ ps) (highestOf a ps) := by
  induction ps generalizing P a with
  | nil => exact ha.congr fun p => by simp only [List.not_mem_nil, or_false]
  | cons b ps ih =>
    refine (ih (ha.highest (isHighest_eq b))).congr fun p => ?_
    rw [List.mem_cons, or_assoc]

end

end Mediation.Price
