import Mathlib
import Trampoline.Benchmark.Chain

/-!
# Counting in floats

A float has a mantissa of 53 bits.  So the floats of the whole numbers up to two to the power of
53 are exact, and adding one goes from one of them to the next; at that power it changes nothing
any more, because one is lost when the sum is rounded.

Main definitions and results:

- Definition `whole`: the float of a positive number, as a mantissa and an exponent.
- Theorem `roundWithAccuracy_exact`: rounding that loses nothing but zeros.
- Theorem `unpack_pack`: a mantissa of 53 bits is packed and unpacked without loss.
- Theorem `ofNat_add_one`: adding one to an exact number is exact.
- Definition `ones`, theorem `ones_eq`: adding one over and over.
-/

namespace Trampoline.Benchmark.Counting

open Float.Model Float.Model.UnpackedFloat

/-! ## Mantissas -/

/-- A factor that is a power of two moves the highest bit. -/
theorem log2_mul_two_pow {q : Nat} (hq : q ≠ 0) (s : Nat) : (q * 2 ^ s).log2 = q.log2 + s := by
  rw [Nat.log2_eq_iff (by positivity)]
  have hlow := Nat.log2_self_le hq
  have hhigh := Nat.lt_log2_self (n := q)
  constructor
  · rw [Nat.pow_add]
    exact Nat.mul_le_mul_right _ hlow
  · rw [Nat.add_right_comm, Nat.pow_add]
    exact Nat.mul_lt_mul_of_pos_right hhigh (by positivity)

/-- The mantissa of a number, moved to where its highest bit is the one at 52. -/
def mantissa (n : Nat) : Nat :=
  n * 2 ^ 52 / 2 ^ n.log2

/-- The numbers that are exact have a mantissa without rest. -/
theorem mantissa_mul {n : Nat} (h : n ≤ 2 ^ 53) : mantissa n * 2 ^ n.log2 = n * 2 ^ 52 := by
  refine Nat.div_mul_cancel ?_
  rcases Nat.lt_or_eq_of_le h with hlt | rfl
  · refine Dvd.dvd.mul_left (Nat.pow_dvd_pow 2 ?_) n
    rcases Nat.eq_zero_or_pos n with rfl | hpos
    · simp
    · have := (Nat.log2_lt hpos.ne').mpr hlt
      omega
  · rw [Nat.log2_two_pow]
    exact ⟨2 ^ 52, rfl⟩

/-- The highest bit of a mantissa is the one at 52. -/
theorem log2_mantissa {n : Nat} (hpos : n ≠ 0) (h : n ≤ 2 ^ 53) : (mantissa n).log2 = 52 := by
  have hmul := mantissa_mul h
  have hne : mantissa n ≠ 0 := by
    rintro hzero
    rw [hzero, Nat.zero_mul] at hmul
    exact hpos (by simpa using hmul.symm)
  have hlog := congrArg Nat.log2 hmul
  rw [log2_mul_two_pow hne, log2_mul_two_pow hpos] at hlog
  omega

/-- The mantissa of a positive number is positive. -/
theorem mantissa_pos {n : Nat} (hpos : n ≠ 0) : 0 < mantissa n := by
  refine Nat.div_pos ?_ (by positivity)
  exact (Nat.log2_self_le hpos).trans (Nat.le_mul_of_pos_right n (by positivity))

/-! ## Rounding -/

/-- Zeros that are shifted out leave no trace. -/
theorem shiftRight_exact (q s : Nat) :
    (⟨q * 2 ^ s, false, false⟩ : ExtendedMantissa) >>> s = ⟨q, false, false⟩ := by
  induction s generalizing q with
  | zero => exact congrArg (ExtendedMantissa.mk · false false) (Nat.mul_one q)
  | succ s ih =>
      have hmul : q * 2 ^ (s + 1) = 2 * q * 2 ^ s := by ring
      have hshift : (⟨q * 2 ^ (s + 1), false, false⟩ : ExtendedMantissa) >>> (s + 1) =
          ((⟨q * 2 ^ (s + 1), false, false⟩ : ExtendedMantissa) >>> s).shiftRightOne := rfl
      rw [hshift, hmul, ih]
      simp [ExtendedMantissa.shiftRightOne]

/-- The exponent that belongs to a mantissa of 53 bits. -/
theorem targetExponent_eq {q : Nat} (hq : q.log2 = 52) (s : Nat) {e : Int} (he : -1074 ≤ e + s) :
    Format.binary64.targetExponent (totalExponent (q * 2 ^ s) e) = e + s := by
  have hne : q ≠ 0 := by
    rintro rfl
    simp at hq
  simp only [Format.targetExponent, totalExponent, Format.mantissaBits, Format.minExponent,
    log2_mul_two_pow hne, hq]
  norm_num
  omega

/-- A mantissa is shifted until it has 53 bits, and loses none. -/
theorem shiftToTargetExponent_exact {q : Nat} (hq : q.log2 = 52) (s : Nat) {e : Int}
    (he : -1074 ≤ e + s) : shiftToTargetExponent Format.binary64 (q * 2 ^ s) e .exact =
      (⟨q, false, false⟩, e + s) := by
  have hamount : (e + s - e).toNat = s := by omega
  simp only [shiftToTargetExponent, targetExponent_eq hq s he, shiftToExponent, hamount,
    ExtendedMantissa.ofMantissaAndAccuracy, shiftRight_exact]

/-- Rounding loses nothing if the bits that do not fit are zeros. -/
theorem roundWithAccuracy_exact {q : Nat} (hq : q.log2 = 52) (hpos : 0 < q) (s : Nat) {e : Int}
    (he : -1074 ≤ e + s) (sign : Sign) :
    roundWithAccuracy Format.binary64 sign (q * 2 ^ s) e .exact =
      .finite sign q (e + s) hpos := by
  have hagain := shiftToTargetExponent_exact hq 0 (e := e + s) (by simpa using he)
  rw [Nat.pow_zero, Nat.mul_one] at hagain
  simp only [roundWithAccuracy, shiftToTargetExponent_exact hq s he,
    ExtendedMantissa.roundedMantissa, ExtendedMantissa.accuracy, Accuracy.roundToNearestEven,
    hagain, hpos.ne', dif_neg, not_false_eq_true]
  simp

/-- A mantissa that is too long is cut to size. -/
theorem round_of_long {q : Nat} (hq : q.log2 = 52) (hpos : 0 < q) (s : Nat) {e : Int}
    (he : -1074 ≤ e + s) (sign : Sign) :
    UnpackedFloat.round Format.binary64 sign (q * 2 ^ s) e = .finite sign q (e + s) hpos := by
  have hamount : (e - (e + s)).toNat = 0 := by omega
  have hround := roundWithAccuracy_exact hq hpos s he sign
  simpa only [UnpackedFloat.round, decreaseExponent, targetExponent_eq hq s he, hamount,
    Nat.shiftLeft_zero, Int.natCast_zero, Int.sub_zero] using hround

/-- A mantissa that is too short is filled up. -/
theorem round_of_short {m k : Nat} (hm : m ≠ 0) (hlog : m.log2 + k = 52) {e : Int}
    (he : -1074 ≤ e - k) (sign : Sign) :
    UnpackedFloat.round Format.binary64 sign m e =
      .finite sign (m * 2 ^ k) (e - k) (by positivity) := by
  have hq : (m * 2 ^ k).log2 = 52 := by rw [log2_mul_two_pow hm, hlog]
  have htarget : Format.binary64.targetExponent (totalExponent m e) = e - k := by
    simp only [Format.targetExponent, totalExponent, Format.mantissaBits, Format.minExponent]
    norm_num
    omega
  have hamount : (e - (e - k)).toNat = k := by omega
  have hround := roundWithAccuracy_exact hq (by positivity) 0 (e := e - k) (by simpa using he) sign
  rw [Nat.pow_zero, Nat.mul_one] at hround
  simpa only [UnpackedFloat.round, decreaseExponent, htarget, hamount, Nat.shiftLeft_eq,
    Int.natCast_zero, Int.add_zero] using hround

/-! ## Packing -/

/-- The sign of a packed float is unpacked. -/
theorem unpackSign_packComponents (sign : Sign) (exponent : BitVec 11) (mantissa : BitVec 52) :
    Sign.ofBitVec (unpackSign (packComponents Format.binary64 sign exponent mantissa)) = sign := by
  have hbits : unpackSign (packComponents Format.binary64 sign exponent mantissa) =
      sign.toBitVec := by
    change (sign.toBitVec ++ exponent ++ mantissa).extractLsb' 63 1 = sign.toBitVec
    rw [BitVec.extractLsb'_append_eq_of_le (by decide),
      BitVec.extractLsb'_append_eq_of_le (by decide)]
    cases sign <;> rfl
  rw [hbits]
  cases sign <;> rfl

/-- The highest bit of a mantissa of 53 bits comes back. -/
theorem toNat_one_append {q : Nat} (hq : q.log2 = 52) :
    (1#1 ++ BitVec.ofNat 52 q).toNat = q := by
  have hne : q ≠ 0 := by
    rintro rfl
    simp at hq
  obtain ⟨hlow, hhigh⟩ := (Nat.log2_eq_iff hne).mp hq
  rw [BitVec.toNat_append, ← Nat.shiftLeft_add_eq_or_of_lt (BitVec.ofNat 52 q).isLt]
  simp only [BitVec.toNat_ofNat, Nat.shiftLeft_eq]
  omega

/-- A mantissa of 53 bits is packed and unpacked without loss. -/
theorem unpack_pack {q : Nat} (hq : q.log2 = 52) (hpos : 0 < q) {e : Int} (hlow : -1074 ≤ e)
    (hhigh : e ≤ 971) :
    UnpackedFloat.unpack Format.binary64 (UnpackedFloat.pack Format.binary64
      (.finite .positive q e hpos)) = .finite .positive q e hpos := by
  have hbias : e + Format.binary64.exponentBias + Format.binary64.mantissaBitsWithoutImplicit =
      e + 1075 := by
    change e + 1023 + 52 = e + 1075
    ring
  have hexponent : (BitVec.ofNat 11 (e + 1075).toNat).toNat = (e + 1075).toNat := by
    rw [BitVec.toNat_ofNat]
    omega
  have hbits : ∀ b : BitVec 11, b.toNat = 0 ∨ b.toNat = 2047 →
      BitVec.ofNat 11 (e + 1075).toNat ≠ b := by
    rintro b hb rfl
    rw [hexponent] at hb
    omega
  have hpack : UnpackedFloat.pack Format.binary64 (.finite .positive q e hpos) =
      packComponents Format.binary64 .positive (BitVec.ofNat 11 (e + 1075).toNat)
        (BitVec.ofNat 52 q) := by
    simp only [UnpackedFloat.pack, hbias, hq]
    have hfinite : ¬2048 ≤ (e + 1075).toNat + 1 := by omega
    exact (if_neg hfinite).trans (if_pos rfl)
  rw [hpack]
  simp only [UnpackedFloat.unpack, unpackMantissa_packComponents, unpackExponent_packComponents,
    unpackSign_packComponents]
  rw [if_neg (hbits _ (.inr rfl)), if_neg (hbits _ (.inl rfl))]
  have hback : ((e + 1075).toNat : Int) -
      (Format.binary64.exponentBias + Format.binary64.mantissaBitsWithoutImplicit) = e := by
    change ((e + 1075).toNat : Int) - (1023 + 52) = e
    omega
  simp only [toNat_one_append hq, hexponent, hback]

/-! ## Whole numbers -/

/-- The number after `n`, as a mantissa of 53 bits and an exponent. -/
def whole (n : Nat) : UnpackedFloat :=
  .finite .positive (mantissa (n + 1)) ((n + 1).log2 - 52) (mantissa_pos n.succ_ne_zero)

/-- The highest bit of a number that is exact. -/
theorem log2_le {n : Nat} (h : n ≤ 2 ^ 53) : n.log2 ≤ 53 := by
  rcases Nat.eq_zero_or_pos n with rfl | hpos
  · simp
  · exact Nat.lt_succ_iff.mp ((Nat.log2_lt hpos.ne').mpr (h.trans_lt (by norm_num)))

/-- A float of a number is unpacked as it was packed. -/
theorem unpack_whole {n : Nat} (h : n + 1 ≤ 2 ^ 53) :
    (Float.Model.pack (whole n)).unpack = whole n := by
  have hlog := log2_le h
  exact unpack_pack (log2_mantissa n.succ_ne_zero h) _ (by omega) (by omega)

/-- A positive number is rounded as one. -/
theorem normalize_natCast {m : Nat} (hpos : 0 < m) (e : Int) (zero : Sign) :
    UnpackedFloat.normalize Format.binary64 (m : Int) e zero =
      UnpackedFloat.round Format.binary64 .positive m e := by
  have hcompare : compare (m : Int) 0 = .gt := compare_gt_iff_gt.mpr (by exact_mod_cast hpos)
  simp only [UnpackedFloat.normalize, hcompare, Int.toNat_natCast]

/-- A sum is rounded once. -/
theorem add_finite {m₁ m₂ : Nat} (h₁ : 0 < m₁) (h₂ : 0 < m₂) {e₁ e₂ : Int} (he : e₂ ≤ e₁) :
    UnpackedFloat.add Format.binary64 (.finite .positive m₁ e₁ h₁) (.finite .positive m₂ e₂ h₂) =
      UnpackedFloat.round Format.binary64 .positive (m₁ * 2 ^ (e₁ - e₂).toNat + m₂) e₂ := by
  have hsum : UnpackedFloat.add Format.binary64 (.finite .positive m₁ e₁ h₁)
      (.finite .positive m₂ e₂ h₂) =
      UnpackedFloat.normalize Format.binary64
        ((m₁ <<< (e₁ - min e₁ e₂).toNat : Nat) + (m₂ <<< (e₂ - min e₁ e₂).toNat : Nat) : Int)
        (min e₁ e₂) .positive := rfl
  rw [hsum, min_eq_right he, Int.sub_self, ← Int.natCast_add, Nat.shiftLeft_eq, Int.toNat_zero,
    Nat.shiftLeft_zero, normalize_natCast (by omega)]

/-- Adding one is exact up to two to the power of 53. -/
theorem whole_add_one {n : Nat} (h : n + 2 ≤ 2 ^ 53) :
    UnpackedFloat.add Format.binary64 (whole n) (whole 0) = whole (n + 1) := by
  have hone : whole 0 = .finite .positive (2 ^ 52) (-52) (by norm_num) := rfl
  have hshift : (((n + 1).log2 - 52 : Int) - -52).toNat = (n + 1).log2 := by omega
  have hsum : mantissa (n + 1) * 2 ^ (n + 1).log2 + 2 ^ 52 =
      mantissa (n + 2) * 2 ^ (n + 2).log2 := by
    rw [mantissa_mul (Nat.le_of_succ_le h), mantissa_mul h]
    ring
  have hexponent : (-52 : Int) + (n + 2).log2 = (n + 2).log2 - 52 := by ring
  rw [hone, whole, add_finite _ _ (by omega), hshift, hsum,
    round_of_long (log2_mantissa (n + 1).succ_ne_zero h) (mantissa_pos (n + 1).succ_ne_zero) _
      (by omega)]
  simp only [hexponent]
  rfl

/-! ## Conversion -/

/-- The float of a number that is exact. -/
def ofWhole (n : Nat) : Float :=
  .ofModel (.pack (whole n))

/-- A number below two to the power of 53 is converted exactly. -/
theorem toFloat_eq {n : Nat} (h : n + 1 < 2 ^ 53) : (n + 1).toUInt64.toFloat = ofWhole n := by
  have hconvert : (n + 1).toUInt64.toFloat = Float.ofModel (.pack (UnpackedFloat.normalize
    Format.binary64 ((n + 1).toUInt64.toNat : Int) 0 .positive)) := rfl
  have hnat : (n + 1).toUInt64.toNat = n + 1 :=
    UInt64.toNat_ofNat_of_lt (h.trans (by norm_num))
  have hne : n + 1 ≠ 0 := n.succ_ne_zero
  have hlog : (n + 1).log2 < 53 := (Nat.log2_lt hne).mpr h
  have hfill : (n + 1) * 2 ^ (52 - (n + 1).log2) = mantissa (n + 1) := by
    refine Nat.eq_of_mul_eq_mul_right (Nat.two_pow_pos (n + 1).log2) ?_
    rw [mantissa_mul h.le, Nat.mul_assoc, ← Nat.pow_add, Nat.sub_add_cancel (by omega)]
  have hexponent : (0 : Int) - (52 - (n + 1).log2 : Nat) = (n + 1).log2 - 52 := by omega
  rw [hconvert, hnat, normalize_natCast n.succ_pos,
    round_of_short (k := 52 - (n + 1).log2) hne (by omega) (by omega)]
  simp only [hfill, hexponent]
  rfl

/-- Multiplying with one changes nothing. -/
theorem ofWhole_mul_one {n : Nat} (h : n + 1 ≤ 2 ^ 53) {one : Float}
    (hone : one.toModel.unpack = .finite .positive (2 ^ 52) (-52) (by norm_num)) :
    ofWhole n * one = ofWhole n := by
  have hmul : ofWhole n * one = Float.ofModel (.pack (UnpackedFloat.mul Format.binary64
    (Float.Model.pack (whole n)).unpack one.toModel.unpack)) := rfl
  have hround : UnpackedFloat.mul Format.binary64 (whole n)
      (.finite .positive (2 ^ 52) (-52) (by norm_num)) =
      roundWithAccuracy Format.binary64 .positive (mantissa (n + 1) * 2 ^ 52)
        ((n + 1).log2 - 52 + -52) .exact := rfl
  have hexponent : ((n + 1).log2 : Int) - 52 + -52 + (52 : Nat) = (n + 1).log2 - 52 := by omega
  rw [hmul, unpack_whole h, hone, hround,
    roundWithAccuracy_exact (log2_mantissa n.succ_ne_zero h) (mantissa_pos n.succ_ne_zero) 52
      (by omega)]
  simp only [hexponent]
  rfl

/-- The float of a number up to two to the power of 53. -/
theorem ofNat_succ {n : Nat} (h : n + 1 ≤ 2 ^ 53) : Float.ofNat (n + 1) = ofWhole n := by
  rcases Nat.lt_or_eq_of_le h with hlt | hlast
  · have hofNat : Float.ofNat (n + 1) =
        (n + 1).toUInt64.toFloat * Float.ofBits 0x3FF0000000000000 :=
      dif_pos (show n + 1 < 2 ^ 53 ∧ 0 ≤ 22 from ⟨hlt, Nat.zero_le 22⟩)
    rw [hofNat, toFloat_eq hlt]
    exact ofWhole_mul_one h rfl
  · obtain rfl : n = 2 ^ 53 - 1 := by omega
    rfl

/-! ## Counting -/

/-- Adding one to a number below two to the power of 53 is exact. -/
theorem ofNat_add_one {n : Nat} (h : n < 2 ^ 53) :
    Float.ofNat n + 1.0 = Float.ofNat (n + 1) := by
  cases n with
  | zero => rfl
  | succ n =>
      have hone : (1.0 : Float) = ofWhole 0 := rfl
      have hsum : ofWhole n + ofWhole 0 = Float.ofModel (.pack (UnpackedFloat.add Format.binary64
        (Float.Model.pack (whole n)).unpack (Float.Model.pack (whole 0)).unpack)) := rfl
      rw [ofNat_succ (n := n) (by omega), ofNat_succ (n := n + 1) (by omega), hone, hsum,
        unpack_whole (n := n) (by omega), unpack_whole (n := 0) (by norm_num),
        whole_add_one (by omega)]
      rfl

/-- So many ones, added to zero one after the other. -/
def ones : Nat → Float
  | 0 => 0.0
  | n + 1 => ones n + 1.0

/-- Adding ones counts up to two to the power of 53, and stays there. -/
theorem ones_eq (n : Nat) : ones n = Float.ofNat (min n (2 ^ 53)) := by
  induction n with
  | zero => rfl
  | succ n ih =>
      rw [ones, ih]
      rcases Nat.lt_or_ge n (2 ^ 53) with hlt | hge
      · rw [min_eq_left hlt.le, min_eq_left (Nat.succ_le_of_lt hlt), ofNat_add_one hlt]
      · rw [min_eq_right hge, min_eq_right (Nat.le_succ_of_le hge)]
        rfl

end Trampoline.Benchmark.Counting
