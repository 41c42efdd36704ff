import Mathlib
import Stepwise.Number.Binary64

namespace Stepwise.Binary64

open Float.Model Float.Model.UnpackedFloat

abbrev Packed := BitVec Format.binary64.numBits

theorem toNat_packComponents (s : Sign) (e : BitVec 11) (m : BitVec 52) :
    (packComponents Format.binary64 s e m).toNat =
      s.toBitVec.toNat * 2 ^ 63 + e.toNat * 2 ^ 52 + m.toNat := by
  have he := e.isLt
  have hm := m.isLt
  simp only [packComponents, BitVec.toNat_append]
  rw [← Nat.shiftLeft_add_eq_or_of_lt he, ← Nat.shiftLeft_add_eq_or_of_lt hm]
  simp only [Nat.shiftLeft_eq]
  omega

theorem toNat_unpackMantissa (b : Packed) : (unpackMantissa b).toNat = b.toNat % 2 ^ 52 := by
  simp [unpackMantissa]

theorem toNat_unpackExponent (b : Packed) :
    (unpackExponent b).toNat = b.toNat / 2 ^ 52 % 2 ^ 11 := by
  simp [unpackExponent, Nat.shiftRight_eq_div_pow]

def signOf (b : Packed) : Sign :=
  Sign.ofBitVec (unpackSign b)

theorem toNat_signOf (b : Packed) : (signOf b).toBitVec.toNat = b.toNat / 2 ^ 63 := by
  have hb : b.toNat < 2 ^ 64 := b.isLt
  have hs : (unpackSign b).toNat = b.toNat / 2 ^ 63 % 2 := by
    simp [unpackSign, Nat.shiftRight_eq_div_pow]
  simp only [signOf, Sign.ofBitVec]
  split
  · have : (unpackSign b).toNat = 0 := by simp [*]
    simp only [Sign.toBitVec, BitVec.toNat_ofNat]
    omega
  · have : (unpackSign b).toNat ≠ 0 := fun h => ‹¬_› (BitVec.eq_of_toNat_eq h)
    simp only [Sign.toBitVec, BitVec.toNat_ofNat]
    omega

theorem isNaNBits_eq_false {b : Packed} (h : b.toNat % 2 ^ 63 ≤ infinity) :
    isNaNBits b = false := by
  rw [isNaNBits, decide_eq_false_iff_not]
  rintro ⟨hexponent, hmantissa⟩
  have he : b.toNat / 2 ^ 52 % 2 ^ 11 = 2047 := by
    rw [← toNat_unpackExponent, hexponent]
    rfl
  apply hmantissa
  apply BitVec.eq_of_toNat_eq
  rw [toNat_unpackMantissa]
  simp only [infinity] at h
  change _ = 0
  omega

theorem pack_unpack_eq {b : Packed} (h : b.toNat % 2 ^ 63 ≤ infinity) :
    UnpackedFloat.pack Format.binary64 (UnpackedFloat.unpack Format.binary64 b) = b := by
  rw [pack_unpack b, isNaNBits_eq_false h]
  rfl

/-- Bits come back, unless they are those of no number. -/
theorem toBits_ofBits {b : UInt64} (h : b.toNat % 2 ^ 63 ≤ infinity) :
    (Float.ofBits b).toBits = b := by
  apply UInt64.toBitVec_inj.mp
  exact pack_unpack_eq h

theorem toBits_ofIndex (s : Bool) {k : Nat} (h : k ≤ infinity) :
    (ofIndex s k).toBits.toNat = if s then 2 ^ 63 + k else k := by
  have hk : k < 2 ^ 63 := Nat.lt_of_le_of_lt h (by decide)
  have hbits :
      (UInt64.ofNat (if s then 2 ^ 63 + k else k)).toNat = if s then 2 ^ 63 + k else k := by
    rw [UInt64.toNat_ofNat']
    split <;> omega
  rw [ofIndex, toBits_ofBits, hbits]
  rw [hbits]
  split <;> omega

@[simp]
theorem index_ofIndex (s : Bool) {k : Nat} (h : k ≤ infinity) : index (ofIndex s k) = k := by
  have hk : k < 2 ^ 63 := Nat.lt_of_le_of_lt h (by decide)
  rw [index, toBits_ofIndex s h]
  split <;> omega

@[simp]
theorem isNegative_ofIndex (s : Bool) {k : Nat} (h : k ≤ infinity) :
    isNegative (ofIndex s k) = s := by
  have hk : k < 2 ^ 63 := Nat.lt_of_le_of_lt h (by decide)
  rw [isNegative, toBits_ofIndex s h]
  cases s
  · simp
    omega
  · simp

theorem toBits_eq (v : Float) :
    v.toBits.toNat = if isNegative v then 2 ^ 63 + index v else index v := by
  have := v.toBits.toNat_lt
  simp only [isNegative, index, decide_eq_true_eq]
  split <;> omega

/-- A number is known by its sign and its index. -/
theorem eq_of_index_eq {v w : Float} (hs : isNegative v = isNegative w)
    (hk : index v = index w) : v = w := by
  apply Float.toBits_inj.mp
  apply UInt64.toNat_inj.mp
  rw [toBits_eq, toBits_eq, hs, hk]

theorem ofIndex_index {v : Float} (h : index v ≤ infinity) : ofIndex (isNegative v) (index v) = v :=
  eq_of_index_eq (isNegative_ofIndex _ h) (index_ofIndex _ h)

/-- The same bits with the other sign. -/
def flipped (b : Packed) : Packed :=
  packComponents Format.binary64 (-signOf b) (unpackExponent b) (unpackMantissa b)

theorem toNat_flipped (b : Packed) : (flipped b).toNat = (b.toNat + 2 ^ 63) % 2 ^ 64 := by
  have hsign : (-signOf b).toBitVec.toNat = 1 - b.toNat / 2 ^ 63 := by
    rw [← toNat_signOf]
    cases signOf b <;> rfl
  have hlt : b.toNat < 2 ^ 64 := b.isLt
  rw [flipped, toNat_packComponents, hsign, toNat_unpackExponent, toNat_unpackMantissa]
  omega

theorem unpack_flipped (b : Packed) : UnpackedFloat.unpack Format.binary64 (flipped b) =
    (UnpackedFloat.unpack Format.binary64 b).neg := by
  simp only [UnpackedFloat.unpack, flipped, unpackExponent_packComponents,
    unpackMantissa_packComponents, unpackSign_packComponents, Sign.ofBitVec_toBitVec]
  split
  · split <;> rfl
  · split
    · split <;> rfl
    · rfl

theorem toBits_neg {v : Float} (h : index v ≤ infinity) :
    (-v).toBits.toNat = (v.toBits.toNat + 2 ^ 63) % 2 ^ 64 := by
  let b : Packed := v.toBits.toBitVec
  have hneg : (-v).toBits.toBitVec = UnpackedFloat.pack Format.binary64
      (UnpackedFloat.unpack Format.binary64 b).neg := rfl
  have hsize : (flipped b).toNat % 2 ^ 63 ≤ infinity := by
    have hb : b.toNat % 2 ^ 63 ≤ infinity := h
    rw [toNat_flipped]
    omega
  change (-v).toBits.toBitVec.toNat = (b.toNat + 2 ^ 63) % 2 ^ 64
  rw [hneg, ← unpack_flipped, pack_unpack_eq hsize, toNat_flipped]

theorem index_neg {v : Float} (h : index v ≤ infinity) : index (-v) = index v := by
  have := v.toBits.toNat_lt
  rw [index, toBits_neg h, index]
  omega

theorem isNegative_neg {v : Float} (h : index v ≤ infinity) : isNegative (-v) = !isNegative v := by
  have := v.toBits.toNat_lt
  rw [isNegative, toBits_neg h, isNegative, ← decide_not, decide_eq_decide]
  omega

theorem unpackExponent_eq_max_iff (b : Packed) :
    unpackExponent b = -1#_ ↔ infinity ≤ b.toNat % 2 ^ 63 := by
  rw [← BitVec.toNat_inj, toNat_unpackExponent]
  change _ = 2047 ↔ _
  simp only [infinity]
  omega

theorem unpack_fields_eq_zero_iff (b : Packed) :
    unpackExponent b = 0#_ ∧ unpackMantissa b = 0#_ ↔ b.toNat % 2 ^ 63 = 0 := by
  rw [← BitVec.toNat_inj, ← BitVec.toNat_inj, toNat_unpackExponent, toNat_unpackMantissa]
  change _ = 0 ∧ _ = 0 ↔ _
  omega

theorem toNat_one_append (m : BitVec 52) : (1#1 ++ m).toNat = 2 ^ 52 + m.toNat := by
  rw [BitVec.toNat_append, ← Nat.shiftLeft_add_eq_or_of_lt m.isLt, Nat.shiftLeft_eq]
  rfl

/-- A finite number that is not zero unpacks to its significand and its scale. -/
theorem unpack_eq {v : Float} (h : index v < infinity) :
    index v = 0 ∧ v.toModel.unpack = .zero (signOf v.toBits.toBitVec) ∨
    index v ≠ 0 ∧ ∃ m e hm, m = significand (index v) ∧ e = (scale (index v) : Int) - 1074 ∧
      v.toModel.unpack = .finite (signOf v.toBits.toBitVec) m e hm := by
  let b : Packed := v.toBits.toBitVec
  have hv : v.toModel.unpack = UnpackedFloat.unpack Format.binary64 b := rfl
  have hmax : ¬unpackExponent b = -1#_ := fun he =>
    absurd ((unpackExponent_eq_max_iff b).mp he) (Nat.not_le.mpr h)
  have hzero : unpackExponent b = 0#_ ∧ unpackMantissa b = 0#_ ↔ index v = 0 :=
    unpack_fields_eq_zero_iff b
  have hexponent : (unpackExponent b).toNat = index v / 2 ^ 52 := by
    have hindex : index v = b.toNat % 2 ^ 63 := rfl
    rw [toNat_unpackExponent, hindex]
    omega
  have hmantissa : (unpackMantissa b).toNat = index v % 2 ^ 52 := by
    have hindex : index v = b.toNat % 2 ^ 63 := rfl
    rw [toNat_unpackMantissa, hindex]
    omega
  have hbias : Format.binary64.exponentBias = 1023 := rfl
  rw [hv]
  simp only [UnpackedFloat.unpack, if_neg hmax]
  split
  · rename_i he
    have hsmall : index v / 2 ^ 52 = 0 := by
      rw [← hexponent, he]
      rfl
    split
    · exact Or.inl ⟨hzero.mp ⟨‹_›, ‹_›⟩, rfl⟩
    · rename_i hm
      have hpos : 0 < (unpackMantissa b).toNat :=
        Nat.pos_of_ne_zero fun h0 => hm (BitVec.eq_of_toNat_eq h0)
      refine Or.inr ⟨fun h0 => hm (hzero.mpr h0).2, _, _, hpos, ?_, ?_, rfl⟩
      · rw [hmantissa, significand]
        split <;> omega
      · rw [hexponent, hsmall, hbias, scale, hsmall]
        rfl
  · rename_i he
    have hlarge : index v / 2 ^ 52 ≠ 0 := fun h0 =>
      he (BitVec.eq_of_toNat_eq (hexponent.trans h0))
    have hpos : 0 < (1#1 ++ unpackMantissa b).toNat := by
      rw [toNat_one_append]
      omega
    refine Or.inr ⟨fun h0 => he (hzero.mpr h0).1, _, _, hpos, ?_, ?_, rfl⟩
    · rw [toNat_one_append, hmantissa, significand]
      split <;> omega
    · rw [hexponent, hbias, scale]
      push_cast
      omega

theorem isFinite_iff {v : Float} : v.isFinite = true ↔ index v < infinity := by
  constructor
  · intro hv
    apply Nat.lt_of_not_le
    intro h
    have hmax := (unpackExponent_eq_max_iff v.toBits.toBitVec).mpr h
    have : (UnpackedFloat.unpack Format.binary64 v.toBits.toBitVec).isFinite = true := hv
    simp only [UnpackedFloat.unpack, if_pos hmax] at this
    split at this <;> cases this
  · intro h
    change v.toModel.unpack.isFinite = true
    obtain ⟨-, hu⟩ | ⟨-, m, e, hm, -, -, hu⟩ := unpack_eq h
    all_goals rw [hu]; rfl

theorem index_le_infinity {v : Float} (hv : v.isFinite = true) : index v ≤ infinity :=
  Nat.le_of_lt (isFinite_iff.mp hv)

theorem isFinite_neg {v : Float} (hv : v.isFinite = true) : (-v).isFinite = true := by
  rw [isFinite_iff, index_neg (index_le_infinity hv)]
  exact isFinite_iff.mp hv

theorem isNegative_eq (v : Float) :
    isNegative v = match signOf v.toBits.toBitVec with
      | .negative => true
      | .positive => false := by
  have h : (signOf v.toBits.toBitVec).toBitVec.toNat = v.toBits.toNat / 2 ^ 63 :=
    toNat_signOf v.toBits.toBitVec
  have hlt := v.toBits.toNat_lt
  simp only [isNegative]
  cases hs : signOf v.toBits.toBitVec <;> rw [hs] at h <;>
    simp only [Sign.toBitVec, BitVec.toNat_ofNat] at h <;> simp <;> omega

theorem unpack_zero : (0 : Float).toModel.unpack = .zero .positive := rfl

theorem beq_zero_iff {v : Float} (hv : v.isFinite = true) : (v == 0) = true ↔ index v = 0 := by
  have hcompare : (v == 0) = true ↔ v.toModel.unpack.compare (.zero .positive) = some .eq := by
    change (v.toModel.unpack.compare (0 : Float).toModel.unpack == some .eq) = true ↔ _
    rw [unpack_zero, beq_iff_eq]
  rw [hcompare]
  obtain ⟨h0, hu⟩ | ⟨h0, m, e, hm, -, -, hu⟩ := unpack_eq (isFinite_iff.mp hv)
  · simp [hu, h0, UnpackedFloat.compare]
  · rw [hu]
    cases signOf v.toBits.toBitVec <;> simp [UnpackedFloat.compare, h0]

theorem lt_zero_iff {v : Float} (hv : v.isFinite = true) :
    v < 0 ↔ isNegative v = true ∧ index v ≠ 0 := by
  have hcompare : v < 0 ↔ v.toModel.unpack.compare (.zero .positive) = some .lt := by
    change Float.lt v 0 = true ↔ _
    rw [Float.lt, decide_eq_true_eq]
    change (v.toModel.unpack.compare (0 : Float).toModel.unpack == some .lt) = true ↔ _
    rw [unpack_zero, beq_iff_eq]
  rw [hcompare, isNegative_eq]
  obtain ⟨h0, hu⟩ | ⟨h0, m, e, hm, -, -, hu⟩ := unpack_eq (isFinite_iff.mp hv)
  · simp [hu, h0, UnpackedFloat.compare]
  · rw [hu]
    cases signOf v.toBits.toBitVec <;> simp [UnpackedFloat.compare, h0]

end Stepwise.Binary64
