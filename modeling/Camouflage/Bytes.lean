/-!
# Bytes

Everything that crosses the wire is a list of bytes. Sixteen-bit numbers travel with their high
byte first.
-/

namespace Camouflage

abbrev Bytes := List UInt8

/-- The number of values of a word of thirty-two bits. -/
def wordSpan : Nat := 4294967296

namespace Bytes

/-- A sixteen-bit number as two bytes, the high one first. -/
def ofUInt16 (n : UInt16) : Bytes :=
  [UInt8.ofNat (n.toNat / 256), UInt8.ofNat (n.toNat % 256)]

/-- The sixteen-bit number whose high byte is `high` and whose low byte is `low`. -/
def toUInt16 (high low : UInt8) : UInt16 :=
  UInt16.ofNat (high.toNat * 256 + low.toNat)

/-- A thirty-two-bit word as four bytes, the low one first. -/
def ofWord (w : UInt32) : Bytes :=
  [w.toUInt8, (w >>> 8).toUInt8, (w >>> 16).toUInt8, (w >>> 24).toUInt8]

@[simp] theorem length_ofUInt16 (n : UInt16) : (ofUInt16 n).length = 2 := rfl

@[simp] theorem length_ofWord (w : UInt32) : (ofWord w).length = 4 := rfl

/-- Reading back what was written gives the same number. -/
theorem toUInt16_ofNat_div_mod (n : UInt16) :
    toUInt16 (UInt8.ofNat (n.toNat / 256)) (UInt8.ofNat (n.toNat % 256)) = n := by
  apply UInt16.toNat_inj.mp
  have := n.toNat_lt
  simp only [toUInt16, UInt16.toNat_ofNat', UInt8.toNat_ofNat']
  omega

/-- Two bytes are a number exactly if they are how it is written. -/
theorem toUInt16_eq_iff {high low : UInt8} {n : UInt16} :
    toUInt16 high low = n ↔ [high, low] = ofUInt16 n := by
  constructor
  · rintro rfl
    have hhigh := high.toNat_lt
    have hlow := low.toNat_lt
    simp only [ofUInt16, toUInt16, List.cons.injEq, and_true, ← UInt8.toNat_inj,
      UInt16.toNat_ofNat', UInt8.toNat_ofNat']
    omega
  · intro h
    rw [ofUInt16, List.cons.injEq, List.cons.injEq] at h
    rw [h.1, h.2.1, toUInt16_ofNat_div_mod]

theorem ofUInt16_inj {m n : UInt16} : ofUInt16 m = ofUInt16 n ↔ m = n := by
  rw [ofUInt16, ← toUInt16_eq_iff, toUInt16_ofNat_div_mod]

end Bytes

end Camouflage
