import Receipt.Page.Device
import Receipt.Proofs.BinaryCounting

/-!
# How large a symbol gets

A printer is never asked for modules of more than sixteen dots, whatever size a receipt states. A page
keeps the stated size: only its content box limits the side of a symbol. So a size above sixteen shows
wherever the box has room for more than sixteen dots a module (`Page.clamps_symbol_iff`).

The side of seventeen dots a module is above the one of sixteen, and so are all further ones
(`Page.largestSide_lt`). Up to twenty-eight dots both sides have their first digit in the same place and are
compared one by one. From there on the digits of the larger one begin further up, whichever way the
product is rounded (`Rounding.lt_mul_of_bits`).
-/

namespace Receipt

namespace Rounding

open Float.Model Float.Model.UnpackedFloat

/-! ## The order of numbers above zero -/

theorem lt_trans_of_positive {mantissa : Nat} {exponent : Int} {positive : 0 < mantissa}
    {second third : UnpackedFloat}
    (first : UnpackedFloat.lt (.finite .positive mantissa exponent positive) second = true)
    (rest : second.lt third = true) :
    UnpackedFloat.lt (.finite .positive mantissa exponent positive) third = true := by
  cases second with
  | notANumber => cases first
  | zero sign => cases first
  | infinity sign =>
    cases sign with
    | negative => cases first
    | positive =>
      cases third with
      | infinity sign => cases sign <;> cases rest
      | notANumber | zero _ | finite _ _ _ _ => cases rest
  | finite sign other place also =>
    cases sign with
    | negative => cases first
    | positive =>
      cases third with
      | notANumber => cases rest
      | zero sign => cases rest
      | infinity sign =>
        cases sign with
        | negative => cases rest
        | positive => rfl
      | finite sign last lowest some =>
        cases sign with
        | negative => cases rest
        | positive =>
          rw [lt_finite_iff] at first rest ⊢
          omega

/-! ## Products -/

/-- A product whose digits begin above those of another number is larger, also when it is rounded and
when it has no place among the finite numbers. -/
theorem lt_mul_of_bits {mantissa other bound : Nat} {exponent place least : Int} (places : Nat)
    {positive : 0 < mantissa} {also : 0 < other} {some : 0 < bound}
    (bits : 2 ^ (52 + places) ≤ mantissa * other) (normal : -1074 ≤ least)
    (above : least < exponent + place + places) :
    UnpackedFloat.lt (.finite .positive bound least some)
      (UnpackedFloat.unpack .binary64 (UnpackedFloat.pack .binary64
        (UnpackedFloat.mul .binary64 (.finite .positive mantissa exponent positive)
          (.finite .positive other place also)))) = true := by
  have nonzero : mantissa * other ≠ 0 := (Nat.mul_pos positive also).ne'
  have digits : 52 + places ≤ (mantissa * other).log2 := (Nat.le_log2 nonzero).2 bits
  have all : (mantissa * other).log2 = 52 + ((mantissa * other).log2 - 52) := by omega
  rcases roundWithAccuracy_normal .positive (exponent + place) all (by omega) with
    ⟨rounded, target, whole, result, low, high, further⟩
  have product : UnpackedFloat.mul .binary64 (.finite .positive mantissa exponent positive)
      (.finite .positive other place also) = .finite .positive rounded target whole := result
  rw [product]
  rcases Int.lt_or_le 971 target with beyond | within
  · rw [unpack_pack_overflow .positive whole beyond]
    rfl
  · rw [unpack_pack_normal .positive whole low high (by omega) within, lt_finite_iff]
    exact .inl (by omega)

/-- A whole number from 725 on ends no lower than the digits of 725 do. -/
theorem IsWhole.large {i : Int} {unpacked : UnpackedFloat} (own : IsWhole i unpacked)
    (canonical : Canonical unpacked) (large : 725 ≤ i) :
    ∃ mantissa exponent positive, unpacked = .finite .positive mantissa exponent positive ∧
      (725 * 2 ^ 43 ≤ mantissa ∧ -43 ≤ exponent ∨ 2 ^ 52 ≤ mantissa ∧ -42 ≤ exponent) := by
  cases own with
  | zero => omega
  | negative above _ => omega
  | @positive n mantissa exponent positive above magnitude =>
    refine ⟨mantissa, exponent, positive, rfl, ?_⟩
    have full : 2 ^ 52 ≤ mantissa := by
      have place := magnitude.place
      rcases canonical.2.2.2 with full | lowest <;> omega
    cases magnitude with
    | long _ place => exact .inr ⟨full, by omega⟩
    | short small =>
      have digits : 9 ≤ n.log2 := (Nat.le_log2 (by omega)).2 (by omega)
      unfold wholePlace
      rcases Nat.eq_or_lt_of_le digits with nine | more
      · refine .inl ⟨?_, by omega⟩
        unfold wholeSignificand
        rw [← nine]
        exact Nat.mul_le_mul_right _ (by omega)
      · exact .inr ⟨full, by omega⟩

end Rounding

namespace Page

open Rounding Float.Model

/-- The side of a symbol with sixteen dots a module. -/
def largestSide : Float := Scalar.ofNat 400 * dotSize

theorem unpack_dotSize : (dotSize : Float).toModel.unpack =
    .finite .positive 6389343313707896 (-54) (by decide) := rfl

theorem unpack_largestSide : largestSide.toModel.unpack =
    .finite .positive 4991674463834294 (-45) (by decide) := rfl

/-- Every symbol with more than sixteen dots a module has a longer side. -/
theorem largestSide_lt {size : Int} (more : 16 < size) {modules : Float}
    (stands : Scalar.Stands modules (size * symbolModules)) : largestSide < modules * dotSize := by
  rcases Scalar.stands_float stands with ⟨rfl, finite⟩
  rcases Int.lt_or_le size 29 with few | many
  · have each : ∀ above < 12,
        largestSide < Float.ofInt ((17 + above : Nat) * symbolModules) * dotSize := by
      decide +kernel
    have own := each (size - 17).toNat (by omega)
    have back : ((17 + (size - 17).toNat : Nat) : Int) = size := by omega
    rwa [back] at own
  · have whole := isWhole_ofInt finite
    have canonical : Canonical (Float.ofInt (size * symbolModules)).toModel.unpack :=
      canonical_unpack _
    have large : 725 ≤ size * symbolModules := by
      unfold symbolModules
      omega
    rcases whole.large canonical large with ⟨mantissa, exponent, positive, form, digits⟩
    rw [lt_iff, unpack_largestSide]
    show UnpackedFloat.lt _ (.unpack .binary64 (UnpackedFloat.pack .binary64
      ((Float.ofInt (size * symbolModules)).toModel.unpack.mul .binary64
        (dotSize : Float).toModel.unpack))) = true
    rw [form, unpack_dotSize]
    rcases digits with ⟨enough, place⟩ | ⟨enough, place⟩
    · exact lt_mul_of_bits 53 (by omega) (by decide) (by omega)
    · exact lt_mul_of_bits 52 (by omega) (by decide) (by omega)

/-- A box limits both sides alike exactly when it has no room for the smaller one. -/
theorem min_eq_min_largestSide_iff {side width : Float} (longer : largestSide < side) :
    Scalar.min width side = Scalar.min width largestSide ↔ ¬ largestSide < width := by
  have irreflexive : ¬ largestSide < largestSide := by decide +kernel
  unfold Scalar.min
  constructor
  · intro same room
    rw [if_pos room] at same
    split at same
    · exact irreflexive (same ▸ longer)
    · exact irreflexive (same ▸ room)
  · intro full
    have fuller : ¬ side < width := by
      intro room
      rw [lt_iff] at room longer
      rw [unpack_largestSide] at longer
      rw [lt_iff, unpack_largestSide] at full
      exact full (lt_trans_of_positive longer room)
    rw [if_neg full, if_neg fuller]

section Drawn

variable {α : Type} [Scalar α] (extent : Extent α) (pen : Pen α) (data : String)
  (align : Option Alignment)

theorem drawSymbol_of_stands {size : Int} {modules : α}
    (stands : Scalar.Stands modules (max 1 size * symbolModules)) :
    drawSymbol extent pen data size align =
      Drawing.draw (pen.advance (Scalar.min extent.width (modules * dotSize))) .symbol
        [.symbol data (blockX extent align (Scalar.min extent.width (modules * dotSize))) pen.y
          (Scalar.min extent.width (modules * dotSize))] := by
  change Scalar.ofInt _ = _ at stands
  unfold drawSymbol
  rw [stands]

/-- Symbols of two sizes are drawn alike exactly when their sides are the same. -/
theorem drawSymbol_eq_iff {size other : Int} {modules others : α}
    (stands : Scalar.Stands modules (max 1 size * symbolModules))
    (also : Scalar.Stands others (max 1 other * symbolModules)) :
    drawSymbol extent pen data size align = drawSymbol extent pen data other align ↔
      Scalar.min extent.width (modules * dotSize) =
        Scalar.min extent.width (others * dotSize) := by
  rw [drawSymbol_of_stands extent pen data align stands,
    drawSymbol_of_stands extent pen data align also]
  constructor
  · intro same
    have marks := congrArg Drawing.marks same
    exact (Mark.symbol.inj (List.cons.inj marks).1).2.2.2
  · intro same
    rw [same]

end Drawn

theorem stands_sixteen : Scalar.Stands (Scalar.ofNat 400 : Float) (max 1 16 * symbolModules) := by
  have whole : Float.ofInt 400 = Scalar.ofNat 400 := by decide +kernel
  exact whole ▸ floatOfInt_eq_ok (by decide +kernel)

/-- A size above sixteen is drawn like sixteen exactly when the box has no room for more, unless the
size is beyond the numbers. -/
theorem drawSymbol_eq_sixteen_iff {size : Int} (more : 16 < size) (extent : Extent Float)
    (pen : Pen Float) (data : String) (align : Option Alignment) :
    drawSymbol extent pen data size align = drawSymbol extent pen data 16 align ↔
      ¬ largestSide < extent.width ∧
        ∃ modules : Float, Scalar.Stands modules (size * symbolModules) := by
  have kept : max 1 size = size := by omega
  cases fits : (Scalar.ofInt (size * symbolModules) : Except NumberFault Float) with
  | error fault =>
    apply iff_of_false
    · intro same
      rw [drawSymbol_of_stands extent pen data align stands_sixteen] at same
      unfold drawSymbol at same
      rw [kept, fits] at same
      cases congrArg Drawing.fault same
    · rintro ⟨-, modules, stands⟩
      cases fits.symm.trans stands
  | ok modules =>
    have longer : largestSide < modules * dotSize := largestSide_lt more fits
    rw [drawSymbol_eq_iff extent pen data align (kept ▸ fits) stands_sixteen]
    exact (min_eq_min_largestSide_iff longer).trans
      ⟨fun full => ⟨full, modules, fits⟩, fun both => both.1⟩

/-- A size that is not above sixteen is drawn like the one kept between one and sixteen. -/
theorem drawSymbol_of_le {size : Int} (few : size ≤ 16) (extent : Extent Float) (pen : Pen Float)
    (data : String) (align : Option Alignment) :
    drawSymbol extent pen data size align =
      drawSymbol extent pen data (max 1 (min 16 size)) align := by
  have same : max 1 (max 1 (min 16 size)) = max 1 size := by omega
  unfold drawSymbol
  rw [same]

/-- A printer is asked for no more than sixteen dots a module whatever the size, while a page draws a
size as it draws the size kept between one and sixteen exactly when it is not above sixteen, or when
the content box has no room for more than sixteen dots and the size is not beyond the numbers. -/
theorem clamps_symbol_iff (data : String) (size : Int) (setting : Setting Float)
    (extent : Extent Float) (pen : Pen Float) :
    Symbol.encode data size = Symbol.encode data (max 1 (min 16 size)) ∧
      (obey? setting extent pen (.symbol data size) =
          obey? setting extent pen (.symbol data (max 1 (min 16 size))) ↔
        size ≤ 16 ∨ ¬ largestSide < extent.width ∧
          ∃ modules : Float, Scalar.Stands modules (size * symbolModules)) := by
  constructor
  · have again : Symbol.moduleSize (max 1 (min 16 size)) = Symbol.moduleSize size := by
      unfold Symbol.moduleSize
      omega
    unfold Symbol.encode
    rw [again]
  · show some _ = some _ ↔ _
    rw [Option.some.injEq]
    rcases Int.lt_or_le 16 size with more | few
    · have clamped : max 1 (min 16 size) = 16 := by omega
      rw [clamped, drawSymbol_eq_sixteen_iff more]
      exact (or_iff_right (Int.not_le.2 more)).symm
    · exact iff_of_true (drawSymbol_of_le few extent pen data pen.align) (.inl few)

/-- A box two hundred and five points wide shows seventeen dots a module as more than sixteen. -/
theorem not_clamps_symbol_wideBox :
    obey? (Setting.usual : Setting Float) ⟨205, []⟩ .atTop (.symbol "x" 17) ≠
      obey? Setting.usual ⟨205, []⟩ .atTop (.symbol "x" (max 1 (min 16 17))) := by
  intro same
  have heights : ((obey? (Setting.usual : Setting Float) ⟨205, []⟩ .atTop (.symbol "x" 17)).map
      fun drawing => decide (drawing.pen.y < 142)) = some true := by
    rw [same]
    decide +kernel
  revert heights
  decide +kernel

end Page

end Receipt
