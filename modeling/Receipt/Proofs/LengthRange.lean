import Receipt.Proofs.Outcome
import Receipt.Style.Basic
import Receipt.Value.Printed

/-!
# Which values can be read as lengths

Reading a length never fails but for a whole number beyond the largest float: whatever is no length
is read as none. Then it is written out for the log, and all whole numbers in it have to be short enough
for that (`Value.isLoggable`).
-/

namespace Receipt

open Outcome

/-- A whole number is one that has a float. -/
def Value.InRange (value : Value) : Prop :=
  ∀ number, value = .int number → (Float.ofInt number).isFinite = true

instance (value : Value) : Decidable value.InRange :=
  match value with
  | .int number =>
    decidable_of_iff ((Float.ofInt number).isFinite = true)
      ⟨fun finite _ same => Value.int.inj same ▸ finite, fun inRange => inRange number rfl⟩
  | .null | .bool _ | .float _ | .text _ | .bytes _ | .picture _ | .samples _ | .member _ | .list _
  | .mapping _ | .element _ _ _ _ | .shared _ => isTrue nofun

theorem floatOfInt_eq_ok {number : Int} (finite : (Float.ofInt number).isFinite = true) :
    floatOfInt number = .ok (Float.ofInt number) := if_pos finite

namespace Length

theorem isOk_ofValue_iff {value : Value} :
    (∃ pixels : Option Float, ofValue value = .ok pixels) ↔ value.InRange := by
  cases value with
  | int number =>
    constructor
    · intro ⟨pixels, read⟩ other same
      obtain rfl := Value.int.inj same
      cases finite : (Float.ofInt number).isFinite with
      | true => rfl
      | false =>
        have refused : floatOfInt number = .error .outOfRange := by
          unfold floatOfInt
          simp only [finite]
          rfl
        have failed : (ofValue (.int number) : Except NumberFault (Option Float)) =
            .error .outOfRange := congrArg (Except.map some) refused
        rw [failed] at read
        cases read
    · intro inRange
      have taken := floatOfInt_eq_ok (inRange number rfl)
      exact ⟨some (Float.ofInt number), congrArg (Except.map some) taken⟩
  | null | bool _ | float _ | text _ | bytes _ | picture _ | samples _ | member _ | list _
  | mapping _ | element _ _ _ _ | shared _ => exact ⟨fun _ => nofun, fun _ => ⟨_, rfl⟩⟩

end Length

/-! ## What is no length -/

namespace Value

/-- Whether a value is a whole number, or else one that can be written out. -/
def isLoggable : Value → Bool
  | int _ => true
  | value => value.isWritten

theorem returns_written_iff {value : Value} : Returns value.written ↔ value.isWritten = true := by
  unfold written
  split
  · next short => exact iff_of_true (returns_ok _) short
  · next long => exact iff_of_false (not_returns_error _) long

theorem isLoggable_of_read {α : Type} [Scalar α] {value : Value} {pixels : α}
    (read : Length.ofValue value = .ok (some pixels)) : value.isLoggable = true := by
  cases value with
  | int number | float number | text content => rfl
  | _ => cases read

theorem isLoggable_of_share {α : Type} [Scalar α] {value : Value} {share : α}
    (read : Percentage.ofValue? value = some share) : value.isLoggable = true := by
  cases value with
  | text content => rfl
  | _ => cases read

theorem isLoggable_of_not_isWidth {value : Value} (absent : ¬ isWidth value = true) :
    value.isLoggable = true := by
  cases value with
  | null | text content => rfl
  | _ => exact absurd rfl absent

/-- A value that is no length is written out when it is none of the whole numbers. -/
theorem returns_written_of_unread {α : Type} [Scalar α] {value : Value}
    (unread : (Length.ofValue value : Except NumberFault (Option α)) = .ok none) :
    Returns value.written ↔ value.isLoggable = true := by
  rw [returns_written_iff]
  cases value with
  | int number =>
    obtain ⟨_, _, nothing⟩ := map_eq_ok_iff.1 unread
    cases nothing
  | _ => rfl

end Value

end Receipt
