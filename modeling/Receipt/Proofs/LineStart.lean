import Receipt.Proofs.Heard

/-!
# Commands that need the start of a line

A printer acts on an alignment, a reset, a line spacing, a picture, a symbol or a cut only where no
line has been begun. `LeavesLineOpen` says of the commands sent so far that a text was begun and not
ended; `StartsLines` that none of those commands comes then, and that no line is left open at the
end.

`startsLines_printReceipt` is the main statement. It holds of all commands of a receipt, also of one
that ends early at a fault.
-/

namespace Receipt

/-- A text that is not empty has been sent, and no line feed behind it. -/
def LeavesLineOpen (commands : List Command) : Prop :=
  ∃ earlier content later, commands = earlier ++ .text content :: later ∧ content ≠ "" ∧
    ∀ lines, 0 < lines → .lineFeed lines ∉ later

/-- Nothing that needs the start of a line comes inside one, and every line is ended. -/
structure StartsLines (commands : List Command) : Prop where
  starts : ∀ before command behind, commands = before ++ command :: behind →
    command.needsLineStart → ¬ LeavesLineOpen before
  ended : ¬ LeavesLineOpen commands

namespace Heard

/-- An open line stays open while no line feed is heard. -/
theorem isOpen_of_no_lineFeed {heard : Heard} {commands : List Command}
    (opened : heard.isOpen = true) (unfed : ∀ lines, 0 < lines → .lineFeed lines ∉ commands) :
    (heard.after commands).isOpen = true := by
  induction commands generalizing heard with
  | nil => exact opened
  | cons command commands ih =>
    apply ih
    · cases command with
      | lineFeed lines =>
        have few : lines ≤ 0 := by
          by_contra many
          exact unfed lines (by omega) (List.mem_cons_self ..)
        show (heard.isOpen && decide (lines ≤ 0)) = true
        rw [opened, decide_eq_true few]
        rfl
      | text content =>
        show (heard.isOpen || !content.isEmpty) = true
        rw [opened]
        rfl
      | init | align _ | characterSize _ _ | emphasis _ | lineSpacing _ | feed _ | raster _ _ _
      | symbol _ _ | cut _ _ => exact opened
    · intro lines some member
      exact unfed lines some (List.mem_cons_of_mem _ member)

/-- A line that is left open is heard to be open. -/
theorem isOpen_of_leavesLineOpen {heard : Heard} {commands : List Command}
    (leaves : LeavesLineOpen commands) : (heard.after commands).isOpen = true := by
  obtain ⟨earlier, content, later, rfl, shows, unfed⟩ := leaves
  rw [after_append, after_cons]
  apply isOpen_of_no_lineFeed _ unfed
  have begun : content.isEmpty = false := by
    rw [Bool.eq_false_iff]
    exact fun empty => shows (String.isEmpty_iff.1 empty)
  show ((heard.after earlier).isOpen || !content.isEmpty) = true
  rw [begun]
  exact Bool.or_true _

end Heard

/-- Printing in order from the start of a line to the start of a line. -/
theorem InOrder.startsLines {heard : Heard} {printing : Printing}
    (inOrder : InOrder heard printing false) : StartsLines printing.commands where
  starts before command behind place needs leaves := by
    have admitted := inOrder.admits.at place
    have closed := admitted.atLineStart needs
    rw [Heard.isOpen_of_leavesLineOpen leaves] at closed
    cases closed
  ended leaves := by
    have closed : (heard.after printing.commands).isOpen = true :=
      Heard.isOpen_of_leavesLineOpen leaves
    rw [inOrder.behind] at closed
    cases closed

/-- Nothing that needs the start of a line is sent inside one, whatever the tree, the protocol and
the options, and no line is left open at the end of a receipt. -/
theorem startsLines_printReceipt {α : Type} [Scalar α] (options : Options) (protocol : Protocol)
    (pageWidth : α) (root : Node) :
    StartsLines (printReceipt options protocol pageWidth root).commands :=
  (inOrder_printReceipt options protocol pageWidth root).startsLines

end Receipt
