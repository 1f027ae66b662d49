import Receipt.Proofs.Faithful

/-!
# What each step sends

`Printer.deliveries` carries marked steps out and keeps, for each, the commands that it sent: a
`Delivery`. One behind the other they are all the commands of the run (`commands_deliveries`), and a
run that comes to its end has one delivery for every step of the plan (`deliveries_of_ended`).
`Options.deliveries` are those of a tree.
-/

namespace Receipt

/-- A step that was carried out, its mark, and the commands that it sent. -/
structure Delivery (σ α : Type) where
  mark : σ
  step : Step α
  commands : List Command

variable {σ α : Type} [Scalar α]

namespace Printer

/-- Carries out marked steps up to the first fault. -/
def deliveries (printer : Printer α) (registers : Registers) :
    List (σ × Step α) → List (Delivery σ α)
  | [] => []
  | (mark, step) :: steps =>
    let printing := printer.perform registers step
    ⟨mark, step, printing.commands⟩ ::
      match printing.fault with
      | some _ => []
      | none => printer.deliveries printing.registers steps

/-- The commands of the deliveries are those of the run. -/
theorem commands_deliveries (printer : Printer α) (registers : Registers)
    (steps : List (σ × Step α)) :
    (printer.deliveries registers steps).flatMap (·.commands) =
      (printer.performAll registers (steps.map (·.2))).commands := by
  induction steps generalizing registers with
  | nil => rfl
  | cons marked steps ih =>
    obtain ⟨mark, step⟩ := marked
    rw [deliveries, List.flatMap_cons, List.map_cons, performAll]
    cases ended : (printer.perform registers step).fault with
    | some fault =>
      rw [Printing.andThen_of_fault ended]
      simp
    | none => rw [Printing.commands_andThen ended, ← ih]

end Printer

namespace Delivery

/-- A delivery is what a marked step sends when it is carried out without a fault. -/
def Of (printer : Printer α) (marked : σ × Step α) (delivery : Delivery σ α) : Prop :=
  delivery.mark = marked.1 ∧ delivery.step = marked.2 ∧
    ∃ registers, (printer.perform registers marked.2).fault = none ∧
      delivery.commands = (printer.perform registers marked.2).commands

end Delivery

/-- A plan that is carried out to its end has a delivery for each of its steps. -/
theorem Printer.deliveries_of_ended (printer : Printer α) {registers : Registers}
    {steps : List (σ × Step α)}
    (ended : (printer.performAll registers (steps.map (·.2))).fault = none) :
    List.Forall₂ (Delivery.Of printer) steps (printer.deliveries registers steps) := by
  induction steps generalizing registers with
  | nil => exact List.Forall₂.nil
  | cons marked steps ih =>
    obtain ⟨mark, step⟩ := marked
    obtain ⟨goesOn, later⟩ := Printer.fault_performAll_cons ended
    rw [deliveries]
    simp only [goesOn]
    exact List.Forall₂.cons ⟨rfl, rfl, registers, goesOn, rfl⟩ (ih later)

namespace Options

/-- The deliveries of a tree that is printed, each marked with the site that asked for it. -/
def deliveries (options : Options) (protocol : Protocol) (pageWidth : α) (root : Node) :
    List (Delivery Site α) :=
  (options.printer protocol).deliveries .unknown
    (options.cellScheme.trace (.start pageWidth) root).steps

end Options

/-- The deliveries of a tree are all that is sent for it. -/
theorem commands_deliveries (options : Options) (protocol : Protocol) (pageWidth : α)
    (root : Node) :
    (options.deliveries protocol pageWidth root).flatMap (·.commands) =
      (printTree options protocol pageWidth root).commands := by
  rw [printTree_eq, Printer.commands_print]
  exact Printer.commands_deliveries ..

/-- A plan that is printed to its end was laid out to its end. -/
theorem Printer.fault_layout_of_print {printer : Printer α} {registers : Registers}
    {layout : Layout α} (ended : (printer.print registers layout).fault = none) :
    layout.fault = none := by
  have carriedOut := Printer.fault_performAll_of_print ended
  unfold Printer.print at ended
  rw [Printing.fault_andThen carriedOut] at ended
  cases known : layout.fault with
  | none => rfl
  | some fault =>
    rw [known] at ended
    cases ended

end Receipt
