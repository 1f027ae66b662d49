import Receipt.Proofs.Perform

/-!
# Replaying a plan step by step

The steps of a plan may be marked, here with whatever a proof wants to know of their origin.
`Printer.entries` carries marked steps out and replays the commands of each on a printer at the
other end; an `Entry` is a step with what it left on the paper. Cut into entries, the record of a
receipt is still the record of its commands (`flatMap_imprints_entries`), and each entry is the
sheet of its step (`sheet_of_mem_entries`).

`prints_performAll` is the same without marks, for a plan that is carried out to its end.
-/

namespace Receipt

/-- A step that was carried out, its mark, and what it left on the paper. -/
structure Entry (σ α : Type) where
  mark : σ
  step : Step α
  imprints : List Imprint

variable {σ α : Type} [Scalar α]

namespace Printer

/-- Carries out marked steps up to the first fault, replaying the commands of each. -/
def entries (printer : Printer α) (registers : Registers) (device : Device) :
    List (σ × Step α) → List (Entry σ α)
  | [] => []
  | (mark, step) :: steps =>
    let printing := printer.perform registers step
    ⟨mark, step, device.record printer.protocol printing.commands⟩ ::
      match printing.fault with
      | some _ => []
      | none =>
        printer.entries printing.registers (device.after printer.protocol printing.commands) steps

/-- The entries of a plan, one behind the other, are the record of its commands. -/
theorem flatMap_imprints_entries (printer : Printer α) (registers : Registers) (device : Device)
    (steps : List (σ × Step α)) :
    (printer.entries registers device steps).flatMap (·.imprints) =
      device.record printer.protocol
        (printer.performAll registers (steps.map (·.2))).commands := by
  induction steps generalizing registers device with
  | nil => rfl
  | cons marked steps ih =>
    obtain ⟨mark, step⟩ := marked
    rw [entries, List.flatMap_cons, List.map_cons, performAll]
    cases ended : (printer.perform registers step).fault with
    | some fault =>
      rw [Printing.andThen_of_fault ended]
      simp
    | none =>
      rw [Printing.commands_andThen ended, Device.record_append, ← ih]

/-- The mark and the step of an entry stand in the plan. -/
theorem mem_of_mem_entries (printer : Printer α) {registers : Registers} {device : Device}
    {steps : List (σ × Step α)} {entry : Entry σ α}
    (member : entry ∈ printer.entries registers device steps) :
    (entry.mark, entry.step) ∈ steps := by
  induction steps generalizing registers device with
  | nil => cases member
  | cons marked steps ih =>
    obtain ⟨mark, step⟩ := marked
    rw [entries] at member
    rcases List.mem_cons.1 member with rfl | later
    · exact List.mem_cons_self ..
    · cases ended : (printer.perform registers step).fault with
      | some fault =>
        rw [ended] at later
        cases later
      | none =>
        rw [ended] at later
        exact List.mem_cons_of_mem _ (ih later)

/-- What an entry holds is the sheet of its step, in the weight that was in force before it. -/
theorem sheet_of_mem_entries (printer : Printer α) {registers : Registers} {device : Device}
    (mirrors : Mirrors registers device) {steps : List (σ × Step α)}
    (printable : ∀ marked ∈ steps, marked.2.Printable) {entry : Entry σ α}
    (member : entry ∈ printer.entries registers device steps) :
    ∃ weight, entry.imprints = (Sheet.ofStep printer weight entry.step).imprints := by
  induction steps generalizing registers device with
  | nil => cases member
  | cons marked steps ih =>
    obtain ⟨mark, step⟩ := marked
    have prints := prints_perform printer mirrors (printable _ (List.mem_cons_self ..))
    rw [entries] at member
    rcases List.mem_cons.1 member with rfl | later
    · exact ⟨registers.weight, prints.record⟩
    · cases ended : (printer.perform registers step).fault with
      | some fault =>
        rw [ended] at later
        cases later
      | none =>
        rw [ended] at later
        exact ih prints.mirrors (fun marked inside => printable _ (List.mem_cons_of_mem _ inside))
          later

end Printer

namespace Sheet

/-- The sheets of steps, one behind the other, each in the weight that the one before it leaves. -/
def ofSteps (printer : Printer α) (weight : Bool) : List (Step α) → Sheet
  | [] => blank weight
  | step :: steps =>
    let first := ofStep printer weight step
    let rest := ofSteps printer first.weight steps
    ⟨first.imprints ++ rest.imprints, rest.weight⟩

end Sheet

/-- A plan is carried out to its end when its first step is, and the others behind it. -/
theorem Printer.fault_performAll_cons {printer : Printer α} {registers : Registers} {step : Step α}
    {steps : List (Step α)} (ended : (printer.performAll registers (step :: steps)).fault = none) :
    (printer.perform registers step).fault = none ∧
      (printer.performAll (printer.perform registers step).registers steps).fault = none := by
  rw [performAll] at ended
  cases goesOn : (printer.perform registers step).fault with
  | some fault =>
    rw [Printing.andThen_of_fault goesOn, goesOn] at ended
    cases ended
  | none =>
    rw [Printing.fault_andThen goesOn] at ended
    exact ⟨rfl, ended⟩

/-- A plan that is carried out to its end prints its sheets. -/
theorem prints_performAll (printer : Printer α) {registers : Registers} {device : Device}
    (mirrors : Mirrors registers device) {steps : List (Step α)}
    (printable : ∀ step ∈ steps, step.Printable)
    (ended : (printer.performAll registers steps).fault = none) :
    Prints printer.protocol device (printer.performAll registers steps)
      (.ofSteps printer registers.weight steps) := by
  induction steps generalizing registers device with
  | nil => exact Prints.done mirrors
  | cons step steps ih =>
    have first := prints_perform printer mirrors (printable step (List.mem_cons_self ..))
    obtain ⟨goesOn, ended⟩ := Printer.fault_performAll_cons ended
    have rest := ih first.mirrors
      (fun step inside => printable step (List.mem_cons_of_mem _ inside)) ended
    rw [first.weight] at rest
    exact first.andThen goesOn (fun registers => printer.performAll registers steps) rest

namespace Printer

/-- The fault at the end of a layout sends nothing. -/
theorem commands_print (printer : Printer α) (registers : Registers) (layout : Layout α) :
    (printer.print registers layout).commands =
      (printer.performAll registers layout.steps).commands := by
  unfold print
  cases ended : (printer.performAll registers layout.steps).fault with
  | some fault => rw [Printing.andThen_of_fault ended]
  | none =>
    rw [Printing.commands_andThen ended]
    cases layout.fault with
    | some fault => exact List.append_nil _
    | none => exact List.append_nil _

theorem fault_performAll_of_print {printer : Printer α} {registers : Registers}
    {layout : Layout α} (ended : (printer.print registers layout).fault = none) :
    (printer.performAll registers layout.steps).fault = none := by
  unfold print at ended
  cases carriedOut : (printer.performAll registers layout.steps).fault with
  | some fault =>
    rw [Printing.andThen_of_fault carriedOut, carriedOut] at ended
    cases ended
  | none => rfl

end Printer

end Receipt
