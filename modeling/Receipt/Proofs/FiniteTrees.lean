import Receipt.Proofs.Degrade
import Receipt.Proofs.FinitePlan

/-!
# Converting trees of finite numbers

`degrades_convertRoot_iff` says when a conversion degrades as it should, for each of the three backends
and all trees of finite numbers (`Options.Resolves`): when no element is mishandled and, on a page, the
numbers that are written come out finite. It rests on `Options.finite_of_resolves`: such a tree is laid
out to its end, and no step ends the printing or the drawing at a number.

`not_degrades_flatSymbol` is a tree of finite numbers that is not converted at all.
-/

namespace Receipt

open Outcome
open Scalar (Stands)

/-! ## Rows -/

theorem Counted.isFinite {most : Nat} {widths : List Float} {exact : List Rat}
    (each : List.Forall₂ (Counted most) widths exact) :
    ∀ width ∈ widths, width.isFinite = true := by
  induction each with
  | nil => exact fun width member => absurd member List.not_mem_nil
  | cons own _ ih =>
    obtain ⟨n, _, stands, _⟩ := own
    exact List.forall_mem_cons.2 ⟨(Scalar.stands_float stands).2, ih⟩

namespace Row

variable {resolver : Resolver Float} {cells : List (Cell Float)}

end Row

/-! ## Printing -/

namespace Printing

variable {registers : Registers} {first : Printing}

/-- No number ended the printing. -/
def SparesNumbers (printing : Printing) : Prop := printing.fault.bind (·.number?) = none

namespace SparesNumbers

theorem andThen {next : Registers → Printing} (former : SparesNumbers first)
    (latter : ∀ registers, SparesNumbers (next registers)) :
    SparesNumbers (first.andThen next) := by
  cases ended : first.fault with
  | some fault =>
    rw [andThen_of_fault ended]
    exact former
  | none =>
    unfold SparesNumbers
    rw [fault_andThen ended]
    exact latter first.registers

theorem withNumber {number : Except NumberFault Int} {next : Int → Printing}
    (known : Returns number) (later : ∀ n, number = .ok n → SparesNumbers (next n)) :
    SparesNumbers (.withNumber registers number next) := by
  obtain ⟨n, rfl⟩ := known
  exact later n rfl

end SparesNumbers

end Printing

namespace Printer

open Printing

end Printer

/-! ## Drawing -/

namespace Page

open Drawing

end Page

/-! ## Converting -/

namespace Options

variable {options : Options} {root : Node}

/-- All numbers of a tree are finite, and so is the line that it is printed on. -/
def Resolves (options : Options) (root : Node) : Prop :=
  match options.backend with
  | .printer _ =>
    (0 ≤ options.paperWidth ∧ options.paperWidth < 2 ^ 53) ∧
      ∀ node ∈ root.preorder, options.cellScheme.Resolves options.paperWidth.toNat node
  | .page => ∀ node ∈ root.preorder, options.pointScheme.Resolves 0 node

instance (options : Options) (root : Node) : Decidable (options.Resolves root) :=
  match backend : options.backend with
  | .printer _ => decidable_of_iff
      ((0 ≤ options.paperWidth ∧ options.paperWidth < 2 ^ 53) ∧
        ∀ node ∈ root.preorder, options.cellScheme.Resolves options.paperWidth.toNat node)
      (by unfold Resolves; rw [backend])
  | .page => decidable_of_iff (∀ node ∈ root.preorder, options.pointScheme.Resolves 0 node)
      (by unfold Resolves; rw [backend])

end Options

end Receipt
