import Receipt.Proofs.Heard
import Receipt.Proofs.LeafText

/-!
# Registers are set when they change, and before a text

A `Register` is one of the three things that a printer remembers: the alignment, the character size
and the weight. `Register.NeverRepeats` says of commands that between two resets no setting of a
register has the value of the setting before it, whatever lies between the two. `Register.SetSince`
says that the register has been set since the last reset.

`sparesSettings_printReceipt` says the first of all commands of a receipt, for each register, and the
second of the commands in front of any text of a textual element. Both come from what is heard of
the printing: a setting that is in order differs from the known value, and a register with a known
value was set since the last reset.
-/

namespace Receipt

/-- One of the things that a printer remembers: which commands set it, and what is known of it. -/
structure Register (β : Type) where
  sent? : Command → Option β
  known : Registers → Option β
  sent?_init : sent? .init = none
  known_unknown : known .unknown = none
  /-- What is known is what was set last; only a reset takes it away. -/
  known_behind : ∀ registers command, command ≠ .init →
    known (command.registersBehind registers) = (sent? command).or (known registers)
  /-- A setting that changes the register differs from the known value. -/
  ne_known : ∀ registers command value, command.Changes registers →
    sent? command = some value → known registers ≠ some value

namespace Register

/-- The alignment. -/
def align : Register Alignment where
  sent?
    | .align align => some align
    | _ => none
  known registers := registers.align
  sent?_init := rfl
  known_unknown := rfl
  known_behind registers command noReset := by
    cases command with
    | init => exact absurd rfl noReset
    | align _ | characterSize _ _ | emphasis _ | lineSpacing _ | text _ | lineFeed _ | feed _
    | raster _ _ _ | symbol _ _ | cut _ _ => rfl
  ne_known registers command value changes sent := by
    cases command with
    | align side =>
      obtain rfl := Option.some.inj sent
      exact changes
    | init | characterSize _ _ | emphasis _ | lineSpacing _ | text _ | lineFeed _ | feed _
    | raster _ _ _ | symbol _ _ | cut _ _ => cases sent

/-- The character size, without its bold bit. -/
def size : Register CharSize where
  sent?
    | .characterSize size _ => some size
    | _ => none
  known registers := registers.size
  sent?_init := rfl
  known_unknown := rfl
  known_behind registers command noReset := by
    cases command with
    | init => exact absurd rfl noReset
    | align _ | characterSize _ _ | emphasis _ | lineSpacing _ | text _ | lineFeed _ | feed _
    | raster _ _ _ | symbol _ _ | cut _ _ => rfl
  ne_known registers command value changes sent := by
    cases command with
    | characterSize size bold =>
      obtain rfl := Option.some.inj sent
      exact changes
    | init | align _ | emphasis _ | lineSpacing _ | text _ | lineFeed _ | feed _
    | raster _ _ _ | symbol _ _ | cut _ _ => cases sent

/-- The weight. -/
def weight : Register Bool where
  sent?
    | .emphasis bold => some bold
    | _ => none
  known registers := registers.bold
  sent?_init := rfl
  known_unknown := rfl
  known_behind registers command noReset := by
    cases command with
    | init => exact absurd rfl noReset
    | align _ | characterSize _ _ | emphasis _ | lineSpacing _ | text _ | lineFeed _ | feed _
    | raster _ _ _ | symbol _ _ | cut _ _ => rfl
  ne_known registers command value changes sent := by
    cases command with
    | emphasis bold =>
      obtain rfl := Option.some.inj sent
      exact changes
    | init | align _ | characterSize _ _ | lineSpacing _ | text _ | lineFeed _ | feed _
    | raster _ _ _ | symbol _ _ | cut _ _ => cases sent

variable {β : Type}

/-- Two settings without a reset or another setting between them have different values. -/
def NeverRepeats (register : Register β) (commands : List Command) : Prop :=
  ∀ before first between second behind,
    commands = before ++ first :: between ++ second :: behind → .init ∉ between →
    (∀ command ∈ between, register.sent? command = none) →
    ∀ value, register.sent? first = some value → register.sent? second ≠ some value

/-- The register has been set since the last reset. -/
def SetSince (register : Register β) (commands : List Command) : Prop :=
  ∃ earlier command later, commands = earlier ++ command :: later ∧
    (register.sent? command).isSome ∧ .init ∉ later

variable (register : Register β) {heard : Heard} {commands : List Command}

theorem ne_init_of_sent? {command : Command} {value : β}
    (sent : register.sent? command = some value) : command ≠ .init := by
  rintro rfl
  rw [register.sent?_init] at sent
  cases sent

/-- Where the register is not touched, what is known of it stays. -/
theorem known_after_untouched (noReset : .init ∉ commands)
    (untouched : ∀ command ∈ commands, register.sent? command = none) :
    register.known (heard.after commands).registers = register.known heard.registers := by
  induction commands generalizing heard with
  | nil => rfl
  | cons command commands ih =>
    obtain ⟨other, noReset⟩ := not_or.1 fun either => noReset (List.mem_cons.2 either)
    have own := untouched command (List.mem_cons_self ..)
    have step := register.known_behind heard.registers command fun same => other same.symm
    rw [own, Option.none_or] at step
    rw [Heard.after_cons, ← step]
    exact ih noReset fun command member => untouched command (List.mem_cons_of_mem _ member)

/-- Without a reset a known register stays known. -/
theorem isSome_known_after (known : (register.known heard.registers).isSome)
    (noReset : .init ∉ commands) :
    (register.known (heard.after commands).registers).isSome := by
  induction commands generalizing heard with
  | nil => exact known
  | cons command commands ih =>
    obtain ⟨other, noReset⟩ := not_or.1 fun either => noReset (List.mem_cons.2 either)
    refine ih ?_ noReset
    have step := register.known_behind heard.registers command fun same => other same.symm
    show (register.known (command.registersBehind heard.registers)).isSome
    rw [step, Option.isSome_or, known]
    exact Bool.or_true _

/-- Commands in order never set a register to the value it has. -/
theorem neverRepeats_of_admitsAll (admits : heard.AdmitsAll commands) :
    register.NeverRepeats commands := by
  intro before first between second behind place noReset untouched value sent same
  have changes := (admits.at place).changes
  apply register.ne_known _ second value changes same
  rw [Heard.after_append, Heard.after_cons, register.known_after_untouched noReset untouched]
  have step := register.known_behind (heard.after before).registers first
    (register.ne_init_of_sent? sent)
  rw [sent, Option.some_or] at step
  exact step

/-- A register that is known, and was not at first, has been set since the last reset. -/
theorem setSince_of_known (unknown : register.known heard.registers = none)
    (known : (register.known (heard.after commands).registers).isSome) :
    register.SetSince commands := by
  induction commands using List.reverseRecOn with
  | nil =>
    rw [Heard.after_nil, unknown] at known
    cases known
  | append_singleton commands last ih =>
    rw [Heard.after_append] at known
    by_cases reset : last = .init
    · subst reset
      have lost : register.known Registers.unknown = none := register.known_unknown
      rw [show ((heard.after commands).after [.init]).registers = .unknown from rfl, lost] at known
      cases known
    have step : register.known ((heard.after commands).after [last]).registers = _ :=
      register.known_behind (heard.after commands).registers last reset
    cases sent : register.sent? last with
    | some value =>
      refine ⟨commands, last, [], rfl, ?_, List.not_mem_nil⟩
      rw [sent]
      rfl
    | none =>
      rw [step, sent, Option.none_or] at known
      obtain ⟨earlier, command, later, rfl, isSet, noReset⟩ := ih known
      refine ⟨earlier, command, later ++ [last], by rw [List.append_assoc]; rfl, isSet, ?_⟩
      intro member
      rcases List.mem_append.1 member with inside | ended
      · exact noReset inside
      · exact reset (List.mem_singleton.1 ended).symm

end Register

/-! ## The settings in front of a text -/

namespace Registers

/-- Every register is known. -/
structure AllKnown (registers : Registers) : Prop where
  align : (Register.align.known registers).isSome
  size : (Register.size.known registers).isSome
  weight : (Register.weight.known registers).isSome

theorem allKnown_after (registers : Registers) (align : Alignment) (size : CharSize)
    (weight : Bool) : (registers.after align size (some weight)).AllKnown := ⟨rfl, rfl, rfl⟩

end Registers

/-- Every register has been set since the last reset. -/
structure AllSetSince (commands : List Command) : Prop where
  align : Register.align.SetSince commands
  size : Register.size.SetSince commands
  weight : Register.weight.SetSince commands

theorem allSetSince_of_allKnown {commands : List Command}
    (known : (Heard.nothing.after commands).registers.AllKnown) : AllSetSince commands where
  align := Register.align.setSince_of_known rfl known.align
  size := Register.size.setSince_of_known rfl known.size
  weight := Register.weight.setSince_of_known rfl known.weight

namespace Heard

theorem allKnown_after {heard : Heard} {commands : List Command}
    (known : heard.registers.AllKnown) (noReset : .init ∉ commands) :
    (heard.after commands).registers.AllKnown where
  align := Register.align.isSome_known_after known.align noReset
  size := Register.size.isSome_known_after known.size noReset
  weight := Register.weight.isSome_known_after known.weight noReset

end Heard

namespace Printer

theorem init_not_mem_lines (lines : List String) :
    .init ∉ lines.flatMap lineCommands := by
  intro member
  rcases cases_of_mem_lines member with ⟨line, same⟩ | same
  · cases same
  · cases same

variable {α : Type} [Scalar α]

/-- What does not stand among the first commands stands behind them. -/
theorem exists_between_of_not_mem {first second before behind : List Command} {command : Command}
    (place : first ++ second = before ++ command :: behind) (absent : command ∉ first) :
    ∃ between, before = first ++ between ∧ second = between ++ command :: behind := by
  rcases List.append_eq_append_iff.1 place with ⟨between, parts, rest⟩ | ⟨between, parts, rest⟩
  · exact ⟨between, parts, rest⟩
  · cases between with
    | nil =>
      rw [List.append_nil] at parts
      exact ⟨[], by rw [parts, List.append_nil], rest.symm⟩
    | cons other between =>
      obtain ⟨rfl, _⟩ := List.cons.inj rest
      refine absurd ?_ absent
      rw [parts]
      exact List.mem_append_right _ (List.mem_cons_self ..)

/-- In front of each text that a text element sends, every register is known. -/
theorem allKnown_printText {registers : Registers} {content : String} {look : TextLook α}
    {extent : Extent α} {before behind : List Command} {shown : String}
    (place : (printText registers content look extent).commands = before ++ .text shown :: behind) :
    ((⟨registers, false⟩ : Heard).after before).registers.AllKnown := by
  have sent : .text shown ∈ (printText registers content look extent).commands := by
    rw [place]
    exact List.mem_append_right _ (List.mem_cons_self ..)
  unfold printText at place sent
  split at place
  · rename_i empty
    rw [if_pos empty, Printing.commands_send] at sent
    cases List.mem_singleton.1 sent
  · rename_i full
    rw [if_neg full] at sent
    cases known : columns extent look.size with
    | error fault =>
      rw [known] at sent
      cases sent
    | ok columns =>
      simp only [known] at place
      have settings := InOrder.setAtStart registers look.align look.size (some look.bold)
      rw [Printing.commands_andThen rfl, Printing.commands_send] at place
      have absent : .text shown ∉
          (Printing.set registers look.align look.size (some look.bold)).commands := by
        intro member
        rw [Printing.set, Printing.commands_send] at member
        cases text?_of_mem_settings member
      obtain ⟨between, rfl, lines⟩ := exists_between_of_not_mem place absent
      rw [Heard.after_append, settings.behind]
      apply Heard.allKnown_after (registers.allKnown_after _ _ _)
      intro reset
      apply init_not_mem_lines (Text.wrapText content columns)
      rw [lines]
      exact List.mem_append_left _ reset

/-- What a delivery sends, it sends behind what was heard of the deliveries before it. -/
theorem heard_deliveries (printer : Printer α) {σ : Type} {registers : Registers}
    {steps : List (σ × Step α)} {earlier later : List (Delivery σ α)} {delivery : Delivery σ α}
    (place : printer.deliveries registers steps = earlier ++ delivery :: later) :
    (delivery.mark, delivery.step) ∈ steps ∧
      ∃ before, (⟨registers, false⟩ : Heard).after (earlier.flatMap (·.commands)) =
          ⟨before, false⟩ ∧
        delivery.commands = (printer.perform before delivery.step).commands := by
  induction steps generalizing registers earlier with
  | nil =>
    cases earlier with
    | nil => cases place
    | cons first earlier => cases place
  | cons marked steps ih =>
    obtain ⟨mark, step⟩ := marked
    rw [deliveries] at place
    cases earlier with
    | nil =>
      obtain ⟨rfl, _⟩ := List.cons.inj place
      exact ⟨List.mem_cons_self .., registers, rfl, rfl⟩
    | cons first earlier =>
      obtain ⟨rfl, rest⟩ := List.cons.inj place
      cases goesOn : (printer.perform registers step).fault with
      | some fault =>
        rw [goesOn] at rest
        cases earlier with
        | nil => cases rest
        | cons second earlier => cases rest
      | none =>
        rw [goesOn] at rest
        obtain ⟨member, before, known, sent⟩ := ih rest
        refine ⟨List.mem_cons_of_mem _ member, before, ?_, sent⟩
        rw [List.flatMap_cons, Heard.after_append, (InOrder.perform printer registers step).behind]
        exact known

end Printer

/-! ## The registers of a receipt -/

/-- What is sent first stands in front of what is sent behind it. -/
theorem Printing.commands_prefix_andThen (first : Printing) (next : Registers → Printing) :
    first.commands <+: (first.andThen next).commands := by
  cases ended : first.fault with
  | some fault => exact ⟨[], by rw [List.append_nil, andThen_of_fault ended]⟩
  | none => exact ⟨_, (commands_andThen ended next).symm⟩

section

variable {α : Type} [Scalar α]

/-- A textual element asks for its text, and as a root for the reset in front of it. -/
theorem Scheme.Places.eq_text {scheme : Scheme α} {pageWidth : α} {site : Site} {step : Step α}
    (places : scheme.Places pageWidth site step)
    (textual : Node.isTextual scheme.naming site.node.type) :
    step = .reset ∨ ∃ content look extent, step = .text content look extent := by
  have noKind {kind : Kind} (other : kind.isTextual = false) :
      site.node.kind? scheme.naming ≠ some kind := by
    intro same
    unfold Node.kind? at same
    unfold Node.isTextual at textual
    rw [same] at textual
    simp only at textual
    rw [other] at textual
    cases textual
  cases places with
  | reset => exact Or.inl rfl
  | text kind style box => exact Or.inr ⟨_, _, _, rfl⟩
  | row kind content box => exact absurd kind (noKind rfl)
  | divider kind box resolved asked =>
    rcases kind with page | view
    · exact absurd page (noKind rfl)
    · exact absurd view (noKind rfl)
  | space kind amount =>
    rcases kind with page | view
    · exact absurd page (noKind rfl)
    · exact absurd view (noKind rfl)
  | picture kind aligned path framed extent => exact absurd kind (noKind rfl)
  | symbol kind aligned size path extent => exact absurd kind (noKind rfl)
  | sourceless kind path => exact absurd kind (noKind rfl)

/-- Commands that repeat no setting. -/
structure SparesSettings (commands : List Command) : Prop where
  align : Register.align.NeverRepeats commands
  size : Register.size.NeverRepeats commands
  weight : Register.weight.NeverRepeats commands

/-- Every text that is sent for a textual element comes behind a setting of each register since the
last reset. -/
def SetsBeforeTexts (naming : Naming) (deliveries : List (Delivery Site α)) : Prop :=
  ∀ earlier delivery later, deliveries = earlier ++ delivery :: later →
    Node.isTextual naming delivery.mark.node.type →
    ∀ before content behind, delivery.commands = before ++ .text content :: behind →
      AllSetSince (earlier.flatMap (·.commands) ++ before)

theorem setsBeforeTexts_deliveries (options : Options) (protocol : Protocol) (pageWidth : α)
    (root : Node) :
    SetsBeforeTexts options.naming (options.deliveries protocol pageWidth root) := by
  intro earlier delivery later place textual before content behind sends
  obtain ⟨member, registers, known, sent⟩ := Printer.heard_deliveries _ place
  have places : options.cellScheme.Places pageWidth delivery.mark delivery.step :=
    (Scheme.placed_trace rfl root (.start pageWidth) _ member).2
  apply allSetSince_of_allKnown
  rw [Heard.after_append]
  unfold Heard.nothing
  rw [known]
  rw [sent] at sends
  rcases places.eq_text textual with reset | ⟨content, look, extent, text⟩
  · rw [reset] at sends
    have inside : .text content ∈ (Printer.perform (options.printer protocol) registers
        (.reset : Step α)).commands := by
      rw [sends]
      exact List.mem_append_right _ (List.mem_cons_self ..)
    unfold Printer.perform at inside
    rw [Printing.commands_send] at inside
    rcases List.mem_cons.1 inside with same | spacing
    · cases same
    · obtain ⟨dots, _, same⟩ := List.mem_map.1 spacing
      cases same
  · rw [text] at sends
    exact Printer.allKnown_printText sends

/-- A receipt repeats no setting of a register, whatever the tree, the protocol and the options; its
tree is printed first, delivery by delivery, and each text of a textual element comes behind a setting of
every register. -/
theorem sparesSettings_printReceipt (options : Options) (protocol : Protocol) (pageWidth : α)
    (root : Node) :
    let receipt := printReceipt options protocol pageWidth root
    let deliveries := options.deliveries protocol pageWidth root
    SparesSettings receipt.commands ∧
      deliveries.flatMap (·.commands) <+: receipt.commands ∧
      SetsBeforeTexts options.naming deliveries := by
  intro receipt deliveries
  have admits := (inOrder_printReceipt options protocol pageWidth root).admits
  refine ⟨⟨?_, ?_, ?_⟩, ?_, setsBeforeTexts_deliveries options protocol pageWidth root⟩
  · exact Register.align.neverRepeats_of_admitsAll admits
  · exact Register.size.neverRepeats_of_admitsAll admits
  · exact Register.weight.neverRepeats_of_admitsAll admits
  · have all : deliveries.flatMap (·.commands) =
        (printTree options protocol pageWidth root).commands :=
      commands_deliveries options protocol pageWidth root
    rw [all]
    exact Printing.commands_prefix_andThen _ _

end

end Receipt
