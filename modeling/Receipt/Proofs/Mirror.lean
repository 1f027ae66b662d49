import Receipt.Proofs.Sheet

/-!
# The registers mirror the printer

Registers are only set when they change, so what is printed rests on `Mirrors`: a register with a
known value tells the truth about the printer. Nothing is known of a printer that has just been
reset, and a printer without a known size may print in any weight; once the size is known the weight
is, because the size command rewrites it.

`Prints` says of some printing that it leaves a sheet on the paper and that the registers mirror the
printer again behind it. Printing is built by `andThen`, and so are the laws of `Prints`; the main
ones are `Prints.andThen` and `Prints.set_andThen`.
-/

namespace Receipt

/-- The registers tell the truth about the printer. -/
structure Mirrors (registers : Registers) (device : Device) : Prop where
  align : ∀ align, registers.align = some align → device.face.align = align
  size : ∀ size, registers.size = some size → device.face.size = size
  printable : ∀ size, registers.size = some size → size.Printable
  bold : ∀ bold, registers.bold = some bold → device.face.bold = bold
  /-- The size command has set the weight as well. -/
  weight : registers.size.isSome → device.face.bold = registers.bold.getD false

namespace Registers

/-- The weight in force as far as the registers know; a printer that is reset prints light. -/
def weight (registers : Registers) : Bool := registers.bold.getD false

/-- There is one setting for each register at most. -/
theorem cases_of_mem_settings (registers : Registers) {align : Alignment} {size : CharSize}
    {bold : Option Bool} {command : Command}
    (member : command ∈ registers.settings align size bold) :
    command = .align align ∨ (∃ weight, command = .characterSize size weight) ∨
      ∃ weight, command = .emphasis weight := by
  unfold settings at member
  rcases List.mem_append.1 member with member | member
  · rcases List.mem_append.1 member with member | member
    · split at member
      · cases member
      · exact Or.inl (List.mem_singleton.1 member)
    · split at member
      · cases member
      · exact Or.inr (Or.inl ⟨_, List.mem_singleton.1 member⟩)
  · split at member
    · split at member
      · cases member
      · exact Or.inr (Or.inr ⟨_, List.mem_singleton.1 member⟩)
    · cases member

end Registers

/-- Lines are texts and line feeds. -/
theorem Printer.cases_of_mem_lines {lines : List String} {command : Command}
    (member : command ∈ lines.flatMap lineCommands) :
    (∃ line, command = .text line) ∨ command = .lineFeed 1 := by
  obtain ⟨line, _, inside⟩ := List.mem_flatMap.1 member
  unfold lineCommands at inside
  split at inside
  · exact Or.inr (List.mem_singleton.1 inside)
  · rcases List.mem_cons.1 inside with shown | ended
    · exact Or.inl ⟨line, shown⟩
    · exact Or.inr (List.mem_singleton.1 ended)

namespace Mirrors

variable {registers : Registers} {device : Device} {protocol : Protocol}

/-- Nothing is known of a printer that has been reset. -/
theorem unknown (device : Device) : Mirrors .unknown device where
  align _ known := by cases known
  size _ known := by cases known
  printable _ known := by cases known
  bold _ known := by cases known
  weight known := by cases known

theorem after_alignSetting (mirrors : Mirrors registers device) (align : Alignment) :
    device.after protocol (if registers.align = some align then [] else [Command.align align]) =
      device.wearing { device.face with align := align } := by
  split
  · rename_i known
    rw [← mirrors.align align known]
    rfl
  · simp [Device.obey]

theorem after_sizeSetting (mirrors : Mirrors registers device) {size : CharSize}
    (printable : size.Printable) (bold : Bool) :
    device.after protocol
        (if registers.size = some size then [] else [Command.characterSize size bold]) =
      device.wearing ⟨device.face.align, size,
        if registers.size = some size then registers.weight else bold⟩ := by
  split
  · rename_i known
    have weight := mirrors.weight (by rw [known]; rfl)
    rw [← mirrors.size size known]
    unfold Registers.weight
    rw [← weight]
    rfl
  · simp [Device.obey, protocol.order_characterSize printable]

/-- The settings leave the printer in the face asked for. Without a weight that is the one in
force. -/
theorem after_settings (mirrors : Mirrors registers device) (align : Alignment) {size : CharSize}
    (printable : size.Printable) (bold : Option Bool) :
    device.after protocol (registers.settings align size bold) =
      device.wearing ⟨align, size, bold.getD registers.weight⟩ := by
  have aligned : Mirrors { registers with align := some align }
      (device.wearing { device.face with align := align }) :=
    ⟨fun _ known => Option.some.inj known, mirrors.size, mirrors.printable, mirrors.bold,
      mirrors.weight⟩
  have sized : Device.after protocol _ _ = _ :=
    aligned.after_sizeSetting printable (bold.getD registers.weight)
  simp only at sized
  unfold Registers.settings
  rw [Device.after_append, Device.after_append, mirrors.after_alignSetting]
  unfold Registers.weight at sized ⊢
  rw [sized]
  -- The size command has already set the weight asked for, unless the size was known; then the
  -- register decides whether the weight is sent on its own.
  cases bold with
  | none =>
    simp only [Option.getD_none, ite_self]
    rfl
  | some weight =>
    by_cases known : registers.bold = some weight
    · simp only [known, if_true, Option.getD_some, ite_self]
      rfl
    · simp only [known, if_false, Option.getD_some, Device.after_cons, Device.after_nil]
      rw [protocol.order_emphasis]
      rfl

/-- Setting registers leaves nothing on the paper. -/
theorem record_settings (registers : Registers) (device : Device) (align : Alignment)
    {size : CharSize} (printable : size.Printable) (bold : Option Bool) :
    device.record protocol (registers.settings align size bold) = [] := by
  apply Device.record_eq_nil
  intro command member device
  rcases registers.cases_of_mem_settings member with rfl | ⟨weight, rfl⟩ | ⟨weight, rfl⟩
  · rw [protocol.order_align]
    rfl
  · rw [protocol.order_characterSize printable]
    rfl
  · rw [protocol.order_emphasis]
    rfl

/-- Behind the settings the registers mirror the printer. -/
theorem after (registers : Registers) (device : Device) (align : Alignment) {size : CharSize}
    (printable : size.Printable) (bold : Option Bool) :
    Mirrors (registers.after align size bold)
      (device.wearing ⟨align, size, bold.getD registers.weight⟩) where
  align _ known := Option.some.inj known
  size _ known := Option.some.inj known
  printable size known := by
    obtain rfl := Option.some.inj known
    exact printable
  bold weight known := by
    unfold Registers.after at known
    cases bold with
    | none =>
      simp only [Option.none_or] at known
      simp [Device.wearing, Registers.weight, known]
    | some own => exact Option.some.inj known
  weight _ := by
    cases bold with
    | none => simp [Device.wearing, Registers.weight, Registers.after]
    | some own => rfl

/-- The size that is set, or else the plain one, can be printed. -/
theorem printable_sizeOrNormal (mirrors : Mirrors registers device) :
    registers.sizeOrNormal.Printable := by
  unfold Registers.sizeOrNormal
  cases known : registers.size with
  | none => exact CharSize.printable_normal
  | some size => exact mirrors.printable size known

/-- Where everything is known, the face of the printer is. -/
theorem face_eq (mirrors : Mirrors registers device) {align : Alignment} {size : CharSize}
    (aligned : registers.align = some align) (sized : registers.size = some size) :
    device.face = ⟨align, size, registers.weight⟩ := by
  have weight := mirrors.weight (by rw [sized]; rfl)
  rw [← mirrors.align align aligned, ← mirrors.size size sized]
  unfold Registers.weight
  rw [← weight]

end Mirrors

/-! ## The laws of printing -/

namespace Printing

theorem commands_send (registers : Registers) (commands : List Command) :
    (send registers commands).commands = commands := by
  unfold send Printing.commands
  rw [List.filterMap_map]
  exact List.filterMap_some

theorem andThen_of_fault {first : Printing} {fault : PrintFault} (ended : first.fault = some fault)
    (next : Registers → Printing) : first.andThen next = first := by
  unfold andThen
  rw [ended]

theorem fault_andThen {first : Printing} (goesOn : first.fault = none)
    (next : Registers → Printing) : (first.andThen next).fault = (next first.registers).fault := by
  unfold andThen
  rw [goesOn]

theorem registers_andThen {first : Printing} (goesOn : first.fault = none)
    (next : Registers → Printing) :
    (first.andThen next).registers = (next first.registers).registers := by
  unfold andThen
  rw [goesOn]

theorem commands_andThen {first : Printing} (goesOn : first.fault = none)
    (next : Registers → Printing) :
    (first.andThen next).commands = first.commands ++ (next first.registers).commands := by
  unfold andThen
  rw [goesOn]
  exact List.filterMap_append

end Printing

/-- Some printing leaves a sheet on the paper and registers that mirror the printer. -/
structure Prints (protocol : Protocol) (device : Device) (printing : Printing) (sheet : Sheet) :
    Prop where
  record : device.record protocol printing.commands = sheet.imprints
  mirrors : Mirrors printing.registers (device.after protocol printing.commands)
  weight : printing.registers.weight = sheet.weight

namespace Prints

variable {protocol : Protocol} {device : Device} {registers : Registers}

theorem done (mirrors : Mirrors registers device) :
    Prints protocol device (.done registers) (.blank registers.weight) :=
  ⟨rfl, mirrors, rfl⟩

theorem failed (mirrors : Mirrors registers device) (fault : PrintFault) :
    Prints protocol device (.failed registers fault) (.blank registers.weight) :=
  ⟨rfl, mirrors, rfl⟩

theorem note (mirrors : Mirrors registers device) (path message : String) :
    Prints protocol device (.note registers path message) (.blank registers.weight) :=
  ⟨rfl, mirrors, rfl⟩

/-- Commands that change no face are printed as they are. -/
theorem send (mirrors : Mirrors registers device) {commands : List Command}
    (still : device.after protocol commands = device) :
    Prints protocol device (.send registers commands)
      ⟨device.record protocol commands, registers.weight⟩ where
  record := by rw [Printing.commands_send]
  mirrors := by
    rw [Printing.commands_send, still]
    exact mirrors
  weight := rfl

/-- What is printed behind other printing. -/
theorem andThen {first : Printing} {before behind : Sheet}
    (prints : Prints protocol device first before) (goesOn : first.fault = none)
    (next : Registers → Printing)
    (later : Prints protocol (device.after protocol first.commands) (next first.registers)
      behind) :
    Prints protocol device (first.andThen next)
      ⟨before.imprints ++ behind.imprints, behind.weight⟩ where
  record := by
    rw [Printing.commands_andThen goesOn, Device.record_append, prints.record, later.record]
  mirrors := by
    rw [Printing.commands_andThen goesOn, Printing.registers_andThen goesOn, Device.after_append]
    exact later.mirrors
  weight := by
    rw [Printing.registers_andThen goesOn]
    exact later.weight

/-- What is printed behind the settings is printed in the face asked for. -/
theorem set_andThen (mirrors : Mirrors registers device) {align : Alignment} {size : CharSize}
    (printable : size.Printable) {bold : Option Bool} {next : Registers → Printing} {sheet : Sheet}
    (later : Prints protocol (device.wearing ⟨align, size, bold.getD registers.weight⟩)
      (next (registers.after align size bold)) sheet) :
    Prints protocol device ((Printing.set registers align size bold).andThen next) sheet := by
  have settings : (Printing.set registers align size bold).commands =
      registers.settings align size bold := Printing.commands_send ..
  have first : Prints protocol device (Printing.set registers align size bold)
      (.blank (registers.after align size bold).weight) := by
    refine ⟨?_, ?_, rfl⟩
    · rw [settings, Mirrors.record_settings registers device align printable]
      rfl
    · rw [settings, mirrors.after_settings align printable]
      exact Mirrors.after registers device align printable bold
  have both := first.andThen rfl next (by
    rw [settings, mirrors.after_settings align printable]
    exact later)
  exact both

end Prints

end Receipt
