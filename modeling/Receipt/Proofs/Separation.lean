import Receipt.Proofs.LeafText
import Receipt.Proofs.Wire

/-!
# What a receipt is split into

The characters of a text are sent as they are, so a text that has ESC or GS in it sends the beginning
of a command. `read_bytes_iff` says that this is the only way in which a stream can be misread: the
bytes of a receipt are split into the tokens of its commands exactly when no text has such a
character, as long as every bitmap fits its header. `read_printReceipt` adds where such characters
come from: from the literal texts of the tree, and GS from the cells of rows only, since it ends a
line of any other text.

`Step.Shows` are the characters that a step may have printed, and `Command.Asked` is what a step sends:
commands with bytes, whose texts are made of these characters (`asked_perform`).
-/

namespace Receipt

/-! ## What a step sends -/

/-- The characters that a step may have printed. -/
def Step.Shows {α : Type} (step : Step α) (c : Char) : Prop :=
  match step with
  | .text content _ _ => c = ' ' ∨ c ∈ content.toList ∧ Character.isLineEnd c = false
  | .row cells _ _ => c = ' ' ∨ ∃ cell ∈ cells, c ∈ cell.text.toList
  | .divider _ _ => c = '-' ∨ c = '─'
  | _ => False

/-- A command that a protocol takes, and whose texts have these characters only. -/
structure Command.Asked (protocol : Protocol) (shows : Char → Prop) (command : Command) : Prop where
  sized : command.Sized
  taken : ∃ bytes, protocol.encode command = .ok bytes
  shown : ∀ content, command = .text content → ∀ c ∈ content.toList, shows c

namespace Printing

/-- All commands that are sent have a property. -/
def Sends (good : Command → Prop) (printing : Printing) : Prop :=
  ∀ command ∈ printing.commands, good command

namespace Sends

variable {good : Command → Prop} {registers : Registers}

theorem silent {printing : Printing} (sends : printing.commands = []) : Sends good printing := by
  intro command member
  rw [sends] at member
  cases member

theorem done (registers : Registers) : Sends good (.done registers) := silent rfl

theorem failed (registers : Registers) (fault : PrintFault) :
    Sends good (.failed registers fault) := silent rfl

theorem note (registers : Registers) (path message : String) :
    Sends good (.note registers path message) := silent rfl

theorem send {commands : List Command} (each : ∀ command ∈ commands, good command) :
    Sends good (.send registers commands) := by
  intro command member
  rw [commands_send] at member
  exact each command member

theorem andThen {first : Printing} {next : Registers → Printing} (former : Sends good first)
    (latter : ∀ registers, Sends good (next registers)) : Sends good (first.andThen next) := by
  cases ended : first.fault with
  | some fault =>
    rw [andThen_of_fault ended]
    exact former
  | none =>
    intro command member
    rw [commands_andThen ended] at member
    rcases List.mem_append.1 member with own | later
    · exact former command own
    · exact latter _ command later

theorem withNumber {number : Except NumberFault Int} {next : Int → Printing}
    (later : ∀ n, Sends good (next n)) : Sends good (.withNumber registers number next) := by
  cases number with
  | error fault => exact failed registers _
  | ok n => exact later n

end Sends

end Printing

namespace Command.Asked

variable {protocol : Protocol} {shows : Char → Prop}

theorem text {content : String} (shown : ∀ c ∈ content.toList, shows c) :
    Asked protocol shows (.text content) := by
  refine ⟨trivial, ⟨_, rfl⟩, fun other same => ?_⟩
  rw [← Command.text.inj same]
  exact shown

theorem lineFeed (lines : Int) : Asked protocol shows (.lineFeed lines) := ⟨trivial, ⟨_, rfl⟩, nofun⟩

theorem of_mem_settings {registers : Registers} {align : Alignment} {size : CharSize}
    {bold : Option Bool} {command : Command}
    (member : command ∈ registers.settings align size bold) : Asked protocol shows command := by
  rcases registers.cases_of_mem_settings member with rfl | ⟨weight, rfl⟩ | ⟨weight, rfl⟩
  · exact ⟨trivial, ⟨_, rfl⟩, nofun⟩
  · exact ⟨trivial, ⟨_, rfl⟩, nofun⟩
  · cases protocol <;> exact ⟨trivial, ⟨_, rfl⟩, nofun⟩

theorem of_mem_lineCommands {line : String} {command : Command}
    (shown : ∀ c ∈ line.toList, shows c) (member : command ∈ Printer.lineCommands line) :
    Asked protocol shows command := by
  unfold Printer.lineCommands at member
  split at member
  · rw [List.mem_singleton.1 member]
    exact lineFeed 1
  · rcases List.mem_cons.1 member with rfl | later
    · exact text shown
    · rw [List.mem_singleton.1 later]
      exact lineFeed 1

end Command.Asked

namespace Printing.Sends

open Command

variable {protocol : Protocol} {shows : Char → Prop}

theorem set (registers : Registers) (align : Alignment) (size : CharSize) (bold : Option Bool) :
    Sends (Asked protocol shows) (.set registers align size bold) :=
  send fun _ => Asked.of_mem_settings

theorem line (registers : Registers) {line : String} (shown : ∀ c ∈ line.toList, shows c) :
    Sends (Asked protocol shows) (.send registers (Printer.lineCommands line)) :=
  send fun _ => Asked.of_mem_lineCommands shown

theorem lineFeed (registers : Registers) (lines : Int) :
    Sends (Asked protocol shows) (.send registers [.lineFeed lines]) :=
  send fun command member => by
    rw [List.mem_singleton.1 member]
    exact .lineFeed lines

theorem printSegments {segments : List Segment}
    (shown : ∀ segment ∈ segments, ∀ c ∈ segment.text.toList, shows c) (registers : Registers) :
    Sends (Asked protocol shows) (Printer.printSegments registers segments) := by
  have part {text : String} (shown : ∀ c ∈ text.toList, shows c) (registers : Registers) :
      Sends (Asked protocol shows) (.send registers (if text.isEmpty then [] else [.text text])) := by
    split
    · exact done registers
    · exact send fun command member => by
        rw [List.mem_singleton.1 member]
        exact .text shown
  induction segments generalizing registers with
  | nil => exact done registers
  | cons segment segments ih =>
    obtain ⟨own, others⟩ := List.forall_mem_cons.1 shown
    refine andThen ?_ fun registers => ih others registers
    unfold Printer.printSegment
    simp only
    split
    · exact part own registers
    · exact (set registers .left .normal _).andThen (part own)

end Printing.Sends

section Steps

open Printing

variable {α : Type} [Scalar α] {printer : Printer α} {registers : Registers}

theorem sends_printPicture {shows : Char → Prop} (source : Value) (align : Alignment)
    (path : String) (extent : Extent α) :
    (printer.printPicture registers source align path extent).Sends
      (Command.Asked printer.protocol shows) := by
  unfold Printer.printPicture
  refine .withNumber fun width => ?_
  cases rasterize source (width * printer.dotsPerCharacter) true with
  | error fault =>
    cases fault with
    | badHeader | tooLarge => exact .failed registers _
    | undecodable | badText | badSamples | unknown _ | empty => exact .note registers path _
  | ok bitmap =>
    refine (Sends.set registers align _ none).andThen fun registers => ?_
    simp only
    cases taken : printer.protocol.encode (.raster bitmap.pack bitmap.width bitmap.height) with
    | error fault => exact .failed registers _
    | ok bytes =>
      refine .send fun command member => ?_
      rw [List.mem_singleton.1 member]
      exact ⟨⟨Int.natCast_nonneg _, Int.natCast_nonneg _⟩, ⟨bytes, taken⟩, nofun⟩

omit [Scalar α] in
theorem sends_printSymbol {shows : Char → Prop} (data : String) (size : Int) (align : Alignment)
    (path : String) :
    (printer.printSymbol registers data size align path).Sends
      (Command.Asked printer.protocol shows) := by
  unfold Printer.printSymbol
  cases taken : printer.protocol.encode (.symbol data size) with
  | error fault =>
    cases fault with
    | unsupported _ _ _ => exact .note registers path _
    | bitmapSize _ _ _ _ | field | payload _ => exact .note registers path _
  | ok bytes =>
    refine (Sends.set registers align _ none).andThen fun registers => .send fun command member => ?_
    rw [List.mem_singleton.1 member]
    exact ⟨trivial, ⟨bytes, taken⟩, nofun⟩

theorem mem_of_mem_dividerText {c : Char} {border : Border} {width : Int}
    (member : c ∈ (dividerText border width).toList) : c = '-' ∨ c = '─' := by
  unfold dividerText at member
  rw [String.toList_ofList] at member
  have glyph := List.eq_of_mem_replicate member
  cases border with
  | dashed => exact Or.inl glyph
  | solid => exact Or.inr glyph

/-- A step sends commands that the protocol takes, and no other characters than it shows. -/
theorem asked_perform (printer : Printer α) (registers : Registers) (step : Step α) :
    (printer.perform registers step).Sends (Command.Asked printer.protocol step.Shows) := by
  cases step with
  | reset =>
    refine .send fun command member => ?_
    rcases List.mem_cons.1 member with rfl | spacing
    · exact ⟨trivial, ⟨_, rfl⟩, nofun⟩
    · obtain ⟨dots, _, rfl⟩ := List.mem_map.1 spacing
      exact ⟨trivial, ⟨_, rfl⟩, nofun⟩
  | page height wraps => exact .done registers
  | text content look extent =>
    show (Printer.printText registers content look extent).Sends _
    unfold Printer.printText
    split
    · exact .line registers nofun
    · cases Printer.columns extent look.size with
      | error fault => exact .failed registers fault
      | ok columns =>
        refine (Sends.set registers _ _ _).andThen fun registers => .send fun command member => ?_
        obtain ⟨line, among, inside⟩ := List.mem_flatMap.1 member
        exact .of_mem_lineCommands (fun c => Text.mem_of_mem_wrapText among) inside
  | row cells justify extent =>
    show (printer.printRow registers cells justify extent).Sends _
    unfold Printer.printRow
    refine .withNumber fun width => ?_
    cases made : Row.segments printer.resolver cells width justify with
    | error fault => exact .failed registers _
    | ok segments =>
      refine (Sends.set registers _ _ _).andThen fun registers => ?_
      refine (Sends.printSegments (fun segment member c => ?_) registers).andThen fun registers =>
        .lineFeed registers 1
      exact (Row.stems_segments made segment member).mem
  | divider border extent =>
    refine (Sends.set registers .left .normal none).andThen fun registers => ?_
    exact .withNumber fun width => .line registers fun c => mem_of_mem_dividerText
  | space amount =>
    refine .withNumber fun lines => ?_
    split
    · exact .lineFeed registers lines
    · exact .done registers
  | picture source align path framed extent => exact sends_printPicture source align path extent
  | symbol data size align path extent => exact sends_printSymbol data size align path
  | sourceless path => exact .note registers path _

/-- What is sent for steps, each of them asked for. -/
theorem asked_performAll (printer : Printer α) (registers : Registers) (steps : List (Step α)) :
    (printer.performAll registers steps).Sends fun command =>
      ∃ step ∈ steps, command.Asked printer.protocol step.Shows := by
  induction steps generalizing registers with
  | nil => exact .done registers
  | cons step steps ih =>
    refine Sends.andThen (fun command member => ?_) fun registers command member => ?_
    · exact ⟨step, List.mem_cons_self .., asked_perform printer registers step command member⟩
    · obtain ⟨later, among, asked⟩ := ih registers command member
      exact ⟨later, List.mem_cons_of_mem _ among, asked⟩

end Steps

/-! ## Where the characters come from -/

namespace Node

variable {naming : Naming}

theorem mem_toList_fullText {node : Node} {c : Char} :
    c ∈ (node.fullText naming).toList ↔ ∃ text ∈ node.texts naming, c ∈ text.toList := by
  unfold fullText
  rw [String.toList_join, List.mem_flatMap]

theorem mem_textsOfAll_of_mem {child : Node} {children : List Node} (member : child ∈ children)
    {text : String} (inside : text ∈ child.texts naming) : text ∈ textsOfAll naming children := by
  induction children with
  | nil => cases member
  | cons first rest ih =>
    rw [textsOfAll]
    rcases List.mem_cons.1 member with rfl | later
    · exact List.mem_append_left _ inside
    · exact List.mem_append_right _ (ih later)

theorem mem_texts_of_mem_children {node child : Node} (member : child ∈ node.children)
    {text : String} (inside : text ∈ child.texts naming) : text ∈ node.texts naming := by
  obtain ⟨type, props, style, children⟩ := node
  rw [texts]
  exact List.mem_append_right _ (mem_textsOfAll_of_mem member inside)

end Node

/-- The literal texts below an element of a tree are texts of the tree. -/
theorem Site.Within.mem_texts {root : Node} {site : Site} (within : site.Within root)
    {naming : Naming} {text : String} (inside : text ∈ site.node.texts naming) :
    text ∈ root.texts naming := by
  obtain ⟨node, around⟩ := site
  induction around generalizing node with
  | nil =>
    obtain rfl := Option.some.inj within.2
    exact inside
  | cons outer around ih =>
    obtain ⟨below, chain⟩ := List.isChain_cons_cons.1 within.1
    exact ih outer ⟨chain, within.2⟩ (Node.mem_texts_of_mem_children below inside)

/-- A printed character that starts a command comes from a literal text of the tree, and no printed
character ends a line. -/
theorem Scheme.Placed.shows {α : Type} [Scalar α] {scheme : Scheme α} {pageWidth : α} {root : Node}
    {site : Site} {step : Step α} (placed : scheme.Placed pageWidth root site step) {c : Char}
    (shown : step.Shows c) :
    c ≠ '\n' ∧ (Codepage.StartsCommand c → ∃ text ∈ root.texts scheme.naming, c ∈ text.toList) := by
  obtain ⟨within, places⟩ := placed
  cases places with
  | text kind style box =>
    rcases shown with rfl | ⟨own, stays⟩
    · exact ⟨by decide, fun starts => absurd starts (by decide)⟩
    · refine ⟨?_, fun _ => ?_⟩
      · rintro rfl
        exact absurd stays (by decide)
      · obtain ⟨text, among, inside⟩ := Node.mem_toList_fullText.1 own
        exact ⟨text, within.mem_texts among, inside⟩
  | row kind content box =>
    rcases shown with rfl | ⟨cell, among, own⟩
    · exact ⟨by decide, fun starts => absurd starts (by decide)⟩
    · obtain ⟨noFeed, from'⟩ := Scheme.mem_of_cells content among own
      refine ⟨noFeed, fun starts => ?_⟩
      rcases from' with rfl | ⟨child, below, literal⟩
      · exact absurd starts (by decide)
      · obtain ⟨text, among, inside⟩ := Node.mem_toList_fullText.1 literal
        exact ⟨text, within.mem_texts (Node.mem_texts_of_mem_children below among), inside⟩
  | divider kind box resolved asked =>
    rcases shown with rfl | rfl
    · exact ⟨by decide, fun starts => absurd starts (by decide)⟩
    · exact ⟨by decide, fun starts => absurd starts (by decide)⟩
  | reset | space _ _ | picture _ _ _ _ _ | symbol _ _ _ _ _ | sourceless _ _ => cases shown

/-! ## Reading a receipt -/

/-- The bytes of some commands are split into their tokens exactly when all commands are
separable. -/
theorem read_bytes_iff {protocol : Protocol} {commands : List Command}
    (sized : ∀ command ∈ commands, command.Sized)
    (taken : ∀ command ∈ commands, ∃ bytes, protocol.encode command = .ok bytes) :
    protocol.read (commands.flatMap (Printer.bytesOf protocol)) =
        some (commands.flatMap (·.tokens protocol)) ↔
      ∀ command ∈ commands, command.Separable := by
  have bytes : commands.flatMap (Printer.bytesOf protocol) =
      (commands.flatMap (·.tokens protocol)).flatMap Token.bytes := by
    rw [List.flatMap_assoc]
    refine List.flatMap_congr fun command member => ?_
    obtain ⟨bytes, known⟩ := taken command member
    unfold Printer.bytesOf
    rw [Command.flatMap_bytes_tokens (sized command member) known, known]
  rw [Protocol.read_eq_some_iff]
  refine ⟨fun ⟨_, framed⟩ command member => ?_, fun separable => ⟨bytes, fun token member => ?_⟩⟩
  · obtain ⟨bytes, known⟩ := taken command member
    refine (Command.framed_tokens_iff (sized command member) known).1 fun token own => ?_
    exact framed token (List.mem_flatMap.2 ⟨command, member, own⟩)
  · obtain ⟨command, among, own⟩ := List.mem_flatMap.1 member
    obtain ⟨bytes, known⟩ := taken command among
    exact (Command.framed_tokens_iff (sized command among) known).2 (separable command among) token
      own

section Receipts

variable {α : Type} [Scalar α]

/-- What is sent for a receipt: commands that steps of its plan ask for, and the cut. -/
theorem asked_printReceipt (options : Options) (protocol : Protocol) (pageWidth : α) (root : Node) :
    (printReceipt options protocol pageWidth root).Sends fun command =>
      (∃ kind lines, command = .cut kind lines) ∨
        ∃ marked ∈ (options.cellScheme.trace (.start pageWidth) root).steps,
          command.Asked protocol marked.2.Shows := by
  unfold printReceipt
  refine Printing.Sends.andThen (fun command member => Or.inr ?_) fun registers => ?_
  · rw [printTree_eq, Printer.commands_print] at member
    obtain ⟨step, among, asked⟩ := asked_performAll _ _ _ command member
    obtain ⟨marked, inside, rfl⟩ := List.mem_map.1 among
    exact ⟨marked, inside, asked⟩
  · refine .send fun command member => Or.inl ?_
    unfold Options.cutCommands at member
    split at member
    · exact ⟨_, _, List.mem_singleton.1 member⟩
    · cases member

variable {options : Options} {protocol : Protocol} {pageWidth : α} {root : Node}

theorem taken_of_mem_printReceipt {command : Command}
    (member : command ∈ (printReceipt options protocol pageWidth root).commands) :
    command.Sized ∧ ∃ bytes, protocol.encode command = .ok bytes := by
  rcases asked_printReceipt options protocol pageWidth root command member with
    ⟨kind, lines, rfl⟩ | ⟨marked, _, asked⟩
  · exact ⟨trivial, _, rfl⟩
  · exact ⟨asked.sized, asked.taken⟩

/-- Each character of a text that is sent is shown by a step of the plan. -/
theorem exists_step_of_text {content : String}
    (member : .text content ∈ (printReceipt options protocol pageWidth root).commands) {c : Char}
    (inside : c ∈ content.toList) :
    ∃ marked ∈ (options.cellScheme.trace (.start pageWidth) root).steps, marked.2.Shows c := by
  rcases asked_printReceipt options protocol pageWidth root _ member with
    ⟨kind, lines, same⟩ | ⟨marked, among, asked⟩
  · cases same
  · exact ⟨marked, among, asked.shown content rfl c inside⟩

/-- No text that is sent ends a line. -/
theorem lineFeed_not_mem_text {content : String}
    (member : .text content ∈ (printReceipt options protocol pageWidth root).commands) :
    '\n' ∉ content.toList := by
  intro inside
  obtain ⟨marked, among, shown⟩ := exists_step_of_text member inside
  have placed : options.cellScheme.Placed pageWidth root marked.1 marked.2 :=
    Scheme.placed_trace rfl root (.start pageWidth) marked among
  exact (placed.shows shown).1 rfl

/-- Where a printed character comes from that starts a command: from a literal text of the tree, and
a GS from a cell of a row. -/
theorem origin_of_startsCommand {content : String}
    (member : .text content ∈ (printReceipt options protocol pageWidth root).commands) {c : Char}
    (inside : c ∈ content.toList) (starts : Codepage.StartsCommand c) :
    (∃ text ∈ root.texts options.naming, c ∈ text.toList) ∧
      (c = '\x1d' → ∃ cells justify extent,
        .row cells justify extent ∈ (options.cellScheme.tree [] (.start pageWidth) root).steps ∧
          ∃ cell ∈ cells, c ∈ cell.text.toList) := by
  obtain ⟨marked, among, shown⟩ := exists_step_of_text member inside
  have placed : options.cellScheme.Placed pageWidth root marked.1 marked.2 :=
    Scheme.placed_trace rfl root (.start pageWidth) marked among
  refine ⟨(placed.shows shown).2 starts, ?_⟩
  rintro rfl
  have stands : marked.2 ∈ (options.cellScheme.tree [] (.start pageWidth) root).steps := by
    rw [← Scheme.plain_trace]
    exact List.mem_map_of_mem among
  obtain ⟨site, step⟩ := marked
  cases step with
  | row cells justify extent =>
    exact ⟨cells, justify, extent, stands, shown.resolve_left (by decide)⟩
  | text content look extent =>
    rcases shown with same | ⟨_, stays⟩
    · exact absurd same (by decide)
    · exact absurd stays (by decide)
  | divider border extent =>
    exact absurd (show '\x1d' = '-' ∨ '\x1d' = '─' from shown) (by decide)
  | reset | page _ _ | space _ | picture _ _ _ _ _ | symbol _ _ _ _ _ | sourceless _ => cases shown

/-- The bytes of a receipt are split into what was sent exactly when no text has a character that
starts a command. -/
theorem read_printReceipt_iff (fits : protocol = .escPos → ∀ data width height,
      .raster data width height ∈ (printReceipt options protocol pageWidth root).commands →
        (width + 7) / 8 < 65536 ∧ height < 65536) :
    protocol.read ((printReceipt options protocol pageWidth root).bytes protocol) =
        some ((printReceipt options protocol pageWidth root).commands.flatMap
          (·.tokens protocol)) ↔
      ∀ content, .text content ∈ (printReceipt options protocol pageWidth root).commands →
        ∀ c ∈ content.toList, ¬ Codepage.StartsCommand c := by
  have taken (command : Command)
      (member : command ∈ (printReceipt options protocol pageWidth root).commands) :=
    taken_of_mem_printReceipt member
  have split := read_bytes_iff (fun command member => (taken command member).1)
    fun command member => (taken command member).2
  refine split.trans ⟨fun separable content member c inside => ?_, fun plain command member => ?_⟩
  · exact (separable _ member c inside).1
  · cases command with
    | text content =>
      intro c inside
      refine ⟨plain content member c inside, ?_⟩
      rintro rfl
      exact lineFeed_not_mem_text member inside
    | raster data width height =>
      cases protocol with
      | escPos => exact fits rfl data width height member
      | escBematech =>
        obtain ⟨_, bytes, known⟩ := taken _ member
        exact Protocol.fits_of_rasterBytes known
    | init | align _ | characterSize _ _ | emphasis _ | lineSpacing _ | lineFeed _ | feed _
    | symbol _ _ | cut _ _ => trivial

/-- With either protocol the bytes of a receipt are split into the functions, line ends and characters
that were sent exactly when no text has ESC or GS in it; a protocol that does not refuse bitmaps too
large for their header must not have sent one. No text has a line feed. Nothing but the two
characters is printed as a byte that starts a command, they come from the literal texts of the tree,
and GS from the cells of rows only. -/
theorem read_printReceipt (options : Options) (protocol : Protocol) (pageWidth : α) (root : Node)
    (fits : protocol = .escPos → ∀ data width height,
      .raster data width height ∈ (printReceipt options protocol pageWidth root).commands →
        (width + 7) / 8 < 65536 ∧ height < 65536) :
    let printing := printReceipt options protocol pageWidth root
    let plan := (options.cellScheme : Scheme α).tree [] (.start pageWidth) root
    (protocol.read (printing.bytes protocol) =
        some (printing.commands.flatMap (·.tokens protocol)) ↔
      ∀ content, .text content ∈ printing.commands →
        ∀ c ∈ content.toList, ¬ Codepage.StartsCommand c) ∧
    ∀ content, .text content ∈ printing.commands → '\n' ∉ content.toList ∧ ∀ c ∈ content.toList,
      Codepage.printedByte c = 0x1B ∨ Codepage.printedByte c = 0x1D →
        Codepage.StartsCommand c ∧ (∃ text ∈ root.texts options.naming, c ∈ text.toList) ∧
          (c = '\x1d' → ∃ cells justify extent,
            .row cells justify extent ∈ plan.steps ∧ ∃ cell ∈ cells, c ∈ cell.text.toList) := by
  intro printing plan
  refine ⟨read_printReceipt_iff fits, fun content member => ?_⟩
  refine ⟨lineFeed_not_mem_text member, fun c inside printed => ?_⟩
  have starts := Codepage.startsCommand_iff.2 printed
  exact ⟨starts, origin_of_startsCommand member inside starts⟩

end Receipts

/-- A receipt with a text and a picture as wide as the paper. -/
def picturedReceipt : Node :=
  ⟨"Document", [], none, [⟨"Page", [], none,
    [⟨"Text", [("children", .text "Total")], none, []⟩,
      ⟨"Image", [("source", .picture (.gray (Grid.ofFn 8 1 fun _ _ => 0)))], none, []⟩]⟩]⟩

theorem read_printReceipt_picturedReceipt :
    let options : Options :=
      ⟨{ Settings.standard with paperWidth := 8, dotsPerCharacter := 1 }, none⟩
    let printing := printReceipt options .escPos (8 : Float) picturedReceipt
    (∀ data width height, .raster data width height ∈ printing.commands →
        (width + 7) / 8 < 65536 ∧ height < 65536) ∧
      printing.fault = none ∧
      Protocol.escPos.read (printing.bytes .escPos) =
        some (printing.commands.flatMap (·.tokens .escPos)) := by
  intro options printing
  have sent : printing.commands = [.init, .align .left, .characterSize .normal false,
      .emphasis false, .text "Total", .lineFeed 1, .raster [0xFF] 8 1, .cut .full 3] := by
    decide +kernel
  have fits : ∀ data width height, .raster data width height ∈ printing.commands →
      (width + 7) / 8 < 65536 ∧ height < 65536 := by
    intro data width height member
    rw [sent] at member
    simp only [List.mem_cons, reduceCtorEq, Command.raster.injEq, List.not_mem_nil, or_false,
      false_or] at member
    omega
  refine ⟨fits, by decide +kernel, ?_⟩
  refine (read_printReceipt options .escPos (8 : Float) picturedReceipt fun _ => fits).1.2 ?_
  intro content member
  have same : content = "Total" := by
    have among : Command.text content ∈ printing.commands := member
    rw [sent] at among
    simpa using among
  have plain : "Total".toList.all (fun c => decide (¬ Codepage.StartsCommand c)) = true := by decide
  rw [same]
  exact fun c inside => of_decide_eq_true (List.all_eq_true.1 plain c inside)

/-- A receipt whose text has the command in it that resets a printer. -/
def resettingReceipt : Node :=
  ⟨"Document", [], none, [⟨"Page", [], none,
    [⟨"Text", [("children", .text "\x1b@Total")], none, []⟩]⟩]⟩

/-- Its text is taken for a command. -/
theorem not_read_resettingReceipt :
    let printing := printReceipt ⟨.standard, none⟩ .escPos (48 : Float) resettingReceipt
    printing.fault = none ∧
      Protocol.escPos.read (printing.bytes .escPos) ≠
        some (printing.commands.flatMap (·.tokens .escPos)) := by
  intro printing
  have sent : printing.commands = [.init, .align .left, .characterSize .normal false,
      .emphasis false, .text "\x1b@Total", .lineFeed 1, .cut .full 3] := by
    decide +kernel
  refine ⟨by decide +kernel, fun split => ?_⟩
  have plain := (read_printReceipt_iff fun _ data width height member => by
    have among : Command.raster data width height ∈ printing.commands := member
    rw [sent] at among
    simp at among).1 split
  have among : Command.text "\x1b@Total" ∈ printing.commands := by
    rw [sent]
    simp
  exact plain _ among '\x1b' (by decide) (by decide)

end Receipt
