import Receipt.Proofs.Delivery
import Receipt.Proofs.Reached
import Receipt.Proofs.WrapContent

/-!
# No text is lost

`Node.leaves` are the textual elements that are laid out as text of their own: those that are
reached through pages, views that are no row of several children, and unknown elements, in document
order. `Node.literal` is the text of an element and of the textual elements under it.

`printTree_keepsText`: in a tree that is printed to its end there is one text delivery for each leaf,
in the same order; it sends the literal text of its leaf, blanks apart, and ends at least one line.
-/

namespace Receipt

namespace Node

mutual

/-- An element and all elements under it, in document order. -/
def preorder : Node → List Node
  | ⟨type, props, style, children⟩ => ⟨type, props, style, children⟩ :: preorderOfAll children

/-- Several trees one behind the other. -/
def preorderOfAll : List Node → List Node
  | [] => []
  | node :: nodes => preorder node ++ preorderOfAll nodes

end

/-- The text that an element and the textual elements under it carry. -/
def literal (naming : Naming) (node : Node) : List Char :=
  (node.preorder.filter fun inner => isTextual naming inner.type).flatMap
    fun inner => inner.props.content.toList

mutual

/-- The textual elements that are laid out on their own, in document order. -/
def leaves (naming : Naming) : Node → List Node
  | ⟨type, props, style, children⟩ =>
    match naming.kind? type with
    | some .document => leavesOfPages naming children
    | some .page => leavesOfAll naming children
    | some .view => if isRowOf style children then [] else leavesOfAll naming children
    | some .text | some .run => [⟨type, props, style, children⟩]
    | some .image => []
    | none => leavesOfAll naming children

/-- The leaves of several trees. -/
def leavesOfAll (naming : Naming) : List Node → List Node
  | [] => []
  | node :: nodes => leaves naming node ++ leavesOfAll naming nodes

/-- The leaves of the pages among several trees. -/
def leavesOfPages (naming : Naming) : List Node → List Node
  | [] => []
  | ⟨type, props, style, children⟩ :: nodes =>
    if naming.kind? type = some .page then
      leaves naming ⟨type, props, style, children⟩ ++ leavesOfPages naming nodes
    else leavesOfPages naming nodes

end

/-! ## The literal text of an element -/

theorem flatMap_ownTexts (naming : Naming) (type : String) (props : Fields) :
    (ownTexts naming type props).flatMap String.toList =
      if isTextual naming type then props.content.toList else [] := by
  unfold ownTexts
  cases isTextual naming type with
  | false => rfl
  | true =>
    cases empty : props.content.isEmpty with
    | false => simp
    | true => simp [String.isEmpty_iff.1 empty]

mutual

theorem flatMap_texts (naming : Naming) :
    ∀ node, (texts naming node).flatMap String.toList = literal naming node
  | ⟨type, props, style, children⟩ => by
    have own := flatMap_ownTexts naming type props
    have below := flatMap_textsOfAll naming children
    unfold literal
    rw [texts, preorder, List.flatMap_append, own, below, List.filter_cons]
    split
    · rw [List.flatMap_cons]
    · rfl

theorem flatMap_textsOfAll (naming : Naming) :
    ∀ nodes, (textsOfAll naming nodes).flatMap String.toList =
      ((preorderOfAll nodes).filter fun inner => isTextual naming inner.type).flatMap
        fun inner => inner.props.content.toList
  | [] => rfl
  | node :: nodes => by
    have first := flatMap_texts naming node
    have rest := flatMap_textsOfAll naming nodes
    rw [textsOfAll, preorderOfAll, List.flatMap_append, List.filter_append, List.flatMap_append,
      first, rest]
    rfl

end

theorem toList_fullText (naming : Naming) (node : Node) :
    (node.fullText naming).toList = node.literal naming := by
  unfold fullText
  rw [String.toList_join, flatMap_texts]

end Node

/-! ## The text steps of a plan stand for the leaves -/

namespace Traced

variable {α : Type}

/-- The elements that the text steps of a trace stand for. -/
def textNodes (traced : Traced α) : List Node :=
  (traced.steps.filter fun marked => marked.2.isText).map fun marked => marked.1.node

/-- A trace that comes to its end has a text step for each of these elements. -/
def Tells (traced : Traced α) (nodes : List Node) : Prop :=
  traced.fault = none → traced.textNodes = nodes

end Traced

namespace Node

mutual

/-- The leaves are the textual elements among those that the walk reaches. -/
theorem leaves_eq (naming : Naming) (path : String) :
    ∀ node : Node, ((reached naming path node).filter fun place =>
        isTextual naming place.2.type).map (·.2) = leaves naming node
  | ⟨type, props, style, children⟩ => by
    unfold reached leaves
    cases known : naming.kind? type with
    | none => exact leavesOfAll_eq naming path 0 children
    | some kind =>
      have own : isTextual naming type = kind.isTextual := by
        unfold isTextual
        rw [known]
      cases kind with
      | document => exact leavesOfPages_eq naming path 0 children
      | page => exact leavesOfAll_eq naming path 0 children
      | view =>
        simp only
        split
        · rfl
        · exact leavesOfAll_eq naming path 0 children
      | text | run | image =>
        simp only [List.filter_cons, own]
        rfl

theorem leavesOfAll_eq (naming : Naming) (path : String) (index : Nat) :
    ∀ nodes : List Node, ((reachedAll naming path index nodes).filter fun place =>
        isTextual naming place.2.type).map (·.2) = leavesOfAll naming nodes
  | [] => rfl
  | ⟨type, props, style, children⟩ :: rest => by
    rw [reachedAll, leavesOfAll, List.filter_append, List.map_append, leaves_eq,
      leavesOfAll_eq naming path (index + 1) rest]

theorem leavesOfPages_eq (naming : Naming) (path : String) (index : Nat) :
    ∀ nodes : List Node, ((reachedPages naming path index nodes).filter fun place =>
        isTextual naming place.2.type).map (·.2) = leavesOfPages naming nodes
  | [] => rfl
  | ⟨type, props, style, children⟩ :: rest => by
    have later := leavesOfPages_eq naming path (index + 1) rest
    rw [reachedPages, leavesOfPages]
    split
    · rw [List.filter_append, List.map_append, leaves_eq, later]
    · exact later

end

end Node

/-- The text steps of a tree stand for its leaves. -/
theorem Scheme.tells_trace {α : Type} [Scalar α] {scheme : Scheme α} {naming : Naming}
    (named : scheme.naming = naming) (anchors : Anchors α) (root : Node) :
    Traced.Tells (scheme.trace anchors root) (root.leaves naming) := by
  intro ended
  subst named
  have reaches := scheme.reaches_trace anchors root ended
  have texts := List.rel_filter (p := fun place => Node.isTextual scheme.naming place.2.type)
    (q := fun marked => marked.2.isText) (fun place marked stands => by
      show _ = true ↔ _ = true
      rw [stands.text]) reaches
  have chosen : (scheme.trace anchors root).shown.filter (fun marked => marked.2.isText) =
      (scheme.trace anchors root).steps.filter fun marked => marked.2.isText := by
    unfold Traced.shown
    rw [List.filter_filter]
    refine List.filter_congr fun marked _ => ?_
    cases marked.2.isText with
    | false => rfl
    | true => rfl
  have same : List.Forall₂ (· = ·)
      (((root.reached scheme.naming root.type).filter fun place =>
        Node.isTextual scheme.naming place.2.type).map (·.2))
      (scheme.trace anchors root).textNodes := by
    unfold Traced.textNodes
    rw [← chosen, List.forall₂_map_left_iff, List.forall₂_map_right_iff]
    exact texts.imp fun _ _ stands => stands.node.symm
  rw [List.forall₂_eq_eq_eq] at same
  rw [← same]
  exact root.leaves_eq scheme.naming root.type

/-! ## What a text step sends -/

namespace Command

/-- The text that a command hands to the printer. -/
def text? : Command → Option String
  | text content => some content
  | _ => none

/-- How many lines a command ends. -/
def lineEnds : Command → Nat
  | lineFeed lines => lines.toNat
  | _ => 0

end Command

namespace Delivery

variable {σ α : Type}

/-- The texts of a delivery, in the order in which they are sent. -/
def texts (delivery : Delivery σ α) : List String := delivery.commands.filterMap (·.text?)

/-- How many lines a delivery ends. -/
def lineEnds (delivery : Delivery σ α) : Nat := (delivery.commands.map (·.lineEnds)).sum

/-- A delivery prints a textual element: it was asked for by the element, sends its literal text,
blanks apart, and ends a line. -/
def Prints (naming : Naming) (node : Node) (delivery : Delivery Site α) : Prop :=
  delivery.mark.node = node ∧
    Text.withoutBlanks (delivery.texts.flatMap String.toList) =
      Text.withoutBlanks (node.literal naming) ∧
    0 < delivery.lineEnds

end Delivery

namespace Printer

variable {α : Type} [Scalar α]

theorem text?_of_mem_settings {registers : Registers} {align : Alignment} {size : CharSize}
    {bold : Option Bool} {command : Command}
    (member : command ∈ registers.settings align size bold) : command.text? = none := by
  rcases registers.cases_of_mem_settings member with rfl | ⟨weight, rfl⟩ | ⟨weight, rfl⟩
  · rfl
  · rfl
  · rfl

/-- The characters of a line are sent, and the line is ended. -/
theorem characters_lineCommands (line : String) :
    ((lineCommands line).filterMap (·.text?)).flatMap String.toList = line.toList ∧
      ((lineCommands line).map (·.lineEnds)).sum = 1 := by
  unfold lineCommands
  split
  · rename_i empty
    rw [String.isEmpty_iff.1 empty]
    exact ⟨rfl, rfl⟩
  · exact ⟨List.append_nil _, rfl⟩

theorem characters_lines (lines : List String) :
    ((lines.flatMap lineCommands).filterMap (·.text?)).flatMap String.toList =
        lines.flatMap String.toList ∧
      ((lines.flatMap lineCommands).map (·.lineEnds)).sum = lines.length := by
  induction lines with
  | nil => exact ⟨rfl, rfl⟩
  | cons line lines ih =>
    obtain ⟨own, ends⟩ := characters_lineCommands line
    obtain ⟨later, behind⟩ := ih
    constructor
    · rw [List.flatMap_cons, List.filterMap_append, List.flatMap_append, own, later,
        List.flatMap_cons]
    · rw [List.flatMap_cons, List.map_append, List.sum_append, ends, behind, List.length_cons]
      omega

/-- A text step that is carried out sends its content, blanks apart, and ends a line. -/
theorem characters_printText {registers : Registers} {content : String} {look : TextLook α}
    {extent : Extent α} (ended : (printText registers content look extent).fault = none) :
    Text.withoutBlanks
        (((printText registers content look extent).commands.filterMap (·.text?)).flatMap
          String.toList) =
        Text.withoutBlanks content.toList ∧
      0 < ((printText registers content look extent).commands.map (·.lineEnds)).sum := by
  unfold printText at ended ⊢
  split
  · rename_i empty
    rw [Printing.commands_send, String.isEmpty_iff.1 empty]
    exact ⟨rfl, Nat.zero_lt_one⟩
  · rename_i full
    rw [if_neg full] at ended
    cases filled : columns extent look.size with
    | error fault =>
      rw [filled] at ended
      cases ended
    | ok columns =>
      have kept := Text.withoutBlanks_wrapText content columns
      have some := List.length_pos_iff.2 (Text.wrapText_ne_nil content columns)
      obtain ⟨sent, ends⟩ := characters_lines (Text.wrapText content columns)
      have settings : (registers.settings look.align look.size (.some look.bold)).filterMap
          (·.text?) = [] :=
        List.filterMap_eq_nil_iff.2 fun command member => text?_of_mem_settings member
      simp only
      rw [Printing.commands_andThen rfl, Printing.set, Printing.commands_send,
        Printing.commands_send, List.filterMap_append, settings, List.nil_append, sent,
        List.map_append, List.sum_append, ends]
      refine ⟨?_, by omega⟩
      rw [← kept]
      unfold Text.withoutBlanks
      rw [List.filter_flatMap]

end Printer

variable {α : Type} [Scalar α]

/-- The delivery of a text step prints the element at the site of the step. -/
theorem Delivery.prints_of_text {options : Options} {protocol : Protocol} {pageWidth : α}
    {root : Node} {marked : Site × Step α} {delivery : Delivery Site α}
    (placed : options.cellScheme.Placed pageWidth root marked.1 marked.2)
    (text : marked.2.isText)
    (sent : Delivery.Of (options.printer protocol : Printer α) marked delivery) :
    Delivery.Prints options.naming marked.1.node delivery := by
  obtain ⟨site, step⟩ := marked
  obtain ⟨_, places⟩ := placed
  obtain ⟨mark, _, registers, ended, commands⟩ := sent
  simp only at places text mark ended commands
  cases places with
  | text kind style box =>
    obtain ⟨kept, ends⟩ := Printer.characters_printText ended
    refine ⟨by rw [mark], ?_, ?_⟩
    · unfold Delivery.texts
      rw [commands, ← Node.toList_fullText]
      exact kept
    · unfold Delivery.lineEnds
      rw [commands]
      exact ends
  | reset | row _ _ _ | divider _ _ _ _ | space _ _ | picture _ _ _ _ _ | symbol _ _ _ _ _
  | sourceless _ _ => cases text

theorem Delivery.prints_of_texts {options : Options} {protocol : Protocol} {pageWidth : α}
    {root : Node} {steps : List (Site × Step α)} {deliveries : List (Delivery Site α)}
    (sent : List.Forall₂ (Delivery.Of (options.printer protocol : Printer α)) steps deliveries)
    (placed : ∀ marked ∈ steps, options.cellScheme.Placed pageWidth root marked.1 marked.2) :
    List.Forall₂ (Delivery.Prints options.naming)
      ((steps.filter fun marked => marked.2.isText).map fun marked => marked.1.node)
      (deliveries.filter fun delivery => delivery.step.isText) := by
  induction sent with
  | nil => exact List.Forall₂.nil
  | @cons marked delivery steps deliveries own _ ih =>
    have first := placed marked (List.mem_cons_self ..)
    have rest := ih fun other member => placed other (List.mem_cons_of_mem _ member)
    rw [List.filter_cons, List.filter_cons, own.2.1]
    by_cases text : marked.2.isText = true
    · rw [if_pos text, if_pos text]
      exact List.Forall₂.cons (Delivery.prints_of_text first text own) rest
    · rw [if_neg text, if_neg text]
      exact rest

omit [Scalar α] in
/-- What the leaves carry together is what their deliveries send together. -/
theorem Delivery.withoutBlanks_of_prints {naming : Naming} {leaves : List Node}
    {deliveries : List (Delivery Site α)}
    (each : List.Forall₂ (Delivery.Prints naming) leaves deliveries) :
    Text.withoutBlanks ((deliveries.flatMap (·.texts)).flatMap String.toList) =
      Text.withoutBlanks (leaves.flatMap fun leaf => leaf.literal naming) := by
  induction each with
  | nil => rfl
  | cons own _ ih =>
    rw [List.flatMap_cons, List.flatMap_append, Text.withoutBlanks_append, ih, own.2.1,
      List.flatMap_cons, Text.withoutBlanks_append]

/-- A tree that is printed to its end loses no text: each of its leaves has a text delivery, in
document order, that sends the literal text of the leaf, blanks apart, and ends a line. -/
theorem printTree_keepsText {options : Options} {protocol : Protocol} {pageWidth : α} {root : Node}
    (ended : (printTree options protocol pageWidth root).fault = none) :
    let deliveries := options.deliveries protocol pageWidth root
    let ofTexts := deliveries.filter fun delivery => delivery.step.isText
    let leaves := root.leaves options.naming
    deliveries.flatMap (·.commands) = (printTree options protocol pageWidth root).commands ∧
      List.Forall₂ (Delivery.Prints options.naming) leaves ofTexts ∧
      Text.withoutBlanks ((ofTexts.flatMap (·.texts)).flatMap String.toList) =
        Text.withoutBlanks (leaves.flatMap fun leaf => leaf.literal options.naming) := by
  intro deliveries ofTexts leaves
  have all : deliveries.flatMap (·.commands) = (printTree options protocol pageWidth root).commands :=
    commands_deliveries options protocol pageWidth root
  let traced := options.cellScheme.trace (.start pageWidth) root
  rw [printTree_eq] at ended
  have told : traced.textNodes = leaves :=
    Scheme.tells_trace rfl (.start pageWidth) root (Printer.fault_layout_of_print ended)
  have placed : ∀ marked ∈ traced.steps,
      options.cellScheme.Placed pageWidth root marked.1 marked.2 :=
    Scheme.placed_trace rfl root (.start pageWidth)
  have sent : List.Forall₂ (Delivery.Of (options.printer protocol)) traced.steps deliveries :=
    Printer.deliveries_of_ended _ (Printer.fault_performAll_of_print ended)
  have each : List.Forall₂ (Delivery.Prints options.naming) leaves ofTexts := by
    rw [← told]
    exact Delivery.prints_of_texts sent placed
  exact ⟨all, each, Delivery.withoutBlanks_of_prints each⟩

/-- A page with a text that has a tab, a line end and a run in it, a row, and a word that is longer
than the paper inside an unknown element. -/
def wrappedReceipt : Node :=
  ⟨"Document", [], none,
    [⟨"Page", [], none,
      [⟨"Text", [("children", .text "Total\t12,50\n incl.")], none,
          [⟨"TextRun", [("children", .text " tax")], none, []⟩]⟩,
        ⟨"View", [], some [("flexDirection", .text "row")],
          [⟨"Text", [("children", .text "left")], none, []⟩,
            ⟨"Text", [("children", .text "right")], none, []⟩]⟩,
        ⟨"Group", [], none, [⟨"Text", [("children", .text "Obrigado-e-volte-sempre")], none, []⟩]⟩]⟩]⟩

theorem printTree_keepsText_wrappedReceipt :
    let options : Options := ⟨.standard, none⟩
    let ofTexts := (options.deliveries .escPos (10 : Rat) wrappedReceipt).filter
      fun delivery => delivery.step.isText
    (printTree options .escPos (10 : Rat) wrappedReceipt).fault = none ∧
      (wrappedReceipt.leaves options.naming).length = 2 ∧
      (options.deliveries .escPos (10 : Rat) wrappedReceipt).flatMap (·.commands) =
        (printTree options .escPos (10 : Rat) wrappedReceipt).commands ∧
      List.Forall₂ (Delivery.Prints options.naming) (wrappedReceipt.leaves options.naming)
        ofTexts ∧
      Text.withoutBlanks ((ofTexts.flatMap (·.texts)).flatMap String.toList) =
        Text.withoutBlanks
          ((wrappedReceipt.leaves options.naming).flatMap fun leaf => leaf.literal options.naming) :=
  ⟨by decide +kernel, by decide +kernel, printTree_keepsText (by decide +kernel)⟩

end Receipt
