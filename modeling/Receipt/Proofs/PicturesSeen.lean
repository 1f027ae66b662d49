import Receipt.Proofs.PictureBox
import Receipt.Proofs.Reached

/-!
# The ground that pictures stand on

A page sets the box of the pictures and the width of the page for everything that follows, and nothing
takes them back where the page ends. `Scheme.seen` is a walk through a tree that keeps account of this:
it lists the image elements in document order, each with its site and with the `Ground` on which it
stands, which says whether a page has ended that could have left its own box or width behind.

The elements that are seen are the image elements that layout reaches (`sees_seenIn`). In a document
whose pages stand apart all of them stand on clear ground (`clear_of_apart`).
-/

namespace Receipt

/-- What the pages that have ended leave behind for the pictures that follow. -/
structure Ground where
  /-- A page has ended since the innermost page around began. -/
  disturbed : Bool
  /-- A page that states a width has ended since the width of the page around was settled. -/
  shifted : Bool
deriving DecidableEq, Repr

namespace Ground

/-- Nothing is left behind. -/
def clear : Ground := ⟨false, false⟩

/-- What two parts of a tree leave behind. -/
def join (first second : Ground) : Ground :=
  ⟨first.disturbed || second.disturbed, first.shifted || second.shifted⟩

theorem join_self (ground : Ground) : ground.join ground = ground := by
  unfold join
  rw [Bool.or_self, Bool.or_self]

theorem join_eq_clear_iff {first second : Ground} :
    first.join second = clear ↔ first = clear ∧ second = clear := by
  obtain ⟨_, _⟩ := first
  obtain ⟨_, _⟩ := second
  simp only [join, clear, mk.injEq, Bool.or_eq_false_iff]
  tauto

end Ground

/-- An image element that the walk through a tree reaches. -/
structure Seen where
  path : String
  site : Site
  ground : Ground

namespace Scheme

variable {α : Type} [Scalar α]

/-- Whether a page states a width. -/
def statesWidth (scheme : Scheme α) (props : Fields) : Bool :=
  match scheme.ownWidth? props with
  | .ok (some _) => true
  | _ => false

/-- The ground inside a page. A page that no box surrounds settles the width of the page when it states
one. -/
def groundWithin (scheme : Scheme α) (around : List Node) (props : Fields) (ground : Ground) :
    Ground :=
  ⟨false, ground.shifted &&
    !(scheme.statesWidth props && decide (∀ node ∈ around, ¬ scheme.isBox node))⟩

/-- The ground behind a page, from that in front of it and that at the end of its content. -/
def groundBehind (scheme : Scheme α) (props : Fields) (ground inside : Ground) : Ground :=
  ⟨true, ground.shifted || inside.shifted || scheme.statesWidth props⟩

mutual

/-- The image elements under an element, in document order, and the ground behind it. -/
def seenIn (scheme : Scheme α) (around : List Node) (path : String) (ground : Ground) :
    Node → List Seen × Ground
  | ⟨type, props, style, children⟩ =>
    let chain := ⟨type, props, style, children⟩ :: around
    match scheme.naming.kind? type with
    | some .document => seenInPages scheme chain path 0 ground children
    | some .page =>
      let inside :=
        seenInAll scheme chain path 0 (scheme.groundWithin around props ground) children
      (inside.1, scheme.groundBehind props ground inside.2)
    | some .view =>
      if Node.isRowOf style children then ([], ground)
      else
        let inside := seenInAll scheme chain path 0 ground children
        (inside.1, ground.join inside.2)
    | some .text | some .run => ([], ground)
    | some .image => ([⟨path, ⟨⟨type, props, style, children⟩, around⟩, ground⟩], ground)
    | none => seenInAll scheme chain path 0 ground children

/-- Those under the children of an element, from the one with this number on. -/
def seenInAll (scheme : Scheme α) (around : List Node) (path : String) (index : Nat)
    (ground : Ground) : List Node → List Seen × Ground
  | [] => ([], ground)
  | ⟨type, props, style, children⟩ :: rest =>
    let first :=
      seenIn scheme around (childPath path type index) ground ⟨type, props, style, children⟩
    let later := seenInAll scheme around path (index + 1) first.2 rest
    (first.1 ++ later.1, later.2)

/-- Those under the pages among the children of a document, from the one with this number on. -/
def seenInPages (scheme : Scheme α) (around : List Node) (path : String) (index : Nat)
    (ground : Ground) : List Node → List Seen × Ground
  | [] => ([], ground)
  | ⟨type, props, style, children⟩ :: rest =>
    if scheme.naming.kind? type = some .page then
      let first :=
        seenIn scheme around (childPath path type index) ground ⟨type, props, style, children⟩
      let later := seenInPages scheme around path (index + 1) first.2 rest
      (first.1 ++ later.1, later.2)
    else seenInPages scheme around path (index + 1) ground rest

end

/-- The image elements that the walk through a tree reaches, in document order. -/
def seen (scheme : Scheme α) (root : Node) : List Seen :=
  (scheme.seenIn [] root.type .clear root).1

end Scheme

namespace Node

mutual

/-- Whether the walk through an element comes to a page. -/
def opens (naming : Naming) : Node → Bool
  | ⟨type, _, style, children⟩ =>
    match naming.kind? type with
    | some .page => true
    | some .document => children.any fun child => child.kind? naming = some .page
    | some .view => !isRowOf style children && opensAny naming children
    | some .text | some .run | some .image => false
    | none => opensAny naming children

/-- Whether the walk through several elements comes to a page. -/
def opensAny (naming : Naming) : List Node → Bool
  | [] => false
  | child :: rest => opens naming child || opensAny naming rest

end

end Node

/-- A document in which no page stands inside another one and no page states a width. -/
structure Scheme.Apart {α : Type} [Scalar α] (scheme : Scheme α) (root : Node) : Prop where
  document : root.kind? scheme.naming = some .document
  pages : ∀ child ∈ root.children, child.kind? scheme.naming = some .page →
    Node.opensAny scheme.naming child.children = false ∧ scheme.statesWidth child.props = false

/-! ## The elements that are seen -/

namespace Scheme

variable {α : Type} [Scalar α] {scheme : Scheme α}

section Equations

variable {around : List Node} {path type : String} {ground : Ground} {props : Fields}
  {style : Option Fields} {children : List Node}

theorem seenIn_document (known : scheme.naming.kind? type = some .document) :
    scheme.seenIn around path ground ⟨type, props, style, children⟩ =
      scheme.seenInPages (⟨type, props, style, children⟩ :: around) path 0 ground children := by
  rw [seenIn]
  simp only [known]

theorem seenIn_page (known : scheme.naming.kind? type = some .page) :
    scheme.seenIn around path ground ⟨type, props, style, children⟩ =
      ((scheme.seenInAll (⟨type, props, style, children⟩ :: around) path 0
          (scheme.groundWithin around props ground) children).1,
        scheme.groundBehind props ground
          (scheme.seenInAll (⟨type, props, style, children⟩ :: around) path 0
            (scheme.groundWithin around props ground) children).2) := by
  rw [seenIn]
  simp only [known]

theorem seenIn_view (known : scheme.naming.kind? type = some .view)
    (column : Node.isRowOf style children = false) :
    scheme.seenIn around path ground ⟨type, props, style, children⟩ =
      ((scheme.seenInAll (⟨type, props, style, children⟩ :: around) path 0 ground children).1,
        ground.join
          (scheme.seenInAll (⟨type, props, style, children⟩ :: around) path 0 ground
            children).2) := by
  rw [seenIn]
  simp only [known, column, Bool.false_eq_true, if_false]

theorem seenIn_row (known : scheme.naming.kind? type = some .view)
    (row : Node.isRowOf style children = true) :
    scheme.seenIn around path ground ⟨type, props, style, children⟩ = ([], ground) := by
  rw [seenIn]
  simp only [known, row, if_true]

theorem seenIn_unknown (known : scheme.naming.kind? type = none) :
    scheme.seenIn around path ground ⟨type, props, style, children⟩ =
      scheme.seenInAll (⟨type, props, style, children⟩ :: around) path 0 ground children := by
  rw [seenIn]
  simp only [known]

end Equations

/-- These elements are the image elements among those at some places, and they stand in a tree. -/
structure Sees (naming : Naming) (root : Node) (seen : List Seen)
    (places : List (String × Node)) : Prop where
  places : seen.map (fun seen => (seen.path, seen.site.node)) =
    places.filter fun place => place.2.kind? naming = some .image
  within : ∀ one ∈ seen, one.site.Within root

namespace Sees

variable {naming : Naming} {root : Node}

theorem nil : Sees naming root [] [] := ⟨rfl, nofun⟩

theorem append {first second : List Seen} {places others : List (String × Node)}
    (former : Sees naming root first places) (latter : Sees naming root second others) :
    Sees naming root (first ++ second) (places ++ others) := by
  refine ⟨?_, fun one member => ?_⟩
  · rw [List.map_append, List.filter_append, former.places, latter.places]
  · rcases List.mem_append.1 member with member | member
    · exact former.within one member
    · exact latter.within one member

end Sees

mutual

/-- The elements that are seen under an element are the image elements that are reached there. -/
theorem sees_seenIn {root : Node} (around : List Node) (path : String) (ground : Ground) :
    ∀ node, Site.Within root ⟨node, around⟩ →
      Sees scheme.naming root (scheme.seenIn around path ground node).1
        (node.reached scheme.naming path)
  | ⟨type, props, style, children⟩ => by
    intro within
    have column (ground : Ground) :
        Sees scheme.naming root
          (scheme.seenInAll (⟨type, props, style, children⟩ :: around) path 0 ground children).1
          (Node.reachedAll scheme.naming path 0 children) :=
      sees_seenInAll _ path 0 ground children fun child member => within.child member
    rw [Node.reached]
    cases known : scheme.naming.kind? type with
    | none =>
      rw [seenIn_unknown known]
      exact column ground
    | some kind =>
      cases kind with
      | document =>
        rw [seenIn_document known]
        exact sees_seenInPages _ path 0 ground children fun child member => within.child member
      | page =>
        rw [seenIn_page known]
        exact column _
      | view =>
        simp only
        split
        · rename_i row
          rw [seenIn_row known row]
          exact .nil
        · rename_i noRow
          rw [seenIn_view known (Bool.eq_false_iff.2 noRow)]
          exact column ground
      | text | run =>
        rw [seenIn]
        simp only [known]
        refine ⟨?_, nofun⟩
        rw [List.filter_cons_of_neg (by simp [Node.kind?, known])]
        rfl
      | image =>
        rw [seenIn]
        simp only [known]
        refine ⟨?_, fun one member => ?_⟩
        · rw [List.filter_cons_of_pos (by simp [Node.kind?, known])]
          rfl
        · rw [List.mem_singleton.1 member]
          exact within

/-- The same of the children of an element. -/
theorem sees_seenInAll {root : Node} (around : List Node) (path : String) (index : Nat)
    (ground : Ground) :
    ∀ children, (∀ child ∈ children, Site.Within root ⟨child, around⟩) →
      Sees scheme.naming root (scheme.seenInAll around path index ground children).1
        (Node.reachedAll scheme.naming path index children)
  | [] => fun _ => by
    rw [seenInAll, Node.reachedAll]
    exact .nil
  | ⟨type, props, style, children⟩ :: rest => fun within => by
    rw [seenInAll, Node.reachedAll]
    refine (sees_seenIn around _ ground _ (within _ (List.mem_cons_self ..))).append ?_
    exact sees_seenInAll around path (index + 1) _ rest fun child member =>
      within child (List.mem_cons_of_mem _ member)

/-- The same of the pages of a document. -/
theorem sees_seenInPages {root : Node} (around : List Node) (path : String) (index : Nat)
    (ground : Ground) :
    ∀ children, (∀ child ∈ children, Site.Within root ⟨child, around⟩) →
      Sees scheme.naming root (scheme.seenInPages around path index ground children).1
        (Node.reachedPages scheme.naming path index children)
  | [] => fun _ => by
    rw [seenInPages, Node.reachedPages]
    exact .nil
  | ⟨type, props, style, children⟩ :: rest => fun within => by
    have later (ground : Ground) :
        Sees scheme.naming root (scheme.seenInPages around path (index + 1) ground rest).1
          (Node.reachedPages scheme.naming path (index + 1) rest) :=
      sees_seenInPages around path (index + 1) ground rest fun child member =>
        within child (List.mem_cons_of_mem _ member)
    rw [seenInPages, Node.reachedPages]
    split
    · exact (sees_seenIn around _ ground _ (within _ (List.mem_cons_self ..))).append (later _)
    · exact later ground

end

end Scheme

/-! ## Where the ground is clear -/

namespace Scheme

variable {α : Type} [Scalar α] {scheme : Scheme α}

/-- All elements that are seen stand on one ground, and it is the ground behind them. -/
structure Quiet (ground : Ground) (walked : List Seen × Ground) : Prop where
  seen : ∀ one ∈ walked.1, one.ground = ground
  behind : walked.2 = ground

mutual

/-- Where the walk comes to no page, the ground stays the same. -/
theorem quiet_seenIn (around : List Node) (path : String) (ground : Ground) :
    ∀ node, Node.opens scheme.naming node = false →
      Quiet ground (scheme.seenIn around path ground node)
  | ⟨type, props, style, children⟩ => by
    intro closed
    unfold Node.opens at closed
    cases known : scheme.naming.kind? type with
    | none =>
      simp only [known] at closed
      rw [seenIn_unknown known]
      exact quiet_seenInAll _ path 0 ground children closed
    | some kind =>
      simp only [known] at closed
      cases kind with
      | document =>
        rw [seenIn_document known]
        exact quiet_seenInPages _ path 0 ground children closed
      | page => cases closed
      | view =>
        cases row : Node.isRowOf style children with
        | true =>
          rw [seenIn_row known row]
          exact ⟨nofun, rfl⟩
        | false =>
          simp only [row, Bool.not_false, Bool.true_and] at closed
          have inside := quiet_seenInAll (⟨type, props, style, children⟩ :: around) path 0 ground
            children closed
          rw [seenIn_view known row, inside.behind, Ground.join_self]
          exact ⟨inside.seen, rfl⟩
      | text | run =>
        rw [seenIn]
        simp only [known]
        exact ⟨nofun, rfl⟩
      | image =>
        rw [seenIn]
        simp only [known]
        refine ⟨fun one member => ?_, rfl⟩
        rw [List.mem_singleton.1 member]

/-- The same of the children of an element. -/
theorem quiet_seenInAll (around : List Node) (path : String) (index : Nat) (ground : Ground) :
    ∀ children, Node.opensAny scheme.naming children = false →
      Quiet ground (scheme.seenInAll around path index ground children)
  | [], _ => by
    rw [seenInAll]
    exact ⟨nofun, rfl⟩
  | ⟨type, props, style, children⟩ :: rest, closed => by
    obtain ⟨own, later⟩ := Bool.or_eq_false_iff.1 closed
    have first := quiet_seenIn around (childPath path type index) ground _ own
    have behind := quiet_seenInAll around path (index + 1) ground rest later
    rw [seenInAll]
    simp only [first.behind]
    refine ⟨fun one member => ?_, behind.behind⟩
    rcases List.mem_append.1 member with member | member
    · exact first.seen one member
    · exact behind.seen one member

/-- The same of a document without pages. -/
theorem quiet_seenInPages (around : List Node) (path : String) (index : Nat) (ground : Ground) :
    ∀ children : List Node, (children.any fun child => child.kind? scheme.naming = some .page) =
        false →
      Quiet ground (scheme.seenInPages around path index ground children)
  | [], _ => by
    rw [seenInPages]
    exact ⟨nofun, rfl⟩
  | ⟨type, props, style, children⟩ :: rest, closed => by
    obtain ⟨own, later⟩ := Bool.or_eq_false_iff.1 closed
    have noPage : scheme.naming.kind? type ≠ some .page := of_decide_eq_false own
    rw [seenInPages, if_neg noPage]
    exact quiet_seenInPages around path (index + 1) ground rest later

end

/-- Pages that stand apart hold their images on clear ground. -/
theorem clear_seenInPages (around : List Node) (path : String) (index : Nat) {ground : Ground}
    (settled : ground.shifted = false) {children : List Node}
    (apart : ∀ child ∈ children, child.kind? scheme.naming = some .page →
      Node.opensAny scheme.naming child.children = false ∧
        scheme.statesWidth child.props = false) :
    ∀ one ∈ (scheme.seenInPages around path index ground children).1, one.ground = .clear := by
  induction children generalizing index ground with
  | nil =>
    rw [seenInPages]
    exact nofun
  | cons child rest ih =>
    have later := fun other member => apart other (List.mem_cons_of_mem _ member)
    obtain ⟨type, props, style, children⟩ := child
    rw [seenInPages]
    split
    · rename_i page
      obtain ⟨closed, unstated⟩ := apart _ (List.mem_cons_self ..) page
      have begun : scheme.groundWithin around props ground = .clear := by
        unfold groundWithin
        rw [settled, Bool.false_and]
        rfl
      have inside := quiet_seenInAll (⟨type, props, style, children⟩ :: around)
        (childPath path type index) 0 .clear children closed
      have behind : (scheme.groundBehind props ground .clear).shifted = false := by
        simp only [groundBehind, settled, unstated, Ground.clear, Bool.or_false]
      rw [seenIn_page page, begun, inside.behind]
      intro one member
      rcases List.mem_append.1 member with member | member
      · exact inside.seen one member
      · exact ih (index + 1) behind later one member
    · exact ih (index + 1) settled later

/-- In a document whose pages stand apart all images stand on clear ground. -/
theorem clear_of_apart {root : Node} (apart : scheme.Apart root) :
    ∀ one ∈ scheme.seen root, one.ground = .clear := by
  obtain ⟨type, props, style, children⟩ := root
  unfold seen
  rw [seenIn_document apart.document]
  exact clear_seenInPages _ type 0 rfl apart.pages

end Scheme

end Receipt
