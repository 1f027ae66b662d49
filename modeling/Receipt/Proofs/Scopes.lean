import Receipt.Proofs.Boxes
import Receipt.Session

/-!
# Entering and leaving content boxes

The content box is kept by a stack of insets that changes in place: a `Scope` pushes an inset, or puts
a stack of its own in the place of the one in force, and what it did is undone when it is left, also
when the work inside it raised. `BoxStack` is that stack with the scopes that are open; `Work` is what
goes on in it, scopes inside scopes, and its `turns` are the scopes that are entered and left in turn.

`run_within`: whatever the work in a scope does, the stack before it is there again behind it, and
while no further scope is open inside it the box is the one that was entered. So nothing is said about
nested boxes that does not follow from one scope and the box around it (`Scope.Bounds`).
`scopes_nest` says this of exact numbers, and of a `Session`, whose actions enter and leave boxes too:
it goes back to insets that it kept, and those are the ones that the stack comes back to.
-/

namespace Receipt

/-- What changes the content box until it is left. -/
inductive Scope (α : Type) where
  | inset (left right : α)
  | narrowed (width : Option α)
  | framed (left width : α)

/-- What leaving a scope does with the insets. -/
inductive Exit (α : Type) where
  /-- Takes away the inset that was pushed. -/
  | pop
  /-- Nothing, since nothing was pushed. -/
  | stay
  /-- Puts back the insets from outside. -/
  | restore (insets : List (α × α))

/-- The content box, and how each of the open scopes is to be left, innermost first. -/
structure BoxStack (α : Type) where
  extent : Extent α
  exits : List (Exit α)

/-- One thing that happens to the stack, or an act that leaves it alone. -/
inductive BoxTurn (α β : Type) where
  | enter (scope : Scope α)
  | leave
  | act (action : β)

/-- Work with content boxes. An act may raise: what would follow does not happen, but every scope that
is open is left. -/
inductive Work (α β : Type) where
  | nothing
  | act (action : β) (raises : Bool)
  | andThen (first second : Work α β)
  | within (scope : Scope α) (work : Work α β)

section Stack

variable {α β : Type} [Scalar α]

namespace Scope

/-- The box inside a scope. -/
def inside (outer : Extent α) : Scope α → Extent α
  | inset left right => outer.inset left right
  | narrowed width => outer.narrowed width
  | framed left width => outer.framed left width

/-- How a scope is to be left. -/
def exit (outer : Extent α) : Scope α → Exit α
  | inset _ _ => .pop
  | narrowed none => .stay
  | narrowed (some width) => if outer.width ≤ width then .stay else .pop
  | framed _ _ => .restore outer.insets

end Scope

/-- The insets behind a scope, from those inside it. -/
def Exit.leave (inner : List (α × α)) : Exit α → List (α × α)
  | pop => inner.dropLast
  | stay => inner
  | restore insets => insets

/-- The stack behind a turn. -/
def BoxStack.turn (stack : BoxStack α) : BoxTurn α β → BoxStack α
  | .enter scope => ⟨scope.inside stack.extent, scope.exit stack.extent :: stack.exits⟩
  | .leave =>
    match stack.exits with
    | [] => stack
    | exit :: exits => ⟨{ stack.extent with insets := exit.leave stack.extent.insets }, exits⟩
  | .act _ => stack

/-- The stack behind several turns. -/
def BoxStack.run (stack : BoxStack α) (turns : List (BoxTurn α β)) : BoxStack α :=
  turns.foldl BoxStack.turn stack

namespace Work

/-- Whether work ends by raising. -/
def raises : Work α β → Bool
  | nothing => false
  | act _ raises => raises
  | andThen first second => first.raises || second.raises
  | within _ work => work.raises

/-- The turns that work takes. -/
def turns : Work α β → List (BoxTurn α β)
  | nothing => []
  | act action _ => [.act action]
  | andThen first second => first.turns ++ if first.raises then [] else second.turns
  | within scope work => .enter scope :: (work.turns ++ [.leave])

end Work

/-! ## Leaving undoes entering -/

/-- A scope changes the insets only. -/
theorem Scope.pageWidth_inside (outer : Extent α) (scope : Scope α) :
    (scope.inside outer).pageWidth = outer.pageWidth := by
  cases scope with
  | inset left right | framed left width => rfl
  | narrowed width =>
    cases width with
    | none => rfl
    | some width =>
      show (if outer.width ≤ width then outer else _).pageWidth = _
      split <;> rfl

/-- Leaving a scope gives the insets from before it was entered. -/
theorem Scope.leave_exit (outer : Extent α) (scope : Scope α) :
    (scope.exit outer).leave (scope.inside outer).insets = outer.insets := by
  cases scope with
  | inset left right => exact List.dropLast_concat
  | framed left width => rfl
  | narrowed width =>
    cases width with
    | none => rfl
    | some width =>
      show (if outer.width ≤ width then Exit.stay else Exit.pop).leave
        (if outer.width ≤ width then outer else _).insets = _
      split
      · rfl
      · exact List.dropLast_concat

namespace BoxStack

theorem run_append (stack : BoxStack α) (first second : List (BoxTurn α β)) :
    stack.run (first ++ second) = (stack.run first).run second := List.foldl_append

theorem run_cons (stack : BoxStack α) (turn : BoxTurn α β) (turns : List (BoxTurn α β)) :
    stack.run (turn :: turns) = (stack.turn turn).run turns := rfl

theorem turn_leave_enter (stack : BoxStack α) (scope : Scope α) :
    (stack.turn (.enter scope : BoxTurn α β)).turn (.leave : BoxTurn α β) = stack := by
  obtain ⟨outer, exits⟩ := stack
  show (⟨⟨(scope.inside outer).pageWidth, (scope.exit outer).leave (scope.inside outer).insets⟩,
    exits⟩ : BoxStack α) = ⟨outer, exits⟩
  rw [scope.pageWidth_inside outer, scope.leave_exit outer]

/-- Work leaves the stack as it was. -/
theorem run_turns (stack : BoxStack α) (work : Work α β) : stack.run work.turns = stack := by
  induction work generalizing stack with
  | nothing => rfl
  | act action raises => rfl
  | andThen first second ih ih' =>
    rw [Work.turns, run_append, ih]
    split
    · rfl
    · exact ih' stack
  | within scope work ih =>
    rw [Work.turns, run_cons, run_append, ih]
    exact turn_leave_enter stack scope

/-- Inside a scope the box is the one that was entered, when no further scope is open, and behind the
scope it is the one from before. -/
theorem run_within (stack : BoxStack α) (scope : Scope α) (work : Work α β) :
    (stack.run (.enter scope :: work.turns)).extent = scope.inside stack.extent ∧
      stack.run (Work.within scope work).turns = stack := by
  rw [run_cons, run_turns, run_turns]
  exact ⟨rfl, rfl⟩

end BoxStack

end Stack

/-! ## One scope in exact numbers -/

namespace Extent

theorem left_rat (extent : Extent Rat) : extent.left = (extent.insets.map (·.1)).sum :=
  Scalar.sum_rat _

theorem right_rat (extent : Extent Rat) :
    extent.right = extent.pageWidth - (extent.insets.map (·.2)).sum :=
  congrArg (extent.pageWidth - ·) (Scalar.sum_rat _)

theorem left_inset (extent : Extent Rat) (left right : Rat) :
    (extent.inset left right).left = extent.left + max 0 left := by
  rw [left_rat, left_rat]
  unfold inset
  simp only [List.map_append, List.sum_append, List.map_cons, List.map_nil, List.sum_singleton,
    Scalar.max_rat, Scalar.zero_rat]

theorem right_inset (extent : Extent Rat) (left right : Rat) :
    (extent.inset left right).right = extent.right - max 0 right := by
  rw [right_rat, right_rat]
  unfold inset
  simp only [List.map_append, List.sum_append, List.map_cons, List.map_nil, List.sum_singleton,
    Scalar.max_rat, Scalar.zero_rat]
  exact sub_add_eq_sub_sub _ _ _

theorem left_framed (extent : Extent Rat) (left width : Rat) :
    (extent.framed left width).left = max 0 left := by
  rw [left_rat]
  unfold framed
  simp only [List.map_cons, List.map_nil, List.sum_singleton, Scalar.max_rat, Scalar.zero_rat]

theorem right_framed (extent : Extent Rat) (left width : Rat) :
    (extent.framed left width).right = extent.pageWidth - max 0 (extent.pageWidth - left - width) := by
  rw [right_rat]
  unfold framed
  simp only [List.map_cons, List.map_nil, List.sum_singleton, Scalar.max_rat, Scalar.zero_rat]

end Extent

/-- What a scope makes of the box around it. An inset and a narrowing move the edges inwards, a
narrowing keeps the left one and gives the box the smaller of the two widths, and a frame has the
place that it names, as far as it lies on the page. -/
def Scope.Bounds (outer inner : Extent Rat) : Scope Rat → Prop
  | inset _ _ => outer.left ≤ inner.left ∧ inner.right ≤ outer.right
  | narrowed none => inner = outer
  | narrowed (some width) =>
    0 ≤ width →
      inner.left = outer.left ∧ inner.right ≤ outer.right ∧ inner.width = min width outer.width
  | framed left width =>
    0 ≤ left → left ≤ outer.pageWidth → 0 ≤ width →
      inner.left = left ∧ inner.right = min (left + width) outer.pageWidth

theorem Scope.bounds_inside (outer : Extent Rat) (scope : Scope Rat) :
    scope.Bounds outer (scope.inside outer) := by
  cases scope with
  | inset left right =>
    show outer.left ≤ (outer.inset left right).left ∧ (outer.inset left right).right ≤ outer.right
    rw [Extent.left_inset, Extent.right_inset]
    exact ⟨le_add_of_nonneg_right (le_max_left ..), sub_le_self _ (le_max_left ..)⟩
  | narrowed width =>
    cases width with
    | none => rfl
    | some width =>
      intro nonneg
      have sized := Extent.width_narrowed outer nonneg
      rw [min_comm] at sized
      refine ⟨?_, ?_, sized⟩
      · show (if outer.width ≤ width then outer else outer.inset _ _).left = outer.left
        split
        · rfl
        · rw [Extent.left_inset, Scalar.zero_rat, max_self, add_zero]
      · show (if outer.width ≤ width then outer else outer.inset _ _).right ≤ outer.right
        split
        · exact le_refl _
        · rw [Extent.right_inset]
          exact sub_le_self _ (le_max_left ..)
  | framed left width =>
    intro nonneg _ _
    show (outer.framed left width).left = left ∧ (outer.framed left width).right = _
    rw [Extent.left_framed, Extent.right_framed, max_eq_right nonneg]
    refine ⟨rfl, ?_⟩
    rcases le_total (left + width) outer.pageWidth with fits | wide
    · have room : 0 ≤ outer.pageWidth - left - width := by linarith
      rw [min_eq_left fits, max_eq_right room]
      linarith
    · have none : outer.pageWidth - left - width ≤ 0 := by linarith
      rw [min_eq_right wide, max_eq_left none, sub_zero]

/-! ## The boxes of a session -/

/-- Whether an action enters or leaves a content box. -/
def Action.movesBox : Action → Bool
  | .push _ _ | .narrow _ | .frame _ _ | .leave => true
  | _ => false

/-- An action that neither enters nor leaves a content box. -/
abbrev InnerAction := { action : Action // action.movesBox = false }

/-- The action of a turn. -/
def BoxTurn.action : BoxTurn Float InnerAction → Action
  | .enter (.inset left right) => .push left right
  | .enter (.narrowed width) => .narrow width
  | .enter (.framed left width) => .frame left width
  | .leave => .leave
  | .act action => action

namespace Session

/-- The session behind several turns, whatever faults the actions meet. -/
def after (session : Session) (turns : List (BoxTurn Float InnerAction)) : Session :=
  turns.foldl (fun session turn => (session.act turn.action).session) session

/-- A reaction leaves the content box and the boxes to go back to as they were. -/
def KeepsBoxes (session : Session) (reaction : Reaction) : Prop :=
  reaction.session.insets = session.insets ∧ reaction.session.entered = session.entered

variable {session : Session}

theorem keepsBoxes_carryOut (layout : Layout Float) :
    session.KeepsBoxes (session.carryOut layout) := by
  unfold carryOut
  dsimp only
  split <;> exact ⟨rfl, rfl⟩

theorem keepsBoxes_withNode (node : Value) (lay : Node → Layout Float) :
    session.KeepsBoxes (session.withNode node lay) := by
  unfold withNode
  split
  · exact ⟨rfl, rfl⟩
  · exact keepsBoxes_carryOut _

theorem keepsBoxes_beginPage (node : Value) : session.KeepsBoxes (session.beginPage node) := by
  unfold beginPage
  split
  · exact ⟨rfl, rfl⟩
  · exact keepsBoxes_carryOut _
  · exact ⟨rfl, rfl⟩

theorem keepsBoxes_order (command : Command) : session.KeepsBoxes (session.order command) := by
  unfold order
  split
  · split <;> exact ⟨rfl, rfl⟩
  · split <;> exact ⟨rfl, rfl⟩

theorem keepsBoxes_onPrinter (act : Registers → Printing) :
    session.KeepsBoxes (session.onPrinter act) := by
  unfold onPrinter
  split <;> exact ⟨rfl, rfl⟩

theorem keepsBoxes_onPage (answer : Answer) : session.KeepsBoxes (session.onPage answer) := by
  unfold onPage
  split <;> exact ⟨rfl, rfl⟩

/-- Only entering and leaving change the boxes, also where an action meets a fault. -/
theorem keepsBoxes_act (action : InnerAction) : session.KeepsBoxes (session.act action) := by
  obtain ⟨action, inner⟩ := action
  cases action with
  | push _ _ | narrow _ | frame _ _ | leave => cases inner
  | beginDocument | text _ _ | row _ _ | divider _ | space _ | picture _ _ _ | symbol _ _ _ _ =>
    exact keepsBoxes_carryOut _
  | beginPage node => exact keepsBoxes_beginPage node
  | emptyView style =>
    unfold act
    dsimp only
    split
    · exact ⟨rfl, rfl⟩
    · exact keepsBoxes_carryOut _
  | setRegisters _ _ _ | writeLine _ => exact keepsBoxes_onPrinter _
  | visit node _ | run node => exact keepsBoxes_withNode node _
  | forget | advance _ | setAlign _ | note _ _ => exact ⟨rfl, rfl⟩
  | finalHeight | wrap _ _ _ _ => exact keepsBoxes_onPage _
  | order command => exact keepsBoxes_order command

theorem after_append (session : Session) (first second : List (BoxTurn Float InnerAction)) :
    session.after (first ++ second) = (session.after first).after second := List.foldl_append

theorem after_cons (session : Session) (turn : BoxTurn Float InnerAction)
    (turns : List (BoxTurn Float InnerAction)) :
    session.after (turn :: turns) = (session.act turn.action).session.after turns := rfl

/-- Entering a scope keeps the insets from before it. -/
theorem act_enter (session : Session) (scope : Scope Float) :
    let inside := (session.act (BoxTurn.enter scope).action).session
    inside.insets = (scope.inside session.extent).insets ∧
      inside.entered = session.insets :: session.entered := by
  cases scope <;> exact ⟨rfl, rfl⟩

/-- Leaving goes back to the insets that were kept. -/
theorem act_leave {session : Session} {insets : List (Float × Float)}
    {entered : List (List (Float × Float))} (kept : session.entered = insets :: entered) :
    (session.act .leave).session.insets = insets ∧
      (session.act .leave).session.entered = entered := by
  unfold act
  rw [kept]
  exact ⟨rfl, rfl⟩

/-- Work in a session leaves the content box and the boxes to go back to as they were. -/
theorem keepsBoxes_turns (session : Session) (work : Work Float InnerAction) :
    (session.after work.turns).insets = session.insets ∧
      (session.after work.turns).entered = session.entered := by
  induction work generalizing session with
  | nothing => exact ⟨rfl, rfl⟩
  | act action raises => exact keepsBoxes_act action
  | andThen first second ih ih' =>
    rw [Work.turns, after_append]
    split
    · exact ih session
    · have behind := ih' (session.after first.turns)
      exact ⟨behind.1.trans (ih session).1, behind.2.trans (ih session).2⟩
  | within scope work ih =>
    rw [Work.turns, after_cons, after_append]
    have inner := ih (session.act (BoxTurn.enter scope).action).session
    exact act_leave (inner.2.trans (session.act_enter scope).2)

end Session

/-- Every scope is undone when it is left, also by work that raised; and inside it, while no further
scope is open, the box is bounded by the one around it. A session, which enters and leaves boxes by
its actions, has the boxes that the stack has. -/
theorem scopes_nest {β : Type} (stack : BoxStack Rat) (scope : Scope Rat) (work : Work Rat β) :
    stack.run (Work.within scope work).turns = stack ∧
      scope.Bounds stack.extent (stack.run (.enter scope :: work.turns)).extent ∧
      0 ≤ stack.extent.width ∧
      ∀ (session : Session) (scope : Scope Float) (work : Work Float InnerAction),
        (session.after (.enter scope :: work.turns)).insets = (scope.inside session.extent).insets ∧
          (session.after (Work.within scope work).turns).insets = session.insets ∧
          (session.after (Work.within scope work).turns).entered = session.entered := by
  obtain ⟨inside, behind⟩ := stack.run_within scope work
  refine ⟨behind, ?_, stack.extent.width_nonneg, fun session scope work => ⟨?_, ?_⟩⟩
  · rw [inside]
    exact scope.bounds_inside stack.extent
  · have inner := Session.keepsBoxes_turns (session.act (BoxTurn.enter scope).action).session work
    exact inner.1.trans (session.act_enter scope).1
  · exact session.keepsBoxes_turns (.within scope work)

end Receipt
