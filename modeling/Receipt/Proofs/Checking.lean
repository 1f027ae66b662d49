import Receipt.Proofs.DocumentOrder
import Receipt.Tree.Check

/-!
# Checking decides which graphs are trees

`Value.toNode` walks a graph of elements that may share elements and may refer back to an element
around them. `WellFormed` says when such a graph is a tree: every entry within reach is a sound
element, and no element is its own ancestor. Sharing alone does no harm.

`toNode_decides`: a graph has a tree exactly when it is well formed; otherwise the fault that is
reported is the first flaw (`Graph.FirstFlaw`) of the first entry in document order that has one
(`Graph.First`), with the path of that entry. The walk has a step for every value of the table and one
more, and that is always enough: the elements that are open are all different (`Room`).
-/

namespace Receipt

namespace Flaw

/-- The place of a flaw in the order in which an entry is looked at. -/
def rank : Flaw → Nat
  | noMapping _ | noElement _ => 0
  | noType => 1
  | cycle => 2
  | looseProps => 3
  | looseStyle => 4

end Flaw

namespace Value

/-- Whether a value is a name: a text that is not empty. -/
def isName : Value → Bool
  | text content => !content.isEmpty
  | _ => false

/-- Whether a value is a mapping. -/
def isMapping : Value → Bool
  | mapping _ => true
  | _ => false

/-- Whether an element has a flaw of its own, and any other value the flaw that it is no element. -/
def hasFlaw : Value → Flaw → Bool
  | element type props style _, flaw =>
    match flaw with
    | .noType => !type.isName
    | .looseProps => !props.isMapping
    | .looseStyle => !(style.isNull || style.isMapping)
    | .noMapping _ | .noElement _ | .cycle => false
  | value, flaw => flaw == .noElement value.kindName

/-- Whether a value is an element with a type name, props that are a mapping and, if it has one, a
style that is a mapping. -/
def isSound : Value → Bool
  | element type props style _ => type.isName && props.isMapping && (style.isNull || style.isMapping)
  | _ => false

/-- The type name of an element, empty when it has none. -/
def elementName : Value → String
  | element (text type) _ _ _ => type
  | _ => ""

/-- The children of an element. -/
def elementChildren : Value → List Value
  | element _ _ _ children => children
  | _ => []

mutual

/-- Whether no entry is null, and all references lead into a table with so many values. -/
def isEntry (count : Nat) : Value → Bool
  | null => false
  | shared index => index < count
  | element _ _ _ children => areEntries count children
  | bool _ | int _ | float _ | text _ | bytes _ | picture _ | samples _ | member _ | list _
  | mapping _ => true

/-- Whether this holds of several entries. -/
def areEntries (count : Nat) : List Value → Bool
  | [] => true
  | entry :: entries => isEntry count entry && areEntries count entries

end

end Value

namespace Graph

/-- The graph of elements. -/
def ofElements (table : List Value) : Graph where
  table := table
  typeName := Value.elementName
  entries := Value.elementChildren
  smaller value child member := by
    cases value with
    | element type props style children =>
      have part := List.sizeOf_lt_of_mem member
      simp only [Value.elementChildren, Value.element.sizeOf_spec] at part ⊢
      omega
    | _ => cases member

/-- A visit has a flaw: the one of its value, or that it meets an element inside itself. -/
def Flawed (graph : Graph) (visit : Visit) (flaw : Flaw) : Prop :=
  (graph.value visit.entry).hasFlaw flaw ∨ flaw = .cycle ∧ visit.Reenters

/-- A visit has a flaw. -/
def AnyFlaw (graph : Graph) (visit : Visit) : Prop := ∃ flaw, graph.Flawed visit flaw

/-- A flaw of a visit that comes before its others. -/
def FirstFlaw (graph : Graph) (visit : Visit) (flaw : Flaw) : Prop :=
  graph.Flawed visit flaw ∧ ∀ other, graph.Flawed visit other → flaw.rank ≤ other.rank

/-- The path that is named with a flaw: that of the element when it has a type name. -/
def flawPath (graph : Graph) (visit : Visit) : Flaw → String
  | .noMapping _ | .noElement _ | .noType => visit.place.unnamed
  | .cycle | .looseProps | .looseStyle => graph.path visit

end Graph

/-- A table and a root that make a graph of entries: no null stands for an entry, references lead into
the table, and no value in the table is itself a reference. -/
structure IsGraph (table : List Value) (root : Value) : Prop where
  values : ∀ value ∈ table, value.isEntry table.length ∧ value.isShared = false
  root : root.isEntry table.length

/-- Every entry within reach is a sound element, and no element is its own ancestor. -/
structure WellFormed (table : List Value) (root : Value) : Prop where
  sound : ∀ entry, (Graph.ofElements table).Reaches root entry →
    ((Graph.ofElements table).value entry).isSound
  acyclic : (Graph.ofElements table).Acyclic root

/-! ## The flaws of a single entry -/

namespace Value

theorem isName_iff {value : Value} :
    value.isName = true ↔ ∃ name, value = text name ∧ name.isEmpty = false := by
  constructor
  · intro named
    cases value with
    | text name => exact ⟨name, rfl, by simpa [isName] using named⟩
    | _ => cases named
  · rintro ⟨name, rfl, full⟩
    simp [isName, full]

theorem isMapping_iff {value : Value} : value.isMapping = true ↔ ∃ fields, value = mapping fields := by
  constructor
  · intro mapped
    cases value with
    | mapping fields => exact ⟨fields, rfl⟩
    | _ => cases mapped
  · rintro ⟨fields, rfl⟩
    rfl

end Value

theorem checkParts_of_not_isName {place : Place} {cyclic : Bool} {type props style : Value}
    (unnamed : type.isName = false) :
    checkParts place cyclic type props style = .error (.flawed place.unnamed .noType) := by
  cases type with
  | text name =>
    have empty : name.isEmpty := by simpa [Value.isName] using unnamed
    exact if_pos empty
  | _ => rfl

/-- An element with a type name is looked at for a cycle, its props and its style, in this order. -/
theorem checkParts_text (place : Place) (cyclic : Bool) {name : String}
    (full : name.isEmpty = false) (props style : Value) :
    checkParts place cyclic (.text name) props style =
      if cyclic then .error (.flawed (childPath place.parent name place.index) .cycle)
      else
        match props with
        | .mapping props =>
          match style with
          | .null => .ok (name, props, none)
          | .mapping style => .ok (name, props, some style)
          | _ => .error (.flawed (childPath place.parent name place.index) .looseStyle)
        | _ => .error (.flawed (childPath place.parent name place.index) .looseProps) := by
  have filled : ¬ name.isEmpty := by simp [full]
  exact if_neg filled

theorem Value.isSound_iff (value : Value) :
    value.isSound ↔ ∀ flaw, value.hasFlaw flaw = false := by
  constructor
  · intro sound flaw
    cases value with
    | element type props style children =>
      simp only [isSound, Bool.and_eq_true] at sound
      cases flaw <;> simp [hasFlaw, sound]
    | _ => cases sound
  · intro none
    have other := none (.noElement value.kindName)
    cases value with
    | element type props style children =>
      have named := none .noType
      have propped := none .looseProps
      have styled := none .looseStyle
      simp only [hasFlaw, Bool.not_eq_false'] at named propped styled
      simp [isSound, named, propped, styled]
    | _ => simp [hasFlaw] at other

namespace Graph

open Value

variable {table : List Value} {visit : Visit}

/-- The only flaw of what is no element. -/
theorem firstFlaw_noElement {graph : Graph} {kind : String}
    (own : ∀ flaw, (graph.value visit.entry).hasFlaw flaw = (flaw == .noElement kind)) :
    graph.FirstFlaw visit (.noElement kind) := by
  refine ⟨Or.inl ?_, fun other _ => Nat.zero_le _⟩
  rw [own]
  exact beq_self_eq_true _

/-- The flaws of an element, in the order in which it is looked at. -/
theorem flawed_element_iff {type props style : Value} {children : List Value}
    (here : (ofElements table).value visit.entry = element type props style children)
    (flaw : Flaw) :
    (ofElements table).Flawed visit flaw ↔
      flaw = .noType ∧ type.isName = false ∨ flaw = .cycle ∧ visit.Reenters ∨
        flaw = .looseProps ∧ props.isMapping = false ∨
          flaw = .looseStyle ∧ (style.isNull || style.isMapping) = false := by
  unfold Flawed
  rw [here]
  cases flaw <;> simp [hasFlaw]

/-- A flaw of an element is its first one when none of those that are looked for before it is there. -/
theorem firstFlaw_element {type props style : Value} {children : List Value}
    (here : (ofElements table).value visit.entry = element type props style children) {flaw : Flaw}
    (own : (ofElements table).Flawed visit flaw)
    (named : Flaw.noType.rank < flaw.rank → type.isName = true)
    (fresh : Flaw.cycle.rank < flaw.rank → ¬ visit.Reenters)
    (propped : Flaw.looseProps.rank < flaw.rank → props.isMapping = true) :
    (ofElements table).FirstFlaw visit flaw := by
  refine ⟨own, fun other found => Nat.le_of_not_lt fun before => ?_⟩
  rcases (flawed_element_iff here other).1 found with
    ⟨rfl, unnamed⟩ | ⟨rfl, again⟩ | ⟨rfl, loose⟩ | ⟨rfl, _⟩
  · rw [named before] at unnamed
    cases unnamed
  · exact fresh before again
  · rw [propped before] at loose
    cases loose
  · cases flaw <;> simp [Flaw.rank] at before

/-- What `checkParts` says of an element is its first flaw. -/
theorem checkParts_cases {type props style : Value} {children : List Value}
    (here : (ofElements table).value visit.entry = element type props style children)
    {cyclic : Bool} (again : cyclic = true ↔ visit.Reenters) :
    (∃ name fields own, checkParts visit.place cyclic type props style = .ok (name, fields, own) ∧
        childPath visit.place.parent name visit.place.index = (ofElements table).path visit ∧
        ¬ (ofElements table).AnyFlaw visit) ∨
      ∃ flaw, (ofElements table).FirstFlaw visit flaw ∧
        checkParts visit.place cyclic type props style =
          .error (.flawed ((ofElements table).flawPath visit flaw) flaw) := by
  have flaws := flawed_element_iff here
  by_cases unnamed : type.isName = false
  · have own : (ofElements table).Flawed visit .noType := by simp [flaws, unnamed]
    exact Or.inr ⟨.noType, firstFlaw_element here own nofun nofun nofun,
      checkParts_of_not_isName unnamed⟩
  have named := eq_true_of_ne_false unnamed
  obtain ⟨name, rfl, full⟩ := isName_iff.1 named
  have path : childPath visit.place.parent name visit.place.index =
      (ofElements table).path visit := by
    unfold Graph.path
    rw [here]
    rfl
  have said := checkParts_text visit.place cyclic full props style
  rw [path] at said
  by_cases closed : cyclic = true
  · have own : (ofElements table).Flawed visit .cycle := by simp [flaws, again.1 closed]
    rw [if_pos closed] at said
    exact Or.inr ⟨.cycle, firstFlaw_element here own (fun _ => named) nofun nofun, said⟩
  have fresh : ¬ visit.Reenters := fun held => closed (again.2 held)
  rw [if_neg closed] at said
  by_cases loose : props.isMapping = false
  · have own : (ofElements table).Flawed visit .looseProps := by simp [flaws, loose]
    refine Or.inr ⟨.looseProps,
      firstFlaw_element here own (fun _ => named) (fun _ => fresh) nofun, ?_⟩
    rw [said]
    cases props with
    | mapping _ => cases loose
    | _ => rfl
  have propped := eq_true_of_ne_false loose
  obtain ⟨fields, rfl⟩ := isMapping_iff.1 propped
  by_cases unstyled : (style.isNull || style.isMapping) = false
  · have own : (ofElements table).Flawed visit .looseStyle := by simp [flaws, unstyled]
    refine Or.inr ⟨.looseStyle,
      firstFlaw_element here own (fun _ => named) (fun _ => fresh) (fun _ => propped), ?_⟩
    rw [said]
    cases style with
    | null | mapping _ => cases unstyled
    | _ => rfl
  have sound : ¬ (ofElements table).AnyFlaw visit := by
    rintro ⟨flaw, own⟩
    rcases (flaws flaw).1 own with ⟨_, no⟩ | ⟨_, no⟩ | ⟨_, no⟩ | ⟨_, no⟩
    · exact unnamed no
    · exact fresh no
    · exact loose no
    · exact unstyled no
  cases style with
  | null => exact Or.inl ⟨name, fields, none, said, path, sound⟩
  | mapping own => exact Or.inl ⟨name, fields, some own, said, path, sound⟩
  | _ => exact absurd rfl unstyled

end Graph

/-! ## The walk -/

namespace Opened

/-- The numbers of the open elements that are shared. -/
def numbers (opened : Opened) : List Nat := opened.filterMap id

theorem numbers_cons (identity : Option Nat) (opened : Opened) :
    numbers (identity :: opened) = identity.toList ++ numbers opened := by
  cases identity <;> rfl

theorem holds_identity {opened : Opened} {visit : Visit} (around : visit.around = numbers opened) :
    holds opened visit.identity = true ↔ visit.Reenters := by
  unfold Visit.Reenters holds
  rw [around]
  simp only [← Visit.identity_eq_some]
  cases visit.identity with
  | none => simp
  | some index => simp [numbers]

end Opened

namespace Value

open Receipt.Graph

/-- Walking an entry gives a node when nothing below it has a flaw, and leaves open what was open; or
it ends at the first flaw below it. -/
def Checks (table : List Value) (visit : Visit) (opened : Opened)
    (walked : Walked (Option Node)) : Prop :=
  (∃ node, walked = .ok (some node, opened) ∧
      (ofElements table).Clear (ofElements table).AnyFlaw visit) ∨
    ∃ found flaw, (ofElements table).First (ofElements table).AnyFlaw visit found ∧
      (ofElements table).FirstFlaw found flaw ∧
      walked = .error (.flawed ((ofElements table).flawPath found flaw) flaw)

/-- The same of the children of an entry, from a number on. -/
def ChecksFrom (table : List Value) (visit : Visit) (number : Nat) (opened : Opened)
    (walked : Walked (List Node)) : Prop :=
  (∃ nodes, walked = .ok (nodes, opened) ∧
      (ofElements table).ClearFrom (ofElements table).AnyFlaw visit number) ∨
    ∃ found flaw, (ofElements table).FirstFrom (ofElements table).AnyFlaw visit number found ∧
      (ofElements table).FirstFlaw found flaw ∧
      walked = .error (.flawed ((ofElements table).flawPath found flaw) flaw)

variable {table : List Value} {fuel : Nat}
  {follow : Opened → Place → Nat → Walked (Option Node)}

/-- What a walk does with an element, when its children are walked as they should be. -/
theorem checks_element {visit : Visit} {opened : Opened} {type props style : Value}
    {children : List Value}
    (here : (ofElements table).value visit.entry = element type props style children)
    (around : visit.around = Opened.numbers opened)
    (below : ¬ visit.Reenters → ChecksFrom table visit 0 (visit.identity :: opened)
      (walkAll follow (visit.identity :: opened) ((ofElements table).path visit) 0 children)) :
    Checks table visit opened
      (walk follow opened visit.identity visit.place (element type props style children)) := by
  rw [walk]
  rcases checkParts_cases here (Opened.holds_identity around) with
    ⟨name, fields, own, said, path, sound⟩ | ⟨flaw, first, said⟩
  · have entered : ¬ visit.Reenters := fun again => sound ⟨.cycle, Or.inr ⟨rfl, again⟩⟩
    rw [said]
    simp only
    rw [path]
    rcases below entered with ⟨nodes, walked, clear⟩ | ⟨found, flaw, first, least, walked⟩
    · rw [walked]
      exact Or.inl ⟨_, rfl, clear_of_children sound clear⟩
    · rw [walked]
      exact Or.inr ⟨found, flaw, first_of_children sound first, least, rfl⟩
  · rw [said]
    exact Or.inr ⟨visit, flaw, first_self ⟨flaw, first.1⟩, first, rfl⟩

/-- What a walk does with anything else. -/
theorem checks_other {visit : Visit} {opened : Opened} {kind : String} {walked : Walked (Option Node)}
    (own : ∀ flaw, ((ofElements table).value visit.entry).hasFlaw flaw = (flaw == .noElement kind))
    (said : walked = .error (.flawed visit.place.unnamed (.noElement kind))) :
    Checks table visit opened walked := by
  have first := firstFlaw_noElement own
  exact Or.inr ⟨visit, .noElement kind, first_self ⟨_, first.1⟩, first, said⟩

/-- What following a reference does while there is room. -/
def Follows (table : List Value) (fuel : Nat)
    (follow : Opened → Place → Nat → Walked (Option Node)) : Prop :=
  ∀ opened place index, Room table.length fuel (Opened.numbers opened) → index < table.length →
    Checks table ⟨.shared index, place, Opened.numbers opened⟩ opened (follow opened place index)

/-- An entry is followed when it is a reference, and else walked as it is. -/
theorem checks_entry (followed : Follows table fuel follow) {opened : Opened}
    (room : Room table.length fuel (Opened.numbers opened)) (place : Place) {entry : Value}
    (valid : entry.isEntry table.length)
    (own : entry.isShared = false →
      Checks table ⟨entry, place, Opened.numbers opened⟩ opened
        (walk follow opened none place entry)) :
    Checks table ⟨entry, place, Opened.numbers opened⟩ opened
      (walk follow opened none place entry) := by
  cases entry with
  | shared index =>
    rw [walk]
    exact followed opened place index room (by simpa [isEntry] using valid)
  | _ => exact own rfl

-- The induction is on the value that is walked; references are left to `followed`.
mutual

/-- Walking a value checks the visit that it is the value of. -/
theorem checks_walk (followed : Follows table fuel follow) :
    ∀ (value : Value) (visit : Visit) (opened : Opened),
      (ofElements table).value visit.entry = value → value.isShared = false →
      value.isEntry table.length → visit.around = Opened.numbers opened →
      (¬ visit.Reenters → Room table.length fuel (aroundChildren visit)) →
      Checks table visit opened (walk follow opened visit.identity visit.place value)
  | .element type props style children, visit, opened => by
    intro here _ valid around room
    refine checks_element here around fun entered => ?_
    have numbers : aroundChildren visit = Opened.numbers (visit.identity :: opened) := by
      rw [Opened.numbers_cons, ← around]
      rfl
    have entries : (ofElements table).entries ((ofElements table).value visit.entry) = children := by
      rw [here]
      rfl
    have below := room entered
    rw [numbers] at below
    exact checks_walkAll followed children visit _ 0 (by rw [entries, List.drop_zero])
      (by simpa [isEntry] using valid) numbers below
  | .null, _, _ => by
    intro _ _ valid
    cases valid
  | .shared index, _, _ => by
    intro _ own
    cases own
  | .bool _, _, _ | .int _, _, _ | .float _, _, _ | .text _, _, _ | .bytes _, _, _
  | .picture _, _, _ | .samples _, _, _ | .member _, _, _ | .list _, _, _ | .mapping _, _, _ => by
    intro here _ _ _ _
    exact checks_other (fun flaw => by rw [here]; rfl) rfl

/-- Walking the children of an entry checks the visits below them. -/
theorem checks_walkAll (followed : Follows table fuel follow) :
    ∀ (items : List Value) (visit : Visit) (opened : Opened) (number : Nat),
      ((ofElements table).entries ((ofElements table).value visit.entry)).drop number = items →
      areEntries table.length items → aroundChildren visit = Opened.numbers opened →
      Room table.length fuel (Opened.numbers opened) →
      ChecksFrom table visit number opened
        (walkAll follow opened ((ofElements table).path visit) number items)
  | [], visit, opened, number => by
    intro rest _ _ _
    exact Or.inl ⟨[], rfl, clearFrom_of_length_le (List.drop_eq_nil_iff.1 rest)⟩
  | item :: items, visit, opened, number => by
    intro rest valid around room
    let child : Visit := ⟨item, ⟨(ofElements table).path visit, number⟩, Opened.numbers opened⟩
    obtain ⟨met, later⟩ := child?_of_drop rest
    rw [around] at met
    rw [areEntries, Bool.and_eq_true] at valid
    have first : Checks table child opened (walk follow opened none child.place item) := by
      refine checks_entry followed room child.place valid.1 fun own => ?_
      have walked := checks_walk followed item child opened (value_of_not_isShared own) own valid.1
        rfl fun _ => by
          rw [aroundChildren_of_not_isShared child own]
          exact room
      rw [child.identity_of_not_isShared own] at walked
      exact walked
    rw [walkAll]
    rcases first with ⟨node, walked, clear⟩ | ⟨found, flaw, first, least, walked⟩
    · rw [walked]
      simp only
      rcases checks_walkAll followed items visit opened (number + 1) later valid.2 around room with
        ⟨nodes, rest, behind⟩ | ⟨found, flaw, first, least, rest⟩
      · rw [rest]
        exact Or.inl ⟨_, rfl, clearFrom_of_next met clear behind⟩
      · rw [rest]
        exact Or.inr ⟨found, flaw, firstFrom_of_next met clear first, least, rfl⟩
    · rw [walked]
      exact Or.inr ⟨found, flaw, firstFrom_here met first, least, rfl⟩

end

/-- References are followed as they should be while there is room. -/
theorem follows_walkShared {table : List Value}
    (values : ∀ value ∈ table, value.isEntry table.length ∧ value.isShared = false) (fuel : Nat) :
    Follows table fuel (walkShared table fuel) := by
  induction fuel with
  | zero =>
    intro opened place index room _
    exact absurd room.pos (Nat.lt_irrefl 0)
  | succ fuel ih =>
    intro opened place index room inside
    have entry := List.getElem?_eq_getElem inside
    have valid := values _ (List.getElem_mem inside)
    have here : (ofElements table).value (.shared index) = table[index] :=
      (ofElements table).value_shared inside
    rw [walkShared, entry]
    refine checks_walk ih table[index] ⟨.shared index, place, Opened.numbers opened⟩ opened here
      valid.2 valid.1 rfl fun fresh => room.enter (fun member => fresh ⟨index, member, rfl⟩) inside

/-- The walk from the root checks everything within reach. -/
theorem checks_root {table : List Value} {root : Value} (graph : IsGraph table root) :
    Checks table (.start root) [] (walk (walkShared table (table.length + 1)) [] none .root root) := by
  have followed := follows_walkShared graph.values (table.length + 1)
  have room : Room table.length (table.length + 1) (Opened.numbers []) := Room.start _
  refine checks_entry followed room .root graph.root fun own => ?_
  have walked := checks_walk followed root (.start root) [] (value_of_not_isShared own) own graph.root
    rfl fun _ => by
      rw [aroundChildren_of_not_isShared (.start root) own]
      exact room
  rw [(Visit.start root).identity_of_not_isShared own] at walked
  exact walked

end Value

open Receipt.Graph

/-- A visit without a flaw has a sound value and does not meet an element inside itself. -/
theorem Graph.not_anyFlaw_iff {graph : Graph} {visit : Visit} :
    ¬ graph.AnyFlaw visit ↔ (graph.value visit.entry).isSound ∧ ¬ visit.Reenters := by
  rw [Value.isSound_iff]
  constructor
  · intro none
    refine ⟨fun flaw => ?_, fun again => none ⟨.cycle, Or.inr ⟨rfl, again⟩⟩⟩
    by_contra given
    exact none ⟨flaw, Or.inl (eq_true_of_ne_false given)⟩
  · rintro ⟨sound, fresh⟩ ⟨flaw, own | ⟨_, again⟩⟩
    · rw [sound flaw] at own
      cases own
    · exact fresh again

/-- A graph is well formed when no visit from its root has a flaw. -/
theorem wellFormed_iff_clear (table : List Value) (root : Value) :
    WellFormed table root ↔
      (ofElements table).Clear (ofElements table).AnyFlaw (.start root) := by
  have sound := (ofElements table).forall_visits_iff (fun value => value.isSound = true) root
  have acyclic := (ofElements table).never_reenters_iff root
  constructor
  · intro formed address found followed
    rw [not_anyFlaw_iff]
    exact ⟨sound.2 formed.sound address found followed,
      acyclic.2 formed.acyclic address found followed⟩
  · intro clear
    refine ⟨sound.1 fun address found followed => ?_, acyclic.1 fun address found followed => ?_⟩
    · exact (not_anyFlaw_iff.1 (clear address found followed)).1
    · exact (not_anyFlaw_iff.1 (clear address found followed)).2

/-- Checking a graph gives its tree exactly when the graph is well formed; otherwise it reports the
first flaw of the first entry in document order that has one. -/
theorem toNode_decides {table : List Value} {root : Value} (graph : IsGraph table root) :
    ((∃ node, root.toNode table = .ok node) ↔ WellFormed table root) ∧
      ∀ fault, root.toNode table = .error fault →
        ∃ found flaw, (ofElements table).First (ofElements table).AnyFlaw (.start root) found ∧
          (ofElements table).FirstFlaw found flaw ∧
          fault = .flawed ((ofElements table).flawPath found flaw) flaw := by
  rw [wellFormed_iff_clear]
  unfold Value.toNode
  rcases Value.checks_root graph with ⟨node, walked, clear⟩ | ⟨found, flaw, first, least, walked⟩
  · rw [walked]
    exact ⟨⟨fun _ => clear, fun _ => ⟨node, rfl⟩⟩, nofun⟩
  · rw [walked]
    refine ⟨⟨nofun, fun clear => absurd clear first.not_clear⟩, ?_⟩
    intro fault same
    obtain rfl := Except.error.inj same
    exact ⟨found, flaw, first, least, rfl⟩

/-- A text that two pages share. -/
def sharedText : List Value :=
  [.element (.text "Text") (.mapping [("children", .text "Total")]) .null []]

/-- A document of two pages with the same text. -/
def sharedReceipt : Value :=
  .element (.text "Document") (.mapping []) .null
    [.element (.text "Page") (.mapping []) .null [.shared 0],
      .element (.text "Page") (.mapping []) .null [.shared 0, .shared 0]]

/-- A view that holds itself, behind a text whose style is no mapping; both are shared. -/
def knottedTable : List Value :=
  [.element (.text "View") (.mapping []) .null
      [.element (.text "Group") (.mapping []) .null [.shared 0], .shared 1],
    .element (.text "Text") (.mapping []) (.int 1) []]

theorem toNode_decides_sharedReceipt :
    IsGraph sharedText sharedReceipt ∧ WellFormed sharedText sharedReceipt ∧
      IsGraph knottedTable (.shared 0) ∧ ¬ WellFormed knottedTable (.shared 0) ∧
      ∃ found flaw,
        (ofElements knottedTable).First (ofElements knottedTable).AnyFlaw (.start (.shared 0)) found ∧
          (ofElements knottedTable).FirstFlaw found flaw ∧
          TreeFault.flawed "View/Group[0]/View[0]" .cycle =
            .flawed ((ofElements knottedTable).flawPath found flaw) flaw := by
  have shared : IsGraph sharedText sharedReceipt := ⟨by decide, by decide⟩
  have knotted : IsGraph knottedTable (.shared 0) := ⟨by decide, by decide⟩
  have refused : (Value.shared 0).toNode knottedTable =
      .error (.flawed "View/Group[0]/View[0]" .cycle) := by rfl
  refine ⟨shared, (toNode_decides shared).1.1 ⟨_, rfl⟩, knotted, ?_,
    (toNode_decides knotted).2 _ refused⟩
  intro formed
  obtain ⟨node, made⟩ := (toNode_decides knotted).1.2 formed
  rw [refused] at made
  cases made

end Receipt
