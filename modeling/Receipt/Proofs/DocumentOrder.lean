import Mathlib.Data.List.Perm.Subperm
import Mathlib.Logic.Relation
import Receipt.Value.Basic
import Receipt.Tree.Fault
import Receipt.Tree.Node

/-!
# Entries in document order

A tree arrives as entries that refer to a table of shared values, and a shared value may stand below
several parents or below itself. A `Graph` says how such entries are read. Walking down from a root,
every `Visit` of an entry has an address: the numbers of the children on the way. Addresses compare
as lists, an address before its extensions, and that is document order.

`Graph.Clear` says that no visit below a visit is bad, `Graph.First` that a bad visit is the first one
in document order; the lemmas about both follow a walk that looks at a visit and then at its children
from left to right. `forall_visits_iff` and `never_reenters_iff` say what is true of every visit
without visits: something of every entry within reach, and that no entry encloses itself.
-/

namespace Receipt

namespace Value

/-- Whether a value is a reference. -/
def isShared : Value → Bool
  | shared _ => true
  | _ => false

end Value

/-- How entries are read: the values that they may share, the type name of a value and its entries,
which are parts of it. -/
structure Graph where
  table : List Value
  typeName : Value → String
  entries : Value → List Value
  smaller : ∀ value, ∀ entry ∈ entries value, sizeOf entry < sizeOf value

/-- An entry where it is met: its place, and the numbers of the shared entries around it, innermost
first. -/
structure Visit where
  entry : Value
  place : Place
  around : List Nat

namespace Visit

/-- The visit of a root. -/
def start (root : Value) : Visit := ⟨root, .root, []⟩

/-- The number of an entry that is shared. -/
def identity (visit : Visit) : Option Nat :=
  match visit.entry with
  | .shared index => some index
  | _ => none

/-- The entry is met again inside itself. -/
def Reenters (visit : Visit) : Prop := ∃ index ∈ visit.around, visit.entry = .shared index

theorem identity_eq_some {visit : Visit} {index : Nat} :
    visit.identity = some index ↔ visit.entry = .shared index := by
  unfold identity
  split
  · rename_i found same
    rw [same]
    simp
  · rename_i other
    constructor
    · nofun
    · exact fun same => absurd same (other index)

theorem not_reenters_of_not_isShared {visit : Visit} (own : visit.entry.isShared = false) :
    ¬ visit.Reenters := by
  rintro ⟨index, _, same⟩
  rw [same] at own
  cases own

theorem identity_of_not_isShared (visit : Visit) (own : visit.entry.isShared = false) :
    visit.identity = none := by
  unfold identity
  split
  · rename_i same
    rw [same] at own
    cases own
  · rfl

end Visit

namespace Graph

variable (graph : Graph)

/-- The value that an entry is, or refers to. -/
def value : Value → Value
  | .shared index => (graph.table[index]?).getD .null
  | entry => entry

/-- An entry stands directly under another one. -/
def Under (parent child : Value) : Prop := child ∈ graph.entries (graph.value parent)

/-- An entry is within reach of another one, which is itself within its reach. -/
def Reaches : Value → Value → Prop := Relation.ReflTransGen graph.Under

/-- An entry stands somewhere under another one. -/
def Encloses : Value → Value → Prop := Relation.TransGen graph.Under

/-- No entry within reach of a root encloses itself. -/
def Acyclic (root : Value) : Prop :=
  ∀ entry, graph.Reaches root entry → ¬ graph.Encloses entry entry

/-- The path of an entry, by its type name. -/
def path (visit : Visit) : String :=
  childPath visit.place.parent (graph.typeName (graph.value visit.entry)) visit.place.index

/-- The numbers of the shared entries around the children of an entry. -/
def aroundChildren (visit : Visit) : List Nat := visit.identity.toList ++ visit.around

/-- An entry that is not shared leaves no trace around its children. -/
theorem aroundChildren_of_not_isShared (visit : Visit) (own : visit.entry.isShared = false) :
    aroundChildren visit = visit.around := by
  unfold aroundChildren
  rw [visit.identity_of_not_isShared own]
  rfl

/-- The visit of the child with a number. -/
def child? (visit : Visit) (number : Nat) : Option Visit :=
  (graph.entries (graph.value visit.entry))[number]?.map fun entry =>
    ⟨entry, ⟨graph.path visit, number⟩, aroundChildren visit⟩

/-- The visit at an address below a visit. -/
def follow? (visit : Visit) : List Nat → Option Visit
  | [] => some visit
  | number :: numbers => (graph.child? visit number).bind fun child => follow? child numbers

/-- No visit at or below a visit is bad. -/
def Clear (bad : Visit → Prop) (visit : Visit) : Prop :=
  ∀ address found, graph.follow? visit address = some found → ¬ bad found

/-- A visit is the first bad one at or below another, in document order. -/
def First (bad : Visit → Prop) (visit found : Visit) : Prop :=
  ∃ address, graph.follow? visit address = some found ∧ bad found ∧
    ∀ earlier < address, ∀ other, graph.follow? visit earlier = some other → ¬ bad other

/-- No visit below the children from a number on is bad. -/
def ClearFrom (bad : Visit → Prop) (visit : Visit) (number : Nat) : Prop :=
  ∀ later ≥ number, ∀ child, graph.child? visit later = some child → graph.Clear bad child

/-- A visit is the first bad one below the children from a number on. -/
def FirstFrom (bad : Visit → Prop) (visit : Visit) (number : Nat) (found : Visit) : Prop :=
  ∃ later ≥ number, ∃ child, graph.child? visit later = some child ∧ graph.First bad child found ∧
    ∀ between, number ≤ between → between < later → ∀ other,
      graph.child? visit between = some other → graph.Clear bad other

variable {graph} in
theorem value_of_not_isShared {entry : Value} (own : entry.isShared = false) :
    graph.value entry = entry := by
  cases entry with
  | shared index => cases own
  | _ => rfl

theorem value_shared {index : Nat} (inside : index < graph.table.length) :
    graph.value (.shared index) = graph.table[index] := by
  show (graph.table[index]?).getD .null = _
  rw [List.getElem?_eq_getElem inside]
  rfl

/-! ## Looking from left to right -/

section Search

variable {graph} {bad : Visit → Prop} {visit child found : Visit} {number : Nat}

theorem child?_eq_some : graph.child? visit number = some child ↔
    ∃ entry, (graph.entries (graph.value visit.entry))[number]? = some entry ∧
      child = ⟨entry, ⟨graph.path visit, number⟩, aroundChildren visit⟩ := by
  unfold child?
  rw [Option.map_eq_some_iff]
  constructor
  · rintro ⟨entry, inside, rfl⟩
    exact ⟨entry, inside, rfl⟩
  · rintro ⟨entry, inside, rfl⟩
    exact ⟨entry, inside, rfl⟩

/-- The first of the entries from a number on is the child with that number. -/
theorem child?_of_drop {entry : Value} {entries : List Value}
    (rest : (graph.entries (graph.value visit.entry)).drop number = entry :: entries) :
    graph.child? visit number =
        some ⟨entry, ⟨graph.path visit, number⟩, aroundChildren visit⟩ ∧
      (graph.entries (graph.value visit.entry)).drop (number + 1) = entries := by
  constructor
  · refine child?_eq_some.2 ⟨entry, ?_, rfl⟩
    rw [← List.head?_drop, rest]
    rfl
  · rw [← List.drop_drop, rest]
    rfl

theorem Clear.mono {worse : Visit → Prop} (clear : graph.Clear bad visit)
    (weaker : ∀ found, worse found → bad found) : graph.Clear worse visit :=
  fun address found followed isWorse => clear address found followed (weaker found isWorse)

/-- Below a clear visit all children are clear. -/
theorem Clear.clearFrom (clear : graph.Clear bad visit) (number : Nat) :
    graph.ClearFrom bad visit number := by
  intro later _ child here address found followed
  refine clear (later :: address) found ?_
  rw [follow?, here]
  exact followed

/-- Behind the next child all children are clear where they are from this one on. -/
theorem ClearFrom.next (clear : graph.ClearFrom bad visit number) :
    graph.ClearFrom bad visit (number + 1) :=
  fun later least => clear later (Nat.le_of_succ_le least)

theorem First.not_clear (first : graph.First bad visit found) : ¬ graph.Clear bad visit := by
  obtain ⟨address, followed, isBad, _⟩ := first
  exact fun clear => clear address found followed isBad

/-- A visit is clear when it is not bad and its children are clear. -/
theorem clear_of_children (good : ¬ bad visit) (clear : graph.ClearFrom bad visit 0) :
    graph.Clear bad visit := by
  intro address found followed
  cases address with
  | nil =>
    obtain rfl := Option.some.inj followed
    exact good
  | cons number rest =>
    obtain ⟨child, here, followed⟩ := Option.bind_eq_some_iff.1 followed
    exact clear number (Nat.zero_le _) child here rest found followed

/-- A bad visit is itself the first one. -/
theorem first_self (isBad : bad visit) : graph.First bad visit visit :=
  ⟨[], rfl, isBad, fun earlier before => absurd before (List.not_lt_nil earlier)⟩

/-- What comes first below the children of a good visit comes first below the visit. -/
theorem first_of_children (good : ¬ bad visit) (first : graph.FirstFrom bad visit 0 found) :
    graph.First bad visit found := by
  obtain ⟨number, _, child, here, ⟨address, followed, isBad, least⟩, clear⟩ := first
  refine ⟨number :: address, ?_, isBad, ?_⟩
  · rw [follow?, here]
    exact followed
  intro earlier before other met
  cases earlier with
  | nil =>
    obtain rfl := Option.some.inj met
    exact good
  | cons digit rest =>
    obtain ⟨through, reached, met⟩ := Option.bind_eq_some_iff.1 met
    rcases List.cons_lt_cons_iff.1 before with less | ⟨rfl, less⟩
    · exact clear digit (Nat.zero_le _) less through reached rest other met
    · rw [here] at reached
      obtain rfl := Option.some.inj reached
      exact least rest less other met

/-- Behind the last child nothing is bad. -/
theorem clearFrom_of_length_le
    (behind : (graph.entries (graph.value visit.entry)).length ≤ number) :
    graph.ClearFrom bad visit number := by
  intro later least child here
  obtain ⟨entry, inside, _⟩ := child?_eq_some.1 here
  rw [List.getElem?_eq_none (Nat.le_trans behind least)] at inside
  cases inside

theorem clearFrom_of_next (here : graph.child? visit number = some child)
    (own : graph.Clear bad child) (rest : graph.ClearFrom bad visit (number + 1)) :
    graph.ClearFrom bad visit number := by
  intro later least other met
  rcases Nat.eq_or_lt_of_le least with rfl | less
  · rw [here] at met
    obtain rfl := Option.some.inj met
    exact own
  · exact rest later less other met

theorem firstFrom_here (here : graph.child? visit number = some child)
    (first : graph.First bad child found) : graph.FirstFrom bad visit number found := by
  refine ⟨number, Nat.le_refl _, child, here, first, ?_⟩
  intro between least before
  omega

theorem firstFrom_of_next (here : graph.child? visit number = some child)
    (own : graph.Clear bad child) (rest : graph.FirstFrom bad visit (number + 1) found) :
    graph.FirstFrom bad visit number found := by
  obtain ⟨later, least, through, reached, first, clear⟩ := rest
  refine ⟨later, by omega, through, reached, first, ?_⟩
  intro between before behind other met
  rcases Nat.eq_or_lt_of_le before with rfl | less
  · rw [here] at met
    obtain rfl := Option.some.inj met
    exact own
  · exact clear between less behind other met

end Search

/-! ## What is true of every visit -/

section Reach

variable {graph} {visit child found : Visit} {root : Value}

theorem follow?_append (visit : Visit) (first second : List Nat) :
    graph.follow? visit (first ++ second) =
      (graph.follow? visit first).bind fun found => graph.follow? found second := by
  induction first generalizing visit with
  | nil => rfl
  | cons number rest ih =>
    rw [List.cons_append, follow?, follow?]
    cases graph.child? visit number with
    | none => rfl
    | some child => exact ih child

theorem under_of_child? {number : Nat} (here : graph.child? visit number = some child) :
    graph.Under visit.entry child.entry := by
  obtain ⟨entry, inside, rfl⟩ := child?_eq_some.1 here
  exact List.mem_of_getElem? inside

theorem exists_child?_of_under {entry : Value} (under : graph.Under visit.entry entry) :
    ∃ number child, graph.child? visit number = some child ∧ child.entry = entry := by
  obtain ⟨number, inside⟩ := List.mem_iff_getElem?.1 under
  exact ⟨number, _, child?_eq_some.2 ⟨entry, inside, rfl⟩, rfl⟩

theorem reaches_of_follow? {address : List Nat}
    (followed : graph.follow? visit address = some found) :
    graph.Reaches visit.entry found.entry := by
  induction address generalizing visit with
  | nil =>
    obtain rfl := Option.some.inj followed
    exact Relation.ReflTransGen.refl
  | cons number rest ih =>
    obtain ⟨child, here, followed⟩ := Option.bind_eq_some_iff.1 followed
    exact Relation.ReflTransGen.head (under_of_child? here) (ih followed)

/-- Whatever is within reach is met somewhere. -/
theorem exists_follow?_of_reaches {entry : Value} (reaches : graph.Reaches visit.entry entry) :
    ∃ address found, graph.follow? visit address = some found ∧ found.entry = entry := by
  induction reaches with
  | refl => exact ⟨[], visit, rfl, rfl⟩
  | tail _ under ih =>
    obtain ⟨address, parent, followed, rfl⟩ := ih
    obtain ⟨number, child, here, same⟩ := exists_child?_of_under under
    refine ⟨address ++ [number], child, ?_, same⟩
    rw [follow?_append, followed]
    show (graph.child? parent number).bind _ = some child
    rw [here]
    rfl

/-- What is around a visit stays around the visits below it. -/
theorem around_subset_of_follow? {address : List Nat}
    (followed : graph.follow? visit address = some found) : visit.around ⊆ found.around := by
  induction address generalizing visit with
  | nil =>
    obtain rfl := Option.some.inj followed
    exact List.Subset.refl _
  | cons number rest ih =>
    obtain ⟨child, here, followed⟩ := Option.bind_eq_some_iff.1 followed
    obtain ⟨entry, _, rfl⟩ := child?_eq_some.1 here
    exact fun index member => ih followed (List.mem_append_right _ member)

/-- What is around a visit was around before, or encloses the visit and is within reach. -/
theorem encloses_of_mem_around {address : List Nat}
    (followed : graph.follow? visit address = some found) {index : Nat}
    (member : index ∈ found.around) :
    index ∈ visit.around ∨
      graph.Reaches visit.entry (.shared index) ∧
        graph.Encloses (.shared index) found.entry := by
  induction address generalizing visit with
  | nil =>
    obtain rfl := Option.some.inj followed
    exact Or.inl member
  | cons number rest ih =>
    obtain ⟨child, here, followed⟩ := Option.bind_eq_some_iff.1 followed
    have under := under_of_child? here
    have below := reaches_of_follow? followed
    rcases ih followed with inside | ⟨reaches, encloses⟩
    · obtain ⟨entry, _, rfl⟩ := child?_eq_some.1 here
      rcases List.mem_append.1 inside with own | outer
      · have same := Visit.identity_eq_some.1 (Option.mem_toList.1 own)
        rw [same] at under ⊢
        exact Or.inr ⟨Relation.ReflTransGen.refl, Relation.TransGen.head' under below⟩
      · exact Or.inl outer
    · exact Or.inr ⟨Relation.ReflTransGen.head under reaches, encloses⟩

/-- A shared entry is around everything that it encloses. -/
theorem exists_follow?_of_encloses {index : Nat} {entry : Value}
    (shared : visit.entry = .shared index) (encloses : graph.Encloses visit.entry entry) :
    ∃ address found, graph.follow? visit address = some found ∧ found.entry = entry ∧
      index ∈ found.around := by
  obtain ⟨next, under, reaches⟩ := Relation.TransGen.head'_iff.1 encloses
  obtain ⟨number, child, here, rfl⟩ := exists_child?_of_under under
  obtain ⟨address, found, followed, same⟩ := exists_follow?_of_reaches reaches
  refine ⟨number :: address, found, ?_, same, ?_⟩
  · rw [follow?, here]
    exact followed
  · apply around_subset_of_follow? followed
    obtain ⟨_, _, rfl⟩ := child?_eq_some.1 here
    exact List.mem_append_left _ (Option.mem_toList.2 (Visit.identity_eq_some.2 shared))

variable (graph) in
/-- Something is true of the value of every visit when it is of every entry within reach. -/
theorem forall_visits_iff (property : Value → Prop) (root : Value) :
    (∀ address found, graph.follow? (.start root) address = some found →
        property (graph.value found.entry)) ↔
      ∀ entry, graph.Reaches root entry → property (graph.value entry) := by
  constructor
  · intro holds entry reaches
    have fromStart : graph.Reaches (Visit.start root).entry entry := reaches
    obtain ⟨address, found, followed, rfl⟩ := exists_follow?_of_reaches fromStart
    exact holds address found followed
  · intro holds address found followed
    exact holds found.entry (reaches_of_follow? followed)

/-- What an entry encloses is a part of it, or stands under a shared entry within its reach. -/
theorem shared_or_smaller_of_encloses {outer inner : Value} (encloses : graph.Encloses outer inner) :
    (∃ index, graph.Reaches outer (.shared index) ∧ graph.Encloses (.shared index) inner) ∨
      sizeOf inner < sizeOf outer := by
  have step (parent child : Value) (under : graph.Under parent child) :
      (∃ index, parent = .shared index) ∨ sizeOf child < sizeOf parent := by
    cases parent with
    | shared index => exact Or.inl ⟨index, rfl⟩
    | _ => exact Or.inr (graph.smaller _ child under)
  induction encloses with
  | single under =>
    rcases step _ _ under with ⟨index, rfl⟩ | smaller
    · exact Or.inl ⟨index, Relation.ReflTransGen.refl, Relation.TransGen.single under⟩
    · exact Or.inr smaller
  | tail above under ih =>
    rcases step _ _ under with ⟨index, rfl⟩ | smaller
    · exact Or.inl ⟨index, above.to_reflTransGen, Relation.TransGen.single under⟩
    · rcases ih with ⟨index, reaches, below⟩ | least
      · exact Or.inl ⟨index, reaches, below.tail under⟩
      · exact Or.inr (Nat.lt_trans smaller least)

/-- Where an entry encloses itself, a shared entry within its reach does. -/
theorem exists_shared_of_encloses_self {entry : Value} (encloses : graph.Encloses entry entry) :
    ∃ index, graph.Reaches entry (.shared index) ∧
      graph.Encloses (.shared index) (.shared index) := by
  rcases shared_or_smaller_of_encloses encloses with ⟨index, reaches, below⟩ | smaller
  · exact ⟨index, reaches, Relation.TransGen.trans_left below reaches⟩
  · exact absurd smaller (Nat.lt_irrefl _)

variable (graph) in
/-- No visit meets an entry inside itself exactly when no entry encloses itself. -/
theorem never_reenters_iff (root : Value) :
    graph.Clear Visit.Reenters (.start root) ↔ graph.Acyclic root := by
  constructor
  · intro never entry within closed
    obtain ⟨index, further, encloses⟩ := exists_shared_of_encloses_self closed
    have reaches : graph.Reaches (Visit.start root).entry (.shared index) := within.trans further
    obtain ⟨address, outer, reached, same⟩ := exists_follow?_of_reaches reaches
    rw [← same] at encloses
    obtain ⟨further, inner, followed, again, member⟩ := exists_follow?_of_encloses same encloses
    refine never (address ++ further) inner ?_ ⟨index, member, again.trans same⟩
    rw [follow?_append, reached]
    exact followed
  · intro acyclic address found followed
    rintro ⟨index, member, same⟩
    rcases encloses_of_mem_around followed member with outer | ⟨reaches, encloses⟩
    · cases outer
    · rw [same] at encloses
      exact acyclic _ reaches encloses

end Reach

end Graph

/-! ## Room for a walk

A walk that may open so many shared entries and has so many steps left never runs out of them: the
open entries are all different. -/

/-- The numbers of the open entries are different ones out of `count`, and there is a step left for
each of the others and one more. -/
structure Room (count fuel : Nat) (numbers : List Nat) : Prop where
  nodup : numbers.Nodup
  bound : ∀ number ∈ numbers, number < count
  steps : count < fuel + numbers.length

namespace Room

variable {count fuel : Nat} {numbers : List Nat}

theorem start (count : Nat) : Room count (count + 1) [] where
  nodup := List.nodup_nil
  bound _ member := by cases member
  steps := by simp

theorem pos (room : Room count fuel numbers) : 0 < fuel := by
  have inside : numbers ⊆ List.range count :=
    fun number member => List.mem_range.2 (room.bound number member)
  have few := (room.nodup.subperm inside).length_le
  have steps := room.steps
  rw [List.length_range] at few
  omega

/-- Opening one more entry takes a step. -/
theorem enter (room : Room count (fuel + 1) numbers) {number : Nat} (fresh : number ∉ numbers)
    (inside : number < count) : Room count fuel (number :: numbers) where
  nodup := List.nodup_cons.2 ⟨fresh, room.nodup⟩
  bound other member := by
    rcases List.mem_cons.1 member with rfl | later
    · exact inside
    · exact room.bound other later
  steps := by
    have steps := room.steps
    rw [List.length_cons]
    omega

end Room

end Receipt
