import Receipt.Convert
import Receipt.Proofs.Routes

/-!
# Null in place of an element

A null among the children of an element is no element, and a check that reports the first flaw would
name it. The walk does not: it takes a null for the end of the innermost open element, and goes on.
How it ends then is an account of its route (`Value.walkEnds_root`).

`reported_null_iff`: a graph with a null has no tree, but what is reported is never the null. Either
an element ends for which nothing is left open (`Graph.RunsOut`), or the first flaw that is no null is
reported; the path of the null is named only where the other path happens to be the same.
-/

namespace Receipt

/-! ## Linked tables -/

namespace Value

mutual

/-- Whether all references lead into a table with so many values. -/
def isLinked (count : Nat) : Value → Bool
  | shared index => index < count
  | element _ _ _ children => areLinked count children
  | null | bool _ | int _ | float _ | text _ | bytes _ | picture _ | samples _ | member _ | list _
  | mapping _ => true

/-- Whether those of several entries do. -/
def areLinked (count : Nat) : List Value → Bool
  | [] => true
  | entry :: entries => isLinked count entry && areLinked count entries

end

theorem areLinked_iff {count : Nat} {entries : List Value} :
    areLinked count entries = true ↔ ∀ entry ∈ entries, entry.isLinked count = true := by
  induction entries with
  | nil => simp [areLinked]
  | cons entry entries ih => simp [areLinked, ih]

end Value

/-- A table and a root whose references lead into the table, where no value is itself a reference. A
null may stand anywhere. -/
structure Linked (table : List Value) (root : Value) : Prop where
  values : ∀ value ∈ table, value.isLinked table.length ∧ value.isShared = false
  root : root.isLinked table.length

namespace Linked

open Receipt.Graph

variable {table : List Value} {root : Value}

/-- References lead into the table from everything within reach. -/
theorem of_reaches (linked : Linked table root) {entry : Value}
    (reaches : (ofElements table).Reaches root entry) : entry.isLinked table.length = true := by
  have parts {parent child : Value} (whole : parent.isLinked table.length = true)
      (member : child ∈ parent.elementChildren) : child.isLinked table.length = true := by
    cases parent with
    | element type props style children =>
      rw [Value.isLinked] at whole
      exact Value.areLinked_iff.1 whole child member
    | _ => cases member
  induction reaches with
  | refl => exact linked.root
  | @tail parent child _ under whole =>
    refine parts ?_ under
    cases parent with
    | shared index =>
      have inside : index < table.length := by simpa [Value.isLinked] using whole
      rw [(ofElements table).value_shared inside]
      exact (linked.values _ (List.getElem_mem inside)).1
    | _ => exact whole

/-- Where nothing is shared, nothing encloses itself. -/
theorem acyclic (linked : Linked [] root) : (ofElements []).Acyclic root := by
  intro entry within encloses
  obtain ⟨index, further, _⟩ := exists_shared_of_encloses_self encloses
  have inside := linked.of_reaches (within.trans further)
  simp [Value.isLinked] at inside

end Linked

/-! ## The walk -/

namespace Opened

theorem numbers_subset_of_drop {opened : Opened} {around : List Nat}
    (enclosed : numbers opened ⊆ around) (met : Nat) : numbers (opened.drop met) ⊆ around :=
  fun _ member => enclosed (((List.drop_sublist met opened).filterMap id).subset member)

theorem numbers_cons_subset {opened : Opened} {visit : Visit}
    (enclosed : numbers opened ⊆ visit.around) :
    numbers (visit.identity :: opened) ⊆ Graph.aroundChildren visit := by
  rw [numbers_cons]
  exact List.append_subset_of_subset_of_subset (List.subset_append_left _ _)
    (List.Subset.trans enclosed (List.subset_append_right _ _))

/-- An element that is not met inside itself is not among those that are open. -/
theorem not_holds_identity {opened : Opened} {visit : Visit}
    (enclosed : numbers opened ⊆ visit.around) (fresh : ¬ visit.Reenters) :
    ¬ holds opened visit.identity = true := by
  intro held
  let inside : Visit := ⟨visit.entry, visit.place, numbers opened⟩
  have around : inside.around = numbers opened := rfl
  obtain ⟨index, member, same⟩ := (holds_identity around).1 held
  exact fresh ⟨index, enclosed member, same⟩

end Opened

namespace Value

open Receipt.Graph

variable {table : List Value} {fuel : Nat} {follow : Opened → Place → Nat → Walked (Option Node)}

/-- How the walk of an entry ends. -/
def WalkEnds (table : List Value) (visit : Visit) (opened : Opened)
    (walked : Walked (Option Node)) : Prop :=
  ((ofElements table).route visit).Ends ((ofElements table).Reports visit) opened walked

/-- How the walk of the children of an entry ends, from a number on. -/
def WalkEndsFrom (table : List Value) (visit : Visit) (number : Nat) (opened : Opened)
    (walked : Walked (List Node)) : Prop :=
  ((ofElements table).routeFrom visit number).Ends ((ofElements table).Reports visit) opened walked

/-- How following a reference ends while there is room. -/
def FollowEnds (table : List Value) (fuel : Nat)
    (follow : Opened → Place → Nat → Walked (Option Node)) : Prop :=
  ∀ opened place index around, Opened.numbers opened ⊆ around → Room table.length fuel around →
    index < table.length → (ofElements table).Clear Visit.Reenters ⟨.shared index, place, around⟩ →
    WalkEnds table ⟨.shared index, place, around⟩ opened (follow opened place index)

/-- How the walk of an element ends, when that of its children ends as it should. -/
theorem walkEnds_element {visit : Visit} {opened : Opened} {type props style : Value}
    {children : List Value}
    (here : (ofElements table).value visit.entry = element type props style children)
    (enclosed : Opened.numbers opened ⊆ visit.around) (fresh : ¬ visit.Reenters)
    (below : WalkEndsFrom table visit 0 (visit.identity :: opened)
      (walkAll follow (visit.identity :: opened) ((ofElements table).path visit) 0 children)) :
    WalkEnds table visit opened
      (walk follow opened visit.identity visit.place (element type props style children)) := by
  have element : ¬ (ofElements table).MeetsNull visit := by
    unfold MeetsNull
    rw [here]
    nofun
  have again := iff_of_false (Opened.not_holds_identity enclosed fresh) fresh
  rw [walk]
  rcases checkParts_cases here again with ⟨name, fields, own, said, path, sound⟩ | ⟨flaw, first, said⟩
  · rw [said]
    simp only
    rw [path]
    exact ends_element element sound below fun children => ⟨name, fields, own, children⟩
  · rw [said]
    exact ends_flawed ⟨⟨flaw, first.1⟩, element⟩ first opened

/-- How the walk of what is neither an element nor null ends. -/
theorem walkEnds_other {visit : Visit} {opened : Opened} {kind : String}
    {walked : Walked (Option Node)}
    (own : ∀ flaw, ((ofElements table).value visit.entry).hasFlaw flaw = (flaw == .noElement kind))
    (element : ¬ (ofElements table).MeetsNull visit)
    (said : walked = .error (.flawed visit.place.unnamed (.noElement kind))) :
    WalkEnds table visit opened walked := by
  have first := firstFlaw_noElement own
  rw [said]
  exact ends_flawed ⟨⟨_, first.1⟩, element⟩ first opened

/-- An entry is followed when it is a reference, and else walked as it is. -/
theorem walkEnds_entry (followed : FollowEnds table fuel follow) {opened : Opened}
    {around : List Nat} (enclosed : Opened.numbers opened ⊆ around)
    (room : Room table.length fuel around) (place : Place) {entry : Value}
    (valid : entry.isLinked table.length)
    (entered : (ofElements table).Clear Visit.Reenters ⟨entry, place, around⟩)
    (own : entry.isShared = false →
      WalkEnds table ⟨entry, place, around⟩ opened (walk follow opened none place entry)) :
    WalkEnds table ⟨entry, place, around⟩ opened (walk follow opened none place entry) := by
  cases entry with
  | shared index =>
    rw [walk]
    exact followed opened place index around enclosed room (by simpa [isLinked] using valid) entered
  | _ => exact own rfl

-- The induction is on the value that is walked; references are left to `followed`.
mutual

/-- How the walk of the value of a visit ends. -/
theorem walkEnds_walk (followed : FollowEnds table fuel follow) :
    ∀ (value : Value) (visit : Visit) (opened : Opened),
      (ofElements table).value visit.entry = value → value.isShared = false →
      value.isLinked table.length → Opened.numbers opened ⊆ visit.around →
      (ofElements table).Clear Visit.Reenters visit →
      Room table.length fuel (aroundChildren visit) →
      WalkEnds table visit opened (walk follow opened visit.identity visit.place value)
  | .element type props style children, visit, opened => by
    intro here _ valid enclosed entered room
    have entries : (ofElements table).entries ((ofElements table).value visit.entry) = children := by
      rw [here]
      rfl
    refine walkEnds_element here enclosed (entered [] visit rfl) ?_
    exact walkEnds_walkAll followed children visit _ 0 (by rw [entries, List.drop_zero])
      (by simpa [isLinked] using valid) (Opened.numbers_cons_subset enclosed)
      (entered.clearFrom 0) room
  | .null, visit, opened => by
    intro here _ _ _ _ _
    exact ends_null here (by rw [here]; rfl) opened
  | .shared index, _, _ => by
    intro _ own
    cases own
  | .bool _, _, _ | .int _, _, _ | .float _, _, _ | .text _, _, _ | .bytes _, _, _
  | .picture _, _, _ | .samples _, _, _ | .member _, _, _ | .list _, _, _ | .mapping _, _, _ => by
    intro here _ _ _ _ _
    refine walkEnds_other (fun flaw => by rw [here]; rfl) ?_ rfl
    unfold MeetsNull
    rw [here]
    nofun

/-- How the walk of the children of an entry ends. -/
theorem walkEnds_walkAll (followed : FollowEnds table fuel follow) :
    ∀ (items : List Value) (visit : Visit) (opened : Opened) (number : Nat),
      ((ofElements table).entries ((ofElements table).value visit.entry)).drop number = items →
      areLinked table.length items → Opened.numbers opened ⊆ aroundChildren visit →
      (ofElements table).ClearFrom Visit.Reenters visit number →
      Room table.length fuel (aroundChildren visit) →
      WalkEndsFrom table visit number opened
        (walkAll follow opened ((ofElements table).path visit) number items)
  | [], visit, opened, number => by
    intro rest _ _ _ _
    exact ends_childless (List.drop_eq_nil_iff.1 rest) opened
  | item :: items, visit, opened, number => by
    intro rest valid enclosed entered room
    let child : Visit := ⟨item, ⟨(ofElements table).path visit, number⟩, aroundChildren visit⟩
    obtain ⟨met, later⟩ := child?_of_drop rest
    rw [areLinked, Bool.and_eq_true] at valid
    have clear : (ofElements table).Clear Visit.Reenters child :=
      entered number (Nat.le_refl _) child met
    have first : WalkEnds table child opened (walk follow opened none child.place item) := by
      refine walkEnds_entry followed enclosed room child.place valid.1 clear fun own => ?_
      have walked := walkEnds_walk followed item child opened (value_of_not_isShared own) own valid.1
        enclosed clear (by rw [aroundChildren_of_not_isShared child own]; exact room)
      rw [child.identity_of_not_isShared own] at walked
      exact walked
    rw [walkAll]
    exact ends_children met first fun behind =>
      walkEnds_walkAll followed items visit (opened.drop behind) (number + 1) later valid.2
        (Opened.numbers_subset_of_drop enclosed behind) entered.next room

end

/-- How following a reference into a table ends. -/
theorem followEnds_walkShared {table : List Value}
    (values : ∀ value ∈ table, value.isLinked table.length ∧ value.isShared = false) (fuel : Nat) :
    FollowEnds table fuel (walkShared table fuel) := by
  induction fuel with
  | zero =>
    intro opened place index around _ room _ _
    exact absurd room.pos (Nat.lt_irrefl 0)
  | succ fuel ih =>
    intro opened place index around enclosed room inside entered
    have valid := values _ (List.getElem_mem inside)
    have here : (ofElements table).value (.shared index) = table[index] :=
      (ofElements table).value_shared inside
    have fresh : index ∉ around := fun member => entered [] _ rfl ⟨index, member, rfl⟩
    rw [walkShared, List.getElem?_eq_getElem inside]
    exact walkEnds_walk ih table[index] ⟨.shared index, place, around⟩ opened here valid.2 valid.1
      enclosed entered (room.enter fresh inside)

/-- How the walk from a root ends. -/
theorem walkEnds_root {table : List Value} {root : Value} (linked : Linked table root)
    (acyclic : (ofElements table).Acyclic root) :
    WalkEnds table (.start root) []
      (walk (walkShared table (table.length + 1)) [] none .root root) := by
  have followed := followEnds_walkShared linked.values (table.length + 1)
  have entered := ((ofElements table).never_reenters_iff root).2 acyclic
  have room : Room table.length (table.length + 1) [] := Room.start _
  refine walkEnds_entry followed (List.Subset.refl []) room .root linked.root entered fun own => ?_
  have walked := walkEnds_walk followed root (.start root) [] (value_of_not_isShared own) own
    linked.root (List.Subset.refl []) entered
    (by rw [aroundChildren_of_not_isShared (.start root) own]; exact room)
  rw [(Visit.start root).identity_of_not_isShared own] at walked
  exact walked

end Value

namespace Graph

open Value

/-! ## What is reported -/

variable {graph : Graph} {visit found other : Visit}

/-- Before anything else that has a flaw, an element ends for which nothing is left open. -/
def RunsOut (graph : Graph) (visit : Visit) : Prop :=
  ∃ address, (graph.route visit).Overdrawn 0 address ∧
    ∀ flaw ∈ (graph.route visit).flaws, EndsBefore address flaw

/-- What is reported of a walk that meets a null: that nothing is open, or the first flaw that is not
a null. -/
inductive Overlooks (graph : Graph) (visit : Visit) : TreeFault → Prop
  | runsOut (empty : graph.RunsOut visit) : Overlooks graph visit .nothingOpen
  | goesOn (other : Visit) (flaw : Flaw) (enough : ¬ graph.RunsOut visit)
      (first : graph.First graph.OtherFlaw visit other) (least : graph.FirstFlaw other flaw) :
      Overlooks graph visit (.flawed (graph.flawPath other flaw) flaw)

/-- A walk from nothing that meets a null does not get through. -/
theorem overlooks_of_ends {address : List Nat} (met : graph.follow? visit address = some found)
    (null : graph.MeetsNull found) {α : Type} {walked : Walked α}
    (ends : (graph.route visit).Ends (graph.Reports visit) [] walked) :
    ∃ fault, walked = .error fault ∧ graph.Overlooks visit fault := by
  cases ends with
  | through value count nulls _ enough =>
    have few : count = 0 := Nat.le_zero.1 (met_le_opened nulls (enough []))
    rw [few, Nat.cast_zero, Set.encard_eq_zero] at nulls
    exact (nulls.subset ⟨found, met, null⟩).elim
  | empty address drawn first => exact ⟨_, rfl, .runsOut ⟨address, drawn, first⟩⟩
  | flawed address fault first said enough =>
    obtain ⟨other, flaw, followed, least, rfl⟩ := said
    obtain ⟨_, again, flawed⟩ := first.mem
    obtain rfl := Option.some.inj (followed.symm.trans again)
    refine ⟨_, rfl, .goesOn other flaw ?_ ⟨address, followed, flawed, ?_⟩ least⟩
    · rintro ⟨earlier, drawn, before⟩
      exact enough earlier (before address first.mem) drawn
    · exact fun earlier before other reached isFlaw =>
        first.least earlier ⟨other, reached, isFlaw⟩ before

theorem First.unique {bad : Visit → Prop} (first : graph.First bad visit found)
    (again : graph.First bad visit other) : found = other := by
  obtain ⟨address, followed, isBad, least⟩ := first
  obtain ⟨address', followed', isBad', least'⟩ := again
  rcases lt_trichotomy address address' with before | rfl | behind
  · exact absurd isBad (least' address before found followed)
  · exact Option.some.inj (followed.symm.trans followed')
  · exact absurd isBad' (least address' behind other followed')

/-- All first flaws of a visit have the same path. -/
theorem FirstFlaw.flawPath_eq {flaw flaw' : Flaw} (first : graph.FirstFlaw visit flaw)
    (again : graph.FirstFlaw visit flaw') :
    graph.flawPath visit flaw = graph.flawPath visit flaw' := by
  have same : flaw.rank = flaw'.rank :=
    Nat.le_antisymm (first.2 flaw' again.1) (again.2 flaw first.1)
  cases flaw <;> cases flaw' <;> first | rfl | cases same

/-- Only a null is said to be one. -/
theorem meetsNull_of_flawed (flawed : graph.Flawed visit (.noElement Value.null.kindName)) :
    graph.MeetsNull visit := by
  rcases flawed with own | ⟨cyclic, _⟩
  · unfold MeetsNull
    generalize graph.value visit.entry = value at own
    cases value with
    | null => rfl
    | _ => cases own
  · cases cyclic

end Graph

open Receipt.Graph

/-- Checking reports the place of an entry. -/
def Reported (table : List Value) (root : Value) (found : Visit) : Prop :=
  ∃ flaw, root.toNode table = .error (.flawed found.place.unnamed flaw)

/-- A graph with a null among its elements has no tree, but what is reported is never the null: it is
that nothing is open, which is no flaw of a tree, or the first other flaw, as if the null were not
there. The place of the null is named only where that flaw happens to have the same path. Converting
reports the same, and makes nothing; only a null that is the whole tree is reported as it should be. -/
theorem reported_null_iff {table : List Value} {root : Value} (linked : Linked table root)
    (acyclic : (ofElements table).Acyclic root) {address : List Nat} {found : Visit}
    (met : (ofElements table).follow? (.start root) address = some found)
    (null : (ofElements table).MeetsNull found) :
    (Reported table root found ↔
        ¬ (ofElements table).RunsOut (.start root) ∧
          ∃ other flaw, (ofElements table).First (ofElements table).OtherFlaw (.start root) other ∧
            (ofElements table).FirstFlaw other flaw ∧
            (ofElements table).flawPath other flaw = found.place.unnamed) ∧
      ∃ fault, root.toNode table = .error fault ∧
        (ofElements table).Overlooks (.start root) fault ∧
        (∀ path, fault ≠ .flawed path (.noElement Value.null.kindName)) ∧
        (∀ options tree, table = [] → tree.unfold [] = .ok root →
          convert options tree = .error (.tree fault)) ∧
        ∀ options, root = .null → convert options root =
          .error (.tree (.flawed Place.root.unnamed (.noMapping Value.null.kindName))) := by
  obtain ⟨fault, walked, overlooks⟩ :=
    overlooks_of_ends met null (Value.walkEnds_root linked acyclic)
  have checked : root.toNode table = .error fault := by
    unfold Value.toNode
    rw [walked]
  refine ⟨⟨?_, ?_⟩, fault, checked, overlooks, ?_, ?_, ?_⟩
  · rintro ⟨flaw, said⟩
    have same := Except.error.inj (checked.symm.trans said)
    cases overlooks with
    | runsOut _ => cases same
    | goesOn other flaw' enough first least =>
      exact ⟨enough, other, flaw', first, least, (TreeFault.flawed.inj same).1⟩
  · rintro ⟨enough, other, flaw, first, least, path⟩
    cases overlooks with
    | runsOut empty => exact absurd empty enough
    | goesOn other' flaw' _ first' least' =>
      obtain rfl := first.unique first'
      refine ⟨flaw', checked.trans ?_⟩
      rw [← path, least.flawPath_eq least']
  · rintro path rfl
    cases overlooks with
    | goesOn other flaw _ first least =>
      obtain ⟨_, _, flawed, _⟩ := first
      exact flawed.2 (meetsNull_of_flawed least.1)
  · rintro options tree rfl unfolded
    unfold convert Value.toTree
    rw [unfolded]
    simp only
    rw [checked]
  · rintro options rfl
    rfl

/-- A document with a null in front of a page whose props are no mapping. -/
def gappedReceipt : Value :=
  .element (.text "Document") (.mapping []) .null
    [.null, .element (.text "Page") (.int 5) .null []]

/-- The null in it. -/
def gap : Visit := ⟨.null, ⟨"Document", 0⟩, []⟩

theorem reported_null_iff_gappedReceipt :
    Linked [] gappedReceipt ∧ (ofElements []).Acyclic gappedReceipt ∧
      (ofElements []).follow? (.start gappedReceipt) [0] = some gap ∧
      (ofElements []).MeetsNull gap ∧
      ∃ fault, gappedReceipt.toNode [] = .error fault ∧
        (ofElements []).Overlooks (.start gappedReceipt) fault ∧
        ∀ options, convert options gappedReceipt = .error (.tree fault) := by
  have linked : Linked [] gappedReceipt := ⟨by decide, by decide⟩
  have met : (ofElements []).follow? (.start gappedReceipt) [0] = some gap := rfl
  have null : (ofElements []).MeetsNull gap := rfl
  obtain ⟨_, fault, checked, overlooks, _, converted, _⟩ :=
    reported_null_iff linked linked.acyclic met null
  exact ⟨linked, linked.acyclic, met, null, fault, checked, overlooks,
    fun options => converted options _ rfl rfl⟩

/-- A document with nothing but a null. -/
def hollowReceipt : Value := .element (.text "Document") (.mapping []) .null [.null]

/-- The null in it is the first flaw, and its place is not reported. -/
theorem not_reported_hollowReceipt :
    (ofElements []).First (ofElements []).AnyFlaw (.start hollowReceipt) gap ∧
      (ofElements []).MeetsNull gap ∧ ¬ Reported [] hollowReceipt gap := by
  refine ⟨?_, rfl, ?_⟩
  · have sound : ¬ (ofElements []).AnyFlaw (.start hollowReceipt) :=
      not_anyFlaw_iff.2 ⟨rfl, Visit.not_reenters_of_not_isShared rfl⟩
    have here : (ofElements []).child? (.start hollowReceipt) 0 = some gap := rfl
    have own : (ofElements []).AnyFlaw gap := ⟨.noElement "NoneType", Or.inl rfl⟩
    exact first_of_children sound (firstFrom_here here (first_self own))
  · rintro ⟨flaw, said⟩
    have empty : hollowReceipt.toNode [] = .error .nothingOpen := rfl
    cases empty.symm.trans said

end Receipt
