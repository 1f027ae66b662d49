import Mathlib.Data.Set.Card
import Receipt.Proofs.Checking

/-!
# Routes of a walk past nulls

A null in place of an element closes the innermost open element, so what is open when an element ends
depends on everything that a walk has come across until then. A `Route` has the addresses of what a
walk comes across: its visits, the nulls among them and the entries with another flaw. Where an
element ends, everything that does not begin behind it has been met (`Graph.behind`), and
`Route.Overdrawn` says that the nulls among that outnumber what is open.

`Route.Ends` says how a walk ends. `Graph.ends_null`, `Graph.ends_element` and `Graph.ends_children`
follow a walk that looks at a visit and then at its children from left to right.
-/

namespace Receipt

namespace Graph

/-! ## Addresses -/

/-- What stands at the first address ends before what stands at the second begins. -/
def EndsBefore : List Nat → List Nat → Prop
  | number :: first, other :: second => number < other ∨ number = other ∧ EndsBefore first second
  | _, _ => False

/-- The addresses of what begins when something has ended. -/
def behind (address : List Nat) : Set (List Nat) := { later | EndsBefore address later }

/-- An address comes first among several. -/
structure IsFirst (addresses : Set (List Nat)) (address : List Nat) : Prop where
  mem : address ∈ addresses
  least : ∀ other ∈ addresses, ¬ other < address

section Addresses

variable {number other : Nat} {first second : List Nat}

theorem behind_nil : behind [] = ∅ := rfl

theorem not_endsBefore_nil (address : List Nat) : ¬ EndsBefore address [] := by
  cases address <;> exact id

theorem endsBefore_cons_self :
    EndsBefore (number :: first) (number :: second) ↔ EndsBefore first second :=
  ⟨fun ends => ends.elim (fun less => absurd less (Nat.lt_irrefl _)) And.right,
    fun ends => Or.inr ⟨rfl, ends⟩⟩

theorem endsBefore_cons_of_lt (less : number < other) :
    EndsBefore (number :: first) (other :: second) := Or.inl less

theorem not_endsBefore_cons_of_lt (less : number < other) :
    ¬ EndsBefore (other :: first) (number :: second) := by
  rintro (more | ⟨same, _⟩)
  · exact Nat.lt_asymm less more
  · exact Nat.ne_of_gt less same

theorem image_cons_diff_behind (sites : Set (List Nat)) :
    (number :: ·) '' sites \ behind (number :: first) =
      (number :: ·) '' (sites \ behind first) := by
  ext address
  constructor
  · rintro ⟨⟨rest, site, rfl⟩, before⟩
    exact ⟨rest, ⟨site, fun ends => before (endsBefore_cons_self.2 ends)⟩, rfl⟩
  · rintro ⟨rest, ⟨site, before⟩, rfl⟩
    exact ⟨⟨rest, site, rfl⟩, fun ends => before (endsBefore_cons_self.1 ends)⟩

theorem image_cons_diff_behind_of_lt (sites : Set (List Nat)) (less : number < other) :
    (number :: ·) '' sites \ behind (other :: first) = (number :: ·) '' sites := by
  refine sdiff_eq_left.2 (Set.disjoint_left.2 ?_)
  rintro _ ⟨rest, _, rfl⟩
  exact not_endsBefore_cons_of_lt less

theorem encard_image_cons (sites : Set (List Nat)) :
    ((number :: ·) '' sites).encard = sites.encard :=
  Function.Injective.encard_image (List.cons_injective) sites

/-- What lies below a child and what lies behind it are counted apart. -/
theorem encard_below_union_behind {below behind : Set (List Nat)}
    (later : ∀ address ∈ behind, ∃ other rest, address = other :: rest ∧ number < other) :
    ((number :: ·) '' below ∪ behind).encard = below.encard + behind.encard := by
  rw [Set.encard_union_eq (Set.disjoint_left.2 ?_), encard_image_cons]
  rintro _ ⟨rest, _, rfl⟩ member
  obtain ⟨other, _, same, less⟩ := later _ member
  obtain ⟨rfl, rfl⟩ := List.cons.inj same
  exact Nat.lt_irrefl _ less

end Addresses

/-! ## The addresses of visits -/

variable (graph : Graph)

/-- The addresses below a visit of the visits with a property. -/
def sites (property : Visit → Prop) (visit : Visit) : Set (List Nat) :=
  { address | ∃ found, graph.follow? visit address = some found ∧ property found }

/-- Those of them that lie below the children from a number on. -/
def sitesFrom (property : Visit → Prop) (visit : Visit) (number : Nat) : Set (List Nat) :=
  { address | address ∈ graph.sites property visit ∧
      ∃ later rest, address = later :: rest ∧ number ≤ later }

section Sites

variable {graph} {property : Visit → Prop} {visit child : Visit} {number : Nat}

theorem sites_of_not (not : ¬ property visit) :
    graph.sites property visit = graph.sitesFrom property visit 0 := by
  ext address
  refine ⟨fun site => ⟨site, ?_⟩, And.left⟩
  cases address with
  | nil =>
    obtain ⟨found, followed, holds⟩ := site
    obtain rfl := Option.some.inj followed
    exact absurd holds not
  | cons later rest => exact ⟨later, rest, rfl, Nat.zero_le _⟩

theorem sites_of_mem (holds : property visit) :
    graph.sites property visit = insert [] (graph.sitesFrom property visit 0) := by
  ext address
  cases address with
  | nil => exact iff_of_true ⟨visit, rfl, holds⟩ (Set.mem_insert ..)
  | cons later rest =>
    constructor
    · exact fun site => Or.inr ⟨site, later, rest, rfl, Nat.zero_le _⟩
    · rintro (none | inside)
      · cases none
      · exact inside.1

theorem sitesFrom_of_length_le
    (behind : (graph.entries (graph.value visit.entry)).length ≤ number) :
    graph.sitesFrom property visit number = ∅ := by
  refine Set.eq_empty_iff_forall_notMem.2 ?_
  rintro _ ⟨⟨found, followed, _⟩, later, rest, rfl, least⟩
  obtain ⟨child, here, _⟩ := Option.bind_eq_some_iff.1 followed
  obtain ⟨entry, inside, _⟩ := child?_eq_some.1 here
  rw [List.getElem?_eq_none (Nat.le_trans behind least)] at inside
  cases inside

theorem cons_mem_sitesFrom {later : Nat} {rest : List Nat} :
    later :: rest ∈ graph.sitesFrom property visit number ↔
      later :: rest ∈ graph.sites property visit ∧ number ≤ later := by
  refine and_congr_right fun _ => ⟨?_, fun least => ⟨later, rest, rfl, least⟩⟩
  rintro ⟨_, _, same, least⟩
  obtain ⟨rfl, rfl⟩ := List.cons.inj same
  exact least

theorem cons_mem_sites (here : graph.child? visit number = some child) {rest : List Nat} :
    number :: rest ∈ graph.sites property visit ↔ rest ∈ graph.sites property child := by
  have below : graph.follow? visit (number :: rest) = graph.follow? child rest := by
    rw [follow?, here]
    rfl
  unfold sites
  rw [Set.mem_ofPred_eq, Set.mem_ofPred_eq, below]

variable (property) in
/-- What lies below a child and below those behind it. -/
theorem sitesFrom_of_child? (here : graph.child? visit number = some child) :
    graph.sitesFrom property visit number =
      (number :: ·) '' graph.sites property child ∪ graph.sitesFrom property visit (number + 1) := by
  ext address
  constructor
  · rintro ⟨⟨found, followed, holds⟩, later, rest, rfl, least⟩
    rcases Nat.eq_or_lt_of_le least with rfl | less
    · rw [follow?, here] at followed
      exact Or.inl ⟨rest, ⟨found, followed, holds⟩, rfl⟩
    · exact Or.inr ⟨⟨found, followed, holds⟩, later, rest, rfl, less⟩
  · rintro (⟨rest, ⟨found, followed, holds⟩, rfl⟩ | ⟨site, later, rest, rfl, less⟩)
    · refine ⟨⟨found, ?_, holds⟩, number, rest, rfl, Nat.le_refl _⟩
      rw [follow?, here]
      exact followed
    · exact ⟨site, later, rest, rfl, Nat.le_of_succ_le less⟩

end Sites

/-- A visit meets a null. -/
def MeetsNull (visit : Visit) : Prop := graph.value visit.entry = .null

/-- A visit has a flaw, and it is not that it meets a null. -/
def OtherFlaw (visit : Visit) : Prop := graph.AnyFlaw visit ∧ ¬ graph.MeetsNull visit

end Graph

/-! ## How a walk ends -/

/-- The addresses of the visits that a walk makes, of the nulls among them and of those that have some
other flaw, and how many of the entries on the way to them are open when the walk begins. -/
structure Route where
  visits : Set (List Nat)
  nulls : Set (List Nat)
  flaws : Set (List Nat)
  level : Nat

namespace Route

open Receipt.Graph (EndsBefore behind IsFirst)

/-- When the entry at an address ends, more nulls have been met than entries are open around it, out
of those that were open at the beginning and those on the way to it. -/
def Overdrawn (route : Route) (opened : Nat) (address : List Nat) : Prop :=
  address ∈ route.visits ∧
    ((opened + address.length : Nat) : ENat) < (route.nulls \ behind address).encard + route.level

/-- How a walk ends. Every null that is met closes an open entry: the walk gets through when there are
enough of them and no other flaw is met; it ends at the first other flaw when there are enough up to
there; and else where there is none left. -/
inductive Ends {α : Type} (route : Route) (reports : List Nat → TreeFault → Prop) (opened : Opened) :
    Value.Walked α → Prop
  | through (value : α) (met : Nat) (nulls : route.nulls.encard = met) (flaws : route.flaws = ∅)
      (enough : ∀ address, ¬ route.Overdrawn opened.length address) :
      Ends route reports opened (.ok (value, opened.drop met))
  | empty (address : List Nat) (overdrawn : route.Overdrawn opened.length address)
      (first : ∀ flaw ∈ route.flaws, EndsBefore address flaw) :
      Ends route reports opened (.error .nothingOpen)
  | flawed (address : List Nat) (fault : TreeFault) (first : IsFirst route.flaws address)
      (said : reports address fault)
      (enough : ∀ other, EndsBefore other address → ¬ route.Overdrawn opened.length other) :
      Ends route reports opened (.error fault)

end Route

namespace Graph

variable (graph : Graph)

/-- The route below a visit. -/
def route (visit : Visit) : Route where
  visits := graph.sites (fun _ => True) visit
  nulls := graph.sites graph.MeetsNull visit
  flaws := graph.sites graph.OtherFlaw visit
  level := 0

/-- The route below the children of a visit from a number on. -/
def routeFrom (visit : Visit) (number : Nat) : Route where
  visits := graph.sitesFrom (fun _ => True) visit number
  nulls := graph.sitesFrom graph.MeetsNull visit number
  flaws := graph.sitesFrom graph.OtherFlaw visit number
  level := 1

/-- A fault is that of the first flaw of the visit at an address. -/
def Reports (visit : Visit) (address : List Nat) (fault : TreeFault) : Prop :=
  ∃ found flaw, graph.follow? visit address = some found ∧ graph.FirstFlaw found flaw ∧
    fault = .flawed (graph.flawPath found flaw) flaw

section Route

variable {graph} {visit child : Visit} {opened number later : Nat} {rest : List Nat}

/-- Where something below a child ends, no null behind the child has been met. -/
theorem nulls_diff_behind_child (here : graph.child? visit number = some child) :
    (graph.routeFrom visit number).nulls \ behind (number :: rest) =
      (number :: ·) '' ((graph.route child).nulls \ behind rest) := by
  have none : graph.sitesFrom graph.MeetsNull visit (number + 1) \ behind (number :: rest) = ∅ := by
    rw [Set.sdiff_eq_empty]
    rintro _ ⟨_, other, _, rfl, least⟩
    exact endsBefore_cons_of_lt least
  show graph.sitesFrom graph.MeetsNull visit number \ _ = _
  rw [sitesFrom_of_child? graph.MeetsNull here, Set.union_sdiff_distrib, none, Set.union_empty]
  exact image_cons_diff_behind _

/-- Where something behind a child ends, all nulls below the child have been met. -/
theorem nulls_diff_behind_later (here : graph.child? visit number = some child)
    (less : number < later) :
    (graph.routeFrom visit number).nulls \ behind (later :: rest) =
      (number :: ·) '' (graph.route child).nulls ∪
        ((graph.routeFrom visit (number + 1)).nulls \ behind (later :: rest)) := by
  show graph.sitesFrom graph.MeetsNull visit number \ _ = _
  rw [sitesFrom_of_child? graph.MeetsNull here, Set.union_sdiff_distrib,
    image_cons_diff_behind_of_lt _ less]
  rfl

theorem overdrawn_children_iff (element : ¬ graph.MeetsNull visit) :
    (graph.route visit).Overdrawn opened (number :: rest) ↔
      (graph.routeFrom visit 0).Overdrawn (opened + 1) (number :: rest) := by
  have nulls : (graph.route visit).nulls = (graph.routeFrom visit 0).nulls := sites_of_not element
  unfold Route.Overdrawn
  rw [nulls]
  refine and_congr ((and_iff_left (Nat.zero_le _)).symm.trans cons_mem_sitesFrom.symm) ?_
  show _ < _ + ((0 : Nat) : ENat) ↔ _ < _ + ((1 : Nat) : ENat)
  rw [Nat.add_right_comm opened 1, Nat.cast_succ, Nat.cast_zero, add_zero, Nat.cast_one,
    ENat.add_lt_add_iff_right ENat.one_ne_top]

theorem overdrawn_child_iff (here : graph.child? visit number = some child) :
    (graph.routeFrom visit number).Overdrawn opened (number :: rest) ↔
      (graph.route child).Overdrawn opened rest := by
  unfold Route.Overdrawn
  rw [nulls_diff_behind_child here, encard_image_cons]
  refine and_congr (cons_mem_sitesFrom.trans
    ((and_iff_left (Nat.le_refl _)).trans (cons_mem_sites here))) ?_
  show _ < _ + ((1 : Nat) : ENat) ↔ _ < _ + ((0 : Nat) : ENat)
  rw [List.length_cons, ← Nat.add_assoc, Nat.cast_succ, Nat.cast_zero, add_zero, Nat.cast_one,
    ENat.add_lt_add_iff_right ENat.one_ne_top]

theorem overdrawn_later_iff (here : graph.child? visit number = some child)
    (less : number < later) {met : Nat} (nulls : (graph.route child).nulls.encard = met)
    (enough : met ≤ opened) :
    (graph.routeFrom visit number).Overdrawn opened (later :: rest) ↔
      (graph.routeFrom visit (number + 1)).Overdrawn (opened - met) (later :: rest) := by
  unfold Route.Overdrawn
  rw [nulls_diff_behind_later here less, encard_below_union_behind fun _ site => site.1.2, nulls]
  refine and_congr ?_ ?_
  · refine cons_mem_sitesFrom.trans ((and_congr_right fun _ => ?_).trans cons_mem_sitesFrom.symm)
    exact iff_of_true (Nat.le_of_lt less) less
  · have shifted :
        opened + (later :: rest).length = met + (opened - met + (later :: rest).length) := by
      omega
    rw [shifted, Nat.cast_add, add_assoc, ENat.add_lt_add_iff_left (ENat.natCast_ne_top met)]
    rfl

/-- Below a visit that is got through no more nulls are met than entries are open. -/
theorem met_le_opened {met : Nat} (nulls : (graph.route visit).nulls.encard = met)
    (enough : ¬ (graph.route visit).Overdrawn opened []) : met ≤ opened := by
  by_contra many
  refine enough ⟨⟨visit, rfl, trivial⟩, ?_⟩
  show ((opened + 0 : Nat) : ENat) < ((graph.route visit).nulls \ ∅).encard + ((0 : Nat) : ENat)
  rw [Set.sdiff_empty, nulls, Nat.cast_zero, add_zero, add_zero]
  exact ENat.natCast_lt_natCast.2 (Nat.lt_of_not_le many)

/-! ## How the parts of a walk end -/

open Value (Walked)

/-- A null closes the innermost open entry. -/
theorem ends_null (meets : graph.MeetsNull visit)
    (bare : graph.entries (graph.value visit.entry) = []) (opened : Opened) :
    (graph.route visit).Ends (graph.Reports visit) opened
      (match opened.close with
        | .error fault => .error fault
        | .ok opened => .ok ((none : Option Node), opened)) := by
  have leaf (property : Visit → Prop) : graph.sitesFrom property visit 0 = ∅ :=
    sitesFrom_of_length_le (by rw [bare]; exact Nat.le_refl _)
  have nulls : (graph.route visit).nulls = {[]} := by
    show graph.sites graph.MeetsNull visit = _
    rw [sites_of_mem meets, leaf, insert_empty_eq]
  have flaws : (graph.route visit).flaws = ∅ := by
    show graph.sites graph.OtherFlaw visit = _
    rw [sites_of_not fun other => other.2 meets, leaf]
  have visits : (graph.route visit).visits = {[]} := by
    show graph.sites (fun _ => True) visit = _
    rw [sites_of_mem trivial, leaf, insert_empty_eq]
  have met : ((graph.route visit).nulls \ behind []).encard = 1 := by
    rw [nulls, behind_nil, Set.sdiff_empty, Set.encard_singleton]
  cases opened with
  | nil =>
    refine .empty [] ⟨⟨visit, rfl, trivial⟩, ?_⟩ (by rw [flaws]; nofun)
    rw [met]
    exact Nat.cast_lt.2 Nat.zero_lt_one
  | cons identity opened =>
    refine .through none 1 (by rw [nulls, Set.encard_singleton]; rfl) flaws ?_
    rintro address ⟨inside, drawn⟩
    rw [visits] at inside
    obtain rfl := Set.mem_singleton_iff.1 inside
    rw [met] at drawn
    have less : (opened.length + 1 + 0 : Nat) < 1 := Nat.cast_lt.1 drawn
    omega

/-- An entry that has a flaw ends the walk. -/
theorem ends_flawed {flaw : Flaw} (other : graph.OtherFlaw visit)
    (first : graph.FirstFlaw visit flaw) {α : Type} (opened : Opened) :
    (graph.route visit).Ends (graph.Reports visit) opened
      (.error (.flawed (graph.flawPath visit flaw) flaw) : Walked α) :=
  .flawed [] _ ⟨⟨visit, rfl, other⟩, fun earlier _ => List.not_lt_nil earlier⟩
    ⟨visit, flaw, rfl, first, rfl⟩ fun address ends => absurd ends (not_endsBefore_nil address)

/-- An element without a flaw is open for its children and closed behind them. -/
theorem ends_element (element : ¬ graph.MeetsNull visit) (sound : ¬ graph.AnyFlaw visit)
    {identity : Option Nat} {opened : Opened} {walked : Walked (List Node)}
    (children : (graph.routeFrom visit 0).Ends (graph.Reports visit) (identity :: opened) walked)
    (make : List Node → Node) :
    (graph.route visit).Ends (graph.Reports visit) opened
      (match walked with
        | .error fault => .error fault
        | .ok (children, opened) =>
          match opened.close with
          | .error fault => .error fault
          | .ok opened => .ok (some (make children), opened)) := by
  have nulls : (graph.route visit).nulls = (graph.routeFrom visit 0).nulls := sites_of_not element
  have flaws : (graph.route visit).flaws = (graph.routeFrom visit 0).flaws :=
    sites_of_not fun other => sound other.1
  -- Below the element one more entry is open and the way is one entry longer, so nothing changes.
  have inside : ∀ address, (graph.route visit).Overdrawn opened.length address → address ≠ [] →
      (graph.routeFrom visit 0).Overdrawn (opened.length + 1) address := by
    rintro (_ | ⟨number, rest⟩) drawn filled
    · exact absurd rfl filled
    · exact (overdrawn_children_iff element).1 drawn
  cases children with
  | through children met count none enough =>
    rw [← nulls] at count
    rw [← flaws] at none
    -- The element itself ends when all nulls below it have been met.
    have own : (graph.route visit).Overdrawn opened.length [] ↔ opened.length < met := by
      unfold Route.Overdrawn
      rw [behind_nil, Set.sdiff_empty, count]
      refine (and_iff_right ⟨visit, rfl, trivial⟩).trans ?_
      show ((opened.length + 0 : Nat) : ENat) < (met : ENat) + ((0 : Nat) : ENat) ↔ _
      rw [Nat.cast_zero, add_zero, add_zero, ENat.natCast_lt_natCast]
    rcases Nat.lt_or_ge opened.length met with few | many
    · have closed : (identity :: opened).drop met = [] := List.drop_eq_nil_of_le few
      rw [closed]
      exact .empty [] (own.2 few) (by rw [none]; nofun)
    · have left : ∃ top, (identity :: opened).drop met = top :: opened.drop met := by
        cases met with
        | zero => exact ⟨identity, rfl⟩
        | succ met => exact ⟨opened[met], List.drop_eq_getElem_cons many⟩
      obtain ⟨top, left⟩ := left
      rw [left]
      refine .through _ met count none fun address drawn => ?_
      by_cases outside : address = []
      · subst outside
        exact absurd (own.1 drawn) (Nat.not_lt_of_le many)
      · exact enough address (inside address drawn outside)
  | empty address drawn first =>
    rw [← flaws] at first
    refine .empty address ?_ first
    obtain ⟨_, number, rest, rfl, _⟩ := drawn.1
    exact (overdrawn_children_iff element).2 drawn
  | flawed address fault first reported enough =>
    rw [← flaws] at first
    refine .flawed address fault first reported fun other ends drawn => ?_
    refine enough other ends (inside other drawn ?_)
    rintro rfl
    exact ends

/-- Behind the last child nothing is met. -/
theorem ends_childless (last : (graph.entries (graph.value visit.entry)).length ≤ number)
    (opened : Opened) :
    (graph.routeFrom visit number).Ends (graph.Reports visit) opened
      (.ok (([] : List Node), opened)) := by
  have none (property : Visit → Prop) : graph.sitesFrom property visit number = ∅ :=
    sitesFrom_of_length_le last
  refine .through [] 0 ?_ (none _) ?_
  · show (graph.sitesFrom graph.MeetsNull visit number).encard = _
    rw [none, Set.encard_empty]
    rfl
  · rintro address ⟨inside, _⟩
    have visits : address ∈ graph.sitesFrom (fun _ => True) visit number := inside
    rw [none] at visits
    exact visits

/-- Behind a child that has been got through the walk goes on with what that has left open. -/
theorem ends_behind (here : graph.child? visit number = some child) {opened : Opened} {met : Nat}
    (nulls : (graph.route child).nulls.encard = met) (none : (graph.route child).flaws = ∅)
    (enough : ∀ address, ¬ (graph.route child).Overdrawn opened.length address) (node : Option Node)
    {walked : Walked (List Node)}
    (behind : (graph.routeFrom visit (number + 1)).Ends (graph.Reports visit) (opened.drop met)
      walked) :
    (graph.routeFrom visit number).Ends (graph.Reports visit) opened
      (match walked with
        | .error fault => .error fault
        | .ok (nodes, opened) => .ok (node.toList ++ nodes, opened)) := by
  have few : met ≤ opened.length := met_le_opened nulls (enough [])
  have left : (opened.drop met).length = opened.length - met := List.length_drop
  have flaws :
      (graph.routeFrom visit number).flaws = (graph.routeFrom visit (number + 1)).flaws := by
    have split := sitesFrom_of_child? graph.OtherFlaw here
    have below : graph.sites graph.OtherFlaw child = ∅ := none
    rw [below, Set.image_empty, Set.empty_union] at split
    exact split
  -- The nulls below the child are left out on both sides: of what has been met and of what is open.
  have overdrawn : ∀ address, (graph.routeFrom visit number).Overdrawn opened.length address →
      (graph.routeFrom visit (number + 1)).Overdrawn (opened.drop met).length address := by
    intro address drawn
    obtain ⟨_, later, rest, rfl, least⟩ := drawn.1
    rcases Nat.eq_or_lt_of_le least with rfl | less
    · exact absurd ((overdrawn_child_iff here).1 drawn) (enough rest)
    · rw [left]
      exact (overdrawn_later_iff here less nulls few).1 drawn
  cases behind with
  | through nodes further furtherNulls noFlaws furtherEnough =>
    have split : (graph.routeFrom visit number).nulls = (number :: ·) '' (graph.route child).nulls ∪
        (graph.routeFrom visit (number + 1)).nulls := sitesFrom_of_child? graph.MeetsNull here
    have total : (graph.routeFrom visit number).nulls.encard = (met + further : Nat) := by
      rw [split, encard_below_union_behind fun _ site => site.2, nulls, furtherNulls, Nat.cast_add]
    rw [List.drop_drop]
    exact .through _ (met + further) total (flaws.trans noFlaws)
      fun address drawn => furtherEnough address (overdrawn address drawn)
  | empty address drawn first =>
    rw [← flaws] at first
    refine .empty address ?_ first
    obtain ⟨_, later, rest, rfl, less⟩ := drawn.1
    rw [left] at drawn
    exact (overdrawn_later_iff here less nulls few).2 drawn
  | flawed address fault first reported furtherEnough =>
    rw [← flaws] at first
    exact .flawed address fault first reported
      fun other ends drawn => furtherEnough other ends (overdrawn other drawn)

/-- A child is walked and then those behind it. -/
theorem ends_children (here : graph.child? visit number = some child) {opened : Opened}
    {walked : Walked (Option Node)} {rest : Opened → Walked (List Node)}
    (first : (graph.route child).Ends (graph.Reports child) opened walked)
    (behind : ∀ met, (graph.routeFrom visit (number + 1)).Ends (graph.Reports visit)
      (opened.drop met) (rest (opened.drop met))) :
    (graph.routeFrom visit number).Ends (graph.Reports visit) opened
      (match walked with
        | .error fault => .error fault
        | .ok (node, opened) =>
          match rest opened with
          | .error fault => .error fault
          | .ok (nodes, opened) => .ok (node.toList ++ nodes, opened)) := by
  have flaws := sitesFrom_of_child? graph.OtherFlaw here
  cases first with
  | through node met nulls none enough =>
    exact ends_behind here nulls none enough node (behind met)
  | empty address drawn first =>
    refine .empty (number :: address) ((overdrawn_child_iff here).2 drawn) ?_
    intro flaw member
    rcases flaws.subset member with ⟨rest, below, rfl⟩ | ⟨_, later, rest, rfl, less⟩
    · exact endsBefore_cons_self.2 (first rest below)
    · exact endsBefore_cons_of_lt less
  | flawed address fault first reported enough =>
    refine .flawed (number :: address) fault ⟨?_, ?_⟩ ?_ ?_
    · exact flaws.superset (Or.inl ⟨address, first.mem, rfl⟩)
    · intro other member before
      rcases flaws.subset member with ⟨rest, below, rfl⟩ | ⟨_, later, rest, rfl, less⟩
      · rcases List.cons_lt_cons_iff.1 before with less | ⟨_, before⟩
        · exact Nat.lt_irrefl _ less
        · exact first.least rest below before
      · rcases List.cons_lt_cons_iff.1 before with more | ⟨same, _⟩
        · omega
        · omega
    · obtain ⟨found, flaw, followed, least, same⟩ := reported
      refine ⟨found, flaw, ?_, least, same⟩
      rw [follow?, here]
      exact followed
    · intro other ends drawn
      obtain ⟨_, later, rest, rfl, least⟩ := drawn.1
      rcases ends with less | ⟨rfl, ends⟩
      · omega
      · exact enough rest ends ((overdrawn_child_iff here).1 drawn)

end Route

end Graph

end Receipt
