import Receipt.Proofs.Extent
import Receipt.Proofs.Outcome
import Receipt.Style.Resolved

/-!
# Which styles can be resolved

Styles are loose values, and reading and resolving them is meant to make something of all of them. What
it stops at are numbers out of range: whole numbers beyond the largest float where a length is read
(`TextStyle.returns_ofFields_iff`, `ViewStyle.returns_ofFields_iff`), and on a printer, which counts in
whole lines and characters, infinities and data that are no numbers (`Resolver.TakesSpacing`,
`Resolver.TakesWidth`). A width that is passed over is written out for the log, where it stops at
whole numbers of too many digits (`Value.isLoggable`). The theorems say of each stage that it comes to
a value exactly when none of these is met. Sharing out widths adds nothing to that
(`Resolver.returns_widths_iff`), because what is left to share is an extent all along
(`Resolver.isExtent_grantWidths`).
-/

namespace Receipt

open Outcome Rounding

/-! ## Reading -/

namespace Fields

/-- The fields of a text that are read as lengths. -/
def textLengths : List String := ["padding", "fontSize", "paddingLeft", "paddingRight"]

/-- The fields of a container that are read as lengths. -/
def viewLengths : List String :=
  ["padding", "margin", "paddingTop", "paddingRight", "paddingBottom", "paddingLeft", "marginTop",
    "marginRight", "marginBottom", "marginLeft", "height"]

/-- The values of these names have a float when they are whole numbers. -/
def InRange (names : List String) (style : Fields) : Prop :=
  ∀ name ∈ names, (style.get name).InRange

instance (names : List String) (style : Fields) : Decidable (style.InRange names) :=
  inferInstanceAs (Decidable (∀ name ∈ names, (style.get name).InRange))

end Fields

section Reading

variable {style : Fields} {name : String} {goesOn : Prop}

theorem returns_length_bind_iff {β : Type} {value : Value}
    {next : Option Float → Except NumberFault β}
    (rest : ∀ pixels, Returns (next pixels) ↔ goesOn) :
    Returns (Length.ofValue value >>= next) ↔ value.InRange ∧ goesOn :=
  (returns_bind_iff fun pixels _ => rest pixels).trans (and_congr_left' Length.isOk_ofValue_iff)

theorem returns_edgeLength_iff {all : Option Float} :
    Returns (edgeLength style name all) ↔ (style.get name).InRange := by
  rw [← Length.isOk_ofValue_iff]
  unfold edgeLength
  cases (Length.ofValue (style.get name) : Except NumberFault (Option Float)) with
  | error fault => exact iff_of_false (not_returns_error fault) (not_returns_error fault)
  | ok own => exact iff_of_true (returns_ok _) (returns_ok own)

theorem returns_edge_bind_iff {β : Type} {all : Option Float}
    {next : Option Float → Except NumberFault β}
    (rest : ∀ pixels, Returns (next pixels) ↔ goesOn) :
    Returns (edgeLength style name all >>= next) ↔ (style.get name).InRange ∧ goesOn :=
  (returns_bind_iff fun pixels _ => rest pixels).trans (and_congr_left' returns_edgeLength_iff)

theorem TextStyle.returns_ofFields_iff (style : Fields) :
    Returns (TextStyle.ofFields style : Except NumberFault (TextStyle Float)) ↔
      style.InRange Fields.textLengths := by
  unfold TextStyle.ofFields Fields.InRange Fields.textLengths
  simp only [List.forall_mem_cons]
  refine returns_length_bind_iff fun padding => ?_
  refine returns_length_bind_iff fun fontSize => ?_
  refine returns_edge_bind_iff fun left => ?_
  refine returns_edge_bind_iff fun right => ?_
  exact iff_of_true (returns_ok _) nofun

theorem ViewStyle.returns_ofFields_iff (style : Fields) :
    Returns (ViewStyle.ofFields style : Except NumberFault (ViewStyle Float)) ↔
      style.InRange Fields.viewLengths := by
  unfold ViewStyle.ofFields Fields.InRange Fields.viewLengths
  simp only [List.forall_mem_cons]
  refine returns_length_bind_iff fun padding => ?_
  refine returns_length_bind_iff fun margin => ?_
  refine returns_edge_bind_iff fun paddingTop => ?_
  refine returns_edge_bind_iff fun paddingRight => ?_
  refine returns_edge_bind_iff fun paddingBottom => ?_
  refine returns_edge_bind_iff fun paddingLeft => ?_
  refine returns_edge_bind_iff fun marginTop => ?_
  refine returns_edge_bind_iff fun marginRight => ?_
  refine returns_edge_bind_iff fun marginBottom => ?_
  refine returns_edge_bind_iff fun marginLeft => ?_
  refine returns_length_bind_iff fun height => ?_
  exact iff_of_true (returns_ok _) nofun

end Reading

/-! ## Spacing -/

/-- Whole lines can be counted in this spacing: there is none, or it is finite. -/
def HasLines (pixels : Option Float) : Prop :=
  ∀ number ∈ pixels, number ≤ Scalar.zero ∨ number.isFinite = true

/-- The lines in a spacing come to a number of cells exactly when they can be counted. -/
theorem returns_lines_iff (pixels : Option Float) :
    Returns (linesOfPixels pixels >>= fun lines => (Scalar.ofInt lines : Except NumberFault Float)) ↔
      HasLines pixels := by
  have none : Returns (Scalar.ofInt 0 : Except NumberFault Float) := isOk_ofInt (Nat.zero_le _)
  cases pixels with
  | none => exact iff_of_true none nofun
  | some number =>
    unfold HasLines
    simp only [Option.mem_some_iff, forall_eq']
    unfold linesOfPixels
    dsimp only
    split
    · next empty => exact iff_of_true none (.inl empty)
    · next positive =>
      rw [or_iff_right positive]
      constructor
      · intro ⟨cells, counted⟩
        obtain ⟨lines, found, _⟩ := bind_eq_ok_iff.1 counted
        exact isFinite_of_floatFloorQuotient found
      · intro finite
        obtain ⟨lines, counted, within⟩ := floatFloorQuotient_of_isFinite finite
        have found : (Scalar.floorQuotient number 20 : Except NumberFault Int) = .ok lines := counted
        rw [found]
        exact isOk_ofInt within

theorem returns_lines_bind_iff {β : Type} {pixels : Option Float}
    {next : Float → Except NumberFault β} {goesOn : Prop} (rest : ∀ cells, Returns (next cells) ↔ goesOn) :
    Returns (linesOfPixels pixels >>= fun lines => Scalar.ofInt lines >>= next) ↔
      HasLines pixels ∧ goesOn := by
  rw [← bind_assoc]
  exact (returns_bind_iff fun cells _ => rest cells).trans (and_congr_left' (returns_lines_iff pixels))

namespace Resolver

variable {resolver : Resolver Float} {outer : Float}

/-- Whether a resolver can make spacing of the edges above and below. -/
def TakesSpacing (resolver : Resolver Float) (above below : Option Float) : Prop :=
  resolver.target = .cells → HasLines above ∧ HasLines below

theorem returns_edges_iff (top right bottom left : Option Float) :
    Returns (resolver.edges top right bottom left) ↔ resolver.TakesSpacing top bottom := by
  unfold edges TakesSpacing
  cases resolver.target with
  | points => exact iff_of_true (returns_ok _) nofun
  | cells =>
    refine Iff.trans ?_ (forall_prop_of_true rfl).symm
    refine returns_lines_bind_iff fun above => ?_
    refine (returns_lines_bind_iff fun below => iff_of_true (returns_ok _) trivial).trans ?_
    exact and_iff_left trivial

/-! ## Widths -/

/-- Whether a resolver can make something of a share or a length, or pass over what is neither: a page
takes whatever can be read, and a printer what comes to a finite number. -/
def TakesStated (resolver : Resolver Float) (width : Value) (outer : Float) : Prop :=
  match (Percentage.ofValue? width : Option Float) with
  | some share => resolver.target = .cells → (share * outer).isFinite = true
  | none => width.InRange ∧ width.isLoggable = true ∧ (resolver.target = .cells →
      ∀ pixels : Float, Length.ofValue width = .ok (some pixels) → pixels.isFinite = true)

/-- Whether a resolver can make something of the width of a style, which may not be given. -/
def TakesWidth (resolver : Resolver Float) (width : Value) (outer : Float) : Prop :=
  isWidth width = true → resolver.TakesStated width outer

/-- A datum comes to whole cells, and goes on from there, exactly when it is finite. -/
theorem returns_whole_bind_iff {round : Binary → Except NumberFault Int} {β : Type}
    {next : Float → Except NumberFault β} (rounding : Binary.IsRounding round) (x : Float)
    (goesOn : ∀ cells, Returns (next cells)) :
    Returns (round (Binary.ofFloat x) >>= fun whole => Scalar.ofInt whole >>= next) ↔
      x.isFinite = true := by
  constructor
  · intro ⟨value, made⟩
    obtain ⟨whole, rounded, _⟩ := bind_eq_ok_iff.1 made
    exact rounding.isFinite_of_ok rounded
  · intro finite
    obtain ⟨whole, rounded, within⟩ := rounding.ok_of_isFinite finite
    obtain ⟨cells, converted⟩ := isOk_ofInt within
    obtain ⟨value, made⟩ := goesOn cells
    exact ⟨value, bind_eq_ok_iff.2 ⟨whole, rounded, bind_eq_ok_iff.2 ⟨cells, converted, made⟩⟩⟩

theorem returns_statedWidth_iff (value : Value) :
    Returns (resolver.statedWidth value outer) ↔ resolver.TakesStated value outer := by
  unfold statedWidth TakesStated
  cases (Percentage.ofValue? value : Option Float) with
  | some share =>
    dsimp only
    cases resolver.target with
    | points => exact iff_of_true (returns_ok _) nofun
    | cells =>
      refine Iff.trans ?_ (forall_prop_of_true rfl).symm
      exact returns_whole_bind_iff Binary.IsRounding.roundEven _ fun cells => returns_ok _
  | none =>
    dsimp only
    rw [← Length.isOk_ofValue_iff]
    cases length : (Length.ofValue value : Except NumberFault (Option Float)) with
    | error fault =>
      exact iff_of_false (not_returns_error fault) fun both => not_returns_error fault both.1
    | ok pixels =>
      refine Iff.trans ?_ (and_iff_right (returns_ok pixels)).symm
      cases pixels with
      | none =>
        refine Iff.trans ?_ (and_iff_left fun _ _ same => nomatch same).symm
        exact returns_map_iff.trans (Value.returns_written_of_unread length)
      | some number =>
        refine Iff.trans ?_ (and_iff_right (Value.isLoggable_of_read length)).symm
        cases resolver.target with
        | points => exact iff_of_true (returns_ok _) nofun
        | cells =>
          refine Iff.trans ?_ (forall_prop_of_true rfl).symm
          refine (returns_whole_bind_iff Binary.IsRounding.truncate number
            fun cells => returns_ok _).trans ?_
          exact ⟨fun finite _ same => by cases same; exact finite, fun finite => finite number rfl⟩

theorem returns_width_iff (value : Value) :
    Returns (resolver.width value outer) ↔ resolver.TakesWidth value outer := by
  unfold width TakesWidth
  split
  · next given =>
    refine Iff.trans ?_ (forall_prop_of_true given).symm
    refine (returns_bind_iff_left fun stated _ => returns_ok _).trans ?_
    exact returns_statedWidth_iff value
  · next absent => exact iff_of_true (returns_ok none) fun given => absurd given absent

instance (value : Value) : Decidable (resolver.TakesWidth value outer) :=
  decidable_of_iff _ (returns_width_iff value)

/-- The width a resolver makes of a value is an extent. -/
theorem isExtent_width (extent : IsExtent outer) {value : Value} {made : Float}
    (resolved : resolver.width value outer = .ok (some made)) : IsExtent made := by
  unfold width at resolved
  split at resolved
  · obtain ⟨stated, -, limited⟩ := bind_eq_ok_iff.1 resolved
    obtain ⟨number, -, rfl⟩ := Option.map_eq_some_iff.1 (pure_eq_ok_iff.1 limited)
    exact extent.limited number
  · cases resolved

theorem returns_box_iff (view : ViewStyle Float) :
    Returns (resolver.box view outer) ↔
      resolver.TakesWidth view.width outer ∧
        resolver.TakesSpacing view.marginTop view.marginBottom ∧
          resolver.TakesSpacing view.paddingTop view.paddingBottom := by
  refine (returns_bind_iff fun _ _ => ?_).trans (and_congr_left' (returns_width_iff view.width))
  refine (returns_bind_iff fun _ _ => ?_).trans (and_congr_left' (returns_edges_iff ..))
  exact (returns_bind_iff_left fun _ _ => returns_ok _).trans (returns_edges_iff ..)

/-! ## Sharing out -/

/-- Whatever widths take, an extent is left to share. -/
theorem isExtent_grantWidths {widths : List (Option Float)}
    (all : ∀ width, some width ∈ widths → IsExtent width) {remaining : Float}
    (extent : IsExtent remaining) : IsExtent (grantWidths remaining widths).2 := by
  induction widths generalizing remaining with
  | nil => exact extent
  | cons width widths ih =>
    have later : ∀ width, some width ∈ widths → IsExtent width := fun width inside =>
      all width (List.mem_cons_of_mem _ inside)
    cases width with
    | none => exact ih later extent
    | some width => exact ih later (extent.sub_min (all width (List.mem_cons_self ..)))

/-- A share of a whole number, with or without one of the cells left over, is not larger than it. -/
theorem natAbs_share_le (whole : Int) (count n : Nat) :
    (whole / count + if (n : Int) < whole % count then 1 else 0).natAbs ≤ whole.natAbs := by
  have down := Int.natAbs_ediv_le_natAbs whole count
  split
  · next extra =>
    rcases lt_or_ge whole 0 with negative | nonneg
    · have positive : (0 : Int) < count := by
        refine Int.natCast_pos.2 (Nat.pos_of_ne_zero fun none => ?_)
        rw [none, Int.natCast_zero, Int.emod_zero] at extra
        omega
      have quotient := Int.ediv_neg_of_neg_of_pos negative positive
      omega
    · obtain ⟨number, rfl⟩ := Int.eq_ofNat_of_zero_le nonneg
      rw [← Int.natCast_mod] at extra
      have up : number / count + 1 ≤ number := Binary.div_add_one_le (by omega)
      rw [← Int.natCast_ediv]
      omega
  · rwa [Int.add_zero]

theorem returns_shares {remaining : Float}
    (finite : resolver.target = .cells → remaining.isFinite = true) (count : Nat) :
    Returns (resolver.shares remaining count) := by
  unfold shares
  cases target : resolver.target with
  | points => exact returns_ok _
  | cells =>
    obtain ⟨whole, cut, within⟩ := Binary.IsRounding.truncate.ok_of_isFinite (finite target)
    have cut' : (Scalar.truncate remaining : Except NumberFault Int) = .ok whole := cut
    dsimp only
    rw [cut']
    refine returns_mapM_iff.2 fun n _ => isOk_ofInt ?_
    exact (natAbs_share_le whole count n).trans within

theorem returns_widths_iff (extent : resolver.target = .cells → IsExtent outer)
    (stated : List Value) :
    Returns (resolver.widths stated outer) ↔ ∀ width ∈ stated, resolver.TakesWidth width outer := by
  have each : Returns (stated.mapM fun width => resolver.width width outer) ↔
      ∀ width ∈ stated, resolver.TakesWidth width outer :=
    returns_mapM_iff.trans (forall₂_congr fun width _ => returns_width_iff width)
  rw [← each]
  refine returns_bind_iff_left fun resolved made => ?_
  have left (cells : resolver.target = .cells) :
      (grantWidths (Scalar.max Scalar.zero outer) resolved).2.isFinite = true := by
    have extents : ∀ width, some width ∈ resolved → IsExtent width := by
      intro width inside
      obtain ⟨value, -, resolved⟩ := exists_of_mem_mapM made inside
      exact isExtent_width (extent cells) resolved
    exact (isExtent_grantWidths extents (IsExtent.zero.max (extent cells))).finite
  generalize grantWidths (Scalar.max Scalar.zero outer) resolved = shared at *
  dsimp only
  split
  · exact returns_ok _
  · obtain ⟨filled, made⟩ := returns_shares left (shared.1.countP Option.isNone)
    exact ⟨_, bind_eq_ok_iff.2 ⟨filled, made, rfl⟩⟩

end Resolver

end Receipt
