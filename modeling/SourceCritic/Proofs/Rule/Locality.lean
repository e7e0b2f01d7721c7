import Mathlib
import SourceCritic.Proofs.Rule.Sites

/-!
# Declarations in a longer text

What the function rule says about a declaration depends on the text from its beginning to the
brace that ends its body, and on the number of lines before it.  So a text that is put in front
of another one may add declarations of its own, even ones that reach into the other text, but it
moves all others down by as many lines as it has.  A text that is put behind adds declarations
whose body had no end before, and changes no other one.

The declarations of a text are ordered by where they begin.  Two lists in this order are compared
by their members alone.
-/

namespace SourceCritic.Rule.Functions

open Text (bytes bytes_append)

namespace Site

/-! ## The order of declarations -/

/-- One declaration begins before another one. -/
def IsBefore (first second : Site) : Prop :=
  first.start < second.start

instance : Std.Irrefl IsBefore where
  irrefl site := Nat.lt_irrefl site.start

instance : Std.Antisymm IsBefore where
  antisymm _ _ less more := absurd more (Nat.lt_asymm less)

private theorem pairwise_isBefore_sites (text : List Char) : (sites text).Pairwise IsBefore :=
  pairwise_start_sites text

/-! ## A text in front -/

/-- A declaration as it stands behind one more text. -/
def behind (added : List Char) (site : Site) : Site :=
  { site with before := added ++ site.before }

private theorem start_behind (added : List Char) (site : Site) :
    (site.behind added).start = (bytes added).length + site.start := by
  rw [start, behind, bytes_append, List.length_append, start]

/-- A declaration stays one behind more text. -/
theorem IsIn.behind
    {text : List Char} {site : Site} (isIn : site.IsIn text) (added : List Char) :
    (site.behind added).IsIn (added ++ text) := by
  constructor
  · obtain ⟨gap, secondGap, rest, shape, covers⟩ := isIn.declared
    refine ⟨gap, secondGap, rest, ?_, covers⟩
    rw [shape, Site.behind, List.append_assoc added]
  · have same :
        (added ++ text).drop (site.behind added).before.length =
          text.drop site.before.length := by
      rw [Site.behind, List.length_append, List.drop_length_add_append]
    rw [same]
    exact isIn.bodied

/-- A declaration that does not begin within the text in front is one of the other text. -/
theorem IsIn.exists_behind
    {added text : List Char} {site : Site}
    (isIn : site.IsIn (added ++ text))
    (reached : (bytes added).length ≤ site.start) :
    ∃ other : Site, other.IsIn text ∧ other.behind added = site := by
  obtain ⟨gap, secondGap, rest, shape, covers⟩ := isIn.declared
  obtain ⟨between, sameBefore, sameText⟩ := Text.exists_of_length_bytes_le shape reached
  refine ⟨{ site with before := between }, ⟨?_, ?_⟩, ?_⟩
  · exact ⟨gap, secondGap, rest, sameText, covers⟩
  · have bodied := isIn.bodied
    rw [sameBefore, List.length_append, List.drop_length_add_append] at bodied
    exact bodied
  · rw [Site.behind, ← sameBefore]

private theorem branches_behind (added : List Char) (site : Site) :
    (site.behind added).branches = site.branches :=
  rfl

private theorem lines_behind (added : List Char) (site : Site) :
    (site.behind added).lines = site.lines :=
  rfl

private theorem isComplex_behind (added : List Char) (site : Site) :
    (site.behind added).IsComplex ↔ site.IsComplex := by
  rw [IsComplex, IsComplex, branches_behind, lines_behind]

private theorem grade_behind (added : List Char) (site : Site) :
    (site.behind added).grade = site.grade := by
  rw [grade, grade]
  apply if_congr _ rfl rfl
  rw [branches_behind, lines_behind]

private theorem remark_behind (added : List Char) (site : Site) :
    (site.behind added).remark = site.remark := by
  rw [remark, remark]
  apply if_congr _ rfl rfl
  rw [branches_behind, lines_behind]

/-- The text in front moves a violation down and changes nothing else of it. -/
theorem violation_behind (path : String) (added : List Char) (site : Site) :
    (site.behind added).violation path =
      { site.violation path with
        lineNumber := (site.violation path).lineNumber + added.count '\n' } := by
  have moved :
      1 + (site.behind added).before.count '\n' =
        1 + site.before.count '\n' + added.count '\n' := by
    rw [behind, List.count_append]
    omega
  simp only [violation, grade_behind, remark_behind, branches_behind, lines_behind, moved]

/-- The declarations of a text are those that begin in its first part and those of the second part.
-/
theorem sites_append (added text : List Char) :
    sites (added ++ text) =
      (sites (added ++ text)).filter (fun site => site.start < (bytes added).length) ++
        (sites text).map (Site.behind added) := by
  apply List.Pairwise.eq_of_mem_iff (pairwise_isBefore_sites _)
  · apply List.pairwise_append.mpr
    refine ⟨(pairwise_isBefore_sites _).filter _, ?_, ?_⟩
    · apply List.pairwise_map.mpr
      apply (pairwise_isBefore_sites text).imp
      intro first second less
      unfold IsBefore at less ⊢
      rw [start_behind, start_behind]
      omega
    · intro first inFirst second inSecond
      have within := (List.mem_filter.mp inFirst).2
      obtain ⟨other, _, rfl⟩ := List.mem_map.mp inSecond
      have bound : first.start < (bytes added).length := of_decide_eq_true within
      unfold IsBefore
      rw [start_behind]
      omega
  · intro site
    rw [List.mem_append, List.mem_filter, List.mem_map, mem_sites_iff, decide_eq_true_eq]
    constructor
    · intro isIn
      by_cases within : site.start < (bytes added).length
      · exact Or.inl ⟨isIn, within⟩
      · obtain ⟨other, otherIsIn, same⟩ := isIn.exists_behind (Nat.not_lt.mp within)
        exact Or.inr ⟨other, (mem_sites_iff text other).mpr otherIsIn, same⟩
    · intro found
      rcases found with ⟨isIn, _⟩ | ⟨other, member, same⟩
      · exact isIn
      · rw [← same]
        exact ((mem_sites_iff text other).mp member).behind added

/-! ## A text behind -/

theorem IsIn.append
    {text : List Char} {site : Site} (isIn : site.IsIn text) (added : List Char) :
    site.IsIn (text ++ added) := by
  obtain ⟨gap, secondGap, rest, shape, covers⟩ := isIn.declared
  have inText : site.before.length ≤ text.length := by
    rw [shape, List.length_append]
    omega
  constructor
  · refine ⟨gap, secondGap, rest ++ added, ?_, covers⟩
    rw [shape]
    simp only [List.append_assoc, List.cons_append]
  · rw [List.drop_append_of_le_length inText]
    exact body?_append isIn.bodied added

/-- What follows a text takes none of its declarations away. -/
theorem sublist_sites_append (text added : List Char) :
    (sites text).Sublist (sites (text ++ added)) := by
  have subset : sites text ⊆ sites (text ++ added) := by
    intro site member
    have isIn := (mem_sites_iff text site).mp member
    exact (mem_sites_iff _ site).mpr (isIn.append added)
  have ordered := pairwise_isBefore_sites text
  exact
    List.sublist_of_subperm_of_pairwise (ordered.nodup.subperm subset) ordered
      (pairwise_isBefore_sites _)

end Site

/-! ## Reports -/

/-- The reports on a text are those that begin in its first part, and those on the second part. -/
theorem reported_append (front back : List Char) :
    reported (front ++ back) =
      (reported (front ++ back)).filter (fun site => site.start < (bytes front).length) ++
        (reported back).map (Site.behind front) := by
  have divided :=
    congrArg (List.filter fun site => decide site.IsComplex) (Site.sites_append front back)
  have sameComplex :
      (fun site : Site => decide site.IsComplex) ∘ Site.behind front =
        fun site => decide site.IsComplex := by
    funext site
    rw [Function.comp_apply, decide_eq_decide]
    exact Site.isComplex_behind front site
  rw [List.filter_append, List.filter_map, sameComplex, List.filter_comm] at divided
  exact divided

/-- A text in front adds reports on declarations that begin in it, and moves all others down by its
lines.  A text behind adds reports between the others. -/
theorem check_is_local (path : String) (front back text added : List Char) :
    (∃ started : List Site,
      (∀ site,
        site ∈ started ↔
          (site.IsIn (front ++ back) ∧ site.IsComplex) ∧ site.start < (bytes front).length) ∧
        (started.Pairwise fun first second => first.start < second.start) ∧
          check path (front ++ back) =
            started.map (Site.violation path) ++
              (check path back).map fun violation =>
                { violation with lineNumber := violation.lineNumber + front.count '\n' }) ∧
      (check path text).Sublist (check path (text ++ added)) := by
  constructor
  · refine
      ⟨(reported (front ++ back)).filter fun site => site.start < (bytes front).length, ?_,
        (pairwise_start_reported _).filter _, ?_⟩
    · intro site
      rw [List.mem_filter, mem_reported_iff, decide_eq_true_eq]
    · have moved :
          ((reported back).map (Site.behind front)).map (Site.violation path) =
            ((reported back).map (Site.violation path)).map fun violation =>
              { violation with lineNumber := violation.lineNumber + front.count '\n' } := by
        rw [List.map_map, List.map_map]
        apply List.map_congr_left
        intro site _
        exact Site.violation_behind path front site
      have divided := congrArg (List.map (Site.violation path)) (reported_append front back)
      rw [List.map_append, moved] at divided
      rw [check_eq_map_reported, check_eq_map_reported]
      exact divided
  · rw [check_eq_map_reported, check_eq_map_reported]
    exact ((Site.sublist_sites_append text added).filter _).map _

end SourceCritic.Rule.Functions
