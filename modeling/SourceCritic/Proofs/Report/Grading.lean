import Mathlib
import SourceCritic.Proofs.Program.Presentation
import SourceCritic.Proofs.Report.Printing

/-!
# Grades in a report

A report for a reader lists violations by their grades, the worst ones first, and ends with a
verdict.  The entries are the violations in stable order by descending grade, so each of them is
printed once.  The verdict is the harshest one to which any of the violations leads, so it may be
taken for parts of a list, in any order, and it agrees with the status with which the program ends.
-/

namespace SourceCritic

/-! ## Verdicts -/

namespace Verdict

theorem rank_injective : Function.Injective rank := by
  intro first second same
  cases first <;> cases second <;> first | rfl | cases same

/-- Verdicts are ordered by how harsh they are. -/
instance : LinearOrder Verdict :=
  LinearOrder.lift' rank rank_injective

private theorem clean_le (verdict : Verdict) : clean ≤ verdict :=
  Nat.zero_le verdict.rank

private theorem le_earthquake (verdict : Verdict) : verdict ≤ earthquake := by
  cases verdict <;> decide

private theorem max_eq_earthquake_iff (first second : Verdict) :
    max first second = earthquake ↔ first = earthquake ∨ second = earthquake := by
  cases first <;> cases second <;> decide

private theorem ofSeverity_worse (harsh : Bool) (first second : Severity) :
    ofSeverity harsh (first.worse second) =
      max (ofSeverity harsh first) (ofSeverity harsh second) := by
  cases harsh <;> cases first <;> cases second <;> decide

private theorem ofSeverity_le
    {first second : Severity} (ordered : first ≤ second) (harsh : Bool) :
    ofSeverity harsh first ≤ ofSeverity harsh second := by
  have worse : first.worse second = second := by
    rw [Severity.worse, if_pos ordered]
  rw [← worse, ofSeverity_worse]
  exact le_max_left _ _

/-- The worst of some grades leads to the harshest verdict to which any of them leads. -/
private theorem ofSeverity_foldl_worse (harsh : Bool) (first : Severity) (later : List Violation) :
    ofSeverity harsh ((later.map (·.severity)).foldl Severity.worse first) =
      max (ofSeverity harsh first) (ofViolations later harsh) := by
  induction later generalizing first with
  | nil => exact (max_eq_left (clean_le _)).symm
  | cons next rest inductionHypothesis =>
      have begins :
          ofViolations (next :: rest) harsh =
            max (ofSeverity harsh next.severity) (ofViolations rest harsh) :=
        inductionHypothesis next.severity
      rw [List.map_cons, List.foldl_cons, inductionHypothesis, ofSeverity_worse, begins, max_assoc]

@[simp]
theorem ofViolations_nil (harsh : Bool) : ofViolations [] harsh = clean :=
  rfl

theorem ofViolations_cons (first : Violation) (later : List Violation) (harsh : Bool) :
    ofViolations (first :: later) harsh =
      max (ofSeverity harsh first.severity) (ofViolations later harsh) :=
  ofSeverity_foldl_worse harsh first.severity later

/-- The verdict on two lists together is the harsher one of their verdicts. -/
theorem ofViolations_append (first second : List Violation) (harsh : Bool) :
    ofViolations (first ++ second) harsh =
      max (ofViolations first harsh) (ofViolations second harsh) := by
  induction first with
  | nil => exact (max_eq_right (clean_le _)).symm
  | cons head rest inductionHypothesis =>
      rw [List.cons_append, ofViolations_cons, ofViolations_cons, inductionHypothesis, max_assoc]

/-- The order of the violations does not matter for the verdict. -/
theorem ofViolations_perm
    {first second : List Violation} (rearranged : first.Perm second) (harsh : Bool) :
    ofViolations first harsh = ofViolations second harsh := by
  induction rearranged with
  | nil => rfl
  | cons head _ inductionHypothesis =>
      rw [ofViolations_cons, ofViolations_cons, inductionHypothesis]
  | swap head next rest => simp only [ofViolations_cons, max_left_comm]
  | trans _ _ toMiddle toEnd => exact toMiddle.trans toEnd

/-- A violation that is at least as bad as all others decides the verdict. -/
theorem ofViolations_cons_of_worst
    {first : Violation} {later : List Violation}
    (worst : ∀ other ∈ later, other.severity ≤ first.severity) (harsh : Bool) :
    ofViolations (first :: later) harsh = ofSeverity harsh first.severity := by
  rw [ofViolations_cons]
  refine max_eq_left ?_
  induction later with
  | nil => exact clean_le _
  | cons next rest inductionHypothesis =>
      rw [List.forall_mem_cons] at worst
      rw [ofViolations_cons]
      exact max_le (ofSeverity_le worst.1 harsh) (inductionHypothesis worst.2)

private theorem ofSeverity_eq_earthquake_iff (severity : Severity) :
    ofSeverity false severity = earthquake ↔ severity = .brutal := by
  cases severity <;> decide

/-- Only a violation of the worst grade leads to the harshest verdict, unless the mode is harsh. -/
theorem ofViolations_eq_earthquake_iff (violations : List Violation) :
    ofViolations violations false = earthquake ↔
      ∃ violation ∈ violations, violation.severity = .brutal := by
  induction violations with
  | nil => simp
  | cons head rest inductionHypothesis =>
      rw [ofViolations_cons, max_eq_earthquake_iff, ofSeverity_eq_earthquake_iff,
        List.exists_mem_cons_iff]
      exact or_congr_right inductionHypothesis

theorem ofViolations_harsh (violations : List Violation) :
    ofViolations violations true = if violations = [] then clean else earthquake := by
  have ofHarsh (severity : Severity) : ofSeverity true severity = earthquake := by
    cases severity <;> rfl
  cases violations with
  | nil => rfl
  | cons head rest =>
      rw [ofViolations_cons, ofHarsh, if_neg (List.cons_ne_nil head rest)]
      exact max_eq_left (le_earthquake _)

end Verdict

/-! ## Stable order by grade -/

namespace Report

open Violation (bucket)

/-- Whether a violation may be printed in front of another one. -/
def isNoBetter (first second : Violation) : Bool :=
  decide (second.severity ≤ first.severity)

private theorem isNoBetter_trans (first second third : Violation)
    (left : isNoBetter first second = true) (right : isNoBetter second third = true) :
    isNoBetter first third = true := by
  simp only [isNoBetter, decide_eq_true_eq] at left right ⊢
  exact Nat.le_trans right left

private theorem isNoBetter_total (first second : Violation) :
    (isNoBetter first second || isNoBetter second first) = true := by
  simp only [isNoBetter, Bool.or_eq_true, decide_eq_true_eq]
  exact Nat.le_total _ _

private theorem mem_grades (severity : Severity) : severity ∈ grades := by
  cases severity <;> decide

private theorem grades_descend : grades.Pairwise fun first second => second < first := by
  decide

/-- Sorting by grade keeps violations of the same grade in order. -/
theorem bucket_mergeSort (violations : List Violation) (severity : Severity) :
    bucket (violations.mergeSort isNoBetter) severity = bucket violations severity := by
  have alike :
      (bucket violations severity).Pairwise fun first second => isNoBetter first second = true := by
    refine List.pairwise_of_forall_mem_list ?_
    intro first isFirst second isSecond
    rw [bucket, List.mem_filter, decide_eq_true_eq] at isFirst isSecond
    rw [isNoBetter, decide_eq_true_eq, isFirst.2, isSecond.2]
    exact Nat.le_refl _
  have kept : (bucket violations severity).Sublist (violations.mergeSort isNoBetter) :=
    List.sublist_mergeSort isNoBetter_trans isNoBetter_total alike List.filter_sublist
  have among :
      (bucket violations severity).Sublist (bucket (violations.mergeSort isNoBetter) severity) := by
    have filtered := kept.filter fun violation => decide (violation.severity = severity)
    simpa only [bucket, List.filter_filter, Bool.and_self] using filtered
  have sameLength := ((List.mergeSort_perm violations isNoBetter).filter fun violation =>
    decide (violation.severity = severity)).length_eq
  exact (among.eq_of_length sameLength.symm).symm

private theorem bucket_cons (head : Violation) (rest : List Violation) (severity : Severity) :
    bucket (head :: rest) severity =
      if head.severity = severity then head :: bucket rest severity else bucket rest severity := by
  simp only [bucket, List.filter_cons, decide_eq_true_eq]

/-- A list in descending order of grades is what its buckets are one after the other. -/
private theorem flatMap_bucket_of_pairwise
    {violations : List Violation}
    (sorted : violations.Pairwise fun first second => isNoBetter first second = true) :
    grades.flatMap (bucket violations) = violations := by
  induction violations with
  | nil => rfl
  | cons head rest inductionHypothesis =>
      rw [List.pairwise_cons] at sorted
      have noneWorse (severity : Severity) (worse : head.severity < severity) :
          bucket rest severity = [] := by
        rw [bucket, List.filter_eq_nil_iff]
        intro other member same
        have noBetter := sorted.1 other member
        rw [isNoBetter, decide_eq_true_eq, of_decide_eq_true same] at noBetter
        exact absurd worse (Nat.not_lt.mpr noBetter)
      have step :
          grades.flatMap (bucket (head :: rest)) = head :: grades.flatMap (bucket rest) := by
        simp only [grades, List.flatMap_cons, List.flatMap_nil, bucket_cons]
        cases graded : head.severity with
        | brutal => simp
        | moderate => simp [noneWorse .brutal (by rw [graded]; decide)]
        | gentle =>
            simp [noneWorse .brutal (by rw [graded]; decide),
              noneWorse .moderate (by rw [graded]; decide)]
      rw [step, inductionHypothesis sorted.2]

/-- The buckets one after the other are the violations in stable order by descending grade. -/
theorem flatMap_bucket (violations : List Violation) :
    grades.flatMap (bucket violations) = violations.mergeSort isNoBetter := by
  have sorted := List.pairwise_mergeSort isNoBetter_trans isNoBetter_total violations
  rw [← flatMap_bucket_of_pairwise sorted]
  exact List.flatMap_congr fun severity _ => (bucket_mergeSort violations severity).symm

/-! ## The parts of a report -/

/-- The part of a report for one grade. -/
structure Part where
  severity : Severity
  entries : List Violation

/-- The parts for the grades with violations, the worst grade first. -/
def parts (violations : List Violation) : List Part :=
  (grades.map fun severity => { severity, entries := bucket violations severity }).filter
    fun part => !part.entries.isEmpty

def partLines (options : Options) (metrics : Violation → String) (part : Part) : List String :=
  headingLine options.colored part.entries.length part.severity ::
    (part.entries.flatMap (entryLines options metrics) ++ [""])

private theorem flatMap_gradeLines (options : Options) (violations : List Violation) :
    grades.flatMap (gradeLines options violations) =
      (parts violations).flatMap (partLines options (·.context.compact)) := by
  have entries : entry options = entryLines options (·.context.compact) :=
    funext (entry_eq options)
  rw [parts]
  induction grades with
  | nil => rfl
  | cons severity later inductionHypothesis =>
      rw [List.flatMap_cons, List.map_cons, List.filter_cons, inductionHypothesis, gradeLines]
      cases nothing : (bucket violations severity).isEmpty with
      | true => simp
      | false => simp [partLines, heading_eq, entries]

theorem flatMap_entries_parts (violations : List Violation) :
    (parts violations).flatMap (·.entries) = violations.mergeSort isNoBetter := by
  rw [← flatMap_bucket, parts]
  induction grades with
  | nil => rfl
  | cons severity later inductionHypothesis =>
      rw [List.flatMap_cons, List.map_cons, List.filter_cons, ← inductionHypothesis]
      cases found : bucket violations severity with
      | nil => simp
      | cons first more => simp

/-- A part holds a whole bucket, which is not empty. -/
theorem mem_parts_iff (violations : List Violation) (part : Part) :
    part ∈ parts violations ↔
      part.entries = bucket violations part.severity ∧ part.entries ≠ [] := by
  rw [parts, List.mem_filter, List.mem_map]
  constructor
  · rintro ⟨⟨severity, _, rfl⟩, nonempty⟩
    exact ⟨rfl, by simpa using nonempty⟩
  · rintro ⟨isBucket, nonempty⟩
    refine ⟨⟨part.severity, mem_grades part.severity, ?_⟩, by simpa using nonempty⟩
    rw [← isBucket]

private theorem parts_descend (violations : List Violation) :
    (parts violations).Pairwise fun first second => second.severity < first.severity := by
  rw [parts]
  refine List.Pairwise.filter _ ?_
  rw [List.pairwise_map]
  exact grades_descend

/-- The number of violations of a grade. -/
def gradeCount (violations : List Violation) (severity : Severity) : Nat :=
  violations.countP fun violation => violation.severity = severity

private theorem gradeCount_eq_length (violations : List Violation) (severity : Severity) :
    gradeCount violations severity = (bucket violations severity).length :=
  List.countP_eq_length_filter

/-- Every violation is of one of the three grades. -/
theorem sum_gradeCount (violations : List Violation) :
    gradeCount violations .brutal + gradeCount violations .moderate +
        gradeCount violations .gentle =
      violations.length := by
  have lengths := congrArg List.length (flatMap_bucket violations)
  rw [List.length_mergeSort, List.length_flatMap] at lengths
  rw [← lengths]
  simp only [grades, gradeCount_eq_length, List.map_cons, List.map_nil, List.sum_cons,
    List.sum_nil]
  omega

/-- How the violations of a report are divided into parts.  The parts are the buckets with something
in them, the worst grade first, and one after the other they are the violations in stable order by
descending grade. -/
structure AreParts (violations : List Violation) (parts : List Part) : Prop where
  descending : parts.Pairwise fun first second => second.severity < first.severity
  nonempty : ∀ part ∈ parts, part.entries ≠ []
  buckets :
    ∀ part ∈ parts,
      part.entries = violations.filter fun violation => violation.severity = part.severity
  stable : parts.flatMap (·.entries) = violations.mergeSort isNoBetter
  once : (parts.flatMap (·.entries)).Perm violations
  total : (parts.map (·.entries.length)).sum = violations.length

theorem areParts (violations : List Violation) : AreParts violations (parts violations) where
  descending := parts_descend violations
  nonempty part member := ((mem_parts_iff violations part).mp member).2
  buckets part member := ((mem_parts_iff violations part).mp member).1
  stable := flatMap_entries_parts violations
  once := by
    rw [flatMap_entries_parts]
    exact List.mergeSort_perm violations isNoBetter
  total := by
    rw [← List.length_flatMap, flatMap_entries_parts, List.length_mergeSort]

/-- The printed report, with the number of violations of each part in its heading. -/
theorem toList_human (options : Options) (analysis : Analysis) (elapsed : String) :
    (human options analysis elapsed).toList =
      (openingLines options.colored ++
        (parts analysis.violations).flatMap (partLines options (·.context.compact)) ++
        [summaryLine options.colored analysis.filesScanned (gradeCount analysis.violations) elapsed,
          verdictLine options.colored
            (Verdict.ofViolations analysis.violations options.harsh)]).flatMap
        fun line => line.toList ++ ['\n'] := by
  have counts :
      (fun severity => (bucket analysis.violations severity).length) =
        gradeCount analysis.violations :=
    funext fun severity => (gradeCount_eq_length analysis.violations severity).symm
  rw [human, toList_joinLines, lines, flatMap_gradeLines, summary_eq, counts, judgement_eq,
    ← opening_eq]

/-- The first part decides the verdict. -/
theorem ofViolations_eq_elim_parts (violations : List Violation) :
    Verdict.ofViolations violations false =
      (parts violations).head?.elim .clean fun part => Verdict.ofSeverity false part.severity := by
  have sorted := List.pairwise_mergeSort isNoBetter_trans isNoBetter_total violations
  rw [← Verdict.ofViolations_perm (List.mergeSort_perm violations isNoBetter)]
  rw [← flatMap_entries_parts] at sorted ⊢
  cases isFirst : parts violations with
  | nil => rfl
  | cons part later =>
      have member : part ∈ parts violations := by
        rw [isFirst]
        exact List.mem_cons_self
      obtain ⟨isBucket, nonempty⟩ := (mem_parts_iff violations part).mp member
      obtain ⟨first, more, shape⟩ := List.exists_cons_of_ne_nil nonempty
      have graded : first.severity = part.severity := by
        have inBucket : first ∈ bucket violations part.severity := by
          rw [← isBucket, shape]
          exact List.mem_cons_self
        rw [bucket, List.mem_filter, decide_eq_true_eq] at inBucket
        exact inBucket.2
      rw [isFirst, List.flatMap_cons, shape, List.cons_append, List.pairwise_cons] at sorted
      rw [List.flatMap_cons, shape, List.cons_append, Verdict.ofViolations_cons_of_worst, graded]
      · rfl
      · exact fun other isLater => of_decide_eq_true (sorted.1 other isLater)

/-! ## Reports and verdicts -/

/-- How some violations are judged.  `parts` are the parts of their report. -/
structure AreJudged (violations : List Violation) (parts : List Part) : Prop where
  joined :
    ∀ others harsh,
      Verdict.ofViolations (violations ++ others) harsh =
        max (Verdict.ofViolations violations harsh) (Verdict.ofViolations others harsh)
  inAnyOrder :
    ∀ others harsh, violations.Perm others →
      Verdict.ofViolations others harsh = Verdict.ofViolations violations harsh
  byFirstPart :
    Verdict.ofViolations violations false =
      parts.head?.elim .clean fun part =>
        match part.severity with
        | .brutal => .earthquake
        | .moderate => .needsWork
        | .gentle => .tolerable
  byStatus :
    ∀ surroundings options filesScanned,
      Verdict.ofViolations violations false = .earthquake ↔
        (Program.success surroundings options { filesScanned, violations }).status = 1
  byEnding :
    ∀ files surroundings arguments options config filesScanned,
      CommandLine.Request.ofArguments arguments = .run options →
      Program.loadConfig files options = .ok config →
      (Run.start files config options.path).outcome = .ok { filesScanned, violations } →
        (Verdict.ofViolations violations false = .earthquake ↔
          (Program.execute files surroundings arguments).status = 1)
  ofHarsh :
    Verdict.ofViolations violations true = if violations = [] then .clean else .earthquake

theorem isBad_iff (violations : List Violation) :
    Program.isBad (.ok violations) = true ↔
      Verdict.ofViolations violations false = .earthquake := by
  rw [Verdict.ofViolations_eq_earthquake_iff, Program.isBad, List.any_eq_true]
  simp only [decide_eq_true_eq]

theorem areJudged (violations : List Violation) : AreJudged violations (parts violations) where
  joined := Verdict.ofViolations_append violations
  inAnyOrder others harsh rearranged := (Verdict.ofViolations_perm rearranged harsh).symm
  byFirstPart := by
    rw [ofViolations_eq_elim_parts]
    cases (parts violations).head? with
    | none => rfl
    | some part => cases graded : part.severity <;> simp [graded, Verdict.ofSeverity]
  byStatus surroundings options filesScanned := by
    rw [Program.status_success, ← isBad_iff]
    cases Program.isBad (.ok violations) <;> simp
  byEnding files surroundings arguments options config filesScanned accepted loaded succeeded := by
    have concluded :
        Program.conclusion files options.path options.config = .ok violations := by
      rw [Program.loadConfig_eq_elim] at loaded
      rw [Program.conclusion, loaded]
      simp only [succeeded]
    rw [Program.execute_of_accepted accepted, Program.status_runWith, concluded, ← isBad_iff]
    cases Program.isBad (.ok violations) <;> simp
  ofHarsh := Verdict.ofViolations_harsh violations

/-- What a report of some violations prints, line by line.  `count` gives the number of violations
of a grade and `metrics` the measured values of a violation. -/
structure ArePrinted (violations : List Violation) (parts : List Part) (count : Severity → Nat)
    (metrics : Violation → String) : Prop where
  counts :
    ∀ severity, count severity = violations.countP fun violation => violation.severity = severity
  total : count .brutal + count .moderate + count .gentle = violations.length
  areDocuments : ∀ violation, Json.IsDocument violation.context (metrics violation).toList
  onOneLine : ∀ violation, '\n' ∉ (metrics violation).toList
  lines :
    ∀ options filesScanned elapsed,
      (human options { filesScanned, violations } elapsed).toList =
        (openingLines options.colored ++ parts.flatMap (partLines options metrics) ++
          [summaryLine options.colored filesScanned count elapsed,
            verdictLine options.colored (Verdict.ofViolations violations options.harsh)]).flatMap
          fun line => line.toList ++ ['\n']
  byEnding :
    ∀ files surroundings arguments options config filesScanned,
      CommandLine.Request.ofArguments arguments = .run options →
      Program.loadConfig files options = .ok config →
      (Run.start files config options.path).outcome = .ok { filesScanned, violations } →
      options.json = false →
        (Program.execute files surroundings arguments).output =
          human { colored := surroundings.colored, harsh := options.harsh }
            { filesScanned, violations } surroundings.elapsed

theorem arePrinted (violations : List Violation) :
    ArePrinted violations (parts violations) (gradeCount violations) (·.context.compact) where
  counts _ := rfl
  total := sum_gradeCount violations
  areDocuments violation := Json.isDocument_compact violation.context
  onOneLine violation := Json.newline_not_mem_compact violation.context
  lines options filesScanned elapsed := toList_human options { filesScanned, violations } elapsed
  byEnding files surroundings arguments options config filesScanned accepted loaded succeeded
      notJson := by
    rw [Program.execute_of_accepted accepted, Program.runWith, loaded]
    simp only [succeeded, Program.success, notJson, Bool.false_eq_true, if_false]

/-- A report prints every violation once, in stable order by descending grade, and its counts add up
to the number of violations.  The verdict on a list is the harsher one of the verdicts on its parts,
in any order, and it agrees with the first part of the report and with the status. -/
theorem report_grades_violations (violations : List Violation) :
    (Verdict.clean < .tolerable ∧ Verdict.tolerable < .needsWork ∧
      Verdict.needsWork < .earthquake) ∧
    ∃ parts count metrics,
      AreParts violations parts ∧ AreJudged violations parts ∧
        ArePrinted violations parts count metrics := by
  refine ⟨by decide, parts violations, gradeCount violations, (·.context.compact), ?_, ?_, ?_⟩
  · exact areParts violations
  · exact areJudged violations
  · exact arePrinted violations

private def lengthy : Violation where
  rule := "giant_file"
  filePath := "b.js"
  lineNumber := 120
  severity := .gentle
  message := "Long"
  context := .object [("line_count", .count 120)]

private def nested : Violation where
  rule := "callback_hell"
  filePath := "a.js"
  lineNumber := 7
  severity := .brutal
  message := "Deep"
  context := .object [("nesting_depth", .count 8)]

example :
    lines { colored := false, harsh := true }
        { filesScanned := 12, violations := [lengthy, nested] } "0.01s" =
      ["🔍 SHITLINT ANALYSIS v0.1.0", "Your code is shit. Here's why.", "",
        "💀 BRUTAL VIOLATIONS (1)", "  a.js:7 [callback_hell] Deep",
        "    Metrics: \x7b\"nesting_depth\":8\x7d", "",
        "👀 GENTLE VIOLATIONS (1)", "  b.js:120 [giant_file] Long",
        "    Metrics: \x7b\"line_count\":120\x7d", "",
        "Done: 12 scanned · 1 brutal · 0 moderate · 1 gentle · 0.01s",
        "VERDICT: Your code looks like it was written during an earthquake"] := by
  rfl

end Report

end SourceCritic
