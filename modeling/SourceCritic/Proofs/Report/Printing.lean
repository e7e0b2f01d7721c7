import SourceCritic.Proofs.Json.Documents
import SourceCritic.Report

/-!
# Printed lines

The lines of a report, written out: the texts, the numbers in decimal, and the escape sequences that
stand around a text with a color.  The lemmas behind them say that these lines are what is printed.
-/

namespace SourceCritic.Report

/-! ## Painted texts -/

/-- A text with a sequence behind each of its resets. -/
def reopened (sequence : List Char) : List Char → List Char
  | '\x1b' :: '[' :: '0' :: 'm' :: rest =>
      '\x1b' :: '[' :: '0' :: 'm' :: (sequence ++ reopened sequence rest)
  | first :: rest => first :: reopened sequence rest
  | [] => []

/-- A text between a sequence with codes and a reset.  Without colors it is left as it is. -/
def painted (colored : Bool) (codes text : String) : String :=
  if colored then
    let sequence := '\x1b' :: '[' :: (codes.toList ++ ['m'])
    String.ofList (sequence ++ reopened sequence text.toList ++ ['\x1b', '[', '0', 'm'])
  else
    text

/-- Counting the characters of a reset while passing over them comes to the same. -/
private theorem restyle_eq_reopened (sequence text : List Char) :
    Text.restyle sequence 0 text = reopened sequence text := by
  fun_induction reopened sequence text with
  | case1 rest inductionHypothesis =>
      simp [Text.restyle, Text.resetSequence, inductionHypothesis]
  | case2 first rest noReset inductionHypothesis =>
      have noPrefix : Text.resetSequence.isPrefixOf (first :: rest) = false := by
        rw [Bool.eq_false_iff]
        intro isPrefix
        obtain ⟨later, reset⟩ := List.isPrefixOf_iff_prefix.mp isPrefix
        rw [Text.resetSequence, List.cons_append, List.cons.injEq] at reset
        exact noReset later reset.1.symm reset.2.symm
      rw [Text.restyle, noPrefix, if_neg Bool.false_ne_true, inductionHypothesis]
  | case3 => rw [Text.restyle]

/-- A style is told by the numbers of its attributes. -/
theorem styled_eq_painted
    {style : Text.Style} {codes : String}
    (sameCodes : ";".intercalate (style.map Text.Attribute.code) = codes)
    (colored : Bool) (text : String) :
    Text.styled colored style text = painted colored codes text := by
  cases colored with
  | false => rfl
  | true =>
      simp [Text.styled, painted, Text.Style.sequence, sameCodes, restyle_eq_reopened,
        Text.resetSequence]

example : painted true "91" "a\x1b[0mb" = "\x1b[91ma\x1b[0m\x1b[91mb\x1b[0m" := by
  rfl

/-! ## Lines -/

/-- The code of the color of a grade. -/
def colorCode : Severity → String
  | .brutal => "91"
  | .moderate => "33"
  | .gentle => "34"

/-- The lines above all violations. -/
def openingLines (colored : Bool) : List String :=
  [painted colored "1" "🔍" ++ " " ++ painted colored "1;91" "SHITLINT ANALYSIS" ++ " v0.1.0",
    painted colored "3" "Your code is shit. Here's why.",
    ""]

/-- The line above the violations of a grade, with their number. -/
def headingLine (colored : Bool) (count : Nat) : Severity → String
  | .brutal => painted colored "1;91" "💀 BRUTAL VIOLATIONS" ++ " (" ++ toString count ++ ")"
  | .moderate => painted colored "1;33" "⚠️  MODERATE VIOLATIONS" ++ " (" ++ toString count ++ ")"
  | .gentle => painted colored "1;34" "👀 GENTLE VIOLATIONS" ++ " (" ++ toString count ++ ")"

/-- The lines for a violation: its place, its rule and its message, and in the harsh mode the values
that were measured. -/
def entryLines (options : Options) (metrics : Violation → String) (violation : Violation) :
    List String :=
  let paint := painted options.colored
  let color := colorCode violation.severity
  let place := violation.filePath ++ ":" ++ toString violation.lineNumber
  let line :=
    "  " ++ paint "1" place ++ " [" ++ paint color violation.rule ++ "] " ++
      paint color violation.message
  if options.harsh then
    [line, "    " ++ paint "2" "Metrics:" ++ " " ++ paint "2" (metrics violation)]
  else
    [line]

/-- The line with the number of files, the numbers of violations and the time. -/
def summaryLine (colored : Bool) (filesScanned : Nat) (count : Severity → Nat) (elapsed : String) :
    String :=
  let dot := " " ++ painted colored "2" "·" ++ " "
  "Done: " ++
    (toString filesScanned ++ " scanned" ++ dot ++
      painted colored "91" (toString (count .brutal) ++ " brutal") ++ dot ++
      painted colored "33" (toString (count .moderate) ++ " moderate") ++ dot ++
      painted colored "34" (toString (count .gentle) ++ " gentle") ++ dot ++ elapsed)

/-- The line with the verdict. -/
def verdictLine (colored : Bool) : Verdict → String
  | .clean =>
      painted colored "32" "VERDICT: No violations found. Suspiciously clean code... 🤔"
  | .tolerable =>
      painted colored "34" "VERDICT: Minor sins detected. Your code is mostly tolerable"
  | .needsWork =>
      painted colored "33" "VERDICT: Your code needs work"
  | .earthquake =>
      painted colored "1;91"
        "VERDICT: Your code looks like it was written during an earthquake"

/-! ## What is printed -/

private theorem decimal_eq (value : Nat) : decimal value = toString value :=
  rfl

/-- Every line ends with a line break, the last one included. -/
theorem toList_joinLines (lines : List String) :
    (joinLines lines).toList = lines.flatMap fun line => line.toList ++ ['\n'] := by
  induction lines with
  | nil => rfl
  | cons line later inductionHypothesis =>
      rw [joinLines] at inductionHypothesis ⊢
      simp [String.join_cons, inductionHypothesis]

section

variable (colored : Bool) (text : String)

private theorem styled_bold : Text.styled colored [.bold] text = painted colored "1" text :=
  styled_eq_painted (by decide) colored text

private theorem styled_dimmed : Text.styled colored [.dimmed] text = painted colored "2" text :=
  styled_eq_painted (by decide) colored text

private theorem styled_style (severity : Severity) :
    Text.styled colored (style severity) text = painted colored (colorCode severity) text := by
  cases severity <;> exact styled_eq_painted (by decide) colored text

end

theorem opening_eq (colored : Bool) :
    [Text.styled colored [.bold] "🔍" ++ " " ++
        Text.styled colored [.bold, .brightRed] "SHITLINT ANALYSIS" ++ " v" ++ version,
      Text.styled colored [.italic] motto,
      ""] =
      openingLines colored := by
  have name :
      Text.styled colored [.bold, .brightRed] "SHITLINT ANALYSIS" =
        painted colored "1;91" "SHITLINT ANALYSIS" :=
    styled_eq_painted (by decide) colored _
  have saying : Text.styled colored [.italic] motto = painted colored "3" motto :=
    styled_eq_painted (by decide) colored motto
  have numbered (front : String) : front ++ " v" ++ version = front ++ " v0.1.0" := by
    rw [String.append_assoc]
    rfl
  rw [openingLines, styled_bold, name, saying, numbered, motto]

theorem heading_eq (colored : Bool) (severity : Severity) (count : Nat) :
    Text.styled colored (.bold :: style severity) (title severity) ++ " (" ++ decimal count ++
        ")" =
      headingLine colored count severity := by
  have counted {styled : String} {painted : String} (same : styled = painted) :
      styled ++ " (" ++ decimal count ++ ")" = painted ++ " (" ++ toString count ++ ")" := by
    rw [same, decimal_eq]
  cases severity with
  | brutal => exact counted (styled_eq_painted (by decide) colored _)
  | moderate => exact counted (styled_eq_painted (by decide) colored _)
  | gentle => exact counted (styled_eq_painted (by decide) colored _)

/-- The lines of a violation say its place, its rule and its message in the color of its grade. -/
theorem entry_eq (options : Options) (violation : Violation) :
    entry options violation = entryLines options (·.context.compact) violation := by
  simp only [entry, entryLines, styled_bold, styled_dimmed, styled_style, decimal_eq]

theorem summary_eq (options : Options) (analysis : Analysis) (elapsed : String) :
    summary options analysis elapsed =
      summaryLine options.colored analysis.filesScanned
        (fun severity => (Violation.bucket analysis.violations severity).length) elapsed := by
  have counted (count : Nat) (severity : Severity) :
      toString count ++ " " ++ severity.word = toString count ++ (" " ++ severity.word) :=
    String.append_assoc
  have brutal : " " ++ Severity.brutal.word = " brutal" := by decide
  have moderate : " " ++ Severity.moderate.word = " moderate" := by decide
  have gentle : " " ++ Severity.gentle.word = " gentle" := by decide
  simp only [summary, summaryLine, grades, styled_style, styled_dimmed, colorCode, counted, brutal,
    moderate, gentle, decimal_eq, List.map_cons, List.map_nil, List.cons_append, List.nil_append]
  rfl

theorem judgement_eq (options : Options) (violations : List Violation) :
    judgement options violations =
      verdictLine options.colored (Verdict.ofViolations violations options.harsh) := by
  rw [judgement]
  cases Verdict.ofViolations violations options.harsh with
  | clean => exact styled_eq_painted (by decide) _ _
  | tolerable => exact styled_eq_painted (by decide) _ _
  | needsWork => exact styled_eq_painted (by decide) _ _
  | earthquake => exact styled_eq_painted (by decide) _ _

end SourceCritic.Report
