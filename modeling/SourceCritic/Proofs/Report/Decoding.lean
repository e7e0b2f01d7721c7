import SourceCritic.Proofs.Json.Reading
import SourceCritic.Report

/-!
# Reading a report back

A report is decoded in two steps: the text is parsed, and each object in the array is turned into
the violation that it tells of.  The main result says that decoding a report gives the violations
that it was made of, in their order, so that different lists of violations have different reports.
-/

namespace SourceCritic

namespace Json

/-- The keys of an object, in the order of its members. -/
def keys? : Json → Option (List String)
  | .object members => some (members.map Prod.fst)
  | _ => none

end Json

namespace Violation

def keys : List String :=
  ["rule", "file_path", "line_number", "severity", "message", "context"]

/-- The violation that an object of a report tells of. -/
def ofJson? : Json → Option Violation
  | .object
      [("rule", .string rule), ("file_path", .string filePath),
        ("line_number", .number (.ofNat line)), ("severity", .string word),
        ("message", .string message), ("context", context)] =>
      (Severity.ofWord? word).map fun severity =>
        { rule := rule, filePath := filePath, lineNumber := line, severity := severity,
          message := message, context := context }
  | _ => none

@[simp]
theorem keys?_toJson (violation : Violation) : violation.toJson.keys? = some keys :=
  rfl

@[simp]
theorem ofJson?_toJson (violation : Violation) : ofJson? violation.toJson = some violation := by
  simp only [toJson, Json.count, ofJson?, Severity.ofWord?_word, Option.map_some]

private theorem mapM_ofJson?_map_toJson (violations : List Violation) :
    (violations.map toJson).mapM ofJson? = some violations := by
  induction violations with
  | nil => rfl
  | cons violation later inductionHypothesis =>
      rw [List.map_cons, List.mapM_cons, ofJson?_toJson, inductionHypothesis]
      rfl

end Violation

namespace Report

/-- A report is a document for the array of its violations and for nothing else. -/
theorem isDocument_json_iff (violations : List Violation) (value : Json) :
    Json.IsDocument value (json violations).toList ↔
      value = .array (violations.map Violation.toJson) := by
  have isDocument := Json.isDocument_pretty (.array (violations.map Violation.toJson))
  constructor
  · exact fun isOther => isOther.unique isDocument
  · rintro rfl
    exact isDocument

/-- Different violations have different reports. -/
theorem json_injective {violations others : List Violation} (same : json others = json violations) :
    others = violations := by
  have isDocument :
      Json.IsDocument (.array (others.map Violation.toJson)) (json violations).toList := by
    rw [← same, isDocument_json_iff]
  have items := Json.array.inj ((isDocument_json_iff _ _).mp isDocument)
  have decoded := Violation.mapM_ofJson?_map_toJson others
  rw [items, Violation.mapM_ofJson?_map_toJson] at decoded
  exact (Option.some.inj decoded).symm

/-- A report is parsed, as a whole, to an array of objects that decode to the violations of the
report.  Nothing else can be read from it, and no other violations have the same report. -/
theorem parse_json_decodes (violations : List Violation) :
    (∀ text value, Json.parse text = some value ↔ Json.IsDocument value text) ∧
      (∃ items,
        Json.parse (json violations).toList = some (.array items) ∧
          (∀ item ∈ items, item.keys? = some Violation.keys) ∧
          items.mapM Violation.ofJson? = some violations ∧
          ∀ value, Json.IsDocument value (json violations).toList ↔ value = .array items) ∧
      ∀ others, json others = json violations ↔ others = violations := by
  refine ⟨Json.parse_eq_some_iff, ?_, ?_⟩
  · refine ⟨violations.map Violation.toJson, ?_, ?_, ?_, isDocument_json_iff violations⟩
    · rw [Json.parse_eq_some_iff, isDocument_json_iff]
    · simp only [List.forall_mem_map, Violation.keys?_toJson, implies_true]
    · exact Violation.mapM_ofJson?_map_toJson violations
  · intro others
    constructor
    · exact json_injective
    · exact congrArg json

/-- A violation whose texts need all kinds of escapes. -/
def awkward : Violation where
  rule := "\\u0041"
  filePath := "/é\x7f/\"a\".ts"
  lineNumber := 18446744073709551615
  severity := .brutal
  message := "\x00\n\\"
  context := .object [("", .array []), ("\t", .array [.object [], .number (-1)])]

theorem parse_json_decodes_awkward :
    Json.parse (json [awkward]).toList = some (.array [awkward.toJson]) ∧
      awkward.toJson.keys? = some Violation.keys ∧
      [awkward.toJson].mapM Violation.ofJson? = some [awkward] := by
  obtain ⟨_, ⟨items, parsed, areViolations, decoded, onlyValue⟩, _⟩ := parse_json_decodes [awkward]
  have isItems : Json.array [awkward.toJson] = .array items :=
    (onlyValue _).mp (Json.isDocument_pretty _)
  obtain rfl := Json.array.inj isItems
  exact ⟨parsed, areViolations _ List.mem_cons_self, decoded⟩

end Report

end SourceCritic
