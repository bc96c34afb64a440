import DesignSystem.Json.Pointer

/-! # Issues and reports

* `Place`: where an issue is, in a document or as a named place.
* `Issue`: what is wrong at a place.
* `Report`: the issues found, in the order in which they were found; valid without any.
-/

namespace DesignSystem
set_option autoImplicit false

inductive Place where
  | pointer (steps : Pointer)
  | named (name : String)

def Place.text : Place → String
  | pointer steps => steps.text
  | named name => name

structure Issue where
  place : Place
  message : Text
  code : String
  /-- The offending value; null is no value. -/
  value : Option Json

namespace Issue

/-- A value to be reported: null is left out. -/
def reported (value : Json) : Option Json := if value.isNull then none else some value

/-- Reads "place: message (code)". -/
def text (issue : Issue) : Text :=
  s!"{issue.place.text}: " ++ issue.message ++ s!" ({issue.code})"

def document (issue : Issue) : Json :=
  .object ([("path", .string issue.place.text), ("message", .string issue.message),
    ("code", .string issue.code)] ++ (issue.value.map ("value", ·)).toList)

end Issue

structure Report where
  issues : List Issue

namespace Report

def valid (report : Report) : Bool := report.issues.isEmpty

/-- All issues in one line. -/
def summary (report : Report) : Text := Text.intercalate "; " (report.issues.map Issue.text)

/-- An issue per line, or a notice that there is none. -/
def text (report : Report) : Text :=
  if report.valid then "Validation passed: no errors found"
  else Text.intercalate "\n" (report.issues.map Issue.text)

def merge (reports : List Report) : Report := ⟨reports.flatMap issues⟩

def issueDocuments (report : Report) : Json := .array (report.issues.map Issue.document)

end Report
end DesignSystem
