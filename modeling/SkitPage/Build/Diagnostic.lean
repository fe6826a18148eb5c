import SkitPage.Json.Shape

/-!
# Diagnostics

What the tools that read a script have to say about it.

Key definitions: `Diagnostic`, `Diagnostic.listOfJson`, `Diagnostic.summary`.
-/

namespace SkitPage

/-- How grave a diagnostic is. -/
inductive Severity
  | error
  | warning
  | info
deriving DecidableEq, Repr

/-- A remark on a script. -/
structure Diagnostic where
  /-- How grave it is. -/
  severity : Severity
  /-- What it says. -/
  message : String
  /-- Where it belongs, if that is known. -/
  context : Option String
deriving DecidableEq, Repr

namespace Severity

/-- The severities by name. -/
def names : List (String × Severity) := [("Error", .error), ("Warning", .warning), ("Info", .info)]

/-- The name of a severity. -/
def name : Severity → String
  | .error => "Error"
  | .warning => "Warning"
  | .info => "Info"

end Severity

namespace Diagnostic

open Shape

/-- An error without context. -/
def ofError (message : String) : Diagnostic := ⟨.error, message, none⟩

/-- A diagnostic from the fields of an object. -/
def ofFields (o : List (String × Json)) : Except ShapeError Diagnostic := do
  let context ← field? o "context" (nullable text)
  let severity ← field? o "level" (choice Severity.names)
  let message ← field? o "message" text
  return {
    severity := ← require "level" severity
    message := ← require "message" message
    context := context.join }

/-- A diagnostic from the items of an array. -/
def ofItems (xs : List Json) : Except ShapeError Diagnostic := do
  let severity ← item xs 0 "struct Diagnostic" 3 (choice Severity.names)
  let message ← item xs 1 "struct Diagnostic" 3 text
  let context ← item xs 2 "struct Diagnostic" 3 (nullable text)
  atMost xs 3 .plain
  return { severity, message, context }

/-- A list of diagnostics. -/
def listOfJson : Json → Except ShapeError (List Diagnostic) :=
  list (record "Diagnostic" ofFields ofItems)

/-- The JSON form of a diagnostic. -/
def toJson (d : Diagnostic) : Json :=
  .object [("level", .string d.severity.name), ("message", .string d.message),
    ("context", .ofOption (d.context.map .string))]

/-- All messages in one line. -/
def summary (ds : List Diagnostic) : String :=
  if ds.isEmpty then "no diagnostics" else "; ".intercalate (ds.map (·.message))

end Diagnostic

end SkitPage
