import Recompile.Json.Shape

/-!
# Diagnostics

What a compiler has to say about a module or about its options: a message with a category, a
severity, a code and, if known, the module and the place in it.
-/

namespace Recompile

/-- How serious a diagnostic is. -/
inductive Severity where
  /-- A remark. -/
  | message
  /-- A proposal. -/
  | suggestion
  /-- Something that should be looked at. -/
  | warning
  /-- Something that must be mended. -/
  | error
deriving DecidableEq, Inhabited

namespace Severity

/-- The severities, the least serious first. -/
def all : List Severity := [message, suggestion, warning, error]

/-- The place of a severity among all of them. -/
def rank : Severity → Nat
  | message => 0
  | suggestion => 1
  | warning => 2
  | error => 3

/-- The severity as shown to people. -/
def text : Severity → String
  | message => "message"
  | suggestion => "suggestion"
  | warning => "warning"
  | error => "error"

/-- The severity as stored. -/
def name : Severity → String
  | message => "Message"
  | suggestion => "Suggestion"
  | warning => "Warning"
  | error => "Error"

instance : Ord Severity := ⟨compareOn rank⟩

instance : JsonShape Severity := ⟨fun s => .text s.name, JsonShape.named? all name⟩

end Severity

/-- What a diagnostic is about. -/
inductive Category where
  /-- The form of a text. -/
  | form
  /-- The meaning of a text. -/
  | meaning
  /-- The options of the compiler. -/
  | options
deriving DecidableEq, Inhabited

namespace Category

/-- All categories. -/
def all : List Category := [form, meaning, options]

/-- The place of a category among all of them. -/
def rank : Category → Nat
  | form => 0
  | meaning => 1
  | options => 2

/-- The category as shown to people. -/
def text : Category → String
  | form => "syntax"
  | meaning => "semantic"
  | options => "options"

/-- The category as stored. -/
def name : Category → String
  | form => "Syntax"
  | meaning => "Semantic"
  | options => "Options"

instance : JsonShape Category := ⟨fun c => .text c.name, JsonShape.named? all name⟩

end Category

/-- A place in a text. -/
structure Position where
  /-- The line. -/
  line : UInt32
  /-- The column. -/
  column : UInt32
deriving DecidableEq, Inhabited

instance : JsonShape Position where
  toJson p := .record [("line", toJson p.line), ("column", toJson p.column)]
  ofJson? json := do
    match ← JsonShape.allFields? ["line", "column"] json with
    | [line, column] =>
      return ⟨← JsonShape.required line, ← JsonShape.required column⟩
    | _ => none

/-- A message of the compiler. -/
structure Diagnostic where
  /-- What it is about. -/
  category : Category
  /-- How serious it is. -/
  severity : Severity
  /-- Its code. -/
  code : UInt32
  /-- Its text. -/
  message : String
  /-- The module it is about. -/
  file : Option ModuleId
  /-- The place in the module. -/
  position : Option Position
deriving DecidableEq, Inhabited

namespace Diagnostic

/-- A diagnostic that names no module and no place. -/
def general (category : Category) (severity : Severity) (code : UInt32) (message : String) :
    Diagnostic :=
  ⟨category, severity, code, message, none, none⟩

/-- The diagnostic, about a module. -/
def inModule (diagnostic : Diagnostic) (file : ModuleId) : Diagnostic :=
  { diagnostic with file := some file }

/-- The diagnostic, about a place. -/
def placedAt (diagnostic : Diagnostic) (line column : UInt32) : Diagnostic :=
  { diagnostic with position := some ⟨line, column⟩ }

/-- Whether the diagnostic is an error. -/
def isError (diagnostic : Diagnostic) : Bool :=
  diagnostic.severity = .error

instance : JsonShape Diagnostic where
  toJson d := .record [("category", toJson d.category), ("severity", toJson d.severity),
    ("code", toJson d.code), ("message", toJson d.message), ("file", toJson d.file),
    ("position", toJson d.position)]
  ofJson? json := do
    match ← JsonShape.allFields?
        ["category", "severity", "code", "message", "file", "position"] json with
    | [category, severity, code, message, file, position] =>
      return ⟨← JsonShape.required category, ← JsonShape.required severity,
        ← JsonShape.required code, ← JsonShape.required message,
        ← JsonShape.withDefault none file, ← JsonShape.withDefault none position⟩
    | _ => none

end Diagnostic

end Recompile
