import Recompile.Diagnostic.Packed

/-!
# What checking a module yields

A module is checked in two passes, one on its form and one on its meaning.  Findings keep the
diagnostics of each pass apart, because the cache fills the two halves at different times.
-/

namespace Recompile

/-- A pass over a module that yields diagnostics. -/
inductive Pass where
  /-- The pass on the form of the text. -/
  | form
  /-- The pass on its meaning. -/
  | meaning
deriving DecidableEq, Inhabited

/-- The pass as shown to people. -/
def Pass.text : Pass → String
  | form => "syntactic"
  | meaning => "semantic"

/-- The diagnostics of both passes, as far as they are known. -/
structure Findings where
  /-- The diagnostics of the pass on form. -/
  form : Option (List Diagnostic)
  /-- The diagnostics of the pass on meaning. -/
  meaning : Option (List Diagnostic)
deriving DecidableEq

namespace Findings

/-- No pass has run. -/
def none : Findings := ⟨.none, .none⟩

instance : Inhabited Findings := ⟨none⟩

/-- The diagnostics of a pass. -/
def get? (findings : Findings) : Pass → Option (List Diagnostic)
  | .form => findings.form
  | .meaning => findings.meaning

/-- The findings with the diagnostics of one pass replaced. -/
def set (findings : Findings) (pass : Pass) (diagnostics : List Diagnostic) : Findings :=
  match pass with
  | .form => { findings with form := some diagnostics }
  | .meaning => { findings with meaning := some diagnostics }

/-- Setting a pass sets that pass and leaves the other alone. -/
@[simp] theorem get?_set (findings : Findings) (pass other : Pass) (diagnostics : List Diagnostic) :
    (findings.set pass diagnostics).get? other =
      if other = pass then some diagnostics else findings.get? other := by
  cases pass <;> cases other <;> rfl

instance : JsonShape Findings where
  toJson f := .record [("syntactic", toJson f.form), ("semantic", toJson f.meaning)]
  ofJson? json := do
    match ← JsonShape.allFields? ["syntactic", "semantic"] json with
    | [form, meaning] =>
      return ⟨← JsonShape.withDefault .none form, ← JsonShape.withDefault .none meaning⟩
    | _ => .none

instance : Packed Findings where
  pack f := pack f.form ++ pack f.meaning
  unpack := Packed.andThen unpack fun form => Packed.andThen unpack fun meaning =>
    Packed.done { form, meaning }

end Findings

end Recompile
