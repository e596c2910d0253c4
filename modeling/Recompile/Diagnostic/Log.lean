import Recompile.Diagnostic.Basic

/-!
# Diagnostic logs

A log collects the diagnostics that are reported.  They are taken out by whoever shows them; the
counts per severity go on counting what was ever reported.
-/

namespace Recompile

/-- The diagnostics reported so far. -/
structure DiagnosticLog where
  /-- The severities of those that were taken out. -/
  taken : List Severity
  /-- Those that were not, in the order in which they were reported. -/
  held : List Diagnostic
deriving DecidableEq

namespace DiagnosticLog

/-- Nothing was reported. -/
def empty : DiagnosticLog := ⟨[], []⟩

instance : Inhabited DiagnosticLog := ⟨empty⟩

/-- Reports diagnostics. -/
def report (log : DiagnosticLog) (diagnostics : List Diagnostic) : DiagnosticLog :=
  { log with held := log.held ++ diagnostics }

/-- The severities of all that was ever reported. -/
def severities (log : DiagnosticLog) : List Severity :=
  log.taken ++ log.held.map Diagnostic.severity

/-- How many diagnostics of a severity were ever reported. -/
def count (log : DiagnosticLog) (severity : Severity) : Nat :=
  log.severities.count severity

/-- Whether an error was ever reported. -/
def hasErrors (log : DiagnosticLog) : Bool :=
  log.count .error > 0

/-- Takes out what is held. -/
def takeAll (log : DiagnosticLog) : List Diagnostic × DiagnosticLog :=
  (log.held, ⟨log.severities, []⟩)

/-- What is reported is counted after what was reported before. -/
@[simp] theorem severities_report (log : DiagnosticLog) (diagnostics : List Diagnostic) :
    (log.report diagnostics).severities =
      log.severities ++ diagnostics.map Diagnostic.severity := by
  simp [severities, report]

/-- Taking diagnostics out changes no count. -/
@[simp] theorem severities_takeAll (log : DiagnosticLog) :
    log.takeAll.2.severities = log.severities := by
  simp [severities, takeAll]

end DiagnosticLog

end Recompile
