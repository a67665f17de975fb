import Stencil.Script

/-!
# Log lines

How log records are written out, and which of them are: those whose level is as severe as the
threshold that a name stands for.
-/

namespace Stencil

/-- The word for a level. -/
def Level.word : Level → String
  | .debug => "DEBUG"
  | .info => "INFO"
  | .warning => "WARNING"
  | .error => "ERROR"

/-- The severity of a level. -/
def Level.severity : Level → Nat
  | .debug => 10
  | .info => 20
  | .warning => 30
  | .error => 40

/-- The name under which a part of the library logs. -/
def Channel.name : Channel → String
  | .functions => "layoutel.expressions.functions"
  | .sources => "layoutel.el.datasources"
  | .resolver => "layoutel.el.resolver"
  | .settings => "layoutel.config"

/-- The line of a record. -/
def Record.line (r : Record) : Text :=
  r.level.word.toList ++ ' ' :: r.channel.name.toList ++ ':' :: ' ' :: r.text ++ ['\n']

/-- The thresholds by name.  There are more than levels: one for everything, and others for nothing
that the library logs. -/
def thresholds : List (String × Nat) :=
  [("NOTSET", 0), ("DEBUG", 10), ("INFO", 20), ("WARN", 30), ("WARNING", 30), ("ERROR", 40),
   ("CRITICAL", 50), ("FATAL", 50)]

/-- The threshold of a name. -/
def threshold? (name : Text) : Option Nat := thresholds.lookup (String.ofList name)

/-- The lines of the records that reach a threshold. -/
def logLines (threshold : Nat) (records : List Record) : Text :=
  (records.filter fun r => decide (threshold ≤ r.level.severity)).flatMap Record.line

end Stencil
