import Parley.Fault
import Parley.Text.Case

/-!
# The diagnostic log

The level of the library's own log and its one handler. Configuring the log replaces the handler
first and sets the level second, so a level that is refused leaves the old one in force with a new
handler.
-/

namespace Parley

/-- The state of the log: the level below which nothing is reported, and its handlers. -/
structure Log where
  level : Value := .int 0
  handlers : Nat := 0

namespace Log

def initial : Log := {}

def namedLevels : List (String × Int) := [
  ("NOTSET", 0), ("DEBUG", 10), ("INFO", 20), ("WARN", 30), ("WARNING", 30), ("ERROR", 40),
  ("FATAL", 50), ("CRITICAL", 50)]

/-- The level that a value names: a number is one itself, a text is a name in any case. -/
def levelOf (v : Value) : Outcome Value :=
  match v with
  | .str name =>
    match namedLevels.lookup (String.ofList (Text.upper name.toList)) with
    | some n => .ok (.int n)
    | none => misuse .content
  | .int _ => .ok v
  | .bool _ => .ok v
  | _ => misuse .kind

def configure (level : Value) (log : Log) : Log × Outcome Unit :=
  let log := { log with handlers := 1 }
  match levelOf level with
  | .ok level => ({ log with level := level }, .ok ())
  | .error fault => (log, .error fault)

/-- However often it is configured, the log has one handler. -/
@[simp] theorem handlers_configure (level : Value) (log : Log) :
    (configure level log).1.handlers = 1 := by
  unfold configure
  cases levelOf level <;> rfl

end Log

end Parley
