import Parley.Message.Call
import Parley.Value.Sum

/-!
# Token usage

The token counts that a vendor reports. A count that was not reported stays null; only the total
is derived, as the sum of the two other counts, and only when it was not reported and both are
known.
-/

namespace Parley

/-- Token counts as far as they are known. -/
structure TokenUsage where
  prompt : Value
  completion : Value
  total : Value

namespace TokenUsage

/-- The usage with these counts, its total derived if that is possible and needed. -/
def ofCounts (prompt completion total : Value) : Outcome TokenUsage :=
  if total.isNull && !prompt.isNull && !completion.isNull then
    return ⟨prompt, completion, ← prompt.add completion⟩
  else .ok ⟨prompt, completion, total⟩

/-- The usage with these counts, unless none of them is known. -/
def report (prompt completion total : Value) : Outcome (Option TokenUsage) :=
  if prompt.isNull && completion.isNull && total.isNull then .ok none
  else return some (← ofCounts prompt completion total)

/-- Two partial reports combined, the later one winning count by count. A total from before stands
only while it cannot be derived. -/
def merge (old new : TokenUsage) : Outcome TokenUsage :=
  let prompt := new.prompt.ifNull old.prompt
  let completion := new.completion.ifNull old.completion
  let total :=
    if new.total.isNull && (prompt.isNull || completion.isNull) then old.total else new.total
  ofCounts prompt completion total

def toValue (usage : TokenUsage) : Value :=
  .object .usage [("prompt_tokens", usage.prompt), ("completion_tokens", usage.completion),
    ("total_tokens", usage.total)]

def ofObject? : Value → Option TokenUsage
  | .object .usage fields =>
    some ⟨Fields.value fields "prompt_tokens", Fields.value fields "completion_tokens",
      Fields.value fields "total_tokens"⟩
  | _ => none

@[simp] theorem ofObject?_toValue (usage : TokenUsage) :
    ofObject? usage.toValue = some usage := rfl

def ofAttributes (v : Value) : Outcome TokenUsage := do
  let prompt ← v.attr "prompt_tokens"
  let completion ← v.attr "completion_tokens"
  return ⟨prompt, completion, ← v.attr "total_tokens"⟩

@[simp] theorem ofAttributes_toValue (usage : TokenUsage) :
    ofAttributes usage.toValue = .ok usage := rfl

def build (given : Fields) : Outcome TokenUsage := do
  checkAttributes [] ["prompt_tokens", "completion_tokens", "total_tokens"] given
  ofCounts (given.value "prompt_tokens") (given.value "completion_tokens")
    (given.value "total_tokens")

end TokenUsage

end Parley
