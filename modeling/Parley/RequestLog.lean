import Parley.Json.Writer
import Parley.Payload

/-!
# The request log

A record of every request that goes out, each in a file of its own. A record counts and flags what
is sent and never holds any of its text. Keeping a record must not disturb the request, so a file
that cannot be written is simply not there. Only a record that has no text, or whose file can have
no name, is not kept from doing so.
-/

namespace Parley

structure RequestRecord where
  provider : Value
  kind : Value
  model : Value
  messages : Nat
  hasSystem : Bool
  hasTools : Bool
  temperature : Value
  maxTokens : Value

namespace RequestRecord

def ofRequest (provider kind model : Value) (payload : Payload) (options : Value) :
    Outcome RequestRecord := do
  let messages ← payload.messages.size
  let temperature ← options.get "temperature"
  let maxTokens ← options.get "max_tokens"
  return ⟨provider, kind, model, messages, !payload.system.isNull, payload.tools.truthy,
    temperature, maxTokens⟩

def toFields (r : RequestRecord) : Fields := [
  ("provider", r.provider),
  ("kind", r.kind),
  ("model", r.model),
  ("messages_count", .int r.messages),
  ("has_system", .bool r.hasSystem),
  ("has_tools", .bool r.hasTools),
  ("temperature", r.temperature),
  ("max_tokens", r.maxTokens)]

/-- The text of the record's file, but for the time, which it tells first. -/
def text (r : RequestRecord) : String :=
  Json.display (.dict r.toFields)

/-- What the name of the record's file starts with; the time follows. -/
def fileStem (r : RequestRecord) : String :=
  r.provider.plain ++ "-" ++ r.kind.plain

/-- The length of what follows in the name of the record's file: a dash, the time, the ending. -/
def nameRest : Nat := 27

/-- Whether the record's file lies in the directory of the log itself and its name is short
enough. -/
def isNameable (r : RequestRecord) : Bool :=
  !r.fileStem.toList.contains '/' && r.fileStem.utf8ByteSize + nameRest ≤ 255

/-- Whether no file at all can have the name of the record's file. -/
def isUnnameable (r : RequestRecord) : Bool :=
  r.fileStem.toList.contains '\x00'

/-- Whether the record has a text: no number in it has too many digits. -/
def isPrintable (r : RequestRecord) : Bool :=
  (Value.dict r.toFields).printable

def isWritable (r : RequestRecord) : Bool :=
  r.isPrintable && !r.isUnnameable

end RequestRecord

/-- A directory in which records are kept. -/
structure RequestLog where
  /-- Whether anything is recorded at all. -/
  enabled : Bool := true
  /-- Whether the directory can be made. -/
  reachable : Bool := true

namespace RequestLog

def hasDirectory (log : RequestLog) : Bool :=
  log.enabled && log.reachable

def accepts (log : RequestLog) (r : RequestRecord) : Bool :=
  log.hasDirectory && r.isNameable

/-- Records a request, and gives the record that was written, if one was. -/
def keep (log : RequestLog) (provider kind model : Value) (payload : Payload) (options : Value) :
    Outcome (Option RequestRecord) :=
  if log.enabled then do
    let r ← RequestRecord.ofRequest provider kind model payload options
    if r.isWritable then return if log.accepts r then some r else none else misuse .content
  else .ok none

/-- Written records in the order of their files' names: by what the names start with, and then by
time. -/
def listing (written : List RequestRecord) : List RequestRecord :=
  written.mergeSort fun r s => decide (r.fileStem ++ "-" ≤ s.fileStem ++ "-")

@[simp] theorem keep_of_disabled {log : RequestLog} (h : log.enabled = false)
    (provider kind model : Value) (payload : Payload) (options : Value) :
    log.keep provider kind model payload options = .ok none := by
  simp [keep, h]

end RequestLog

end Parley
