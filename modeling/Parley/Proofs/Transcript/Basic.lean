import Parley.Payload
import Parley.Proofs.Message.Typed
import Parley.Proofs.Value.Reading

/-!
# Transcripts

What a conversation says, item by item, whichever vendor it is sent to. A transcript is read off the
entries of a payload from front to back, without any knowledge of how they came about; on the other
side, `Tells` says which items a message has to give.

* `Transcript.read`: the items in the entries of a payload;
* `Tells`: the items of one message, as each vendor is to be told them;
* `Part.IsResult`: results, which only messages that answer calls are told as.

The forms of the three vendors differ: a text and calls may share an entry or not, results may be
entries of their own or share one, arguments may be texts or objects. An item abstracts from that
and keeps the role under which it is said.
-/

namespace Parley

/-- What one item of a transcript says. -/
inductive Part where
  | text (content : Value)
  | call (id : Option Value) (name arguments : Value)
  | result (answers content : Value)
  /-- Something that is none of these. -/
  | other (value : Value)

structure Item where
  role : Value
  part : Part

/-! ## Reading entries -/

namespace OpenAI

def readCall (call : Value) : Part :=
  .call (some (call.read "id")) ((call.read "function").read "name")
    ((call.read "function").read "arguments")

def readCalls : Value → List Part
  | .null => []
  | .list calls => calls.map readCall
  | v => [.other v]

def readContent : Value → List Part
  | .null => []
  | .str s => [.text (.str s)]
  | v => [.other v]

def readParts (entry : Value) : List Part :=
  if (entry.read "role").isText "tool" then
    [.result (entry.read "tool_call_id") (entry.read "content")]
  else readContent (entry.read "content") ++ readCalls (entry.read "tool_calls")

end OpenAI

namespace Anthropic

def readBlock (block : Value) : Part :=
  let type := block.read "type"
  if type.isText "text" then .text (block.read "text")
  else if type.isText "tool_use" then
    .call (some (block.read "id")) (block.read "name") (block.read "input")
  else if type.isText "tool_result" then
    .result (block.read "tool_use_id") (block.read "content")
  else .other block

def readParts (entry : Value) : List Part :=
  match entry.read "content" with
  | .str s => [.text (.str s)]
  | .list blocks => blocks.map readBlock
  | v => [.other v]

end Anthropic

namespace Google

def readPart (part : Value) : Part :=
  let call := part.read "function_call"
  let response := part.read "function_response"
  let text := part.read "text"
  if !call.isNull then .call none (call.read "name") (call.read "args")
  else if !response.isNull then .result (response.read "name") (response.read "response")
  else if !text.isNull then .text text
  else .other part

def readParts (entry : Value) : List Part :=
  match entry.read "parts" with
  | .list parts => parts.map readPart
  | v => [.other v]

end Google

namespace Vendor

def readParts (vendor : Vendor) (entry : Value) : List Part :=
  match vendor with
  | .openAI _ => OpenAI.readParts entry
  | .anthropic => Anthropic.readParts entry
  | .google _ => Google.readParts entry

/-- The entries without the system instruction at their head, for the vendor that has it there. -/
def body (vendor : Vendor) (entries : List Value) : List Value :=
  match vendor, entries with
  | .openAI _, entry :: rest =>
    if (entry.read "role").isText "system" then rest else entry :: rest
  | _, entries => entries

end Vendor

namespace Transcript

def ofEntry (vendor : Vendor) (entry : Value) : List Item :=
  (vendor.readParts entry).map (Item.mk (entry.read "role"))

def ofEntries (vendor : Vendor) (entries : List Value) : List Item :=
  entries.flatMap (ofEntry vendor)

/-- The items in the messages of a payload, from front to back. -/
def read (vendor : Vendor) (messages : Value) : List Item :=
  match messages with
  | .list entries => ofEntries vendor (vendor.body entries)
  | v => [⟨.null, .other v⟩]

end Transcript

/-! ## What a message says -/

namespace Vendor

def assistantRole : Vendor → Value
  | .google _ => .str "model"
  | _ => .str "assistant"

/-- The role under which the results of calls are reported. -/
def resultRole : Vendor → Value
  | .openAI _ => .str "tool"
  | _ => .str "user"

end Vendor

/-- The object that a result is sent as: the one that its text writes, else the text wrapped. -/
def responseObject (text : String) : Fields :=
  match Json.read text with
  | .ok (.dict fields) => fields
  | _ => [("result", .str text)]

/-- What a vendor is to be told of a call: its name, its id except on the content-generation
service, and its arguments, either as their text, an empty one as that of the empty object, or as
the object that the text decodes to. -/
def TellsCall (vendor : Vendor) (call : TextCall) (part : Part) : Prop :=
  match vendor with
  | .openAI _ =>
    part = .call (some (.str call.id)) (.str call.name)
      (.str (if call.arguments = "" then "{}" else call.arguments))
  | .anthropic => ∃ fields, call.toCall.argumentFields = .ok fields ∧
      part = .call (some (.str call.id)) (.str call.name) (.dict fields)
  | .google _ => ∃ fields, call.toCall.argumentFields = .ok fields ∧
      part = .call none (.str call.name) (.dict fields)

/-- What a vendor is to be told of a result: the id that it answers and its text, or on the
content-generation service a function's name and an object. -/
def TellsResult (vendor : Vendor) (m : Message) (part : Part) : Prop :=
  match vendor with
  | .google _ => ∃ name : String, name ≠ "" ∧
      part = .result (.str name) (.dict (responseObject m.text))
  | _ => part = .result (.str m.answered) (.str m.text)

/-- The text of a message as something said, unless it is empty. -/
def Message.textParts (m : Message) : List Part :=
  if m.text = "" then [] else [.text (.str m.text)]

/-- What a vendor is to be told of a message. A system message is no part of the conversation. -/
inductive Tells (vendor : Vendor) (m : Message) : List Item → Prop where
  | system (role : m.hasRole "system" = true) : Tells vendor m []
  | user (role : m.hasRole "user" = true) : Tells vendor m [⟨.str "user", .text (.str m.text)⟩]
  | plain (role : m.hasRole "assistant" = true) (alone : m.toolCalls = []) :
      Tells vendor m [⟨vendor.assistantRole, .text (.str m.text)⟩]
  | calling {calls : List TextCall} {parts : List Part} (role : m.hasRole "assistant" = true)
      (made : m.toolCalls = calls.map TextCall.toValue) (some_made : calls ≠ [])
      (told : List.Forall₂ (TellsCall vendor) calls parts) :
      Tells vendor m ((m.textParts ++ parts).map (Item.mk vendor.assistantRole))
  | result {part : Part} (role : m.hasRole "tool" = true) (told : TellsResult vendor m part) :
      Tells vendor m [⟨vendor.resultRole, part⟩]

/-! ## Results and calls among the items -/

def Part.IsResult (part : Part) : Prop :=
  ∃ answers content, part = .result answers content

section Told

variable {vendor : Vendor} {m : Message} {call : TextCall} {part : Part} {items : List Item}

theorem TellsResult.isResult (h : TellsResult vendor m part) : part.IsResult := by
  cases vendor with
  | google tag =>
    rcases h with ⟨name, -, rfl⟩
    exact ⟨_, _, rfl⟩
  | _ =>
    cases h
    exact ⟨_, _, rfl⟩

theorem TellsCall.not_isResult (h : TellsCall vendor call part) : ¬part.IsResult := by
  rintro ⟨answers, content, rfl⟩
  cases vendor with
  | openAI label => cases h
  | _ =>
    rcases h with ⟨fields, -, h⟩
    cases h

/-- Only a message that answers a call is told as a result. -/
theorem Tells.not_isResult (h : Tells vendor m items) (htool : m.hasRole "tool" = false) :
    ∀ item ∈ items, ¬item.part.IsResult := by
  have htext (role : Value) (text : String) :
      ∀ item ∈ [Item.mk role (.text (.str text))], ¬item.part.IsResult := by
    intro item hitem
    rw [List.mem_singleton.1 hitem]
    rintro ⟨answers, content, ⟨⟩⟩
  cases h with
  | system role => simp
  | user role => exact htext _ m.text
  | plain role alone => exact htext _ m.text
  | calling role made some_made told =>
    intro item hitem
    rcases List.mem_map.1 hitem with ⟨part, hpart, rfl⟩
    rcases List.mem_append.1 hpart with hpart | hpart
    · rw [Message.textParts] at hpart
      split at hpart
      · cases hpart
      · rw [List.mem_singleton.1 hpart]
        rintro ⟨answers, content, ⟨⟩⟩
    · rcases exists_of_mem_left told.flip hpart with ⟨call, -, hcall⟩
      exact TellsCall.not_isResult hcall
  | result role told =>
    rw [role] at htool
    cases htool

/-- Of any message but a system message something is told. -/
theorem Tells.ne_nil (h : Tells vendor m items) (hsystem : m.hasRole "system" = false) :
    items ≠ [] := by
  cases h with
  | system role =>
    rw [role] at hsystem
    cases hsystem
  | calling role made some_made told =>
    cases told with
    | nil => exact absurd rfl some_made
    | cons hfirst hrest => simp
  | _ => simp

/-! Where calls have ids, these are told as they are, and those of results without blanks. -/

variable (hids : ∀ tag, vendor ≠ .google tag)

include hids

/-- A call is told with its id, if the vendor has ids, its name and some arguments. -/
theorem TellsCall.exists_arguments (h : TellsCall vendor call part) :
    ∃ arguments, part = .call (some (.str call.id)) (.str call.name) arguments := by
  cases vendor with
  | openAI label => exact ⟨_, h⟩
  | anthropic =>
    rcases h with ⟨fields, -, h⟩
    exact ⟨_, h⟩
  | google tag => exact absurd rfl (hids tag)

/-- A vendor that knows ids is told of a call under the id with which it was made. -/
theorem Tells.exists_call (h : Tells vendor m items) (hassistant : m.hasRole "assistant" = true)
    (hcall : call.toValue ∈ m.toolCalls) :
    ∃ arguments, ⟨vendor.assistantRole, .call (some (.str call.id)) (.str call.name) arguments⟩ ∈
      items := by
  have hother {role : String} (hne : "assistant" ≠ role) : ¬m.hasRole role = true := by
    rw [Message.not_hasRole hassistant hne]
    exact Bool.false_ne_true
  cases h with
  | system role => exact absurd role (hother (by decide))
  | user role => exact absurd role (hother (by decide))
  | result role told => exact absurd role (hother (by decide))
  | plain role alone =>
    rw [alone] at hcall
    cases hcall
  | calling role made some_made told =>
    rw [made] at hcall
    rcases List.mem_map.1 hcall with ⟨other, hmem, hsame⟩
    rw [TextCall.toValue_injective hsame] at hmem
    rcases exists_of_mem_left told hmem with ⟨part, hpart, htold⟩
    rcases TellsCall.exists_arguments hids htold with ⟨arguments, rfl⟩
    exact ⟨arguments, List.mem_map_of_mem (List.mem_append_right _ hpart)⟩

/-- A vendor that knows ids is told of a result under the id that its message answers, without the
blanks around it. -/
theorem Tells.eq_result (h : Tells vendor m items) (htool : m.hasRole "tool" = true) :
    items = [⟨vendor.resultRole, .result (.str m.answered) (.str m.text)⟩] := by
  have hother {role : String} (hne : "tool" ≠ role) : ¬m.hasRole role = true := by
    rw [Message.not_hasRole htool hne]
    exact Bool.false_ne_true
  cases h with
  | system role => exact absurd role (hother (by decide))
  | user role => exact absurd role (hother (by decide))
  | plain role alone => exact absurd role (hother (by decide))
  | calling role made some_made told => exact absurd role (hother (by decide))
  | result role told =>
    cases vendor with
    | google tag => exact absurd rfl (hids tag)
    | _ =>
      cases told
      rfl

end Told

end Parley
