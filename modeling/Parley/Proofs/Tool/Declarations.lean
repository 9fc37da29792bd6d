import Parley.Google.Turn
import Parley.OpenAI.Turn
import Parley.Proofs.Tool.GeminiSchema
import Parley.Proofs.Tool.JsonSchema

/-!
# Tools that can be declared

A vendor that takes JSON Schema can be sent any tool whose parameters are a dictionary. For the
Gemini dialect the parameters have to be translated, and that takes a schema at each of their
positions: `declareAll_verdict`. JSON Schema has schemas that are none in this sense, such as `true`
for a property that may be anything.
-/

namespace Parley

/-- Of what can be written nothing has items but a dictionary. -/
theorem Value.callMissing_items {α : Type} {v : Value} (h : Json.writable v = true) :
    (v.callMissing "items" : Outcome α) = misuse .member := by
  cases v with
  | object kind fields => cases h
  | _ => rfl

namespace Tool

/-- A value that interchange text can say fails to be translated in one way only. -/
theorem fault_of_geminiSchema {schema : Value} {fault : Fault} (htree : Json.Tree schema)
    (h : geminiSchema schema = .error fault) : fault = .misuse .member := by
  rcases exists_position_of_error htree.distinct h with ⟨way, v, hv, -, hfault⟩
  have hinner : Json.Tree v := Json.hereditary_tree.at? hv htree
  rw [Value.callMissing_items hinner.writable] at hfault
  cases hfault
  rfl

end Tool

/-! ## Declaring a list of tools -/

/-- A tool whose parameters are a dictionary of interchange text. -/
structure ToolSchema.Plain (tool : ToolSchema) : Prop where
  tree : Json.Tree tool.parameters
  dict : ∃ fields, tool.parameters = .dict fields

/-- The first vendor declares all plain tools. -/
theorem OpenAI.exists_declareAll {tools : List ToolSchema} (h : ∀ tool ∈ tools, tool.Plain) :
    ∃ declared, OpenAI.declareAll tools = .ok declared := by
  have hdeclare : ∀ tool ∈ tools, ∃ declared, OpenAI.declare tool = .ok declared := by
    intro tool htool
    rcases (h tool htool).dict with ⟨fields, hfields⟩
    have hschema : ∃ schema, Tool.jsonSchema tool.parameters = .ok schema := by
      rw [hfields, Tool.jsonSchema]
      split
      · exact ⟨_, rfl⟩
      · exact ⟨_, rfl⟩
    rcases hschema with ⟨schema, hschema⟩
    exact ⟨_, by rw [OpenAI.declare, Outcome.bind_of_ok hschema]; rfl⟩
  rcases Outcome.exists_mapM_iff.2 hdeclare with ⟨declared, hdeclared⟩
  exact ⟨.list declared, by rw [OpenAI.declareAll, Outcome.bind_of_ok hdeclared]; rfl⟩

namespace Google

/-- A tool is declared exactly if its parameters are translated. -/
theorem exists_declare_iff {tool : ToolSchema} :
    (∃ declared, declare tool = .ok declared) ↔
      ∃ out, Tool.geminiSchema tool.parameters = .ok out := by
  constructor
  · rintro ⟨declared, hdeclared⟩
    rcases Outcome.of_bind_eq_ok hdeclared with ⟨out, hout, -⟩
    exact ⟨out, hout⟩
  · rintro ⟨out, hout⟩
    exact ⟨_, by rw [declare, Outcome.bind_of_ok hout]; rfl⟩

/-- Tools are declared exactly if each of them is. -/
theorem exists_declareAll_iff {tools : List ToolSchema} :
    (∃ declared, declareAll tools = .ok declared) ↔
      ∀ tool ∈ tools, ∃ out, Tool.geminiSchema tool.parameters = .ok out := by
  simp only [← exists_declare_iff]
  rw [← Outcome.exists_mapM_iff]
  constructor
  · rintro ⟨declared, hdeclared⟩
    rcases Outcome.of_bind_eq_ok hdeclared with ⟨all, hall, -⟩
    exact ⟨all, hall⟩
  · rintro ⟨all, hall⟩
    exact ⟨_, by rw [declareAll, Outcome.bind_of_ok hall]; rfl⟩

/-- If declaring fails, it is with the fault of one of the schemas. -/
theorem exists_of_declareAll_eq_error {tools : List ToolSchema} {fault : Fault}
    (h : declareAll tools = .error fault) :
    ∃ tool ∈ tools, Tool.geminiSchema tool.parameters = .error fault := by
  rcases Outcome.bind_eq_error_iff.1 h with hall | ⟨all, -, ⟨⟩⟩
  rcases Outcome.exists_of_mapM_eq_error hall with ⟨tool, htool, hdeclare⟩
  rcases Outcome.bind_eq_error_iff.1 hdeclare with hschema | ⟨out, -, ⟨⟩⟩
  exact ⟨tool, htool, hschema⟩

end Google

namespace Tool

/-- Tools whose parameters are dictionaries can be declared to a vendor that takes JSON Schema. In
the Gemini dialect each can be declared exactly if there is a schema at every position of its
parameters, and all of them exactly if each can. Where one cannot, something without fields was
asked for its fields. -/
theorem declareAll_verdict {tools : List ToolSchema} (hplain : ∀ tool ∈ tools, tool.Plain) :
    (∃ declared, OpenAI.declareAll tools = .ok declared) ∧
      (∀ tool ∈ tools, (∃ out, geminiSchema tool.parameters = .ok out) ↔
        SchemasThroughout tool.parameters) ∧
      ((∃ declared, Google.declareAll tools = .ok declared) ↔
        ∀ tool ∈ tools, SchemasThroughout tool.parameters) ∧
      ∀ fault, Google.declareAll tools = .error fault → fault = .misuse .member := by
  have heach : ∀ tool ∈ tools, (∃ out, geminiSchema tool.parameters = .ok out) ↔
      SchemasThroughout tool.parameters :=
    fun tool htool => exists_translated_iff (hplain tool htool).tree.distinct
  refine ⟨OpenAI.exists_declareAll hplain, heach, ?_, ?_⟩
  · rw [Google.exists_declareAll_iff]
    exact forall₂_congr heach
  · intro fault hfault
    rcases Google.exists_of_declareAll_eq_error hfault with ⟨tool, htool, hschema⟩
    exact fault_of_geminiSchema (hplain tool htool).tree hschema

/-- A tool with one property, of which the schema says what it may be. -/
def noteTool (body : Value) : ToolSchema where
  name := .str "note"
  parameters := .dict [("type", .str "object"), ("properties", .dict [("body", body)])]

theorem plain_noteTool {body : Value} (h : Json.Tree body) : (noteTool body).Plain where
  tree := by
    have hstring : Json.Tree (.str "object") := ⟨rfl, rfl, rfl⟩
    simp [noteTool, Json.tree_dict, h, hstring]
  dict := ⟨_, rfl⟩

/-- A tool whose body has no schema yet is declared everywhere. -/
theorem declareAll_verdict_note :
    (∃ declared, OpenAI.declareAll [noteTool .null] = .ok declared) ∧
      SchemasThroughout (noteTool .null).parameters ∧
      ∃ declared, Google.declareAll [noteTool .null] = .ok declared := by
  have hplain : ∀ tool ∈ [noteTool .null], tool.Plain := by
    intro tool htool
    rw [List.mem_singleton.1 htool]
    exact plain_noteTool ⟨rfl, rfl, rfl⟩
  rcases declareAll_verdict hplain with ⟨hopenAI, heach, hgoogle, -⟩
  have hok : (Google.declareAll [noteTool .null]).isOk = true := by decide +kernel
  have hall := hgoogle.1 (Outcome.of_isOk hok)
  exact ⟨hopenAI, hall _ List.mem_cons_self, hgoogle.2 hall⟩

/-- A property that may be anything has the schema `true`, and that has no translation. -/
theorem refused_of_boolean :
    (noteTool (.bool true)).Plain ∧
      (∃ declared, OpenAI.declareAll [noteTool (.bool true)] = .ok declared) ∧
      geminiSchema (noteTool (.bool true)).parameters = .error (.misuse .member) ∧
      Google.declareAll [noteTool (.bool true)] = .error (.misuse .member) :=
  ⟨plain_noteTool ⟨rfl, rfl, rfl⟩, ⟨_, rfl⟩, rfl, rfl⟩

end Tool

end Parley
