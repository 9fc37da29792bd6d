import Parley.Proofs.Payload.Spelling
import Parley.Proofs.Tool.GeminiSchema
import Parley.Proofs.Tool.JsonSchema

/-!
# Defaults of the root

A vendor that takes JSON Schema is told what parameters leave out at their root: that they describe
an object, and that it has properties. In the Gemini dialect the parameters are told as they are. So
what is said there is the translation of the JSON Schema without the defaults that were filled in,
and the two are the same exactly if the root is complete, or says nothing at all.

* `omitted`, `completeRoot_eq`: the defaults of a root, and that completing it adds them;
* `geminiFields_completeRoot`: a completed root is translated default by default;
* `Short`, `exists_short`: the two translations of parameters that both vendors take;
* `told_of_tools`: what the vendors are told of a list of tools.
-/

namespace Parley

namespace Tool

/-! ## What a root leaves out -/

/-- Whether a root describes an object, as it does if it does not say. -/
def describesObject (fields : Fields) : Bool :=
  (fields.valueOr "type" (.str "object")).isText "object"

/-- The defaults that a root leaves out, with the type of objects in the wording of a dialect. -/
def omitted (objectType : String) (fields : Fields) : Fields :=
  (if (fields.lookup "type").isNone then [("type", .str objectType)] else []) ++
    if describesObject fields && (fields.lookup "properties").isNone then
      [("properties", .dict [])] else []

/-- The defaults that are filled in for parameters. Those that say nothing are replaced as a whole,
so nothing is missing from them. -/
def leftOut (objectType : String) : Value → Fields
  | .dict (first :: rest) => omitted objectType (first :: rest)
  | _ => []

/-- Parameters that say nothing, or everything that a root has a default for. -/
def Whole (parameters : Value) : Prop :=
  parameters.truthy = false ∨ ∃ fields, parameters = .dict fields ∧ Complete fields

/-- Completing the root puts what it omits behind its fields. -/
theorem completeRoot_eq (fields : Fields) :
    completeRoot fields = fields ++ omitted "object" fields := by
  unfold completeRoot omitted describesObject Fields.putIfAbsent
  cases htype : fields.lookup "type" with
  | some type =>
    simp only [Fields.value, Fields.valueOr, htype, Option.getD_some]
    cases hobject : type.isText "object" with
    | false => simp
    | true => cases hproperties : fields.lookup "properties" <;> simp
  | none =>
    have htyped : (fields ++ [("type", Value.str "object")]).lookup "type" =
        some (.str "object") := by
      simp [List.lookup_append, htype]
    have hproperties : (fields ++ [("type", Value.str "object")]).lookup "properties" =
        fields.lookup "properties" := by
      simp [List.lookup_append, List.lookup_cons]
    simp only [Fields.value, Fields.valueOr, htype, htyped, hproperties, Option.getD_some,
      Option.getD_none]
    cases fields.lookup "properties" <;> simp

/-- A root that omits nothing is complete. -/
theorem omitted_eq_nil_iff (objectType : String) (fields : Fields) :
    omitted objectType fields = [] ↔ Complete fields := by
  cases htype : fields.lookup "type" with
  | none =>
    have hincomplete : ¬Complete fields := by
      intro h
      rcases h.type with ⟨type, hsome⟩
      rw [htype] at hsome
      cases hsome
    simp [omitted, htype, hincomplete]
  | some type =>
    have hcomplete : Complete fields ↔
        (type.isText "object" = true → ∃ w, fields.lookup "properties" = some w) := by
      have hvalue : fields.value "type" = type := Fields.value_of_lookup htype
      constructor
      · intro h hobject
        exact h.properties (by rwa [hvalue])
      · intro h
        exact ⟨⟨type, htype⟩, by rwa [hvalue]⟩
    rw [hcomplete]
    cases hobject : type.isText "object" <;> cases hproperties : fields.lookup "properties" <;>
      simp [omitted, describesObject, Fields.valueOr, htype, hobject, hproperties]

/-! ## The defaults in the dialect -/

section Dialect

variable {fields out : Fields}

/-- A key that no field of a schema has is none of its translation, but for the mark that null is
allowed. -/
theorem not_mem_keys_of_lookup {key : String} (h : geminiFields [] fields = .ok out)
    (hplain : key ≠ "nullable") (hnone : fields.lookup key = none) :
    key ∉ out.map Prod.fst := by
  rw [mem_keys_iff h]
  rintro (hmem | ⟨f, hf, -, hown | ⟨hmark, -⟩⟩)
  · cases hmem
  · have hne := List.lookup_eq_none_iff.1 hnone f hf
    simp [hown] at hne
  · exact hplain hmark

/-- A type that was omitted is written in the dialect's capitals. -/
theorem geminiFields_type (hnone : "type" ∉ out.map Prod.fst) (rest : Fields) :
    geminiFields out (("type", .str "object") :: rest) =
      geminiFields (out ++ [("type", .str "OBJECT")]) rest := by
  have htoken : typeToken (.str "object") = .str "OBJECT" := rfl
  have hput : putType out (.str "object") = out ++ [("type", .str "OBJECT")] := by
    rw [putType, htoken, Json.put_of_not_mem _ hnone]
    simp
  rw [geminiFields, if_neg (by decide), if_pos rfl, hput]

/-- Properties that were omitted are written as none. -/
theorem geminiFields_properties (hnone : "properties" ∉ out.map Prod.fst) :
    geminiFields out [("properties", .dict [])] = .ok (out ++ [("properties", .dict [])]) := by
  have hput : Fields.put out "properties" (.dict []) = out ++ [("properties", .dict [])] :=
    Json.put_of_not_mem _ hnone
  rw [← hput]
  rfl

/-- The defaults of a root are translated behind what it says itself. -/
theorem geminiFields_omitted (h : geminiFields [] fields = .ok out) :
    geminiFields out (omitted "object" fields) = .ok (out ++ omitted "OBJECT" fields) := by
  have htype : fields.lookup "type" = none → "type" ∉ out.map Prod.fst :=
    not_mem_keys_of_lookup h (by decide)
  have hproperties : fields.lookup "properties" = none → "properties" ∉ out.map Prod.fst :=
    not_mem_keys_of_lookup h (by decide)
  unfold omitted
  cases hnotype : fields.lookup "type" with
  | some type =>
    cases hempty : describesObject fields && (fields.lookup "properties").isNone with
    | false => simp [geminiFields]
    | true =>
      rw [Bool.and_eq_true, Option.isNone_iff_eq_none] at hempty
      simpa using geminiFields_properties (hproperties hempty.2)
  | none =>
    simp only [Option.isNone_none, if_true, List.cons_append, List.nil_append]
    rw [geminiFields_type (htype hnotype)]
    cases hempty : describesObject fields && (fields.lookup "properties").isNone with
    | false => simp [geminiFields]
    | true =>
      rw [Bool.and_eq_true, Option.isNone_iff_eq_none] at hempty
      have hnone : "properties" ∉ (out ++ [("type", Value.str "OBJECT")]).map Prod.fst := by
        simpa using hproperties hempty.2
      simpa using geminiFields_properties hnone

/-- Completing a root completes its translation. -/
theorem geminiFields_completeRoot (h : geminiFields [] fields = .ok out) :
    geminiFields [] (completeRoot fields) = .ok (out ++ omitted "OBJECT" fields) := by
  rw [completeRoot_eq, geminiFields_append, Outcome.bind_of_ok h]
  exact geminiFields_omitted h

/-- What is omitted is not written by anything else. -/
theorem not_mem_keys_of_omitted (h : geminiFields [] fields = .ok out) {key : String}
    (hkey : key ∈ (omitted "OBJECT" fields).map Prod.fst) : key ∉ out.map Prod.fst := by
  rw [omitted, List.map_append, List.mem_append] at hkey
  rcases hkey with htype | hproperties
  · split at htype
    next hnone =>
      cases List.mem_singleton.1 htype
      exact not_mem_keys_of_lookup h (by decide) (Option.isNone_iff_eq_none.1 hnone)
    next => cases htype
  · split at hproperties
    next hnone =>
      cases List.mem_singleton.1 hproperties
      rw [Bool.and_eq_true, Option.isNone_iff_eq_none] at hnone
      exact not_mem_keys_of_lookup h (by decide) hnone.2
    next => cases hproperties

end Dialect

/-! ## Two translations of parameters -/

/-- The fields that parameters have in the dialect, against the JSON Schema that they are completed
to. -/
structure Short (parameters schema : Value) (out : Fields) : Prop where
  complete : jsonSchema parameters = .ok schema
  dialect : geminiSchema parameters = .ok (.dict out)
  /-- The schema has the defaults in the dialect as well. -/
  completed : geminiSchema schema = .ok (.dict (out ++ leftOut "OBJECT" parameters))
  missing : ∀ key ∈ (leftOut "OBJECT" parameters).map Prod.fst, key ∉ out.map Prod.fst
  same : geminiSchema schema = .ok (.dict out) ↔ Whole parameters

/-- Parameters that say nothing are completed and translated as a whole. -/
theorem short_of_blank {parameters : Value} (h : parameters.truthy = false) :
    Short parameters emptySchema [("type", .str "OBJECT"), ("properties", .dict [])] := by
  have hschema : jsonSchema parameters = .ok emptySchema := by
    rw [jsonSchema, if_neg (by simp [h])]
  have hnothing : leftOut "OBJECT" parameters = [] := by
    cases parameters with
    | dict fields =>
      cases fields with
      | nil => rfl
      | cons first rest => cases h
    | _ => rfl
  have htranslated : geminiSchema emptySchema = .ok anyObject := rfl
  exact
    { complete := hschema
      dialect := geminiSchema_blank h
      completed := by
        rw [hnothing, List.append_nil]
        exact htranslated
      missing := by simp [hnothing]
      same := iff_of_true htranslated (.inl h) }

/-- Parameters that say something are translated with what they say, and no more. -/
theorem short_of_fields {fields out : Fields} (hne : fields ≠ [])
    (h : geminiFields [] fields = .ok out) :
    Short (.dict fields) (.dict (completeRoot fields)) out := by
  have hsome : (Value.dict fields).truthy = true := by
    simpa [Value.truthy] using hne
  have hleft : leftOut "OBJECT" (.dict fields) = omitted "OBJECT" fields := by
    cases fields with
    | nil => exact absurd rfl hne
    | cons first rest => rfl
  have hroot : completeRoot fields ≠ [] := by
    simp [completeRoot_eq, hne]
  have hcompleted : geminiSchema (.dict (completeRoot fields)) =
      .ok (.dict (out ++ omitted "OBJECT" fields)) := by
    rw [geminiSchema_dict hroot, Outcome.bind_of_ok (geminiFields_completeRoot h)]
    rfl
  exact
    { complete := by
        rw [jsonSchema, if_pos hsome]
        rfl
      dialect := by
        rw [geminiSchema_dict hne, Outcome.bind_of_ok h]
        rfl
      completed := by rw [hleft, hcompleted]
      missing := by
        rw [hleft]
        exact fun key hkey => not_mem_keys_of_omitted h hkey
      same := by
        have hwhole : Whole (.dict fields) ↔ Complete fields := by
          simp [Whole, hsome]
        rw [hwhole, hcompleted, ← omitted_eq_nil_iff "OBJECT" fields]
        simp }

/-- What is translated has a short form, for either kind of vendor. -/
theorem exists_short {parameters dialect : Value} (h : Translated parameters dialect) :
    ∃ schema out, Short parameters schema out := by
  rcases translated_cases h with ⟨hblank, -⟩ | ⟨fields, out, rfl, hne, hfields, -⟩
  · exact ⟨_, _, short_of_blank hblank⟩
  · exact ⟨_, _, short_of_fields hne hfields⟩

/-! ## What vendors are told -/

/-- A tool as the three vendors are told of it. -/
structure Declared where
  openAI : Value
  anthropic : Value
  google : Value

/-- Two vendors are told the JSON Schema of a tool's parameters, the third the parameters in its
dialect. -/
inductive Told (tool : ToolSchema) : Declared → Prop where
  | told {schema : Value} {out : Fields} (short : Short tool.parameters schema out) :
      Told tool {
        openAI := .dict [("type", .str "function"),
          ("function", .dict [("name", tool.name), ("description", tool.description),
            ("parameters", schema)])]
        anthropic := .dict [("name", tool.name), ("description", tool.description),
          ("input_schema", schema)]
        google := .dict [("name", tool.name), ("description", tool.description),
          ("parameters", .dict out)] }

section Declare

variable {tool : ToolSchema} {declared : Declared}

/-- A tool that is told is declared to the first vendor. -/
theorem Told.openAI (h : Told tool declared) : OpenAI.declare tool = .ok declared.openAI := by
  cases h with
  | told short =>
    rw [OpenAI.declare, Outcome.bind_of_ok short.complete]
    rfl

theorem Told.anthropic (h : Told tool declared) :
    Anthropic.declare tool = .ok declared.anthropic := by
  cases h with
  | told short =>
    rw [Anthropic.declare, Outcome.bind_of_ok short.complete]
    rfl

theorem Told.google (h : Told tool declared) : Google.declare tool = .ok declared.google := by
  cases h with
  | told short =>
    rw [Google.declare, Outcome.bind_of_ok short.dialect]
    rfl

/-- A declaration of each tool makes the declarations of all. -/
theorem mapM_of_told {tools : List ToolSchema} {all : List Declared}
    {declare : ToolSchema → Outcome Value} {part : Declared → Value}
    (h : List.Forall₂ Told tools all)
    (hdeclare : ∀ {tool declared}, Told tool declared → declare tool = .ok (part declared)) :
    tools.mapM declare = .ok (all.map part) := by
  rw [Outcome.mapM_eq_ok_iff, List.forall₂_map_right_iff]
  exact h.imp fun _ _ => hdeclare

end Declare

/-- Of every tool that can be read and whose parameters have a translation, two vendors are told the
same JSON Schema. Gemini is told the translation of that schema less the defaults which the
parameters leave out at their root, so it is told the same exactly if they leave none out. -/
theorem told_of_tools {raws : List Value} {tools : List ToolSchema} (label : Value) (tag : String)
    (hread : raws.mapM ToolSchema.ofValue = .ok tools) (hsome : tools ≠ [])
    (hdialect : ∀ tool ∈ tools, ∃ dialect, geminiSchema tool.parameters = .ok dialect) :
    ∃ all : List Declared,
      Payload.toolsOf (.openAI label) (.list raws) = .ok (.list (all.map Declared.openAI)) ∧
      Payload.toolsOf .anthropic (.list raws) = .ok (.list (all.map Declared.anthropic)) ∧
      Payload.toolsOf (.google tag) (.list raws) =
        .ok (.list [.dict [("function_declarations", .list (all.map Declared.google))]]) ∧
      List.Forall₂ Told tools all := by
  have htold : ∀ tool ∈ tools, ∃ declared, Told tool declared := by
    intro tool htool
    rcases hdialect tool htool with ⟨dialect, hdialect⟩
    rcases exists_short hdialect with ⟨schema, out, hshort⟩
    exact ⟨_, .told hshort⟩
  rcases exists_forall₂ htold with ⟨all, hall⟩
  have hdeclared (vendor : Vendor) :
      Payload.toolsOf vendor (.list raws) = Payload.declareAll vendor tools := by
    rw [Payload.toolsOf_of_read hread, if_neg (by simpa using hsome)]
  refine ⟨all, ?_, ?_, ?_, hall⟩
  · rw [hdeclared, Payload.declareAll, OpenAI.declareAll,
      Outcome.bind_of_ok (mapM_of_told hall Told.openAI)]
    rfl
  · rw [hdeclared, Payload.declareAll, Anthropic.declareAll,
      Outcome.bind_of_ok (mapM_of_told hall Told.anthropic)]
    rfl
  · rw [hdeclared, Payload.declareAll, Google.declareAll,
      Outcome.bind_of_ok (mapM_of_told hall Told.google)]
    rfl

/-- The time in a zone, by parameters that only name what there is to say. -/
def zoneTool : ToolSchema where
  name := .str "time"
  parameters := .dict [("properties", .dict [("zone", .dict [("type", .str "string")])])]

/-- What to say, or to say nothing, by parameters that are no object. -/
def sayTool : ToolSchema where
  name := .str "say"
  parameters := .dict [("type", .list [.str "string", .str "null"])]

/-- Tools with parameters that leave nothing out, that leave out the type, that say nothing, that
say nothing which the dialect has a word for, and that describe no object. -/
def zoneTools : List ToolSchema :=
  [⟨.str "sum", .str "Adds up.", .dict [("type", .str "object"), ("properties", .dict [])]⟩,
    zoneTool, { name := .str "ping" },
    { name := .str "stop", parameters := .dict [("additionalProperties", .bool false)] }, sayTool]

/-- The same tools in the forms in which they can be given. -/
def rawZoneTools : List Value :=
  [.dict [("name", .str "sum"), ("description", .str "Adds up."),
      ("parameters", .dict [("type", .str "object"), ("properties", .dict [])])],
    .dict [("type", .str "function"), ("function", .dict [("name", .str "time"),
      ("parameters", .dict [("properties", .dict [("zone", .dict [("type", .str "string")])])])])],
    .dict [("name", .str "ping"), ("parameters", .null)],
    .dict [("name", .str "stop"), ("parameters", .dict [("additionalProperties", .bool false)])],
    sayTool.toValue]

/-- Tools that leave out the type, the properties, both or neither are told. -/
theorem told_of_tools_zones :
    rawZoneTools.mapM ToolSchema.ofValue = .ok zoneTools ∧ zoneTools ≠ [] ∧
      (∀ tool ∈ zoneTools, ∃ dialect, geminiSchema tool.parameters = .ok dialect) ∧
      ∃ all : List Declared,
        Payload.toolsOf (.openAI (.str "openai")) (.list rawZoneTools) =
          .ok (.list (all.map Declared.openAI)) ∧
        Payload.toolsOf (.google "tag") (.list rawZoneTools) =
          .ok (.list [.dict [("function_declarations", .list (all.map Declared.google))]]) ∧
        List.Forall₂ Told zoneTools all := by
  have hread : rawZoneTools.mapM ToolSchema.ofValue = .ok zoneTools := rfl
  have hsome : zoneTools ≠ [] := by
    rintro ⟨⟩
  have hdialect : ∀ tool ∈ zoneTools, ∃ dialect, geminiSchema tool.parameters = .ok dialect := by
    have hall : zoneTools.all (fun tool => (geminiSchema tool.parameters).isOk) = true := by
      decide +kernel
    exact fun tool htool => Outcome.of_isOk (List.all_eq_true.1 hall tool htool)
  rcases told_of_tools (.str "openai") "tag" hread hsome hdialect with
    ⟨all, hopenAI, -, hgoogle, htold⟩
  exact ⟨hread, hsome, hdialect, all, hopenAI, hgoogle, htold⟩

/-- Two vendors are told that the parameters describe an object, and the third is not. -/
theorem differs_of_untyped :
    ∃ schema dialect translated,
      OpenAI.declare zoneTool = .ok (.dict [("type", .str "function"),
        ("function", .dict [("name", .str "time"), ("description", .str ""),
          ("parameters", schema)])]) ∧
      Anthropic.declare zoneTool = .ok (.dict [("name", .str "time"), ("description", .str ""),
        ("input_schema", schema)]) ∧
      Google.declare zoneTool = .ok (.dict [("name", .str "time"), ("description", .str ""),
        ("parameters", dialect)]) ∧
      geminiSchema schema = .ok translated ∧ translated.read "type" = .str "OBJECT" ∧
      dialect.read "type" = .null ∧ dialect ≠ translated := by
  refine ⟨_, _, _, rfl, rfl, rfl, rfl, rfl, rfl, ?_⟩
  rintro ⟨⟩

end Tool

end Parley
