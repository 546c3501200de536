import Agentry.Json.Decoder
import Agentry.Json.Printer
import Agentry.Spec.Basic
/-!
# Specs in JSON

A spec is an object of seven members. Of a spec only the name is required, of a tool only the id, of
a field only the type; a schema is an object whose members are its fields, and a name that comes
again is a fault of its own, found once the field itself has been decoded.
-/
namespace Agentry

open Json (Value Decoder DecodeError Node)

namespace FieldType

def toJson (type : FieldType) : Value := .string type.name

def decoder : Decoder FieldType :=
  fun depth node => (Decoder.text depth node).map ofName

end FieldType

namespace FieldSpec

def toJson (field : FieldSpec) : Value :=
  .object [("type", field.type.toJson), ("required", .bool field.required),
    ("description", .string field.description)]

structure Draft where
  type : Option FieldType
  required : Option Bool
  description : Option String

def draftFields : List (Decoder.Field Draft) :=
  [Decoder.field "type" false FieldType.decoder (·.type) fun d x => { d with type := some x },
   Decoder.field "required" true Decoder.bool (·.required) fun d x => { d with required := some x },
   Decoder.field "description" true Decoder.text (·.description)
     fun d x => { d with description := some x }]

def Draft.finish (d : Draft) : Option FieldSpec :=
  d.type.map fun type => ⟨type, d.required.getD false, d.description.getD ""⟩

def decoder : Decoder FieldSpec :=
  Decoder.record draftFields ⟨none, none, none⟩ Draft.finish

end FieldSpec

namespace Schema

def toJson (schema : Schema) : Value :=
  .object (schema.fields.map fun (name, field) => (name, field.toJson))

def decodeMembers (depth : Nat) :
    List (Option String × Node) → Schema → Except DecodeError Schema
  | [], schema => .ok schema
  | (none, _) :: _, _ => .error .malformed
  | (some name, node) :: rest, schema => do
    let field ← FieldSpec.decoder depth node
    if schema.contains name then .error (.duplicateField name)
    else decodeMembers depth rest (schema.push name field)

def decoder : Decoder Schema
  | depth + 1, .object members => decodeMembers depth members .empty
  | _, _ => .error .malformed

end Schema

namespace Tool

def toJson (tool : Tool) : Value :=
  .object [("id", .string tool.id), ("displayName", .string tool.displayName),
    ("category", .string tool.category)]

structure Draft where
  id : Option String
  displayName : Option String
  category : Option String

def draftFields : List (Decoder.Field Draft) :=
  [Decoder.field "id" false Decoder.text (·.id) fun d x => { d with id := some x },
   Decoder.field "displayName" true Decoder.text (·.displayName)
     fun d x => { d with displayName := some x },
   Decoder.field "category" true Decoder.text (·.category) fun d x => { d with category := some x }]

def Draft.finish (d : Draft) : Option Tool :=
  d.id.map fun id => ⟨id, d.displayName.getD "", d.category.getD ""⟩

def decoder : Decoder Tool :=
  Decoder.record draftFields ⟨none, none, none⟩ Draft.finish

def listToJson (tools : List Tool) : Value := .array (tools.map toJson)

end Tool

namespace AgentSpec

def toJson (spec : AgentSpec) : Value :=
  .object [("name", .string spec.name), ("description", .string spec.description),
    ("version", .string spec.version), ("systemPrompt", .string spec.prompt),
    ("tools", Tool.listToJson spec.tools), ("inputSchema", spec.inputs.toJson),
    ("outputSchema", spec.outputs.toJson)]

structure Draft where
  name : Option String
  description : Option String
  version : Option String
  prompt : Option String
  tools : Option (List Tool)
  inputs : Option Schema
  outputs : Option Schema

def draftFields : List (Decoder.Field Draft) :=
  [Decoder.field "name" false Decoder.text (·.name) fun d x => { d with name := some x },
   Decoder.field "description" true Decoder.text (·.description)
     fun d x => { d with description := some x },
   Decoder.field "version" true Decoder.text (·.version) fun d x => { d with version := some x },
   Decoder.field "systemPrompt" true Decoder.text (·.prompt) fun d x => { d with prompt := some x },
   Decoder.field "tools" true (Decoder.list Tool.decoder) (·.tools)
     fun d x => { d with tools := some x },
   Decoder.field "inputSchema" true Schema.decoder (·.inputs)
       fun d x => { d with inputs := some x },
   Decoder.field "outputSchema" true Schema.decoder (·.outputs)
     fun d x => { d with outputs := some x }]

def Draft.finish (d : Draft) : Option AgentSpec :=
  d.name.map fun name =>
    ⟨name, d.description.getD "", d.version.getD "", d.prompt.getD "", d.tools.getD [],
      d.inputs.getD .empty, d.outputs.getD .empty⟩

def decoder : Decoder AgentSpec :=
  Decoder.record draftFields ⟨none, none, none, none, none, none, none⟩ Draft.finish

end AgentSpec
end Agentry
