import Agentry.Registry
/-!
# The gallery

Three agents are built in, each bound to its slug with the behavior that every artifact has: to say
who it is and what it was given.
-/
namespace Agentry.Gallery

open Json (Value)

/-- What an artifact does unless someone changes it. -/
def introduce : Behavior σ := fun _ context input world =>
  (.returned (.object [("agent", .string context.spec.name), ("input", input.toJson)]), [], world)

def schemaOf (fields : List (String × FieldSpec)) : Schema := ⟨fields⟩

def stockBot : AgentSpec where
  name := "Stock Bot"
  description := "Looks up stock quotes"
  version := "1.0.0"
  prompt := "You are a stock assistant.\nAnswer with the latest quote."
  tools := [⟨"stock_quote", "Stock Quote", "finance"⟩]
  inputs := schemaOf [("query", ⟨.string, true, "q"⟩), ("limit", ⟨.number, false, "max results"⟩)]
  outputs := schemaOf [("result", ⟨.string, true, "r"⟩)]

/-- Every text of this agent holds something that means something else in an artifact. -/
def hostilePrompt : AgentSpec where
  name := "Hostile Prompt"
  description := "Says \"hi\" \\ and \x7bbraces\x7d"
  version := "0.3.0-rc.1"
  prompt := "You are \"# careful.\nNever emit \"### fences.\nname: \"Impostor\"\n" ++
    "tools: r#\"[]\"#\ninput_schema: \x7b\n\x7d\x7d\x7d ]] unbalanced\n"
  tools :=
    [⟨"#channel", "Format [bracket] tool", "text\x7d"⟩, ⟨"fetch", "\"#quoted", "net"⟩]
  inputs := schemaOf
    [("template", ⟨.string, true, "use \x7bcurly\x7d braces \x7d \x7b"⟩),
     ("tag", ⟨.string, false, "#hashtag"⟩), ("items", ⟨.array, false, "[a, b]"⟩)]
  outputs := schemaOf
    [("page", ⟨.string, false, "form\x0cfeed"⟩),
     ("meta", ⟨.object, false, "\x7b\"k\": 1\x7d"⟩)]

/-- A number below one hundred in two digits. -/
def twoDigits (n : Nat) : String :=
  String.ofList [Char.ofNat (48 + n / 10), Char.ofNat (48 + n % 10)]

def wideForm : AgentSpec where
  name := "Wide Form"
  description := "Sixty-four inputs and outputs"
  version := "1.0.0"
  prompt := "Fill in the form."
  tools := []
  inputs := schemaOf ((List.range 64).map fun n =>
    ("field_" ++ twoDigits n, ⟨.string, n % 2 = 0, "use \x7bcurly\x7d braces"⟩))
  outputs := schemaOf ((List.range 64).map fun n => ("out_" ++ twoDigits n, ⟨.number, false, ""⟩))

def specs : List AgentSpec := [hostilePrompt, stockBot, wideForm]

def find? (slug : String) : Option AgentSpec :=
  specs.find? fun spec => slugify spec.name = slug

def agent (spec : AgentSpec) : RegisteredAgent σ := ⟨spec, introduce⟩

end Agentry.Gallery
