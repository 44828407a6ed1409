import Rootmode.Lib.Pointer
import Rootmode.Lib.Search
import Mathlib.Data.List.DropRight

namespace Rootmode.Worker.UiFormat

open Lib Lib.Text Lib.Entries

/-- What the editor saves after a seed widget: its control for the next time. -/
def afterGenerate : List Text := ["fixed", "increment", "decrement", "randomize"].map ofString

/-- Nodes the editor draws but the backend does not run. -/
def passthrough : List Text := ["Reroute", "PrimitiveNode", "Note"].map ofString

def loaders : List (String × String) :=
  [("CheckpointLoaderSimple", "ckpt_name"), ("CheckpointLoader", "ckpt_name"), ("UNETLoader", "unet_name"),
    ("UnetLoaderGGUF", "unet_name")]

structure Converted where
  graph : Json
  model : Option Text
  slots : List (String × Text)

section Widgets

/-- The catalogue's entry for one input. -/
def requiredSpec (nodeSpec : Json) (input : Text) : Option Json :=
  (nodeSpec.pointer (ofString "/input/required/" ++ input)).or
    (nodeSpec.pointer (ofString "/input/optional/" ++ input))

/-- Whether a text is one of the options of an input. -/
def accepts (expected : Option Json) (value : Text) : Bool :=
  match (expected.bind Json.asArray).bind List.head? with
  | none => false
  | some spec => (spec.asArray.getD []).any fun | .str s => s == value | _ => false

/-- The editor's extras, which no input takes. -/
def skips (expected : Option Json) (candidate : Json) : Bool :=
  match candidate with
  | .str s => afterGenerate.contains s && !accepts expected s
  | _ => false

/-- The next saved value for a widget and what is saved after it. -/
def nextWidget (expected : Option Json) : List Json → Option (Json × List Json)
  | [] => none
  | candidate :: values => if skips expected candidate then nextWidget expected values else some (candidate, values)

end Widgets

section Nodes

/-- An input as the editor saved it. -/
structure Input where
  name : Text
  link : Option ℤ
  widget : Bool
  deriving DecidableEq

/-- An input without a name is none. -/
def inputOf (input : Json) : Option Input := do
  let name ← (← input.get "name").asText
  return ⟨name, (input.get "link").bind Json.asI64, (input.get "widget").isSome⟩

def inputsOf (node : Json) : List Input := (((node.get "inputs").bind Json.asArray).getD []).filterMap inputOf

def widgetsValues (node : Json) : List Json := ((node.get "widgets_values").bind Json.asArray).getD []

/-- A link by its number: the node it comes from, and which of its outputs. -/
def linkOf (link : Json) : Option (ℤ × Text × ℤ) := do
  let fields ← link.asArray
  let id ← (fields[0]?).bind Json.asI64
  let origin ← (fields[1]?).bind Json.asI64
  let slot ← (fields[2]?).bind Json.asI64
  return (id, (toString origin).toList, slot)

def linksOf (ui : Json) : List (ℤ × Text × ℤ) :=
  putAll ((((ui.get "links").bind Json.asArray).getD []).filterMap linkOf) []

def reference (origin : Text × ℤ) : Json := .arr [.str origin.1, .num (.int origin.2)]

variable (P : Json.Printer)

def nodeId (node : Json) : Option Text :=
  (node.get "id").map fun id => ((id.render P).dropWhile (· = '"')).rdropWhile (· = '"')

/-- Muted and bypassed nodes, which only the editor can resolve. -/
def skipped (nodes : List Json) : List Text :=
  (nodes.filter fun node => ((node.get "mode").bind Json.asI64).any fun mode => mode = 2 ∨ mode = 4).map fun node =>
    ((node.get "id").map (Json.render P)).getD []

section Inputs

variable (links : List (ℤ × Text × ℤ)) (spec : Json) (id type : Text)

/-- The inputs of a node in their order, with what is saved for them not yet taken. -/
def fill : List Input → List Json → List (String × Json) → Except Text (List (String × Json))
  | [], _, inputs => .ok inputs
  | input :: rest, values, inputs =>
    match input.link with
    | some link =>
      match lookup link links with
      | none => .error (ofString "node " ++ id ++ ofString " input '" ++ input.name ++ ofString "' has a dangling link")
      | some origin => fill rest values (put (Text.str input.name) (reference origin) inputs)
    | none =>
      if !input.widget then fill rest values inputs
      else
        match nextWidget (requiredSpec spec input.name) values with
        | none => .error (ofString "node " ++ id ++ ofString " (" ++ type ++ ofString ") has no saved value for '" ++
            input.name ++ ofString "'")
        | some (value, values) =>
          -- what this server does not declare still has its place among the values
          if (requiredSpec spec input.name).isNone then fill rest values inputs
          else fill rest values (put (Text.str input.name) value inputs)

end Inputs

/-- A node by its id, as it can be run. -/
def nodeOf (objectInfo : Json) (links : List (ℤ × Text × ℤ)) (node : Json) : Except Text (Text × Json) := do
  let some id := nodeId P node | .error (ofString "a node has no id")
  let some type := (node.get "type").bind Json.asText | .error (ofString "node " ++ id ++ ofString " has no type")
  if passthrough.contains type then
    .error (ofString "workflow uses " ++ type ++ ofString ", which the editor resolves rather than the server")
  else
    let some spec := objectInfo.get (Text.str type)
      | .error (ofString "this ComfyUI does not have the node " ++ type ++ ofString " that the workflow uses")
    let inputs ← fill links spec id type (inputsOf node) (widgetsValues node) []
    return (id, .obj [("class_type", .str type), ("inputs", .obj inputs)])

def graphFrom (objectInfo : Json) (links : List (ℤ × Text × ℤ)) :
    List Json → List (String × Json) → Except Text (List (String × Json))
  | [], graph => .ok graph
  | node :: nodes, graph =>
    match nodeOf P objectInfo links node with
    | .error e => .error e
    | .ok (id, n) => graphFrom objectInfo links nodes (put (Text.str id) n graph)

end Nodes

section Reading

def classOf (node : Json) : Option Text := (node.get "class_type").bind Json.asText

def inputAt (node : Json) (field : String) : Option Json := (node.get "inputs").bind (Json.get · field)

/-- The model that a graph loads, from whichever loader it uses. -/
def modelOf (nodes : List (String × Json)) : Option Text :=
  loaders.findSome? fun (type, field) => nodes.findSome? fun (_, node) =>
    if classOf node = some (ofString type) then (inputAt node field).bind Json.asText else none

def isSampler (node : Json) : Bool :=
  (classOf node).any fun type =>
    Search.contains (ofString "KSampler") type || Search.contains (ofString "SamplerCustom") type

/-- The node whose output goes in at a place. -/
def sourceOf (node : Json) (field : String) : Option Text :=
  (((inputAt node field).bind Json.asArray).bind List.head?).bind Json.asText

/-- Where the prompt and the seed of a graph are. -/
def slotsOf (nodes : List (String × Json)) : List (String × Text) :=
  let slot (id : Text) (field : String) : Text := id ++ ofString ".inputs." ++ ofString field
  let slots := match nodes.find? fun (_, node) => isSampler node with
    | none => []
    | some (id, sampler) =>
      let seed := (["seed", "noise_seed"].find? fun field => (inputAt sampler field).isSome).map fun field =>
        ("seed", slot id.toList field)
      let prompt := (sourceOf sampler "positive").bind fun source =>
        if ((lookup (Text.str source) nodes).bind fun node => inputAt node "text").isSome then
          some ("prompt", slot source "text")
        else none
      prompt.toList ++ seed.toList
  if (lookup "prompt" slots).isSome then slots
  else
    -- any single text is better than refusing, but two are ambiguous
    match nodes.filter fun (_, node) => ((inputAt node "text").bind Json.asText).isSome with
    | [(id, _)] => put "prompt" (slot id.toList "text") slots
    | _ => slots

end Reading

/-- A workflow saved in the editor as one that the server runs. `objectInfo` is the server's catalogue of nodes. -/
def convert (P : Json.Printer) (ui objectInfo : Json) : Except Text Converted := do
  let some nodes := (ui.get "nodes").bind Json.asArray | .error (ofString "not a saved workflow: no nodes")
  if skipped P nodes ≠ [] then
    .error (ofString "workflow has muted or bypassed nodes (" ++ (ofString ", ").intercalate (skipped P nodes) ++
      ofString "), which only the editor knows how to resolve")
  else
    let graph ← graphFrom P objectInfo (linksOf ui) nodes []
    let slots := slotsOf graph
    if (lookup "prompt" slots).isNone then
      .error (ofString "workflow has no text prompt this worker could fill")
    else return ⟨.obj graph, modelOf graph, slots⟩

end Rootmode.Worker.UiFormat
