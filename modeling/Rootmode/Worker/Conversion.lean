import Rootmode.Worker.Aligned

namespace Rootmode.Worker.UiFormat

open Lib Lib.Text Lib.Entries

section Graphs

variable {P : Json.Printer} {objectInfo node n : Json} {links : List (ℤ × Text × ℤ)} {nodes : List Json} {id : Text}
  {graph final : List (String × Json)} {k : String}

def typeOf (node : Json) : Option Text := (node.get "type").bind Json.asText

/-- What a node becomes: its id, and its inputs filled in. -/
theorem nodeOf_ok (h : nodeOf P objectInfo links node = .ok (id, n)) :
    nodeId P node = some id ∧ ∃ type spec inputs, typeOf node = some type ∧ objectInfo.get (Text.str type) = some spec ∧
      fill links spec id type (inputsOf node) (widgetsValues node) [] = .ok inputs ∧
      n = .obj [("class_type", .str type), ("inputs", .obj inputs)] := by
  unfold nodeOf at h
  cases hid : nodeId P node with
  | none =>
    rw [hid] at h
    cases h
  | some id' =>
    rw [hid] at h
    cases htype : (node.get "type").bind Json.asText with
    | none =>
      rw [htype] at h
      cases h
    | some type =>
      rw [htype] at h
      dsimp only at h
      split at h
      · cases h
      · cases hspec : objectInfo.get (Text.str type) with
        | none =>
          rw [hspec] at h
          cases h
        | some spec =>
          rw [hspec] at h
          dsimp only at h
          cases hfill : fill links spec id' type (inputsOf node) (widgetsValues node) [] with
          | error e =>
            rw [hfill] at h
            cases h
          | ok inputs =>
            rw [hfill] at h
            cases h
            exact ⟨rfl, type, spec, inputs, htype, hspec, hfill, rfl⟩

theorem graphFrom_cons (h : graphFrom P objectInfo links (node :: nodes) graph = .ok final) :
    ∃ id n, nodeOf P objectInfo links node = .ok (id, n) ∧
      graphFrom P objectInfo links nodes (put (Text.str id) n graph) = .ok final := by
  rw [graphFrom] at h
  cases hnode : nodeOf P objectInfo links node with
  | error e =>
    rw [hnode] at h
    cases h
  | ok m =>
    rw [hnode] at h
    exact ⟨m.1, m.2, rfl, h⟩

theorem lookup_graphFrom (h : graphFrom P objectInfo links nodes graph = .ok final)
    (hk : ∀ node ∈ nodes, ∀ id ∈ nodeId P node, Text.str id ≠ k) : lookup k final = lookup k graph := by
  induction nodes generalizing graph with
  | nil =>
    cases h
    rfl
  | cons node nodes ih =>
    obtain ⟨id, n, hnode, hrest⟩ := graphFrom_cons h
    have hid := (nodeOf_ok hnode).1
    rw [ih hrest fun node hn => hk node (.tail _ hn), lookup_put, if_neg (hk node (.head _) id hid)]

/-- Every node is in the result under its id, where the ids differ. -/
theorem graphFrom_node (h : graphFrom P objectInfo links nodes graph = .ok final)
    (hids : (nodes.map (nodeId P)).Nodup) (hnode : node ∈ nodes) :
    ∃ id n, nodeOf P objectInfo links node = .ok (id, n) ∧ lookup (Text.str id) final = some n := by
  induction nodes generalizing graph with
  | nil => cases hnode
  | cons other nodes ih =>
    obtain ⟨id, n, hother, hrest⟩ := graphFrom_cons h
    obtain ⟨hfresh, hrestIds⟩ := List.nodup_cons.mp hids
    rcases List.mem_cons.mp hnode with rfl | hin
    · refine ⟨id, n, hother, ?_⟩
      rw [lookup_graphFrom hrest, lookup_put, if_pos rfl]
      intro later hlater id' hid' heq
      have hsame : nodeId P later = nodeId P node := by
        rw [(nodeOf_ok hother).1, Option.mem_def.mp hid', str_injective heq]
      exact hfresh (hsame ▸ List.mem_map_of_mem hlater)
    · exact ih hrest hrestIds hin

/-- Nothing else is. -/
theorem lookup_graphFrom_isSome (h : graphFrom P objectInfo links nodes [] = .ok final) (hk : (lookup k final).isSome) :
    ∃ node ∈ nodes, ∃ id, nodeId P node = some id ∧ Text.str id = k := by
  by_contra hnone
  push Not at hnone
  rw [lookup_graphFrom h fun node hn id hid => hnone node hn id hid, lookup_nil] at hk
  cases hk

end Graphs

section Law

variable (P : Json.Printer) (seed : Text → Text → Bool) (ui objectInfo : Json)

def nodesOf : List Json := ((ui.get "nodes").bind Json.asArray).getD []

/-- A graph as the editor saves it: every node has an id of its own, and in a node every input a name of its own. -/
structure IsGraph : Prop where
  ids : ((nodesOf ui).map (nodeId P)).Nodup
  names : ∀ node ∈ nodesOf ui, ((inputsOf node).map Input.name).Nodup

/-- Whether the server declares an input. -/
def declares (spec : Json) (name : Text) : Bool :=
  (Json.reach ["input", "required", Text.str name] spec).isSome ||
    (Json.reach ["input", "optional", Text.str name] spec).isSome

/-- What is saved in a graph for a node of which the server has the catalogue entry. -/
structure SavedIn (node : Json) (type : Text) (spec : Json) (ss : List Saved) : Prop where
  mem : node ∈ nodesOf ui
  named : typeOf node = some type
  known : objectInfo.get (Text.str type) = some spec
  saved : IsSaved (seed type) node ss

/-- What an input of a node has in a graph that can be run. -/
def valueIn (graph node : Json) (name : Text) : Option Json :=
  (nodeId P node).bind fun id => (graph.get (Text.str id)).bind fun n => inputAt n (Text.str name)

/-- Every widget without a link that the server declares has the value saved for it, and every link names a node of the
graph. -/
structure Keeps (graph : Json) : Prop where
  values : ∀ {node type spec ss}, SavedIn seed ui objectInfo node type spec ss → ∀ s ∈ ss, s.input.link = none →
    declares spec s.input.name = true → valueIn P graph node s.input.name = some s.value
  links : ∀ node ∈ nodesOf ui, ∀ input ∈ inputsOf node, input.link.isSome →
    ∃ origin, valueIn P graph node input.name = some (reference origin) ∧ (graph.get (Text.str origin.1)).isSome

/-- And every widget without a link is given the value in its own place. -/
structure Aligned (graph : Json) : Prop extends Keeps P seed ui objectInfo graph where
  places : ∀ {node type spec ss}, SavedIn seed ui objectInfo node type spec ss → InPlace spec ss

/-- What a saved graph has to be for that. -/
structure Fits : Prop where
  /-- A declared input is found under its name, read as part of a JSON pointer. -/
  found : ∀ {node type spec ss}, SavedIn seed ui objectInfo node type spec ss → ∀ s ∈ ss, s.input.link = none →
    declares spec s.input.name = true → (requiredSpec spec s.input.name).isSome
  steps : ∀ {node type spec ss}, SavedIn seed ui objectInfo node type spec ss → InStep spec ss
  /-- A link that is used comes from a node of the graph. -/
  origins : ∀ node ∈ nodesOf ui, ∀ input ∈ inputsOf node, ∀ l ∈ input.link, ∀ origin ∈ lookup l (linksOf ui),
    ∃ from' ∈ nodesOf ui, nodeId P from' = some origin.1

variable {P seed ui objectInfo} {out : Converted} {node spec : Json} {type : Text} {ss : List Saved} {s : Saved}

theorem convert_ok (h : convert P ui objectInfo = .ok out) :
    ∃ graph, out.graph = .obj graph ∧ graphFrom P objectInfo (linksOf ui) (nodesOf ui) [] = .ok graph := by
  unfold convert at h
  cases hnodes : (ui.get "nodes").bind Json.asArray with
  | none =>
    rw [hnodes] at h
    cases h
  | some nodes =>
    rw [hnodes] at h
    dsimp only at h
    split at h
    · cases h
    · cases hgraph : graphFrom P objectInfo (linksOf ui) nodes [] with
      | error e =>
        rw [hgraph] at h
        cases h
      | ok graph =>
        rw [hgraph] at h
        dsimp only [bind, Except.bind] at h
        split at h
        · cases h
        · cases h
          exact ⟨graph, rfl, by rw [nodesOf, hnodes]; exact hgraph⟩

theorem IsSaved.isWidget (h : IsSaved (seed type) node ss) (hs : s ∈ ss) : s.input.widget = true := by
  have hmem : s.input ∈ (inputsOf node).filter Input.widget := h.widgets ▸ List.mem_map_of_mem hs
  exact (List.mem_filter.mp hmem).2

section Ok

variable (hgraph : IsGraph P ui) (h : convert P ui objectInfo = .ok out)

include hgraph h

/-- What a node of a converted graph has under an input's name is what the conversion filled in there. -/
theorem valueIn_node (hnode : node ∈ nodesOf ui) : ∃ id type spec inputs,
    typeOf node = some type ∧ objectInfo.get (Text.str type) = some spec ∧
      fill (linksOf ui) spec id type (inputsOf node) (widgetsValues node) [] = .ok inputs ∧
      ∀ name, valueIn P out.graph node name = lookup (Text.str name) inputs := by
  obtain ⟨graph, hout, hfrom⟩ := convert_ok h
  obtain ⟨id, n, hn, hlookup⟩ := graphFrom_node hfrom hgraph.ids hnode
  obtain ⟨hid, type, spec, inputs, htype, hspec, hfill, rfl⟩ := nodeOf_ok hn
  refine ⟨id, type, spec, inputs, htype, hspec, hfill, fun name => ?_⟩
  rw [valueIn, hid, Option.bind_some, hout, Json.get_obj, hlookup]
  rfl

/-- A link of the result is what a link of the saved graph comes from. -/
theorem valueIn_link {input : Input} (hnode : node ∈ nodesOf ui) (hinput : input ∈ inputsOf node)
    (hlink : input.link.isSome) : ∃ l origin, input.link = some l ∧ lookup l (linksOf ui) = some origin ∧
      valueIn P out.graph node input.name = some (reference origin) := by
  obtain ⟨id, type, spec, inputs, -, -, hfill, hvalue⟩ := valueIn_node hgraph h hnode
  have hnames := hgraph.names node hnode
  obtain ⟨before, after, hsplit⟩ := List.append_of_mem hinput
  rw [hsplit] at hfill hnames
  rw [hvalue]
  exact fill_link hnames hfill hlink

/-- A widget without a link has what it takes. -/
theorem valueIn_widget (hsaved : SavedIn seed ui objectInfo node type spec ss) {before after : List Saved}
    (hsplit : ss = before ++ s :: after) (hlink : s.input.link = none) :
    ∃ value rest, ((left spec (before.map Saved.input) (tape ss)).bind
        (nextWidget (requiredSpec spec s.input.name))) = some (value, rest) ∧
      valueIn P out.graph node s.input.name =
        if (requiredSpec spec s.input.name).isNone then none else some value := by
  obtain ⟨id, type', spec', inputs, htype, hspec, hfill, hvalue⟩ := valueIn_node hgraph h hsaved.mem
  obtain rfl : type' = type := Option.some.inj (htype.symm.trans hsaved.named)
  obtain rfl : spec' = spec := Option.some.inj (hspec.symm.trans hsaved.known)
  have hs : s ∈ ss := by simp [hsplit]
  -- the widget's place among all inputs of the node
  have hfilter : (inputsOf node).filter Input.widget = before.map Saved.input ++ s.input :: after.map Saved.input := by
    rw [← hsaved.saved.widgets, hsplit, List.map_append, List.map_cons]
  obtain ⟨first, second, hinputs, hfirst, hsecond⟩ := List.filter_eq_append_iff.mp hfilter
  obtain ⟨skippedInputs, rest, rfl, hskipped, -, -⟩ := List.filter_eq_cons_iff.mp hsecond
  have hnames := hgraph.names node hsaved.mem
  rw [hinputs, ← List.append_assoc] at hfill hnames
  obtain ⟨value, rest', htaken, hlookup⟩ := fill_widget hnames hfill hlink (hsaved.saved.isWidget hs)
  have hleft : left spec' (first ++ skippedInputs) (widgetsValues node) =
      left spec' (before.map Saved.input) (tape ss) := by
    rw [← left_filter, List.filter_append, hfirst, List.filter_eq_nil_iff.mpr hskipped, List.append_nil,
      hsaved.saved.values]
  refine ⟨value, rest', ?_, ?_⟩
  · rw [← hleft]
    exact htaken
  · rw [hvalue]
    exact hlookup

end Ok

end Law

section Cases

theorem follow_of_get {v x : Json} {token : Text} (h : v.get (Text.str token) = some x) : v.follow token = some x := by
  cases v with
  | obj es => exact h
  | null | bool | num | str | arr => cases h

/-- A declared input with no slash and no tilde in its name is found. -/
theorem found_of_plain {spec : Json} {name : Text} (hname : '/' ∉ name ∧ '~' ∉ name)
    (h : declares spec name = true) : (requiredSpec spec name).isSome := by
  have hreach : ∀ {kind : String}, '/' ∉ kind.toList ∧ '~' ∉ kind.toList →
      (Json.reach ["input", kind, Text.str name] spec).isSome →
      (spec.pointer ('/' :: (ofString "input" ++ '/' :: (kind.toList ++ '/' :: name)))).isSome := by
    intro kind hkind hsome
    obtain ⟨z, hz⟩ := Option.isSome_iff_exists.mp hsome
    obtain ⟨x, hx, hrest⟩ := Json.reach_cons.mp hz
    obtain ⟨y, hy, hrest⟩ := Json.reach_cons.mp hrest
    obtain ⟨z', hz', -⟩ := Json.reach_cons.mp hrest
    have hinput : spec.follow (ofString "input") = some x := follow_of_get hx
    have hkind' : x.follow kind.toList = some y := follow_of_get (by rwa [Text.str, String.ofList_toList])
    have hlast : y.follow name = some z' := follow_of_get hz'
    rw [Json.pointer_names (by decide) hkind hname]
    simp only [List.foldlM_cons, List.foldlM_nil, hinput, hkind', hlast, Option.bind_eq_bind, Option.bind_some,
      Option.pure_def, Option.isSome_some]
  have hrequired : ofString "/input/required/" ++ name =
      '/' :: (ofString "input" ++ '/' :: ("required".toList ++ '/' :: name)) := rfl
  have hoptional : ofString "/input/optional/" ++ name =
      '/' :: (ofString "input" ++ '/' :: ("optional".toList ++ '/' :: name)) := rfl
  rw [declares, Bool.or_eq_true] at h
  rw [requiredSpec, hrequired, hoptional, Option.isSome_or, Bool.or_eq_true]
  exact h.imp (hreach (by decide)) (hreach (by decide))

def printer : Json.Printer := ⟨fun _ => [], fun c => [c]⟩

/-- An input that is a widget. -/
def widget (name : String) (link : Json) : Json :=
  .obj [("link", link), ("name", Json.word name), ("widget", .obj [])]

def savedNode (id : ℕ) (type : String) (inputs values : List Json) : Json :=
  .obj [("id", Json.count id), ("inputs", .arr inputs), ("type", Json.word type), ("widgets_values", .arr values)]

def entry (required : List String) : Json :=
  .obj [("input", .obj [("required", .obj (required.map fun name => (name, .arr [])))])]

def textCatalogue : Json :=
  .obj [("CLIPTextEncode", entry ["text"]), ("EmptyLatentImage", entry ["batch_size", "height", "width"]),
    ("PrimitiveInt", entry ["value"])]

def textNode : Json := savedNode 3 "CLIPTextEncode" [widget "text" .null] [Json.word "a cat"]

def latentNode (width : Json) : Json :=
  savedNode 2 "EmptyLatentImage" [widget "width" width, widget "height" .null, widget "batch_size" .null]
    [Json.count 512, Json.count 768, Json.count 1]

/-- The text node alone, and converted. -/
def textUi : Json := .obj [("nodes", .arr [textNode])]

def textGraph : Json :=
  .obj [("3", .obj [("class_type", Json.word "CLIPTextEncode"), ("inputs", .obj [("text", Json.word "a cat")])])]

theorem isGraph_text : IsGraph printer textUi := by
  refine ⟨by decide, ?_⟩
  intro node hnode
  obtain rfl := List.mem_singleton.mp hnode
  decide

/-- One widget has the one value. -/
theorem savedIn_text {node spec : Json} {type : Text} {ss : List Saved}
    (h : SavedIn (fun _ _ => false) textUi textCatalogue node type spec ss) :
    spec = entry ["text"] ∧ ∃ s, ss = [s] ∧ s.input.name = ofString "text" ∧ s.value = Json.word "a cat" := by
  obtain ⟨hnode, htype, hspec, hsaved⟩ := h
  obtain rfl := List.mem_singleton.mp hnode
  obtain rfl : ofString "CLIPTextEncode" = type := Option.some.inj htype
  refine ⟨(Option.some.inj hspec).symm, ?_⟩
  obtain ⟨s, rfl, hinput⟩ := List.map_eq_singleton_iff.mp hsaved.widgets
  refine ⟨s, rfl, by rw [hinput]; rfl, ?_⟩
  have hvalues : [Json.word "a cat"] = s.value :: (s.controls ++ []) := hsaved.values
  exact (List.cons.inj hvalues).1.symm

/-- A picture's width comes from another node. -/
def linkedUi : Json :=
  .obj [("links", .arr [.arr [Json.count 7, Json.count 1, Json.count 0, Json.count 2, Json.count 0, Json.word "INT"]]),
    ("nodes", .arr [savedNode 1 "PrimitiveInt" [widget "value" .null] [Json.count 640], latentNode (Json.count 7),
      textNode])]

end Cases

end Rootmode.Worker.UiFormat
