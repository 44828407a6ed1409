import Rootmode.Core.Protocol
import Rootmode.Lib.Object
import Rootmode.Lib.Prefixes
import Rootmode.Worker.Markup

namespace Rootmode.Worker

open Lib Lib.Search Lib.Text Lib.Json Lib.Entries Protocol

def emptyArguments : Text := "\x7b\x7d".toList

section Dsml

variable (S : SerdeJson)

def invokeNeedle : Text := dsmlMark ++ "invoke name=\"".toList

def invokeClose : Text := "</".toList ++ dsmlMark ++ "invoke>".toList

def parameterNeedle : Text := dsmlMark ++ "parameter".toList

def parameterClose : Text := "</".toList ++ dsmlMark ++ "parameter>".toList

def dsmlAttr (tag key : Text) : Option Text :=
  let p := key ++ "=\"".toList
  (find p tag).bind fun i =>
    let rest := tag.drop (i + p.length)
    (find ['"'] rest).map fun e => rest.take e

/-- A value as it is written, or the text itself. -/
def valueOf (raw : Text) : Json := (S.fromStr raw).getD (.str raw)

def dsmlParametersFrom (map : List (String × Json)) (search : Text) : List (String × Json) :=
  match _hi : find parameterNeedle search with
  | none => map
  | some i =>
    let fromTag := search.drop i
    match _hgt : find ['>'] fromTag with
    | none => map
    | some gt =>
      let tag := fromTag.take gt
      match dsmlAttr tag "name".toList with
      | none => dsmlParametersFrom map (fromTag.drop parameterNeedle.length)
      | some name =>
        let asString := contains "string=\"true\"".toList tag || contains "string='true'".toList tag
        let after := fromTag.drop (gt + 1)
        match find parameterClose after with
        | none => map
        | some e =>
          let raw := after.take e
          let value := if asString then .str raw else valueOf S raw
          dsmlParametersFrom (put name.str value map) (after.drop (e + parameterClose.length))
termination_by search.length
decreasing_by
  · have hlt := find_lt _hi
    have hpos : 0 < parameterNeedle.length := by decide
    simp only [List.length_drop]
    omega
  · have hlt := find_lt _hi
    simp only [List.length_drop]
    omega

def dsmlParameters (body : Text) : List (String × Json) := dsmlParametersFrom S [] body

def dsmlCall (n : ℕ) (name body : Text) : ToolCall where
  id := s!"call_dsml_{n}".toList
  name := name
  arguments := S.toString (.obj (dsmlParameters S body))

/-- The calls of a text of which `n` are found already. -/
def dsmlInvokesFrom (n : ℕ) (search : Text) : List ToolCall :=
  match _hi : find invokeNeedle search with
  | none => []
  | some i =>
    let after := search.drop (i + invokeNeedle.length)
    match find ['"'] after with
    | none => []
    | some q =>
      let name := after.take q
      if name = [] then dsmlInvokesFrom n (after.drop 1)
      else
        let afterName := after.drop q
        match find ['>'] afterName with
        | none => []
        | some gt =>
          let bodyAnd := afterName.drop (gt + 1)
          match find invokeClose bodyAnd with
          | none => []
          | some e => dsmlCall S (n + 1) name (bodyAnd.take e) ::
            dsmlInvokesFrom (n + 1) (bodyAnd.drop (e + invokeClose.length))
termination_by search.length
decreasing_by
  · have hlt := find_lt _hi
    simp only [List.length_drop]
    omega
  · have hlt := find_lt _hi
    simp only [List.length_drop]
    omega

def parseDsmlInvokes (text : Text) : List ToolCall := dsmlInvokesFrom S 0 text

/-- What is left of a text without what stands between two places. -/
def around (text : Text) (start stop : ℕ) : Text :=
  let head := trimEnd (text.take start)
  let tail := (text.drop stop).dropWhile isWhitespace
  match head, tail with
  | [], [] => []
  | head, [] => head
  | [], tail => tail
  | head, tail => head ++ '\n' :: tail

def stripDsml (text : Text) : Text :=
  match find dsmlMark text with
  | none => text
  | some mark =>
    let start := (rfind ['<'] (text.take mark)).getD mark
    let last := (rfind dsmlMark text).getD mark
    let stop := ((find ['>'] (text.drop last)).map fun i => last + i + 1).getD text.length
    around text start stop

end Dsml

section Xml

variable (S : SerdeJson)

def toolCallClose : Text := "</tool_call>".toList

def functionNeedle : Text := "<function=".toList

def functionClose : Text := "</function>".toList

def xmlParameterNeedle : Text := "<parameter=".toList

def xmlParameterClose : Text := "</parameter>".toList

/-- Without the quotes around it. -/
def unquote (t : Text) : Text :=
  let quote (c : Char) : Bool := c == '"' || c == '\''
  (t.dropWhile quote).rdropWhile quote

def xmlParametersFrom (map : List (String × Json)) (s : Text) : List (String × Json) :=
  match _hp : find xmlParameterNeedle s with
  | none => map
  | some p =>
    let afterP := s.drop (p + xmlParameterNeedle.length)
    match find ['>'] afterP with
    | none => map
    | some nameEnd =>
      let pname := unquote (afterP.take nameEnd)
      let valAnd := afterP.drop (nameEnd + 1)
      let stop := (find xmlParameterClose valAnd).getD valAnd.length
      let raw := valAnd.take stop
      let map := if pname ≠ [] then put pname.str (valueOf S raw) map else map
      xmlParametersFrom map (if stop < valAnd.length then valAnd.drop (stop + xmlParameterClose.length) else [])
termination_by s.length
decreasing_by
  have hlt := find_lt _hp
  split
  · simp only [List.length_drop]
    omega
  · exact (Nat.zero_le _).trans_lt hlt

def jsonCall (v : Json) : Option ToolCall := do
  let name ← (v.get "name").bind fun
    | .str name => some name
    | _ => none
  if name = [] then none
  else
    let arguments := match v.get "arguments" with
      | some (.str s) => if trim s = [] then emptyArguments else s
      | some other => S.toString other
      | none => emptyArguments
    return { id := [], name, arguments }

def tagCall (body : Text) : Option ToolCall := do
  let i ← find functionNeedle body
  let after := body.drop (i + functionNeedle.length)
  let nameEnd ← after.findIdx? fun c => c == '>' || c == ' ' || c == '\t' || c == '\n'
  let name := unquote (after.take nameEnd)
  if name = [] then none
  else
    let rest := after.drop nameEnd
    let inner := rest.take ((find functionClose rest).getD rest.length)
    return { id := [], name, arguments := S.toString (.obj (xmlParametersFrom S [] inner)) }

def parseXmlToolBody (body : Text) : Option ToolCall :=
  let body := trim body
  if ['{'].isPrefixOf body then (S.fromStr body).bind (jsonCall S) else tagCall S body

def xmlCall (n : ℕ) (call : ToolCall) : ToolCall :=
  if call.id = [] then { call with id := s!"call_xml_{n}".toList } else call

def xmlCallsFrom (n : ℕ) (search : Text) : List ToolCall :=
  match _hstart : find toolCallOpen search with
  | none => []
  | some start =>
    let afterOpen := search.drop start
    match find ['>'] afterOpen with
    | none => []
    | some gt =>
      let bodyStart := afterOpen.drop (gt + 1)
      match find toolCallClose bodyStart with
      | none => []
      | some e =>
        let rest := bodyStart.drop (e + toolCallClose.length)
        match parseXmlToolBody S (trim (bodyStart.take e)) with
        | none => xmlCallsFrom n rest
        | some call => xmlCall (n + 1) call :: xmlCallsFrom (n + 1) rest
termination_by search.length
decreasing_by
  all_goals
    have hlt := find_lt _hstart
    simp only [List.length_drop]
    omega

def stripXmlToolCalls (text : Text) : Text :=
  match find toolCallOpen text with
  | none => text
  | some start =>
    let lastOpen := (rfind toolCallOpen text).getD start
    let stop := ((find toolCallClose (text.drop lastOpen)).map fun i =>
      lastOpen + i + toolCallClose.length).getD text.length
    around text start stop

end Xml

/-- Native tool markup that a server left in the text, as calls, and what is around it. -/
def salvageToolMarkup (S : SerdeJson) (text : Text) : Text × List ToolCall :=
  if contains dsmlMark text then (stripDsml text, parseDsmlInvokes S text)
  else if contains toolCallOpen text then (stripXmlToolCalls text, xmlCallsFrom S 0 text)
  else (text, [])

end Rootmode.Worker
