import Rootmode.ConnectedTools.Jsonc
import Rootmode.Lib.Settings
import Mathlib.Logic.Function.Basic

namespace Rootmode.ConnectedTools

open Function Lib Lib.Entries Lib.Json Protocol

/-- Where the gateway listens, the key a tool sends, and the model it asks for. -/
structure Endpoint where
  baseUrl : Text
  token : Text
  model : Text

def asObject : Json → Json
  | obj es => obj es
  | _ => obj []

/-- The object under a key, made where there is none, and changed. -/
def entry (root : Json) (k : String) (change : Json → Json) : Json :=
  root.insert k (change (asObject ((root.get k).getD (obj []))))

/-- The object under a key, changed where there is one. -/
def inside (root : Json) (k : String) (change : Json → Json) : Json :=
  match root.get k with
  | some (obj es) => root.insert k (change (obj es))
  | _ => root

def providerKey : String := "rootmode"

def v1 (ep : Endpoint) : Json := str (ep.baseUrl ++ "/v1".toList)

section OpenCode

def opencodeProvider (ep : Endpoint) : Json := object [
  ("name", word "rootmode"),
  ("npm", word "@ai-sdk/openai-compatible"),
  ("options", object [("baseURL", v1 ep), ("apiKey", str ep.token)]),
  ("models", object [(String.ofList ep.model, object [("name", str ep.model)])])]

def ownPrefix : Text := "rootmode/".toList

def connectOpencode (ep : Endpoint) (config : Json) : Json :=
  (entry (asObject config) "provider" (·.insert providerKey (opencodeProvider ep))).insert
    "model" (str (ownPrefix ++ ep.model))

def disconnectOpencode (config : Json) : Json :=
  let root := inside (asObject config) "provider" (·.remove providerKey)
  match root.get "model" with
  | some (str m) => if ownPrefix.isPrefixOf m then root.remove "model" else root
  | _ => root

end OpenCode

section ClaudeCode

def connectClaudeCode (ep : Endpoint) (config : Json) : Json :=
  entry (asObject config) "env" fun env =>
    ((env.insert "ANTHROPIC_BASE_URL" (str ep.baseUrl)).insert "ANTHROPIC_AUTH_TOKEN" (str ep.token)).insert
      "ANTHROPIC_MODEL" (str ep.model)

def disconnectClaudeCode (config : Json) : Json :=
  let root := asObject config
  match root.get "env" with
  | some (obj es) =>
    match ["ANTHROPIC_BASE_URL", "ANTHROPIC_AUTH_TOKEN", "ANTHROPIC_MODEL"].foldl Json.remove (obj es) with
    | obj [] => root.remove "env"
    | env => root.insert "env" env
  | _ => root

end ClaudeCode

section Pi

def connectPiModels (ep : Endpoint) (models : Json) : Json :=
  (asObject models).insert providerKey (object [
    ("baseURL", v1 ep),
    ("apiKey", str ep.token),
    ("api", word "openai-completions"),
    ("models", arr [str ep.model])])

def disconnectPiModels (models : Json) : Json := (asObject models).remove providerKey

def connectPiSettings (ep : Endpoint) (settings : Json) : Json :=
  ((asObject settings).insert "provider" (word providerKey)).insert "model" (str ep.model)

def disconnectPiSettings (settings : Json) : Json :=
  let root := asObject settings
  match root.get "provider" with
  | some (str p) => if p = providerKey.toList then (root.remove "provider").remove "model" else root
  | _ => root

end Pi

section Crush

def connectCrush (ep : Endpoint) (config : Json) : Json :=
  entry (asObject config) "providers" (·.insert providerKey (object [
    ("type", word "openai"),
    ("base_url", v1 ep),
    ("api_key", str ep.token),
    ("models", arr [object [("id", str ep.model), ("name", str ep.model)]])]))

def disconnectCrush (config : Json) : Json :=
  inside (asObject config) "providers" (·.remove providerKey)

end Crush

section Zed

def connectZed (ep : Endpoint) (config : Json) : Json :=
  entry (asObject config) "language_models" fun lm =>
    entry lm "openai_compatible" (·.insert providerKey (object [
      ("api_url", v1 ep),
      ("available_models", arr [object [("name", str ep.model), ("max_tokens", count 32000)]])]))

def disconnectZed (config : Json) : Json :=
  inside (asObject config) "language_models" (inside · "openai_compatible" (·.remove providerKey))

end Zed

section Files

inductive ConfigFile
  | opencode
  | claudeCode
  | piModels
  | piSettings
  | crush
  | zed
  deriving DecidableEq

inductive Tool
  | opencode
  | claudeCode
  | pi
  | crush
  | zed

def Tool.files : Tool → List ConfigFile
  | .opencode => [.opencode]
  | .claudeCode => [.claudeCode]
  | .pi => [.piModels, .piSettings]
  | .crush => [.crush]
  | .zed => [.zed]

def ConfigFile.connected (ep : Endpoint) : ConfigFile → Json → Json
  | .opencode => connectOpencode ep
  | .claudeCode => connectClaudeCode ep
  | .piModels => connectPiModels ep
  | .piSettings => connectPiSettings ep
  | .crush => connectCrush ep
  | .zed => connectZed ep

def ConfigFile.disconnected : ConfigFile → Json → Json
  | .opencode => disconnectOpencode
  | .claudeCode => disconnectClaudeCode
  | .piModels => disconnectPiModels
  | .piSettings => disconnectPiSettings
  | .crush => disconnectCrush
  | .zed => disconnectZed

/-- Where a machine keeps what belongs to a user. -/
structure Machine where
  windows : Bool
  home : Text
  appData : Option Text
  localAppData : Option Text

def Machine.isSeparator (m : Machine) (c : Char) : Bool := c = '/' || m.windows && c = '\\'

def Machine.join (m : Machine) (dir : Text) (name : String) : Text :=
  if dir.getLast?.any m.isSeparator then dir ++ name.toList
  else dir ++ (if m.windows then '\\' else '/') :: name.toList

def configPath (m : Machine) : ConfigFile → Text
  | .claudeCode => m.join (m.join m.home ".claude") "settings.json"
  | .opencode => m.join (m.join (m.join m.home ".config") "opencode") "opencode.jsonc"
  | .piModels => m.join (m.join (m.join m.home ".pi") "agent") "models.json"
  | .piSettings => m.join (m.join (m.join m.home ".pi") "agent") "settings.json"
  | .crush =>
    if m.windows then m.join (m.join (m.localAppData.getD m.home) "crush") "crush.json"
    else m.join (m.join (m.join m.home ".config") "crush") "crush.json"
  | .zed =>
    if m.windows then m.join (m.join (m.appData.getD m.home) "Zed") "settings.json"
    else m.join (m.join (m.join m.home ".config") "zed") "settings.json"

abbrev Disk := Text → Option Bytes

def backupPath (path : Text) : Text := path ++ ".rootmode-bak".toList

def backupOnce (path : Text) (disk : Disk) : Disk :=
  if (disk path).isSome ∧ (disk (backupPath path)).isNone then update disk (backupPath path) (disk path)
  else disk

def writeText (path : Text) (content : Bytes) (disk : Disk) : Disk :=
  update (backupOnce path disk) path (some content)

variable (S : SerdeJson) (m : Machine)

def writeJsonPretty (path : Text) (value : Json) (disk : Disk) : Disk :=
  writeText path (printed S value) disk

/-- A file read, changed and written. -/
def rewrite (change : ConfigFile → Json → Json) (disk : Disk) (file : ConfigFile) : Disk :=
  let path := configPath m file
  writeJsonPretty S path (change file (readJsonLenient S (disk path))) disk

def connect (ep : Endpoint) (tool : Tool) (disk : Disk) : Disk :=
  tool.files.foldl (rewrite S m (ConfigFile.connected ep)) disk

def disconnect (tool : Tool) (disk : Disk) : Disk :=
  tool.files.foldl (rewrite S m ConfigFile.disconnected) disk

end Files

end Rootmode.ConnectedTools
