import GraphFeed.FileTree
import GraphFeed.Settings.Basic

/-!
# Where settings come from

There are four layers, from the lowest: the defaults, the section `neopipe` of a settings file, four
variables of the environment, and the command line. `Settings.build` puts them over each other and
checks the result.

A settings file may be named; it must exist then. Where none is named, the first of two usual places
that exists is taken, and there need not be one. What reads the text of a settings file is given as a
`Loader`.
-/

namespace GraphFeed

/-! ## 1. Sections -/

/-- The section of a document that holds settings. -/
def sectionName : Text := "neopipe"

/-- The entry that an item of a section given as a list stands for: a pair, or a text of two code
    points. -/
def pairEntry (position : Nat) (item : Value) : Except SectionFault (Value × Value) :=
  let checked (key value : Value) : Except SectionFault (Value × Value) :=
    match key with
    | .list _ | .mapping _ => .error (.badKey key.kind)
    | _ => .ok (key, value)
  match item with
  | .list [key, value] => checked key value
  | .list items => .error (.badLength position items.length)
  | .text [a, b] => .ok (.text [a], .text [b])
  | .text t => .error (.badLength position t.length)
  | .mapping [(a, _), (b, _)] => checked a b
  | .mapping entries => .error (.badLength position entries.length)
  | _ => .error (.noPair position)

/-- The entries of a section given as a list, from a position on, put into a layer. -/
def pairEntries (position : Nat) (layer : Layer) : List Value → Except SectionFault Layer
  | [] => .ok layer
  | item :: rest =>
    match pairEntry position item with
    | .error fault => .error fault
    | .ok (key, value) => pairEntries (position + 1) (Value.insertEntry key value layer) rest

/-- The layer that a section holds. A section may be empty. -/
def Layer.ofSection (v : Value) : Except SectionFault Layer :=
  if !v.isTrue then .ok []
  else
    match v with
    | .mapping entries => .ok entries
    | .list items => pairEntries 0 [] items
    | .text _ => .error (.badLength 0 1)
    | v => .error (.single v.kind)

/-- The layer that a document holds. A document without the section holds nothing. -/
def Layer.ofDocument (v : Value) : Except SectionFault Layer :=
  if !v.isTrue then .ok []
  else
    match v with
    | .mapping entries =>
      match Value.entry? sectionName entries with
      | some v => ofSection v
      | none => .ok []
    | .list items =>
      if items.any fun item => item.sameKey (.text sectionName) then .error .listDocument
      else .ok []
    | .text t => if t.contains sectionName then .error .textDocument else .ok []
    | v => .error (.noContainer v.kind)

/-! ## 2. Layers -/

/-- The usual places of the settings file. -/
def usualPlaces : List Text := ["config/neopipe_config.yaml", "neopipe_config.yaml"]

/-- What reads the text of a settings file: the value of its document, or nothing where the text is no
    document. -/
abbrev Loader := Text → Option Value

/-- The layer of the text of a settings file. -/
def Layer.ofFile (loader : Loader) (path content : Text) : Except Error Layer :=
  match loader content with
  | none => .error (.settingsUnreadable path)
  | some document => (ofDocument document).mapError .settingsSection

/-- The layer of the settings file at a path. -/
def Layer.ofPath (loader : Loader) (tree : FileTree) (path : Text) : Except Error Layer :=
  match tree.entry path with
  | .missing => .error (.settingsMissing path)
  | .directory => .error (.settingsDirectory path)
  | .file content => ofFile loader path content

/-- The first of some paths at which something stands. -/
def FileTree.firstPresent? (tree : FileTree) (paths : List Text) : Option Text :=
  paths.find? fun path => match tree.entry path with
    | .missing => false
    | _ => true

/-- The layer of the settings file, named or not. An empty name is none. -/
def Layer.load (loader : Loader) (tree : FileTree) (path : Option Text) : Except Error Layer :=
  match path with
  | none | some [] =>
    match tree.firstPresent? usualPlaces with
    | some path => ofPath loader tree path
    | none => .ok []
  | some path => ofPath loader tree path

/-- The variables of an environment. -/
abbrev Environment := List (Text × Text)

/-- The value of a variable. -/
def Environment.get? (environment : Environment) (name : Text) : Option Text :=
  (environment.find? fun e => e.1 = name).map (·.2)

/-- The settings that a variable of the environment may give, with its name. -/
def environmentVariables : List (Setting × Text) :=
  [(.uri, "NEO4J_URI"), (.user, "NEO4J_USER"), (.password, "NEO4J_PASSWORD"),
    (.database, "NEO4J_DATABASE")]

/-- The layer of the environment: the variables that are set and not empty. -/
def Layer.ofEnvironment (environment : Environment) : Layer :=
  environmentVariables.filterMap fun (s, name) =>
    match environment.get? name with
    | none | some [] => none
    | some t => some (.text s.name, .text t)

/-- The settings of all layers, checked. -/
def Settings.build (loader : Loader) (processors : Option Nat) (tree : FileTree) (path : Option Text)
    (environment : Environment) (commandLine : Layer) : Except Error Settings := do
  let file ← Layer.load loader tree path
  let below := (standard processors).overlaid file
  let settings := (below.overlaid (.ofEnvironment environment)).overlaid commandLine
  settings.validate
  return settings

end GraphFeed
