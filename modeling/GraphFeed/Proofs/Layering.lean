import GraphFeed.Settings.Load
import GraphFeed.Yaml.Document

/-!
# Layers of settings

Four layers give values to settings: the defaults, a settings file, the environment and the command line.
Each is put over those below it by merging: the settings are written down as entries, the entries of the
layer that are not null are put into them, and the settings are read off again (`Settings.merged`).

* `Value.entry?_insertEntry`: what a text is the key of when an entry has been put in;
* `Settings.merged_eq_overlaid`: **a layer that is merged lies over the others**, setting by setting;
* `Layer.given?_ofEnvironment`: what the environment gives;
* `Layer.get?_known`: an entry whose key is no setting is not looked at;
* `build_layered`: **a setting has its value from the highest layer that gives it one**.
-/

namespace GraphFeed

/-! ## 1. Keys that are texts -/

namespace Value

variable {t : Text} {key value : Value} {entries : List (Value × Value)}

/-- The value is the text `t`. -/
def isText (t : Text) : Value → Bool
  | .text u => u == t
  | _ => false

theorem eq_of_isText (h : key.isText t = true) : key = .text t := by
  cases key with
  | text u => exact congrArg Value.text (beq_iff_eq.mp h)
  | null | bool | int | float | list | mapping => cases h

theorem isText_self (t : Text) : (Value.text t).isText t = true := beq_self_eq_true t

/-- **A text is the same key as itself alone.** -/
theorem sameKey_text (key : Value) (t : Text) : key.sameKey (.text t) = key.isText t := by
  cases key <;> rfl

theorem text_sameKey (t : Text) (key : Value) : (Value.text t).sameKey key = key.isText t := by
  cases key with
  | text u => exact Bool.beq_comm
  | null | bool | int | float | list | mapping => rfl

theorem entry?_cons (t : Text) (key value : Value) (entries : List (Value × Value)) :
    entry? t ((key, value) :: entries) = if key.isText t then some value else entry? t entries := by
  have hfind : ∀ entries, entry? t entries = (entries.find? fun e => e.1.isText t).map (·.2) :=
    fun _ => rfl
  rw [hfind, hfind, List.find?_cons]
  cases key.isText t <;> rfl

/-- **An entry that is put in counts for its own key**, and for no other. -/
theorem entry?_insertEntry (t : Text) (key value : Value) (entries : List (Value × Value)) :
    entry? t (insertEntry key value entries)
      = if key.isText t then some value else entry? t entries := by
  induction entries with
  | nil => exact entry?_cons t key value []
  | cons e entries ih =>
    obtain ⟨k, v⟩ := e
    rw [insertEntry, entry?_cons t k v]
    by_cases hk : k.isText t = true
    · -- `t` stands here, so an entry for it is put in here
      obtain rfl := eq_of_isText hk
      rw [text_sameKey, if_pos hk]
      split
      · rw [entry?_cons, if_pos hk]
      · rw [entry?_cons, if_pos hk]
    · rw [if_neg hk]
      by_cases hsame : k.sameKey key = true
      · have hkey : key.isText t ≠ true := by
          intro hkey
          rw [eq_of_isText hkey, sameKey_text] at hsame
          exact hk hsame
        rw [if_pos hsame, entry?_cons, if_neg hk, if_neg hkey]
      · rw [if_neg hsame, entry?_cons, if_neg hk, ih]

end Value

/-! ## 2. Merging -/

namespace Layer

variable {layer below above : Layer} {t : Text}

/-- No key stands in the layer twice. -/
def IsMapping (layer : Layer) : Prop := layer.Pairwise fun a b => a.1.sameKey b.1 = false

/-- The layer with the entries of another put into it. -/
def updated (below above : Layer) : Layer :=
  above.foldl (fun layer e => Value.insertEntry e.1 e.2 layer) below

/-- Behind an entry of a mapping its key does not stand again. -/
theorem IsMapping.entry?_tail {key value : Value} (h : IsMapping ((key, value) :: layer))
    (hkey : key.isText t = true) : Value.entry? t layer = none := by
  have hother := (List.pairwise_cons.mp h).1
  refine Option.map_eq_none_iff.mpr (List.find?_eq_none.mpr fun e he htext => ?_)
  have hsame := hother e he
  rw [Value.eq_of_isText hkey, Value.text_sameKey] at hsame
  exact Bool.false_ne_true (hsame.symm.trans htext)

/-- **The entries put in come first**, those that stood there second. -/
theorem entry?_updated (h : above.IsMapping) (below : Layer) : Value.entry? t (below.updated above)
    = (Value.entry? t above).or (Value.entry? t below) := by
  induction above generalizing below with
  | nil => rfl
  | cons e above ih =>
    obtain ⟨key, value⟩ := e
    change Value.entry? t (updated (Value.insertEntry key value below) above) = _
    rw [ih (List.Pairwise.of_cons h), Value.entry?_insertEntry, Value.entry?_cons]
    by_cases hkey : key.isText t = true
    · rw [if_pos hkey, if_pos hkey, h.entry?_tail hkey]
      rfl
    · rw [if_neg hkey, if_neg hkey]

/-- To leave out what is null is to find it not given. -/
theorem entry?_given (h : layer.IsMapping) : Value.entry? t (layer.filter fun e => e.2.isGiven)
    = (Value.entry? t layer).filter Value.isGiven := by
  induction layer with
  | nil => rfl
  | cons e layer ih =>
    obtain ⟨key, value⟩ := e
    have ih := ih (List.Pairwise.of_cons h)
    rw [Value.entry?_cons, List.filter_cons]
    by_cases hkey : key.isText t = true
    · rw [h.entry?_tail hkey] at ih
      rw [if_pos hkey, Option.filter_some]
      dsimp only
      split
      · rw [Value.entry?_cons, if_pos hkey]
      · exact ih
    · rw [if_neg hkey, ← ih]
      split
      · rw [Value.entry?_cons, if_neg hkey]
      · rfl

end Layer

/-- Settings are told apart by their names. -/
theorem Setting.find?_name (s : Setting) : all.find? (fun k => k.name == s.name) = some s := by
  cases s <;> decide

theorem Setting.name_inj {s k : Setting} (h : s.name = k.name) : s = k := by
  have hs := find?_name s
  rw [h, find?_name k] at hs
  exact (Option.some.inj hs).symm

namespace Settings

variable {s : Settings} {layer : Layer}

/-- The settings as entries, one for each. -/
def entries (s : Settings) : Layer := Setting.all.map fun k => (.text k.name, s k)

/-- The settings with a layer merged into them: what it gives is put into their entries, and the settings
    are read off the result. -/
def merged (processors : Option Nat) (s : Settings) (layer : Layer) : Settings :=
  .ofLayer processors (s.entries.updated (layer.filter fun e => e.2.isGiven))

theorem get?_entries (s : Settings) (k : Setting) : s.entries.get? k = some (s k) := by
  have hfind : s.entries.find? (fun e => e.1.isText k.name) = some (.text k.name, s k) := by
    have hname : ((fun e : Value × Value => e.1.isText k.name) ∘ fun j => (Value.text j.name, s j))
        = fun j : Setting => j.name == k.name := rfl
    rw [entries, List.find?_map, hname, k.find?_name]
    rfl
  exact congrArg (Option.map _) hfind

/-- **A layer that is merged lies over the others.** -/
theorem merged_eq_overlaid (processors : Option Nat) (h : layer.IsMapping) :
    merged processors s layer = s.overlaid layer := by
  funext k
  have hgiven : Layer.IsMapping (layer.filter fun e => e.2.isGiven) := List.Pairwise.filter _ h
  have hentry : (s.entries.updated (layer.filter fun e => e.2.isGiven)).get? k
      = (layer.given? k).or (some (s k)) := by
    rw [← get?_entries s k, Layer.get?, Layer.entry?_updated hgiven, Layer.entry?_given h]
    rfl
  rw [merged, ofLayer, hentry, overlaid]
  cases layer.given? k <;> rfl

end Settings

/-! ## 3. The environment -/

/-- The variable of the environment that may give a setting. -/
def Setting.variable? (k : Setting) : Option Text :=
  (environmentVariables.find? fun e => e.1 = k).map (·.2)

namespace Environment

/-- The value of a variable as that of a setting. An empty one is not given. -/
def value? (environment : Environment) (name : Text) : Option Value :=
  match environment.get? name with
  | none | some [] => none
  | some t => some (.text t)

/-- The value that the environment gives to a setting. -/
def given? (environment : Environment) (k : Setting) : Option Value :=
  k.variable?.bind environment.value?

theorem isGiven_of_value? {environment : Environment} {name : Text} {v : Value}
    (h : environment.value? name = some v) : v.isGiven = true := by
  unfold value? at h
  split at h
  · cases h
  · cases h
  · cases h
    rfl

end Environment

namespace Layer

variable {environment : Environment} {k : Setting}

/-- The entries that variables give to the settings of a table. -/
def ofTable (environment : Environment) (table : List (Setting × Text)) : Layer :=
  table.filterMap fun e => (environment.value? e.2).map fun v => (.text e.1.name, v)

theorem ofEnvironment_eq (environment : Environment) :
    ofEnvironment environment = ofTable environment environmentVariables := by
  refine congrArg (environmentVariables.filterMap ·) (funext fun e => ?_)
  dsimp only [Environment.value?]
  split <;> simp only [*, Option.map_none, Option.map_some]

theorem isText_name {j : Setting} : (Value.text j.name).isText k.name = decide (j = k) := by
  rw [Bool.eq_iff_iff, decide_eq_true_iff]
  exact ⟨fun h => Setting.name_inj (beq_iff_eq.mp h), fun h => h ▸ Value.isText_self _⟩

/-- A setting has its value from its variable, if it stands in the table once. -/
theorem get?_ofTable {table : List (Setting × Text)} (h : (table.map Prod.fst).Nodup) :
    (ofTable environment table).get? k
      = ((table.find? fun e => e.1 = k).map (·.2)).bind environment.value? := by
  induction table with
  | nil => rfl
  | cons e table ih =>
    obtain ⟨j, name⟩ := e
    obtain ⟨hnew, hrest⟩ := List.nodup_cons.mp h
    have ih := ih hrest
    rw [ofTable, List.filterMap_cons, List.find?_cons]
    by_cases hj : j = k
    · subst hj
      have hnone : table.find? (fun e => e.1 = j) = none := by
        refine List.find?_eq_none.mpr fun e he hj => ?_
        exact hnew (List.mem_map.mpr ⟨e, he, of_decide_eq_true hj⟩)
      simp only [decide_true, Option.map_some, Option.bind_some]
      cases hv : environment.value? name with
      | none => rw [hnone] at ih; exact ih
      | some v => rw [get?, Option.map_some, Value.entry?_cons, Value.isText_self]; rfl
    · simp only [hj, decide_false]
      rw [← ih]
      cases hv : environment.value? name with
      | none => rfl
      | some v =>
        rw [get?, Option.map_some, Value.entry?_cons, isText_name, decide_eq_false hj]
        rfl

/-- **The layer of the environment gives what the environment gives.** -/
theorem given?_ofEnvironment (environment : Environment) (k : Setting) :
    (ofEnvironment environment).given? k = environment.given? k := by
  have hget : (ofEnvironment environment).get? k = environment.given? k := by
    rw [ofEnvironment_eq, get?_ofTable (by decide)]
    rfl
  rw [given?, hget]
  cases hv : environment.given? k with
  | none => rfl
  | some v =>
    obtain ⟨name, _, hvalue⟩ := Option.bind_eq_some_iff.mp hv
    rw [Option.filter_some, if_pos (Environment.isGiven_of_value? hvalue)]

theorem isMapping_ofEnvironment (environment : Environment) :
    (ofEnvironment environment).IsMapping := by
  rw [ofEnvironment_eq, ofTable]
  refine List.Pairwise.filterMap _ ?_ (by decide : environmentVariables.Pairwise (·.1 ≠ ·.1))
  intro a a' hne b hb b' hb'
  obtain ⟨v, _, rfl⟩ := Option.map_eq_some_iff.mp hb
  obtain ⟨v', _, rfl⟩ := Option.map_eq_some_iff.mp hb'
  rw [Value.text_sameKey, isText_name]
  exact decide_eq_false hne.symm

end Layer

/-! ## 4. What is not looked at -/

theorem find?_filter_of_imp {α : Type} {p q : α → Bool} (h : ∀ a, p a = true → q a = true)
    (items : List α) : (items.filter q).find? p = items.find? p := by
  have hboth : (fun a => q a && p a) = p := by
    funext a
    cases hp : p a with
    | false => exact Bool.and_false _
    | true => rw [h a hp, Bool.and_true]
  rw [List.find?_filter]
  exact congrArg (List.find? · items) (by simpa only [Bool.decide_and, Bool.decide_eq_true] using hboth)

/-- The entries of a layer whose keys are names of settings. -/
def Layer.known (layer : Layer) : Layer :=
  layer.filter fun e => Setting.all.any fun k => e.1.isText k.name

/-- The variables of an environment that may give a setting. -/
def Environment.known (environment : Environment) : Environment :=
  environment.filter fun e => environmentVariables.any fun v => v.2 = e.1

/-- **An entry whose key is no setting is not looked at.** -/
theorem Layer.get?_known (layer : Layer) (k : Setting) : layer.known.get? k = layer.get? k := by
  refine congrArg (Option.map _) (find?_filter_of_imp (fun e he => ?_) layer)
  exact List.any_eq_true.mpr ⟨k, k.mem_all, he⟩

theorem Layer.given?_congr {layer layer' : Layer} (h : layer'.known = layer.known) (k : Setting) :
    layer'.given? k = layer.given? k := by
  rw [given?, given?, ← get?_known, h, get?_known]

/-- A variable that gives no setting is not looked at. -/
theorem Environment.given?_known (environment : Environment) (k : Setting) :
    environment.known.given? k = environment.given? k := by
  unfold given?
  cases hname : k.variable? with
  | none => rfl
  | some name =>
    obtain ⟨e, hfind, rfl⟩ := Option.map_eq_some_iff.mp hname
    have hget : environment.known.get? e.2 = environment.get? e.2 := by
      refine congrArg (Option.map _) (find?_filter_of_imp (fun v hv => ?_) environment)
      refine List.any_eq_true.mpr ⟨e, List.mem_of_find?_eq_some hfind, ?_⟩
      exact decide_eq_true (of_decide_eq_true hv).symm
    simp only [Option.bind_some, value?, hget]

theorem Environment.given?_congr {environment environment' : Environment}
    (h : environment'.known = environment.known) (k : Setting) :
    environment'.given? k = environment.given? k := by
  rw [← given?_known, h, given?_known]

/-! ## 5. The settings file -/

/-- The place of the settings file: the one named, or the first usual one at which something stands. -/
def FileTree.settingsPlace? (tree : FileTree) (path : Option Text) : Option Text :=
  match path with
  | none | some [] => tree.firstPresent? usualPlaces
  | some path => some path

/-- The file at a place is a document in which the section of the settings is the mapping `layer`. -/
def FileTree.HoldsSection (loader : Loader) (tree : FileTree) (place : Text) (layer : Layer) : Prop :=
  ∃ content document, tree.entry place = .file content ∧
    loader content = some (.mapping document) ∧
    Value.entry? sectionName document = some (.mapping layer)

namespace Layer

variable {loader : Loader} {tree : FileTree} {path : Option Text} {place : Text} {layer : Layer}

theorem load_eq (loader : Loader) (tree : FileTree) (path : Option Text) : load loader tree path =
    match tree.settingsPlace? path with
    | some place => ofPath loader tree place
    | none => .ok [] := by
  unfold load FileTree.settingsPlace?
  rcases path with _ | _ | _ <;> rfl

theorem ofSection_mapping (layer : Layer) : ofSection (.mapping layer) = .ok layer := by
  cases layer <;> rfl

/-- **The layer of a settings file is its section.** -/
theorem ofPath_of_holdsSection (h : tree.HoldsSection loader place layer) :
    ofPath loader tree place = .ok layer := by
  obtain ⟨content, document, hentry, hread, hsection⟩ := h
  have htrue : (Value.mapping document).isTrue = true := by
    cases document with
    | nil => cases hsection
    | cons => rfl
  have hdocument : ofDocument (.mapping document) = .ok layer := by
    simp only [ofDocument, htrue, hsection, ofSection_mapping]
    rfl
  rw [ofPath, hentry]
  simp only [ofFile, hread, hdocument]
  rfl

end Layer

/-! ## 6. All layers -/

/-- What all layers make of a setting: the command line first, then the environment, then the file. -/
def Setting.layered (processors : Option Nat) (file : Layer) (environment : Environment)
    (commandLine : Layer) (k : Setting) : Value :=
  ((commandLine.given? k).or ((environment.given? k).or (file.given? k))).getD (k.default processors)

namespace Settings

variable {loader : Loader} {processors : Option Nat} {tree : FileTree} {path : Option Text}
  {environment environment' : Environment} {file file' commandLine commandLine' : Layer} {settings : Settings}

/-- **Three layers over the defaults are one choice for each setting.** -/
theorem overlaid_eq_layered (processors : Option Nat) (file : Layer) (environment : Environment)
    (commandLine : Layer) :
    (((standard processors).overlaid file).overlaid (.ofEnvironment environment)).overlaid commandLine
      = Setting.layered processors file environment commandLine := by
  funext k
  unfold Setting.layered overlaid
  rw [Layer.given?_ofEnvironment]
  cases commandLine.given? k with
  | some v => rfl
  | none => cases environment.given? k <;> rfl

theorem build_iff : build loader processors tree path environment commandLine = .ok settings ↔
    ∃ file, Layer.load loader tree path = .ok file ∧ validate settings = .ok () ∧
      Setting.layered processors file environment commandLine = settings := by
  unfold build
  cases hload : Layer.load loader tree path with
  | error e => exact ⟨nofun, fun ⟨_, h, _⟩ => nomatch h⟩
  | ok file =>
    change (validate _ >>= fun _ => Except.ok _) = _ ↔ _
    rw [overlaid_eq_layered]
    constructor
    · intro h
      cases hvalid : validate (Setting.layered processors file environment commandLine) with
      | error e => rw [hvalid] at h; cases h
      | ok =>
        rw [hvalid] at h
        cases h
        exact ⟨file, rfl, hvalid, rfl⟩
    · rintro ⟨_, ⟨⟩, hvalid, rfl⟩
      rw [hvalid]
      rfl

theorem layered_congr (hfile : file'.known = file.known)
    (henvironment : environment'.known = environment.known)
    (hcommandLine : commandLine'.known = commandLine.known) :
    Setting.layered processors file' environment' commandLine'
      = Setting.layered processors file environment commandLine := by
  funext k
  rw [Setting.layered, Layer.given?_congr hfile, Environment.given?_congr henvironment,
    Layer.given?_congr hcommandLine]
  rfl

end Settings

/-- **A setting has its value from the highest layer that gives it one**: the command line, the
    environment, the section of the settings file, the defaults of the machine. The settings are those
    that are found by merging the layers in turn, and nothing in a layer counts whose name is no
    setting. -/
theorem build_layered {loader : Loader} {processors : Option Nat} {tree : FileTree}
    {path : Option Text} {environment : Environment} {commandLine : Layer} {settings : Settings}
    (h : Settings.build loader processors tree path environment commandLine = .ok settings) :
    ∃ file, Layer.load loader tree path = .ok file ∧
      (∀ place layer, tree.settingsPlace? path = some place → tree.HoldsSection loader place layer →
        file = layer) ∧
      (∀ k, settings k = k.layered processors file environment commandLine) ∧
      (file.IsMapping → commandLine.IsMapping → settings
        = .merged processors (.merged processors
            (.merged processors (.standard processors) file) (.ofEnvironment environment)) commandLine) ∧
      ∀ (loader' : Loader) (tree' : FileTree) (path' : Option Text) (environment' : Environment)
        (commandLine' file' : Layer), Layer.load loader' tree' path' = .ok file' →
        file'.known = file.known → environment'.known = environment.known →
        commandLine'.known = commandLine.known →
        Settings.build loader' processors tree' path' environment' commandLine' = .ok settings := by
  obtain ⟨file, hload, hvalid, rfl⟩ := Settings.build_iff.mp h
  refine ⟨file, hload, ?_, fun k => rfl, ?_, ?_⟩
  · intro place layer hplace hholds
    rw [Layer.load_eq, hplace] at hload
    exact Except.ok.inj (hload.symm.trans (Layer.ofPath_of_holdsSection hholds))
  · intro hfile hcommandLine
    rw [Settings.merged_eq_overlaid processors hfile,
      Settings.merged_eq_overlaid processors (Layer.isMapping_ofEnvironment environment),
      Settings.merged_eq_overlaid processors hcommandLine, Settings.overlaid_eq_layered]
  · intro loader' tree' path' environment' commandLine' file' hload' hfile henvironment hcommandLine
    exact Settings.build_iff.mpr
      ⟨file', hload', hvalid, Settings.layered_congr hfile henvironment hcommandLine⟩

/-- What is null or empty is not given, and `hue` is no setting. Of the five settings that the file
    gives, the environment has other values for two, and the command line for one of these and for one
    more. -/
theorem build_layered_fourLayers :
    let tree : FileTree := [("s.yaml",
      .concat ["neopipe:\n  separator: ','\n  quote:\n  jobs: 3\n  neo4j_uri: file\n",
        "  neo4j_user: file\n  neo4j_password: file\n  hue: 1\n"])]
    let environment : Environment := [("NEO4J_URI", "environment"), ("NEO4J_USER", "environment"),
      ("NEO4J_PASSWORD", ""), ("HOME", "/")]
    let commandLine : Layer := [(.text "jobs", .int 7), (.text "neo4j_user", .text "line"),
      (.text "separator", .null), (.text "hue", .int 2)]
    let shown : List Setting := [.separator, .quote, .jobs, .uri, .user, .password, .database]
    let theirs : List Text := ["','", "'\"'", "7", "'environment'", "'line'", "'file'", "'neo4j'"]
    ∃ settings file,
      Settings.build Yaml.read (some 4) tree (some "s.yaml") environment commandLine = .ok settings ∧
      Layer.load Yaml.read tree (some "s.yaml") = .ok file ∧
      (∀ k, settings k = k.layered (some 4) file environment commandLine) ∧
      shown.map (fun k => (settings k).literal) = theirs := by
  intro tree environment commandLine shown theirs
  have hseen : (Settings.build Yaml.read (some 4) tree (some "s.yaml") environment
      commandLine).toOption.map (fun settings => shown.map fun k => (settings k).literal)
        = some theirs := by decide +kernel
  cases hbuild : Settings.build Yaml.read (some 4) tree (some "s.yaml") environment commandLine with
  | error e => rw [hbuild] at hseen; cases hseen
  | ok settings =>
    rw [hbuild] at hseen
    obtain ⟨file, hload, _, hlayered, _⟩ := build_layered hbuild
    exact ⟨settings, file, rfl, hload, hlayered, Option.some.inj hseen⟩

end GraphFeed
