import Untranslated.Command
import Untranslated.Proofs.Files

/-!
# Which options count

The command line counts more than the project's configuration file, that more than the user's, and
all of them more than the defaults.

* `setting?` is what a document sets: the look-up that the run's merging of files amounts to
  (`lookup?_settings`).
* `Delimiters.DenotedBy` says which values are delimiters; the others are none in a file
  (`delimiters?_eq_some`) and an error on the command line (`delimitersOf_string_cases`).
* `options_of_documents` puts the layers together, for every document of the project and of the user
  and all arguments. As far as values have a text (`Value.text` leaves the depth of the stack aside), the
  only ones that a run does not get over are lists with an integer that has too many digits to be
  written (`overlong_setting_fails`).
-/

namespace Untranslated

/-! ## Lists of texts -/

namespace Value

/-- The items of a list or set, none for any other value. -/
def members : Value → List Value
  | .list vs | .set vs => vs
  | _ => []

theorem areWritable_iff {vs : List Value} : areWritable vs = true ↔ ∀ v ∈ vs, v.isWritable = true := by
  induction vs with
  | nil => simp [areWritable]
  | cons v vs ih => simp [areWritable, ih]

theorem lookup?_append (name : Text) (es fs : List (Value × Value)) :
    lookup? name (es ++ fs) = (lookup? name es).or (lookup? name fs) := by
  fun_induction lookup? name es <;> simp_all [lookup?]

end Value

/-- The value can be taken as a list of texts: each of its items can be written. -/
def Value.Listable (v : Value) : Prop := ∀ x ∈ v.members, x.isWritable = true

namespace Options

theorem texts_of_listable {v : Value} (h : v.Listable) : texts v = .ok (textList v) := by
  unfold texts
  split
  · exact if_pos (Value.areWritable_iff.mpr h)
  · exact if_pos (Value.areWritable_iff.mpr h)
  · rfl

/-- A list of texts is refused for an item that cannot be written, and for nothing else. -/
theorem texts_of_not_listable {v : Value} (h : ¬v.Listable) : texts v = .error .overlongInteger := by
  unfold texts
  split
  · exact if_neg fun hw => h (Value.areWritable_iff.mp hw)
  · exact if_neg fun hw => h (Value.areWritable_iff.mp hw)
  · refine absurd (fun x hx => ?_) h
    unfold Value.members at hx
    split at hx <;> simp_all

end Options

/-! ## Delimiters -/

/-- The values that denote a pair of delimiters: a list of two non-empty texts, or one text that a
comma cuts into two. -/
inductive Delimiters.DenotedBy : Value → Delimiters → Prop where
  | list {a b : Text} (ha : a ≠ []) (hb : b ≠ []) : DenotedBy (.list [.string a, .string b]) ⟨a, b⟩
  | text {s a b : Text} (h : Options.commaParts s = [a, b]) (ha : a ≠ []) (hb : b ≠ []) :
    DenotedBy (.string s) ⟨a, b⟩

namespace Options

theorem delimiterPair_eq_some {vs : List Value} {d : Delimiters} :
    delimiterPair vs = .ok (some d) ↔
      vs = [.string d.opening, .string d.closing] ∧ d.opening ≠ [] ∧ d.closing ≠ [] := by
  obtain ⟨a, b⟩ := d
  unfold delimiterPair
  split
  · simp
  · split <;> grind
  · simp_all

theorem delimiterPair_cases {vs : List Value} (h : vs ≠ []) :
    (∃ d, delimiterPair vs = .ok (some d)) ∨ delimiterPair vs = .error .delimiters := by
  unfold delimiterPair
  split
  · exact absurd rfl h
  · split
    · exact .inr rfl
    · exact .inl ⟨_, rfl⟩
  · exact .inr rfl

/-- A text that is whitespace has no comma. -/
theorem commaParts_of_trim_eq_nil {s : Text} (h : Text.trim s = []) : commaParts s = [[]] := by
  have hcomma : ',' ∉ s := fun hmem => by
    obtain ⟨u, v, rfl⟩ := List.append_of_mem hmem
    have htrimmed : Text.Trimmed [','] := by
      constructor <;> rintro c ⟨rfl⟩ <;> decide
    have hinfix : [','] <:+: Text.trim (u ++ ',' :: v) :=
      htrimmed.infix_trim (by simp) ⟨u, v, by simp⟩
    rw [h] at hinfix
    simp at hinfix
  rw [commaParts, (Text.splitOn_append hcomma []).1]
  simp [h]

/-- The values that are read as delimiters are those that denote some. -/
theorem delimitersOf_eq_some {v : Value} {d : Delimiters} :
    delimitersOf v = .ok (some d) ↔ d.DenotedBy v := by
  constructor
  · intro h
    unfold delimitersOf at h
    split at h
    · cases h
    · split at h
      · cases h
      · obtain ⟨hparts, ha, hb⟩ := delimiterPair_eq_some.mp h
        exact .text (List.map_injective_iff.mpr (fun _ _ h => Value.string.inj h) hparts) ha hb
    · obtain ⟨rfl, ha, hb⟩ := delimiterPair_eq_some.mp h
      exact .list ha hb
    · cases h
  · rintro (@⟨a, b, ha, hb⟩ | @⟨s, a, b, hparts, ha, hb⟩)
    · exact (delimiterPair_eq_some (d := ⟨a, b⟩)).mpr ⟨rfl, ha, hb⟩
    · -- A text with two parts is not whitespace.
      have htrim : ¬(Text.trim s).isEmpty = true := fun htrim => by
        rw [commaParts_of_trim_eq_nil (List.isEmpty_iff.mp htrim)] at hparts
        cases hparts
      rw [delimitersOf, if_neg htrim, hparts]
      exact (delimiterPair_eq_some (d := ⟨a, b⟩)).mpr ⟨rfl, ha, hb⟩

/-- A text that is neither whitespace nor denotes delimiters. -/
def Malformed (s : Text) : Prop := Text.trim s ≠ [] ∧ ∀ d, ¬Delimiters.DenotedBy (.string s) d

theorem delimitersOf_string_cases (s : Text) :
    (Malformed s ∧ delimitersOf (.string s) = .error .delimiters) ∨
      ¬Malformed s ∧ ∃ d, delimitersOf (.string s) = .ok d := by
  by_cases htrim : Text.trim s = []
  · exact .inr ⟨fun h => h.1 htrim, none, if_pos (List.isEmpty_iff.mpr htrim)⟩
  · have hpair : delimitersOf (.string s) = delimiterPair ((commaParts s).map .string) :=
      if_neg (by simpa using htrim)
    have hparts : (commaParts s).map Value.string ≠ [] := by
      simp [commaParts, Text.splitOn_ne_nil]
    rcases delimiterPair_cases hparts with ⟨d, hd⟩ | herror
    · rw [← hpair] at hd
      exact .inr ⟨fun h => h.2 d (delimitersOf_eq_some.mp hd), some d, hd⟩
    · rw [← hpair] at herror
      refine .inl ⟨⟨htrim, fun d hd => ?_⟩, herror⟩
      rw [delimitersOf_eq_some.mpr hd] at herror
      cases herror

end Options

/-! ## What documents set -/

namespace Config

/-- The value that a document sets under a name: that of the entry in its `lint` section. A document
that is no mapping, or whose section is none, sets nothing. -/
def setting? (document : Option Yaml.Document) (name : Text) : Option Value := do
  let d ← document
  let lint ← placeOf? sectionName (← d.entries? d.root)
  let place ← placeOf? name (← d.entries? lint)
  return d.items place

/-- The settings of a project and a user together; what the project sets counts more. -/
def layered? (project user : Option Yaml.Document) (name : Text) : Option Value :=
  (setting? project name).or (setting? user name)

theorem lookup?_filterMap {α : Type} (f : Text → Option α) (g : α → Value) (name : Text)
    (names : List Text) :
    Value.lookup? name (names.filterMap fun n => (f n).map fun r => (Value.string n, g r)) =
      if name ∈ names then (f name).map g else none := by
  induction names with
  | nil => rfl
  | cons n names ih =>
    by_cases hn : n = name
    · subst hn
      cases hf : f n with
      | none =>
        rw [List.filterMap_cons_none (by rw [hf]; rfl), ih]
        simp [hf]
      | some r =>
        rw [List.filterMap_cons_some (by rw [hf]; rfl)]
        simp [Value.lookup?]
    · have hmem : name ∈ n :: names ↔ name ∈ names := by simp [Ne.symm hn]
      simp only [hmem]
      rw [← ih]
      cases hf : f n with
      | none => rw [List.filterMap_cons_none (by rw [hf]; rfl)]
      | some r =>
        rw [List.filterMap_cons_some (by rw [hf]; rfl)]
        simp [Value.lookup?, hn]

/-- What a configuration file sets is what its document sets. -/
theorem lookup?_settings (document : Option Yaml.Document) {name : Text}
    (hname : name ∈ settingNames) :
    Value.lookup? name (settingsOf (document.bind Contents.ofDocument?)) = setting? document name := by
  cases document with
  | none => rfl
  | some d =>
    cases hroot : d.entries? d.root with
    | none => simp [settingsOf, setting?, Contents.ofDocument?, hroot, Value.lookup?]
    | some entries =>
      have hplaces : ∀ inner : List (Value × Yaml.Ref),
          Value.lookup? name (settingNames.filterMap fun n =>
            (placeOf? n inner).map fun r => (Value.string n, d.items r)) =
          (placeOf? name inner).map d.items := fun inner => by
        rw [lookup?_filterMap, if_pos hname]
      simp only [settingsOf, setting?, Contents.ofDocument?, hroot, Option.bind_eq_bind,
        Option.bind_some, Option.map_some, Option.getD_some, hplaces]
      cases placeOf? sectionName entries with
      | none => rfl
      | some lint =>
        cases hlint : d.entries? lint with
        | none => simp [hlint, placeOf?]
        | some inner =>
          simp only [hlint, Option.bind_some, Option.getD_some, Option.map_eq_bind]
          rfl

/-- The list of texts that a setting gives; nothing is set by null. -/
def listOr (otherwise : List Text) : Option Value → List Text
  | none | some .null => otherwise
  | some v => Options.textList v

section
variable {entries : Entries}

/-- The setting of a name, if there is one, can be taken as a list of texts. -/
def ListableAt (v : Text → Option Value) (name : Text) : Prop :=
  ∀ value, v name = some value → value.Listable

theorem texts?_cases (entries : Entries) (name : String) :
    (ListableAt (Value.lookup? · entries) name.toList ∧ ∃ texts, texts? name entries = .ok texts ∧
        ∀ otherwise, texts.getD otherwise = listOr otherwise (Value.lookup? name.toList entries)) ∨
      ¬ListableAt (Value.lookup? · entries) name.toList ∧
        texts? name entries = .error (.options .overlongInteger) := by
  unfold ListableAt texts?
  split
  · rename_i hnone
    exact .inl ⟨by simp [hnone], none, rfl, fun _ => by rw [hnone]; rfl⟩
  · rename_i hnull
    refine .inl ⟨?_, none, rfl, fun _ => by rw [hnull]; rfl⟩
    simp [hnull, Value.Listable, Value.members]
  · rename_i v hv hset
    simp only [hset, Option.some.injEq, forall_eq']
    by_cases h : v.Listable
    · refine .inl ⟨h, some (Options.textList v), by rw [Options.texts_of_listable h]; rfl, fun _ => ?_⟩
      rw [listOr]
      · rfl
      · exact fun heq => by simp_all
    · exact .inr ⟨h, by rw [Options.texts_of_not_listable h]; rfl⟩

theorem delimiters?_eq_some {d : Delimiters} :
    delimiters? entries = some d ↔
      ∃ v, Value.lookup? "template_delimiters".toList entries = some v ∧ d.DenotedBy v := by
  unfold delimiters?
  split
  · simp_all
  · rename_i v hset
    simp only [hset, Option.some.injEq, exists_eq_left', ← Options.delimitersOf_eq_some]
    split <;> simp_all

/-- The names of the settings that are lists of texts. -/
def listNames : List Text := ["attributes", "ignore_tags", "include", "exclude"].map String.toList

/-- The configuration holds what the values say. -/
structure Sets (v : Text → Option Value) (c : Config) : Prop where
  attributes : ∀ otherwise, c.attributes.getD otherwise = listOr otherwise (v "attributes".toList)
  ignoredTags : ∀ otherwise, c.ignoredTags.getD otherwise = listOr otherwise (v "ignore_tags".toList)
  included : c.included = listOr [] (v "include".toList)
  excluded : c.excluded = listOr [] (v "exclude".toList)
  delimiters : ∀ d, c.delimiters = some d ↔
    ∃ value, v "template_delimiters".toList = some value ∧ Delimiters.DenotedBy value d

/-- Every setting that should be a list of texts can be taken as one. -/
def AllListable (v : Text → Option Value) : Prop := ∀ name ∈ listNames, ListableAt v name

section
variable {v w : Text → Option Value}

theorem Sets.congr {c : Config} (h : Sets v c) (heq : ∀ name ∈ settingNames, v name = w name) :
    Sets w c := by
  have hnames : ∀ name ∈ settingNames, w name = v name := fun name hname => (heq name hname).symm
  constructor
  · rw [hnames _ (by simp [settingNames])]
    exact h.attributes
  · rw [hnames _ (by simp [settingNames])]
    exact h.ignoredTags
  · rw [hnames _ (by simp [settingNames])]
    exact h.included
  · rw [hnames _ (by simp [settingNames])]
    exact h.excluded
  · rw [hnames _ (by simp [settingNames])]
    exact h.delimiters

theorem AllListable.congr (heq : ∀ name ∈ settingNames, v name = w name) :
    AllListable v ↔ AllListable w := by
  have hnames : ∀ name ∈ listNames, name ∈ settingNames := by decide
  unfold AllListable ListableAt
  constructor
  · intro h name hname value hvalue
    exact h name hname value ((heq name (hnames name hname)).trans hvalue)
  · intro h name hname value hvalue
    exact h name hname value ((heq name (hnames name hname)).symm.trans hvalue)

end

/-- A section is refused for a list that cannot be written, and for nothing else. -/
theorem ofSection_cases (entries : Entries) :
    (AllListable (Value.lookup? · entries) ∧
        ∃ c, ofSection entries = .ok c ∧ Sets (Value.lookup? · entries) c) ∨
      ¬AllListable (Value.lookup? · entries) ∧
        ofSection entries = .error (.options .overlongInteger) := by
  unfold ofSection
  -- The settings are read one after the other, and the first that is refused decides.
  rcases texts?_cases entries "attributes" with ⟨h₁, attributes, heq, hattributes⟩ | ⟨hnot, heq⟩
  swap
  · exact .inr ⟨fun h => hnot (h _ (by simp [listNames])), by rw [heq]; rfl⟩
  rw [heq]
  rcases texts?_cases entries "ignore_tags" with ⟨h₂, ignoredTags, heq, hignored⟩ | ⟨hnot, heq⟩
  swap
  · exact .inr ⟨fun h => hnot (h _ (by simp [listNames])), by rw [heq]; rfl⟩
  rw [heq]
  rcases texts?_cases entries "include" with ⟨h₃, included, heq, hincluded⟩ | ⟨hnot, heq⟩
  swap
  · exact .inr ⟨fun h => hnot (h _ (by simp [listNames])), by rw [heq]; rfl⟩
  rw [heq]
  rcases texts?_cases entries "exclude" with ⟨h₄, excluded, heq, hexcluded⟩ | ⟨hnot, heq⟩
  swap
  · exact .inr ⟨fun h => hnot (h _ (by simp [listNames])), by rw [heq]; rfl⟩
  rw [heq]
  refine .inl ⟨?_, _, rfl, hattributes, hignored, hincluded [], hexcluded [],
    fun d => delimiters?_eq_some⟩
  simp only [AllListable, listNames, List.map_cons, List.map_nil, List.forall_mem_cons]
  exact ⟨h₁, h₂, h₃, h₄, by simp⟩

end

end Config

/-! ## The options of a run -/

namespace Command

open Config (document layered? listOr AllListable Sets)

/-- The documents that count for a run as those of the project and of the user. A configuration file
on the command line stands for both. -/
inductive Sources (t : FileTree) (userFile : Path) (a : Arguments) :
    Option Yaml.Document → Option Yaml.Document → Prop where
  | given {path : Text} {d : Option Yaml.Document} (hpath : a.config = some path)
    (hd : document t (Path.ofText path) = .ok d) : Sources t userFile a d none
  | userOnly {path : Text} {user : Option Yaml.Document} (hgiven : a.config = none)
    (hpath : a.paths.head? = some path)
    (hfind : Config.find? t ((Path.ofText path).resolve t.workingDirectory) = .ok none)
    (huser : document t userFile = .ok user) : Sources t userFile a none user
  | both {path : Text} {file : Path} {project user : Option Yaml.Document} (hgiven : a.config = none)
    (hpath : a.paths.head? = some path)
    (hfind : Config.find? t ((Path.ofText path).resolve t.workingDirectory) = .ok (some file))
    (hproject : document t file = .ok project) (huser : document t userFile = .ok user) :
    Sources t userFile a project user

/-- The sections of the documents are put together, the project's before the user's. -/
theorem config_of_sources {t : FileTree} {userFile : Path} {a : Arguments}
    {project user : Option Yaml.Document} (h : Sources t userFile a project user) :
    ∃ locate : Config → Config, (∀ v c, Sets v c → Sets v (locate c)) ∧
      config t userFile a = (Config.ofSection
        (Config.settingsOf (project.bind Config.Contents.ofDocument?) ++
          Config.settingsOf (user.bind Config.Contents.ofDocument?))).map locate := by
  unfold config Config.load
  cases h with
  | @given path _ hpath hd =>
    refine ⟨fun c => { c with
      projectFile := if (project.bind Config.Contents.ofDocument?).isSome then some path else none },
      fun v c h => ⟨h.1, h.2, h.3, h.4, h.5⟩, ?_⟩
    simp only [hpath, Config.ofFile, Config.contents, hd, Except.map, bind, Except.bind,
      Option.bind_none, Config.settingsOf, Option.map_none, Option.getD_none, List.append_nil]
    split <;> simp_all [pure, Except.pure]
  | userOnly hgiven hpath hfind huser =>
    refine ⟨fun c => { c with
      projectFile := none
      userFile := if (user.bind Config.Contents.ofDocument?).any fun c => !c.isEmpty
        then some userFile.text else none }, fun v c h => ⟨h.1, h.2, h.3, h.4, h.5⟩, ?_⟩
    simp only [hgiven, hpath, Config.ofPath, Config.contents, huser, hfind, Option.map_some,
      Except.map, Except.mapError, bind, Except.bind, pure, Except.pure, Option.bind_none]
    split <;> simp_all
  | @both path file _ _ hgiven hpath hfind hproject huser =>
    refine ⟨fun c => { c with
      projectFile := if (project.bind Config.Contents.ofDocument?).isSome then some file.text else none
      userFile := if (user.bind Config.Contents.ofDocument?).any fun c => !c.isEmpty
        then some userFile.text else none }, fun v c h => ⟨h.1, h.2, h.3, h.4, h.5⟩, ?_⟩
    simp only [hgiven, hpath, Config.ofPath, Config.contents, huser, hfind, hproject,
      Option.map_some, Except.map, Except.mapError, bind, Except.bind, pure, Except.pure]

/-- The options follow from the arguments and, for what these leave open, from the settings and the
defaults. -/
structure Effective (a : Arguments) (v : Text → Option Value) (o : Options) : Prop where
  attributes : o.attributes = match a.attributes with
    | some s => Options.textList (.string s)
    | none => listOr Options.defaultAttributes (v "attributes".toList)
  ignoredTags : o.ignoredTags = match a.ignoredTags with
    | some s => Options.textList (.string s)
    | none => listOr Options.defaultIgnoredTags (v "ignore_tags".toList)
  delimiters : ∀ d, o.delimiters = some d ↔ ∃ value, (match a.delimiters with
    | some s => some (.string s)
    | none => v "template_delimiters".toList) = some value ∧ Delimiters.DenotedBy value d

/-- The delimiters on the command line are neither whitespace nor a pair. -/
def MalformedFlag (a : Arguments) : Prop := ∃ s, a.delimiters = some s ∧ Options.Malformed s

theorem options_of_sets (a : Arguments) {v : Text → Option Value} {c : Config} (h : Sets v c) :
    (MalformedFlag a ∧ options a c = .error .delimiters) ∨
      ¬MalformedFlag a ∧ ∃ o, options a c = .ok o ∧ Effective a v o := by
  have hattributes : (a.attributes.map fun s => Options.textList (.string s)).getD
      c.toOptions.attributes = match a.attributes with
        | some s => Options.textList (.string s)
        | none => listOr Options.defaultAttributes (v "attributes".toList) := by
    cases a.attributes with
    | none => exact h.attributes _
    | some s => rfl
  have hignored : (a.ignoredTags.map fun s => Options.textList (.string s)).getD
      c.toOptions.ignoredTags = match a.ignoredTags with
        | some s => Options.textList (.string s)
        | none => listOr Options.defaultIgnoredTags (v "ignore_tags".toList) := by
    cases a.ignoredTags with
    | none => exact h.ignoredTags _
    | some s => rfl
  unfold options MalformedFlag
  cases hflag : a.delimiters with
  | none =>
    refine .inr ⟨by simp, _, rfl, hattributes, hignored, fun d => ?_⟩
    rw [hflag]
    exact h.delimiters d
  | some s =>
    rcases Options.delimitersOf_string_cases s with ⟨hbad, herror⟩ | ⟨hgood, d, hok⟩
    · exact .inl ⟨⟨s, rfl, hbad⟩, by simp [herror, bind, Except.bind]⟩
    · refine .inr ⟨by simpa using hgood, _, by simp only [hok]; rfl, hattributes, hignored,
        fun d' => ?_⟩
      rw [hflag]
      simp [← Options.delimitersOf_eq_some, hok]

/-- What the sections of the documents set together. -/
theorem lookup?_layered (project user : Option Yaml.Document) {name : Text}
    (hname : name ∈ Config.settingNames) :
    Value.lookup? name (Config.settingsOf (project.bind Config.Contents.ofDocument?) ++
      Config.settingsOf (user.bind Config.Contents.ofDocument?)) = layered? project user name := by
  rw [Value.lookup?_append, Config.lookup?_settings _ hname, Config.lookup?_settings _ hname, layered?]

/-- **Which options count.** Let the documents of the project and of the user be read, whatever they
hold. If some setting is a list with an item that cannot be written, there is no configuration. Else
there is one, what it includes and excludes is what the documents set, and the options are the
effective ones, unless the delimiters on the command line are malformed. -/
theorem options_of_documents {t : FileTree} {userFile : Path} {a : Arguments}
    {project user : Option Yaml.Document} (hsources : Sources t userFile a project user) :
    (¬AllListable (layered? project user) →
      config t userFile a = .error (.options .overlongInteger)) ∧
    (AllListable (layered? project user) → ∃ c, config t userFile a = .ok c ∧
      c.included = listOr [] (layered? project user "include".toList) ∧
      c.excluded = listOr [] (layered? project user "exclude".toList) ∧
      (MalformedFlag a → options a c = .error .delimiters) ∧
      (¬MalformedFlag a → ∃ o, options a c = .ok o ∧ Effective a (layered? project user) o)) := by
  obtain ⟨locate, hlocate, hconfig⟩ := config_of_sources hsources
  have hlistable := Config.AllListable.congr fun name hname => lookup?_layered project user hname
  rcases Config.ofSection_cases (Config.settingsOf (project.bind Config.Contents.ofDocument?) ++
      Config.settingsOf (user.bind Config.Contents.ofDocument?))
    with ⟨hall, c, hc, hsets⟩ | ⟨hnot, herror⟩
  · refine ⟨fun hnot => absurd (hlistable.mp hall) hnot, fun _ =>
      ⟨locate c, by rw [hconfig, hc]; rfl, ?_⟩⟩
    have hsets := (hlocate _ _ hsets).congr fun name hname => lookup?_layered project user hname
    refine ⟨hsets.included, hsets.excluded, ?_⟩
    rcases options_of_sets a hsets with ⟨hbad, hoptions⟩ | ⟨hgood, hoptions⟩
    · exact ⟨fun _ => hoptions, fun h => absurd hbad h⟩
    · exact ⟨fun h => absurd h hgood, fun _ => hoptions⟩
  · exact ⟨fun _ => by rw [hconfig, herror]; rfl, fun hall => absurd (hlistable.mpr hall) hnot⟩

/-- A flag counts more than the project's file, and that more than the user's. -/
theorem options_of_documents_layered :
    ∃ t userFile a c o, config t userFile a = .ok c ∧ options a c = .ok o ∧
      a.attributes = some "alt, x".toList ∧ o.attributes = ["alt".toList, "x".toList] ∧
      o.ignoredTags = ["pre".toList] := by
  let t : FileTree := ⟨.directory [("a.html".toList, .file (.ok [])),
    ("u".toList, .file (.ok (Utf8.encode "lint: \x7bignore_tags: b\x7d".toList))),
    (".i18nlint.yml".toList,
      .file (.ok (Utf8.encode "lint: \x7bignore_tags: pre\x7d".toList)))], [], []⟩
  let userFile : Path := ⟨true, ["u".toList]⟩
  let file : Path := ⟨true, [".i18nlint.yml".toList]⟩
  let a : Arguments := ⟨["a.html".toList], some "alt, x".toList, none, none, .text, none, [], none,
    false, true, false⟩
  have hread : ∀ p, (document t p).isOk = true → document t p = .ok (document t p).toOption.join := by
    intro p hp
    cases h : document t p with
    | error e => rw [h] at hp; cases hp
    | ok d => rfl
  have hsources : Sources t userFile a (document t file).toOption.join
      (document t userFile).toOption.join :=
    .both rfl rfl (by decide +kernel) (hread file (by decide +kernel))
      (hread userFile (by decide +kernel))
  have hlistable : AllListable (layered? (document t file).toOption.join
      (document t userFile).toOption.join) := by
    have hall : (Config.listNames.all fun name => (layered? (document t file).toOption.join
      (document t userFile).toOption.join name).all fun v => v.members.all Value.isWritable) = true := by
      decide +kernel
    intro name hname value hvalue x hx
    have := List.all_eq_true.mp hall name hname
    rw [hvalue] at this
    exact List.all_eq_true.mp this x hx
  obtain ⟨c, hc, -, -, -, hoptions⟩ := (options_of_documents hsources).2 hlistable
  obtain ⟨o, ho, heffective⟩ := hoptions (by rintro ⟨s, ⟨⟩, -⟩)
  exact ⟨t, userFile, a, c, o, hc, ho, rfl, heffective.attributes.trans (by decide +kernel),
    heffective.ignoredTags.trans (by decide +kernel)⟩

/-- A list with an integer of more than 4300 digits is a value that a run does not get over. -/
theorem overlong_setting_fails :
    let lint : Yaml.Object := .map [(.string "exclude".toList, .object 2)]
    let d : Yaml.Document := ⟨#[.map [(.string "lint".toList, .object 1)], lint,
      .list [.scalar (.int (Int.ofNat (Nat.pow 16 3600)))]], .object 0⟩
    Config.ofSection (Config.settingsOf ((some d).bind Config.Contents.ofDocument?) ++
      Config.settingsOf none) = .error (.options .overlongInteger) := by
  decide +kernel

end Command

end Untranslated
