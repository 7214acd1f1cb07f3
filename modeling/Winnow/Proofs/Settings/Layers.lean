import Winnow.Proofs.Settings.Running

/-!
# The precedence of layers

After a reset and a list of documents, a setting has what the topmost layer gives it.  Values and
descriptions come from different layers: a document that names a setting gives it a value and
perhaps a description, and the environment gives values only.

* `Document.Names`, `Document.valueFor?`, `Document.descriptionFor?` : what a document has for a
  setting;
* `Settings.setting_overlay`, `Settings.setting_overlays` : a setting under one document, and under
  a list of them;
* `Settings.setting_of_loadEnvironment` : a setting under the environment;
* `Settings.Succeeds` : every call of a run succeeds;
* `Settings.run_layers` : what each setting is after a reset and a list of documents.
-/

namespace Winnow

open Outcome

/-! ## What a document has for a setting -/

namespace Document

variable {key : SettingKey} {d : Document}

/-- A document names a setting. -/
def Names (d : Document) (key : SettingKey) : Prop := ∃ e, d.entry? key.word = some e

/-- The value that a document gives a setting. -/
def valueFor? (d : Document) (key : SettingKey) : Option Value :=
  (d.entry? key.word).bind fun e => (e.entry? valueKey).bind value?

/-- The description that a document gives a setting. -/
def descriptionFor? (d : Document) (key : SettingKey) : Option Text :=
  (d.entry? key.word).bind fun e =>
    (e.entry? descriptionKey).bind fun t => t.value?.bind Settings.textOf?

/-- A document of settings gives a value to those that it names. -/
theorem IsLayer.exists_valueFor? (hd : d.IsLayer) (hnames : d.Names key) :
    ∃ v, d.valueFor? key = some v := by
  obtain ⟨e, he⟩ := hnames
  obtain ⟨value, v, hvalue, hv, -⟩ := (hd.setting key e he).value
  exact ⟨v, by simp only [valueFor?, he, hvalue, Option.bind_some, hv]⟩

theorem valueFor?_of_not_names (h : ¬ d.Names key) : d.valueFor? key = none := by
  have hentry : d.entry? key.word = none := by
    by_contra hsome
    exact h (Option.ne_none_iff_exists'.mp hsome)
  rw [valueFor?, hentry, Option.bind_none]

/-- A document of named values gives each of them to the setting of that name, without a
description. -/
theorem valueFor?_ofEntries {entries : List (Text × Value)} (h : (entries.map Prod.fst).Nodup)
    (v : Value) : (ofEntries valueKey entries).valueFor? key = some v ↔ (key.word, v) ∈ entries := by
  have hread {i : Nat} {name : Text} {w : Value} (hplace : entries[i]? = some (name, w)) :
      let e := (ofEntries valueKey entries).part (2 * i + 1)
      (e.entry? valueKey).bind value? = some w := by
    intro e
    obtain ⟨⟨value, hvalue, hw⟩, -⟩ := setting_part_ofEntries hplace
    rw [show e.entry? valueKey = some value from hvalue, Option.bind_some, hw]
  constructor
  · intro hvalue
    obtain ⟨e, he, hvalue⟩ := Option.bind_eq_some_iff.mp hvalue
    obtain ⟨i, w, hplace, rfl⟩ := of_entry?_ofEntries he
    obtain rfl := Option.some.inj ((hread hplace).symm.trans hvalue)
    exact List.mem_of_getElem? hplace
  · intro hmem
    obtain ⟨e, he⟩ := exists_entry?_ofEntries valueKey hmem
    obtain ⟨i, w, hplace, rfl⟩ := of_entry?_ofEntries he
    have hsame : (key.word, w) = (key.word, v) :=
      List.inj_on_of_nodup_map h (List.mem_of_getElem? hplace) hmem rfl
    cases hsame
    rw [valueFor?, he, Option.bind_some, hread hplace]

theorem descriptionFor?_ofEntries (entries : List (Text × Value)) :
    (ofEntries valueKey entries).descriptionFor? key = none := by
  unfold descriptionFor?
  cases hentry : entry? (ofEntries valueKey entries) key.word with
  | none => rfl
  | some e =>
    obtain ⟨i, w, hplace, rfl⟩ := of_entry?_ofEntries hentry
    rw [Option.bind_some, (setting_part_ofEntries hplace).2, Option.bind_none]

end Document

namespace Settings

variable {s t : Settings} {environment : Environment} {key : SettingKey}

/-! ## Documents -/

/-- A document replaces the value and the description that it gives. -/
theorem setting_overlay (s : Settings) (d : Document) (key : SettingKey) :
    (s.overlay d).setting key =
      ⟨(d.valueFor? key).getD (s.setting key).value,
        (d.descriptionFor? key).getD (s.setting key).description⟩ := by
  unfold overlay Document.valueFor? Document.descriptionFor?
  dsimp only
  cases d.entry? key.word with
  | none => rfl
  | some e => rfl

/-- **Of several documents, the last that gives a value gives the one that counts**, and so it is for
descriptions. -/
theorem setting_overlays (s : Settings) (documents : List Document) (key : SettingKey) :
    (documents.foldl overlay s).setting key =
      ⟨(documents.reverse.findSome? fun d => d.valueFor? key).getD (s.setting key).value,
        (documents.reverse.findSome? fun d => d.descriptionFor? key).getD
          (s.setting key).description⟩ := by
  induction documents generalizing s with
  | nil => rfl
  | cons d ds ih =>
    rw [List.foldl_cons, ih, setting_overlay, List.reverse_cons, List.findSome?_append,
      List.findSome?_append, Option.getD_or, Option.getD_or]
    simp only [List.findSome?_singleton]

/-! ## The environment -/

/-- The value that a text stands for in the place of another value: an integer for an integer, and
otherwise the text itself. -/
def typedLike? (old : Value) (text : Text) : Option Value :=
  match old with
  | .int _ => (Numeral.toInt text).toOption.map .int
  | _ => some (.text text)

/-- The value of a setting by the text of its variable is typed like the bundled one. -/
theorem variableValue_bundled (key : SettingKey) (text : Text) (v : Value) :
    variableValue key (bundled.setting key).value text = .ok v ↔
      typedLike? (bundled.setting key).value text = some v := by
  have hinteger : ∀ n : Int, variableValue key (.int n) text = .ok v ↔
      typedLike? (.int n) text = some v := by
    intro n
    have hread : readsInteger (.int n) = true := rfl
    unfold variableValue typedLike?
    rw [if_pos hread]
    dsimp only
    cases Numeral.toInt text with
    | error fault => exact iff_of_false nofun nofun
    | ok m =>
      show Except.ok (Value.int m) = .ok v ↔ some (Value.int m) = some v
      rw [Except.ok.injEq, Option.some.injEq]
  have htext : ∀ t : Text, variableValue key (.text t) text = .ok v ↔
      typedLike? (.text t) text = some v := by
    intro t
    show Except.ok (Value.text text) = .ok v ↔ some (Value.text text) = some v
    rw [Except.ok.injEq, Option.some.injEq]
  cases key with
  | textLength => exact hinteger 1000
  | listLength => exact hinteger 100
  | _ => exact htext _

/-- **The environment gives the values of the variables that are set**, and no descriptions. -/
theorem setting_of_loadEnvironment (h : s.loadEnvironment environment = .ok t) (key : SettingKey) :
    (t.setting key).description = (s.setting key).description ∧
      (environment.lookup key.variableName = none →
        (t.setting key).value = (s.setting key).value) ∧
      ∀ text, environment.lookup key.variableName = some text →
        variableValue key (s.setting key).value text = .ok (t.setting key).value := by
  obtain ⟨d, hd, h⟩ := of_bind_ok h
  obtain ⟨found, hfound, hd⟩ := of_bind_ok hd
  cases hd
  obtain ⟨-, rfl⟩ := loadFrom_iff.mp h
  have hnames := (names_sublist (mapM_ok_iff.mp hfound)).nodup SettingKey.nodup_words
  rw [setting_overlay, Document.descriptionFor?_ofEntries]
  refine ⟨rfl, fun hunset => ?_, fun text hset => ?_⟩
  · have hnone : (Document.ofEntries Document.valueKey (found.filterMap id)).valueFor? key = none := by
      refine Option.eq_none_iff_forall_ne_some.mpr fun v hv => ?_
      obtain ⟨o, ho, rfl⟩ := List.mem_filterMap.mp
        ((Document.valueFor?_ofEntries hnames v).mp hv)
      obtain ⟨k, -, hk⟩ := mem_of_mapM_ok hfound ho
      obtain ⟨hword, text, hset, -⟩ := of_variableEntry hk
      obtain rfl := SettingKey.word_injective hword
      rw [hunset] at hset
      cases hset
    rw [hnone]
    rfl
  · obtain ⟨o, hmem, ho⟩ := ok_of_mapM_ok hfound (SettingKey.mem_all key)
    obtain ⟨v, hv, rfl⟩ := (variableEntry_some hset).mp ho
    have hsome := (Document.valueFor?_ofEntries hnames v).mpr (List.mem_filterMap.mpr ⟨_, hmem, rfl⟩)
    rw [hsome]
    exact hv

/-! ## Runs -/

/-- Every call of a run succeeds. -/
def Succeeds (s : Settings) : List SettingsCall → Prop
  | [] => True
  | call :: calls => (s.perform call).1 = .ok () ∧ (s.perform call).2.Succeeds calls

/-- The calls that load documents. -/
def loads (documents : List (Text × Document)) : List SettingsCall :=
  documents.map fun d => .load d.1 (.ok d.2)

/-- Documents of settings are loaded one after the other. -/
theorem run_loads (s : Settings) (documents : List (Text × Document))
    (h : ∀ d ∈ documents, d.2.IsLayer) :
    s.Succeeds (loads documents) ∧
      s.run (loads documents) = (documents.map Prod.snd).foldl overlay s := by
  induction documents generalizing s with
  | nil => exact ⟨trivial, rfl⟩
  | cons d ds ih =>
    obtain ⟨hd, hds⟩ := List.forall_mem_cons.mp h
    have hload : s.load d.1 d.2 = .ok (s.overlay d.2) := loadFrom_iff.mpr ⟨hd, rfl⟩
    have hperform : s.perform (.load d.1 (.ok d.2)) = (.ok (), s.overlay d.2) :=
      congrArg s.attempt hload
    obtain ⟨hsucceeds, hrun⟩ := ih (s.overlay d.2) hds
    refine ⟨⟨congrArg Prod.fst hperform, ?_⟩, ?_⟩
    · rw [hperform]
      exact hsucceeds
    · refine Eq.trans ?_ hrun
      exact congrArg (fun r => Settings.run r.2 (loads ds)) hperform

/-- A reset leaves what the environment makes of the bundled settings. -/
theorem perform_reset_ok (h : bundled.loadEnvironment environment = .ok t) :
    s.perform (.reset environment) = (.ok (), t) := by
  unfold perform Settings.reset
  dsimp only
  rw [h]

theorem describe?_word (s : Settings) (key : SettingKey) :
    s.describe? key.word = some (s.setting key).description := by
  unfold describe?
  rw [SettingKey.ofText?_word, Option.map_some]

theorem get_word (s : Settings) (key : SettingKey) :
    s.get key.word = .ok (s.setting key).value :=
  get_ok_iff.mpr ⟨key, rfl, rfl⟩

/-- The last of some documents that gives something gives what counts. -/
theorem findSome?_of_last {α : Type} (give : Document → Option α) {a : α}
    {before after : List (Text × Document)} {d : Text × Document} (hd : give d.2 = some a)
    (hafter : ∀ e ∈ after, give e.2 = none) :
    ((before ++ d :: after).map Prod.snd).reverse.findSome? give = some a := by
  have hnone : (after.map Prod.snd).reverse.findSome? give = none := by
    refine List.findSome?_eq_none_iff.mpr fun document hdocument => ?_
    obtain ⟨e, he, rfl⟩ := List.mem_map.mp (List.mem_reverse.mp hdocument)
    exact hafter e he
  rw [List.map_append, List.map_cons, List.reverse_append, List.reverse_cons, List.findSome?_append,
    List.findSome?_append, hnone, List.findSome?_singleton, hd]
  rfl

theorem findSome?_of_none {α : Type} (give : Document → Option α)
    {documents : List (Text × Document)} (h : ∀ d ∈ documents, give d.2 = none) :
    (documents.map Prod.snd).reverse.findSome? give = none := by
  refine List.findSome?_eq_none_iff.mpr fun document hdocument => ?_
  obtain ⟨d, hd, rfl⟩ := List.mem_map.mp (List.mem_reverse.mp hdocument)
  exact h d hd

/-- **Later layers take precedence.**  A reset to an environment whose variables are admitted, and
then the documents of any list, are loaded.  After that a setting has the value that the last
document which names it gives it; if none does, what the text of its variable stands for, typed like
the bundled value; and without such a variable the bundled value.  Its description is that of the
last document which gives it one, and else the bundled description. -/
theorem run_layers (s : Settings) {environment : Environment} {documents : List (Text × Document)}
    (henvironment : ∀ key, bundled.VariableAdmitted environment key)
    (hdocuments : ∀ d ∈ documents, d.2.IsLayer) :
    let calls := .reset environment :: loads documents
    let t := s.run calls
    s.Succeeds calls ∧ ∀ key : SettingKey,
      (∀ before d after, documents = before ++ d :: after → d.2.Names key →
        (∀ e ∈ after, ¬ e.2.Names key) →
          ∃ v, d.2.valueFor? key = some v ∧ t.get key.word = .ok v) ∧
      ((∀ d ∈ documents, ¬ d.2.Names key) →
        (∀ text, environment.lookup key.variableName = some text →
          ∃ v, typedLike? (bundled.setting key).value text = some v ∧ t.get key.word = .ok v) ∧
        (environment.lookup key.variableName = none →
          t.get key.word = .ok (bundled.setting key).value)) ∧
      (∀ before d after description, documents = before ++ d :: after →
        d.2.descriptionFor? key = some description →
        (∀ e ∈ after, e.2.descriptionFor? key = none) →
          t.describe? key.word = some description) ∧
      ((∀ d ∈ documents, d.2.descriptionFor? key = none) →
        t.describe? key.word = some (bundled.setting key).description) := by
  intro calls t
  obtain ⟨base, hbase⟩ := loadEnvironment_iff.mpr henvironment
  have hreset : s.perform (.reset environment) = (.ok (), base) := perform_reset_ok hbase
  obtain ⟨hsucceeds, hloads⟩ := run_loads base documents hdocuments
  have hrun : t = (documents.map Prod.snd).foldl overlay base := by
    rw [← hloads]
    exact congrArg (fun r => Settings.run r.2 (loads documents)) hreset
  refine ⟨⟨congrArg Prod.fst hreset, by rw [hreset]; exact hsucceeds⟩, fun key => ?_⟩
  obtain ⟨hdescription, hunset, hset⟩ := setting_of_loadEnvironment hbase key
  rw [get_word, describe?_word, hrun, setting_overlays]
  refine ⟨?_, fun hnone => ?_, ?_, fun hnone => ?_⟩
  · rintro before d after rfl hnames hafter
    obtain ⟨v, hv⟩ := (hdocuments d (by simp)).exists_valueFor? hnames
    refine ⟨v, hv, ?_⟩
    rw [findSome?_of_last (fun d => d.valueFor? key) hv fun e he =>
        Document.valueFor?_of_not_names (hafter e he), Option.getD_some]
  · rw [findSome?_of_none (fun d => d.valueFor? key) fun d hd =>
        Document.valueFor?_of_not_names (hnone d hd), Option.getD_none]
    refine ⟨fun text htext => ?_, fun hlookup => by rw [hunset hlookup]⟩
    exact ⟨_, (variableValue_bundled key text _).mp (hset text htext), rfl⟩
  · rintro before d after description rfl hd hafter
    rw [findSome?_of_last (fun d => d.descriptionFor? key) hd hafter, Option.getD_some]
  · rw [findSome?_of_none (fun d => d.descriptionFor? key) hnone, Option.getD_none, hdescription]

/-- A document with a length for lists and a description of it. -/
def shortLists : Document :=
  ⟨#[.mapping [(.value (.text "max_array_length"), 1)],
      .mapping [(.value (.text Document.valueKey), 2), (.value (.text Document.descriptionKey), 3)],
      .atom (.value (.int 5)), .atom (.value (.text "Short lists."))], 0⟩

/-- A document with another length for lists and nothing else. -/
def longerLists : Document := .ofEntries Document.valueKey [("max_array_length", .int 9)]

theorem shortLists_isLayer : shortLists.IsLayer where
  mapping := ⟨_, rfl, List.forall_mem_singleton.mpr ⟨.listLength, rfl⟩⟩
  setting := by
    intro key e he
    cases key with
    | listLength =>
      cases he
      refine ⟨⟨_, rfl⟩, fun d hd => ?_, _, .int 5, rfl, rfl, 5, by decide, .inl rfl⟩
      cases hd
      exact ⟨"Short lists.", rfl⟩
    | _ => cases he

theorem longerLists_isLayer : longerLists.IsLayer :=
  (Document.isLayer_ofEntries_iff (by simp)).mpr
    (List.forall_mem_singleton.mpr ⟨.listLength, rfl, 9, by decide, .inl rfl⟩)

/-- A length that two documents and the environment give, and a key that only the environment
gives. -/
theorem run_layers_shortLists :
    let environment : Environment :=
      [("FILTER_COMPOSER_MAX_ARRAY_LENGTH", "7"), ("FILTER_COMPOSER_FILTER_STORE_KEY", "envFilters")]
    let documents : List (Text × Document) :=
      [("short.yaml", shortLists), ("longer.yaml", longerLists)]
    let t := bundled.run (.reset environment :: loads documents)
    t.get "max_array_length" = .ok (.int 9) ∧
      t.describe? "max_array_length" = some "Short lists." ∧
      t.get "filter_store_key" = .ok (.text "envFilters") ∧
      t.get "max_string_value_length" = .ok (.int 1000) := by
  intro environment documents t
  have hlength : environment.lookup SettingKey.listLength.variableName = some "7" := by
    decide +kernel
  have hkey : environment.lookup SettingKey.storeKey.variableName = some "envFilters" := by
    decide +kernel
  have hunset : environment.lookup SettingKey.textLength.variableName = none ∧
      environment.lookup SettingKey.separator.variableName = none := by decide +kernel
  have henvironment : ∀ key, bundled.VariableAdmitted environment key := by
    intro key text htext
    cases key with
    | listLength =>
      obtain rfl := Option.some.inj (hlength.symm.trans htext)
      exact ⟨.int 7, rfl, 7, by decide, .inl rfl⟩
    | textLength => cases hunset.1.symm.trans htext
    | separator => cases hunset.2.symm.trans htext
    | _ => exact ⟨.text text, rfl, text, rfl⟩
  have hdocuments : ∀ d ∈ documents, d.2.IsLayer :=
    List.forall_mem_cons.mpr ⟨shortLists_isLayer, List.forall_mem_singleton.mpr longerLists_isLayer⟩
  have hnames : longerLists.Names .listLength :=
    Document.exists_entry?_ofEntries _ (List.mem_singleton_self _)
  have hvalue : longerLists.valueFor? .listLength = some (.int 9) :=
    (Document.valueFor?_ofEntries (by simp) _).mpr (List.mem_singleton_self _)
  have hdescribed : shortLists.descriptionFor? .listLength = some "Short lists." := rfl
  have hundescribed : longerLists.descriptionFor? .listLength = none :=
    Document.descriptionFor?_ofEntries _
  have hothers : ∀ key : SettingKey, key ≠ .listLength → ∀ d ∈ documents, ¬ d.2.Names key := by
    rintro key hkey d hd ⟨e, he⟩
    have hnone : ∀ d ∈ documents, Document.entry? d.2 key.word = none := by
      cases key with
      | listLength => exact absurd rfl hkey
      | _ => exact List.forall_mem_cons.mpr ⟨rfl, List.forall_mem_singleton.mpr rfl⟩
    exact Option.some_ne_none e (he.symm.trans (hnone d hd))
  obtain ⟨-, hsettings⟩ := run_layers bundled henvironment hdocuments
  obtain ⟨hlast, -, hdescription, -⟩ := hsettings .listLength
  obtain ⟨v, hv, hget⟩ := hlast [("short.yaml", shortLists)] ("longer.yaml", longerLists) [] rfl
    hnames nofun
  obtain rfl := Option.some.inj (hvalue.symm.trans hv)
  obtain ⟨hset, -⟩ := (hsettings .storeKey).2.1 (hothers .storeKey nofun)
  obtain ⟨w, hw, hstore⟩ := hset "envFilters" hkey
  obtain rfl := Option.some.inj hw
  exact ⟨hget,
    hdescription [] ("short.yaml", shortLists) [("longer.yaml", longerLists)] _ rfl hdescribed
      (List.forall_mem_singleton.mpr hundescribed),
    hstore, ((hsettings .textLength).2.1 (hothers .textLength nofun)).2 hunset.1⟩

end Settings

end Winnow
