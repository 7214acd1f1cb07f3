import Mathlib.Data.List.Nodup
import Winnow.Proofs.Settings.Acceptance

/-!
# The layer of the environment

The variables that are set make a document of named values, which is loaded like any other.

* `Document.of_entry?_ofEntries`, `Document.exists_entry?_ofEntries` : what a document of named values
  has under a name;
* `Document.isLayer_ofEntries_iff` : when it is a layer of settings;
* `Settings.VariableAdmitted` : the variable of a setting is not set, or its text can be read as a
  value that the rule of the setting admits;
* `Settings.loadEnvironment_iff` : the environment is loaded exactly if that is so for every setting.
-/

namespace Winnow

open Outcome
open Yaml (Atom)

namespace SettingKey

theorem ofText?_word (key : SettingKey) : ofText? key.word = some key := by
  cases key <;> rfl

theorem word_injective {k l : SettingKey} (h : k.word = l.word) : k = l :=
  Option.some.inj ((ofText?_word k).symm.trans (h ▸ ofText?_word l))

theorem nodup_words : (all.map word).Nodup := by decide

end SettingKey

/-! ## Documents of named values -/

namespace Document

variable {key name : Text} {entries : List (Text × Value)} {i : Nat} {v : Value}

/-- Two items for each element: those of an element stand at twice its place. -/
theorem getElem?_flatMap_pair {α β : Type} (f g : α → β) (xs : List α) (i : Nat) :
    (xs.flatMap fun x => [f x, g x])[2 * i]? = xs[i]?.map f ∧
      (xs.flatMap fun x => [f x, g x])[2 * i + 1]? = xs[i]?.map g := by
  induction xs generalizing i with
  | nil => exact ⟨rfl, rfl⟩
  | cons x xs ih =>
    cases i with
    | zero => exact ⟨rfl, rfl⟩
    | succ i => exact ih i

theorem ofEntries_eq (key : Text) (entries : List (Text × Value)) :
    ofEntries key entries =
      ⟨(Cell.mapping (entries.zipIdx.map fun e => (Atom.value (.text e.1.1), 2 * e.2 + 1)) ::
        entries.zipIdx.flatMap fun e =>
          [Cell.mapping [(.value (.text key), 2 * e.2 + 2)], .atom (.value e.1.2)]).toArray, 0⟩ := by
  unfold ofEntries
  dsimp only
  rw [List.range_eq_range', ← List.zipIdx_eq_zip_range']

theorem cell_ofEntries (key : Text) (entries : List (Text × Value)) :
    (ofEntries key entries).cell =
      .mapping (entries.zipIdx.map fun e => (.value (.text e.1.1), 2 * e.2 + 1)) := by
  rw [ofEntries_eq]
  rfl

/-- The cells of the name and of the value that stand at a place. -/
theorem cell_part_ofEntries (key : Text) (h : entries[i]? = some (name, v)) :
    ((ofEntries key entries).part (2 * i + 1)).cell =
        .mapping [(.value (.text key), 2 * i + 2)] ∧
      ((ofEntries key entries).part (2 * i + 2)).cell = .atom (.value v) := by
  obtain ⟨hname, hvalue⟩ := getElem?_flatMap_pair
    (fun e : (Text × Value) × Nat => Cell.mapping [(.value (.text key), 2 * e.2 + 2)])
    (fun e => .atom (.value e.1.2)) entries.zipIdx i
  rw [List.getElem?_zipIdx, h] at hname hvalue
  rw [ofEntries_eq]
  simp only [cell, part, Array.getD_eq_getD_getElem?, List.getElem?_toArray,
    List.getElem?_cons_succ, hname, hvalue]
  simp

/-- What a document of named values has under a name is at the place of the name. -/
theorem of_entry?_ofEntries {e : Document} (h : entry? (ofEntries key entries) name = some e) :
    ∃ i v, entries[i]? = some (name, v) ∧ e = (ofEntries key entries).part (2 * i + 1) := by
  obtain ⟨cells, hcell, k, hk, htext, rfl⟩ := entry?_of_mapping h
  rw [cell_ofEntries] at hcell
  cases hcell
  obtain ⟨⟨⟨n, v⟩, i⟩, hmem, rfl⟩ := List.mem_map.mp hk
  obtain rfl : name = n := by simpa [Atom.isText] using htext
  exact ⟨i, v, List.mem_zipIdx_iff_getElem?.mp hmem, rfl⟩

/-- A document of named values has something under each of its names. -/
theorem exists_entry?_ofEntries (key : Text) (h : (name, v) ∈ entries) :
    ∃ e, entry? (ofEntries key entries) name = some e := by
  obtain ⟨i, hplace⟩ := List.mem_iff_getElem?.mp h
  have hmem : ((name, v), i) ∈ entries.zipIdx := List.mem_zipIdx_iff_getElem?.mpr hplace
  unfold entry?
  rw [cell_ofEntries]
  refine Option.isSome_iff_exists.mp ?_
  simp only [Option.isSome_map, List.find?_isSome]
  exact ⟨_, List.mem_map_of_mem hmem, by simp [Atom.isText]⟩

/-- A part of a document of named values under a name has the value and no description. -/
theorem setting_part_ofEntries (h : entries[i]? = some (name, v)) :
    let e := (ofEntries valueKey entries).part (2 * i + 1)
    (∃ value, e.entry? valueKey = some value ∧ value.value? = some v) ∧
      e.entry? descriptionKey = none := by
  intro e
  obtain ⟨hcell, hatom⟩ := cell_part_ofEntries valueKey h
  have hentry (key : Text) : e.entry? key =
      (List.find? (fun c => Atom.isText key c.1)
        [(Atom.value (.text valueKey), 2 * i + 2)]).map fun c => e.part c.2 := by
    unfold entry?
    rw [hcell]
  refine ⟨⟨(ofEntries valueKey entries).part (2 * i + 2), hentry valueKey, ?_⟩,
    hentry descriptionKey⟩
  unfold value?
  rw [hatom]

/-- The part of a document of named values under a name is a setting if its rule admits the
value. -/
theorem isSetting_part_iff {k : SettingKey} (h : entries[i]? = some (name, v)) :
    ((ofEntries valueKey entries).part (2 * i + 1)).IsSetting k ↔ k.rule.Admits v := by
  obtain ⟨⟨value, hvalue, hread⟩, hdescription⟩ := setting_part_ofEntries h
  constructor
  · rintro ⟨-, -, e, w, he, hw, hadmits⟩
    obtain rfl := Option.some.inj (hvalue.symm.trans he)
    obtain rfl := Option.some.inj (hread.symm.trans hw)
    exact hadmits
  · intro hadmits
    refine ⟨⟨_, (cell_part_ofEntries valueKey h).1⟩, fun e he => ?_, value, v, hvalue, hread, hadmits⟩
    rw [hdescription] at he
    cases he

/-- **A document of named values is a layer exactly if every name is that of a setting whose rule
admits the value.** -/
theorem isLayer_ofEntries_iff (hdistinct : (entries.map Prod.fst).Nodup) :
    (ofEntries valueKey entries).IsLayer ↔
      ∀ e ∈ entries, ∃ k : SettingKey, k.word = e.1 ∧ k.rule.Admits e.2 := by
  constructor
  · rintro ⟨⟨cells, hcell, hkeys⟩, hsettings⟩ ⟨name, v⟩ hmem
    rw [cell_ofEntries] at hcell
    cases hcell
    obtain ⟨i, hplace⟩ := List.mem_iff_getElem?.mp hmem
    have hthere : ((name, v), i) ∈ entries.zipIdx := List.mem_zipIdx_iff_getElem?.mpr hplace
    obtain ⟨k, hk⟩ := hkeys _ (List.mem_map_of_mem hthere)
    obtain rfl : k.word = name := by simpa [Atom.isText] using hk
    obtain ⟨e, he⟩ := exists_entry?_ofEntries valueKey hmem
    have hsetting := hsettings k e he
    obtain ⟨j, w, hother, rfl⟩ := of_entry?_ofEntries he
    have hsame : (k.word, w) = (k.word, v) :=
      List.inj_on_of_nodup_map hdistinct (List.mem_of_getElem? hother) hmem rfl
    cases hsame
    exact ⟨k, rfl, (isSetting_part_iff hother).mp hsetting⟩
  · intro h
    refine ⟨⟨_, cell_ofEntries _ _, ?_⟩, ?_⟩
    · intro c hc
      obtain ⟨⟨⟨n, v⟩, i⟩, hmem, rfl⟩ := List.mem_map.mp hc
      have hplace := List.mem_zipIdx_iff_getElem?.mp hmem
      obtain ⟨k, hk, -⟩ := h _ (List.mem_of_getElem? hplace)
      exact ⟨k, by simp [Atom.isText, hk]⟩
    · intro k e he
      obtain ⟨i, v, hplace, rfl⟩ := of_entry?_ofEntries he
      obtain ⟨l, hl, hadmits⟩ := h _ (List.mem_of_getElem? hplace)
      obtain rfl := SettingKey.word_injective hl
      exact (isSetting_part_iff hplace).mpr hadmits

end Document

/-! ## Variables -/

namespace Settings

variable {s : Settings} {environment : Environment} {key : SettingKey}

/-- The variable of a setting is not set, or its text can be read as a value that the rule of the
setting admits. -/
def VariableAdmitted (s : Settings) (environment : Environment) (key : SettingKey) : Prop :=
  ∀ text, environment.lookup key.variableName = some text →
    ∃ v, variableValue key (s.setting key).value text = .ok v ∧ key.rule.Admits v

theorem variableEntry_none (h : environment.lookup key.variableName = none) :
    s.variableEntry environment key = .ok none := by
  unfold variableEntry
  rw [h]

theorem variableEntry_some {text : Text} {o : Option (Text × Value)}
    (h : environment.lookup key.variableName = some text) :
    s.variableEntry environment key = .ok o ↔
      ∃ v, variableValue key (s.setting key).value text = .ok v ∧ o = some (key.word, v) := by
  unfold variableEntry
  rw [h]
  dsimp only
  cases variableValue key (s.setting key).value text with
  | error fault => exact iff_of_false nofun nofun
  | ok v =>
    show Except.ok (some (key.word, v)) = .ok o ↔ _
    simp [eq_comm]

/-- The name that a setting gets from the environment is its own. -/
theorem of_variableEntry {name : Text} {v : Value}
    (h : s.variableEntry environment key = .ok (some (name, v))) :
    name = key.word ∧ ∃ text, environment.lookup key.variableName = some text ∧
      variableValue key (s.setting key).value text = .ok v := by
  cases hlookup : environment.lookup key.variableName with
  | none =>
    rw [variableEntry_none hlookup] at h
    cases h
  | some text =>
    obtain ⟨w, hw, heq⟩ := (variableEntry_some hlookup).mp h
    cases heq
    exact ⟨rfl, text, rfl, hw⟩

/-- The names that the environment gives are among those of the settings, in their order. -/
theorem names_sublist {keys : List SettingKey} {entries : List (Option (Text × Value))}
    (h : List.Forall₂ (fun key e => s.variableEntry environment key = .ok e) keys entries) :
    ((entries.filterMap id).map Prod.fst).Sublist (keys.map SettingKey.word) := by
  induction h with
  | nil => exact List.Sublist.refl _
  | cons hentry _ ih =>
    rename_i e _ _ _
    cases e with
    | none => exact ih.cons _
    | some e =>
      obtain ⟨hname, -⟩ := of_variableEntry hentry
      simp only [List.filterMap_cons_some (f := id) rfl, List.map_cons, hname]
      exact ih.cons_cons _

/-- **The environment is loaded exactly if the variable of every setting is admitted.** -/
theorem loadEnvironment_iff :
    (∃ t, s.loadEnvironment environment = .ok t) ↔ ∀ key, s.VariableAdmitted environment key := by
  constructor
  · rintro ⟨t, h⟩ key text hlookup
    obtain ⟨d, hd, h⟩ := of_bind_ok h
    obtain ⟨entries, hentries, hd⟩ := of_bind_ok hd
    cases hd
    obtain ⟨hlayer, -⟩ := loadFrom_iff.mp h
    have hnames := (names_sublist (mapM_ok_iff.mp hentries)).nodup SettingKey.nodup_words
    obtain ⟨o, hmem, ho⟩ := ok_of_mapM_ok hentries (SettingKey.mem_all key)
    obtain ⟨v, hv, rfl⟩ := (variableEntry_some hlookup).mp ho
    obtain ⟨k, hk, hadmits⟩ := (Document.isLayer_ofEntries_iff hnames).mp hlayer (key.word, v)
      (List.mem_filterMap.mpr ⟨_, hmem, rfl⟩)
    obtain rfl := SettingKey.word_injective hk
    exact ⟨v, hv, hadmits⟩
  · intro h
    cases hentries : SettingKey.all.mapM (s.variableEntry environment) with
    | error fault =>
      obtain ⟨key, -, hfail⟩ := mapM_error hentries
      cases hlookup : environment.lookup key.variableName with
      | none =>
        rw [variableEntry_none hlookup] at hfail
        cases hfail
      | some text =>
        obtain ⟨v, hv, -⟩ := h key text hlookup
        rw [(variableEntry_some hlookup).mpr ⟨v, hv, rfl⟩] at hfail
        cases hfail
    | ok entries =>
      have hnames := (names_sublist (mapM_ok_iff.mp hentries)).nodup SettingKey.nodup_words
      have hlayer : (Document.ofEntries Document.valueKey (entries.filterMap id)).IsLayer := by
        refine (Document.isLayer_ofEntries_iff hnames).mpr fun e he => ?_
        obtain ⟨o, ho, rfl⟩ := List.mem_filterMap.mp he
        obtain ⟨key, -, hentry⟩ := mem_of_mapM_ok hentries ho
        obtain ⟨hname, text, hlookup, hv⟩ := of_variableEntry hentry
        obtain ⟨v, hread, hadmits⟩ := h key text hlookup
        obtain rfl := Except.ok.inj (hread.symm.trans hv)
        exact ⟨key, hname.symm, hadmits⟩
      refine ⟨s.overlay (.ofEntries Document.valueKey (entries.filterMap id)), ?_⟩
      unfold loadEnvironment environmentDocument
      rw [hentries]
      exact loadFrom_iff.mpr ⟨hlayer, rfl⟩

/-- Under the environment every value stays admitted. -/
theorem loadEnvironment_allAdmitted {t : Settings} (h : s.loadEnvironment environment = .ok t)
    (hs : s.AllAdmitted) : t.AllAdmitted := by
  obtain ⟨d, -, h⟩ := of_bind_ok h
  obtain ⟨hlayer, rfl⟩ := loadFrom_iff.mp h
  exact overlay_allAdmitted hlayer hs

end Settings

end Winnow
