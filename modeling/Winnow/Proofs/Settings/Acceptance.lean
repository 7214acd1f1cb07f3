import Winnow.Proofs.Binary64.Order
import Winnow.Proofs.Outcome
import Winnow.Settings

/-!
# Documents that are accepted

A settings document is accepted if its rules find nothing to complain about.  What that says of a
document is stated here without the rules: it is a mapping with the names of settings as its keys,
and under each of them a mapping with a value of the right kind, and perhaps a text as its
description.

* `SettingRule.Admits` : the values that a rule admits;
* `Document.IsSetting`, `Document.IsLayer` : documents of one setting, and of settings;
* `Document.valueComplaints_iff`, `Document.settingComplaints_iff`,
  `Document.strangerComplaints_iff` : when there is nothing to complain about in a value, in a
  setting, and in the keys of a document;
* `Document.complaint?_iff` : a document is accepted exactly if it is a layer of settings;
* `Settings.loadFrom_iff` : a layer is loaded exactly if it is one;
* `Settings.AllAdmitted`, `Settings.overlay_allAdmitted` : every value is admitted by the rule of its
  setting, and stays so under a layer.
-/

namespace Winnow

open Outcome

/-- The values that a rule admits.  A positive integer may also be a binary64 number. -/
def SettingRule.Admits : SettingRule → Value → Prop
  | .text, v => ∃ t, v = .text t
  | .filledText, v => ∃ t, t ≠ [] ∧ v = .text t
  | .positive, v => ∃ n : Int, 1 ≤ n ∧ (v = .int n ∨ ∃ x : Binary64, v = .float x ∧ x.toInt? = some n)

theorem SettingKey.mem_all (key : SettingKey) : key ∈ SettingKey.all := by
  cases key <;> decide

namespace Document

/-- A document of a setting: a mapping with a value that the rule of the setting admits, and with
a text as its description if it has one. -/
structure IsSetting (key : SettingKey) (d : Document) : Prop where
  mapping : ∃ entries, d.cell = .mapping entries
  description : ∀ e, d.entry? descriptionKey = some e → ∃ t, e.value? = some (.text t)
  value : ∃ e v, d.entry? valueKey = some e ∧ e.value? = some v ∧ key.rule.Admits v

/-- A document of settings: a mapping whose keys all name settings, with the document of a setting
under each of them. -/
structure IsLayer (d : Document) : Prop where
  mapping : ∃ entries, d.cell = .mapping entries ∧
    ∀ e ∈ entries, ∃ key : SettingKey, e.1.isText key.word = true
  setting : ∀ key e, d.entry? (SettingKey.word key) = some e → e.IsSetting key

/-! ## Lists of complaints -/

/-- Two lists of complaints are empty together if each of them is. -/
theorem append_ok_nil_iff {x y : Except Fault (List Complaint)} :
    (x >>= fun cs => y >>= fun ds => pure (cs ++ ds)) = .ok [] ↔ x = .ok [] ∧ y = .ok [] := by
  constructor
  · intro h
    obtain ⟨cs, hx, h⟩ := of_bind_ok h
    obtain ⟨ds, hy, h⟩ := of_bind_ok h
    obtain ⟨rfl, rfl⟩ := List.append_eq_nil_iff.mp (Except.ok.inj h)
    exact ⟨hx, hy⟩
  · rintro ⟨rfl, rfl⟩
    rfl

/-- The lists for several items are empty together if each of them is. -/
theorem flatten_ok_nil_iff {α : Type} {f : α → Except Fault (List Complaint)} {xs : List α} :
    (xs.mapM f).map List.flatten = .ok [] ↔ ∀ x ∈ xs, f x = .ok [] := by
  induction xs with
  | nil => exact iff_of_true rfl nofun
  | cons x xs ih =>
    rw [List.forall_mem_cons, ← ih, ← append_ok_nil_iff, List.mapM_cons]
    cases f x with
    | error fault => rfl
    | ok cs => cases xs.mapM f <;> rfl

/-- A complaint that is made makes a list that is not empty. -/
theorem single_ne_nil (x : Except Fault Complaint) : (do return [← x]) ≠ .ok [] := by
  intro h
  obtain ⟨c, -, h⟩ := of_bind_ok h
  cases h

/-- The list of a complaint that is made on a condition. -/
theorem conditional_ok_nil_iff {condition : Bool} {x : Except Fault Complaint} :
    (if condition then do return [← x] else pure []) = .ok [] ↔ condition = false := by
  cases condition with
  | true => exact iff_of_false (single_ne_nil x) nofun
  | false => exact iff_of_true rfl rfl

/-! ## Values -/

variable {path : List Text} {d : Document}

theorem textComplaints_iff : textComplaints path d = .ok [] ↔ ∃ t, d.value? = some (.text t) := by
  unfold textComplaints
  split
  · rename_i t hvalue
    exact iff_of_true rfl ⟨t, hvalue⟩
  · rename_i hother
    refine iff_of_false (single_ne_nil _) ?_
    rintro ⟨t, hvalue⟩
    exact hother t hvalue

theorem filledTextComplaints_iff :
    filledTextComplaints path d = .ok [] ↔ ∃ t, t ≠ [] ∧ d.value? = some (.text t) := by
  unfold filledTextComplaints
  split
  · rename_i hempty
    refine iff_of_false (single_ne_nil _) ?_
    rintro ⟨t, hne, hvalue⟩
    rw [hempty] at hvalue
    cases hvalue
    exact hne rfl
  · rename_i hfilled
    rw [textComplaints_iff]
    constructor
    · rintro ⟨t, hvalue⟩
      exact ⟨t, fun hempty => hfilled (hempty ▸ hvalue), hvalue⟩
    · rintro ⟨t, -, hvalue⟩
      exact ⟨t, hvalue⟩

theorem positiveComplaints_of_none (hvalue : d.value? = none) :
    positiveComplaints path d ≠ .ok [] := by
  unfold positiveComplaints
  rw [hvalue]
  exact single_ne_nil _

theorem positiveComplaints_of_some {v : Value} (hvalue : d.value? = some v) :
    positiveComplaints path d = .ok [] ↔ isInteger v = true ∧ isBelowOne v = false := by
  have hparts : positiveComplaints path d =
      ((if !isInteger v then do return [← notOfType path d "integer"] else pure []) >>= fun cs =>
        (if isBelowOne v then do return [← complaintOn path d " is less than the minimum of 1"]
          else pure []) >>= fun ds => pure (cs ++ ds)) := by
    unfold positiveComplaints
    rw [hvalue]
    dsimp only
    cases isInteger v <;> cases isBelowOne v <;>
      simp only [Bool.not_true, Bool.not_false, if_true, if_false, Bool.false_eq_true, bind_assoc,
        pure_bind]
  rw [hparts, append_ok_nil_iff, conditional_ok_nil_iff, conditional_ok_nil_iff,
    Bool.not_eq_false']

theorem isBelowOne_int (n : Int) : isBelowOne (.int n) = false ↔ 1 ≤ n := by
  simp [isBelowOne, Value.isNumber, Value.numeric?, Value.Numeric.order?, compare_lt_iff_lt]

theorem isBelowOne_float {x : Binary64} {n : Int} (hx : x.toInt? = some n) :
    isBelowOne (.float x) = false ↔ 1 ≤ n := by
  have horder : Value.Numeric.order? (.float x) (.int 1) = some (compare n 1) := by
    show (Binary64.orderInt? 1 x).map Ordering.swap = _
    rw [Binary64.orderInt?_of_toInt? hx, Option.map_some, ← cmp_eq_compare, cmp_swap, cmp_eq_compare]
  simp [isBelowOne, Value.isNumber, Value.numeric?, horder, compare_lt_iff_lt]

/-- What is an integer and not less than one is a positive integer. -/
theorem positive_admits_iff (v : Value) :
    SettingRule.positive.Admits v ↔ isInteger v = true ∧ isBelowOne v = false := by
  cases v with
  | int n => simp [SettingRule.Admits, isInteger, isBelowOne_int]
  | float x =>
    cases hx : x.toInt? with
    | none => simp [SettingRule.Admits, isInteger, hx]
    | some n => simp [SettingRule.Admits, isInteger, hx, isBelowOne_float hx]
  | _ => simp [SettingRule.Admits, isInteger]

/-- **There is nothing to complain about in a value exactly if its rule admits it.** -/
theorem valueComplaints_iff {rule : SettingRule} :
    valueComplaints rule path d = .ok [] ↔ ∃ v, d.value? = some v ∧ rule.Admits v := by
  cases rule with
  | text => simp [valueComplaints, textComplaints_iff, SettingRule.Admits]
  | filledText =>
    simp [valueComplaints, filledTextComplaints_iff, SettingRule.Admits, and_comm]
  | positive =>
    simp only [valueComplaints, positive_admits_iff]
    cases hvalue : d.value? with
    | none => simp [positiveComplaints_of_none hvalue]
    | some v => simp [positiveComplaints_of_some hvalue]

/-! ## Settings -/

theorem entry?_of_mapping {key : Text} {e : Document} (h : d.entry? key = some e) :
    ∃ entries, d.cell = .mapping entries ∧ ∃ k ∈ entries, k.1.isText key = true ∧ e = d.part k.2 := by
  unfold entry? at h
  split at h
  · rename_i entries hcell
    obtain ⟨k, hk, rfl⟩ := Option.map_eq_some_iff.mp h
    exact ⟨entries, hcell, k, List.mem_of_find?_eq_some hk, by simpa using List.find?_some hk, rfl⟩
  · cases h

/-- The complaints about a description, which may be absent. -/
def descriptionComplaints (path : List Text) : Option Document → Except Fault (List Complaint)
  | some e => textComplaints path e
  | none => .ok []

/-- The complaints about a value, which has to be there. -/
def requiredComplaints (rule : SettingRule) (path : List Text) (missing : Complaint) :
    Option Document → Except Fault (List Complaint)
  | some e => valueComplaints rule path e
  | none => .ok [missing]

theorem descriptionComplaints_iff {description : Option Document} :
    descriptionComplaints path description = .ok [] ↔
      ∀ e, description = some e → ∃ t, e.value? = some (.text t) := by
  cases description with
  | none => exact iff_of_true rfl nofun
  | some e => simp [descriptionComplaints, textComplaints_iff]

theorem requiredComplaints_iff {rule : SettingRule} {missing : Complaint}
    {value : Option Document} :
    requiredComplaints rule path missing value = .ok [] ↔
      ∃ e v, value = some e ∧ e.value? = some v ∧ rule.Admits v := by
  cases value with
  | none => exact iff_of_false nofun nofun
  | some e => simp [requiredComplaints, valueComplaints_iff]

theorem settingComplaints_of_mapping {entries : List (Yaml.Atom × Nat)}
    (hcell : d.cell = .mapping entries) (key : SettingKey) :
    settingComplaints key d =
      (descriptionComplaints [key.word, descriptionKey] (d.entry? descriptionKey) >>= fun cs =>
        requiredComplaints key.rule [key.word, valueKey]
            ⟨[key.word], valueKey.quoted ++ (" is a required property" : Text)⟩
            (d.entry? valueKey) >>= fun ds =>
          pure (cs ++ ds)) := by
  unfold settingComplaints
  rw [hcell]
  cases d.entry? descriptionKey <;> cases d.entry? valueKey <;> rfl

/-- **There is nothing to complain about in a setting exactly if it is one.** -/
theorem settingComplaints_iff {key : SettingKey} :
    settingComplaints key d = .ok [] ↔ d.IsSetting key := by
  cases hcell : d.cell with
  | mapping entries =>
    rw [settingComplaints_of_mapping hcell, append_ok_nil_iff, descriptionComplaints_iff,
      requiredComplaints_iff]
    exact ⟨fun h => ⟨⟨entries, hcell⟩, h.1, h.2⟩, fun h => ⟨h.description, h.value⟩⟩
  | _ =>
    refine iff_of_false ?_ fun h => ?_
    · unfold settingComplaints
      rw [hcell]
      exact single_ne_nil _
    · obtain ⟨entries, hmapping⟩ := h.mapping
      rw [hcell] at hmapping
      cases hmapping

/-! ## Keys -/

theorem strangers_eq_nil_iff {keys : List Yaml.Atom} :
    strangers keys = [] ↔ ∀ k ∈ keys, ∃ key : SettingKey, k.isText key.word = true := by
  simp only [strangers, List.filter_eq_nil_iff, List.all_eq_true, Bool.not_eq_true']
  constructor
  · intro h k hk
    by_contra hnone
    exact h k hk fun key _ => Bool.eq_false_iff.mpr fun hkey => hnone ⟨key, hkey⟩
  · intro h k hk hall
    obtain ⟨key, hkey⟩ := h k hk
    rw [hall key (SettingKey.mem_all key)] at hkey
    cases hkey

/-- **There is nothing to complain about in keys exactly if they all name settings.** -/
theorem strangerComplaints_iff {keys : List Yaml.Atom} :
    strangerComplaints keys = .ok [] ↔ ∀ k ∈ keys, ∃ key : SettingKey, k.isText key.word = true := by
  rw [← strangers_eq_nil_iff]
  unfold strangerComplaints
  constructor
  · intro h
    obtain ⟨shown, hshown, h⟩ := of_bind_ok h
    dsimp only at h
    split at h
    · rename_i hempty
      have hnone : shown = [] := by simpa [List.isEmpty_iff, ← List.length_eq_zero_iff] using hempty
      have hlength := (mapM_ok_iff.mp hshown).length_eq
      rw [hnone] at hlength
      exact List.eq_nil_of_length_eq_zero hlength
    · cases h
  · intro h
    simp only [h, List.mapM_nil, pure_bind, List.mergeSort_nil, List.isEmpty_nil, if_true]
    rfl

/-! ## Documents -/

/-- The complaints about what a document has for a setting, if anything. -/
def partComplaints (d : Document) (key : SettingKey) : Except Fault (List Complaint) :=
  match d.entry? key.word with
  | some e => settingComplaints key e
  | none => .ok []

theorem partComplaints_iff {key : SettingKey} :
    d.partComplaints key = .ok [] ↔ ∀ e, d.entry? key.word = some e → e.IsSetting key := by
  unfold partComplaints
  cases d.entry? key.word with
  | none => exact iff_of_true rfl nofun
  | some e => simp [settingComplaints_iff]

theorem complaints_of_mapping {entries : List (Yaml.Atom × Nat)}
    (hcell : d.cell = .mapping entries) :
    d.complaints = ((SettingKey.all.mapM d.partComplaints).map List.flatten >>= fun cs =>
      strangerComplaints (entries.map (·.1)) >>= fun ds => pure (cs ++ ds)) := by
  unfold complaints
  rw [hcell]
  show (SettingKey.all.mapM d.partComplaints >>= fun parts =>
    strangerComplaints (entries.map (·.1)) >>= fun ds => pure (parts.flatten ++ ds)) = _
  cases SettingKey.all.mapM d.partComplaints <;> rfl

theorem complaints_iff : d.complaints = .ok [] ↔ d.IsLayer := by
  cases hcell : d.cell with
  | mapping entries =>
    rw [complaints_of_mapping hcell, append_ok_nil_iff, flatten_ok_nil_iff,
      strangerComplaints_iff, List.forall_mem_map]
    constructor
    · rintro ⟨hparts, hkeys⟩
      exact ⟨⟨entries, hcell, hkeys⟩, fun key =>
        partComplaints_iff.mp (hparts key (SettingKey.mem_all key))⟩
    · rintro ⟨⟨others, hothers, hkeys⟩, hsettings⟩
      rw [hcell] at hothers
      cases hothers
      exact ⟨fun key _ => partComplaints_iff.mpr (hsettings key), hkeys⟩
  | _ =>
    refine iff_of_false ?_ fun h => ?_
    · unfold complaints
      rw [hcell]
      exact single_ne_nil _
    · obtain ⟨entries, hmapping, -⟩ := h.mapping
      rw [hcell] at hmapping
      cases hmapping

/-- **A document is accepted exactly if it is a layer of settings.** -/
theorem complaint?_iff : d.complaint? = .ok none ↔ d.IsLayer := by
  rw [← complaints_iff]
  unfold complaint?
  cases d.complaints with
  | error fault => exact iff_of_false nofun nofun
  | ok cs =>
    cases cs with
    | nil => exact iff_of_true rfl rfl
    | cons c cs => exact iff_of_false nofun nofun

end Document

/-! ## Layers -/

namespace Settings

variable {s t : Settings} {d : Document}

/-- **A layer is loaded exactly if it is one.** -/
theorem loadFrom_iff {origin : Text} :
    s.loadFrom origin d = .ok t ↔ d.IsLayer ∧ t = s.overlay d := by
  rw [← Document.complaint?_iff]
  unfold loadFrom
  cases d.complaint? with
  | error fault => exact iff_of_false nofun nofun
  | ok complaint =>
    cases complaint with
    | none =>
      show Except.ok (s.overlay d) = .ok t ↔ _
      rw [Except.ok.injEq, eq_comm]
      simp
    | some c => exact iff_of_false nofun nofun

/-- Every value is admitted by the rule of its setting. -/
def AllAdmitted (s : Settings) : Prop := ∀ key, (SettingKey.rule key).Admits (s.setting key).value

/-- Under a layer every value stays admitted. -/
theorem overlay_allAdmitted (hd : d.IsLayer) (hs : s.AllAdmitted) : (s.overlay d).AllAdmitted := by
  intro key
  unfold overlay
  dsimp only
  split
  · rename_i entry hentry
    obtain ⟨e, v, he, hv, hadmits⟩ := (hd.setting key entry hentry).value
    simp only [overlaySetting, he, Option.bind_some, hv, Option.getD_some]
    exact hadmits
  · exact hs key

end Settings

end Winnow
