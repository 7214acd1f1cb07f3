import Winnow.Proofs.Numeral.Reading
import Winnow.Proofs.Settings.Layers

/-!
# Resets that are refused

A reset goes back to the bundled settings before the environment is checked.  Where the environment
is refused, the bundled settings stay, and every layer that was on top of them is lost.

* `Document.Finds` : complaints can be made, and each is of a kind;
* `SettingRule.Misfit` : what is said about the value of a variable that a rule does not admit;
* `Settings.Refused`, `Settings.refused_of_loadEnvironment` : how an environment is refused;
* `Settings.reset_refused` : when a reset fails and what it leaves.
-/

namespace Winnow

open Outcome

/-! ## Values -/

namespace SettingRule

/-- The values that the texts of variables stand for: a text, or an integer that can be written
where an integer is asked for. -/
inductive Typed : SettingRule → Value → Prop
  | text (t : Text) : Typed .text (.text t)
  | filledText (t : Text) : Typed .filledText (.text t)
  | positive {n : Int} {numeral : Text} (h : Numeral.ofInt n = .ok numeral) :
    Typed .positive (.int n)

/-- What is said about such a value where the rule does not admit it: the text is empty, or the
integer is less than one. -/
inductive Misfit : SettingRule → Value → Text → Prop
  | empty : Misfit .filledText (.text []) "'' should be non-empty"
  | small {n : Int} {numeral : Text} (hn : n < 1) (h : Numeral.ofInt n = .ok numeral) :
    Misfit .positive (.int n) (numeral ++ (" is less than the minimum of 1" : Text))

end SettingRule

/-! ## Complaints -/

namespace Document

variable {P : Complaint → Prop} {d : Document}

/-- Complaints can be made, and each is of a kind. -/
def Finds (P : Complaint → Prop) (x : Except Fault (List Complaint)) : Prop :=
  ∃ cs, x = .ok cs ∧ ∀ c ∈ cs, P c

theorem finds_nil : Finds P (.ok []) := ⟨[], rfl, nofun⟩

theorem finds_singleton {c : Complaint} (h : P c) : Finds P (.ok [c]) :=
  ⟨[c], rfl, List.forall_mem_singleton.mpr h⟩

theorem Finds.append {x y : Except Fault (List Complaint)} (hx : Finds P x) (hy : Finds P y) :
    Finds P (x >>= fun cs => y >>= fun ds => pure (cs ++ ds)) := by
  obtain ⟨cs, rfl, hcs⟩ := hx
  obtain ⟨ds, rfl, hds⟩ := hy
  exact ⟨cs ++ ds, rfl, List.forall_mem_append.mpr ⟨hcs, hds⟩⟩

theorem Finds.flatten {α : Type} {f : α → Except Fault (List Complaint)} {xs : List α}
    (h : ∀ x ∈ xs, Finds P (f x)) : Finds P ((xs.mapM f).map List.flatten) := by
  obtain ⟨css, hcss⟩ := mapM_succeeds_iff.mpr fun x hx => (h x hx).imp fun _ => And.left
  refine ⟨css.flatten, by rw [hcss]; rfl, fun c hc => ?_⟩
  obtain ⟨cs, hcs, hc⟩ := List.mem_flatten.mp hc
  obtain ⟨x, hx, hfound⟩ := mem_of_mapM_ok hcss hcs
  obtain ⟨cs', heq, hall⟩ := h x hx
  obtain rfl := Except.ok.inj (hfound.symm.trans heq)
  exact hall c hc

/-- The complaint that is reported is one of those that are made. -/
theorem worst?_mem {cs : List Complaint} {c : Complaint} (h : Complaint.worst? cs = some c) :
    c ∈ cs := by
  have hfold : ∀ (rest : List Complaint) (best : Complaint),
      rest.foldl (fun best c => if c.outranks best then c else best) best ∈ best :: rest := by
    intro rest
    induction rest with
    | nil => exact fun best => List.mem_singleton_self best
    | cons next rest ih =>
      intro best
      rw [List.foldl_cons]
      split
      · exact List.mem_cons_of_mem _ (ih next)
      · exact List.cons_subset_cons best (List.subset_cons_self next rest) (ih best)
  cases cs with
  | nil => cases h
  | cons first rest =>
    obtain rfl := Option.some.inj h
    exact hfold rest first

/-- A document that is a value is written like the value. -/
theorem literal_of_value? {v : Value} (h : d.value? = some v) : d.literal = v.literal := by
  unfold value? at h
  split at h
  · rename_i hcell
    obtain rfl := Option.some.inj h
    unfold cell at hcell
    unfold literal literalAt
    rw [List.contains_nil, if_neg Bool.false_ne_true, hcell]
    rfl
  · cases h

/-- The complaints about a value like those of variables can be made, and tell how it is a
misfit. -/
theorem finds_misfits (path : List Text) {rule : SettingRule} {v : Value} (htyped : rule.Typed v)
    (hvalue : d.value? = some v) :
    Finds (fun c => rule.Misfit v c.message) (valueComplaints rule path d) := by
  have hliteral := literal_of_value? hvalue
  cases htyped with
  | text t =>
    rw [valueComplaints, textComplaints_iff.mpr ⟨t, hvalue⟩]
    exact finds_nil
  | filledText t =>
    cases t with
    | nil =>
      have hcomplaint : complaintOn path d " should be non-empty" =
          .ok ⟨path, "'' should be non-empty"⟩ := by
        unfold complaintOn
        rw [hliteral]
        rfl
      unfold valueComplaints filledTextComplaints
      rw [hvalue, hcomplaint]
      exact finds_singleton .empty
    | cons c t =>
      rw [valueComplaints, filledTextComplaints_iff.mpr ⟨c :: t, List.cons_ne_nil c t, hvalue⟩]
      exact finds_nil
  | @positive n numeral h =>
    by_cases hn : 1 ≤ n
    · rw [valueComplaints, (positiveComplaints_of_some hvalue).mpr ⟨rfl, (isBelowOne_int n).mpr hn⟩]
      exact finds_nil
    · have hsmall : isBelowOne (.int n) = true := by
        rw [← Bool.not_eq_false, isBelowOne_int]
        exact hn
      have hcomplaint : complaintOn path d " is less than the minimum of 1" =
          .ok ⟨path, numeral ++ (" is less than the minimum of 1" : Text)⟩ := by
        unfold complaintOn
        rw [hliteral, Value.literal, h]
        rfl
      unfold valueComplaints positiveComplaints
      rw [hvalue]
      dsimp only
      rw [hsmall, hcomplaint]
      exact finds_singleton (.small (Int.not_le.mp hn) h)

/-- **The complaints about a document of values like those of variables** can be made, and each tells
how the value of a setting is a misfit. -/
theorem finds_ofEntries {entries : List (Text × Value)}
    (h : ∀ e ∈ entries, ∃ key, SettingKey.word key = e.1 ∧ key.rule.Typed e.2) :
    Finds (fun c => ∃ key v, (SettingKey.word key, v) ∈ entries ∧ key.rule.Misfit v c.message)
      (ofEntries valueKey entries).complaints := by
  have hstrangers : strangerComplaints ((entries.zipIdx.map fun e =>
      (Yaml.Atom.value (.text e.1.1), 2 * e.2 + 1)).map (·.1)) = .ok [] := by
    refine strangerComplaints_iff.mpr fun k hk => ?_
    obtain ⟨_, hcell, rfl⟩ := List.mem_map.mp hk
    obtain ⟨⟨e, i⟩, he, rfl⟩ := List.mem_map.mp hcell
    obtain ⟨key, hkey, -⟩ := h e (List.mem_of_getElem? (List.mem_zipIdx_iff_getElem?.mp he))
    exact ⟨key, by simp [Yaml.Atom.isText, hkey]⟩
  rw [complaints_of_mapping (cell_ofEntries valueKey entries), hstrangers]
  refine Finds.append (Finds.flatten fun key _ => ?_) finds_nil
  unfold partComplaints
  split
  · rename_i e he
    obtain ⟨i, v, hplace, rfl⟩ := of_entry?_ofEntries he
    have hmem : (key.word, v) ∈ entries := List.mem_of_getElem? hplace
    obtain ⟨k, hk, htyped⟩ := h _ hmem
    obtain rfl := SettingKey.word_injective hk
    obtain ⟨⟨value, hvalue, hv⟩, hdescription⟩ := setting_part_ofEntries hplace
    rw [settingComplaints_of_mapping (cell_part_ofEntries valueKey hplace).1, hdescription, hvalue]
    obtain ⟨cs, hcs, hmisfits⟩ := finds_misfits [SettingKey.word k, valueKey] htyped hv
    exact Finds.append finds_nil ⟨cs, hcs, fun c hc => ⟨k, v, hmem, hmisfits c hc⟩⟩
  · exact finds_nil

end Document

namespace Settings

variable {environment : Environment} {fault : Fault}

/-! ## Refused environments -/

/-- How an environment is refused on top of the bundled settings: the text of a variable that should
hold an integer cannot be read as one, or the value that the text of a variable stands for is a
misfit. -/
inductive Refused (environment : Environment) : Fault → Prop
  | unreadable {key : SettingKey} {text : Text}
      (hset : environment.lookup key.variableName = some text) (hrule : key.rule = .positive)
      (htext : ∀ n, Numeral.toInt text ≠ .ok n) :
      Refused environment (.integerExpected key.variableName text.quoted)
  | misfit {key : SettingKey} {text message : Text} {v : Value}
      (hset : environment.lookup key.variableName = some text)
      (hvalue : typedLike? (bundled.setting key).value text = some v)
      (hmisfit : key.rule.Misfit v message) :
      Refused environment (.settingsRejected message "environment")

/-- What a variable stands for is typed for the rule of its setting. -/
theorem typed_of_variableValue {key : SettingKey} {text : Text} {v : Value}
    (h : variableValue key (bundled.setting key).value text = .ok v) : key.rule.Typed v := by
  have hlike := (variableValue_bundled key text v).mp h
  have hinteger {m : Int} (hm : typedLike? (.int m) text = some v) : SettingRule.positive.Typed v := by
    obtain ⟨n, hn, rfl⟩ := Option.map_eq_some_iff.mp hm
    cases hread : Numeral.toInt text with
    | error fault =>
      rw [hread] at hn
      cases hn
    | ok k =>
      obtain ⟨numeral, hnumeral⟩ := Numeral.ofInt_of_toInt hread
      rw [hread] at hn
      obtain rfl := Option.some.inj hn
      exact .positive hnumeral
  cases key with
  | textLength => exact hinteger hlike
  | listLength => exact hinteger hlike
  | separator =>
    obtain rfl := Option.some.inj hlike
    exact .filledText text
  | _ =>
    obtain rfl := Option.some.inj hlike
    exact .text text

/-- The text of a variable that stands for nothing is not that of an integer that is asked for. -/
theorem of_variableValue_error {key : SettingKey} {text : Text}
    (h : variableValue key (bundled.setting key).value text = .error fault) :
    fault = .integerExpected key.variableName text.quoted ∧ key.rule = .positive ∧
      ∀ n, Numeral.toInt text ≠ .ok n := by
  unfold variableValue at h
  split at h
  · rename_i hinteger
    have hrule : key.rule = .positive := by
      cases key with
      | textLength => rfl
      | listLength => rfl
      | _ => cases hinteger
    split at h
    · cases h
    · rename_i hread
      refine ⟨(Except.error.inj h).symm, hrule, fun n hn => ?_⟩
      cases hread.symm.trans hn
  · cases h

/-- **An environment is refused because of a variable**, which the failure tells of. -/
theorem refused_of_loadEnvironment (h : bundled.loadEnvironment environment = .error fault) :
    Refused environment fault := by
  rcases of_bind_error h with hdocument | ⟨d, hd, hload⟩
  · rcases of_bind_error hdocument with hentries | ⟨found, -, hpure⟩
    · obtain ⟨key, -, hfail⟩ := mapM_error hentries
      cases hset : environment.lookup key.variableName with
      | none =>
        rw [variableEntry_none hset] at hfail
        cases hfail
      | some text =>
        unfold variableEntry at hfail
        rw [hset] at hfail
        rcases of_bind_error hfail with hvalue | ⟨v, -, hpure⟩
        · obtain ⟨rfl, hrule, htext⟩ := of_variableValue_error hvalue
          exact .unreadable hset hrule htext
        · cases hpure
    · cases hpure
  · obtain ⟨found, hfound, hd⟩ := of_bind_ok hd
    cases hd
    have hvariable : ∀ e ∈ found.filterMap id, ∃ key : SettingKey, key.word = e.1 ∧
        ∃ text, environment.lookup key.variableName = some text ∧
          variableValue key (bundled.setting key).value text = .ok e.2 := by
      intro e he
      obtain ⟨o, ho, rfl⟩ := List.mem_filterMap.mp he
      obtain ⟨key, -, hentry⟩ := mem_of_mapM_ok hfound ho
      obtain ⟨hname, hvalue⟩ := of_variableEntry hentry
      exact ⟨key, hname.symm, hvalue⟩
    obtain ⟨cs, hcs, hmisfits⟩ := Document.finds_ofEntries fun e he =>
      (hvariable e he).imp fun key hkey =>
        ⟨hkey.1, typed_of_variableValue hkey.2.choose_spec.2⟩
    have hcomplaint : (Document.ofEntries Document.valueKey (found.filterMap id)).complaint? =
        .ok (Complaint.worst? cs) := by
      unfold Document.complaint?
      rw [hcs]
      rfl
    unfold loadFrom at hload
    rw [hcomplaint] at hload
    cases hworst : Complaint.worst? cs with
    | none =>
      rw [hworst] at hload
      cases hload
    | some c =>
      rw [hworst] at hload
      obtain rfl : Fault.settingsRejected c.message "environment" = fault := Except.error.inj hload
      obtain ⟨key, v, hmem, hmisfit⟩ := hmisfits c (Document.worst?_mem hworst)
      obtain ⟨k, hk, text, hset, hvalue⟩ := hvariable (key.word, v) hmem
      obtain rfl := SettingKey.word_injective hk
      exact .misfit hset ((variableValue_bundled k text v).mp hvalue) hmisfit

/-! ## Resets -/

/-- A reset to an environment that is refused leaves the bundled settings. -/
theorem perform_reset_error {s : Settings} (h : bundled.loadEnvironment environment = .error fault) :
    s.perform (.reset environment) = (.error fault, bundled) := by
  unfold perform Settings.reset
  dsimp only
  rw [h]

/-- **A reset that is refused leaves the bundled settings**, whatever calls were made before.  It is
refused exactly if some variable is not admitted, and the failure tells of such a variable.  So a
setting keeps its value and its description exactly if they were the bundled ones, and all is as
before only where no layer had changed anything. -/
theorem reset_refused (calls : List SettingsCall) (environment : Environment) :
    let s := bundled.run calls
    let after := s.perform (.reset environment)
    (after.1 = .ok () ↔ ∀ key, bundled.VariableAdmitted environment key) ∧
      ∀ fault, after.1 = .error fault →
        Refused environment fault ∧
          (∀ key, after.2.get (SettingKey.word key) = bundled.get key.word ∧
            after.2.describe? key.word = bundled.describe? key.word) ∧
          (∀ key, after.2.setting key = s.setting key ↔ s.setting key = bundled.setting key) ∧
          (after.2 = s ↔ s = bundled) := by
  intro s after
  cases hload : bundled.loadEnvironment environment with
  | ok t =>
    rw [show after = (.ok (), t) from perform_reset_ok hload]
    exact ⟨iff_of_true rfl (loadEnvironment_iff.mp ⟨t, hload⟩), nofun⟩
  | error fault =>
    rw [show after = (.error fault, bundled) from perform_reset_error hload]
    refine ⟨iff_of_false nofun fun hadmitted => ?_, ?_⟩
    · obtain ⟨t, ht⟩ := loadEnvironment_iff.mpr hadmitted
      cases hload.symm.trans ht
    · rintro _ ⟨⟩
      exact ⟨refused_of_loadEnvironment hload, fun _ => ⟨rfl, rfl⟩, fun _ => eq_comm, eq_comm⟩

/-- An environment whose length for lists is no integer. -/
def unreadableLength : Environment := [("FILTER_COMPOSER_MAX_ARRAY_LENGTH", "many")]

/-- The environment is refused. -/
theorem loadEnvironment_unreadableLength : bundled.loadEnvironment unreadableLength =
    .error (.integerExpected "FILTER_COMPOSER_MAX_ARRAY_LENGTH" "'many'") := by
  have hunset : ∀ key ∈ [SettingKey.logFile, .separator, .textLength],
      unreadableLength.lookup key.variableName = none := by decide +kernel
  have hset : unreadableLength.lookup SettingKey.listLength.variableName = some "many" := by
    decide +kernel
  have hentry : bundled.variableEntry unreadableLength .listLength =
      .error (.integerExpected "FILTER_COMPOSER_MAX_ARRAY_LENGTH" "'many'") := by
    unfold variableEntry
    rw [hset]
    rfl
  have hentries : SettingKey.all.mapM (bundled.variableEntry unreadableLength) =
      .error (.integerExpected "FILTER_COMPOSER_MAX_ARRAY_LENGTH" "'many'") := by
    rw [SettingKey.all, List.mapM_cons, variableEntry_none (hunset _ (by simp)), List.mapM_cons,
      variableEntry_none (hunset _ (by simp)), List.mapM_cons,
      variableEntry_none (hunset _ (by simp)), List.mapM_cons, hentry]
    rfl
  unfold loadEnvironment environmentDocument
  rw [hentries]
  rfl

/-- A document that was loaded before gives another length than the bundled one. -/
theorem run_longerLists :
    bundled.Succeeds (loads [("longer.yaml", longerLists)]) ∧
      (bundled.run (loads [("longer.yaml", longerLists)])).get "max_array_length" = .ok (.int 9) := by
  obtain ⟨hsucceeds, hrun⟩ := run_loads bundled [("longer.yaml", longerLists)]
    (List.forall_mem_singleton.mpr longerLists_isLayer)
  have hvalue : (bundled.overlay longerLists).get "max_array_length" = .ok (.int 9) := by rfl
  exact ⟨hsucceeds, hrun ▸ hvalue⟩

/-- The length that the document gave is lost. -/
theorem reset_refused_longerLists :
    let s := bundled.run (loads [("longer.yaml", longerLists)])
    let after := s.perform (.reset unreadableLength)
    s.get "max_array_length" = .ok (.int 9) ∧
      after.1 = .error (.integerExpected "FILTER_COMPOSER_MAX_ARRAY_LENGTH" "'many'") ∧
      after.2.get "max_array_length" = .ok (.int 100) := by
  intro s after
  have hfails : after.1 = .error (.integerExpected "FILTER_COMPOSER_MAX_ARRAY_LENGTH" "'many'") :=
    congrArg Prod.fst (perform_reset_error loadEnvironment_unreadableLength)
  obtain ⟨-, hrefused⟩ := reset_refused (loads [("longer.yaml", longerLists)]) unreadableLength
  obtain ⟨-, hbundled, -⟩ := hrefused _ hfails
  exact ⟨run_longerLists.2, hfails, (hbundled .listLength).1⟩

/-- A reset that is refused need not leave the settings as they were, not even where the calls before
it succeeded and the environment is refused for a text that is no integer. -/
theorem not_reset_refused_keeps :
    ¬ ∀ (calls : List SettingsCall) (environment : Environment) (name quoted : Text),
      bundled.Succeeds calls →
        let s := bundled.run calls
        let after := s.perform (.reset environment)
        after.1 = .error (.integerExpected name quoted) →
          ∀ key, after.2.get (SettingKey.word key) = s.get key.word ∧
            after.2.describe? key.word = s.describe? key.word := by
  intro hkeeps
  have hreset := perform_reset_error (s := bundled.run (loads [("longer.yaml", longerLists)]))
    loadEnvironment_unreadableLength
  obtain ⟨hsucceeds, hvalue⟩ := run_longerLists
  have hsame := (hkeeps _ _ _ _ hsucceeds (congrArg Prod.fst hreset) .listLength).1
  rw [hreset] at hsame
  exact nomatch Except.ok.inj (hsame.trans hvalue)

end Settings

end Winnow
