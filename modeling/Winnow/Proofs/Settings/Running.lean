import Winnow.Proofs.Settings.Environment

/-!
# Settings through layers and resets

The settings of a program start as the bundled ones.  Then documents and the environment are laid on
top of them, and they are reset, in any order and also where a call fails.  A layer is checked before
any of it takes effect, so a layer that is refused leaves no trace, and at every moment the value of
each setting is one that its rule admits.

* `Settings.perform`, `Settings.run` : one call, and a run of calls;
* `Settings.perform_allAdmitted`, `Settings.run_allAdmitted` : a call keeps every value admitted, and
  so does a run;
* `Settings.document`, `Settings.document_accepted_iff` : the document of the settings is accepted
  exactly if every value is admitted;
* `Settings.run_valid` : what holds after every run of calls.
-/

namespace Winnow

/-- A call that changes the settings.  A file may have no document, as it may not be readable. -/
inductive SettingsCall where
  | load (file : Text) (document : Except Fault Document)
  | loadEnvironment (environment : Environment)
  | reset (environment : Environment)

namespace Settings

variable {s : Settings}

/-! ## Calls -/

/-- The settings after an attempt: they stay where it fails. -/
def attempt (s : Settings) : Except Fault Settings → Except Fault Unit × Settings
  | .ok t => (.ok (), t)
  | .error fault => (.error fault, s)

/-- What a call answers, and the settings after it. -/
def perform (s : Settings) : SettingsCall → Except Fault Unit × Settings
  | .load file document => s.attempt (document >>= s.load file)
  | .loadEnvironment environment => s.attempt (s.loadEnvironment environment)
  | .reset environment => Settings.reset environment

/-- The settings after a run of calls. -/
def run (s : Settings) (calls : List SettingsCall) : Settings :=
  calls.foldl (fun s call => (s.perform call).2) s

theorem attempt_ok_iff {x : Except Fault Settings} :
    (s.attempt x).1 = .ok () ↔ ∃ t, x = .ok t := by
  cases x with
  | error fault => exact iff_of_false nofun nofun
  | ok t => exact iff_of_true rfl ⟨t, rfl⟩

theorem attempt_error {x : Except Fault Settings} {fault : Fault}
    (h : (s.attempt x).1 = .error fault) : (s.attempt x).2 = s := by
  cases x with
  | error fault => rfl
  | ok t => cases h

/-- A document is loaded if it can be read and is a layer of settings. -/
theorem perform_load_ok_iff {file : Text} {document : Except Fault Document} :
    (s.perform (.load file document)).1 = .ok () ↔ ∃ d, document = .ok d ∧ d.IsLayer := by
  refine attempt_ok_iff.trans ?_
  constructor
  · rintro ⟨t, h⟩
    obtain ⟨d, hd, h⟩ := Outcome.of_bind_ok h
    exact ⟨d, hd, (loadFrom_iff.mp h).1⟩
  · rintro ⟨d, rfl, hlayer⟩
    exact ⟨s.overlay d, loadFrom_iff.mpr ⟨hlayer, rfl⟩⟩

/-! ## Admitted values -/

theorem bundled_allAdmitted : bundled.AllAdmitted := by
  intro key
  cases key with
  | textLength => exact ⟨1000, by decide, .inl rfl⟩
  | listLength => exact ⟨100, by decide, .inl rfl⟩
  | separator => exact ⟨",", nofun, rfl⟩
  | _ => exact ⟨_, rfl⟩

theorem reset_allAdmitted (environment : Environment) :
    (Settings.reset environment).2.AllAdmitted := by
  unfold Settings.reset
  split
  · rename_i hload
    exact loadEnvironment_allAdmitted hload bundled_allAdmitted
  · exact bundled_allAdmitted

/-- A call keeps every value admitted, whether it succeeds or not. -/
theorem perform_allAdmitted (hs : s.AllAdmitted) (call : SettingsCall) :
    (s.perform call).2.AllAdmitted := by
  have hattempt : ∀ x : Except Fault Settings, (∀ t, x = .ok t → t.AllAdmitted) →
      (s.attempt x).2.AllAdmitted := by
    intro x hx
    cases x with
    | error fault => exact hs
    | ok t => exact hx t rfl
  cases call with
  | load file document =>
    refine hattempt _ fun t h => ?_
    obtain ⟨d, -, h⟩ := Outcome.of_bind_ok h
    obtain ⟨hlayer, rfl⟩ := loadFrom_iff.mp h
    exact overlay_allAdmitted hlayer hs
  | loadEnvironment environment => exact hattempt _ fun t h => loadEnvironment_allAdmitted h hs
  | reset environment => exact reset_allAdmitted environment

/-- **A run of calls keeps every value admitted**, however many of them fail. -/
theorem run_allAdmitted (hs : s.AllAdmitted) (calls : List SettingsCall) :
    (s.run calls).AllAdmitted := by
  induction calls generalizing s with
  | nil => exact hs
  | cons call calls ih => exact ih (perform_allAdmitted hs call)

/-! ## The document of the settings -/

/-- The settings as a document, each with its value. -/
def document (s : Settings) : Document :=
  .ofEntries Document.valueKey (SettingKey.all.map fun key => (key.word, (s.setting key).value))

/-- The document of the settings is accepted exactly if every value is admitted. -/
theorem document_accepted_iff : s.document.complaint? = .ok none ↔ s.AllAdmitted := by
  have hnames : ((SettingKey.all.map fun key => (key.word, (s.setting key).value)).map
      Prod.fst).Nodup := by
    rw [List.map_map]
    exact SettingKey.nodup_words
  rw [Document.complaint?_iff, document, Document.isLayer_ofEntries_iff hnames, List.forall_mem_map]
  constructor
  · intro h key
    obtain ⟨k, hk, hadmits⟩ := h key (SettingKey.mem_all key)
    obtain rfl := SettingKey.word_injective hk
    exact hadmits
  · exact fun h key _ => ⟨key, rfl, h key⟩

/-- The settings have a value under the seven names, and under no other. -/
theorem get_ok_iff {name : Text} {v : Value} :
    s.get name = .ok v ↔ ∃ key, SettingKey.word key = name ∧ v = (s.setting key).value := by
  unfold get
  constructor
  · intro h
    split at h
    · rename_i key hkey
      have hword := List.find?_some hkey
      exact ⟨key, by simpa using hword, (Except.ok.inj h).symm⟩
    · cases h
  · rintro ⟨key, rfl, rfl⟩
    rw [SettingKey.ofText?_word]

/-! ## Runs -/

/-- **Settings stay valid over whole runs** of loaded documents, loaded environments and resets from
the bundled settings, in any order and with any number of calls that fail.  There is a value under
the names of the bundled settings and no other, each is admitted by its rule, and the document that
they make is accepted.  A document is loaded exactly if it can be read and is a layer, and the
environment exactly if every variable is admitted.  Otherwise every value and description stays as it
was.  A reset that fails leaves the bundled settings. -/
theorem run_valid (calls : List SettingsCall) :
    let s := bundled.run calls
    (∀ name v, s.get name = .ok v ↔ ∃ key, SettingKey.word key = name ∧ v = (s.setting key).value) ∧
      (∀ key, (SettingKey.rule key).Admits (s.setting key).value) ∧
      s.document.complaint? = .ok none ∧
      (∀ file document,
        ((s.perform (.load file document)).1 = .ok () ↔ ∃ d, document = .ok d ∧ d.IsLayer) ∧
        ∀ fault, (s.perform (.load file document)).1 = .error fault →
          (s.perform (.load file document)).2 = s) ∧
      (∀ environment,
        ((s.perform (.loadEnvironment environment)).1 = .ok () ↔
          ∀ key, s.VariableAdmitted environment key) ∧
        ∀ fault, (s.perform (.loadEnvironment environment)).1 = .error fault →
          (s.perform (.loadEnvironment environment)).2 = s) ∧
      ∀ environment fault, (s.perform (.reset environment)).1 = .error fault →
        (s.perform (.reset environment)).2 = bundled := by
  intro s
  have hadmitted : s.AllAdmitted := run_allAdmitted bundled_allAdmitted calls
  refine ⟨fun _ _ => get_ok_iff, hadmitted, document_accepted_iff.mpr hadmitted, ?_, ?_, ?_⟩
  · exact fun _ _ => ⟨perform_load_ok_iff, fun _ => attempt_error⟩
  · exact fun _ => ⟨attempt_ok_iff.trans loadEnvironment_iff, fun _ => attempt_error⟩
  · intro environment fault h
    simp only [perform, Settings.reset] at h ⊢
    split at h
    · cases h
    · rfl

end Settings

end Winnow
