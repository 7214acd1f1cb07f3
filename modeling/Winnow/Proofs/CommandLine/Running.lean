import Winnow.CommandLine
import Winnow.Proofs.Query.Timestamp
import Winnow.Proofs.Store.Naming

/-!
# Running a command quietly

Called with the quiet option, a command and the names of files, the program does what the command
does to these files, on the first of the catalogs and with the settings as they are.

* `CommandLine.Starts` : what the program needs in order to start;
* `CommandLine.run_quiet` : a run with the quiet option does what its command is asked to do;
* `CommandLine.applyWords`, `CommandLine.compileWords` : the words that call the two commands;
* `CommandLine.run_apply`, `CommandLine.run_compile` : runs on files that are there.
-/

namespace Winnow.CommandLine

/-! ## Starting -/

/-- What the program needs in order to start: a path for its log, to which it can append, a
separator without surrogates, and a time that is in the calendar in UTC. -/
structure Starts (settings : Settings) (now : Moment) (f : Folder) : Prop where
  log : ∃ p g, Path.ofValue (settings.setting .logFile).value = .ok p ∧ f.append p.direct [] = .ok g
  separator : ∃ t, settings.separator .null = .text t ∧ t.isScalar = true
  clock : ∃ offset, now.offset = some offset
  calendar : now.InCalendar

/-- A run with the quiet option, with given words behind the command. -/
def quietly (settings : Settings) (now : Moment) (log : Path) (c : Command) (words : List Text) :
    Session :=
  ⟨⟨Employees.catalog, none, true, c, words⟩, ⟨now.date, settings.limits⟩,
    settings.separator .null, log, now⟩

variable {settings : Settings} {now : Moment} {f g : Folder} {c : Command} {words : List Text}

/-- The quiet option and the command are read, whatever follows. -/
theorem preamble_quiet (f : Folder) (c : Command) (words : List Text) :
    Preamble.read f ("-q" :: c.word :: words) = .ok ⟨Employees.catalog, none, true, c, words⟩ := by
  cases c <;> rfl

theorem prepare_quiet {p : Path} (hlog : Path.ofValue (settings.setting .logFile).value = .ok p) :
    prepare settings now ("-q" :: c.word :: words) f =
      .ok (quietly settings now p.direct c words) := by
  unfold prepare
  rw [preamble_quiet]
  simp only [bind, Except.bind, hlog]
  rfl

/-- **A run with the quiet option does what its command is asked to do.** -/
theorem run_quiet {p : Path} (hlog : Path.ofValue (settings.setting .logFile).value = .ok p)
    (happend : f.append p.direct [] = .ok g) {request : Request}
    (hrequest : Request.read g c words = .ok request) :
    run settings now ("-q" :: c.word :: words) f =
      .ofExcept g ((quietly settings now p.direct c words).perform g request) := by
  unfold run
  rw [prepare_quiet hlog]
  dsimp only
  rw [show (quietly settings now p.direct c words).log = p.direct from rfl, happend]
  dsimp only
  unfold Session.run
  rw [show (quietly settings now p.direct c words).preamble = ⟨_, _, _, c, words⟩ from rfl, hrequest]
  rfl

/-! ## The words behind the command -/

/-- A file that is there can be given as an argument. -/
theorem filePath_of_hasFile {t : Text} {content : Bytes} (h : f.HasFile t content)
    (command : Option Command) (subject : Text) (mustExist : Bool) :
    filePath f command subject mustExist t = .ok (Path.ofText t) := by
  obtain ⟨n, hfind, hcontent⟩ := h
  unfold filePath
  rw [hfind]
  cases n with
  | folder => cases hcontent
  | file content => rfl
  | sink => rfl

/-- The words that call for records to be selected by stored filters. -/
def applyWords (state records : Text) : List Text :=
  ["-q", Command.apply.word, state, records]

/-- The words that call for stored filters to be shown: as they are by default, and in each of the
forms. -/
def compileWords (state : Text) : List (List Text) :=
  ["-q", Command.compile.word, state] ::
    Shown.named.map fun form => ["-q", Command.compile.word, state, "-f", form.1]

theorem ne_hyphens {word : Text} (h : callsOption word = false) : word ≠ hyphens := by
  rintro rfl
  cases h

/-- A word that calls no option is an argument. -/
theorem read_argument {α : Type} {form : Form α} (hform : form.interspersed = true) {word : Text}
    (hword : callsOption word = false) (words : List Text) :
    form.read (word :: words) =
      (form.read words).map fun given => { given with arguments := word :: given.arguments } := by
  rw [Form.read.eq_def]
  simp only [if_neg (ne_hyphens hword), hword, hform, Bool.false_eq_true, if_false, if_true]

theorem argument_of_hasFile {t : Text} {content : Bytes} (h : f.HasFile t content)
    (c : Command) (name : Text) (mustExist : Bool) :
    Request.argument f c name mustExist (some t) = .ok (Path.ofText t) :=
  filePath_of_hasFile h (some c) _ mustExist

theorem request_apply {state records : Text} {stored listed : Bytes}
    (hstate : f.HasFile state stored) (hrecords : f.HasFile records listed)
    (hstateWord : callsOption state = false) (hrecordsWord : callsOption records = false) :
    Request.read f .apply [state, records] =
      .ok (.apply (Path.ofText state) (Path.ofText records) none) := by
  have hread : Command.apply.form.read [state, records] = .ok ⟨[], [state, records]⟩ := by
    rw [read_argument rfl hstateWord, read_argument rfl hrecordsWord]
    rfl
  have hgiven : Request.ofGiven f .apply ⟨[], [state, records]⟩ = (do
      let state ← Request.argument f .apply "STATE" false (some state)
      let records ← Request.argument f .apply "RECORDS" true (some records)
      return .apply state records none) := rfl
  unfold Request.read
  rw [hread]
  show Request.ofGiven f .apply ⟨[], [state, records]⟩ = _
  rw [hgiven, argument_of_hasFile hstate, argument_of_hasFile hrecords]
  rfl

theorem request_compile {state : Text} {stored : Bytes} (hstate : f.HasFile state stored)
    (hword : callsOption state = false) :
    Request.read f .compile [state] = .ok (.compile (Path.ofText state) .query) := by
  have hread : Command.compile.form.read [state] = .ok ⟨[], [state]⟩ := by
    rw [read_argument rfl hword]
    rfl
  have hgiven : Request.ofGiven f .compile ⟨[], [state]⟩ = (do
      let state ← Request.argument f .compile "STATE" false (some state)
      return .compile state .query) := rfl
  unfold Request.read
  rw [hread]
  show Request.ofGiven f .compile ⟨[], [state]⟩ = _
  rw [hgiven, argument_of_hasFile hstate]
  rfl

theorem request_compile_in {state : Text} {stored : Bytes} (hstate : f.HasFile state stored)
    (hword : callsOption state = false) {form : Text × Shown} (hform : form ∈ Shown.named) :
    Request.read f .compile [state, "-f", form.1] =
      .ok (.compile (Path.ofText state) form.2) := by
  have hread : Command.compile.form.read [state, "-f", form.1] =
      .ok ⟨[(.format, some form.1)], [state]⟩ := by
    rw [read_argument rfl hword]
    rfl
  have hgiven : Request.ofGiven f .compile ⟨[(.format, some form.1)], [state]⟩ = (do
      let state ← Request.argument f .compile "STATE" false (some state)
      return .compile state form.2) := by
    simp only [Shown.named, List.mem_cons, List.not_mem_nil, or_false] at hform
    rcases hform with rfl | rfl | rfl <;> rfl
  unfold Request.read
  rw [hread]
  show Request.ofGiven f .compile ⟨[(.format, some form.1)], [state]⟩ = _
  rw [hgiven, argument_of_hasFile hstate]
  rfl

/-! ## Runs on files that are there -/

/-- **A run on two files that are there** selects records by stored filters. -/
theorem run_apply {p : Path} (hlog : Path.ofValue (settings.setting .logFile).value = .ok p)
    (happend : f.append p.direct [] = .ok g) {state records : Text} {stored listed : Bytes}
    (hstate : f.HasFile state stored) (hrecords : f.HasFile records listed)
    (hstateWord : callsOption state = false) (hrecordsWord : callsOption records = false) :
    run settings now (applyWords state records) f =
      .ofExcept g ((quietly settings now p.direct .apply [state, records]).apply g
        (Path.ofText state) (Path.ofText records) none) := by
  have hkeeps := Folder.append_keeps happend
  exact run_quiet hlog happend
    (request_apply (hstate.of_keeps hkeeps) (hrecords.of_keeps hkeeps) hstateWord hrecordsWord)

/-- **A run on a file that is there** shows stored filters. -/
theorem run_compile {p : Path} (hlog : Path.ofValue (settings.setting .logFile).value = .ok p)
    (happend : f.append p.direct [] = .ok g) {state : Text} {stored : Bytes}
    (hstate : f.HasFile state stored) (hword : callsOption state = false) {words : List Text}
    (hwords : words ∈ compileWords state) :
    ∃ behind shown, run settings now words f =
      .ofExcept g ((quietly settings now p.direct .compile behind).perform g
        (.compile (Path.ofText state) shown)) := by
  have hstate' := hstate.of_keeps (Folder.append_keeps happend)
  rcases List.mem_cons.mp hwords with rfl | hwords
  · exact ⟨_, _, run_quiet hlog happend (request_compile hstate' hword)⟩
  · obtain ⟨form, hform, rfl⟩ := List.mem_map.mp hwords
    exact ⟨_, _, run_quiet hlog happend (request_compile_in hstate' hword hform)⟩

end Winnow.CommandLine
