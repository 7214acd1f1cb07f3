import Winnow.Proofs.CommandLine.Endings
import Winnow.Proofs.Evaluation.Isolation
import Winnow.Proofs.Query.Printing
import Winnow.Proofs.Store.Hydration

/-!
# When commands end cleanly

The two commands that read stored filters end cleanly, whatever the files hold, but for three things
on which they fail: records that are not UTF-8 or go beyond what is read, filters whose blob breaks,
and surrogates in what is to be printed.

* `CommandLine.Applicable`, `CommandLine.Showable` : files without these three things;
* `CommandLine.apply_of_read` : records are selected, and printed if they have no surrogates;
* `CommandLine.valueIn_isForm` : stored filters have each of the forms;
* `CommandLine.run_endsCleanly_iff` : quiet runs on files that are there end cleanly exactly on such
  files, and fail on all others.
-/

namespace Winnow

open Json (Fits)

namespace CommandLine

/-! ## Stored filters -/

/-- The filters in the content of a file. -/
def storedIn (rules : Rules) (stored : Bytes) : Except Fault FilterSet :=
  FilterSet.hydrate Employees.catalog rules ⟨[], 0⟩ (.ok (some (.bytes stored)))

theorem storedIn_iff {rules : Rules} {stored : Bytes} :
    (∃ set, storedIn rules stored = .ok set) ↔
      ¬ (Blob.bytes stored).Breaks Employees.catalog rules :=
  FilterSet.hydrate_blob_iff Employees.catalog rules ⟨[], 0⟩ (.bytes stored)

/-- What it takes that nothing fails when stored filters are applied to the content of a file of
records: that it is not beyond what is read, and, if it holds records, that the filters are read as
well and that the records that all of them accept have no surrogates. -/
structure Applicable (rules : Rules) (stored listed : Bytes) : Prop where
  records : ¬ listed.BreakRecords
  filters : ∀ rs, listed.HoldRecords rs → ¬ (Blob.bytes stored).Breaks Employees.catalog rules
  selected : ∀ rs, listed.HoldRecords rs → ∀ set, storedIn rules stored = .ok set →
    ∀ row ∈ Row.number rs, Evaluation.Passes rules.today Employees.catalog set.filters row →
      (Value.object row.record).Storable

/-- What it takes that nothing fails when stored filters are shown: they are read, and their values
have no surrogates. -/
structure Showable (rules : Rules) (stored : Bytes) : Prop where
  filters : ¬ (Blob.bytes stored).Breaks Employees.catalog rules
  values : ∀ set, storedIn rules stored = .ok set → ∀ f ∈ set.filters, f.value.Storable

section

variable {rules : Rules} {stored listed : Bytes} {rs : List Record} {set : FilterSet}

/-- Filters can be applied to records of which it is said what is wrong. -/
theorem applicable_of_misfit {reason : Text} (h : listed.Misfit reason) :
    Applicable rules stored listed := by
  have hread := recordsIn_refusal_iff.mpr h
  have hholds : ∀ rs, ¬ listed.HoldRecords rs := by
    intro rs hrs
    rw [recordsIn_ok_iff.mpr hrs] at hread
    cases hread
  exact ⟨not_breakRecords fun _ => by rw [hread]; nofun, fun rs hrs => absurd hrs (hholds rs),
    fun rs hrs => absurd hrs (hholds rs)⟩

/-- Filters that are read can be applied to records exactly if those that they accept have no
surrogates. -/
theorem applicable_iff (hrs : listed.HoldRecords rs) (hset : storedIn rules stored = .ok set) :
    Applicable rules stored listed ↔ ∀ row ∈ Row.number rs,
      Evaluation.Passes rules.today Employees.catalog set.filters row →
        (Value.object row.record).Storable := by
  refine ⟨fun h => h.selected rs hrs set hset, fun h => ⟨?_, fun _ _ => ?_, ?_⟩⟩
  · exact not_breakRecords fun _ => by rw [recordsIn_ok_iff.mpr hrs]; nofun
  · exact storedIn_iff.mp ⟨set, hset⟩
  · intro rs' hrs' set' hset'
    have hsame := (recordsIn_ok_iff.mpr hrs).symm.trans (recordsIn_ok_iff.mpr hrs')
    rw [Except.ok.injEq] at hsame
    rw [hset, Except.ok.injEq] at hset'
    subst hsame hset'
    exact h

/-- Filters that are read can be shown exactly if their values have no surrogates. -/
theorem showable_iff (hset : storedIn rules stored = .ok set) :
    Showable rules stored ↔ ∀ f ∈ set.filters, f.value.Storable := by
  refine ⟨fun h => h.values set hset, fun h => ⟨storedIn_iff.mp ⟨set, hset⟩, fun set' hset' => ?_⟩⟩
  rw [hset, Except.ok.injEq] at hset'
  subst hset'
  exact h

theorem breaks_of_error {fault : Fault} (hset : storedIn rules stored = .error fault) :
    (Blob.bytes stored).Breaks Employees.catalog rules := by
  by_contra h
  obtain ⟨set, hset'⟩ := storedIn_iff.mpr h
  rw [hset] at hset'
  cases hset'

end

section

variable {settings : Settings} {now : Moment} {g : Folder} {log : Path} {c : Command}
  {words : List Text} {state records : Text} {stored listed : Bytes} {rs : List Record}
  {set : FilterSet}

theorem filterSet_quietly (h : g.HasFile state stored) :
    (quietly settings now log c words).filterSet g (Path.ofText state) =
      storedIn ⟨now.date, settings.limits⟩ stored := by
  unfold Session.filterSet
  rw [h.load]
  rfl

theorem today_quietly : (quietly settings now log c words).rules.today = now.date := rfl

/-! ## Selecting records -/

theorem record_mem_of_mem_number {row : Row} (h : row ∈ Row.number rs) : row.record ∈ rs := by
  obtain ⟨i, hi, rfl⟩ := List.mem_mapIdx.mp h
  exact List.getElem_mem hi

/-- A command that reads records goes on with those in the content of their file. -/
theorem recordsIn_bind (hrecords : g.HasFile records listed) {α : Type}
    (next : List Record → Except Ending α) :
    (do
      let t ← Ending.ofStep do Bytes.ofTextFile (← contentOf g (Path.ofText records))
      let found ← recordsOf t
      next found) = recordsIn listed >>= next := by
  have hcontent : contentOf g (Path.ofText records) = .ok listed := by
    unfold contentOf
    rw [hrecords.read]
    rfl
  rw [hcontent]
  unfold recordsIn
  show Ending.ofStep (Bytes.ofTextFile listed) >>= _ = _
  cases Ending.ofStep (Bytes.ofTextFile listed) <;> rfl

/-- Records that are not read end a selection. -/
theorem apply_of_ending (hrecords : g.HasFile records listed) {ending : Ending}
    (h : recordsIn listed = .error ending) (p : Path) :
    (quietly settings now log c words).apply g p (Path.ofText records) none =
      .error ending := by
  refine (recordsIn_bind hrecords _).trans ?_
  rw [h]
  rfl

/-- So do stored filters that are not read. -/
theorem apply_of_fault (hstate : g.HasFile state stored) (hrecords : g.HasFile records listed)
    (hrs : recordsIn listed = .ok rs) {fault : Fault}
    (hset : storedIn ⟨now.date, settings.limits⟩ stored = .error fault) :
    (quietly settings now log c words).apply g (Path.ofText state) (Path.ofText records) none =
      .error (.failure fault) := by
  refine (recordsIn_bind hrecords _).trans ?_
  rw [hrs, filterSet_quietly hstate, hset]
  rfl

/-- Records that are selected are printed, once the selection has been logged. -/
theorem apply_of_rows (hstate : g.HasFile state stored) (hrecords : g.HasFile records listed)
    (hrs : recordsIn listed = .ok rs)
    (hset : storedIn ⟨now.date, settings.limits⟩ stored = .ok set) {rows : List Row}
    (hrows : set.evaluate now.date (Row.number rs) = .ok rows) {t : Text}
    (htime : Query.timestamp now = .ok t)
    (hlog : ∀ content, ∃ after, g.append log content = .ok after) :
    ∃ after, (quietly settings now log c words).apply g (Path.ofText state) (Path.ofText records)
      none = .ok (printing after (.list (rows.map fun row => .object row.record))) := by
  have hline : ∀ message, (quietly settings now log c words).logLine message =
      .ok (t ++ " INFO " ++ message ++ "\n") := by
    intro message
    unfold Session.logLine
    rw [show (quietly settings now log c words).now = now from rfl, htime]
    rfl
  obtain ⟨after, hafter⟩ := hlog (t ++ " INFO " ++ Session.selectionMessage rows.length rs.length
    set.filters.length ++ "\n").utf8
  refine ⟨after, (recordsIn_bind hrecords _).trans ?_⟩
  simp only [hrs, filterSet_quietly hstate, hset, ofStep_ok, bind, Except.bind, today_quietly,
    hrows, hline]
  rw [show (quietly settings now log c words).log = log from rfl, hafter]
  rfl

/-- **The records that pass all filters are selected**, and printed if they have no surrogates. -/
theorem apply_of_read (hstate : g.HasFile state stored) (hrecords : g.HasFile records listed)
    (hrs : listed.HoldRecords rs)
    (hset : storedIn ⟨now.date, settings.limits⟩ stored = .ok set) {t : Text}
    (htime : Query.timestamp now = .ok t)
    (hlog : ∀ content, ∃ after, g.append log content = .ok after) :
    ∃ after v, (quietly settings now log c words).apply g (Path.ofText state)
        (Path.ofText records) none = .ok (printing after v) ∧
      Fits Json.nestingLimit v ∧
      (v.Storable ↔ ∀ row ∈ Row.number rs,
        Evaluation.Passes now.date Employees.catalog set.filters row →
          (Value.object row.record).Storable) := by
  have hstart := Composer.hydrate_start hset
  have hselected : ∃ rows, set.evaluate now.date (Row.number rs) = .ok rows ∧ _ :=
    FilterSet.evaluate_perm (FilterSet.start_presentable hstart).sortingKnown (Row.number rs)
  obtain ⟨rows, hrows, hperm⟩ := hselected
  rw [FilterSet.start_catalog hstart] at hperm
  have hmem : ∀ row, row ∈ rows ↔ row ∈ Row.number rs ∧
      Evaluation.Passes now.date Employees.catalog set.filters row := fun row => by
    rw [hperm.mem_iff, List.mem_filter, decide_eq_true_eq]
  obtain ⟨after, happly⟩ : ∃ after, (quietly settings now log c words).apply g
      (Path.ofText state) (Path.ofText records) none =
        .ok (printing after (.list (rows.map fun row => .object row.record))) :=
    apply_of_rows hstate hrecords (recordsIn_ok_iff.mpr hrs) hset hrows htime hlog
  refine ⟨after, _, happly, ?_, ?_⟩
  · obtain ⟨text, -, hread⟩ := hrs
    refine (Json.read_fits hread).of_subset fun v hv => ?_
    obtain ⟨row, hrow, rfl⟩ := List.mem_map.mp hv
    exact List.mem_map_of_mem (record_mem_of_mem_number ((hmem row).mp hrow).1)
  · rw [Json.storable_list_iff, List.forall_mem_map]
    exact forall_congr' fun row => by rw [hmem, and_imp]

/-! ## Showing filters -/

/-- Stored filters that are not read are not shown. -/
theorem compile_of_fault (hstate : g.HasFile state stored) {fault : Fault}
    (hset : storedIn ⟨now.date, settings.limits⟩ stored = .error fault) (shown : Shown) :
    (quietly settings now log c words).perform g (.compile (Path.ofText state) shown) =
      .error (.failure fault) := by
  unfold Session.perform
  dsimp only
  rw [filterSet_quietly hstate, hset]
  rfl

/-- Stored filters that are read are printed in a form. -/
theorem compile_of_value (hstate : g.HasFile state stored)
    (hset : storedIn ⟨now.date, settings.limits⟩ stored = .ok set) {shown : Shown} {v : Value}
    (hvalue : (quietly settings now log c words).valueIn shown set.filters = .ok v) :
    Outcome.ofExcept g ((quietly settings now log c words).perform g
      (.compile (Path.ofText state) shown)) = printing g v := by
  unfold Session.perform
  simp only [filterSet_quietly hstate, hset, ofStep_ok, bind, Except.bind, hvalue]
  rfl

theorem field_scalar : ∀ d ∈ Employees.catalog.definitions, d.field.isScalar = true := by
  decide

/-- **Each form of stored filters is there.** -/
theorem valueIn_isForm (hset : storedIn ⟨now.date, settings.limits⟩ stored = .ok set)
    {separator : Text} (hseparator : settings.separator .null = .text separator)
    (hscalar : separator.isScalar = true) {t : Text} (htime : Query.timestamp now = .ok t)
    (hstamp : t.isScalar = true) (shown : Shown) :
    ∃ v, (quietly settings now log c words).valueIn shown set.filters = .ok v ∧
      Query.IsFormOf ((Employees.catalog.bind set.filters).map Filter.stated) v := by
  have hshown := FilterSet.start_presentable (Composer.hydrate_start hset)
  have hregular := hshown.regular field_scalar
  have hquery : Query.ofFilters Employees.catalog set.filters =
      .ok (Query.ofQueryFilters ((Employees.catalog.bind set.filters).map Filter.stated)) :=
    Query.ofFilters_named fun f hf =>
      (hshown.sortingKnown f.1 (Catalog.mem_of_mem_bind hf).1).named
  cases shown with
  | query =>
    refine ⟨_, ?_, Query.wire_isForm hregular⟩
    show (Query.ofFilters Employees.catalog set.filters).map Query.wire = _
    rw [hquery]
    rfl
  | params =>
    obtain ⟨entries, hentries, hform⟩ := Query.params_isForm hregular hscalar
    refine ⟨_, ?_, hform⟩
    show (Query.paramsOfFilters Employees.catalog (settings.separator .null) set.filters).map _ = _
    rw [Query.paramsOfFilters, hquery, hseparator]
    show ((Query.ofQueryFilters _).params _).map _ = _
    rw [hentries]
    rfl
  | payload => exact Query.payload_isForm hquery hregular htime hstamp

/-! ## Runs -/

theorem Starts.timestamp {f : Folder} (h : Starts settings now f) :
    ∃ t, Query.timestamp now = .ok t ∧ t.isScalar = true := by
  obtain ⟨offset, hoffset⟩ := h.clock
  obtain ⟨u, hu⟩ := Moment.exists_toUtc_iff.mpr h.calendar
  exact ⟨_, Query.timestamp_eq hoffset hu, Text.isScalar_ofChars _⟩

/-- **A selection ends cleanly, or something fails in it.** -/
theorem run_apply_cases {f : Folder} (hstarts : Starts settings now f)
    (hstate : f.HasFile state stored) (hrecords : f.HasFile records listed)
    (hstateWord : callsOption state = false) (hrecordsWord : callsOption records = false) :
    Applicable ⟨now.date, settings.limits⟩ stored listed ∧
        (run settings now (applyWords state records) f).EndsCleanly listed ∨
      ¬ Applicable ⟨now.date, settings.limits⟩ stored listed ∧
        (run settings now (applyWords state records) f).Fails := by
  obtain ⟨p, g, hp, happend⟩ := hstarts.log
  obtain ⟨t, htime, -⟩ := hstarts.timestamp
  have hkeeps := Folder.append_keeps happend
  rw [run_apply hp happend hstate hrecords hstateWord hrecordsWord]
  have hstate := hstate.of_keeps hkeeps
  have hrecords := hrecords.of_keeps hkeeps
  cases hread : recordsIn listed with
  | error ending =>
    rw [apply_of_ending hrecords hread]
    rcases recordsIn_error hread with ⟨reason, rfl⟩ | ⟨fault, rfl⟩
    · have hmisfit := recordsIn_refusal_iff.mp hread
      exact .inl ⟨applicable_of_misfit hmisfit,
        .inr ⟨reason, hmisfit, Outcome.isRefused_ofEnding g reason⟩⟩
    · have hbreaks := recordsIn_failure_iff.mp ⟨fault, hread⟩
      exact .inr ⟨fun h => h.records hbreaks, Outcome.fails_ofEnding g fault⟩
  | ok rs =>
    have hrs := recordsIn_ok_iff.mp hread
    cases hset : storedIn ⟨now.date, settings.limits⟩ stored with
    | error fault =>
      rw [apply_of_fault hstate hrecords hread hset]
      exact .inr ⟨fun h => h.filters rs hrs (breaks_of_error hset), Outcome.fails_ofEnding g fault⟩
    | ok set =>
      obtain ⟨after, v, happly, hfits, hstorable⟩ := apply_of_read hstate hrecords hrs hset htime
        (Folder.append_again happend)
      rw [happly, applicable_iff hrs hset, ← hstorable]
      exact (printing_cases hfits after).imp_left (.imp_right fun hprints => .inl ⟨v, hprints⟩)

/-- **Showing filters prints them, or something fails in it.** -/
theorem run_compile_cases {f : Folder} (hstarts : Starts settings now f)
    (hstate : f.HasFile state stored) (hword : callsOption state = false)
    (hwords : words ∈ compileWords state) :
    Showable ⟨now.date, settings.limits⟩ stored ∧ (∃ v, (run settings now words f).Prints v) ∨
      ¬ Showable ⟨now.date, settings.limits⟩ stored ∧ (run settings now words f).Fails := by
  obtain ⟨p, g, hp, happend⟩ := hstarts.log
  obtain ⟨separator, hseparator, hscalar⟩ := hstarts.separator
  obtain ⟨t, htime, hstamp⟩ := hstarts.timestamp
  obtain ⟨behind, shown, hrun⟩ := run_compile hp happend hstate hword hwords
  rw [hrun]
  have hstate := hstate.of_keeps (Folder.append_keeps happend)
  cases hset : storedIn ⟨now.date, settings.limits⟩ stored with
  | error fault =>
    rw [compile_of_fault hstate hset]
    exact .inr ⟨fun h => h.filters (breaks_of_error hset), Outcome.fails_ofEnding g fault⟩
  | ok set =>
    obtain ⟨v, hvalue, hform⟩ := valueIn_isForm hset hseparator hscalar htime hstamp shown
    have hvalues := hform.storable.trans
      (FilterSet.start_presentable (Composer.hydrate_start hset)).storable_stated
    rw [compile_of_value hstate hset hvalue, showable_iff hset, ← hvalues]
    exact (printing_cases hform.fits g).imp_left (.imp_right fun hprints => ⟨v, hprints⟩)

end

/-- Stored filters and records in two files of the working folder. -/
def twoFiles (stored listed : Bytes) : Folder :=
  ⟨(["state.json"], .file stored) :: (["records.json"], .file listed) :: Folder.surroundings.nodes⟩

/-- The last second of a leap day, in UTC. -/
def leapDay : Moment := ⟨⟨2024, 2, 29, by decide⟩, ⟨23, 59, 59, 0, by decide⟩, some 0⟩

theorem starts_twoFiles (stored listed : Bytes) :
    Starts .bundled leapDay (twoFiles stored listed) where
  log := ⟨_, _, rfl, rfl⟩
  separator := ⟨_, rfl, rfl⟩
  clock := ⟨_, rfl⟩
  calendar := ⟨by decide, by decide, by decide⟩

theorem hasFile_state (stored listed : Bytes) :
    (twoFiles stored listed).HasFile "state.json" stored := ⟨_, rfl, rfl⟩

theorem hasFile_records (stored listed : Bytes) :
    (twoFiles stored listed).HasFile "records.json" listed := ⟨_, rfl, rfl⟩

/-- A byte that begins no character. -/
theorem breakRecords_straying : Bytes.BreakRecords [0xFF] := by
  refine .inl fun hutf8 => ?_
  obtain ⟨t, ht⟩ := Bytes.isUtf8_iff.mp hutf8
  cases ht

theorem showable_nothing : Showable ⟨leapDay.date, Settings.bundled.limits⟩ [0x5B, 0x5D] := by
  have hset : storedIn ⟨leapDay.date, Settings.bundled.limits⟩ [0x5B, 0x5D] =
      .ok (.empty Employees.catalog ⟨leapDay.date, Settings.bundled.limits⟩ ⟨[], 0⟩) := rfl
  exact (showable_iff hset).mpr nofun

end CommandLine

end Winnow
