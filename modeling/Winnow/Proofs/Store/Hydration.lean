import Winnow.Catalog.Employees
import Winnow.Json.Reader
import Winnow.Proofs.Json.Token
import Winnow.Proofs.Store.Decoding
import Winnow.Proofs.Value.Faults
import Winnow.Settings

/-!
# When stored filters can be read

A blob that holds no list of filters is reported as malformed, and an entry that makes no filter is
dropped.  Two things are neither: an integer that is too long to be read, and a date whose time of
day has too many digits.  They fail in their own way, and take the reading of the whole set with
them.

* `Blob.Breaks` : a blob holds one of the two;
* `FilterSet.storedFilter_error_iff`, `FilterSet.storedFilters_error_iff` : an entry fails, rather than
  being dropped, only by its date;
* `FilterSet.deserialize_error` : how the reading of a blob fails;
* `FilterSet.hydrate_blob_iff` : the set of a blob is there exactly where the blob does not break;
* `FilterSet.hydrate_settled_iff` : the set of what a store gave is there exactly where the blob does
  not hold one of the two.
-/

namespace Winnow

open Outcome

/-! ## Entries -/

namespace Filter

/-- A stored filter with a date whose time of day has too many digits. -/
def HasOverlongTime (c : Catalog) (rules : Rules) (item : Value) : Prop :=
  ∃ f d, ofEntry item = .ok f ∧ c.find? f.definitionId = some d ∧
    d.kind.admits rules f.value = .error .tooManyPlaces

/-- The failures of reading an entry are not those of arithmetic. -/
def NotArithmetic (fault : Fault) : Prop := fault.isArithmetic = false

theorem plainText_notArithmetic (v : Value) : FailsWith NotArithmetic v.plainText :=
  v.plainText_faults.mono fun _ h => h.not_arithmetic

theorem required_notArithmetic (key : Text) (entries : Value.Entries) :
    FailsWith NotArithmetic (required key entries) := by
  unfold required
  split
  · exact failsWith_ok _
  · exact failsWith_error rfl

theorem direction_notArithmetic (v : Value) : FailsWith NotArithmetic (Direction.ofValue v) := by
  unfold Direction.ofValue
  split
  · split
    · exact failsWith_ok _
    · exact failsWith_error rfl
  · exact FailsWith.bind (v.literal_faults.mono fun _ h => h.not_arithmetic) fun _ =>
      failsWith_error rfl

theorem entryOperator_notArithmetic (entries : Value.Entries) :
    FailsWith NotArithmetic (entryOperator entries) := by
  unfold entryOperator
  dsimp only
  split
  · exact failsWith_ok _
  · exact failsWith_error rfl

theorem entrySorting_notArithmetic (entries : Value.Entries) :
    FailsWith NotArithmetic (entrySorting entries) := by
  unfold entrySorting
  split
  · exact failsWith_ok _
  · exact failsWith_ok _
  · exact (direction_notArithmetic _).bind fun _ => failsWith_pure _

theorem entryDefinition_notArithmetic (entries : Value.Entries) :
    FailsWith NotArithmetic (entryDefinition entries) := by
  unfold entryDefinition
  split
  · exact failsWith_ok _
  · exact required_notArithmetic _ entries

theorem ofEntry_notArithmetic (item : Value) : FailsWith NotArithmetic (ofEntry item) := by
  unfold ofEntry
  split
  · rename_i entries
    exact (entryDefinition_notArithmetic entries).bind fun definition =>
      (entryOperator_notArithmetic entries).bind fun _ =>
        (required_notArithmetic _ entries).bind fun _ => (plainText_notArithmetic _).bind fun _ =>
          (plainText_notArithmetic definition).bind fun _ =>
            (entrySorting_notArithmetic entries).bind fun _ => failsWith_pure _
  · exact failsWith_error rfl

end Filter

/-! ## Admission -/

namespace FieldKind

variable {rules : Rules}

/-- The failures of admitting a value: a date that cannot be read, and a limit that is no number. -/
def IsAdmission (fault : Fault) : Prop := fault = .tooManyPlaces ∨ fault = .unusableSetting

theorem compare_faults (length : Nat) (limit : Value) :
    FailsWith IsAdmission (Limits.compare length limit) := by
  unfold Limits.compare
  split
  · exact failsWith_ok _
  · exact failsWith_error (.inr rfl)

theorem lengthAdmitted_faults (limits : Limits) (v : Value) :
    FailsWith IsAdmission (lengthAdmitted limits v) := by
  unfold lengthAdmitted
  split
  · exact (compare_faults _ _).bind fun _ => failsWith_pure _
  · exact failsWith_ok _

theorem fits_faults (today : Date) (kind : FieldKind) (v : Value) :
    FailsWith IsAdmission (kind.fits today v) := by
  unfold fits
  split
  all_goals first
    | exact failsWith_ok _
    | exact FailsWith.bind ((Moment.ofWritten_faults today _).mono fun _ h => .inl h.1) fun _ =>
        failsWith_pure _

theorem admitsItem_faults (kind : FieldKind) (v : Value) :
    FailsWith IsAdmission (admitsItem rules kind v) := by
  refine (fits_faults rules.today kind v).bind fun b => ?_
  cases b with
  | true => exact lengthAdmitted_faults rules.limits v
  | false => exact failsWith_pure _

theorem admitsItems_faults (kind : FieldKind) (items : List Value) :
    FailsWith IsAdmission (admitsItems rules kind items) := by
  unfold admitsItems
  split
  · exact failsWith_pure _
  · refine FailsWith.bind ((compare_faults _ _).bind fun _ => failsWith_pure _) fun b => ?_
    cases b with
    | true => exact failsWith_pure _
    | false => exact failsWith_allM (admitsItem_faults kind) items

theorem admits_faults (kind : FieldKind) (v : Value) :
    FailsWith IsAdmission (kind.admits rules v) := by
  unfold admits
  split
  · exact failsWith_ok _
  · exact admitsItems_faults kind _
  · exact admitsItems_faults kind _
  · exact admitsItem_faults kind v

end FieldKind

namespace FilterSet

variable {c : Catalog} {rules : Rules} {tokens : Tokens}

/-- **An entry fails, rather than being dropped, only by the time of its date.** -/
theorem storedFilter_error_iff {item : Value} {fault : Fault} :
    storedFilter c rules item = .error fault ↔
      fault = .tooManyPlaces ∧ Filter.HasOverlongTime c rules item := by
  constructor
  · intro h
    unfold storedFilter at h
    split at h
    · split at h
      · cases h
      · rename_i fault' hresolve
        split at h
        · rename_i harithmetic
          cases h
          unfold Filter.resolve at hresolve
          rcases of_bind_error hresolve with hread | ⟨f, hread, hresolve⟩
          · rw [Filter.ofEntry_notArithmetic _ _ hread] at harithmetic
            cases harithmetic
          · split at hresolve
            · cases hresolve
              cases harithmetic
            · rename_i d hdefinition
              rcases of_bind_error hresolve with hadmits | ⟨_, _, hresolve⟩
              · rcases FieldKind.admits_faults d.kind f.value _ hadmits with rfl | rfl
                · exact ⟨rfl, f, d, hread, hdefinition, hadmits⟩
                · cases harithmetic
              · cases hresolve
        · cases h
    · cases h
  · rintro ⟨rfl, f, d, hread, hdefinition, hadmits⟩
    have hresolve : Filter.resolve c rules item = .error .tooManyPlaces := by
      unfold Filter.resolve
      rw [hread]
      simp only [bind, Except.bind, hdefinition, Filter.repaired, hadmits]
    cases item with
    | object entries =>
      unfold storedFilter
      rw [hresolve]
      rfl
    | _ => cases hread

/-- So does the reading of a list of items. -/
theorem storedFilters_error_iff {items : List Value} {fault : Fault} :
    storedFilters c rules items = .error fault ↔
      fault = .tooManyPlaces ∧ ∃ item ∈ items, Filter.HasOverlongTime c rules item := by
  constructor
  · intro h
    rcases of_bind_error h with hitems | ⟨_, _, h⟩
    · obtain ⟨item, hitem, hfail⟩ := mapM_error hitems
      obtain ⟨hfault, htime⟩ := storedFilter_error_iff.mp hfail
      exact ⟨hfault, item, hitem, htime⟩
    · cases h
  · rintro ⟨rfl, item, hitem, htime⟩
    have hfail : storedFilter c rules item = .error .tooManyPlaces :=
      storedFilter_error_iff.mpr ⟨rfl, htime⟩
    unfold storedFilters
    cases hitems : items.mapM (storedFilter c rules) with
    | error fault =>
      obtain ⟨other, -, hother⟩ := mapM_error hitems
      rw [(storedFilter_error_iff.mp hother).1]
      rfl
    | ok found =>
      obtain ⟨o, -, ho⟩ := ok_of_mapM_ok hitems hitem
      rw [hfail] at ho
      cases ho

end FilterSet

/-! ## Blobs -/

namespace Blob

/-- The JSON text in a blob has an integer that is too long to be read. -/
def HasLongInteger (blob : Blob) : Prop :=
  ∃ t digits, blob.json = .ok (t, .error (.longInteger digits))

/-- A blob holds an integer that is too long to be read, or a list with an entry whose date has too
many digits in its time of day. -/
def Breaks (c : Catalog) (rules : Rules) (blob : Blob) : Prop :=
  blob.HasLongInteger ∨
    ∃ items, FilterSet.storedItems blob = .ok items ∧
      ∃ item ∈ items, Filter.HasOverlongTime c rules item

end Blob

theorem Bytes.decode_faults (bytes : Bytes) :
    FailsWith (fun fault => ∃ reason, fault = .undecodable reason) (Bytes.decode bytes) := by
  unfold Bytes.decode
  dsimp only
  split
  · exact failsWith_ok _
  · exact failsWith_error ⟨_, rfl⟩

namespace FilterSet

variable {c : Catalog} {rules : Rules} {tokens : Tokens}

/-- Stored filters that are no list. -/
def IsMalformed (fault : Fault) : Prop := ∃ reason, fault = .malformed reason

/-- The JSON value of a blob is read, or the blob is malformed or has an integer that is too long. -/
theorem storedValue_error {blob : Blob} {fault : Fault} (h : storedValue blob = .error fault) :
    IsMalformed fault ∨ blob.HasLongInteger := by
  unfold storedValue at h
  split at h
  · cases h
    exact .inl ⟨_, rfl⟩
  · rename_i fault' hother hjson
    -- bytes that cannot be decoded are the only failure before the text is read
    unfold Blob.json at hjson
    split at hjson
    · rcases of_bind_error hjson with hdecode | ⟨t, _, hjson⟩
      · obtain ⟨reason, rfl⟩ := Bytes.decode_faults _ _ hdecode
        exact absurd rfl (hother reason)
      · cases hjson
    · cases hjson
  · cases h
  · rename_i t digits hjson
    exact .inr ⟨t, digits, hjson⟩
  · cases h
    exact .inl ⟨_, rfl⟩

theorem storedValue_of_longInteger {blob : Blob} (h : blob.HasLongInteger) :
    ∃ digits, storedValue blob = .error (.digitLimit (some digits)) := by
  obtain ⟨t, digits, hjson⟩ := h
  refine ⟨digits, ?_⟩
  unfold storedValue
  rw [hjson]

/-- **How the reading of a blob fails**: it is malformed, or it breaks. -/
theorem deserialize_error {blob : Blob} {fault : Fault}
    (h : deserialize c rules tokens blob = .error fault) :
    IsMalformed fault ∨ blob.Breaks c rules := by
  unfold deserialize at h
  rcases of_bind_error h with hitems | ⟨items, hitems, h⟩
  · unfold storedItems at hitems
    rcases of_bind_error hitems with hvalue | ⟨v, _, hitems⟩
    · exact (storedValue_error hvalue).imp id .inl
    · split at hitems
      · cases hitems
      · cases hitems
        exact .inl ⟨_, rfl⟩
  · rcases of_bind_error h with hfilters | ⟨filters, _, h⟩
    · exact .inr (.inr ⟨items, hitems, (storedFilters_error_iff.mp hfilters).2⟩)
    · cases h

/-- A blob that breaks is not read, and not reported as malformed either. -/
theorem deserialize_of_breaks {blob : Blob} (h : blob.Breaks c rules) :
    ∃ fault, deserialize c rules tokens blob = .error fault ∧ fault.isUnreadable = false := by
  rcases h with hlong | ⟨items, hitems, htime⟩
  · obtain ⟨digits, hvalue⟩ := storedValue_of_longInteger hlong
    refine ⟨.digitLimit (some digits), ?_, rfl⟩
    unfold deserialize storedItems
    rw [hvalue]
    rfl
  · refine ⟨.tooManyPlaces, ?_, rfl⟩
    rw [deserialize_eq hitems, storedFilters_error_iff.mpr ⟨rfl, htime⟩]
    rfl

/-- A blob is read, or reported as malformed, exactly where it does not break. -/
theorem deserialize_iff (c : Catalog) (rules : Rules) (tokens : Tokens) (blob : Blob) :
    ((∃ s, deserialize c rules tokens blob = .ok s) ∨
      ∃ fault, deserialize c rules tokens blob = .error fault ∧ IsMalformed fault) ↔
      ¬ blob.Breaks c rules := by
  constructor
  · intro h hbreaks
    obtain ⟨fault, hfail, hescapes⟩ := deserialize_of_breaks hbreaks
    rcases h with ⟨s, hs⟩ | ⟨fault', hfail', reason, rfl⟩
    · rw [hfail] at hs
      cases hs
    · rw [hfail, Except.error.injEq] at hfail'
      rw [hfail'] at hescapes
      cases hescapes
  · intro h
    cases hread : deserialize c rules tokens blob with
    | ok s => exact .inl ⟨s, rfl⟩
    | error fault => exact .inr ⟨fault, rfl, (deserialize_error hread).resolve_right h⟩

theorem hydrate_of_fault {fault : Fault} (h : fault.isUnreadable = true) :
    hydrate c rules tokens (.error fault) = .ok (empty c rules tokens) := by
  simp only [hydrate, h, if_true]

theorem hydrate_of_isEmpty {blob : Blob} (h : blob.isEmpty = true) :
    hydrate c rules tokens (.ok (some blob)) = .ok (empty c rules tokens) := by
  simp only [hydrate, h, if_true]

theorem hydrate_of_ok {blob : Blob} {s : FilterSet} (hne : blob.isEmpty = false)
    (h : deserialize c rules tokens blob = .ok s) :
    hydrate c rules tokens (.ok (some blob)) = .ok s := by
  simp only [hydrate, hne, Bool.false_eq_true, if_false, h]

theorem hydrate_of_error {blob : Blob} {fault : Fault} (hne : blob.isEmpty = false)
    (h : deserialize c rules tokens blob = .error fault) :
    hydrate c rules tokens (.ok (some blob)) =
      if fault.isUnreadable then .ok (empty c rules tokens) else .error fault := by
  simp only [hydrate, hne, Bool.false_eq_true, if_false, h]

/-- A blob that is read as no list gives the empty set. -/
theorem hydrate_of_noList {blob : Blob} (hlong : ¬ blob.HasLongInteger)
    (hlist : ∀ items, storedItems blob ≠ .ok items) :
    hydrate c rules tokens (.ok (some blob)) = .ok (empty c rules tokens) := by
  cases hempty : blob.isEmpty with
  | true => exact hydrate_of_isEmpty hempty
  | false =>
    have hread : (∃ s, deserialize c rules tokens blob = .ok s) ∨
        ∃ fault, deserialize c rules tokens blob = .error fault ∧ IsMalformed fault := by
      rw [deserialize_iff]
      rintro (h | ⟨items, hitems, _⟩)
      · exact hlong h
      · exact hlist items hitems
    rcases hread with ⟨s, hs⟩ | ⟨fault, hfail, reason, rfl⟩
    · obtain ⟨items, hitems, _⟩ := of_bind_ok hs
      exact absurd hitems (hlist items)
    · rw [hydrate_of_error hempty hfail]
      rfl

/-- A blob without content does not break. -/
theorem not_breaks_of_isEmpty {blob : Blob} (h : blob.isEmpty = true) : ¬ blob.Breaks c rules := by
  obtain ⟨reason, hvalue⟩ : ∃ reason, storedValue blob = .error (.malformed reason) := by
    cases blob with
    | bytes b =>
      cases b with
      | nil => exact ⟨_, rfl⟩
      | cons b bs => cases h
    | text t =>
      cases t with
      | nil => exact ⟨_, rfl⟩
      | cons c cs => cases h
  rintro (hlong | ⟨items, hitems, -⟩)
  · obtain ⟨digits, hlong⟩ := storedValue_of_longInteger hlong
    rw [hvalue] at hlong
    cases hlong
  · unfold storedItems at hitems
    rw [hvalue] at hitems
    cases hitems

/-- The set of a blob is there exactly where the blob does not break. -/
theorem hydrate_blob_iff (c : Catalog) (rules : Rules) (tokens : Tokens) (blob : Blob) :
    (∃ s, hydrate c rules tokens (.ok (some blob)) = .ok s) ↔ ¬ blob.Breaks c rules := by
  constructor
  · rintro ⟨s, hs⟩ hbreaks
    have hne : blob.isEmpty = false := Bool.eq_false_iff.mpr fun h => not_breaks_of_isEmpty h hbreaks
    obtain ⟨fault, hfail, hescapes⟩ := deserialize_of_breaks hbreaks
    rw [hydrate_of_error hne hfail, hescapes] at hs
    cases hs
  · intro h
    cases hempty : blob.isEmpty with
    | true => exact ⟨_, hydrate_of_isEmpty hempty⟩
    | false =>
      rcases (deserialize_iff c rules tokens blob).mpr h with ⟨s, hs⟩ | ⟨fault, hfail, reason, rfl⟩
      · exact ⟨s, hydrate_of_ok hempty hs⟩
      · exact ⟨_, hydrate_of_error hempty hfail⟩

/-- **When stored filters can be read.**  A blob is read or reported as malformed, and a composer
gets its set, exactly where the blob does not break.  A store that cannot be read, and a blob that
holds no list, give the empty set. -/
theorem hydrate_settled_iff (c : Catalog) (rules : Rules) (tokens : Tokens)
    {loaded : Except Fault (Option Blob)}
    (hloaded : ∀ fault, loaded = .error fault → fault.isUnreadable = true) :
    (∀ blob, ((∃ s, deserialize c rules tokens blob = .ok s) ∨
        ∃ fault, deserialize c rules tokens blob = .error fault ∧ IsMalformed fault) ↔
      ¬ blob.Breaks c rules) ∧
    ((∃ s, hydrate c rules tokens loaded = .ok s) ↔
      ∀ blob, loaded = .ok (some blob) → blob.isEmpty = false → ¬ blob.Breaks c rules) ∧
    (∀ fault, loaded = .error fault →
      hydrate c rules tokens loaded = .ok (empty c rules tokens)) ∧
    ∀ blob, loaded = .ok (some blob) → ¬ blob.HasLongInteger →
      (∀ items, storedItems blob ≠ .ok items) →
      hydrate c rules tokens loaded = .ok (empty c rules tokens) := by
  refine ⟨deserialize_iff c rules tokens, ?_, ?_, ?_⟩
  · constructor
    · rintro ⟨s, hs⟩ blob rfl hne hbreaks
      obtain ⟨fault, hfail, hescapes⟩ := deserialize_of_breaks hbreaks
      rw [hydrate_of_error hne hfail, hescapes] at hs
      cases hs
    · intro h
      rcases loaded with fault | _ | blob
      · exact ⟨_, hydrate_of_fault (hloaded fault rfl)⟩
      · exact ⟨_, rfl⟩
      · cases hempty : blob.isEmpty with
        | true => exact ⟨_, hydrate_of_isEmpty hempty⟩
        | false =>
          rcases (deserialize_iff c rules tokens blob).mpr (h blob rfl hempty) with
            ⟨s, hs⟩ | ⟨fault, hfail, reason, rfl⟩
          · exact ⟨s, hydrate_of_ok hempty hs⟩
          · exact ⟨_, hydrate_of_error hempty hfail⟩
  · rintro fault rfl
    exact hydrate_of_fault (hloaded fault rfl)
  · rintro blob rfl hlong hlist
    exact hydrate_of_noList hlong hlist

/-- A store that fails. -/
theorem hydrate_settled_iff_failing :
    hydrate Employees.catalog ⟨default, Settings.bundled.limits⟩ ⟨[], 0⟩
        (.error (.storeFailed .load [])) =
      .ok (empty Employees.catalog ⟨default, Settings.bundled.limits⟩ ⟨[], 0⟩) := by
  refine (hydrate_settled_iff Employees.catalog ⟨default, Settings.bundled.limits⟩ ⟨[], 0⟩
    (fun fault h => ?_)).2.2.1 (.storeFailed .load []) rfl
  cases h
  rfl

/-! ## Integers that are too long -/

/-- A list of an integer of so many ones. -/
def onesText (n : Nat) : Text := .scalar '[' :: (List.replicate n (.scalar '1') ++ [.scalar ']'])

theorem read_onesText {n : Nat} (hn : Numeral.digitLimit < n) :
    Json.read (onesText n) = .error (.longInteger n) := by
  obtain ⟨k, rfl⟩ : ∃ k, n = k + 1 := ⟨n - 1, by omega⟩
  have hwhole : Json.IsWhole (List.replicate (k + 1) (.scalar '1')) := by
    rw [List.replicate_succ]
    refine .digits rfl (by decide) fun c hc => ?_
    rw [List.eq_of_mem_replicate hc]
    rfl
  have hends : Json.EndsNumber [.scalar ']'] := by
    intro c hc
    cases hc
    exact ⟨rfl, by decide, by decide, by decide⟩
  have hscan := Json.scanNumber_longInteger hwhole (by rwa [List.length_replicate]) hends
  rw [List.length_replicate, List.replicate_succ, List.cons_append] at hscan
  have hbegins : Json.BeginsNumber (.scalar '1' :: (List.replicate k (.scalar '1') ++ [.scalar ']'])) :=
    ⟨_, _, rfl, .inl rfl⟩
  rw [← Json.scanToken_number hbegins] at hscan
  have hcut := @Json.tokensFrom_token 1 (.scalar '1') (List.replicate k (.scalar '1')) [.scalar ']']
    (.longInteger (k + 1)) rfl (by rw [hscan, List.length_replicate])
  have htokens : Json.tokens (onesText (k + 1)) = ⟨0, .openArray⟩ :: ⟨1, .longInteger (k + 1)⟩ ::
      Json.tokensFrom (1 + ((List.replicate k (CodePoint.scalar '1')).length + 1)) 0
        [.scalar ']'] := by
    rw [← hcut]
    rfl
  unfold Json.read Json.readUnmarked
  rw [htokens]
  rfl

theorem onesText_breaks (c : Catalog) (rules : Rules) {n : Nat} (hn : Numeral.digitLimit < n) :
    (Blob.text (onesText n)).Breaks c rules := by
  refine .inl ⟨onesText n, n, ?_⟩
  simp only [Blob.json, read_onesText hn]

/-- **Not every blob is read or reported as malformed**: the list of an integer with 4301 digits is
neither, and no composer gets a set from it. -/
theorem not_hydrate_settled :
    ¬ ∀ blob : Blob,
      ((∃ s, deserialize Employees.catalog ⟨default, Settings.bundled.limits⟩ ⟨[], 0⟩ blob = .ok s) ∨
        ∃ reason, deserialize Employees.catalog ⟨default, Settings.bundled.limits⟩ ⟨[], 0⟩ blob =
          .error (.malformed reason)) ∧
      ∃ s, hydrate Employees.catalog ⟨default, Settings.bundled.limits⟩ ⟨[], 0⟩
        (.ok (some blob)) = .ok s := by
  intro h
  have hlong : Numeral.digitLimit < 4301 := by decide
  obtain ⟨_, s, hs⟩ := h (.text (onesText 4301))
  obtain ⟨fault, hfail, hescapes⟩ := deserialize_of_breaks
    (onesText_breaks Employees.catalog ⟨default, Settings.bundled.limits⟩ hlong)
  rw [hydrate_of_error rfl hfail, hescapes] at hs
  cases hs

end FilterSet

end Winnow
