import Winnow.Proofs.Binary64.Order
import Winnow.Proofs.Calendar.IsoDate
import Winnow.Proofs.Filter.Entry
import Winnow.Proofs.Json.ShortIntegers
import Winnow.Query.Params

/-!
# Filters that can be shown

A filter keeps a value that its kind admitted once, on the day and within the limits of that time.
Such a value has a text, if its integers have.

* `FieldKind.Keeps`, `FieldKind.KeepsOn` : a value that a kind admitted on some day, or on one of some
  days;
* `Value.IsPlain.valueText_ok` : it has a text as a parameter;
* `Filter.Presentable` : a filter with such a value, without integers of too many digits;
* `Filter.new_presentable`, `Filter.patch_presentable`, `Filter.resolve_presentable` : defaults,
  patches and stored entries make such filters.
-/

namespace Winnow

open Outcome

/-! ## Values that were admitted -/

/-- A value that a kind admitted on some day: none, a single one, or a list. -/
inductive FieldKind.Keeps (kind : FieldKind) : Value → Prop
  | absent : Keeps kind .null
  | item {v : Value} (day : Date) (h : kind.fits day v = .ok true) : Keeps kind v
  | list {items : List Value} (h : ∀ v ∈ items, ∃ day, kind.fits day v = .ok true) :
    Keeps kind (.list items)

/-- A value that a kind admitted on one of some days: none, a single one, or a list, which no kind of
truth values admits. -/
inductive FieldKind.KeepsOn (days : Date → Prop) (kind : FieldKind) : Value → Prop
  | absent : KeepsOn days kind .null
  | item {v : Value} {day : Date} (hday : days day) (h : kind.fits day v = .ok true) :
    KeepsOn days kind v
  | list {items : List Value} (hkind : kind ≠ .boolean)
    (h : ∀ v ∈ items, ∃ day, days day ∧ kind.fits day v = .ok true) :
    KeepsOn days kind (.list items)

namespace FieldKind

variable {kind : FieldKind} {rules : Rules} {v : Value} {days : Date → Prop}

theorem KeepsOn.keeps (h : kind.KeepsOn days v) : kind.Keeps v := by
  cases h with
  | absent => exact .absent
  | item _ h => exact .item _ h
  | list _ h =>
    refine .list fun w hw => ?_
    obtain ⟨day, -, hfits⟩ := h w hw
    exact ⟨day, hfits⟩

theorem fits_of_admitsItem (h : kind.admitsItem rules v = .ok true) :
    kind.fits rules.today v = .ok true := by
  obtain ⟨fitting, hfits, h⟩ := of_bind_ok h
  cases fitting with
  | false => cases h
  | true => exact hfits

/-- A value that is admitted was admitted on that day. -/
theorem keepsOn_of_admits (hday : days rules.today) (h : kind.admits rules v = .ok true)
    (htuple : ∀ items, v ≠ .tuple items) : kind.KeepsOn days v := by
  unfold admits at h
  split at h
  · exact .absent
  · unfold admitsItems at h
    split at h
    · cases h
    · rename_i hkind
      refine .list hkind fun w hw => ⟨rules.today, hday, fits_of_admitsItem ?_⟩
      obtain ⟨overlong, -, h⟩ := of_bind_ok h
      cases overlong with
      | true => cases h
      | false => exact of_allM_ok h w hw
  · exact absurd rfl (htuple _)
  · exact .item hday (fits_of_admitsItem h)

theorem keepsOn_defaultValue (kind : FieldKind) {day : Date} (hday : days day) :
    kind.KeepsOn days (kind.defaultValue day.isoText) := by
  cases kind with
  | date =>
    refine .item hday ?_
    simp [fits, defaultValue, Moment.ofWritten_isoText, bind, Except.bind, pure, Except.pure]
  | array => exact .list (by decide) (List.forall_mem_nil _)
  | text | select | number | boolean => exact .item hday rfl

theorem keeps_of_admits (h : kind.admits rules v = .ok true)
    (htuple : ∀ items, v ≠ .tuple items) : kind.Keeps v := by
  have hkeeps : kind.KeepsOn (fun _ => True) v := keepsOn_of_admits trivial h htuple
  exact hkeeps.keeps

theorem keeps_defaultValue (kind : FieldKind) (day : Date) :
    kind.Keeps (kind.defaultValue day.isoText) := by
  have hkeeps : kind.KeepsOn (fun _ => True) (kind.defaultValue day.isoText) :=
    kind.keepsOn_defaultValue trivial
  exact hkeeps.keeps

theorem Keeps.isPlain (h : kind.Keeps v) : v.IsPlain := by
  cases h with
  | absent => exact .null
  | item day h => exact .item (isItem_of_fits h)
  | list h =>
    refine .list fun w hw => ?_
    obtain ⟨day, hfits⟩ := h w hw
    exact isItem_of_fits hfits

end FieldKind

/-! ## Texts -/

namespace Value

theorem IsItem.toText_ok {v : Value} (hv : v.IsItem) (hshort : v.HasShortIntegers) :
    ∃ t, v.toText = .ok t := by
  cases hv with
  | bool b => exact ⟨_, rfl⟩
  | int n =>
    cases hshort with
    | int h => exact ⟨_, Numeral.ofInt_of_length h⟩
  | @float x hx =>
    unfold toText
    split
    · rename_i n hn
      have hless : n.natAbs < 10 ^ Numeral.digitLimit := Binary64.natAbs_toInt?_lt hn (by decide)
      exact ⟨_, Numeral.ofInt_of_length (Numeral.length_digits_le (by decide) hless)⟩
    · exact ⟨_, rfl⟩
  | text t => exact ⟨t, rfl⟩

theorem itemTexts_ok {items : List Value} (hitems : ∀ v ∈ items, v.IsItem)
    (hshort : ∀ v ∈ items, v.HasShortIntegers) : ∃ ts, itemTexts items = .ok ts := by
  induction items with
  | nil => exact ⟨[], rfl⟩
  | cons v vs ih =>
    obtain ⟨hv, hvs⟩ := List.forall_mem_cons.mp hitems
    obtain ⟨hvshort, hvsshort⟩ := List.forall_mem_cons.mp hshort
    obtain ⟨t, ht⟩ := hv.toText_ok hvshort
    obtain ⟨ts, hts⟩ := ih hvs hvsshort
    exact ⟨t :: ts, by rw [itemTexts, ht, hts]; rfl⟩

/-- **A plain value without integers of too many digits has a text**, a list with any separator. -/
theorem IsPlain.valueText_ok {v : Value} (hv : v.IsPlain) (hshort : v.HasShortIntegers)
    (separator : Text) : ∃ t, Query.valueText (.text separator) v = .ok t := by
  cases hv with
  | null => exact ⟨[], rfl⟩
  | item hv =>
    have htext := hv.toText_ok hshort
    cases hv <;> exact htext
  | list hitems =>
    cases hshort with
    | list hshort =>
      obtain ⟨ts, hts⟩ := itemTexts_ok hitems hshort
      exact ⟨_, by simp only [Query.valueText, Separator.join, hts]; rfl⟩

end Value

/-! ## Presentable filters -/

/-- A filter with an operator and a direction of the vocabulary and a value that its kind admitted
on some day, without integers of too many digits. -/
structure Filter.Presentable (d : Definition) (f : Filter) : Prop where
  operator : ∃ o, f.operator = .known o
  value : d.kind.Keeps f.value
  short : f.value.HasShortIntegers
  sorting : f.SortingKnown

theorem FieldKind.defaultValue_hasShortIntegers (kind : FieldKind) (today : Text) :
    (kind.defaultValue today).HasShortIntegers := by
  cases kind with
  | number => exact .int (by decide)
  | boolean => exact .bool true
  | array => exact .list nofun
  | date | text | select => exact .text _

namespace Filter

variable {d : Definition} {f g : Filter} {rules : Rules}

theorem new_presentable (d : Definition) (id : Text) (day : Date) :
    Presentable d ⟨id, d.id, .known d.defaultOperator, d.kind.defaultValue day.isoText, none⟩ :=
  ⟨⟨_, rfl⟩, d.kind.keeps_defaultValue day, d.kind.defaultValue_hasShortIntegers _, .inl rfl⟩

/-- A patch leaves a filter with an operator of the vocabulary. -/
theorem patch_operatorKnown {p : Patch} (hf : ∃ o, f.operator = .known o)
    (h : p.apply rules (some d) f = .ok g) : ∃ o, g.operator = .known o := by
  obtain ⟨-, -, hoperator, -⟩ := Patch.apply_ok h
  rcases Patch.part_cases hoperator with hkept | ⟨v, -, haccepted⟩
  · exact hkept ▸ hf
  · obtain ⟨o, -, hchoice⟩ := acceptedOperator_allowed haccepted
    exact ⟨o, hchoice⟩

/-- The value after a patch is the one before it, or one that the patch brings and that is
admitted. -/
theorem patch_value_cases {p : Patch} (h : p.apply rules (some d) f = .ok g) :
    g.value = f.value ∨ ∃ v, p.value = some v ∧ g.value = v.normalize ∧
      d.kind.admits rules g.value = .ok true := by
  obtain ⟨-, -, -, hvalue, -⟩ := Patch.apply_ok h
  rcases Patch.part_cases hvalue with hsame | ⟨v, hv, haccepted⟩
  · exact .inl hsame
  · obtain ⟨_, _, _, hnormal⟩ := Patch.of_acceptedValue haccepted
    exact .inr ⟨v, hv, hnormal, (acceptedValue_admitted haccepted).1⟩

/-- **A patch keeps a filter presentable**, unless it brings an integer of too many digits. -/
theorem patch_presentable {p : Patch} (hp : ∀ v, p.value = some v → v.HasShortIntegers)
    (hf : f.Presentable d) (h : p.apply rules (some d) f = .ok g) : g.Presentable d := by
  have hkept : d.kind.Keeps g.value ∧ g.value.HasShortIntegers := by
    rcases patch_value_cases h with hsame | ⟨v, hv, hnormal, hadmits⟩
    · rw [hsame]
      exact ⟨hf.value, hf.short⟩
    · rw [hnormal] at hadmits ⊢
      exact ⟨FieldKind.keeps_of_admits hadmits v.normalize_ne_tuple, (hp v hv).normalize⟩
  exact ⟨patch_operatorKnown hf.operator h, hkept.1, hkept.2, patch_sortingKnown hf.sorting h⟩

theorem find?_hasShortIntegers {key : Text} {entries : Value.Entries}
    (h : ∀ e ∈ entries, e.2.HasShortIntegers) :
    ((Value.find? key entries).getD .null).HasShortIntegers := by
  unfold Value.find?
  cases hfind : entries.find? fun e => e.1 == key with
  | none => exact .null
  | some e => exact h e (List.mem_of_find?_eq_some hfind)

theorem ofEntry_hasShortIntegers {item : Value} (hitem : item.HasShortIntegers)
    (h : ofEntry item = .ok f) : f.value.HasShortIntegers := by
  cases hitem with
  | object hentries =>
    obtain ⟨-, -, -, hvalue, -⟩ := ofParts_ok h
    rw [hvalue]
    exact find?_hasShortIntegers hentries
  | _ => cases h

/-- The filter of a stored item has an operator of the vocabulary, and the default of its kind or the
value that was read and is admitted. -/
theorem resolve_cases {c : Catalog} {item : Value} (h : resolve c rules item = .ok f) :
    ∃ d read, c.find? f.definitionId = some d ∧ ofEntry item = .ok read ∧
      (∃ o, f.operator = .known o) ∧ f.sorting = read.sorting ∧
      (f.value = d.kind.defaultValue rules.today.isoText ∨
        f.value = read.value.normalize ∧ d.kind.admits rules f.value = .ok true) := by
  unfold resolve at h
  obtain ⟨read, hread, h⟩ := of_bind_ok h
  split at h
  · cases h
  · rename_i d hdefinition
    unfold repaired at h
    obtain ⟨admitted, hadmits, h⟩ := of_bind_ok h
    cases h
    refine ⟨d, read, hdefinition, hread, ⟨_, rfl⟩, rfl, ?_⟩
    cases admitted with
    | false => exact .inl rfl
    | true => exact .inr ⟨rfl, (FieldKind.admits_normalize d.kind read.value).trans hadmits⟩

/-- **The filter of a stored item is presentable**, unless the item has an integer of too many
digits. -/
theorem resolve_presentable {c : Catalog} {item : Value} (hitem : item.HasShortIntegers)
    (h : resolve c rules item = .ok f) :
    ∃ d, c.find? f.definitionId = some d ∧ f.Presentable d := by
  obtain ⟨d, read, hdefinition, hread, hoperator, hsorting, hvalue⟩ := resolve_cases h
  have hknown : f.SortingKnown := by
    have hreadKnown : read.SortingKnown := ofEntry_sorting hread
    rwa [SortingKnown, ← hsorting] at hreadKnown
  refine ⟨d, hdefinition, hoperator, ?_, ?_, hknown⟩
  · rcases hvalue with hdefault | ⟨hnormal, hadmits⟩
    · rw [hdefault]
      exact d.kind.keeps_defaultValue rules.today
    · rw [hnormal] at hadmits ⊢
      exact FieldKind.keeps_of_admits hadmits read.value.normalize_ne_tuple
  · rcases hvalue with hdefault | ⟨hnormal, -⟩
    · rw [hdefault]
      exact d.kind.defaultValue_hasShortIntegers _
    · rw [hnormal]
      exact (ofEntry_hasShortIntegers hitem hread).normalize

end Filter

end Winnow
