import Mathlib.Data.List.Basic
import Mathlib.Data.Prod.Lex
import Winnow.Catalog.Employees
import Winnow.Proofs.Evaluation.Isolation
import Winnow.Proofs.Filter.Direction
import Winnow.Proofs.Value.Order

/-!
# Sorting

Rows are sorted by their keys, the first of which counts most, and rows that no key tells apart stay
in their order.  The values that a key reads have to be of one class, for only there is comparison
transitive.

* `Row.Before`, `Row.Ties` : what the keys say of two rows;
* `Row.OneClass` : the rows have values of one class, or none, in a field;
* `Row.order_ranked` : such rows are compared by ranks in a linear order;
* `mergeSort_pairwise` : a merge sort by ranks is sorted and stable;
* `Row.sort_pairwise` : so is the sort of rows;
* `Evaluation.arrange_sorted` : the sort by the filters of a set.
-/

namespace Winnow

/-! ## What the keys say -/

namespace SortKey

variable (today : Date) (key : SortKey)

/-- Two records tie for a key: both lack a value, or their values compare as equal. -/
def Ties (r s : Record) : Prop :=
  ∃ v w, r.read key.field = .ok v ∧ s.read key.field = .ok w ∧
    (v.isNull = true ∧ w.isNull = true ∨
      v.isNull = false ∧ w.isNull = false ∧ v.order today w = .ok .eq)

/-- A record comes before another one for a key: only the other one lacks a value, or its value is
the lesser one in the direction of the key. -/
def Before (r s : Record) : Prop :=
  ∃ v w, r.read key.field = .ok v ∧ s.read key.field = .ok w ∧ v.isNull = false ∧
    (w.isNull = true ∨
      w.isNull = false ∧ ∃ o, v.order today w = .ok o ∧ key.direction.orient o = .lt)

end SortKey

namespace Row

/-- Each of the rows has a value of one class in a field, or none. -/
def OneClass (field : Text) (rows : List Row) : Prop :=
  ∃ k : OrderClass, ∀ row ∈ rows, ∃ v, row.record.read field = .ok v ∧
    (v.isNull = true ∨ k.Contains v)

/-- No key tells two rows apart. -/
def Ties (today : Date) (keys : List SortKey) (r s : Row) : Prop :=
  ∀ key ∈ keys, key.Ties today r.record s.record

/-- The first key for which two rows do not tie puts one before the other. -/
def Before (today : Date) (keys : List SortKey) (r s : Row) : Prop :=
  ∃ earlier key later, keys = earlier ++ key :: later ∧ Ties today earlier r s ∧
    key.Before today r.record s.record

end Row

/-! ## Comparison of rows -/

namespace SortKey

variable {today : Date} {key : SortKey} {rows : List Row}

theorem Ties.order {r s : Record} (h : key.Ties today r s) :
    ∃ v w, r.read key.field = .ok v ∧ s.read key.field = .ok w ∧
      key.direction.order today v w = .eq := by
  obtain ⟨v, w, hv, hw, hvalues⟩ := h
  refine ⟨v, w, hv, hw, ?_⟩
  unfold Direction.order
  rcases hvalues with ⟨hvnull, hwnull⟩ | ⟨hvnull, hwnull, ho⟩
  · rw [hvnull, hwnull]
  · rw [hvnull, hwnull, ho]
    cases key.direction with
    | ascending => rfl
    | descending => rfl

theorem Before.order {r s : Record} (h : key.Before today r s) :
    ∃ v w, r.read key.field = .ok v ∧ s.read key.field = .ok w ∧
      key.direction.order today v w = .lt := by
  obtain ⟨v, w, hv, hw, hvnull, hvalues⟩ := h
  refine ⟨v, w, hv, hw, ?_⟩
  unfold Direction.order
  rcases hvalues with hwnull | ⟨hwnull, o, ho, horient⟩
  · rw [hvnull, hwnull]
  · rw [hvnull, hwnull, ho]
    exact horient

end SortKey

namespace Row.OneClass

variable {key : SortKey} {rows : List Row}

theorem of_read {k : OrderClass} {field : Text} {row : Row} {v : Value}
    (h : ∃ w, row.record.read field = .ok w ∧ (w.isNull = true ∨ k.Contains w))
    (hv : row.record.read field = .ok v) : v.isNull = true ∨ k.Contains v := by
  obtain ⟨w, hw, hclass⟩ := h
  rw [hv, Except.ok.injEq] at hw
  rwa [hw]

theorem read (h : OneClass key.field rows) {row : Row} (hrow : row ∈ rows) :
    ∃ v, row.record.read key.field = .ok v := by
  obtain ⟨_, hvalues⟩ := h
  obtain ⟨v, hv, _⟩ := hvalues row hrow
  exact ⟨v, hv⟩

theorem order_ok (h : OneClass key.field rows) (today : Date) {r s : Row} (hr : r ∈ rows)
    (hs : s ∈ rows) {v w : Value} (hv : r.record.read key.field = .ok v)
    (hw : s.record.read key.field = .ok w) (hvnull : v.isNull = false) (hwnull : w.isNull = false) :
    ∃ o, v.order today w = .ok o := by
  obtain ⟨k, hvalues⟩ := h
  obtain ⟨_, _, rank, hrank⟩ := k.order_ranked today
  have hkv : k.Contains v := (of_read (hvalues r hr) hv).resolve_left (by rw [hvnull]; nofun)
  have hkw : k.Contains w := (of_read (hvalues s hs) hw).resolve_left (by rw [hwnull]; nofun)
  exact ⟨_, hrank v w hkv hkw⟩

/-- Rows with values of one class tie for a key, or one comes before the other, as their values
compare. -/
theorem order_cases (h : OneClass key.field rows) (today : Date) {r s : Row} (hr : r ∈ rows)
    (hs : s ∈ rows) {v w : Value} (hv : r.record.read key.field = .ok v)
    (hw : s.record.read key.field = .ok w) :
    (key.direction.order today v w = .eq ∧ key.Ties today r.record s.record) ∨
      (key.direction.order today v w = .lt ∧ key.Before today r.record s.record) ∨
      key.direction.order today v w = .gt := by
  unfold Direction.order
  cases hvnull : v.isNull with
  | true =>
    cases hwnull : w.isNull with
    | true => exact .inl ⟨rfl, v, w, hv, hw, .inl ⟨hvnull, hwnull⟩⟩
    | false => exact .inr (.inr rfl)
  | false =>
    cases hwnull : w.isNull with
    | true => exact .inr (.inl ⟨rfl, v, w, hv, hw, hvnull, .inl hwnull⟩)
    | false =>
      obtain ⟨o, ho⟩ := h.order_ok today hr hs hv hw hvnull hwnull
      rw [ho]
      cases horient : key.direction.orient o with
      | lt => exact .inr (.inl ⟨horient, v, w, hv, hw, hvnull, .inr ⟨hwnull, o, ho, horient⟩⟩)
      | eq =>
        have heq : o = .eq := by
          cases hd : key.direction with
          | ascending => rwa [hd] at horient
          | descending =>
            rw [hd] at horient
            exact Ordering.swap_eq_eq.mp horient
        subst heq
        exact .inl ⟨horient, v, w, hv, hw, .inr ⟨hvnull, hwnull, ho⟩⟩
      | gt => exact .inr (.inr horient)

/-- For one key, rows are compared by ranks. -/
theorem order_ranked (h : OneClass key.field rows) (today : Date) :
    ∃ (L : Type) (_ : LinearOrder L) (rank : Row → L), ∀ r ∈ rows, ∀ s ∈ rows, ∀ v w,
      r.record.read key.field = .ok v → s.record.read key.field = .ok w →
        key.direction.order today v w = cmp (rank r) (rank s) := by
  obtain ⟨k, hvalues⟩ := h
  obtain ⟨L, _, rank, hrank⟩ := key.direction.order_ranked today k
  refine ⟨L, inferInstance, fun row => rank ((row.record.read key.field).toOption.getD .null),
    fun r hr s hs v w hv hw => ?_⟩
  dsimp only
  rw [hv, hw]
  exact hrank v w (of_read (hvalues r hr) hv) (of_read (hvalues s hs) hw)

end Row.OneClass

namespace Row

variable {today : Date} {keys : List SortKey} {rows : List Row}

theorem isReadable_of_oneClass (h : ∀ key ∈ keys, OneClass key.field rows) {row : Row}
    (hrow : row ∈ rows) : row.IsReadable keys :=
  fun key hkey => (h key hkey).read hrow

/-- **Rows with values of one class for each key are compared by ranks**, and comparison does not
fail. -/
theorem order_ranked (today : Date) (h : ∀ key ∈ keys, OneClass key.field rows) :
    ∃ (L : Type) (_ : LinearOrder L) (rank : Row → L), ∀ r ∈ rows, ∀ s ∈ rows,
      r.record.order today keys s.record = .ok (cmp (rank r) (rank s)) := by
  induction keys with
  | nil =>
    exact ⟨Unit, inferInstance, fun _ => (),
      fun r _ s _ => congrArg Except.ok (cmp_self_eq_eq _).symm⟩
  | cons key keys ih =>
    obtain ⟨L, _, rank, hrank⟩ := ih fun k hk => h k (List.mem_cons_of_mem key hk)
    have hkey := h key List.mem_cons_self
    obtain ⟨M, _, first, hfirst⟩ := hkey.order_ranked today
    refine ⟨M ×ₗ L, inferInstance, fun row => toLex (first row, rank row), fun r hr s hs => ?_⟩
    obtain ⟨v, hv⟩ := hkey.read hr
    obtain ⟨w, hw⟩ := hkey.read hs
    have hlex : cmp (toLex (first r, rank r)) (toLex (first s, rank s)) =
        (cmp (first r) (first s)).then (cmp (rank r) (rank s)) := by
      rw [cmp_eq_compare, cmp_eq_compare, cmp_eq_compare]
      rfl
    rw [Record.order_cons hv hw, hfirst r hr s hs v w hv hw, hrank r hr s hs, hlex]
    cases cmp (first r) (first s) with
    | lt => rfl
    | eq => rfl
    | gt => rfl

/-- A row that comes before another one is the lesser one. -/
theorem Before.order {r s : Row} (h : Before today keys r s) :
    r.record.order today keys s.record = .ok .lt := by
  obtain ⟨earlier, key, later, rfl, hties, hbefore⟩ := h
  induction earlier with
  | nil =>
    obtain ⟨v, w, hv, hw, hlt⟩ := hbefore.order
    rw [List.nil_append, Record.order_cons hv hw, hlt]
  | cons first earlier ih =>
    obtain ⟨v, w, hv, hw, heq⟩ := (hties first List.mem_cons_self).order
    rw [List.cons_append, Record.order_cons hv hw, heq]
    exact ih fun key hkey => hties key (List.mem_cons_of_mem first hkey)

/-- The comparison of two rows tells what their keys say. -/
theorem order_cases (today : Date) (h : ∀ key ∈ keys, OneClass key.field rows) {r s : Row}
    (hr : r ∈ rows) (hs : s ∈ rows) :
    (r.record.order today keys s.record = .ok .eq ∧ Ties today keys r s) ∨
      (r.record.order today keys s.record = .ok .lt ∧ Before today keys r s) ∨
      r.record.order today keys s.record = .ok .gt := by
  induction keys with
  | nil => exact .inl ⟨rfl, nofun⟩
  | cons key keys ih =>
    have hkey := h key List.mem_cons_self
    obtain ⟨v, hv⟩ := hkey.read hr
    obtain ⟨w, hw⟩ := hkey.read hs
    rw [Record.order_cons hv hw]
    rcases hkey.order_cases today hr hs hv hw with ⟨heq, htie⟩ | ⟨hlt, hbefore⟩ | hgt
    · rw [heq]
      rcases ih fun k hk => h k (List.mem_cons_of_mem key hk) with ⟨ho, hties⟩ | ⟨ho, hbefore⟩ | ho
      · refine .inl ⟨ho, fun k hk => ?_⟩
        rcases List.mem_cons.mp hk with rfl | hk
        · exact htie
        · exact hties k hk
      · obtain ⟨earlier, k, later, rfl, hties, hbefore⟩ := hbefore
        refine .inr (.inl ⟨ho, key :: earlier, k, later, rfl, fun k' hk' => ?_, hbefore⟩)
        rcases List.mem_cons.mp hk' with rfl | hk'
        · exact htie
        · exact hties k' hk'
      · exact .inr (.inr ho)
    · rw [hlt]
      exact .inr (.inl ⟨rfl, [], key, keys, rfl, nofun, hbefore⟩)
    · rw [hgt]
      exact .inr (.inr rfl)

end Row

/-! ## The sort -/

section Ranks

variable {α L : Type} [LinearOrder L] (rank : α → L)

theorem ranks_trans (a b c : α) (hab : decide (rank a ≤ rank b) = true)
    (hbc : decide (rank b ≤ rank c) = true) : decide (rank a ≤ rank c) = true :=
  decide_eq_true ((of_decide_eq_true hab).trans (of_decide_eq_true hbc))

theorem ranks_total (a b : α) : (decide (rank a ≤ rank b) || decide (rank b ≤ rank a)) = true := by
  rw [Bool.or_eq_true, decide_eq_true_iff, decide_eq_true_iff]
  exact le_total _ _

/-- **A merge sort by ranks is sorted and stable**: things of one rank stay as they stood. -/
theorem mergeSort_pairwise {R : α → α → Prop} {xs : List α} (h : xs.Pairwise R) :
    (xs.mergeSort fun a b => decide (rank a ≤ rank b)).Pairwise fun a b =>
      rank a < rank b ∨ rank a = rank b ∧ R a b := by
  have hsorted := List.pairwise_mergeSort (ranks_trans rank) (ranks_total rank) xs
  have hperm := List.mergeSort_perm xs fun a b => decide (rank a ≤ rank b)
  rw [List.pairwise_iff_forall_sublist] at hsorted h ⊢
  intro a b hab
  rcases (of_decide_eq_true (hsorted hab)).lt_or_eq with hlt | heq
  · exact .inl hlt
  · -- The things of this rank are those of the unsorted list, in their order there.
    have hsame : ((xs.mergeSort fun a b => decide (rank a ≤ rank b)).filter
        fun c => rank c = rank a) = xs.filter fun c => rank c = rank a := by
      refine (List.Sublist.eq_of_length ?_ (hperm.symm.filter _).length_eq).symm
      have hequal : (xs.filter fun c => rank c = rank a).Pairwise
          fun b c => decide (rank b ≤ rank c) := by
        refine List.pairwise_of_forall_mem_list fun b hb c hc => decide_eq_true ?_
        have hrankb : rank b = rank a := of_decide_eq_true (List.mem_filter.mp hb).2
        have hrankc : rank c = rank a := of_decide_eq_true (List.mem_filter.mp hc).2
        rw [hrankb, hrankc]
      have hinside := (List.sublist_mergeSort (ranks_trans rank) (ranks_total rank) hequal
        List.filter_sublist).filter fun c => decide (rank c = rank a)
      rwa [List.filter_filter, funext fun c => Bool.and_self _] at hinside
    have hpair : [a, b].Sublist (xs.filter fun c => rank c = rank a) := by
      have hfiltered := hab.filter fun c => decide (rank c = rank a)
      rwa [hsame, List.filter_eq_self.mpr] at hfiltered
      intro c hc
      rcases List.mem_pair.mp hc with rfl | rfl
      · exact decide_eq_true rfl
      · exact decide_eq_true heq.symm
    exact .inr ⟨heq, h (hpair.trans List.filter_sublist)⟩

end Ranks

namespace Row

variable {today : Date} {keys : List SortKey} {rows : List Row}

/-- Without keys every row may stand before every other one, and the merge sort keeps them all. -/
theorem sort_eq_mergeSort (h : ∀ row ∈ rows, row.IsReadable keys) :
    sort today keys rows = .ok (rows.mergeSort (precedes today keys)) := by
  unfold sort
  cases keys with
  | nil =>
    have hsorted : rows.Pairwise fun r s => precedes today [] r s :=
      List.pairwise_of_forall fun _ _ => rfl
    exact congrArg Except.ok (List.mergeSort_of_pairwise hsorted).symm
  | cons key keys =>
    rw [incomparable?_eq_none h]
    rfl

/-- A row may stand before another one exactly if its rank is not greater. -/
theorem precedes_eq {L : Type} [LinearOrder L] {a b : L} {r s : Row}
    (h : r.record.order today keys s.record = .ok (cmp a b)) :
    precedes today keys r s = decide (a ≤ b) := by
  unfold precedes
  rw [h]
  rcases lt_trichotomy a b with hlt | heq | hgt
  · rw [hlt.cmp_eq_lt, decide_eq_true hlt.le]
    rfl
  · rw [heq, cmp_self_eq_eq, decide_eq_true le_rfl]
    rfl
  · rw [hgt.cmp_eq_gt, decide_eq_false hgt.not_ge]
    rfl

/-- Rows that are compared by ranks are sorted by them. -/
theorem sort_ranked {L : Type} [LinearOrder L] {rank : Row → L}
    (hread : ∀ row ∈ rows, row.IsReadable keys)
    (hrank : ∀ r ∈ rows, ∀ s ∈ rows,
      r.record.order today keys s.record = .ok (cmp (rank r) (rank s))) :
    sort today keys rows = .ok (rows.mergeSort fun r s => decide (rank r ≤ rank s)) := by
  have hsame := List.map_mergeSort (s := fun r s => decide (rank r ≤ rank s)) (f := id)
    fun r hr s hs => precedes_eq (hrank r hr s hs)
  rw [List.map_id, List.map_id] at hsame
  rw [sort_eq_mergeSort hread, hsame]

/-- **Rows are sorted by their keys, and stably**: of two rows, the first one comes before the
second one, or they tie and stood in this order. -/
theorem sort_pairwise (h : ∀ key ∈ keys, OneClass key.field rows) {R : Row → Row → Prop}
    (hrows : rows.Pairwise R) :
    ∃ out, sort today keys rows = .ok out ∧ out.Perm rows ∧
      out.Pairwise fun r s => ¬Before today keys s r ∧
        (Before today keys r s ∨ Ties today keys r s ∧ R r s) := by
  obtain ⟨L, _, rank, hrank⟩ := order_ranked today h
  have hsort := sort_ranked (fun row => isReadable_of_oneClass h) hrank
  refine ⟨_, hsort, List.mergeSort_perm _ _, ?_⟩
  refine (mergeSort_pairwise rank hrows).imp_of_mem fun {r s} hr hs hranks => ?_
  have hr : r ∈ rows := (List.mergeSort_perm rows _).mem_iff.mp hr
  have hs : s ∈ rows := (List.mergeSort_perm rows _).mem_iff.mp hs
  have hrs := hrank r hr s hs
  have hsr := hrank s hs r hr
  rcases hranks with hless | ⟨heq, hkept⟩
  · rw [hless.cmp_eq_lt] at hrs
    rw [hless.cmp_eq_gt] at hsr
    refine ⟨fun hbefore => ?_, .inl ?_⟩
    · rw [hbefore.order] at hsr
      cases hsr
    · rcases order_cases today h hr hs with ⟨ho, _⟩ | ⟨_, hbefore⟩ | ho
      · rw [ho] at hrs
        cases hrs
      · exact hbefore
      · rw [ho] at hrs
        cases hrs
  · rw [heq, cmp_self_eq_eq] at hrs hsr
    refine ⟨fun hbefore => ?_, .inr ⟨?_, hkept⟩⟩
    · rw [hbefore.order] at hsr
      cases hsr
    · rcases order_cases today h hr hs with ⟨_, hties⟩ | ⟨ho, _⟩ | ho
      · exact hties
      · rw [ho] at hrs
        cases hrs
      · rw [ho] at hrs
        cases hrs

end Row

/-! ## The sort by filters -/

namespace Evaluation

variable {c : Catalog} {filters : List Filter}

/-- The keys of the filters that have a direction, in their order. -/
def namedKeys (c : Catalog) (filters : List Filter) : List SortKey :=
  (c.bind filters).filterMap fun f => f.1.direction?.map fun d => ⟨f.2.field, d⟩

theorem sortKey?_named {f : Filter × Definition} (h : f.1.SortingNamed) :
    sortKey? f = .ok (f.1.direction?.map fun d => ⟨f.2.field, d⟩) := by
  unfold sortKey?
  rcases h.cases with ⟨hnone, hdirection⟩ | ⟨s, d, hsome, _, hs, hdirection⟩
  · rw [hnone, hdirection]
    rfl
  · rw [hsome, hdirection]
    dsimp only
    rw [hs]
    rfl

/-- Only the filters that have a definition count. -/
theorem sortKeys_bound (h : ∀ f ∈ c.bind filters, f.1.SortingNamed) :
    sortKeys c filters = .ok (namedKeys c filters) := by
  have hkeys : (c.bind filters).mapM sortKey? =
      .ok ((c.bind filters).map fun f => f.1.direction?.map fun d => ⟨f.2.field, d⟩) :=
    Outcome.mapM_eq_map fun f hf => sortKey?_named (h f hf)
  unfold sortKeys namedKeys
  rw [hkeys]
  show Except.ok (List.filterMap id _) = _
  rw [List.filterMap_map]
  rfl

theorem sortKeys_named (h : ∀ f ∈ filters, f.SortingNamed) :
    sortKeys c filters = .ok (namedKeys c filters) :=
  sortKeys_bound fun f hf => h f.1 (Catalog.mem_of_mem_bind hf).1

theorem field_of_mem_namedKeys {key : SortKey} (h : key ∈ namedKeys c filters) :
    ∃ f ∈ c.bind filters, f.1.direction? = some key.direction ∧ key.field = f.2.field := by
  obtain ⟨f, hf, hkey⟩ := List.mem_filterMap.mp h
  obtain ⟨d, hd, rfl⟩ := Option.map_eq_some_iff.mp hkey
  exact ⟨f, hf, hd, rfl⟩

theorem oneClass_of_mem_namedKeys {rows : List Row}
    (hclass : ∀ f ∈ c.bind filters, f.1.sorting ≠ none → Row.OneClass f.2.field rows) :
    ∀ key ∈ namedKeys c filters, Row.OneClass key.field rows := by
  intro key hkey
  obtain ⟨f, hf, hdirection, hfield⟩ := field_of_mem_namedKeys hkey
  rw [hfield]
  refine hclass f hf fun hnone => ?_
  rw [Filter.direction?, hnone] at hdirection
  cases hdirection

/-- **The sort by filters is the stable lexicographic sort.**  If the values that each filter with a
direction reads are of one class, the records come in the order that the keys say, and those that
tie for every key stay as they stood. -/
theorem arrange_sorted (today : Date) (c : Catalog) (filters : List Filter) (records : List Record)
    (hnamed : ∀ f ∈ filters, f.SortingNamed)
    (hclass : ∀ f ∈ c.bind filters, f.1.sorting ≠ none →
      Row.OneClass f.2.field (Row.number records)) :
    ∃ out, arrange today c filters (Row.number records) = .ok out ∧
      out.Perm (Row.number records) ∧
      out.Pairwise fun r s =>
        ¬Row.Before today (namedKeys c filters) s r ∧
          (Row.Before today (namedKeys c filters) r s ∨
            Row.Ties today (namedKeys c filters) r s ∧ r.place < s.place) := by
  have hplaces : (Row.number records).Pairwise fun r s => r.place < s.place := by
    unfold Row.number
    rw [List.pairwise_iff_getElem]
    intro i j hi hj hij
    rw [List.getElem_mapIdx, List.getElem_mapIdx]
    exact hij
  unfold arrange
  rw [sortKeys_named hnamed]
  exact Row.sort_pairwise (oneClass_of_mem_namedKeys hclass) hplaces

/-- The greatest salaries first, and then by the city; one record has no salary. -/
theorem arrange_sorted_salaryCity :
    let filters : List Filter :=
      [⟨"a", "salary", .known .equals, .int 0, some (.by .descending)⟩,
        ⟨"b", "city", .known .equals, .text [], some (.written "asc")⟩]
    let records : List Record :=
      [[("salary", .int 5), ("city", .text "Rome")], [("city", .text "Oslo")],
        [("salary", .float Binary64.one), ("city", .text "Bern")]]
    ∃ out, arrange default Employees.catalog filters (Row.number records) = .ok out ∧
      out.Perm (Row.number records) ∧
      out.Pairwise fun r s =>
        ¬Row.Before default (namedKeys Employees.catalog filters) s r ∧
          (Row.Before default (namedKeys Employees.catalog filters) r s ∨
            Row.Ties default (namedKeys Employees.catalog filters) r s ∧ r.place < s.place) := by
  intro filters records
  refine arrange_sorted default Employees.catalog filters records ?_ ?_
  · intro f hf
    rcases List.mem_pair.mp hf with rfl | rfl
    · exact .inr ⟨.descending, rfl⟩
    · exact .inr ⟨.ascending, rfl⟩
  · intro f hf _
    have hfields : ∀ f ∈ Employees.catalog.bind filters,
        f.2.field = ("salary" : Text) ∨ f.2.field = ("city" : Text) := by decide +kernel
    have hrows : Row.number records = [⟨0, [("salary", .int 5), ("city", .text "Rome")]⟩,
        ⟨1, [("city", .text "Oslo")]⟩,
        ⟨2, [("salary", .float Binary64.one), ("city", .text "Bern")]⟩] := rfl
    rw [hrows]
    rcases hfields f hf with hfield | hfield
    · rw [hfield]
      refine ⟨.numbers, fun row hrow => ?_⟩
      simp only [List.mem_cons, List.not_mem_nil, or_false] at hrow
      rcases hrow with rfl | rfl | rfl
      · exact ⟨.int 5, rfl, .inr ⟨rfl, fun x hx => by cases hx; rfl⟩⟩
      · exact ⟨.null, rfl, .inl rfl⟩
      · refine ⟨.float Binary64.one, rfl, .inr ⟨rfl, fun x hx => ?_⟩⟩
        cases hx
        exact Binary64.isNaN_ofRatio false 1 1
    · rw [hfield]
      refine ⟨.texts, fun row hrow => ?_⟩
      simp only [List.mem_cons, List.not_mem_nil, or_false] at hrow
      rcases hrow with rfl | rfl | rfl
      · exact ⟨.text "Rome", rfl, .inr ⟨rfl, rfl, "Rome", rfl, by decide⟩⟩
      · exact ⟨.text "Oslo", rfl, .inr ⟨rfl, rfl, "Oslo", rfl, by decide⟩⟩
      · exact ⟨.text "Bern", rfl, .inr ⟨rfl, rfl, "Bern", rfl, by decide⟩⟩

end Evaluation

end Winnow
