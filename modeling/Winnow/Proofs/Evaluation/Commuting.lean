import Winnow.Proofs.Evaluation.Rearranging

/-!
# Selection and sorting commute

A stable sort keeps the rows that are selected in the order in which it puts all of them.  So it makes
no difference whether rows are selected before they are sorted or after, and what was evaluated once
stays as it is.

* `mergeSort_filter` : a part of a sorted list is the sort of that part;
* `Row.sort_filter` : so it is for rows whose sort fields have values of one class;
* `Evaluation.run_of_settled` : rows that pass, in the order of the sort, are left alone;
* `Evaluation.select_arrange` : selection and sorting commute.
-/

namespace Winnow

/-! ## Sorting a part of a list -/

section

variable {α : Type}

/-- A list is split in one way only into a part without a property and a part with it. -/
theorem append_split_unique {q : α → Bool} {l₁ l₂ m₁ m₂ : List α} (h : l₁ ++ l₂ = m₁ ++ m₂)
    (hl₁ : ∀ a ∈ l₁, q a = false) (hl₂ : ∀ a ∈ l₂, q a = true) (hm₁ : ∀ a ∈ m₁, q a = false)
    (hm₂ : ∀ a ∈ m₂, q a = true) : l₁ = m₁ ∧ l₂ = m₂ := by
  have hlower {xs ys : List α} (hxs : ∀ a ∈ xs, q a = false) (hys : ∀ a ∈ ys, q a = true) :
      (xs ++ ys).filter (fun a => !q a) = xs := by
    rw [List.filter_append, List.filter_eq_self.mpr fun a ha => by rw [hxs a ha]; rfl,
      List.filter_eq_nil_iff.mpr fun a ha => by rw [hys a ha]; nofun, List.append_nil]
  have hfirst : l₁ = m₁ := by rw [← hlower hl₁ hl₂, h, hlower hm₁ hm₂]
  subst hfirst
  exact ⟨rfl, List.append_cancel_left h⟩

variable {le : α → α → Bool}

/-- The first item of a list is sorted in between those that it must not stand before and those that
it may stand before. -/
theorem mergeSort_cons_split (htrans : ∀ a b c, le a b = true → le b c = true → le a c = true)
    (htotal : ∀ a b, (le a b || le b a) = true) (a : α) (xs : List α) :
    ∃ l₁ l₂, (a :: xs).mergeSort le = l₁ ++ a :: l₂ ∧ xs.mergeSort le = l₁ ++ l₂ ∧
      (∀ b ∈ l₁, le a b = false) ∧ ∀ b ∈ l₂, le a b = true := by
  obtain ⟨l₁, l₂, hcons, hsplit, hbefore⟩ := List.mergeSort_cons htrans htotal a xs
  have hsorted := List.pairwise_mergeSort htrans htotal (a :: xs)
  rw [hcons, List.pairwise_append, List.pairwise_cons] at hsorted
  exact ⟨l₁, l₂, hcons, hsplit, fun b hb => by simpa using hbefore b hb, hsorted.2.1.1⟩

/-- **A part of a sorted list is the sort of that part.** -/
theorem mergeSort_filter (htrans : ∀ a b c, le a b = true → le b c = true → le a c = true)
    (htotal : ∀ a b, (le a b || le b a) = true) (p : α → Bool) (xs : List α) :
    (xs.mergeSort le).filter p = (xs.filter p).mergeSort le := by
  induction xs with
  | nil => rw [List.filter_nil, List.mergeSort_nil, List.filter_nil]
  | cons a xs ih =>
    obtain ⟨l₁, l₂, hcons, hsplit, hbefore, hafter⟩ := mergeSort_cons_split htrans htotal a xs
    rw [hsplit, List.filter_append] at ih
    rw [hcons, List.filter_append, List.filter_cons]
    cases hp : p a with
    | false => rw [List.filter_cons_of_neg (by rw [hp]; nofun), if_neg nofun, ih]
    | true =>
      obtain ⟨m₁, m₂, hcons', hsplit', hbefore', hafter'⟩ :=
        mergeSort_cons_split htrans htotal a (xs.filter p)
      obtain ⟨rfl, rfl⟩ := append_split_unique (ih.trans hsplit')
        (fun b hb => hbefore b (List.mem_of_mem_filter hb))
        (fun b hb => hafter b (List.mem_of_mem_filter hb)) hbefore' hafter'
      rw [List.filter_cons_of_pos hp, if_pos rfl, hcons']

end

/-! ## Rows -/

namespace Row

variable {today : Date} {keys : List SortKey} {rows : List Row}

/-- **A part of sorted rows is the sort of that part**, if the values in each sort field are of one
class. -/
theorem sort_filter (today : Date) (h : ∀ key ∈ keys, OneClass key.field rows) (p : Row → Bool) :
    ∃ sorted, sort today keys rows = .ok sorted ∧ sorted.Perm rows ∧
      sort today keys (rows.filter p) = .ok (sorted.filter p) := by
  obtain ⟨L, _, rank, hrank⟩ := order_ranked today h
  have hread : ∀ row ∈ rows, row.IsReadable keys := fun row => isReadable_of_oneClass h
  refine ⟨_, sort_ranked hread hrank, List.mergeSort_perm _ _, ?_⟩
  have hpart {row : Row} (hrow : row ∈ rows.filter p) : row ∈ rows := List.mem_of_mem_filter hrow
  rw [sort_ranked (fun row hrow => hread row (hpart hrow))
    fun r hr s hs => hrank r (hpart hr) s (hpart hs)]
  exact congrArg Except.ok (mergeSort_filter (ranks_trans rank) (ranks_total rank) p rows).symm

/-- Sorted rows are in the order of the sort. -/
theorem pairwise_precedes_of_sort (h : ∀ key ∈ keys, OneClass key.field rows) {sorted : List Row}
    (hsort : sort today keys rows = .ok sorted) :
    sorted.Pairwise fun r s => precedes today keys r s = true := by
  obtain ⟨L, _, rank, hrank⟩ := order_ranked today h
  rw [sort_ranked (fun row => isReadable_of_oneClass h) hrank, Except.ok.injEq] at hsort
  subst hsort
  refine (List.pairwise_mergeSort (ranks_trans rank) (ranks_total rank) rows).imp_of_mem ?_
  intro r s hr hs hranks
  rw [List.mem_mergeSort] at hr hs
  rw [precedes_eq (hrank r hr s hs)]
  exact hranks

end Row

/-! ## Evaluation -/

namespace Evaluation

variable {today : Date} {c : Catalog} {filters : List Filter} {rows : List Row}

/-- Rows that pass and are in the order of the sort are what evaluation gives of them. -/
theorem run_of_settled (hnamed : ∀ f ∈ c.bind filters, f.1.SortingNamed)
    (hpass : ∀ row ∈ rows, Passes today c filters row)
    (hsorted : rows.Pairwise fun r s => Row.precedes today (namedKeys c filters) r s = true) :
    run today c filters rows = .ok rows := by
  refine run_ok_iff.mpr ⟨hnamed, ?_⟩
  have hall : select today c filters rows = rows := by
    rw [select_eq]
    exact List.filter_eq_self.mpr fun row hrow => decide_eq_true (hpass row hrow)
  rw [hall, List.mergeSort_of_pairwise hsorted]

/-- It does not matter which places the rows have. -/
theorem run_of_same_records {sorted : List Row}
    (hnamed : ∀ f ∈ c.bind filters, f.1.SortingNamed)
    (hpass : ∀ row ∈ sorted, Passes today c filters row)
    (hsorted : sorted.Pairwise fun r s => Row.precedes today (namedKeys c filters) r s = true)
    (hsame : rows.map Row.record = sorted.map Row.record) :
    run today c filters rows = .ok rows := by
  have hpairs : (rows.map Row.record).Pairwise fun r s =>
      Row.precedes today (namedKeys c filters) ⟨0, r⟩ ⟨0, s⟩ = true := by
    rw [hsame]
    exact List.pairwise_map.mpr hsorted
  refine run_of_settled hnamed (fun row hrow => ?_) (List.pairwise_map.mp hpairs)
  have hrecord : row.record ∈ sorted.map Row.record := hsame ▸ List.mem_map_of_mem hrow
  obtain ⟨r, hr, hrecord⟩ := List.mem_map.mp hrecord
  unfold Passes
  rw [← hrecord]
  exact hpass r hr

/-- **Selection and sorting commute**, if the values that each filter with a direction reads are of
one class, and what was evaluated is left as it is when it is evaluated again, as rows or as records
that are numbered anew. -/
theorem select_arrange (today : Date) (c : Catalog) (filters : List Filter) (rows : List Row)
    (hnamed : ∀ f ∈ filters, f.SortingNamed)
    (hclass : ∀ f ∈ c.bind filters, f.1.sorting ≠ none → Row.OneClass f.2.field rows) :
    (∃ sorted, arrange today c filters rows = .ok sorted ∧ sorted.Perm rows ∧
      arrange today c filters (select today c filters rows) =
        .ok (select today c filters sorted)) ∧
    ∃ out, run today c filters rows = .ok out ∧ out.Perm (select today c filters rows) ∧
      ∀ again : List Row, again.map Row.record = out.map Row.record →
        run today c filters again = .ok again := by
  have hkeys := oneClass_of_mem_namedKeys hclass
  obtain ⟨sorted, hsort, hperm, hpart⟩ := Row.sort_filter today hkeys fun row =>
    decide (Passes today c filters row)
  have harrange (rows : List Row) :
      arrange today c filters rows = Row.sort today (namedKeys c filters) rows := by
    unfold arrange
    rw [sortKeys_named hnamed]
    rfl
  have hcommutes : arrange today c filters (select today c filters rows) =
      .ok (select today c filters sorted) := by
    rw [harrange, select_eq, select_eq]
    exact hpart
  refine ⟨⟨sorted, (harrange rows).trans hsort, hperm, hcommutes⟩, _, hcommutes, hperm.filter _,
    fun again hsame => ?_⟩
  rw [select_eq] at hsame
  refine run_of_same_records (fun f hf => hnamed f.1 (Catalog.mem_of_mem_bind hf).1) ?_ ?_ hsame
  · exact fun row hrow => of_decide_eq_true (List.mem_filter.mp hrow).2
  · exact (Row.pairwise_precedes_of_sort hkeys hsort).filter _

/-- The salaries of more than one, the least of them first. -/
theorem select_arrange_salary :
    let filters : List Filter := [⟨"a", "salary", .known .greaterThan, .int 1, some (.by .ascending)⟩]
    let rows : List Row := [⟨0, [("salary", .int 5)]⟩, ⟨1, [("salary", .int 1)]⟩,
      ⟨2, [("name", .text "Ada")]⟩, ⟨3, [("salary", .int 3)]⟩]
    ∃ sorted, arrange default Employees.catalog filters rows = .ok sorted ∧ sorted.Perm rows ∧
      arrange default Employees.catalog filters (select default Employees.catalog filters rows) =
        .ok (select default Employees.catalog filters sorted) := by
  intro filters rows
  refine (select_arrange default Employees.catalog filters rows ?_ ?_).1
  · intro f hf
    rw [List.mem_singleton.mp hf]
    exact .inr ⟨.ascending, rfl⟩
  · intro f hf _
    have hfield : ∀ f ∈ Employees.catalog.bind filters, f.2.field = ("salary" : Text) := by
      decide +kernel
    rw [hfield f hf]
    refine ⟨.numbers, fun row hrow => ?_⟩
    simp only [rows, List.mem_cons, List.not_mem_nil, or_false] at hrow
    rcases hrow with rfl | rfl | rfl | rfl
    · exact ⟨.int 5, rfl, .inr ⟨rfl, fun x hx => by cases hx; rfl⟩⟩
    · exact ⟨.int 1, rfl, .inr ⟨rfl, fun x hx => by cases hx; rfl⟩⟩
    · exact ⟨.null, rfl, .inl rfl⟩
    · exact ⟨.int 3, rfl, .inr ⟨rfl, fun x hx => by cases hx; rfl⟩⟩

end Evaluation

end Winnow
