import Mathlib.Data.List.Forall2
import Winnow.Proofs.Evaluation.Rearranging
import Winnow.Proofs.Record.Reading

/-!
# Entries that no filter reads

A field is read at its own key, or else by a walk that begins at the first part of its path.  Every
other entry of a record may be added, removed or changed: the field has the same value, so selection
and sort treat the record alike, and evaluation gives the records at the same places in the same
order.  The later parts of a path are keys of nested objects, not of the record.

* `Record.SameBut`, `Record.Mentions` : records that differ in one entry, and paths that can read it;
* `Record.read_congr` : any other path reads the same;
* `Record.order_congr`, `Evaluation.satisfies_congr` : so records are compared and matched alike;
* `mergeSort_forall₂` : lists that are ordered alike are sorted alike;
* `Evaluation.run_eq`, `Evaluation.run_forall₂` : what evaluation gives, and gives alike;
* `FilterSet.places_unnamed` : an entry that no filter reads has no influence on the places.
-/

namespace Winnow

/-! ## Records that differ in one entry -/

namespace Record

variable {key path : Text} {r s : Record}

/-- Two records have the same entries, except that one of a key may have been added, removed or
changed. -/
def SameBut (key : Text) (r s : Record) : Prop :=
  ∀ name, name ≠ key → Value.find? name r = Value.find? name s

/-- A path can read the entry of a key: it is the key, or its first part is. -/
def Mentions (path key : Text) : Prop := path = key ∨ (partsOf path).head? = some key

instance : Decidable (Mentions path key) := inferInstanceAs (Decidable (_ ∨ _))

/-- The first step into two records gives the same where the part is another key. -/
theorem step_congr (hsame : SameBut key r s) {part : Text} (hpart : part ≠ key) :
    step (.object r) part = step (.object s) part := by
  unfold step
  dsimp only
  rw [hsame part hpart]

/-- **A path reads the same in two records that differ in an entry that it does not mention.**  What
is behind the first part is in values that both records share. -/
theorem read_congr (hsame : SameBut key r s) (hpath : ¬ Mentions path key) :
    r.read path = s.read path := by
  obtain ⟨hkey, hhead⟩ := not_or.mp hpath
  have hfind : Value.find? path r = Value.find? path s := hsame path hkey
  cases hentry : Value.find? path r with
  | some v =>
    unfold read
    rw [← hfind, hentry]
  | none =>
    rw [read_of_not_key hentry, read_of_not_key (hfind.symm.trans hentry)]
    cases hparts : partsOf path with
    | nil => exact absurd hparts (List.splitOn_ne_nil _ _)
    | cons first parts =>
      have hfirst : first ≠ key := fun heq => hhead (by rw [hparts, heq]; rfl)
      rw [List.foldlM_cons, List.foldlM_cons, step_congr hsame hfirst]

/-- Records are compared alike by keys that do not mention what they differ in. -/
theorem order_congr {today : Date} {keys : List SortKey} {r' s' : Record}
    (hkeys : ∀ k ∈ keys, ¬ Mentions k.field key) (hr : SameBut key r r') (hs : SameBut key s s') :
    Record.order today keys r s = Record.order today keys r' s' := by
  induction keys with
  | nil => rfl
  | cons k keys ih =>
    obtain ⟨hk, hrest⟩ := List.forall_mem_cons.mp hkeys
    rw [Record.order, Record.order, read_congr hr hk, read_congr hs hk, ih hrest]

end Record

/-! ## Lists that are treated alike -/

section

variable {α β γ δ : Type} {R : α → β → Prop} {xs : List α} {ys : List β}

/-- Items at one place are related after both were changed in the same way. -/
theorem mapIdx_forall₂ {S : γ → δ → Prop} {f : Nat → α → γ} {g : Nat → β → δ}
    (hstep : ∀ i a b, R a b → S (f i a) (g i b)) (h : List.Forall₂ R xs ys) :
    List.Forall₂ S (xs.mapIdx f) (ys.mapIdx g) := by
  induction h generalizing f g with
  | nil => exact .nil
  | cons hab _ ih =>
    rw [List.mapIdx_cons, List.mapIdx_cons]
    exact .cons (hstep 0 _ _ hab) (ih fun i => hstep (i + 1))

/-- **Lists whose items are related in pairs, and ordered alike, are sorted alike.** -/
theorem mergeSort_forall₂ (le : α → α → Bool) (le' : β → β → Bool)
    (hle : ∀ a b a' b', R a b → R a' b' → le a a' = le' b b') (h : List.Forall₂ R xs ys) :
    List.Forall₂ R (xs.mergeSort le) (ys.mergeSort le') := by
  obtain ⟨hlength, hpairs⟩ := List.forall₂_iff_zip.mp h
  -- Both sorts are that of the list of the pairs.
  have hleft := List.map_mergeSort (r := fun p q : α × β => le p.1 q.1) (s := le) (f := Prod.fst)
    (l := xs.zip ys) fun _ _ _ _ => rfl
  have hright := List.map_mergeSort (r := fun p q : α × β => le p.1 q.1) (s := le') (f := Prod.snd)
    (l := xs.zip ys) fun p hp q hq => hle p.1 p.2 q.1 q.2 (hpairs hp) (hpairs hq)
  rw [List.map_fst_zip hlength.le] at hleft
  rw [List.map_snd_zip hlength.ge] at hright
  rw [← hleft, ← hright, List.forall₂_map_left_iff, List.forall₂_map_right_iff, List.forall₂_same]
  exact fun p hp => hpairs ((List.mem_mergeSort).mp hp)

end

/-- Two rows stand at one place, and their records differ at most in the entry of a key. -/
structure Row.SameBut (key : Text) (r s : Row) : Prop where
  place : r.place = s.place
  record : Record.SameBut key r.record s.record

theorem Row.number_forall₂ {key : Text} {records changed : List Record}
    (h : List.Forall₂ (Record.SameBut key) records changed) :
    List.Forall₂ (Row.SameBut key) (Row.number records) (Row.number changed) :=
  mapIdx_forall₂ (fun _ _ _ hsame => ⟨rfl, hsame⟩) h

/-! ## Evaluation -/

namespace Evaluation

variable {today : Date} {c : Catalog} {filters : List Filter} {key : Text}

/-- A record satisfies a filter as does one that differs from it elsewhere. -/
theorem satisfies_congr {f : Filter × Definition} {r s : Record}
    (hf : ¬ Record.Mentions f.2.field key) (hsame : Record.SameBut key r s) :
    satisfies today r f = satisfies today s f := by
  unfold satisfies Filter.accepts
  rw [Record.read_congr hsame hf]

/-- **What evaluation gives**: the selected rows, sorted by the keys, if there are keys. -/
theorem run_eq (today : Date) (c : Catalog) (filters : List Filter) (rows : List Row) :
    run today c filters rows = (sortKeys c filters).map fun keys =>
      (select today c filters rows).mergeSort (Row.precedes today keys) := by
  unfold run arrange
  cases hkeys : sortKeys c filters with
  | error fault => rfl
  | ok keys =>
    obtain ⟨-, rfl⟩ := sortKeys_ok_iff.mp hkeys
    exact Row.sort_eq_mergeSort fun row => isReadable_of_mem_select

theorem select_forall₂ (today : Date) (hkey : ∀ f ∈ c.bind filters, ¬ Record.Mentions f.2.field key)
    {rows changed : List Row} (h : List.Forall₂ (Row.SameBut key) rows changed) :
    List.Forall₂ (Row.SameBut key) (select today c filters rows)
      (select today c filters changed) := by
  refine List.rel_filter (fun r s hsame => ?_) h
  show List.all _ _ = true ↔ List.all _ _ = true
  rw [List.all_eq_true, List.all_eq_true]
  exact forall₂_congr fun f hf => by rw [satisfies_congr (hkey f hf) hsame.record]

/-- **Evaluation treats rows alike that differ where no filter reads.** -/
theorem run_forall₂ (hkey : ∀ f ∈ c.bind filters, ¬ Record.Mentions f.2.field key)
    {rows changed : List Row} (h : List.Forall₂ (Row.SameBut key) rows changed) :
    (run today c filters rows).map (List.map Row.place) =
      (run today c filters changed).map (List.map Row.place) := by
  rw [run_eq, run_eq]
  cases hkeys : sortKeys c filters with
  | error fault => rfl
  | ok keys =>
    obtain ⟨-, rfl⟩ := sortKeys_ok_iff.mp hkeys
    have hfields : ∀ k ∈ namedKeys c filters, ¬ Record.Mentions k.field key := by
      intro k hk
      obtain ⟨f, hf, -, hfield⟩ := field_of_mem_namedKeys hk
      exact hfield ▸ hkey f hf
    have hprecedes : ∀ r s r' s', Row.SameBut key r s → Row.SameBut key r' s' →
        Row.precedes today (namedKeys c filters) r r' =
          Row.precedes today (namedKeys c filters) s s' := by
      intro r s r' s' hr hs
      unfold Row.precedes
      rw [Record.order_congr hfields hr.record hs.record]
    have hsorted := mergeSort_forall₂ _ _ hprecedes (select_forall₂ today hkey h)
    refine congrArg Except.ok (List.forall₂_eq_eq_eq ▸ ?_)
    rw [List.forall₂_map_left_iff, List.forall₂_map_right_iff]
    exact hsorted.imp fun _ _ hsame => hsame.place

end Evaluation

namespace FilterSet

open Evaluation

/-- The places of the records that a set returns, in the order in which it returns them. -/
def places (today : Date) (s : FilterSet) (records : List Record) : Except Fault (List Nat) :=
  (s.evaluate today (Row.number records)).map (List.map Row.place)

/-- **An entry that no filter reads has no influence on evaluation.**  Where the entry of a key is
added, removed or changed in any of the records, and no field of a filter that has a definition is
this key or begins with it, the result has the same places in the same order.  There is a result if
the directions of these filters are in the vocabulary. -/
theorem places_unnamed (s : FilterSet) (today : Date) (key : Text)
    (hkey : ∀ f ∈ s.catalog.bind s.filters, ¬ Record.Mentions f.2.field key)
    {records changed : List Record} (h : List.Forall₂ (Record.SameBut key) records changed) :
    s.places today records = s.places today changed ∧
      ((∀ f ∈ s.catalog.bind s.filters, f.1.SortingNamed) →
        ∃ ps, s.places today records = .ok ps ∧ s.places today changed = .ok ps) := by
  have hsame : s.places today records = s.places today changed :=
    run_forall₂ hkey (Row.number_forall₂ h)
  refine ⟨hsame, fun hnamed => ?_⟩
  have hplaces : s.places today records = .ok _ :=
    congrArg (Except.map (List.map Row.place)) (run_ok_iff.mpr ⟨hnamed, rfl⟩)
  exact ⟨_, hplaces, hsame ▸ hplaces⟩

/-- The directory with a definition that reads the city of the address. -/
def directoryWithHomes : Catalog :=
  Employees.catalog.add ⟨"home", "Home", "Filter by city of residence", .text, "address.city",
    Employees.textOperators, .contains, none, .tail _ (.tail _ (.head _)), nofun⟩

/-- The city of an address is no city of the record: that is added, removed and changed. -/
theorem places_unnamed_city :
    let s := ofFilters directoryWithHomes ⟨[], 0⟩ []
      [⟨"h", "home", .known .contains, .text "o", some (.by .descending)⟩,
        ⟨"t", "height", .other (.text "taller"), .list [.null], some (.written [])⟩]
    let home (city : Text) : Text × Value := ("address", .object [("city", .text city)])
    ∃ ps, s.places default [[home "Rome"], [("city", .text "Bern"), home "Oslo"],
        [home "Bonn", ("city", .int 1)]] = .ok ps ∧
      s.places default [[("city", .null), home "Rome"], [home "Oslo"],
        [home "Bonn", ("city", .text "Bonn")]] = .ok ps := by
  intro s home
  have hother : ∀ name : Text, name ≠ "city" → ("city" : Text) ≠ name := fun _ h => h.symm
  refine (places_unnamed s default "city" (by decide +kernel) ?_).2 ?_
  · refine .cons ?_ (.cons ?_ (.cons ?_ .nil)) <;>
    · intro name hname
      simp only [Value.find?_cons, if_neg (hother name hname)]
  · intro f hf
    have hdirections : ∀ f ∈ s.catalog.bind s.filters, f.1.sorting = some (.by .descending) := by
      decide +kernel
    exact .inr ⟨.descending, by rw [hdirections f hf]; rfl⟩

end FilterSet

end Winnow
