import Winnow.Catalog.Employees
import Winnow.Proofs.FilterSet.Moving
import Winnow.Settings

/-!
# Orders that moves lead to

A set with distinct ids is put in order by moves, each of one filter right before another one.  A
move keeps the others in their order, tells whether it changed anything, and changes nothing when it
is repeated.  It never takes a filter to the end.  Even so moves lead to every order: the filter that
is to come last stays where it is, and from there on backwards each filter is moved right before the
one that is to follow it.

* `FilterSet.reorder_absent`, `FilterSet.reorder_present` : a move, by whether it names two filters
  of the set;
* `FilterSet.reorder_spec` : all that a move does and tells;
* `FilterSet.movesTo` : the moves to an order, one less than there are filters;
* `FilterSet.moveAll_movesTo` : after the moves to a part of an order the part stands as it is to;
* `FilterSet.exists_reorders` : so moves lead to every order, though none takes a filter to the end.
-/

namespace Winnow.FilterSet

variable {s : FilterSet} {id target : Value} {f g : Filter}

/-! ## One move -/

theorem eq_text_of_hasId (h : Filter.hasId id f = true) : id = .text f.id := by
  cases id with
  | text t => rw [hasId_text.mp h]
  | _ => cases h

theorem get?_eq_some (h : s.get? id = some f) : id = .text f.id ∧ f ∈ s.filters :=
  ⟨eq_text_of_hasId (List.find?_some h), List.mem_of_find?_eq_some h⟩

/-- A move of a filter to its own place, or one that names a filter that is not there, does
nothing. -/
theorem reorder_absent
    (h : id.equals target = true ∨ s.get? id = none ∨ s.get? target = none) :
    s.reorder id target = (false, s) := by
  have hmove : moveBefore id target s.filters = (false, s.filters) := by
    unfold moveBefore
    split
    · rfl
    · rename_i hids
      split
      · rename_i f i j hfind _ hplace
        rcases h with h | h | h
        · exact absurd h hids
        · exact absurd (h.symm.trans hfind) nofun
        · have hnone : place? target s.filters = none :=
            List.findIdx?_eq_none_iff.mpr fun g hg => by
              simpa using List.find?_eq_none.mp h g hg
          exact absurd (hnone.symm.trans hplace) nofun
      · rfl
  rw [reorder, hmove]

/-- A move of a filter before another one, by what stands around the two. -/
theorem reorder_present (hdistinct : (s.filters.map Filter.id).Nodup)
    (hne : id.equals target = false) (hf : s.get? id = some f) (hg : s.get? target = some g) :
    ∃ front back before after, s.filters = front ++ f :: back ∧
      front ++ back = before ++ g :: after ∧
      (s.filters.filter fun k => k.id != f.id) = front ++ back ∧
      s.reorder id target =
        (before.length != front.length, { s with filters := before ++ f :: g :: after }) := by
  obtain ⟨rfl, hmem⟩ := get?_eq_some hf
  obtain ⟨rfl, htarget⟩ := get?_eq_some hg
  have hids : f.id ≠ g.id := by simpa [Value.equals] using hne
  obtain ⟨front, back, before, after, hsplit, hrest, hkept, hmove⟩ :=
    exists_move hdistinct hmem htarget hids
  exact ⟨front, back, before, after, hsplit, hrest, hkept, by rw [reorder, hmove]⟩

theorem reorder_perm (s : FilterSet) (id target : Value) :
    (s.reorder id target).2.filters.Perm s.filters :=
  moveBefore_perm id target s.filters

theorem reorder_distinct (hdistinct : (s.filters.map Filter.id).Nodup) (id target : Value) :
    ((s.reorder id target).2.filters.map Filter.id).Nodup :=
  ((reorder_perm s id target).map Filter.id).nodup_iff.mpr hdistinct

/-- A filter that is put between others stands at the same place before and after only if it was put
back where it was. -/
theorem append_cons_eq_iff {front back before after : List Filter}
    (hother : ∀ k ∈ front ++ back, k.id ≠ f.id) (hrest : front ++ back = before ++ after) :
    before ++ f :: after = front ++ f :: back ↔ before.length = front.length := by
  have hfree : ∀ k ∈ front ++ back, Filter.hasId (.text f.id) k = false := fun k hk =>
    Bool.eq_false_iff.mpr fun h => hother k hk (hasId_text.mp h)
  constructor
  · intro heq
    have hplaces := congrArg (place? (.text f.id)) heq
    rw [place?_split (hasId_text.mpr rfl) fun k hk => hfree k (hrest ▸ List.mem_append_left after hk),
      place?_split (hasId_text.mpr rfl) fun k hk => hfree k (List.mem_append_left back hk)] at hplaces
    exact Option.some.inj hplaces
  · intro hlength
    obtain ⟨rfl, rfl⟩ := List.append_inj hrest hlength.symm
    rfl

/-- A move does nothing, or it names two filters of the set. -/
theorem absent_or_present (s : FilterSet) (id target : Value) :
    (id.equals target = true ∨ s.get? id = none ∨ s.get? target = none) ∨
      ∃ f g, id.equals target = false ∧ s.get? id = some f ∧ s.get? target = some g := by
  cases hids : id.equals target with
  | true => exact .inl (.inl rfl)
  | false =>
    cases hf : s.get? id with
    | none => exact .inl (.inr (.inl rfl))
    | some f =>
      cases hg : s.get? target with
      | none => exact .inl (.inr (.inr rfl))
      | some g => exact .inr ⟨f, g, rfl, rfl, rfl⟩

/-- The answer of a move tells whether the order changed. -/
theorem reorder_changed_iff (hdistinct : (s.filters.map Filter.id).Nodup) (id target : Value) :
    (s.reorder id target).1 = true ↔ (s.reorder id target).2.filters ≠ s.filters := by
  rcases absent_or_present s id target with habsent | ⟨f, g, hne, hf, hg⟩
  · rw [reorder_absent habsent]
    simp
  · obtain ⟨front, back, before, after, hsplit, hrest, hkept, hreorder⟩ :=
      reorder_present hdistinct hne hf hg
    have hother : ∀ k ∈ front ++ back, k.id ≠ f.id := by
      rw [← hkept]
      intro k hk
      simpa using (List.mem_filter.mp hk).2
    rw [hreorder, hsplit]
    simp only [bne_iff_ne, ne_eq, append_cons_eq_iff hother hrest]

/-- A move that is repeated changes nothing. -/
theorem reorder_repeated (hdistinct : (s.filters.map Filter.id).Nodup) (id target : Value) :
    (s.reorder id target).2.reorder id target = (false, (s.reorder id target).2) := by
  rcases absent_or_present s id target with habsent | ⟨f, g, hne, hf, hg⟩
  · rw [reorder_absent habsent, reorder_absent habsent]
  · obtain ⟨front, back, before, after, -, -, -, hreorder⟩ := reorder_present hdistinct hne hf hg
    obtain ⟨rfl, -⟩ := get?_eq_some hf
    obtain ⟨rfl, -⟩ := get?_eq_some hg
    have hthere := reorder_distinct hdistinct (.text f.id) (.text g.id)
    rw [hreorder] at hthere ⊢
    -- The filter stands between `before` and the other one already, so its gap is its place.
    rw [reorder, moveBefore_of_distinct hthere rfl]
    simp

/-- A filter that stands last after a move was not moved. -/
theorem reorder_last (hdistinct : (s.filters.map Filter.id).Nodup) (hf : s.get? id = some f)
    (hlast : (s.reorder id target).2.filters.getLast? = some f) :
    s.reorder id target = (false, s) := by
  rcases absent_or_present s id target with habsent | ⟨k, g, hne, hk, hg⟩
  · exact reorder_absent habsent
  · obtain rfl : f = k := Option.some.inj (hf.symm.trans hk)
    obtain ⟨front, back, before, after, -, -, -, hreorder⟩ := reorder_present hdistinct hne hf hg
    have hthere := reorder_distinct hdistinct id target
    rw [hreorder] at hthere hlast
    -- The other filter comes behind it, so the last one would be there twice.
    have hmem : f ∈ g :: after := by
      rw [List.getLast?_append_of_ne_nil _ (List.cons_ne_nil _ _), List.getLast?_cons_cons] at hlast
      exact List.mem_of_getLast? hlast
    rw [List.map_append, List.map_cons, List.nodup_append, List.nodup_cons] at hthere
    exact absurd (List.mem_map_of_mem hmem) hthere.2.1.1

/-- **A reorder is a stable move of one filter.**  Where it names a filter twice, or one that is not
there, it does nothing.  Otherwise the one filter stands right before the other one afterwards, and
the order without it is what it was.  The answer tells whether the order changed, and a second
reorder changes nothing. -/
theorem reorder_spec (hdistinct : (s.filters.map Filter.id).Nodup) (id target : Value) :
    ((id.equals target = true ∨ s.get? id = none ∨ s.get? target = none) →
      s.reorder id target = (false, s)) ∧
    (∀ f g, id.equals target = false → s.get? id = some f → s.get? target = some g →
      (s.reorder id target).2.filters.Perm s.filters ∧
      (∃ before after, (s.reorder id target).2.filters = before ++ f :: g :: after) ∧
      ((s.reorder id target).2.filters.filter fun k => k.id != f.id) =
        s.filters.filter fun k => k.id != f.id) ∧
    ((s.reorder id target).1 = true ↔ (s.reorder id target).2.filters ≠ s.filters) ∧
    (s.reorder id target).2.reorder id target = (false, (s.reorder id target).2) := by
  refine ⟨reorder_absent, fun f g hne hf hg => ⟨reorder_perm s id target, ?_, ?_⟩,
    reorder_changed_iff hdistinct id target, reorder_repeated hdistinct id target⟩
  · obtain ⟨_, _, before, after, -, -, -, hreorder⟩ := reorder_present hdistinct hne hf hg
    exact ⟨before, after, by rw [hreorder]⟩
  · obtain ⟨rfl, hmem⟩ := get?_eq_some hf
    obtain ⟨rfl, htarget⟩ := get?_eq_some hg
    have hids : f.id ≠ g.id := by simpa [Value.equals] using hne
    exact (moveBefore_movedBefore hdistinct hmem htarget hids).without_moved

/-- Three filters of the employee directory. -/
def threeFilters : FilterSet :=
  ofFilters Employees.catalog ⟨[], 0⟩ []
    [⟨"a", "city", .known .equals, .text "Graz", none⟩,
      ⟨"b", "salary", .known .between, .list [.int 1, .int 2], none⟩,
      ⟨"c", "skills", .known .contains, .list [], some (.by .descending)⟩]

/-- The last of three filters is moved to the front, and the first to the middle, where it is. -/
theorem reorder_spec_threeFilters :
    (threeFilters.filters.map Filter.id).Nodup ∧
    ((threeFilters.reorder (.text "c") (.text "a")).1 = true ∧
      (threeFilters.reorder (.text "c") (.text "a")).2.filters.map Filter.id = ["c", "a", "b"] ∧
      (threeFilters.reorder (.text "c") (.text "a")).2.reorder (.text "c") (.text "a") =
        (false, (threeFilters.reorder (.text "c") (.text "a")).2)) ∧
    (threeFilters.reorder (.text "a") (.text "b")).2.filters = threeFilters.filters ∧
    threeFilters.reorder (.text "a") (.text "d") = (false, threeFilters) := by
  have hdistinct : (threeFilters.filters.map Filter.id).Nodup := by decide
  obtain ⟨-, -, -, hrepeated⟩ := reorder_spec hdistinct (.text "c") (.text "a")
  obtain ⟨-, -, hchanged, -⟩ := reorder_spec hdistinct (.text "a") (.text "b")
  obtain ⟨habsent, -, -, -⟩ := reorder_spec hdistinct (.text "a") (.text "d")
  refine ⟨hdistinct, ⟨rfl, rfl, hrepeated⟩, ?_, habsent (.inr (.inr rfl))⟩
  by_contra hne
  exact absurd (hchanged.mpr hne) (by decide)

/-! ## Many moves -/

/-- The order after moves, each of a filter right before another one. -/
def moveAll (moves : List (Text × Text)) (filters : List Filter) : List Filter :=
  moves.foldl (fun filters m => (moveBefore (.text m.1) (.text m.2) filters).2) filters

/-- The moves to an order: from its end on, each filter is moved right before the next one. -/
def movesTo : List Filter → List (Text × Text)
  | f :: g :: rest => movesTo (g :: rest) ++ [(f.id, g.id)]
  | _ => []

theorem length_movesTo (order : List Filter) : (movesTo order).length = order.length - 1 := by
  induction order with
  | nil => rfl
  | cons f order ih =>
    cases order with
    | nil => rfl
    | cons g rest => simp [movesTo, ih]

theorem moveAll_concat (moves : List (Text × Text)) (id target : Text) (filters : List Filter) :
    moveAll (moves ++ [(id, target)]) filters =
      (moveBefore (.text id) (.text target) (moveAll moves filters)).2 := by
  simp [moveAll]

theorem moveAll_perm (moves : List (Text × Text)) (filters : List Filter) :
    (moveAll moves filters).Perm filters := by
  induction moves generalizing filters with
  | nil => exact List.Perm.refl _
  | cons m moves ih => exact (ih _).trans (moveBefore_perm _ _ filters)

/-- A run of reorders makes these moves, and leaves all else of the set as it is. -/
theorem run_reorders (rules : Rules) (s : FilterSet) (moves : List (Text × Text)) :
    s.run rules (moves.map fun m => .reorder (.text m.1) (.text m.2)) =
      { s with filters := moveAll moves s.filters } := by
  induction moves generalizing s with
  | nil => rfl
  | cons m moves ih => exact ih (s.reorder (.text m.1) (.text m.2)).2

/-- A filter outside of a piece of the order is moved right before the piece. -/
theorem moveBefore_piece {front rest back : List Filter}
    (hdistinct : ((front ++ g :: rest ++ back).map Filter.id).Nodup) (hf : f ∈ front ++ back) :
    ∃ front' back', (moveBefore (.text f.id) (.text g.id) (front ++ g :: rest ++ back)).2 =
      front' ++ f :: g :: rest ++ back' := by
  rcases List.mem_append.mp hf with hf | hf
  · obtain ⟨a, b, rfl⟩ := List.append_of_mem hf
    have hsplit : a ++ f :: b ++ g :: rest ++ back = a ++ f :: (b ++ g :: rest ++ back) := by simp
    have hrest : a ++ (b ++ g :: rest ++ back) = (a ++ b) ++ g :: (rest ++ back) := by simp
    rw [hsplit] at hdistinct ⊢
    exact ⟨a ++ b, back, by rw [moveBefore_of_distinct hdistinct hrest]; simp⟩
  · obtain ⟨a, b, rfl⟩ := List.append_of_mem hf
    have hsplit : front ++ g :: rest ++ (a ++ f :: b) = (front ++ g :: rest ++ a) ++ f :: b := by
      simp
    have hrest : (front ++ g :: rest ++ a) ++ b = front ++ g :: (rest ++ (a ++ b)) := by simp
    rw [hsplit] at hdistinct ⊢
    exact ⟨front, a ++ b, by rw [moveBefore_of_distinct hdistinct hrest]; simp⟩

/-- **After the moves to a part of an order the part stands as it is to**, in one piece. -/
theorem moveAll_movesTo {filters order : List Filter} (hdistinct : (filters.map Filter.id).Nodup)
    (horder : (order.map Filter.id).Nodup) (hsub : ∀ f ∈ order, f ∈ filters) :
    ∃ front back, moveAll (movesTo order) filters = front ++ order ++ back := by
  induction order with
  | nil => exact ⟨[], filters, rfl⟩
  | cons f order ih =>
    obtain ⟨hnew, hrest⟩ := List.nodup_cons.mp horder
    obtain ⟨hf, hothers⟩ := List.forall_mem_cons.mp hsub
    obtain ⟨front, back, hmoved⟩ := ih hrest hothers
    cases order with
    | nil =>
      obtain ⟨front, back, rfl⟩ := List.append_of_mem hf
      exact ⟨front, back, by simp [movesTo, moveAll]⟩
    | cons g rest =>
      have hperm := moveAll_perm (movesTo (g :: rest)) filters
      have hmem : f ∈ front ++ back := by
        have hthere : f ∈ front ++ (g :: rest) ++ back := hmoved ▸ hperm.symm.subset hf
        have hnot : f ∉ g :: rest := fun h => hnew (List.mem_map_of_mem h)
        simp only [List.mem_append] at hthere ⊢
        tauto
      rw [movesTo, moveAll_concat, hmoved]
      exact moveBefore_piece (hmoved ▸ (hperm.map Filter.id).nodup_iff.mpr hdistinct) hmem

/-- **Moves lead to every order of a set**, one move less than there are filters, though no move
takes a filter to the end: one that stands last after a reorder was not moved by it. -/
theorem exists_reorders (hdistinct : (s.filters.map Filter.id).Nodup) (rules : Rules)
    {order : List Filter} (horder : order.Perm s.filters) :
    (∃ moves : List (Text × Text), moves.length ≤ s.filters.length - 1 ∧
      s.run rules (moves.map fun m => .reorder (.text m.1) (.text m.2)) =
        { s with filters := order }) ∧
    ∀ id target f, s.get? id = some f →
      (s.reorder id target).2.filters.getLast? = some f → s.reorder id target = (false, s) := by
  refine ⟨⟨movesTo order, ?_, ?_⟩, fun _ _ _ => reorder_last hdistinct⟩
  · exact Nat.le_of_eq (by rw [length_movesTo, horder.length_eq])
  · obtain ⟨front, back, hmoved⟩ := moveAll_movesTo hdistinct
      ((horder.map Filter.id).nodup_iff.mpr hdistinct) fun f hf => horder.subset hf
    -- The whole order is one piece, and nothing is left to stand around it.
    have hlength := (moveAll_perm (movesTo order) s.filters).length_eq
    rw [hmoved, ← horder.length_eq] at hlength
    simp only [List.length_append] at hlength
    have hfront : front = [] := List.eq_nil_of_length_eq_zero (by omega)
    have hback : back = [] := List.eq_nil_of_length_eq_zero (by omega)
    rw [run_reorders, hmoved, hfront, hback, List.nil_append, List.append_nil]

/-- Two reorders turn three filters around, and no reorder takes the first of them to the end. -/
theorem exists_reorders_threeFilters :
    (∃ moves : List (Text × Text), moves.length ≤ 2 ∧
      threeFilters.run ⟨default, Settings.bundled.limits⟩
          (moves.map fun m => .reorder (.text m.1) (.text m.2)) =
        { threeFilters with filters := threeFilters.filters.reverse }) ∧
    ∀ f, threeFilters.get? (.text "a") = some f →
      (threeFilters.reorder (.text "a") (.text "c")).2.filters.getLast? ≠ some f := by
  obtain ⟨hmoves, hlast⟩ := exists_reorders (by decide) ⟨default, Settings.bundled.limits⟩
    (List.reverse_perm threeFilters.filters)
  refine ⟨hmoves, fun f hf h => ?_⟩
  have hidle := congrArg Prod.fst (hlast _ _ f hf h)
  exact absurd hidle (by decide)

end Winnow.FilterSet
