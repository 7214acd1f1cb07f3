import Winnow.Proofs.FilterSet.Invariant

/-!
# Sessions

A set is opened with any filters and then edited step after step, each edit under the rules of its
moment.  A new filter takes an id that was not issued, and an id that was issued stays so, whatever
becomes of its filter.  So no id comes back within a session.

* `FilterSet.after` : the set after a session;
* `FilterSet.composed?`, `FilterSet.composedIds` : the id of the filter that an edit composes, and
  the ids of a session in order;
* `FilterSet.edited_issued`, `FilterSet.after_issued` : an edit adds the id that it composes to the
  issued ones and does nothing else to them, and so does a session;
* `FilterSet.composedIds_fresh` : the ids of a session are distinct, and none was issued before it;
* `FilterSet.composedIds_ofFilters` : so none is the id of a filter that was ever there;
* `FilterSet.Reachable` : the sets that edits lead to, also with filters that have no definition.
-/

namespace Winnow.FilterSet

variable {c : Catalog} {rules : Rules} {s : FilterSet}

/-- The set after a session, in which each edit has its own rules. -/
def after (s : FilterSet) (session : List (Rules × Edit)) : FilterSet :=
  session.foldl (fun s step => s.edited step.1 step.2) s

@[simp] theorem after_nil (s : FilterSet) : s.after [] = s := rfl

@[simp] theorem after_cons (s : FilterSet) (step : Rules × Edit) (session : List (Rules × Edit)) :
    s.after (step :: session) = (s.edited step.1 step.2).after session := rfl

/-- A run of edits is a session under the same rules throughout. -/
theorem run_eq_after (rules : Rules) (s : FilterSet) (edits : List Edit) :
    s.run rules edits = s.after (edits.map (rules, ·)) := by
  unfold run after
  rw [List.foldl_map]

/-! ## The ids of new filters -/

/-- The id of the filter that an edit composes, if it succeeds in that. -/
def composed? (s : FilterSet) : Edit → Option Text
  | .compose clock definitionId =>
    match { s with today := clock }.compose definitionId with
    | .ok (f, _) => some f.id
    | .error _ => none
  | .update _ _ | .remove _ | .reorder _ _ | .clear => none

/-- The ids of the filters that a session composes, in their order. -/
def composedIds : FilterSet → List (Rules × Edit) → List Text
  | _, [] => []
  | s, step :: session =>
    (s.composed? step.2).toList ++ composedIds (s.edited step.1 step.2) session

/-- The id of a new filter was not issued before. -/
theorem composed?_not_mem {e : Edit} {id : Text} (h : s.composed? e = some id) :
    id ∉ s.issued := by
  cases e with
  | compose clock definitionId =>
    simp only [composed?] at h
    split at h
    · rename_i f t hcompose
      cases h
      obtain ⟨-, -, hfresh, -⟩ := compose_spec hcompose
      exact hfresh
    · cases h
  | update _ _ | remove _ | reorder _ _ | clear => cases h

/-- **An edit adds the id that it composes to the issued ones**, and does nothing else to them. -/
theorem edited_issued (rules : Rules) (s : FilterSet) (e : Edit) :
    (s.edited rules e).issued = (s.composed? e).toList ++ s.issued := by
  cases e with
  | compose clock definitionId =>
    simp only [edited, perform, composed?]
    cases hcompose : { s with today := clock }.compose definitionId with
    | error fault => rfl
    | ok composed =>
      obtain ⟨-, -, -, -, -, -, hissued⟩ := compose_spec hcompose
      exact hissued
  | update id p =>
    simp only [edited, perform, composed?]
    cases hupdate : s.update rules id p with
    | error fault => rfl
    | ok updated =>
      show updated.2.issued = s.issued
      rcases update_spec hupdate with hsame | ⟨i, old, f, -, -, hset⟩
      · rw [hsame]
      · rw [hset]
  | remove id => exact (remove_frame id).2
  | reorder id target => rfl
  | clear => rfl

/-- A session adds the ids that it composes to the issued ones. -/
theorem after_issued (s : FilterSet) (session : List (Rules × Edit)) :
    (s.after session).issued = (s.composedIds session).reverse ++ s.issued := by
  induction session generalizing s with
  | nil => rfl
  | cons step session ih =>
    rw [after_cons, ih, edited_issued, composedIds, List.reverse_append, List.append_assoc]
    cases s.composed? step.2 <;> rfl

/-- **The ids that a session composes are distinct, and none was issued before it.** -/
theorem composedIds_fresh (s : FilterSet) (session : List (Rules × Edit)) :
    (s.composedIds session).Nodup ∧ ∀ id ∈ s.composedIds session, id ∉ s.issued := by
  induction session generalizing s with
  | nil => exact ⟨List.nodup_nil, nofun⟩
  | cons step session ih =>
    obtain ⟨hdistinct, hfresh⟩ := ih (s.edited step.1 step.2)
    rw [edited_issued] at hfresh
    rw [composedIds]
    cases hcomposed : s.composed? step.2 with
    | none =>
      rw [hcomposed] at hfresh
      exact ⟨hdistinct, hfresh⟩
    | some id =>
      -- The later ids avoid what is issued by then, which is this id and all that was before.
      rw [hcomposed] at hfresh
      refine ⟨List.nodup_cons.mpr ⟨fun hid => hfresh id hid List.mem_cons_self, hdistinct⟩, ?_⟩
      intro other hother
      rcases List.mem_cons.mp hother with rfl | hother
      · exact composed?_not_mem hcomposed
      · exact fun hissued => hfresh other hother (List.mem_cons_of_mem id hissued)

/-- The ids of the filters stay recorded as issued. -/
theorem after_recorded (hs : ∀ f ∈ s.filters, f.id ∈ s.issued) (session : List (Rules × Edit)) :
    ∀ f ∈ (s.after session).filters, f.id ∈ (s.after session).issued := by
  induction session generalizing s with
  | nil => exact hs
  | cons step session ih => exact ih ((edited_change step.1 s step.2).recorded hs)

/-- **No id comes back within a session**, whatever filters the set is opened with and whatever
tokens there are, also the same ones again and again; a session draws only so many of them, so any
source of tokens is a list of given ones.  The ids of new filters are distinct, none is that of a
filter at the start, and none is that of a filter that was there at any earlier moment, even if it
was removed since. -/
theorem composedIds_ofFilters (c : Catalog) (tokens : Tokens) (today : Text)
    (initial : List Filter) (session : List (Rules × Edit)) :
    let start := ofFilters c tokens today initial
    (start.composedIds session).Nodup ∧
      (∀ id ∈ start.composedIds session, ∀ f ∈ initial, f.id ≠ id) ∧
      ∀ earlier later, session = earlier ++ later →
        ∀ id ∈ (start.after earlier).composedIds later, ∀ f ∈ (start.after earlier).filters,
          f.id ≠ id := by
  intro start
  have hrecorded : ∀ f ∈ start.filters, f.id ∈ start.issued := fun _ hf => List.mem_map_of_mem hf
  obtain ⟨hdistinct, hfresh⟩ := composedIds_fresh start session
  refine ⟨hdistinct, fun id hid f hf hsame => hfresh id hid (hsame ▸ hrecorded f hf), ?_⟩
  rintro earlier later - id hid f hf rfl
  exact (composedIds_fresh (start.after earlier) later).2 f.id hid
    (after_recorded hrecorded earlier f hf)

/-- The token of a filter that was removed is drawn again, and passed over. -/
example :
    (ofFilters Employees.catalog ⟨["x", "x"], 0⟩ [] []).composedIds
      ([.compose [] (.text "salary"), .remove (.text "salary_x"),
        .compose [] (.text "salary")].map (⟨default, Settings.bundled.limits⟩, ·)) =
      ["salary_x", "salary_000000000001"] := by
  decide +kernel

/-! ## The sets that are reached -/

/-- The sets that edits lead to: from a set without filters, from what a blob holds, and from given
filters, none of which has both a definition and an empty text as its direction.  A query takes this
text as no direction and a sort takes it as a wrong one. -/
inductive Reachable (c : Catalog) : FilterSet → Prop
  | start {rules : Rules} {s : FilterSet} (h : Start c rules s) : Reachable c s
  | given (tokens : Tokens) (today : Text) {filters : List Filter}
    (h : ∀ f ∈ filters, c.find? f.definitionId = none ∨ f.sorting ≠ some (.written [])) :
    Reachable c (ofFilters c tokens today filters)
  | edited (rules : Rules) (e : Edit) {s : FilterSet} (h : Reachable c s) :
    Reachable c (s.edited rules e)

theorem Reachable.after (h : s.Reachable c) (session : List (Rules × Edit)) :
    (s.after session).Reachable c := by
  induction session generalizing s with
  | nil => exact h
  | cons step session ih => exact ih (h.edited step.1 step.2)

theorem Reachable.catalog (h : s.Reachable c) : s.catalog = c := by
  induction h with
  | start h => exact start_catalog h
  | given tokens today h => rfl
  | edited rules e h ih => exact (edited_catalog rules _ e).trans ih

theorem patch_sorting_ne_empty {rules : Rules} {d : Option Definition} {p : Patch} {f g : Filter}
    (hf : f.sorting ≠ some (.written [])) (h : p.apply rules d f = .ok g) :
    g.sorting ≠ some (.written []) := by
  obtain ⟨-, -, -, -, hsorting⟩ := Patch.apply_ok h
  rcases Patch.part_cases hsorting with hkept | ⟨v, -, haccepted⟩
  · exact hkept ▸ hf
  · rcases Filter.acceptedSorting_known haccepted with hnone | ⟨direction, hsome⟩
    · exact hnone ▸ nofun
    · exact hsome ▸ nofun

/-- No filter of a set that is reached has both a definition and an empty text as its direction: a
patch keeps the definition of a filter and sets directions of the vocabulary only. -/
theorem Reachable.sorting_ne_empty (h : s.Reachable c) :
    ∀ f ∈ s.filters, c.find? f.definitionId = none ∨ f.sorting ≠ some (.written []) := by
  induction h with
  | start h =>
    intro f hf
    rcases start_sortingKnown h f hf with hnone | ⟨d, hsome⟩
    · exact .inr (hnone ▸ nofun)
    · exact .inr (hsome ▸ nofun)
  | given tokens today h => exact h
  | @edited rules e s h ih =>
    intro f hf
    rcases mem_edited hf with hf | ⟨clock, definitionId, d, -, -, hnew⟩ |
      ⟨id, p, old, -, hold, hpatch⟩
    · exact ih f hf
    · rw [hnew]
      exact .inr nofun
    · rw [Patch.apply_definitionId hpatch]
      exact (ih old hold).imp_right fun hsorting => patch_sorting_ne_empty hsorting hpatch

end Winnow.FilterSet
