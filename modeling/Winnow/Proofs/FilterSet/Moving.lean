import Winnow.Proofs.FilterSet.Editing

/-!
# Moving a filter

A filter that is moved right before another one is taken out of the order first, and then put in
where the other one stands.

* `FilterSet.moveBefore_split` : the order after a move, by what stands around the two filters;
* `Filter.MovedBefore` : what a move is to do to an order;
* `FilterSet.moveBefore_of_distinct`, `FilterSet.exists_move` : the order after a move where the ids
  are distinct;
* `FilterSet.moveBefore_movedBefore` : there a move does what it is to do.
-/

namespace Winnow

/-- One filter stands right before another one, and the order without it is what it was before. -/
def Filter.MovedBefore (moved target : Filter) (old new : List Filter) : Prop :=
  ∃ before after, new = before ++ moved :: target :: after ∧
    before ++ target :: after = old.filter fun f => f.id != moved.id

/-- A filter that comes first, and only once, has none before it. -/
theorem Filter.not_movedBefore_head {moved target : Filter} {old rest : List Filter}
    (hne : moved ≠ target) (htarget : target ∉ rest) :
    ¬ moved.MovedBefore target old (target :: rest) := by
  rintro ⟨before, after, hnew, -⟩
  cases before with
  | nil =>
    simp only [List.nil_append, List.cons.injEq] at hnew
    exact hne hnew.1.symm
  | cons f before =>
    simp only [List.cons_append, List.cons.injEq] at hnew
    exact htarget (by simp [hnew.2])

/-- The order without the filter that is moved stays what it was. -/
theorem Filter.MovedBefore.without_moved {moved target : Filter} {old new : List Filter}
    (h : moved.MovedBefore target old new) :
    (new.filter fun f => f.id != moved.id) = old.filter fun f => f.id != moved.id := by
  obtain ⟨before, after, rfl, hkept⟩ := h
  have hothers : (before ++ target :: after).filter (fun f => f.id != moved.id) =
      before ++ target :: after := by
    rw [hkept, List.filter_filter]
    simp
  rw [← hkept, ← hothers]
  simp

namespace FilterSet

variable {id target : Value} {s t : Filter} {front back before after : List Filter}

theorem hasId_text {t : Text} {f : Filter} : Filter.hasId (.text t) f = true ↔ f.id = t := by
  simp [Filter.hasId]

/-! ## The places of the two filters -/

theorem place?_split (hs : Filter.hasId id s = true)
    (hfront : ∀ f ∈ front, Filter.hasId id f = false) :
    place? id (front ++ s :: back) = some front.length := by
  have hnone : front.findIdx? (Filter.hasId id) = none := by simpa using hfront
  simp [place?, List.findIdx?_append, hnone, List.findIdx?_cons, hs]

theorem find?_split (hs : Filter.hasId id s = true)
    (hfront : ∀ f ∈ front, Filter.hasId id f = false) :
    (front ++ s :: back).find? (Filter.hasId id) = some s := by
  have hnone : front.find? (Filter.hasId id) = none := by simpa using hfront
  simp [List.find?_append, hnone, hs]

theorem findIdx_split (ht : Filter.hasId target t = true)
    (hbefore : ∀ f ∈ before, Filter.hasId target f = false) :
    (before ++ t :: after).findIdx (Filter.hasId target) = before.length := by
  have hplace : place? target (before ++ t :: after) = some before.length := place?_split ht hbefore
  exact (List.findIdx?_eq_some_iff_findIdx_eq.mp hplace).2

theorem insertIdx_split (s : Filter) (before after : List Filter) :
    (before ++ after).insertIdx before.length s = before ++ s :: after := by
  induction before with
  | nil => rfl
  | cons f before ih => simp [ih]

/-- **The order after a move**, where the two filters are the first with their ids. -/
theorem moveBefore_split (hne : id.equals target = false) (hs : Filter.hasId id s = true)
    (hfront : ∀ f ∈ front, Filter.hasId id f = false) (ht : Filter.hasId target t = true)
    (hbefore : ∀ f ∈ before, Filter.hasId target f = false)
    (hrest : front ++ back = before ++ t :: after) :
    moveBefore id target (front ++ s :: back) =
      (before.length != front.length, before ++ s :: t :: after) := by
  have herase : (front ++ s :: back).eraseIdx front.length = before ++ t :: after := by
    rw [← hrest, List.eraseIdx_append_of_length_le (Nat.le_refl _), Nat.sub_self]
    rfl
  have hfound : ∃ k, place? target (front ++ s :: back) = some k := by
    have hmem : t ∈ front ++ s :: back := by
      have hmem : t ∈ front ++ back := by simp [hrest]
      rcases List.mem_append.mp hmem with hmem | hmem <;> simp [hmem]
    have hsome : (place? target (front ++ s :: back)).isSome = true := by
      rw [place?, List.findIdx?_isSome, List.any_eq_true]
      exact ⟨t, hmem, ht⟩
    exact Option.isSome_iff_exists.mp hsome
  obtain ⟨k, hk⟩ := hfound
  unfold moveBefore
  simp only [hne, Bool.false_eq_true, if_false, find?_split hs hfront, place?_split hs hfront, hk,
    herase, findIdx_split ht hbefore, insertIdx_split]

/-! ## Distinct ids -/

/-- A filter with an id of its own parts the order: no other filter has the id. -/
theorem exists_split {filters : List Filter} (hdistinct : (filters.map Filter.id).Nodup)
    (hs : s ∈ filters) :
    ∃ front back, filters = front ++ s :: back ∧
      (filters.filter fun f => f.id != s.id) = front ++ back ∧
      ∀ f ∈ front ++ back, f.id ≠ s.id := by
  obtain ⟨front, back, rfl⟩ := List.append_of_mem hs
  have hother : ∀ f ∈ front ++ back, f.id ≠ s.id := by
    have hperm : ((front ++ s :: back).map Filter.id).Perm ((s :: (front ++ back)).map Filter.id) :=
      List.perm_middle.map Filter.id
    have hcons := hperm.nodup_iff.mp hdistinct
    rw [List.map_cons, List.nodup_cons] at hcons
    intro f hf hid
    exact hcons.1 (hid ▸ List.mem_map_of_mem hf)
  refine ⟨front, back, rfl, ?_, hother⟩
  have hkept : (front ++ back).filter (fun f => f.id != s.id) = front ++ back :=
    List.filter_eq_self.mpr fun f hf => by simpa using hother f hf
  rw [← hkept]
  simp

/-- The order after a move where the ids are distinct, by what stands around the two filters. -/
theorem moveBefore_of_distinct (hdistinct : ((front ++ s :: back).map Filter.id).Nodup)
    (hrest : front ++ back = before ++ t :: after) :
    moveBefore (.text s.id) (.text t.id) (front ++ s :: back) =
      (before.length != front.length, before ++ s :: t :: after) := by
  have hperm : (front ++ s :: back).Perm (s :: (before ++ t :: after)) :=
    hrest ▸ List.perm_middle
  have hcons : (s.id :: (before ++ t :: after).map Filter.id).Nodup :=
    (hperm.map Filter.id).nodup_iff.mp hdistinct
  obtain ⟨hs, hothers⟩ := List.nodup_cons.mp hcons
  have hids : (Value.text s.id).equals (.text t.id) = false := by
    have hne : s.id ≠ t.id := fun hid => hs (by simp [hid])
    simpa [Value.equals] using hne
  have hfront : ∀ f ∈ front, Filter.hasId (.text s.id) f = false := by
    intro f hf
    have hmem : f ∈ before ++ t :: after := hrest ▸ List.mem_append_left back hf
    exact Bool.eq_false_iff.mpr fun h => hs (hasId_text.mp h ▸ List.mem_map_of_mem hmem)
  have hbefore : ∀ f ∈ before, Filter.hasId (.text t.id) f = false := by
    rw [List.map_append, List.map_cons, List.nodup_append] at hothers
    intro f hf
    have hne := hothers.2.2 f.id (List.mem_map_of_mem hf) t.id List.mem_cons_self
    exact Bool.eq_false_iff.mpr fun h => hne (hasId_text.mp h)
  exact moveBefore_split hids (hasId_text.mpr rfl) hfront (hasId_text.mpr rfl) hbefore hrest

/-- Two filters part the order, and a move closes the gap that one leaves and makes one before the
other. -/
theorem exists_move {filters : List Filter} (hdistinct : (filters.map Filter.id).Nodup)
    (hs : s ∈ filters) (ht : t ∈ filters) (hne : s.id ≠ t.id) :
    ∃ front back before after, filters = front ++ s :: back ∧ front ++ back = before ++ t :: after ∧
      (filters.filter fun f => f.id != s.id) = front ++ back ∧
      moveBefore (.text s.id) (.text t.id) filters =
        (before.length != front.length, before ++ s :: t :: after) := by
  obtain ⟨front, back, hsplit, hrest, hother⟩ := exists_split hdistinct hs
  have htrest : t ∈ front ++ back := by
    rw [← hrest, List.mem_filter]
    exact ⟨ht, by simpa using hne.symm⟩
  obtain ⟨before, after, hbefore⟩ := List.append_of_mem htrest
  refine ⟨front, back, before, after, hsplit, hbefore, hrest, ?_⟩
  rw [hsplit] at hdistinct ⊢
  exact moveBefore_of_distinct hdistinct hbefore

/-- **A move puts a filter right before another one**, and leaves all else in its order. -/
theorem moveBefore_movedBefore {filters : List Filter} (hdistinct : (filters.map Filter.id).Nodup)
    (hs : s ∈ filters) (ht : t ∈ filters) (hne : s.id ≠ t.id) :
    s.MovedBefore t filters (moveBefore (.text s.id) (.text t.id) filters).2 := by
  obtain ⟨front, back, before, after, -, hrest, hkept, hmove⟩ := exists_move hdistinct hs ht hne
  exact ⟨before, after, by rw [hmove], by rw [hkept, hrest]⟩

end FilterSet

end Winnow
