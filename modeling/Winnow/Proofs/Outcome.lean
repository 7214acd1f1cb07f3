import Mathlib.Data.List.Forall2
import Winnow.Fault

/-!
# Computations that may fail

How a computation that succeeded, or failed, is taken apart into its steps.

* `Outcome.of_bind_ok`, `Outcome.of_bind_error`, `Outcome.fails_bind_iff` : the steps of a
  sequence;
* `Outcome.mapM_ok_iff`, `Outcome.mapM_succeeds_iff`, `Outcome.mapM_eq_map` : a list of computations
  succeeds if each of them does;
* `Outcome.mapM_error` : it fails with the failure of one of them;
* `Outcome.of_foldlM_ok`, `Outcome.foldlM_succeeds_iff` : a fold keeps what each of its steps keeps,
  and succeeds if they do;
* `Outcome.filterM_ok_iff`, `Outcome.filterM_error` : the same of a list that is filtered;
* `Outcome.allM_eq_all`, `Outcome.filterM_eq_filter` : tests that do not fail;
* `Outcome.FailsWith` : a computation fails only in some ways.
-/

namespace Winnow.Outcome

variable {α β ε : Type}

/-! ## Steps that succeeded or failed -/

theorem of_bind_ok {x : Except ε α} {f : α → Except ε β} {b : β} (h : x >>= f = .ok b) :
    ∃ a, x = .ok a ∧ f a = .ok b := by
  cases x with
  | error e => cases h
  | ok a => exact ⟨a, rfl, h⟩

theorem of_bind_error {x : Except ε α} {f : α → Except ε β} {e : ε} (h : x >>= f = .error e) :
    x = .error e ∨ ∃ a, x = .ok a ∧ f a = .error e := by
  cases x with
  | error e' => exact .inl (by cases h; rfl)
  | ok a => exact .inr ⟨a, rfl, h⟩

theorem fails_bind_iff {x : Except ε α} {f : α → Except ε β} :
    (∃ e, x >>= f = .error e) ↔ (∃ e, x = .error e) ∨ ∃ a, x = .ok a ∧ ∃ e, f a = .error e := by
  cases x with
  | error e => simp [bind, Except.bind]
  | ok a => simp [bind, Except.bind]

theorem mapM_ok_iff {f : α → Except ε β} {xs : List α} {ys : List β} :
    xs.mapM f = .ok ys ↔ List.Forall₂ (fun x y => f x = .ok y) xs ys := by
  induction xs generalizing ys with
  | nil =>
    rw [List.mapM_nil, List.forall₂_nil_left_iff]
    exact ⟨fun h => by cases h; rfl, fun h => by rw [h]; rfl⟩
  | cons x xs ih =>
    rw [List.mapM_cons, List.forall₂_cons_left_iff]
    constructor
    · intro h
      obtain ⟨y, hy, h⟩ := of_bind_ok h
      obtain ⟨zs, hzs, h⟩ := of_bind_ok h
      cases h
      exact ⟨y, zs, hy, ih.mp hzs, rfl⟩
    · rintro ⟨y, zs, hy, hzs, rfl⟩
      rw [hy, ih.mpr hzs]
      rfl

theorem mapM_eq_map {f : α → Except ε β} {g : α → β} {xs : List α} (h : ∀ x ∈ xs, f x = .ok (g x)) :
    xs.mapM f = .ok (xs.map g) := by
  rw [mapM_ok_iff, List.forall₂_map_right_iff, List.forall₂_same]
  exact h

theorem mem_of_mapM_ok {f : α → Except ε β} {xs : List α} {ys : List β} (h : xs.mapM f = .ok ys)
    {y : β} (hy : y ∈ ys) : ∃ x ∈ xs, f x = .ok y := by
  have hall := mapM_ok_iff.mp h
  clear h
  induction hall with
  | nil => cases hy
  | cons hx _ ih =>
    rcases List.mem_cons.mp hy with rfl | hy
    · exact ⟨_, List.mem_cons_self, hx⟩
    · obtain ⟨x, hmem, hx⟩ := ih hy
      exact ⟨x, List.mem_cons_of_mem _ hmem, hx⟩

theorem ok_of_mapM_ok {f : α → Except ε β} {xs : List α} {ys : List β} (h : xs.mapM f = .ok ys)
    {x : α} (hx : x ∈ xs) : ∃ y ∈ ys, f x = .ok y := by
  have hall := mapM_ok_iff.mp h
  clear h
  induction hall with
  | nil => cases hx
  | cons hy _ ih =>
    rcases List.mem_cons.mp hx with rfl | hx
    · exact ⟨_, List.mem_cons_self, hy⟩
    · obtain ⟨y, hmem, hy⟩ := ih hx
      exact ⟨y, List.mem_cons_of_mem _ hmem, hy⟩

theorem mapM_error {f : α → Except ε β} {xs : List α} {e : ε} (h : xs.mapM f = .error e) :
    ∃ x ∈ xs, f x = .error e := by
  induction xs with
  | nil => cases h
  | cons x xs ih =>
    rw [List.mapM_cons] at h
    rcases of_bind_error h with hx | ⟨y, _, h⟩
    · exact ⟨x, List.mem_cons_self, hx⟩
    · rcases of_bind_error h with hxs | ⟨ys, _, h⟩
      · obtain ⟨z, hz, hfail⟩ := ih hxs
        exact ⟨z, List.mem_cons_of_mem _ hz, hfail⟩
      · cases h

theorem mapM_succeeds_iff {f : α → Except ε β} {xs : List α} :
    (∃ ys, xs.mapM f = .ok ys) ↔ ∀ x ∈ xs, ∃ y, f x = .ok y := by
  constructor
  · rintro ⟨ys, h⟩ x hx
    obtain ⟨y, -, hy⟩ := ok_of_mapM_ok h hx
    exact ⟨y, hy⟩
  · intro h
    cases hmap : xs.mapM f with
    | ok ys => exact ⟨ys, rfl⟩
    | error e =>
      obtain ⟨x, hx, hfail⟩ := mapM_error hmap
      obtain ⟨y, hy⟩ := h x hx
      rw [hy] at hfail
      cases hfail

/-- The results that are there are those of the items that have one. -/
theorem forall₂_filterMap {R : α → Option β → Prop} {S : α → β → Prop} {test : α → Bool}
    (h : ∀ x y, R x y → (test x = false ∧ y = none) ∨ ∃ z, test x = true ∧ y = some z ∧ S x z)
    {xs : List α} {ys : List (Option β)} (hall : List.Forall₂ R xs ys) :
    List.Forall₂ S (xs.filter test) (ys.filterMap id) := by
  induction hall with
  | nil => exact .nil
  | cons hxy _ ih =>
    rcases h _ _ hxy with ⟨htest, rfl⟩ | ⟨z, htest, rfl, hz⟩
    · rw [List.filter_cons_of_neg (by simp [htest])]
      exact ih
    · rw [List.filter_cons_of_pos htest]
      exact .cons hz ih

/-- What every step of a fold keeps, a fold that succeeds keeps. -/
theorem of_foldlM_ok {P : β → Prop} {f : β → α → Except ε β} {xs : List α} {b b' : β}
    (hstep : ∀ a ∈ xs, ∀ b b', P b → f b a = .ok b' → P b') (hb : P b)
    (h : xs.foldlM f b = .ok b') : P b' := by
  induction xs generalizing b with
  | nil =>
    cases h
    exact hb
  | cons a as ih =>
    obtain ⟨ha, has⟩ := List.forall_mem_cons.mp hstep
    rw [List.foldlM_cons] at h
    obtain ⟨next, hnext, h⟩ := of_bind_ok h
    exact ih has (ha b next hb hnext) h

/-- A fold succeeds if its steps do, where these fail or not whatever was reached before. -/
theorem foldlM_succeeds_iff {P : α → Prop} {f : β → α → Except ε β}
    (hstep : ∀ b a, (∃ b', f b a = .ok b') ↔ P a) {xs : List α} {b : β} :
    (∃ b', xs.foldlM f b = .ok b') ↔ ∀ a ∈ xs, P a := by
  induction xs generalizing b with
  | nil => exact iff_of_true ⟨b, rfl⟩ nofun
  | cons a as ih =>
    rw [List.foldlM_cons, List.forall_mem_cons, ← hstep b a]
    constructor
    · rintro ⟨b', h⟩
      obtain ⟨next, hnext, h⟩ := of_bind_ok h
      exact ⟨⟨next, hnext⟩, ih.mp ⟨b', h⟩⟩
    · rintro ⟨⟨next, hnext⟩, hrest⟩
      rw [hnext]
      exact ih.mpr hrest

theorem of_allM_ok {test : α → Except ε Bool} {xs : List α} (h : xs.allM test = .ok true) :
    ∀ x ∈ xs, test x = .ok true := by
  induction xs with
  | nil => exact nofun
  | cons x xs ih =>
    rw [List.allM] at h
    obtain ⟨passed, hpassed, h⟩ := of_bind_ok h
    cases passed with
    | false => cases h
    | true =>
      intro y hy
      rcases List.mem_cons.mp hy with rfl | hy
      · exact hpassed
      · exact ih h y hy

theorem allM_eq_all {test : α → Except ε Bool} {passes : α → Bool} {xs : List α}
    (h : ∀ x ∈ xs, test x = .ok (passes x)) : xs.allM test = .ok (xs.all passes) := by
  induction xs with
  | nil => rfl
  | cons x xs ih =>
    obtain ⟨hx, hxs⟩ := List.forall_mem_cons.mp h
    rw [List.allM, hx, List.all_cons]
    cases passes x with
    | true => exact ih hxs
    | false => rfl

theorem allM_error {test : α → Except ε Bool} {xs : List α} {e : ε}
    (h : xs.allM test = .error e) : ∃ x ∈ xs, test x = .error e := by
  induction xs with
  | nil => cases h
  | cons x xs ih =>
    rw [List.allM] at h
    rcases of_bind_error h with hx | ⟨b, _, h⟩
    · exact ⟨x, List.mem_cons_self, hx⟩
    · cases b with
      | false => cases h
      | true =>
        obtain ⟨y, hy, hfail⟩ := ih h
        exact ⟨y, List.mem_cons_of_mem x hy, hfail⟩

theorem of_allM_false {test : α → Except ε Bool} {xs : List α} (h : xs.allM test = .ok false) :
    ∃ x ∈ xs, test x = .ok false := by
  induction xs with
  | nil => cases h
  | cons x xs ih =>
    rw [List.allM] at h
    obtain ⟨b, hb, h⟩ := of_bind_ok h
    cases b with
    | false => exact ⟨x, List.mem_cons_self, hb⟩
    | true =>
      obtain ⟨y, hy, hfalse⟩ := ih h
      exact ⟨y, List.mem_cons_of_mem x hy, hfalse⟩

theorem filterM_error {test : α → Except ε Bool} {xs : List α} {e : ε}
    (h : xs.filterM test = .error e) : ∃ x ∈ xs, test x = .error e := by
  have haux : ∀ kept, xs.filterAuxM test kept = .error e → ∃ x ∈ xs, test x = .error e := by
    clear h
    induction xs with
    | nil => exact nofun
    | cons x xs ih =>
      intro kept h
      rcases of_bind_error h with hx | ⟨b, _, h⟩
      · exact ⟨x, List.mem_cons_self, hx⟩
      · obtain ⟨y, hy, hfail⟩ := ih _ h
        exact ⟨y, List.mem_cons_of_mem x hy, hfail⟩
  rcases of_bind_error h with h | ⟨ys, _, h⟩
  · exact haux [] h
  · cases h

/-- A list is filtered if the test of each item succeeds, whatever it tells. -/
theorem filterM_ok_iff {test : α → Except ε Bool} {xs : List α} :
    (∃ ys, xs.filterM test = .ok ys) ↔ ∀ x ∈ xs, ∃ b, test x = .ok b := by
  constructor
  · rintro ⟨ys, h⟩
    obtain ⟨ks, hks, -⟩ := of_bind_ok h
    have haux : ∀ kept, xs.filterAuxM test kept = .ok ks → ∀ x ∈ xs, ∃ b, test x = .ok b := by
      clear h hks
      induction xs with
      | nil => exact nofun
      | cons x xs ih =>
        intro kept h
        obtain ⟨b, hb, h⟩ := of_bind_ok h
        exact List.forall_mem_cons.mpr ⟨⟨b, hb⟩, ih _ h⟩
    exact haux [] hks
  · intro h
    cases hfilter : xs.filterM test with
    | ok ys => exact ⟨ys, rfl⟩
    | error e =>
      obtain ⟨x, hx, hfail⟩ := filterM_error hfilter
      obtain ⟨b, hb⟩ := h x hx
      rw [hb] at hfail
      cases hfail

theorem filterM_eq_filter {test : α → Except ε Bool} {keep : α → Bool} {xs : List α}
    (h : ∀ x ∈ xs, test x = .ok (keep x)) : xs.filterM test = .ok (xs.filter keep) := by
  have haux : ∀ kept, xs.filterAuxM test kept = .ok ((xs.filter keep).reverse ++ kept) := by
    induction xs with
    | nil => exact fun kept => rfl
    | cons x xs ih =>
      intro kept
      obtain ⟨hx, hxs⟩ := List.forall_mem_cons.mp h
      rw [List.filterAuxM, hx]
      cases hkeep : keep x with
      | true => exact (ih hxs (x :: kept)).trans (by simp [hkeep])
      | false => exact (ih hxs kept).trans (by simp [hkeep])
  rw [List.filterM, haux]
  simp [pure, Except.pure, bind, Except.bind]

/-! ## Ways to fail -/

/-- A computation that fails does so in one of the given ways. -/
def FailsWith (P : ε → Prop) (x : Except ε α) : Prop := ∀ e, x = .error e → P e

variable {P : ε → Prop}

theorem failsWith_ok (a : α) : FailsWith P (.ok a : Except ε α) := nofun

theorem failsWith_pure (a : α) : FailsWith P (pure a : Except ε α) := nofun

theorem failsWith_error {e : ε} (h : P e) : FailsWith P (.error e : Except ε α) := by
  intro e' he
  cases he
  exact h

theorem FailsWith.bind {x : Except ε α} {f : α → Except ε β} (hx : FailsWith P x)
    (hf : ∀ a, FailsWith P (f a)) : FailsWith P (x >>= f) := by
  intro e he
  rcases of_bind_error he with hfail | ⟨a, _, hfail⟩
  · exact hx e hfail
  · exact hf a e hfail

theorem FailsWith.mono {Q : ε → Prop} {x : Except ε α} (hx : FailsWith P x)
    (h : ∀ e, P e → Q e) : FailsWith Q x :=
  fun e he => h e (hx e he)

theorem failsWith_allM {test : α → Except ε Bool} (htest : ∀ a, FailsWith P (test a))
    (xs : List α) : FailsWith P (xs.allM test) := by
  induction xs with
  | nil => exact failsWith_pure _
  | cons x xs ih =>
    refine (htest x).bind fun b => ?_
    cases b with
    | true => exact ih
    | false => exact failsWith_pure _

end Winnow.Outcome
