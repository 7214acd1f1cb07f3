import Mathlib.Data.List.Lex
import Mathlib.Order.WithBot
import Winnow.Evaluation.Match
import Winnow.Evaluation.Order
import Winnow.Proofs.Binary64.Order

/-!
# The order of values

Comparison is not transitive across the kinds of values, for a number and a text are compared by
their texts and two numbers are not.  It is within each of three classes, and there it does not
fail: numbers that are not NaN, dates and moments, and whatever else has a text without the code
point zero.  Each class has ranks in a linear order that decide its comparisons.

* `OrderClass`, `OrderClass.Contains` : the classes;
* `Value.order_numbers`, `Value.order_instants`, `Value.order_texts` : comparison within each;
* `RankedOn` : the comparisons of some things are those of ranks in a linear order;
* `OrderClass.order_ranked` : comparison within one class is such a comparison;
* `Direction.order_ranked` : and so is that in a direction, with absent values last.
-/

namespace Winnow

/-! ## Texts -/

namespace Text

/-- The numbers of the code points of a text. -/
def codes (t : Text) : List Nat := t.map CodePoint.toNat

/-- The collation of texts is the lexicographic order of the numbers of their code points. -/
theorem order_compares (s t : Text) : (order s t).Compares s.codes t.codes := by
  induction s generalizing t with
  | nil =>
    cases t with
    | nil => exact rfl
    | cons b bs => exact List.nil_lt_cons _ _
  | cons a as ih =>
    cases t with
    | nil => exact List.nil_lt_cons _ _
    | cons b bs =>
      show ((compare a.toNat b.toNat).then (order as bs)).Compares (a.toNat :: codes as)
        (b.toNat :: codes bs)
      rcases lt_trichotomy a.toNat b.toNat with hlt | heq | hgt
      · rw [compare_lt_iff_lt.mpr hlt]
        exact List.cons_lt_cons_iff.mpr (.inl hlt)
      · rw [compare_eq_iff_eq.mpr heq, Ordering.eq_then, heq]
        have htail := ih bs
        cases h : order as bs with
        | lt =>
          rw [h] at htail
          exact List.cons_lt_cons_iff.mpr (.inr ⟨rfl, htail⟩)
        | eq =>
          rw [h] at htail
          exact congrArg _ htail
        | gt =>
          rw [h] at htail
          exact List.cons_lt_cons_iff.mpr (.inr ⟨rfl, htail⟩)
      · rw [compare_gt_iff_gt.mpr hgt]
        exact List.cons_lt_cons_iff.mpr (.inl hgt)

theorem collate_ok {s t : Text} (hs : s.contains nul = false) (ht : t.contains nul = false) :
    collate s t = .ok (order s t) := by
  unfold collate
  rw [hs, ht]
  rfl

end Text

/-! ## Classes of values -/

/-- The classes of values within which comparison is an order. -/
inductive OrderClass where
  | numbers
  | instants
  | texts
  deriving DecidableEq

namespace OrderClass

/-- Whether a value is in a class.  A moment with an offset of a day or more has no instant. -/
def Contains : OrderClass → Value → Prop
  | .numbers, v => v.isNumber = true ∧ ∀ x, v.numeric? = some x → x.isNaN = false
  | .instants, v =>
    v.isCalendar = true ∧ ∀ m, v = .moment m → offsetInRange (m.offset.getD 0) = true
  | .texts, v =>
    v.isNumber = false ∧ v.isCalendar = false ∧ ∃ t, v.toText = .ok t ∧ t.contains Text.nul = false

end OrderClass

namespace Value

variable {today : Date} {v w : Value}

/-- Numbers are compared by their levels, without rounding. -/
theorem order_numbers (hv : v.isNumber = true) (hw : w.isNumber = true) {x y : Numeric}
    (hx : v.numeric? = some x) (hy : w.numeric? = some y) (hx' : x.isNaN = false)
    (hy' : y.isNaN = false) : v.order today w = .ok (cmp x.level y.level) := by
  have horder : v.orderNumbers w = cmp x.level y.level := by
    unfold orderNumbers
    rw [hx, hy, cmp_eq_compare]
    exact congrArg (Option.getD · .eq) (Numeric.order?_eq hx' hy')
  have hnumbers : v.order today w = .ok (v.orderNumbers w) := by
    unfold order
    split
    · cases hv
    · rw [hv, hw]
      rfl
  rw [hnumbers, horder]

/-- The instant of a date or of a moment, in microseconds. -/
def instant : Value → Int
  | .date d => (Moment.ofDate d).instantOf
  | .moment m => m.instantOf
  | _ => 0

theorem toEpochMillis_calendar (hv : OrderClass.instants.Contains v) :
    v.toEpochMillis today = .ok (Moment.epochMillisOfInstant v.instant) := by
  obtain ⟨hcalendar, hoffset⟩ := hv
  cases v with
  | date d => rfl
  | moment m =>
    have husable : m.assumeUtc.usableOffset = .ok (m.offset.getD 0) := by
      unfold Moment.usableOffset
      exact if_pos (hoffset m rfl)
    show m.assumeUtc.epochMillis = _
    unfold Moment.epochMillis Moment.instant
    rw [husable]
    rfl
  | _ => cases hcalendar

theorem isNaN_epochMillisOfInstant (instant : Int) :
    (Moment.epochMillisOfInstant instant).isNaN = false :=
  Binary64.isNaN_scale (Binary64.isNaN_ofRatio _ _ _) 1000 1

/-- The rank of a date or of a moment among all of them. -/
def instantLevel (v : Value) : ℤ ×ₗ ℤ :=
  Numeric.level (.float (Moment.epochMillisOfInstant v.instant))

/-- Dates and moments are compared by their instants, in milliseconds. -/
theorem order_instants (hv : OrderClass.instants.Contains v) (hw : OrderClass.instants.Contains w) :
    v.order today w = .ok (cmp v.instantLevel w.instantLevel) := by
  have horder : orderMoments today v w = .ok (cmp v.instantLevel w.instantLevel) := by
    unfold orderMoments instantLevel
    rw [toEpochMillis_calendar hv, toEpochMillis_calendar hw, cmp_eq_compare,
      ← Option.getD_some (a := compare _ _) (b := .eq),
      ← Numeric.order?_float (isNaN_epochMillisOfInstant _) (isNaN_epochMillisOfInstant _)]
    rfl
  obtain ⟨hv, _⟩ := hv
  obtain ⟨hw, _⟩ := hw
  rw [← horder]
  cases v with
  | date _ | moment _ =>
    cases w with
    | date _ | moment _ => rfl
    | _ => cases hw
  | _ => cases hv

/-- Values that are no numbers, dates or moments are compared by their texts. -/
theorem order_texts (hv : OrderClass.texts.Contains v) (hw : OrderClass.texts.Contains w)
    {s t : Text} (hs : v.toText = .ok s) (ht : w.toText = .ok t) :
    v.order today w = .ok (s.order t) := by
  obtain ⟨hnumber, hcalendar, s', hs', hsnul⟩ := hv
  obtain ⟨hnumber', hcalendar', t', ht', htnul⟩ := hw
  rw [hs, Except.ok.injEq] at hs'
  rw [ht, Except.ok.injEq] at ht'
  subst hs' ht'
  have hcollate : (do Text.collate (← v.toText) (← w.toText)) = .ok (s.order t) := by
    rw [hs, ht]
    exact Text.collate_ok hsnul htnul
  rw [← hcollate]
  unfold order
  split
  · unfold toText
    rfl
  · rw [hnumber]
    cases v with
    | date _ | moment _ => cases hcalendar
    | _ => rfl

end Value

/-! ## Ranks -/

/-- The comparisons of the things with a property are those of their ranks in a linear order. -/
def RankedOn {α : Type} (P : α → Prop) (comparison : α → α → Ordering) : Prop :=
  ∃ (L : Type) (_ : LinearOrder L) (rank : α → L),
    ∀ a b, P a → P b → comparison a b = cmp (rank a) (rank b)

namespace OrderClass

/-- **Within one class values are compared by ranks**, and comparison does not fail. -/
theorem order_ranked (today : Date) (k : OrderClass) :
    ∃ (L : Type) (_ : LinearOrder L) (rank : Value → L),
      ∀ v w, k.Contains v → k.Contains w → v.order today w = .ok (cmp (rank v) (rank w)) := by
  cases k with
  | numbers =>
    refine ⟨ℤ ×ₗ ℤ, inferInstance, fun v => (v.numeric?.getD (.int 0)).level, fun v w hv hw => ?_⟩
    obtain ⟨hv, hx⟩ := hv
    obtain ⟨hw, hy⟩ := hw
    have hnumeric : ∀ u : Value, u.isNumber = true → ∃ x, u.numeric? = some x := by
      intro u hu
      cases u with
      | int n => exact ⟨_, rfl⟩
      | float x => exact ⟨_, rfl⟩
      | _ => cases hu
    obtain ⟨x, hvx⟩ := hnumeric v hv
    obtain ⟨y, hwy⟩ := hnumeric w hw
    dsimp only
    rw [hvx, hwy]
    exact Value.order_numbers hv hw hvx hwy (hx x hvx) (hy y hwy)
  | instants =>
    exact ⟨ℤ ×ₗ ℤ, inferInstance, Value.instantLevel, fun v w hv hw => Value.order_instants hv hw⟩
  | texts =>
    refine ⟨List ℕ, inferInstance, fun v => Text.codes (v.toText.toOption.getD []),
      fun v w hv hw => ?_⟩
    obtain ⟨s, hs, _⟩ := hv.2.2
    obtain ⟨t, ht, _⟩ := hw.2.2
    dsimp only
    rw [hs, ht, Value.order_texts hv hw hs ht]
    exact congrArg Except.ok (Text.order_compares s t).cmp_eq.symm

end OrderClass

namespace Direction

/-- Ranks that come in a direction are ranks again. -/
theorem exists_oriented {L : Type} [LinearOrder L] (d : Direction) :
    ∃ (M : Type) (_ : LinearOrder M) (f : L → M), ∀ a b, d.orient (cmp a b) = cmp (f a) (f b) := by
  cases d with
  | ascending => exact ⟨L, inferInstance, id, fun a b => rfl⟩
  | descending => exact ⟨Lᵒᵈ, inferInstance, OrderDual.toDual, fun a b => cmp_swap a b⟩

/-- **In a direction, absent values come last**, and the others of one class are compared by
ranks. -/
theorem order_ranked (today : Date) (d : Direction) (k : OrderClass) :
    RankedOn (fun v : Value => v.isNull = true ∨ k.Contains v) (d.order today) := by
  obtain ⟨L, _, rank, hrank⟩ := k.order_ranked today
  obtain ⟨M, _, f, hf⟩ := exists_oriented (L := L) d
  refine ⟨WithTop M, inferInstance, fun v => if v.isNull then ⊤ else (f (rank v) : M),
    fun v w hv hw => ?_⟩
  unfold order
  dsimp only
  cases hvnull : v.isNull with
  | true =>
    cases hwnull : w.isNull with
    | true => exact (cmp_self_eq_eq _).symm
    | false => exact (WithTop.coe_lt_top _).cmp_eq_gt.symm
  | false =>
    cases hwnull : w.isNull with
    | true => exact (WithTop.coe_lt_top _).cmp_eq_lt.symm
    | false =>
      have hv : k.Contains v := hv.resolve_left (by rw [hvnull]; nofun)
      have hw : k.Contains w := hw.resolve_left (by rw [hwnull]; nofun)
      rw [hrank v w hv hw]
      exact (hf _ _).trans (WithTop.coe_strictMono.cmp_map_eq _ _).symm

end Direction

end Winnow
