import Winnow.Proofs.Evaluation.Isolation
import Winnow.Proofs.Evaluation.Ranges

/-!
# Comparisons turned round

The sort compares records in one order only and takes the other one for granted.  Two values compare
in one order exactly if they compare in the other one, and then the other way round: this holds
across all kinds of values, of numbers that are none, and of absent values, and a comparison that
fails counts as a tie in both orders.  So it holds of records and lists of keys.

* `Outcome.Opposite` : two comparisons that are made in one order and in the other;
* `Text.collate_opposite`, `Value.orderNumbers_swap`, `Value.orderMoments_opposite` : the three ways
  in which values are compared;
* `Value.order_opposite` : values of whatever kinds;
* `Direction.order_swap` : values that may be absent, in a direction;
* `Record.order_opposite`, `Record.order_antisymmetric` : records by a list of keys.
-/

namespace Winnow

namespace Outcome

variable {α : Type}

/-- Each of two comparisons tells an ordering exactly if the other one tells the opposite. -/
def Opposite (x y : Except Fault Ordering) : Prop := ∀ o, x = .ok o ↔ y = .ok o.swap

theorem opposite_ok (o : Ordering) : Opposite (.ok o) (.ok o.swap) := by
  intro o'
  rw [Except.ok.injEq, Except.ok.injEq]
  exact Ordering.swap_inj.symm

theorem opposite_error (e e' : Fault) : Opposite (.error e) (.error e') :=
  fun _ => iff_of_false nofun nofun

/-- Where something is computed for both sides first, a failure of either ends the comparison in
both orders. -/
theorem opposite_bind {f g : α → α → Except Fault Ordering} (h : ∀ a b, Opposite (f a b) (g b a))
    (x y : Except Fault α) :
    Opposite (x >>= fun a => y >>= fun b => f a b) (y >>= fun b => x >>= fun a => g b a) := by
  cases x with
  | error e =>
    cases y with
    | error e' => exact opposite_error e e'
    | ok b => exact opposite_error e e
  | ok a =>
    cases y with
    | error e => exact opposite_error e e
    | ok b => exact h a b

end Outcome

open Outcome

/-! ## Texts and numbers -/

namespace Text

theorem order_swap (s t : Text) : t.order s = (s.order t).swap := by
  induction s generalizing t with
  | nil => cases t <;> rfl
  | cons a as ih =>
    cases t with
    | nil => rfl
    | cons b bs =>
      show (compare b.toNat a.toNat).then (order bs as) =
        ((compare a.toNat b.toNat).then (order as bs)).swap
      rw [Ordering.swap_then, Nat.compare_swap, ih bs]

/-- A text with the code point zero is collated in neither order. -/
theorem collate_opposite (s t : Text) : Opposite (collate s t) (collate t s) := by
  unfold collate
  rw [Bool.or_comm (t.contains nul), order_swap s t]
  split
  · exact opposite_error _ _
  · exact opposite_ok _

end Text

namespace Value

theorem Numeric.order?_swap (x y : Numeric) : y.order? x = (x.order? y).map Ordering.swap := by
  cases x with
  | int m =>
    cases y with
    | int n => exact congrArg some (Int.compare_swap m n).symm
    | float y => rfl
  | float x =>
    cases y with
    | int n =>
      show Binary64.orderInt? n x = ((Binary64.orderInt? n x).map Ordering.swap).map Ordering.swap
      rcases Binary64.orderInt? n x with _ | (_ | _ | _) <;> rfl
    | float y => exact Binary64.order?_swap x y

theorem orderNumbers_swap (v w : Value) : w.orderNumbers v = (v.orderNumbers w).swap := by
  unfold orderNumbers
  cases v.numeric? with
  | none => cases w.numeric? <;> rfl
  | some x =>
    cases w.numeric? with
    | none => rfl
    | some y =>
      dsimp only
      rw [Numeric.order?_swap x y]
      rcases x.order? y with _ | (_ | _ | _) <;> rfl

/-! ## Values -/

theorem orderMoments_opposite (today : Date) (v w : Value) :
    Opposite (orderMoments today v w) (orderMoments today w v) := by
  refine opposite_bind (fun x y => ?_) (v.toEpochMillis today) (w.toEpochMillis today)
  rw [Binary64.order?_swap x y]
  rcases x.order? y with _ | (_ | _ | _) <;> exact opposite_ok _

theorem orderTexts_opposite (v w : Value) :
    Opposite (do Text.collate (← v.toText) (← w.toText))
      (do Text.collate (← w.toText) (← v.toText)) :=
  opposite_bind Text.collate_opposite v.toText w.toText

/-- How two values are compared: as numbers or as dates and moments if both of them are such, and
otherwise by their texts. -/
theorem order_eq (today : Date) (v w : Value) :
    v.order today w =
      if v.isNumber && w.isNumber then .ok (v.orderNumbers w)
      else if v.isCalendar && w.isCalendar then orderMoments today v w
      else (do Text.collate (← v.toText) (← w.toText)) := by
  cases v <;> cases w <;> rfl

/-- **Two values of whatever kinds compare in one order exactly if they compare in the other one**,
and the other way round. -/
theorem order_opposite (today : Date) (v w : Value) :
    Opposite (v.order today w) (w.order today v) := by
  rw [order_eq, order_eq, Bool.and_comm w.isNumber, Bool.and_comm w.isCalendar]
  split
  · rw [orderNumbers_swap v w]
    exact opposite_ok _
  · split
    · exact orderMoments_opposite today v w
    · exact orderTexts_opposite v w

end Value

/-! ## Records -/

/-- **Two values that may be absent compare in a direction as they do in the other order**, the
other way round; a comparison that fails is a tie in both. -/
theorem Direction.order_swap (today : Date) (d : Direction) (v w : Value) :
    d.order today w v = (d.order today v w).swap := by
  unfold Direction.order
  cases v.isNull with
  | true => cases w.isNull <;> rfl
  | false =>
    cases w.isNull with
    | true => rfl
    | false =>
      have hopposite := Value.order_opposite today v w
      cases h : v.order today w with
      | ok o =>
        rw [(hopposite o).mp h]
        cases d <;> cases o <;> rfl
      | error fault =>
        cases h' : w.order today v with
        | error fault' => rfl
        | ok o =>
          rw [(hopposite o.swap).mpr (by rw [h', Ordering.swap_swap])] at h
          cases h

namespace Record

variable {today : Date} {keys : List SortKey} {r s : Record}

/-- A field that cannot be read is met in both orders, whichever of the records it belongs to. -/
theorem order_opposite (today : Date) (keys : List SortKey) (r s : Record) :
    Opposite (r.order today keys s) (s.order today keys r) := by
  induction keys with
  | nil => exact opposite_ok .eq
  | cons key keys ih =>
    rw [order, order]
    refine opposite_bind (fun v w => ?_) (r.read key.field) (s.read key.field)
    rw [key.direction.order_swap today v w]
    cases key.direction.order today v w with
    | lt => exact opposite_ok .lt
    | eq => exact ih
    | gt => exact opposite_ok .gt

/-- **Comparison of records is antisymmetric.**  Two records whose fields can be read for every key
are compared in both orders, and in the second one the result is the opposite: whatever values the
fields have, numbers that are none, absent ones, ones of different kinds and ones that cannot be
compared among them, whatever the directions, and for every list of keys. -/
theorem order_antisymmetric (today : Date)
    (hr : ∀ key ∈ keys, ∃ v, r.read key.field = .ok v)
    (hs : ∀ key ∈ keys, ∃ v, s.read key.field = .ok v) :
    ∃ o, r.order today keys s = .ok o ∧ s.order today keys r = .ok o.swap := by
  obtain ⟨o, ho⟩ := @Row.order_ok today keys ⟨0, r⟩ ⟨1, s⟩ hr hs
  exact ⟨o, ho, (order_opposite today keys r s o).mp ho⟩

/-- A salary that is no number ties with any other, and so does a city that cannot be collated.  The
skills are a list and an integer. -/
theorem order_antisymmetric_mixed :
    let keys : List SortKey :=
      [⟨"salary", .descending⟩, ⟨"city", .ascending⟩, ⟨"skills", .descending⟩]
    let r : Record :=
      [("salary", .float .nan), ("city", .text [Text.nul]), ("skills", .list [.text "go"])]
    let s : Record := [("salary", .int 5), ("city", .text "Rome"), ("skills", .int 7)]
    r.order default keys s = .ok .lt ∧ s.order default keys r = .ok .gt := by
  intro keys r s
  have hread : ∀ t ∈ [r, s], ∀ key ∈ keys, ∃ v, Record.read t key.field = .ok v := by
    intro t ht key hkey
    simp only [keys, List.mem_cons, List.not_mem_nil, or_false] at ht hkey
    rcases ht with rfl | rfl
    all_goals rcases hkey with rfl | rfl | rfl <;> exact ⟨_, rfl⟩
  obtain ⟨o, ho, hswap⟩ := order_antisymmetric default (hread r List.mem_cons_self)
    (hread s (List.mem_cons_of_mem r List.mem_cons_self))
  have horder : r.order default keys s = .ok .lt := rfl
  rw [horder, Except.ok.injEq] at ho
  subst ho
  exact ⟨horder, hswap⟩

end Record

end Winnow
