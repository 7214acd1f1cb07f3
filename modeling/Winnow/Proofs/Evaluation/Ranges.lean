import Winnow.Catalog.Employees
import Winnow.Proofs.Binary64.Monotone
import Winnow.Proofs.Evaluation.Rearranging

/-!
# Comparisons with numbers

A filter that compares numbers rounds both to binary64 numbers first, and a sort does not.  What a
filter keeps agrees with the sort, but that different numbers may be rounded to one.  The operators
agree with each other.

* `Operator.asks?` : the orderings that an operator is satisfied by;
* `Operator.test_number` : an operator tells how the binary64 numbers compare;
* `Evaluation.run_number` : a filter keeps a record by the comparison that the sort makes, unless
  both numbers are rounded to one, or one of them is beyond the binary64 numbers;
* `Filter.accepts_number` : a number that is compared with another is less, equal or greater.
-/

namespace Winnow

open Outcome

namespace Binary64

theorem order?_swap (x y : Binary64) : y.order? x = (x.order? y).map Ordering.swap := by
  unfold order?
  cases x.place? with
  | none => cases y.place? <;> rfl
  | some p =>
    cases y.place? with
    | none => rfl
    | some q =>
      show some (compare q p) = some (compare p q).swap
      rw [← cmp_eq_compare, ← cmp_eq_compare, cmp_swap]

theorem order?_of_isNaN {x : Binary64} (hx : x.isNaN = true) (y : Binary64) :
    x.order? y = none := by
  cases x with
  | nan => rfl
  | number _ _ => cases hx

theorem equals_eq (x y : Binary64) : x.equals y = (x.order? y).any Ordering.isEq := by
  unfold equals
  rcases x.order? y with _ | (_ | _ | _) <;> rfl

theorem less_eq (x y : Binary64) : x.less y = (x.order? y).any Ordering.isLT := by
  unfold less
  rcases x.order? y with _ | (_ | _ | _) <;> rfl

theorem lessOrEqual_eq (x y : Binary64) : x.lessOrEqual y = (x.order? y).any Ordering.isLE := by
  rw [lessOrEqual, less_eq, equals_eq]
  rcases x.order? y with _ | (_ | _ | _) <;> rfl

theorem less_swap (x y : Binary64) : y.less x = (x.order? y).any Ordering.isGT := by
  rw [less_eq, order?_swap x y]
  rcases x.order? y with _ | (_ | _ | _) <;> rfl

theorem lessOrEqual_swap (x y : Binary64) : y.lessOrEqual x = (x.order? y).any Ordering.isGE := by
  rw [lessOrEqual_eq, order?_swap x y]
  rcases x.order? y with _ | (_ | _ | _) <;> rfl

end Binary64

theorem OrderClass.contains_int (n : Int) : OrderClass.numbers.Contains (.int n) :=
  ⟨rfl, fun x hx => by cases hx; rfl⟩

namespace Value

/-- Whether a value is a truth value, a number or a text. -/
def isNumberLike : Value → Bool
  | .bool _ | .int _ | .float _ | .text _ => true
  | _ => false

/-- Rounding does not change a value, if that is a number. -/
def IsExact (v : Value) : Prop := ∀ n, v.numeric? = some n → n.IsExact

variable {today : Date} {v w : Value}

theorem isNumberLike_of_isNumber (hv : v.isNumber = true) : v.isNumberLike = true := by
  cases v with
  | int _ | float _ => rfl
  | _ => cases hv

theorem isNull_of_isNumberLike (hv : v.isNumberLike = true) : v.isNull = false := by
  cases v with
  | null => cases hv
  | _ => rfl

/-- A value is loosely equal to a number if its number is equal to it. -/
theorem looselyEquals_number (hv : v.isNumberLike = true) (hw : w.isNumber = true) :
    v.looselyEquals today w = compareNumbers today Binary64.equals v w := by
  cases w with
  | int _ | float _ =>
    cases v with
    | bool _ | int _ | float _ | text _ => rfl
    | _ => cases hv
  | _ => cases hw

theorem compareNumbers_ok {test : Binary64 → Binary64 → Bool} {a b : Binary64}
    (ha : v.toNumber today = .ok a) (hb : w.toNumber today = .ok b) :
    compareNumbers today test v w = .ok (test a b) := by
  unfold compareNumbers
  rw [ha, hb]
  rfl

theorem of_compareNumbers_ok {test : Binary64 → Binary64 → Bool} {t : Bool}
    (h : compareNumbers today test v w = .ok t) :
    ∃ a b, v.toNumber today = .ok a ∧ w.toNumber today = .ok b := by
  obtain ⟨a, ha, h⟩ := of_bind_ok h
  obtain ⟨b, hb, -⟩ := of_bind_ok h
  exact ⟨a, b, ha, hb⟩

/-- A value is in a range if its coercion is neither less than the one end nor greater than the
other. -/
theorem liesBetween_ok {kind : FieldKind} {coerce : Value → Except Fault Binary64}
    (hcoerce : (if kind = .date then toEpochMillis today else toNumber today) = coerce)
    {low high : Value} {a b c : Binary64} (ha : coerce v = .ok a) (hb : coerce low = .ok b)
    (hc : coerce high = .ok c) :
    v.liesBetween today kind (.list [low, high]) = .ok (b.lessOrEqual a && a.lessOrEqual c) := by
  unfold liesBetween
  dsimp only
  rw [hcoerce, ha, hb, hc]
  rfl

/-- The number of a number is the nearest one. -/
theorem toNumber_numeric (today : Date) (hv : OrderClass.numbers.Contains v) :
    ∃ n, v.numeric? = some n ∧ n.isNaN = false ∧
      ∀ a, v.toNumber today = .ok a ↔ n.round? = some a := by
  obtain ⟨hnumber, hnan⟩ := hv
  cases v with
  | int n =>
    refine ⟨.int n, rfl, rfl, fun a => ?_⟩
    show (Binary64.ofInt? n).elim _ _ = _ ↔ Binary64.ofInt? n = _
    cases Binary64.ofInt? n <;> simp
  | float x => exact ⟨.float x, rfl, hnan _ rfl, fun a => by simp [toNumber, Numeric.round?]⟩
  | _ => cases hnumber

theorem isNaN_of_toNumber (hv : OrderClass.numbers.Contains v) {a : Binary64}
    (ha : v.toNumber today = .ok a) : a.isNaN = false := by
  obtain ⟨n, -, hn, hround⟩ := toNumber_numeric today hv
  cases n with
  | int n => exact Binary64.isNaN_ofInt? ((hround a).mp ha)
  | float x =>
    cases (hround a).mp ha
    exact hn

end Value

/-! ## Operators -/

namespace Operator

/-- The orderings of a field with a value that satisfy an operator which compares numbers. -/
def asks? : Operator → Option (Ordering → Bool)
  | .equals => some Ordering.isEq
  | .greaterThan => some Ordering.isGT
  | .lessThan => some Ordering.isLT
  | .greaterThanOrEqual => some Ordering.isGE
  | .lessThanOrEqual => some Ordering.isLE
  | _ => none

variable {today : Date} {x v : Value} {o : Operator} {asked : Ordering → Bool}

/-- An operator that compares numbers makes one test on the numbers of both values. -/
theorem exists_compareNumbers (today : Date) (hx : x.isNumberLike = true) (hv : v.isNumber = true)
    (ho : o.asks? = some asked) :
    ∃ test : Binary64 → Binary64 → Bool, o.test today .number x v = x.compareNumbers today test v ∧
      ∀ a b, test a b = (a.order? b).any asked := by
  cases o with
  | equals =>
    cases ho
    exact ⟨_, Value.looselyEquals_number hx hv, Binary64.equals_eq⟩
  | greaterThan =>
    cases ho
    exact ⟨_, rfl, Binary64.less_swap⟩
  | lessThan =>
    cases ho
    exact ⟨_, rfl, Binary64.less_eq⟩
  | greaterThanOrEqual =>
    cases ho
    exact ⟨_, rfl, Binary64.lessOrEqual_swap⟩
  | lessThanOrEqual =>
    cases ho
    exact ⟨_, rfl, Binary64.lessOrEqual_eq⟩
  | _ => cases ho

/-- Inequality is the opposite of equality. -/
theorem test_notEquals {kind : FieldKind} {equal : Bool}
    (h : x.equalsFor today kind v = .ok equal) :
    Operator.notEquals.test today kind x v = .ok !equal := by
  unfold Operator.test
  rw [h]
  rfl

theorem test_notContains {kind : FieldKind} {held : Bool} (h : x.holds v = .ok held) :
    Operator.notContains.test today kind x v = .ok !held := by
  unfold Operator.test
  rw [h]
  rfl

/-- **An operator tells how the numbers of both values compare.** -/
theorem test_number (hx : x.isNumberLike = true) (hv : v.isNumber = true)
    (ho : o.asks? = some asked) {a b : Binary64} (ha : x.toNumber today = .ok a)
    (hb : v.toNumber today = .ok b) :
    o.test today .number x v = .ok ((a.order? b).any asked) := by
  obtain ⟨test, htest, hasked⟩ := exists_compareNumbers today hx hv ho
  rw [htest, Value.compareNumbers_ok ha hb, hasked]

/-- It fails where one of them has no number. -/
theorem of_test_ok (hx : x.isNumberLike = true) (hv : v.isNumber = true)
    (ho : o.asks? = some asked) {t : Bool} (h : o.test today .number x v = .ok t) :
    ∃ a b, x.toNumber today = .ok a ∧ v.toNumber today = .ok b := by
  obtain ⟨test, htest, -⟩ := exists_compareNumbers today hx hv ho
  exact Value.of_compareNumbers_ok (htest ▸ h)

end Operator

theorem Filter.accepts_known {today : Date} {d : Definition} {f : Filter} {r : Record} {x : Value}
    (hread : r.read d.field = .ok x) (hx : x.isNull = false) {o : Operator}
    (ho : f.operator = .known o) : f.accepts today d r = o.test today d.kind x f.value := by
  unfold accepts
  rw [hread, ho]
  show (if x.isNull then _ else _) = _
  rw [hx]
  rfl

/-! ## Evaluation -/

namespace Evaluation

/-- One filter keeps the records that it accepts. -/
theorem run_singleton (today : Date) {c : Catalog} {f : Filter} {d : Definition}
    (hf : c.find? f.definitionId = some d) (hsorting : f.SortingNamed) (rows : List Row) :
    ∃ out, run today c [f] rows = .ok out ∧
      ∀ row ∈ rows, row ∈ out ↔ f.accepts today d row.record = .ok true := by
  have hbind : c.bind [f] = [(f, d)] := by
    unfold Catalog.bind
    rw [List.filterMap_cons, hf]
    rfl
  refine ⟨_, run_ok_iff.mpr ⟨?_, rfl⟩, fun row hrow => ?_⟩
  · intro g hg
    rw [hbind] at hg
    rw [List.mem_singleton.mp hg]
    exact hsorting
  · rw [List.mem_mergeSort, select_eq, List.mem_filter, decide_eq_true_iff, Passes, hbind,
      List.forall_mem_singleton]
    exact and_iff_right hrow

/-- **A filter that compares numbers agrees with the sort**, but for the rounding of both numbers.
It keeps a record if both of them have a binary64 number, and if it asks for the comparison that the
sort makes, where numbers that are rounded to one count as equal.  Of numbers that are not rounded
it keeps exactly what the sort says. -/
theorem run_number (today : Date) (c : Catalog) (f : Filter) (d : Definition)
    (hf : c.find? f.definitionId = some d) (hkind : d.kind = .number)
    (hsorting : f.SortingNamed) {o : Operator} (hoperator : f.operator = .known o)
    {asked : Ordering → Bool} (hasked : o.asks? = some asked)
    (hv : OrderClass.numbers.Contains f.value) (rows : List Row) :
    ∃ out, run today c [f] rows = .ok out ∧
      ∀ row ∈ rows, ∀ x, row.record.read d.field = .ok x → OrderClass.numbers.Contains x →
        ∃ order, x.order today f.value = .ok order ∧
          (row ∈ out ↔ ∃ a b, x.toNumber today = .ok a ∧ f.value.toNumber today = .ok b ∧
            asked (if a.equals b then .eq else order) = true) ∧
          (x.IsExact → f.value.IsExact → (row ∈ out ↔ asked order = true)) := by
  obtain ⟨out, hrun, hkeeps⟩ := run_singleton today hf hsorting rows
  refine ⟨out, hrun, fun row hrow x hread hx => ?_⟩
  obtain ⟨n, hn, hn', hround⟩ := Value.toNumber_numeric today hx
  obtain ⟨m, hm, hm', hround'⟩ := Value.toNumber_numeric today hv
  have hlike := Value.isNumberLike_of_isNumber hx.1
  have haccepts : row ∈ out ↔ o.test today .number x f.value = .ok true := by
    rw [hkeeps row hrow, Filter.accepts_known hread (Value.isNull_of_isNumberLike hlike) hoperator,
      hkind]
  have htest {a b : Binary64} (ha : n.round? = some a) (hb : m.round? = some b) :
      row ∈ out ↔ (a.order? b).any asked = true := by
    rw [haccepts, Operator.test_number hlike hv.1 hasked ((hround a).mpr ha)
      ((hround' b).mpr hb), Except.ok.injEq]
  have horder : x.order today f.value = .ok (compare n.level m.level) := by
    rw [← cmp_eq_compare]
    exact Value.order_numbers hx.1 hv.1 hn hm hn' hm'
  refine ⟨_, horder, ⟨fun hmem => ?_, ?_⟩, fun hexact hexact' => ?_⟩
  · obtain ⟨a, b, ha, hb⟩ := Operator.of_test_ok hlike hv.1 hasked (haccepts.mp hmem)
    have hordered := (htest ((hround a).mp ha) ((hround' b).mp hb)).mp hmem
    rw [Value.Numeric.order?_round hn' hm' ((hround a).mp ha) ((hround' b).mp hb),
      Option.any_some] at hordered
    exact ⟨a, b, ha, hb, hordered⟩
  · rintro ⟨a, b, ha, hb, hordered⟩
    rw [htest ((hround a).mp ha) ((hround' b).mp hb),
      Value.Numeric.order?_round hn' hm' ((hround a).mp ha) ((hround' b).mp hb)]
    exact hordered
  · obtain ⟨a, ha, hlevel⟩ := Value.Numeric.level_round (hexact n hn)
    obtain ⟨b, hb, hlevel'⟩ := Value.Numeric.level_round (hexact' m hm)
    have hnan := Value.isNaN_of_toNumber hx ((hround a).mpr ha)
    have hnan' := Value.isNaN_of_toNumber hv ((hround' b).mpr hb)
    rw [htest ha hb, Value.Numeric.order?_float hnan hnan', hlevel, hlevel',
      Option.any_some]

/-- The salaries above a limit, the least of them first. -/
theorem run_number_salary :
    let f : Filter := ⟨"a", "salary", .known .greaterThan, .int 80000, some (.by .ascending)⟩
    let row : Row := ⟨0, [("salary", .int 90000)]⟩
    ∃ out, run default Employees.catalog [f] [row] = .ok out ∧ row ∈ out := by
  intro f row
  have hexact {n : Int} (hn : n.natAbs ≤ 2 ^ 53) : (Value.int n).IsExact := by
    rintro _ ⟨⟩
    exact hn
  obtain ⟨out, hrun, hrows⟩ := run_number default Employees.catalog f _ rfl rfl
    (.inr ⟨.ascending, rfl⟩) rfl rfl (OrderClass.contains_int 80000) [row]
  obtain ⟨order, horder, -, hkept⟩ :=
    hrows row List.mem_cons_self (.int 90000) rfl (OrderClass.contains_int 90000)
  cases horder
  exact ⟨out, hrun, (hkept (hexact (by decide)) (hexact (by decide))).mpr rfl⟩

/-- **Of two integers that are rounded to one number neither is above the other**, though the sort
tells them apart. -/
theorem not_run_number :
    let f : Filter := ⟨"a", "salary", .known .greaterThan, .int 9007199254740992, none⟩
    let row : Row := ⟨0, [("salary", .int 9007199254740993)]⟩
    ¬ ∀ out, run default Employees.catalog [f] [row] = .ok out →
      (row ∈ out ↔ (Value.int 9007199254740993).order default f.value = .ok .gt) := by
  intro f row hagrees
  have hlength : (run default Employees.catalog [f] [row]).toOption.map List.length = some 0 := by
    decide +kernel
  cases hrun : run default Employees.catalog [f] [row] with
  | error fault =>
    rw [hrun] at hlength
    cases hlength
  | ok out =>
    rw [hrun] at hlength
    have hout : out = [] := List.eq_nil_of_length_eq_zero (Option.some.inj hlength)
    have hmem : row ∈ out := (hagrees out hrun).mpr rfl
    rw [hout] at hmem
    cases hmem

end Evaluation

/-! ## Coherence -/

namespace Filter

/-- A filter that asks for something else of the same field. -/
def asking (f : Filter) (o : Operator) (v : Value) : Filter :=
  { f with operator := .known o, value := v }

/-- **A number that is compared with another is less, equal or greater**, and the operators that
compare numbers agree on which.  What is no number satisfies none of them. -/
theorem accepts_number (today : Date) (d : Definition) (f : Filter) (r : Record) {x v w : Value}
    (hkind : d.kind = .number) (hread : r.read d.field = .ok x) (hx : x.isNumberLike = true)
    (hv : OrderClass.numbers.Contains v) (hw : OrderClass.numbers.Contains w) {a b c : Binary64}
    (ha : x.toNumber today = .ok a) (hb : v.toNumber today = .ok b)
    (hc : w.toNumber today = .ok c) :
    ∃ less equal greater atLeast atMost below : Bool,
      (f.asking .lessThan v).accepts today d r = .ok less ∧
      (f.asking .equals v).accepts today d r = .ok equal ∧
      (f.asking .notEquals v).accepts today d r = .ok !equal ∧
      (f.asking .greaterThan v).accepts today d r = .ok greater ∧
      (f.asking .greaterThanOrEqual v).accepts today d r = .ok atLeast ∧
      (f.asking .lessThanOrEqual v).accepts today d r = .ok atMost ∧
      (f.asking .lessThanOrEqual w).accepts today d r = .ok below ∧
      (f.asking .between (.list [v, w])).accepts today d r = .ok (atLeast && below) ∧
      (a.isNaN = false →
        [less, equal, greater].count true = 1 ∧ atLeast = !less ∧ atMost = !greater) ∧
      (a.isNaN = true → ∀ t ∈ [less, equal, greater, atLeast, atMost, below], t = false) := by
  have htest {o : Operator} {asked : Ordering → Bool} (hasked : o.asks? = some asked) {u : Value}
      {q : Binary64} (hu : u.isNumber = true) (hq : u.toNumber today = .ok q) :
      (f.asking o u).accepts today d r = .ok ((a.order? q).any asked) := by
    rw [accepts_known hread (Value.isNull_of_isNumberLike hx) rfl, hkind]
    exact Operator.test_number hx hu hasked ha hq
  have hnotEquals : (f.asking .notEquals v).accepts today d r =
      .ok !((a.order? b).any Ordering.isEq) := by
    have hequals : x.equalsFor today .number v = .ok ((a.order? b).any Ordering.isEq) :=
      Operator.test_number (o := .equals) hx hv.1 rfl ha hb
    rw [accepts_known hread (Value.isNull_of_isNumberLike hx) rfl, hkind]
    exact Operator.test_notEquals hequals
  have hbetween : (f.asking .between (.list [v, w])).accepts today d r =
      .ok ((a.order? b).any Ordering.isGE && (a.order? c).any Ordering.isLE) := by
    rw [accepts_known hread (Value.isNull_of_isNumberLike hx) rfl, hkind,
      ← Binary64.lessOrEqual_swap, ← Binary64.lessOrEqual_eq]
    exact Value.liesBetween_ok rfl ha hb hc
  refine ⟨_, _, _, _, _, _, htest rfl hv.1 hb, htest rfl hv.1 hb, hnotEquals, htest rfl hv.1 hb,
    htest rfl hv.1 hb, htest rfl hv.1 hb, htest rfl hw.1 hc, hbetween, fun hnan => ?_,
    fun hnan => ?_⟩
  · obtain ⟨o, ho⟩ : ∃ o, a.order? b = some o :=
      ⟨_, Value.Numeric.order?_float hnan (Value.isNaN_of_toNumber hv hb)⟩
    rw [ho]
    cases o <;> decide
  · rw [Binary64.order?_of_isNaN hnan, Binary64.order?_of_isNaN hnan]
    decide

/-- A salary in writing, which is compared with two numbers. -/
theorem accepts_number_salary :
    let d := Employees.definition "salary" "Salary" "" .number Employees.numberOperators .equals
      (by decide) (by decide)
    let f : Filter := ⟨"a", "salary", .known .equals, .null, none⟩
    let r : Record := [("salary", .text "12")]
    ∃ less equal greater : Bool,
      (f.asking .lessThan (.int 3)).accepts default d r = .ok less ∧
      (f.asking .equals (.int 3)).accepts default d r = .ok equal ∧
      (f.asking .greaterThan (.int 3)).accepts default d r = .ok greater ∧
      [less, equal, greater].count true = 1 := by
  intro d f r
  have hexact {n : Int} (hn : n.natAbs ≤ 2 ^ 53) :
      ∃ b, (Value.int n).toNumber default = .ok b := by
    obtain ⟨b, hb, -⟩ := Value.Numeric.level_round (x := .int n) hn
    obtain ⟨_, ⟨⟩, -, hround⟩ := Value.toNumber_numeric default (OrderClass.contains_int n)
    exact ⟨b, (hround b).mpr hb⟩
  obtain ⟨b, hb⟩ := hexact (n := 3) (by decide)
  obtain ⟨c, hc⟩ := hexact (n := 12) (by decide)
  obtain ⟨less, equal, greater, _, _, _, hless, hequal, -, hgreater, -, -, -, -, hone, -⟩ :=
    accepts_number default d f r (x := .text "12") rfl rfl rfl (OrderClass.contains_int 3)
      (OrderClass.contains_int 12) rfl hb hc
  exact ⟨less, equal, greater, hless, hequal, hgreater, (hone (by decide +kernel)).1⟩

end Filter

end Winnow
