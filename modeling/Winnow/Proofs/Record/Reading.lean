import Winnow.Proofs.Numeral.Decimals
import Winnow.Proofs.Text.Splitting
import Winnow.Proofs.Value.Entries
import Winnow.Record

/-!
# The value of a field

A path that is no key of a record is walked part by part: a part names a key of an object, or a
place in a list by a run of decimal digits.  The walk has a result whether it gets through or not, except
that it fails at a list where a part consists of digits that make no number: one of them is not
decimal, or there are too many.

* `Record.IsPlace`, `Record.IsUnreadable` : parts that name a place, and parts that only look so;
* `Record.Enters`, `Record.Leads` : one step of a walk, and a whole walk;
* `Record.Stumbles` : a walk comes to a list at a part that only looks like a place;
* `Record.step_cases`, `Record.steps_cases` : what one step gives, and from it what all of them do;
* `Record.read_ok_iff` : the value of a field, and when there is none.
-/

namespace Winnow.Record

variable {v w u : Value} {part : Text} {parts : List Text} {items : List Value} {n : Nat}

/-! ## Parts -/

/-- A part names a place: it is a run of decimal digits, of any script, that stand for it. -/
structure IsPlace (part : Text) (n : Nat) : Prop where
  ne_nil : part ≠ []
  decimal : ∀ c ∈ part, c.isDecimal = true
  value : Numeral.valueOf (Numeral.digitValues part) = n

/-- A part is made of digits, but one of them is not decimal or there are too many. -/
structure IsUnreadable (part : Text) : Prop where
  digits : ∀ c ∈ part, c.isDigit = true
  fault : (∃ c ∈ part, c.isDecimal = false) ∨ Numeral.digitLimit < part.length

theorem IsUnreadable.ne_nil (h : IsUnreadable part) : part ≠ [] := by
  rintro rfl
  rcases h.fault with ⟨c, hc, -⟩ | hlong
  · cases hc
  · exact absurd hlong (Nat.not_lt_zero _)

/-- Digits of a list's place are looked up as a numeral. -/
theorem item_of_digits (hne : part ≠ []) (hdigits : ∀ c ∈ part, c.isDigit = true)
    (items : List Value) :
    item items part = (do return items.getD (← Numeral.toInt part).toNat .null) := by
  unfold item
  refine if_pos ?_
  rw [List.isEmpty_eq_false_iff.mpr hne, List.all_eq_true.mpr hdigits]
  rfl

theorem item_of_isUnreadable (h : IsUnreadable part) (items : List Value) :
    ∃ fault, item items part = .error fault := by
  have hfails : ∃ fault, Numeral.toInt part = .error fault := by
    by_cases hother : ∃ c ∈ part, c.isDecimal = false
    · exact Numeral.toInt_of_digits h.digits hother
    · have hdecimal : ∀ c ∈ part, c.isDecimal = true := by simpa using hother
      rw [Numeral.toInt_decimals h.ne_nil hdecimal, if_pos (h.fault.resolve_left hother)]
      exact ⟨_, rfl⟩
  obtain ⟨fault, hfault⟩ := hfails
  rw [item_of_digits h.ne_nil h.digits, hfault]
  exact ⟨fault, rfl⟩

theorem item_of_isPlace (h : IsPlace part n) (hreadable : ¬ IsUnreadable part)
    (items : List Value) : item items part = .ok (items.getD n .null) := by
  have hdigits : ∀ c ∈ part, c.isDigit = true :=
    fun c hc => CodePoint.isDigit_of_isDecimal (h.decimal c hc)
  have hshort : ¬ Numeral.digitLimit < part.length := fun hlong => hreadable ⟨hdigits, .inr hlong⟩
  rw [item_of_digits h.ne_nil hdigits, Numeral.toInt_decimals h.ne_nil h.decimal, if_neg hshort,
    h.value]
  rfl

theorem item_of_no_place (h : ∀ n, ¬ IsPlace part n) (hreadable : ¬ IsUnreadable part)
    (items : List Value) : item items part = .ok .null := by
  unfold item
  refine if_neg fun hpart => ?_
  rw [Bool.and_eq_true, Bool.not_eq_true', List.isEmpty_eq_false_iff, List.all_eq_true] at hpart
  obtain ⟨hne, hdigits⟩ := hpart
  by_cases hother : ∃ c ∈ part, c.isDecimal = false
  · exact hreadable ⟨hdigits, .inl hother⟩
  · exact h _ ⟨hne, by simpa using hother, rfl⟩

/-! ## One step -/

/-- A part leads from a value to another one: by a key of an object, or by a place in a list. -/
inductive Enters : Value → Text → Value → Prop
  | key {entries : Value.Entries} {part : Text} {w : Value}
    (h : Value.find? part entries = some w) : Enters (.object entries) part w
  | place {items : List Value} {part : Text} {n : Nat} {w : Value} (hpart : IsPlace part n)
    (hitem : items[n]? = some w) : Enters (.list items) part w

/-- A value is a list, and a part only looks like a place in it. -/
def Blocks (v : Value) (part : Text) : Prop := IsUnreadable part ∧ ∃ items, v = .list items

theorem Enters.unique (hw : Enters v part w) (hu : Enters v part u) : w = u := by
  cases hw with
  | key h =>
    cases hu with
    | key h' => exact Option.some.inj (h.symm.trans h')
  | place hpart hitem =>
    cases hu with
    | place hpart' hitem' =>
      rw [← hpart.value] at hitem
      rw [← hpart'.value, hitem] at hitem'
      exact Option.some.inj hitem'

theorem step_of_blocks (h : Blocks v part) : ∃ fault, step v part = .error fault := by
  obtain ⟨hpart, items, rfl⟩ := h
  exact item_of_isUnreadable hpart items

/-- **A step that is not blocked has a result**: the value that the part leads to, or nothing. -/
theorem step_cases (h : ¬ Blocks v part) :
    (∃ w, Enters v part w ∧ step v part = .ok w) ∨
      (∀ w, ¬ Enters v part w) ∧ step v part = .ok .null := by
  cases v with
  | object entries =>
    cases hfind : Value.find? part entries with
    | some w => exact .inl ⟨w, .key hfind, by simp [step, hfind]⟩
    | none =>
      refine .inr ⟨fun w hw => ?_, by simp [step, hfind]⟩
      cases hw with
      | key hw =>
        rw [hfind] at hw
        cases hw
  | list items =>
    have hreadable : ¬ IsUnreadable part := fun hpart => h ⟨hpart, items, rfl⟩
    by_cases hplace : ∃ n, IsPlace part n
    · obtain ⟨n, hn⟩ := hplace
      have hstep : step (.list items) part = .ok (items.getD n .null) :=
        item_of_isPlace hn hreadable items
      rw [List.getD_eq_getElem?_getD] at hstep
      cases hitem : items[n]? with
      | some w =>
        rw [hitem] at hstep
        exact .inl ⟨w, .place hn hitem, hstep⟩
      | none =>
        rw [hitem] at hstep
        refine .inr ⟨fun w hw => ?_, hstep⟩
        cases hw with
        | place hpart hw =>
          rw [← hpart.value, hn.value, hitem] at hw
          cases hw
    · have hnone : ∀ n, ¬ IsPlace part n := fun n hn => hplace ⟨n, hn⟩
      refine .inr ⟨fun w hw => ?_, item_of_no_place hnone hreadable items⟩
      cases hw with
      | place hpart _ => exact hnone _ hpart
  | _ => exact .inr ⟨nofun, rfl⟩

/-! ## Walks -/

/-- The parts of a path lead from a value to another one. -/
inductive Leads : Value → List Text → Value → Prop
  | here (v : Value) : Leads v [] v
  | next {v w u : Value} {part : Text} {parts : List Text} (hpart : Enters v part w)
    (hparts : Leads w parts u) : Leads v (part :: parts) u

/-- The parts of a path lead to a list, where the next one only looks like a place. -/
def Stumbles (v : Value) (parts : List Text) : Prop :=
  ∃ before part after w, parts = before ++ part :: after ∧ Leads v before w ∧ Blocks w part

theorem leads_cons_iff : Leads v (part :: parts) u ↔ ∃ w, Enters v part w ∧ Leads w parts u := by
  constructor
  · rintro ⟨⟩
    exact ⟨_, ‹_›, ‹_›⟩
  · rintro ⟨w, hpart, hparts⟩
    exact .next hpart hparts

theorem stumbles_cons_iff :
    Stumbles v (part :: parts) ↔ Blocks v part ∨ ∃ w, Enters v part w ∧ Stumbles w parts := by
  constructor
  · rintro ⟨before, last, after, w, hparts, hleads, hblocks⟩
    cases hleads with
    | here =>
      rw [List.nil_append, List.cons.injEq] at hparts
      exact .inl (hparts.1 ▸ hblocks)
    | next hpart hrest =>
      rw [List.cons_append, List.cons.injEq] at hparts
      obtain ⟨rfl, rfl⟩ := hparts
      exact .inr ⟨_, hpart, _, last, after, w, rfl, hrest, hblocks⟩
  · rintro (hblocks | ⟨w, hpart, before, last, after, u, rfl, hleads, hblocks⟩)
    · exact ⟨[], part, parts, v, rfl, .here v, hblocks⟩
    · exact ⟨part :: before, last, after, u, rfl, .next hpart hleads, hblocks⟩

/-- Nothing leads nowhere. -/
theorem steps_null (parts : List Text) : parts.foldlM step .null = .ok .null := by
  induction parts with
  | nil => rfl
  | cons part parts ih =>
    rw [List.foldlM_cons]
    exact ih

theorem steps_of_stumbles (h : Stumbles v parts) :
    ∃ fault, parts.foldlM step v = .error fault := by
  induction parts generalizing v with
  | nil =>
    obtain ⟨before, part, after, w, hparts, -⟩ := h
    exact absurd hparts.symm (by simp)
  | cons part parts ih =>
    rw [List.foldlM_cons]
    by_cases hblocks : Blocks v part
    · obtain ⟨fault, hfault⟩ := step_of_blocks hblocks
      rw [hfault]
      exact ⟨fault, rfl⟩
    · obtain ⟨w, hpart, hrest⟩ := (stumbles_cons_iff.mp h).resolve_left hblocks
      rcases step_cases hblocks with ⟨u, hu, hstep⟩ | ⟨hnone, -⟩
      · rw [hstep, hu.unique hpart]
        exact ih hrest
      · exact absurd hpart (hnone w)

/-- **A walk that does not stumble has a result**: the value that the parts lead to, or nothing. -/
theorem steps_cases (h : ¬ Stumbles v parts) :
    (∃ w, Leads v parts w ∧ parts.foldlM step v = .ok w) ∨
      (∀ w, ¬ Leads v parts w) ∧ parts.foldlM step v = .ok .null := by
  induction parts generalizing v with
  | nil => exact .inl ⟨v, .here v, rfl⟩
  | cons part parts ih =>
    rw [stumbles_cons_iff, not_or] at h
    obtain ⟨hblocks, hrest⟩ := h
    rw [List.foldlM_cons]
    rcases step_cases hblocks with ⟨w, hpart, hstep⟩ | ⟨hnone, hstep⟩
    · rw [hstep]
      rcases ih fun hw => hrest ⟨w, hpart, hw⟩ with ⟨u, hu, hsteps⟩ | ⟨hnone, hsteps⟩
      · exact .inl ⟨u, .next hpart hu, hsteps⟩
      · refine .inr ⟨fun u hu => ?_, hsteps⟩
        obtain ⟨w', hpart', hu⟩ := leads_cons_iff.mp hu
        exact hnone u (hpart.unique hpart' ▸ hu)
    · rw [hstep]
      refine .inr ⟨fun u hu => ?_, steps_null parts⟩
      obtain ⟨w, hpart, -⟩ := leads_cons_iff.mp hu
      exact hnone w hpart

theorem Leads.unique (hw : Leads v parts w) (hu : Leads v parts u) : w = u := by
  induction hw with
  | here v =>
    cases hu
    rfl
  | next hpart _ ih =>
    obtain ⟨w', hpart', hu⟩ := leads_cons_iff.mp hu
    exact ih (hpart.unique hpart' ▸ hu)

/-! ## Fields -/

/-- The parts of a path, between its points. -/
def partsOf (path : Text) : List Text := List.splitOn (CodePoint.scalar '.') path

theorem read_of_not_key {r : Record} {path : Text} (h : Value.find? path r = none) :
    r.read path = (partsOf path).foldlM step (.object r) := by
  have hparts : Text.splitOn point path = partsOf path := Text.splitOn_singleton (.scalar '.') path
  unfold read
  rw [h, hparts]

/-- **The value of a field.**  A key of the record gives its value.  Any other path gives the value
that its parts lead to, and nothing if they lead nowhere, unless they stumble; only then is the
field not read. -/
theorem read_ok_iff (r : Record) (path : Text) :
    (∀ v, r.read path = .ok v ↔ Value.find? path r = some v ∨
      Value.find? path r = none ∧ ¬ Stumbles (.object r) (partsOf path) ∧
        (Leads (.object r) (partsOf path) v ∨
          v = .null ∧ ∀ w, ¬ Leads (.object r) (partsOf path) w)) ∧
    ((∃ fault, r.read path = .error fault) ↔
      Value.find? path r = none ∧ Stumbles (.object r) (partsOf path)) := by
  cases hkey : Value.find? path r with
  | some u =>
    have hread : r.read path = .ok u := by
      unfold read
      rw [hkey]
    rw [hread]
    simp
  | none =>
    rw [read_of_not_key hkey]
    by_cases hstumbles : Stumbles (.object r) (partsOf path)
    · obtain ⟨fault, hfault⟩ := steps_of_stumbles hstumbles
      rw [hfault]
      simp [hstumbles]
    · rcases steps_cases hstumbles with ⟨u, hu, hsteps⟩ | ⟨hnone, hsteps⟩
      · have hreached : ∀ w, Leads (.object r) (partsOf path) w ↔ u = w :=
          fun w => ⟨hu.unique, fun h => h ▸ hu⟩
        rw [hsteps]
        simp [hstumbles, hreached]
      · rw [hsteps]
        simp [hstumbles, hnone, eq_comm]

/-- **A field is not always read**: a superscript is a digit, but it names no place. -/
theorem not_read_ok : ¬ ∀ (r : Record) (path : Text), ∃ v, r.read path = .ok v := by
  intro h
  obtain ⟨v, hv⟩ := h [("a", .list [.int 1])] "a.²"
  have hfails : read [("a", .list [.int 1])] "a.²" = .error (.notAnInteger 10 "'²'") := rfl
  rw [hfails] at hv
  cases hv

end Winnow.Record
