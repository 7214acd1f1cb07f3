import Winnow.Proofs.Evaluation.Ranges

/-!
# Membership and lists

Two families of operators ask for membership.  A filter for containment looks for its items, each
on its own, among those of the field; a filter for membership looks for the field as a whole among
its items.  So where the field is a list of texts and the filter has a list of texts, the first
finds what the lists share, and the second finds nothing.

* `Value.isIn_texts`, `Value.list_isIn_texts` : a text and a list among texts;
* `Value.holds_texts` : whether two lists of texts share one;
* `Filter.accepts_members` : what the four operators say of two lists of texts;
* `Filter.not_accepts_members` : a list that shares a text and is not found.
-/

namespace Winnow

namespace Value

theorem isIn_texts {t : Text} {texts : List Text} :
    (Value.text t).isIn (texts.map .text) = true ↔ t ∈ texts := by
  unfold isIn
  rw [List.any_map, List.any_eq_true]
  constructor
  · rintro ⟨s, hs, hequal⟩
    rwa [beq_iff_eq.mp hequal]
  · exact fun ht => ⟨t, ht, beq_self_eq_true t⟩

/-- A list is no text, so it is not among texts. -/
theorem list_isIn_texts (items : List Value) (texts : List Text) :
    (Value.list items).isIn (texts.map .text) = false := by
  unfold isIn
  rw [List.any_map, List.any_eq_false]
  intro t _
  exact Bool.false_ne_true

/-- **A list of texts holds another exactly if the two share a text.** -/
theorem holds_texts (texts sought : List Text) :
    ∃ shared : Bool, (Value.list (texts.map .text)).holds (.list (sought.map .text)) = .ok shared ∧
      (shared = true ↔ ∃ t ∈ texts, t ∈ sought) := by
  refine ⟨_, rfl, ?_⟩
  rw [List.any_map, List.any_eq_true]
  constructor
  · rintro ⟨t, hsought, hisIn⟩
    exact ⟨t, isIn_texts.mp hisIn, hsought⟩
  · rintro ⟨t, htexts, hsought⟩
    exact ⟨t, hsought, isIn_texts.mpr htexts⟩

end Value

namespace Filter

/-- **What the operators of membership say of two lists of texts.**  Containment asks whether the
lists share a text; membership of the field in the list of the filter asks for the whole of it and
never holds.  So the two agree exactly if the lists share nothing. -/
theorem accepts_members (today : Date) (d : Definition) (f : Filter) (r : Record)
    (texts sought : List Text) (hread : r.read d.field = .ok (.list (texts.map .text))) :
    let v : Value := .list (sought.map .text)
    ∃ shared : Bool, (shared = true ↔ ∃ t ∈ texts, t ∈ sought) ∧
      (f.asking .contains v).accepts today d r = .ok shared ∧
      (f.asking .notContains v).accepts today d r = .ok !shared ∧
      (f.asking .isIn v).accepts today d r = .ok false ∧
      (f.asking .notIn v).accepts today d r = .ok true ∧
      ((f.asking .isIn v).accepts today d r = (f.asking .contains v).accepts today d r ∧
        (f.asking .notIn v).accepts today d r = (f.asking .notContains v).accepts today d r ↔
        ∀ t ∈ texts, t ∉ sought) := by
  intro v
  obtain ⟨shared, hholds, hshared⟩ := Value.holds_texts texts sought
  have hamong : (Value.list (texts.map .text)).isAmong v = false :=
    Value.list_isIn_texts (texts.map .text) sought
  have haccepts (o : Operator) : (f.asking o v).accepts today d r =
      o.test today d.kind (.list (texts.map .text)) v := accepts_known hread rfl rfl
  have hcontains := (haccepts .contains).trans hholds
  have hnotContains := (haccepts .notContains).trans (Operator.test_notContains hholds)
  have hisIn := (haccepts .isIn).trans (congrArg Except.ok hamong)
  have hnotIn := (haccepts .notIn).trans (congrArg (fun among => Except.ok !among) hamong)
  refine ⟨shared, hshared, hcontains, hnotContains, hisIn, hnotIn, ?_⟩
  rw [hcontains, hnotContains, hisIn, hnotIn]
  cases shared with
  | true =>
    obtain ⟨t, htexts, hsought⟩ := hshared.mp rfl
    constructor
    · rintro ⟨hagree, -⟩
      cases hagree
    · intro hnone
      exact absurd hsought (hnone t htexts)
  | false =>
    constructor
    · intro _ t htexts hsought
      cases hshared.mpr ⟨t, htexts, hsought⟩
    · exact fun _ => ⟨rfl, rfl⟩

/-- The skills of an employee, and two skills that are sought: one of them is shared. -/
theorem accepts_members_skills :
    let d := Employees.definition "skills" "Skills" "" .array
      [.contains, .notContains, .isIn, .notIn] .contains (by decide) (by decide)
    let f : Filter := ⟨"a", "skills", .known .contains, .null, none⟩
    let r : Record := [("skills", .list [.text "python", .text "sql"])]
    (f.asking .contains (.list [.text "sql", .text "go"])).accepts default d r = .ok true := by
  intro d f r
  obtain ⟨shared, hshared, hcontains, -⟩ :=
    accepts_members default d f r ["python", "sql"] ["sql", "go"] rfl
  rw [hshared.mpr ⟨"sql", by decide, by decide⟩] at hcontains
  exact hcontains

/-- **A list that shares a text with the list of the filter is not a member of it**, though it
contains an item of it. -/
theorem not_accepts_members :
    let d := Employees.definition "skills" "Skills" "" .array
      [.contains, .notContains, .isIn, .notIn] .contains (by decide) (by decide)
    let f : Filter := ⟨"a", "skills", .known .isIn, .null, none⟩
    let r : Record := [("skills", .list [.text "python"])]
    (f.asking .isIn (.list [.text "python"])).accepts default d r = .ok false ∧
      (f.asking .contains (.list [.text "python"])).accepts default d r = .ok true := by
  decide +kernel

end Filter

end Winnow
