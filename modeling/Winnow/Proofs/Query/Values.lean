import Winnow.Proofs.Query.Scalars
import Winnow.Proofs.Text.Splitting

/-!
# Values as parameters

The items of a list are joined with a separator.  Whether a text is that of a list is told by the
operator and, for the arrays, by the separator in the text.  A value is preserved if both agree with
what it is.

* `FieldKind.HoldsList`, `FieldKind.HoldsSingle` : the values that are preserved where a list is
  read, and elsewhere;
* `Query.mapM_scalarValue_itemTexts` : the items of a list are read back, one by one;
* `Query.readValue_list`, `Query.readValue_single` : a value is read back where its text is that of
  a list, and where it is not;
* `Query.readValue_valueText` : a value that is preserved is read back.
-/

namespace Winnow

open Outcome

namespace FieldKind

/-- A list of single values of a kind whose texts do not hold the separator.  A list of one empty
text is written like an empty list. -/
def HoldsList (separator : CodePoint) (kind : FieldKind) (v : Value) : Prop :=
  ∃ items, v = .list items ∧ items ≠ [.text []] ∧
    ∀ x ∈ items, kind.HasItem x ∧ ∀ t, x.toText = .ok t → separator ∉ t

/-- A single value of a kind, which is absent or has a text that is not taken for a list; for the
arrays also a list whose text is taken for one. -/
def HoldsSingle (separator : CodePoint) : FieldKind → Value → Prop
  | .text, v => FieldKind.text.HasItem v
  | .select, v => FieldKind.select.HasItem v
  | .number, v => v = .null ∨ FieldKind.number.HasItem v
  | .date, v => v = .null ∨ FieldKind.date.HasItem v
  | .boolean, v => v = .null ∨ FieldKind.boolean.HasItem v
  | .array, v =>
    v = .list [] ∨
      (∃ items, v = .list items ∧ 2 ≤ items.length ∧
        ∀ x ∈ items, ∃ t, x = .text t ∧ separator ∉ t) ∨
      ∃ t, v = .text t ∧ t ≠ [] ∧ separator ∉ t

/-- The values that are preserved under an operator. -/
def Holds (separator : CodePoint) (kind : FieldKind) (o : Operator) (v : Value) : Prop :=
  if o.takesList then kind.HoldsList separator v else kind.HoldsSingle separator v

end FieldKind

namespace Query

variable {separator : CodePoint} {kind : FieldKind} {operator : OperatorChoice}

/-! ## Lists -/

/-- **The items of a list are read back**, one by one. -/
theorem mapM_scalarValue_itemTexts {items : List Value} (h : ∀ x ∈ items, kind.HasItem x) :
    ∃ ts ws, Value.itemTexts items = .ok ts ∧ ts.mapM (scalarValue (some kind)) = .ok ws ∧
      Value.equalItems ws items = true ∧ ts.length = items.length ∧
      ∀ t ∈ ts, ∃ x ∈ items, x.toText = .ok t ∧ (t = [] → x = .text []) := by
  induction items with
  | nil => exact ⟨[], [], rfl, rfl, rfl, rfl, nofun⟩
  | cons x items ih =>
    obtain ⟨ts, ws, htexts, hread, hequal, hlength, hfrom⟩ :=
      ih fun y hy => h y (List.mem_cons_of_mem x hy)
    obtain ⟨t, w, htext, hreadt, hequalw, hempty⟩ := scalarValue_toText (h x List.mem_cons_self)
    refine ⟨t :: ts, w :: ws, ?_, ?_, ?_, congrArg Nat.succ hlength, fun s hs => ?_⟩
    · unfold Value.itemTexts
      rw [htext, htexts]
      rfl
    · rw [List.mapM_cons, hreadt, hread]
      rfl
    · rw [Value.equalItems, hequalw, hequal]
      rfl
    · rcases List.mem_cons.mp hs with rfl | hs
      · exact ⟨x, List.mem_cons_self, htext, hempty⟩
      · obtain ⟨y, hy, htexty⟩ := hfrom s hs
        exact ⟨y, List.mem_cons_of_mem x hy, htexty⟩

/-- What is read where the text is that of a list. -/
theorem readValue_of_isListText {t : Text}
    (h : isListText (.text [separator]) (some kind) operator t = .ok true) :
    readValue (.text [separator]) (some kind) operator t =
      if t.isEmpty then .ok (.list [])
      else (do return .list (← (Text.splitOn [separator] t).mapM (scalarValue (some kind)))) := by
  unfold readValue
  rw [h]
  rfl

/-- **A list is read back** where its text is that of a list. -/
theorem readValue_list {v : Value} (hv : kind.HoldsList separator v)
    (h : ∀ t, valueText (.text [separator]) v = .ok t →
      isListText (.text [separator]) (some kind) operator t = .ok true) :
    ∃ t w, valueText (.text [separator]) v = .ok t ∧
      readValue (.text [separator]) (some kind) operator t = .ok w ∧ w.equals v = true := by
  obtain ⟨items, rfl, hone, hitems⟩ := hv
  obtain ⟨ts, ws, htexts, hread, hequal, hlength, hfrom⟩ :=
    mapM_scalarValue_itemTexts fun x hx => (hitems x hx).1
  have htext : valueText (.text [separator]) (.list items) =
      .ok (List.intercalate [separator] ts) := by
    show Except.map _ (Value.itemTexts items) = _
    rw [htexts]
    rfl
  refine ⟨List.intercalate [separator] ts, .list ws, htext, ?_, ?_⟩
  · rw [readValue_of_isListText (h _ htext)]
    by_cases hempty : List.intercalate [separator] ts = []
    · -- Only the empty list is written like this, since one empty text is excluded.
      rw [if_pos (List.isEmpty_iff.mpr hempty)]
      rcases Text.intercalate_eq_nil hempty with rfl | rfl
      · cases hread
        rfl
      · obtain ⟨x, hx, _, hempty⟩ := hfrom [] List.mem_cons_self
        match items, hlength with
        | [y], _ =>
          rw [List.mem_singleton.mp hx] at hempty
          exact absurd (congrArg (fun z => [z]) (hempty rfl)) hone
    · have hne : ts ≠ [] := fun hnil => hempty (by rw [hnil]; rfl)
      have hpieces : ∀ piece ∈ ts, separator ∉ piece := by
        intro piece hpiece
        obtain ⟨x, hx, htextx, _⟩ := hfrom piece hpiece
        exact (hitems x hx).2 piece htextx
      rw [if_neg (by simpa using hempty), Text.splitOn_intercalate hpieces hne, hread]
      rfl
  · rw [Value.equals]
    exact hequal

/-! ## Single values -/

/-- What is read where the text is not that of a list. -/
theorem readValue_of_not_isListText {t : Text}
    (h : isListText (.text [separator]) (some kind) operator t = .ok false) :
    readValue (.text [separator]) (some kind) operator t = scalarValue (some kind) t := by
  unfold readValue
  rw [h]
  rfl

theorem valueText_item {v : Value} (h : kind.HasItem v) (s : Separator) :
    valueText s v = v.toText := by
  cases v with
  | list items => cases kind <;> cases h
  | _ => rfl

/-- **A single value is read back** where its text is not that of a list. -/
theorem readValue_single {v : Value} (hv : kind.HasItem v)
    (h : ∀ t, v.toText = .ok t →
      isListText (.text [separator]) (some kind) operator t = .ok false) :
    ∃ t w, valueText (.text [separator]) v = .ok t ∧
      readValue (.text [separator]) (some kind) operator t = .ok w ∧ w.equals v = true := by
  obtain ⟨t, w, htext, hread, hequal, _⟩ := scalarValue_toText hv
  refine ⟨t, w, (valueText_item hv _).trans htext, ?_, hequal⟩
  rw [readValue_of_not_isListText (h t htext), hread]

/-! ## Values of both sorts -/

theorem isListText_of_takesList {o : Operator} (ho : o.takesList = true) (t : Text) :
    isListText (.text [separator]) (some kind) (.known o) t = .ok true := by
  unfold isListText
  dsimp only
  rw [ho]
  rfl

/-- Under the other operators a text is that of a list only for the arrays. -/
theorem isListText_of_ne_array {o : Operator} (ho : o.takesList = false) (hkind : kind ≠ .array)
    (t : Text) : isListText (.text [separator]) (some kind) (.known o) t = .ok false := by
  unfold isListText
  dsimp only
  rw [ho, if_neg Bool.false_ne_true, if_neg fun h => hkind (Option.some.inj h)]

theorem isListText_array {o : Operator} (ho : o.takesList = false) (t : Text) :
    isListText (.text [separator]) (some .array) (.known o) t =
      .ok (decide (t = [] ∨ separator ∈ t)) := by
  unfold isListText
  dsimp only
  rw [ho, if_neg Bool.false_ne_true, if_pos rfl]
  cases t with
  | nil => rfl
  | cons c cs =>
    refine congrArg Except.ok (Bool.eq_iff_iff.mpr ?_)
    rw [Text.occursIn_singleton, decide_eq_true_iff]
    exact ⟨.inr, fun h => h.resolve_left nofun⟩

/-- **A value that is preserved is read back.** -/
theorem readValue_valueText {o : Operator} {v : Value} (hv : kind.Holds separator o v) :
    ∃ t w, valueText (.text [separator]) v = .ok t ∧
      readValue (.text [separator]) (some kind) (.known o) t = .ok w ∧ w.equals v = true := by
  unfold FieldKind.Holds at hv
  by_cases ho : o.takesList = true
  · rw [if_pos ho] at hv
    exact readValue_list hv fun t _ => isListText_of_takesList ho t
  · rw [if_neg ho] at hv
    have ho : o.takesList = false := by simpa using ho
    -- An absent value is written as the empty text, which these kinds read as absent.
    have habsent : ∀ kind : FieldKind, kind ≠ .array →
        scalarValue (some kind) [] = .ok .null →
        ∃ t w, valueText (.text [separator]) .null = .ok t ∧
          readValue (.text [separator]) (some kind) (.known o) t = .ok w ∧
          w.equals .null = true := by
      intro kind hkind hread
      refine ⟨[], .null, rfl, ?_, rfl⟩
      rw [readValue_of_not_isListText (isListText_of_ne_array ho hkind []), hread]
    have hsingle : ∀ kind : FieldKind, kind ≠ .array → kind.HasItem v →
        ∃ t w, valueText (.text [separator]) v = .ok t ∧
          readValue (.text [separator]) (some kind) (.known o) t = .ok w ∧ w.equals v = true :=
      fun kind hkind hitem =>
        readValue_single hitem fun t _ => isListText_of_ne_array ho hkind t
    cases kind with
    | text => exact hsingle .text nofun hv
    | select => exact hsingle .select nofun hv
    | number =>
      rcases hv with rfl | hitem
      · exact habsent .number nofun rfl
      · exact hsingle .number nofun hitem
    | date =>
      rcases hv with rfl | hitem
      · exact habsent .date nofun rfl
      · exact hsingle .date nofun hitem
    | boolean =>
      rcases hv with rfl | hitem
      · exact habsent .boolean nofun rfl
      · exact hsingle .boolean nofun hitem
    | array =>
      rcases hv with rfl | ⟨items, rfl, hlength, hitems⟩ | ⟨t, rfl, hne, hmem⟩
      · refine ⟨[], .list [], rfl, ?_, rfl⟩
        rw [readValue_of_isListText (isListText_array ho [])]
        rfl
      · have hvalid : ∀ x ∈ items, FieldKind.array.HasItem x ∧
            ∀ t, x.toText = .ok t → separator ∉ t := by
          intro x hx
          obtain ⟨t, rfl, hmem⟩ := hitems x hx
          refine ⟨trivial, fun s hs => ?_⟩
          cases hs
          exact hmem
        refine readValue_list ⟨items, rfl, ?_, hvalid⟩ fun t ht => ?_
        · rintro rfl
          exact absurd hlength (by decide)
        · obtain ⟨ts, _, htexts, _, _, hsame, _⟩ :=
            mapM_scalarValue_itemTexts fun x hx => (hvalid x hx).1
          have htext : Except.map (List.intercalate [separator]) (Value.itemTexts items) = .ok t :=
            ht
          rw [htexts] at htext
          cases htext
          have hmem := Text.mem_intercalate separator (hsame ▸ hlength)
          rw [isListText_array ho, decide_eq_true (.inr hmem)]
      · refine readValue_single trivial fun s hs => ?_
        cases hs
        rw [isListText_array ho, decide_eq_false (by simp [hne, hmem])]

end Query

end Winnow
