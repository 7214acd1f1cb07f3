import Mathlib.Data.List.TakeWhile
import Winnow.Proofs.Numeral.Reading
import Winnow.Query.Params

/-!
# The keys of parameters

A key that is read names a filter by a numeral and one of its parts by a word.  The numeral is any
run of decimal digits, of whatever script and with zeros before it or not, and a line break may
stand at the end of the key.  So there are more keys that are read than keys that are written.

* `Query.Names` : the shape of the keys that are read;
* `Query.splitKey?_eq_some_iff` : **a key is taken apart exactly if it has that shape**;
* `Query.names_paramKey` : the keys that are written have it;
* `Query.Names.toInt` : the index that a numeral stands for, unless it is too long.
-/

namespace Winnow

theorem Text.dropPrefix?_eq_some_iff {p t rest : Text} :
    Text.dropPrefix? p t = some rest ↔ t = p ++ rest := by
  induction p generalizing t with
  | nil =>
    unfold dropPrefix?
    rw [Option.some.injEq, List.nil_append]
  | cons c cs ih =>
    cases t with
    | nil => exact iff_of_false nofun nofun
    | cons d ds =>
      rw [dropPrefix?, List.cons_append, List.cons.injEq]
      split
      · rename_i hc
        rw [ih, and_iff_right hc.symm]
      · rename_i hc
        exact iff_of_false nofun fun h => hc h.1.symm

namespace Query

/-- What may stand at the end of a key: nothing, or a line break. -/
def IsEnding (ending : Text) : Prop := ending = [] ∨ ending = [.scalar '\n']

/-- A key names a part of the filter whose index a run of decimal digits stands for. -/
structure Names (key numeral : Text) (part : Part) : Prop where
  numeral_ne_nil : numeral ≠ []
  decimals : ∀ c ∈ numeral, c.isDecimal = true
  spelled : ∃ ending, IsEnding ending ∧
    key = ("filter_" : Text) ++ (numeral ++ .scalar '_' :: (part.word ++ ending))

theorem partOfText?_eq_some_iff {t : Text} {part : Part} :
    partOfText? t = some part ↔ ∃ ending, IsEnding ending ∧ t = part.word ++ ending := by
  constructor
  · intro h
    have hword := List.find?_some h
    rw [Bool.or_eq_true, beq_iff_eq, beq_iff_eq] at hword
    rcases hword with rfl | rfl
    · exact ⟨[], .inl rfl, (List.append_nil _).symm⟩
    · exact ⟨_, .inr rfl, rfl⟩
  · rintro ⟨ending, rfl | rfl, rfl⟩
    · cases part <;> decide
    · cases part <;> decide

variable {key numeral : Text} {part : Part}

/-- **A key is taken apart exactly if it has the shape of one that is read.** -/
theorem splitKey?_eq_some_iff : splitKey? key = some (numeral, part) ↔ Names key numeral part := by
  constructor
  · intro h
    unfold splitKey? at h
    obtain ⟨rest, hrest, h⟩ := Option.bind_eq_some_iff.mp h
    dsimp only at h
    split at h
    · cases h
    · rename_i hne
      split at h
      · rename_i word hword
        obtain ⟨_, hpart, h⟩ := Option.bind_eq_some_iff.mp h
        cases h
        obtain ⟨ending, hending, rfl⟩ := partOfText?_eq_some_iff.mp hpart
        refine ⟨by simpa using hne, fun c hc => List.mem_takeWhile_imp hc, ending, hending, ?_⟩
        have hsplit := List.prefix_iff_eq_append.mp
          (List.takeWhile_prefix CodePoint.isDecimal (l := rest))
        rw [hword] at hsplit
        rw [Text.dropPrefix?_eq_some_iff.mp hrest, hsplit]
      · cases h
  · rintro ⟨hne, hdecimals, ending, hending, rfl⟩
    have hmark : ¬(CodePoint.scalar '_').isDecimal = true := by decide
    have hnumeral : (numeral ++ .scalar '_' :: (part.word ++ ending)).takeWhile
        CodePoint.isDecimal = numeral := by
      rw [List.takeWhile_append_of_pos hdecimals, List.takeWhile_cons_of_neg hmark,
        List.append_nil]
    unfold splitKey?
    rw [Text.dropPrefix?_eq_some_iff.mpr rfl, Option.bind_eq_bind, Option.bind_some, hnumeral]
    dsimp only
    rw [List.drop_left, if_neg (by simpa using hne)]
    show (do return (numeral, ← partOfText? (part.word ++ ending))) = _
    rw [partOfText?_eq_some_iff.mpr ⟨ending, hending, rfl⟩]
    rfl

theorem names_paramKey (index : Nat) (part : Part) :
    Names (paramKey index part) (Numeral.digits index) part := by
  refine ⟨Numeral.digits_ne_nil index, fun c hc => Numeral.isDecimal_of_mem_digits hc, [],
    .inl rfl, ?_⟩
  rw [paramKey, List.append_nil, List.append_assoc]

/-- A key is taken apart in one way only. -/
theorem Names.unique {numeral' : Text} {part' : Part} (h : Names key numeral part)
    (h' : Names key numeral' part') : numeral = numeral' ∧ part = part' := by
  have hsame := (splitKey?_eq_some_iff.mpr h).symm.trans (splitKey?_eq_some_iff.mpr h')
  rwa [Option.some.injEq, Prod.mk.injEq] at hsame

/-- The index that a numeral stands for. -/
def indexOf (numeral : Text) : Nat := Numeral.valueOf (Numeral.digitValues numeral)

/-- **The numeral of a key has an index**, unless it is too long. -/
theorem Names.toInt (h : Names key numeral part) :
    Numeral.toInt numeral = if Numeral.digitLimit < numeral.length
      then .error (.digitLimit (some numeral.length)) else .ok (indexOf numeral : Int) :=
  Numeral.toInt_decimals h.numeral_ne_nil h.decimals

theorem Names.length_digits (h : Names key numeral part) :
    (Numeral.digits (indexOf numeral)).length ≤ numeral.length := by
  have hlength := Numeral.length_digitValues h.decimals
  rw [← hlength]
  refine Numeral.length_digits_valueOf Numeral.digitValues_lt fun hnil => h.numeral_ne_nil ?_
  rwa [hnil, List.length_nil, eq_comm, List.length_eq_zero_iff] at hlength

end Query

end Winnow
