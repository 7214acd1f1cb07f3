import Winnow.Proofs.Store.Contract
import Winnow.Proofs.Value.Entries
import Winnow.Store.Document

/-!
# Stores in a document keep the contract

A save decodes its data and writes the text into the document of the key, and a load encodes the
text again.  Only UTF-8 is decoded, and the text of UTF-8 is encoded to what it was decoded from.

* `DocumentStore.Serves` : a collection that does not fail, with the document of the key if any;
* `DocumentStore.find?_updated` : what a save changes in the document;
* `DocumentStore.keeps` : a store in a document does what it has to, and changes no other field.
-/

namespace Winnow.DocumentStore

open CollectionCall (filtersKey keyKey)

/-- A store in a document as a store, whose states are the collections. -/
def store (s : DocumentStore) : Store Collection :=
  ⟨fun c => (s.load c).2.map (Option.map .bytes), fun data c => (s.save data c).2⟩

/-- A collection serves a store: it does not fail, and if it has a document, that is one of distinct
fields with the key of the store. -/
structure Serves (s : DocumentStore) (c : Collection) : Prop where
  works : c.failing = false
  distinct : ∀ fields, c.document = some fields → (fields.map Prod.fst).Nodup
  key : ∀ fields, c.document = some fields → Value.find? keyKey fields = some s.key

/-- The fields of the document of a collection, or else those of a new one. -/
def fields (s : DocumentStore) (c : Collection) : Value.Entries :=
  c.document.getD [(keyKey, s.key)]

variable {s : DocumentStore} {c : Collection}

/-! ## A save -/

/-- A save writes the text, and changes no other field. -/
theorem find?_updated (hc : s.Serves c) (filters : Text) (name : Text) :
    Value.find? name (s.updated filters c.document) =
      if filtersKey = name then some (.text filters) else Value.find? name (s.fields c) := by
  unfold updated fields
  rw [Value.find?_put]
  by_cases hname : filtersKey = name
  · rw [if_pos hname, if_pos hname]
  rw [if_neg hname, if_neg hname]
  cases hdocument : c.document with
  | none => rfl
  | some fields =>
    rw [Option.getD_some, Option.getD_some, Value.find?_foldl_put (hc.distinct fields hdocument),
      Value.find?_cons]
    split
    · -- The document has the key of the store already.
      rename_i hkey
      rw [← hkey, hc.key fields hdocument]
      rfl
    · exact Option.or_none

theorem nodup_updated (s : DocumentStore) (filters : Text) (document : Option Value.Entries) :
    ((s.updated filters document).map Prod.fst).Nodup := by
  have hkey : ([(keyKey, s.key)].map Prod.fst).Nodup := List.nodup_singleton keyKey
  exact Value.nodup_put (Value.nodup_foldl_put hkey (document.getD [])) filtersKey (.text filters)

/-- The collection after a save. -/
def afterSave (s : DocumentStore) (filters : Text) (c : Collection) : Collection :=
  { c with document := some (s.updated filters c.document) }

/-- A save of the bytes of a text succeeds. -/
theorem save_eq (hc : s.Serves c) {filters : Text} (hscalar : filters.isScalar = true) :
    (s.save filters.utf8 c).2 = (.ok (), s.afterSave filters c) := by
  have hdecode := Bytes.ofUtf8_iff.mpr ⟨hscalar, rfl⟩
  unfold save
  rw [hdecode]
  dsimp only
  rw [if_neg (by rw [hc.works]; decide)]
  rfl

/-- After a save the collection serves the store again. -/
theorem Serves.afterSave (hc : s.Serves c) (filters : Text) : s.Serves (s.afterSave filters c) where
  works := hc.works
  distinct := by
    rintro _ ⟨⟩
    exact nodup_updated s filters c.document
  key := by
    rintro _ ⟨⟩
    rw [find?_updated hc, if_neg (by decide)]
    unfold fields
    cases hdocument : c.document with
    | none => rfl
    | some fields => exact hc.key fields hdocument

/-- What the store loads after a save. -/
theorem load_afterSave (hc : s.Serves c) {filters : Text} (hscalar : filters.isScalar = true) :
    (s.load (s.afterSave filters c)).2 = .ok (some filters.utf8) := by
  have hfind : (s.afterSave filters c).document.bind (Value.find? filtersKey) =
      some (.text filters) := (find?_updated hc filters filtersKey).trans (if_pos rfl)
  unfold load
  dsimp only
  rw [(hc.afterSave filters).works, if_neg (by decide), content, hfind]
  dsimp only
  rw [Text.toUtf8, if_pos hscalar]
  rfl

/-! ## Runs -/

/-- A collection after some data was saved last: as at the beginning, but for the text of the
data. -/
structure Holds (s : DocumentStore) (start : Collection) (data : Bytes) (c : Collection) : Prop where
  serves : s.Serves c
  load : (s.load c).2 = .ok (some data)
  others : ∃ fields, c.document = some fields ∧
    ∀ name, name ≠ filtersKey → Value.find? name fields = Value.find? name (s.fields start)

/-- A collection after a run of calls, in which some data was saved last, or none. -/
def After (s : DocumentStore) (start : Collection) : Option Bytes → Collection → Prop
  | none, c => c = start
  | some data, c => s.Holds start data c

section

variable {start : Collection} {saved : Option Bytes}

theorem After.serves (h : s.After start saved c) (hstart : s.Serves start) : s.Serves c := by
  cases saved with
  | none =>
    obtain rfl : c = start := h
    exact hstart
  | some data => exact Holds.serves h

/-- A run of calls changes no other field. -/
theorem After.others (h : s.After start saved c) {name : Text} (hname : name ≠ filtersKey) :
    Value.find? name (s.fields c) = Value.find? name (s.fields start) := by
  cases saved with
  | none =>
    obtain rfl : c = start := h
    rfl
  | some data =>
    obtain ⟨fields, hdocument, hothers⟩ := Holds.others h
    rw [← hothers name hname, DocumentStore.fields, hdocument, Option.getD_some]

/-- **A store in a document does what it has to**, and leaves all other fields as they are. -/
theorem keeps (hstart : s.Serves start) {content : Option Bytes}
    (hload : (s.load start).2 = .ok content) : s.store.Keeps content (s.After start) where
  load := by
    intro saved c hc
    show (s.load c).2.map (Option.map Blob.bytes) = _
    cases saved with
    | none =>
      obtain rfl : c = start := hc
      rw [hload]
      rfl
    | some data =>
      rw [Holds.load hc]
      rfl
  save := by
    rintro saved c _ hc ⟨filters, hscalar, rfl⟩
    have hserves := hc.serves hstart
    show (s.save filters.utf8 c).2.1 = _ ∧ s.Holds start filters.utf8 (s.save filters.utf8 c).2.2
    rw [save_eq hserves hscalar]
    refine ⟨rfl, hserves.afterSave filters, load_afterSave hserves hscalar, _, rfl,
      fun name hname => ?_⟩
    rw [find?_updated hserves, if_neg (Ne.symm hname), hc.others hname]

end

end Winnow.DocumentStore
