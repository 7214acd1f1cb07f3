import Winnow.Proofs.Store.Document
import Winnow.Proofs.Store.File
import Winnow.Proofs.Store.Persistence

/-!
# The three stores agree

A store in memory, one in a file and one in a document begin with the same content, or with nothing.
Then they answer alike to every run of loads and saves, so a set that is written to one of them and
read back is the same set as through another one.

* `Store.rehydrated` : the set that is written to a store and read back;
* `FilterSet.stored?` : the bytes that are written;
* `Store.Keeps.load_persist` : what a store loads after that;
* `stores_agree` : the answers of the three stores, and what they leave of files and documents.
-/

namespace Winnow

open Outcome
open CollectionCall (filtersKey keyKey)

namespace FilterSet

/-- The bytes of a set, if it has a text. -/
def stored? (set : FilterSet) : Option Bytes := set.serialize.toOption.map Text.utf8

theorem visible_of_serialize {set : FilterSet} {t : Text} (h : set.serialize = .ok t) :
    t.Visible := by
  obtain ⟨entries, -, h⟩ := of_bind_ok h
  exact Json.visible_jsonAt _ h

end FilterSet

namespace Store

variable {σ : Type} {store : Store σ}

/-- The set that is read from a store after a set was written to it. -/
def rehydrated (store : Store σ) (c : Catalog) (rules : Rules) (tokens : Tokens) (set : FilterSet)
    (s : σ) : Except Fault FilterSet :=
  FilterSet.hydrate c rules tokens (store.load (store.persist set s).2)

/-- A store loads the bytes of a set that was written to it, or what it held before if the set has
no text. -/
theorem Keeps.load_persist {content saved : Option Bytes} {Holds : Option Bytes → σ → Prop} {s : σ}
    (h : store.Keeps content Holds) (hs : Holds saved s) (set : FilterSet) :
    store.load (store.persist set s).2 =
      .ok ((set.stored?.or (saved.or content)).map .bytes) := by
  unfold persist FilterSet.stored?
  cases hserialize : set.serialize with
  | error fault => exact h.load hs
  | ok t =>
    have hscalar := (FilterSet.visible_of_serialize hserialize).isScalar
    exact h.load (h.save hs ⟨t, hscalar, rfl⟩).2

theorem Keeps.rehydrated_eq {content saved : Option Bytes} {Holds : Option Bytes → σ → Prop} {s : σ}
    (h : store.Keeps content Holds) (hs : Holds saved s) (c : Catalog) (rules : Rules)
    (tokens : Tokens) (set : FilterSet) :
    store.rehydrated c rules tokens set s =
      FilterSet.hydrate c rules tokens
        (.ok ((set.stored?.or (saved.or content)).map .bytes)) :=
  congrArg _ (h.load_persist hs set)

end Store

/-- A store in a file saves a set as any store does. -/
theorem FileStore.persist_eq (s : FileStore) : s.persist = s.store.persist := by
  funext set f
  unfold persist Store.persist
  cases set.serialize <;> rfl

/-- **The three stores agree** on every run of loads and saves of UTF-8, if they begin with the same
content or with nothing.  A load gives the data of the last save before it, or else the content, and
every save succeeds.  A store in a file changes no other file and leaves no draft; a store in a
document changes no other field, and a new document gets its key.  Without a save they change
nothing.  So a set that is written and read back is the same through all of them, and it is the set
that was written if that is one which its text keeps. -/
theorem stores_agree {file : FileStore} {document : DocumentStore} {folder : Folder}
    {collection : Collection} {place draft : Path} {content : Option Bytes}
    (hfile : file.Ready folder place draft) (hfileLoad : file.load folder = .ok content)
    (hdocument : document.Serves collection)
    (hdocumentLoad : (document.load collection).2 = .ok content) {calls : List StoreCall}
    (hcalls : ∀ call ∈ calls, call.IsUtf8) :
    let memory : MemoryStore := ⟨content.map .bytes, none⟩
    let memoryAfter := MemoryStore.store.after memory calls
    let folderAfter := file.store.after folder calls
    let collectionAfter := document.store.after collection calls
    (MemoryStore.store.answers memory calls = Store.expected content calls ∧
      file.store.answers folder calls = Store.expected content calls ∧
      document.store.answers collection calls = Store.expected content calls) ∧
    ((∀ q, q ≠ place → q ≠ draft → folderAfter.file? q = folder.file? q) ∧
      ∀ name, name ≠ filtersKey → Value.find? name (document.fields collectionAfter) =
        Value.find? name (document.fields collection)) ∧
    (∀ data, Store.lastSaved calls = some data →
      folderAfter.file? place = some data ∧ folderAfter.node? draft = none) ∧
    (Store.lastSaved calls = none → folderAfter = folder ∧ collectionAfter = collection) ∧
    ∀ (c : Catalog) (rules : Rules) (tokens : Tokens) (set : FilterSet),
      let set' := MemoryStore.store.rehydrated c rules tokens set memoryAfter
      file.store.rehydrated c rules tokens set folderAfter = set' ∧
        document.store.rehydrated c rules tokens set collectionAfter = set' ∧
        (set.Invariant c rules → set.Storable →
          ∃ t, set' = .ok t ∧ t.filters = set.filters ∧ t.equals set = true) := by
  intro memory memoryAfter folderAfter collectionAfter
  have hmemory := MemoryStore.keeps content
  have hfiles := FileStore.keeps hfile hfileLoad
  have hdocuments := DocumentStore.keeps hdocument hdocumentLoad
  obtain ⟨hmemoryAnswers, hmemoryAfter⟩ := hmemory.run (s := memory) rfl hcalls
  obtain ⟨hfileAnswers, hfileAfter⟩ := hfiles.run (rfl : folder = folder) hcalls
  obtain ⟨hdocumentAnswers, hdocumentAfter⟩ := hdocuments.run (rfl : collection = collection) hcalls
  refine ⟨⟨hmemoryAnswers, hfileAnswers, hdocumentAnswers⟩,
    ⟨fun q => hfileAfter.others, fun name => hdocumentAfter.others⟩, ?_, ?_, ?_⟩
  · intro data hlast
    rw [hlast] at hfileAfter
    exact ⟨FileStore.Holds.content hfileAfter, FileStore.Holds.noDraft hfileAfter⟩
  · intro hlast
    rw [hlast] at hfileAfter hdocumentAfter
    exact ⟨hfileAfter, hdocumentAfter⟩
  · intro c rules tokens set set'
    have hset : set' = _ := hmemory.rehydrated_eq hmemoryAfter c rules tokens set
    refine ⟨?_, ?_, fun hinvariant hstorable => ?_⟩
    · exact (hfiles.rehydrated_eq hfileAfter c rules tokens set).trans hset.symm
    · exact (hdocuments.rehydrated_eq hdocumentAfter c rules tokens set).trans hset.symm
    · obtain ⟨text, hserialize, hfull, hheld⟩ :=
        FilterSet.deserialize_serialize hinvariant hstorable
      obtain ⟨t, hdecoded, hfilters, hequal⟩ := hheld tokens
      refine ⟨t, ?_, hfilters, hequal⟩
      rw [hset, FilterSet.stored?, hserialize]
      exact FilterSet.hydrate_of_deserialize hfull hdecoded

/-- A folder with a draft that was left behind, and another file. -/
def leftoverFolder : Folder :=
  ⟨[(["notes.txt"], .file [0x61]), (["state", "filters.json.tmp"], .file [0x62])]⟩

/-- A collection whose document has no filters yet, and another field. -/
def notedCollection : Collection :=
  ⟨some [(keyKey, .text "filters"), ("note", .text "kept")], false⟩

/-- Two saves between two loads. -/
def twoSaves : List StoreCall :=
  [.load, .save (Text.utf8 "[]"), .save (Text.utf8 "ü"), .load]

theorem leftoverFolder_ready :
    FileStore.Ready ⟨["state", "filters.json"]⟩ leftoverFolder ["state", "filters.json"]
      ["state", "filters.json.tmp"] where
  parent := rfl
  placed := rfl
  drafted := rfl
  free := by decide
  draftFree := by decide
  draftKept := by decide

theorem notedCollection_serves : DocumentStore.Serves ⟨.text "filters"⟩ notedCollection where
  works := rfl
  distinct := by
    rintro _ ⟨⟩
    decide
  key := by
    rintro _ ⟨⟩
    rfl

/-- Both stores load nothing first and what was saved last in the end.  The draft is gone, and the
other file and the other field are as they were. -/
theorem stores_agree_twoSaves :
    let file : FileStore := ⟨["state", "filters.json"]⟩
    let document : DocumentStore := ⟨.text "filters"⟩
    let answers : List StoreAnswer := [.loaded (.ok none), .saved (.ok ()), .saved (.ok ()),
      .loaded (.ok (some (.bytes (Text.utf8 "ü"))))]
    let folderAfter := file.store.after leftoverFolder twoSaves
    let collectionAfter := document.store.after notedCollection twoSaves
    file.store.answers leftoverFolder twoSaves = answers ∧
      document.store.answers notedCollection twoSaves = answers ∧
      folderAfter.file? ["notes.txt"] = some [0x61] ∧
      folderAfter.node? ["state", "filters.json.tmp"] = none ∧
      Value.find? "note" (document.fields collectionAfter) = some (.text "kept") := by
  intro file document answers folderAfter collectionAfter
  have hcalls : ∀ call ∈ twoSaves, call.IsUtf8 := by
    simp only [twoSaves, List.forall_mem_cons]
    refine ⟨nofun, ?_, ?_, nofun, nofun⟩ <;> rintro _ ⟨⟩ <;> exact ⟨_, by decide, rfl⟩
  obtain ⟨⟨-, hfile, hdocument⟩, ⟨hfiles, hfields⟩, hsaved, -⟩ :=
    stores_agree leftoverFolder_ready rfl notedCollection_serves rfl hcalls
  exact ⟨hfile, hdocument, hfiles ["notes.txt"] (by decide) (by decide), (hsaved _ rfl).2,
    hfields "note" (by decide)⟩

end Winnow
