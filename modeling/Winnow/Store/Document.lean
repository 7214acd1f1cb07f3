import Winnow.Store.Codec

/-!
# Stores in a document

A store in a document keeps the filters as one text in the document of a key in a collection.  The
calls that it makes on the collection are part of what it does.
-/

namespace Winnow

/-- A call on a collection. -/
inductive CollectionCall where
  | findOne (key : Value)
  | updateOne (key : Value) (filters : Text)
  | createIndex

namespace CollectionCall

/-- The name of the part of a document that holds the filters. -/
def filtersKey : Text := "filters"

/-- The name of the part of a document that holds its key. -/
def keyKey : Text := "key"

/-- The selection of the document with a key. -/
def selection (key : Value) : Value := .object [(keyKey, key)]

/-- A call with its arguments. -/
def wire : CollectionCall → Value
  | .findOne key =>
    .list [.text "find_one", selection key, .object [(filtersKey, .int 1), ("_id", .int 0)]]
  | .updateOne key filters =>
    .list [.text "update_one", selection key,
      .object [("$set", .object [(filtersKey, .text filters)])], .bool true]
  | .createIndex => .list [.text "create_index", .text keyKey, .bool true]

end CollectionCall

/-- A collection with at most one document, which may fail on every call. -/
structure Collection where
  document : Option Value.Entries
  failing : Bool

/-- A store in the document of a key, which can be any value. -/
structure DocumentStore where
  key : Value

namespace DocumentStore

/-- The calls that are made when a store is opened. -/
def opening (indexed : Bool) : List CollectionCall := if indexed then [.createIndex] else []

/-- The bytes of the filters in a document. -/
def content (s : DocumentStore) (document : Option Value.Entries) :
    Except Fault (Option Bytes) :=
  match document.bind (Value.find? CollectionCall.filtersKey) with
  | none => .ok none
  | some (.text t) => do return some (← t.toUtf8)
  | some _ => do
    let key ← s.key.plainText
    .error (.malformed ("Stored filters under key " ++ key ++ " are not a JSON string"))

/-- The failure of an action on a collection. -/
def failure {α : Type} (s : DocumentStore) (action : StoreAction) : Except Fault α := do
  .error (.storeFailed action (← s.key.plainText))

/-- What the document holds. -/
def load (s : DocumentStore) (c : Collection) :
    List CollectionCall × Except Fault (Option Bytes) :=
  ([.findOne s.key],
    if c.failing then s.failure .load else s.content c.document)

/-- A document with the filters in it; a new one gets the key of the store. -/
def updated (s : DocumentStore) (filters : Text) (document : Option Value.Entries) :
    Value.Entries :=
  let old := (document.getD []).foldl (fun es e => Value.put e.1 e.2 es)
    [(CollectionCall.keyKey, s.key)]
  Value.put CollectionCall.filtersKey (.text filters) old

/-- Saves data, which has to be UTF-8. -/
def save (s : DocumentStore) (data : Bytes) (c : Collection) :
    List CollectionCall × Except Fault Unit × Collection :=
  match Bytes.ofUtf8 data with
  | .error fault => ([], .error fault, c)
  | .ok filters =>
    ([.updateOne s.key filters],
      if c.failing then (s.failure .save, c)
      else (.ok (), { c with document := some (s.updated filters c.document) }))

end DocumentStore

end Winnow
