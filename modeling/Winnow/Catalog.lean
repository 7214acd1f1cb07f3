import Winnow.Catalog.Definition

/-!
# Catalogs

A catalog is a list of definitions with distinct ids, in the order of declaration.

* `Catalog.ofDefinitions`: the catalog of a list of definitions; of two with one id the later one
  counts, at the place of the earlier one.
* `Catalog.lookup`: the definition with an id.
* `Catalog.byField?`: the first definition that reads a field.
-/

namespace Winnow

/-- Puts a definition at the place of the one with its id, or at the end. -/
def declare (d : Definition) : List Definition → List Definition
  | [] => [d]
  | e :: es => if e.id = d.id then d :: es else e :: declare d es

/-- The ids after a declaration are those before it and the new one. -/
theorem mem_map_id_declare {i : Text} {d : Definition} {es : List Definition} :
    i ∈ (declare d es).map Definition.id ↔ i = d.id ∨ i ∈ es.map Definition.id := by
  induction es with
  | nil => simp [declare]
  | cons e es ih =>
    by_cases same : e.id = d.id
    · simp [declare, same]
    · simp only [declare, same, if_false, List.map_cons, List.mem_cons, ih]
      grind

/-- A declaration keeps ids distinct. -/
theorem nodup_map_id_declare {d : Definition} {es : List Definition}
    (distinct : (es.map Definition.id).Nodup) : ((declare d es).map Definition.id).Nodup := by
  induction es with
  | nil => simp [declare]
  | cons e es ih =>
    rw [List.map_cons, List.nodup_cons] at distinct
    by_cases same : e.id = d.id
    · simp only [declare, same, if_true, List.map_cons, List.nodup_cons]
      exact ⟨same ▸ distinct.1, distinct.2⟩
    · simp only [declare, same, if_false, List.map_cons, List.nodup_cons, mem_map_id_declare,
        false_or]
      exact ⟨distinct.1, ih distinct.2⟩

/-- Definitions with distinct ids, under a name. -/
structure Catalog where
  /-- The name of the catalog in literal notation. -/
  name : Text
  definitions : List Definition
  distinct : (definitions.map Definition.id).Nodup

namespace Catalog

/-- The catalog without definitions. -/
def empty (name : Text) : Catalog := ⟨name, [], List.nodup_nil⟩

/-- Adds a definition, or replaces the one with its id. -/
def add (c : Catalog) (d : Definition) : Catalog :=
  ⟨c.name, declare d c.definitions, nodup_map_id_declare c.distinct⟩

/-- The catalog of a list of definitions. -/
def ofDefinitions (name : Text) (ds : List Definition) : Catalog := ds.foldl add (empty name)

/-- The definition with an id. -/
def find? (c : Catalog) (id : Text) : Option Definition := c.definitions.find? fun d => d.id == id

/-- The definition whose id is a given value; lists and objects are no keys. -/
def lookup (c : Catalog) (id : Value) : Except Fault (Option Definition) :=
  match id with
  | .text t => .ok (c.find? t)
  | v => if v.isHashable then .ok none else .error .unhashable

/-- The first definition that reads a field. -/
def byField? (c : Catalog) (field : Text) : Option Definition :=
  c.definitions.find? fun d => d.field == field

/-- The ids in the order of declaration. -/
def ids (c : Catalog) : List Text := c.definitions.map Definition.id

/-- The definitions of a kind. -/
def ofKind (c : Catalog) (kind : Text) : List Definition :=
  c.definitions.filter fun d => d.kind.word == kind

end Catalog

end Winnow
