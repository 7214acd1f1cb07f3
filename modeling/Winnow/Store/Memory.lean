import Winnow.Store.Codec

/-!
# Stores in memory

A store in memory holds one blob, or nothing before the first save.  It can be one that fails to
load.
-/

namespace Winnow

/-- A store in memory. -/
structure MemoryStore where
  content : Option Blob
  /-- The failure of every load, if they fail. -/
  refusal : Option Fault

namespace MemoryStore

/-- The store that holds nothing. -/
def empty : MemoryStore := ⟨none, none⟩

/-- What the store holds. -/
def load (s : MemoryStore) : Except Fault (Option Blob) :=
  match s.refusal with
  | some fault => .error fault
  | none => .ok s.content

/-- Replaces what the store holds. -/
def save (s : MemoryStore) (data : Bytes) : MemoryStore := { s with content := some (.bytes data) }

end MemoryStore

end Winnow
