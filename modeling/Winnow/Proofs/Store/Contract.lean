import Winnow.Proofs.Text.Utf8
import Winnow.Store.Codec
import Winnow.Store.Memory

/-!
# What every store has to do

A store loads from a state and saves to it.  Before the first save it loads what was there at the
beginning, and after that the data that was saved last.  That this is so for every run of calls
follows from what it does for one call.

* `Bytes.IsUtf8` : the data that can be saved;
* `Store.answers`, `Store.after` : what a run of calls answers, and the state after it;
* `Store.expected`, `Store.lastSaved` : what a store has to answer, and the data that was saved last;
* `Store.Keeps` : one call does what it has to;
* `Store.Keeps.answers_eq`, `Store.Keeps.after` : then so does a run of calls;
* `MemoryStore.keeps` : a store in memory does.
-/

namespace Winnow

/-- Bytes that are those of a text without surrogates. -/
def Bytes.IsUtf8 (data : Bytes) : Prop := ∃ t : Text, t.isScalar = true ∧ t.utf8 = data

/-- A call on a store. -/
inductive StoreCall where
  | load
  | save (data : Bytes)

/-- What a store answers to a call. -/
inductive StoreAnswer where
  | loaded (outcome : Except Fault (Option Blob))
  | saved (outcome : Except Fault Unit)

namespace StoreCall

/-- The data of a save. -/
def data? : StoreCall → Option Bytes
  | load => none
  | save data => some data

/-- The data of a save is UTF-8. -/
def IsUtf8 (call : StoreCall) : Prop := ∀ data, call.data? = some data → data.IsUtf8

end StoreCall

/-- A store: what it loads from a state, and what a save answers and makes of the state. -/
structure Store (σ : Type) where
  load : σ → Except Fault (Option Blob)
  save : Bytes → σ → Except Fault Unit × σ

namespace Store

variable {σ : Type}

/-! ## Runs -/

/-- What a call answers, and the state after it.  A load changes nothing. -/
def perform (store : Store σ) (s : σ) : StoreCall → StoreAnswer × σ
  | .load => (.loaded (store.load s), s)
  | .save data => (.saved (store.save data s).1, (store.save data s).2)

/-- What a run of calls answers. -/
def answers (store : Store σ) : σ → List StoreCall → List StoreAnswer
  | _, [] => []
  | s, call :: calls =>
    (store.perform s call).1 :: store.answers (store.perform s call).2 calls

/-- The state after a run of calls. -/
def after (store : Store σ) (s : σ) (calls : List StoreCall) : σ :=
  calls.foldl (fun s call => (store.perform s call).2) s

/-- Saves a set; one that has no text is not saved. -/
def persist (store : Store σ) (set : FilterSet) (s : σ) : Except Fault Unit × σ :=
  match set.serialize with
  | .error fault => (.error fault, s)
  | .ok t => store.save t.utf8 s

/-! ## What has to be answered -/

/-- The answers of a store that holds a content: every save succeeds, and every load gives the
content, which is that of the last save before it if there is one. -/
def expected (content : Option Bytes) : List StoreCall → List StoreAnswer
  | [] => []
  | .load :: calls => .loaded (.ok (content.map .bytes)) :: expected content calls
  | .save data :: calls => .saved (.ok ()) :: expected (some data) calls

/-- The data of the last save. -/
def lastSaved (calls : List StoreCall) : Option Bytes := (calls.filterMap StoreCall.data?).getLast?

theorem lastSaved_cons (call : StoreCall) (calls : List StoreCall) :
    lastSaved (call :: calls) = (lastSaved calls).or call.data? := by
  unfold lastSaved
  cases hdata : call.data? with
  | none => rw [List.filterMap_cons_none hdata, Option.or_none]
  | some data =>
    rw [List.filterMap_cons_some hdata, List.getLast?_cons]
    cases (calls.filterMap StoreCall.data?).getLast? <;> rfl

/-- What one call on a store does.  `Holds` tells in which states the store can be after some data
was saved last, or none.  Then it loads that data, or else the content at the beginning, and a save
succeeds. -/
structure Keeps (store : Store σ) (content : Option Bytes) (Holds : Option Bytes → σ → Prop) :
    Prop where
  load : ∀ {saved s}, Holds saved s → store.load s = .ok ((saved.or content).map .bytes)
  save : ∀ {saved s data}, Holds saved s → data.IsUtf8 →
    (store.save data s).1 = .ok () ∧ Holds (some data) (store.save data s).2

variable {store : Store σ} {content : Option Bytes} {Holds : Option Bytes → σ → Prop} {s : σ}

theorem Keeps.perform (h : store.Keeps content Holds) {saved : Option Bytes} (hs : Holds saved s)
    {call : StoreCall} (hcall : call.IsUtf8) :
    Holds (call.data?.or saved) (store.perform s call).2 := by
  cases call with
  | load => exact hs
  | save data => exact (h.save hs (hcall data rfl)).2

/-- **A store answers to a run of calls as it has to.** -/
theorem Keeps.answers_eq (h : store.Keeps content Holds) {saved : Option Bytes} (hs : Holds saved s)
    {calls : List StoreCall} (hcalls : ∀ call ∈ calls, call.IsUtf8) :
    store.answers s calls = expected (saved.or content) calls := by
  induction calls generalizing saved s with
  | nil => rfl
  | cons call calls ih =>
    obtain ⟨hcall, hcalls⟩ := List.forall_mem_cons.mp hcalls
    have hrest := ih (h.perform hs hcall) hcalls
    cases call with
    | load => exact congrArg₂ List.cons (congrArg _ (h.load hs)) hrest
    | save data => exact congrArg₂ List.cons (congrArg _ (h.save hs (hcall data rfl)).1) hrest

/-- **After a run of calls a store holds the data that was saved last**, or what it held before. -/
theorem Keeps.after (h : store.Keeps content Holds) {saved : Option Bytes} (hs : Holds saved s)
    {calls : List StoreCall} (hcalls : ∀ call ∈ calls, call.IsUtf8) :
    Holds ((lastSaved calls).or saved) (store.after s calls) := by
  induction calls generalizing saved s with
  | nil => exact hs
  | cons call calls ih =>
    obtain ⟨hcall, hcalls⟩ := List.forall_mem_cons.mp hcalls
    rw [lastSaved_cons, Option.or_assoc]
    exact ih (h.perform hs hcall) hcalls

/-- A run of calls from the beginning. -/
theorem Keeps.run (h : store.Keeps content Holds) (hs : Holds none s) {calls : List StoreCall}
    (hcalls : ∀ call ∈ calls, call.IsUtf8) :
    store.answers s calls = expected content calls ∧
      Holds (lastSaved calls) (store.after s calls) := by
  have hafter := h.after hs hcalls
  rw [Option.or_none] at hafter
  exact ⟨h.answers_eq hs hcalls, hafter⟩

end Store

/-! ## Stores in memory -/

namespace MemoryStore

/-- A store in memory as a store, which is its own state. -/
def store : Store MemoryStore := ⟨load, fun data s => (.ok (), s.save data)⟩

/-- A store in memory that does not fail does what it has to. -/
theorem keeps (content : Option Bytes) :
    store.Keeps content fun saved s => s = ⟨(saved.or content).map .bytes, none⟩ where
  load := by
    rintro saved _ rfl
    rfl
  save := by
    rintro saved _ data rfl -
    exact ⟨rfl, rfl⟩

end MemoryStore

end Winnow
