import Mathlib.Data.List.Induction
import Winnow.Json.Reader
import Winnow.Proofs.Json.Token
import Winnow.Proofs.Outcome

/-!
# Reading back JSON texts

A value that is written is read back, in whatever layout it is written.  The reader goes over a text
in pieces: what it has read of a value leads from a state where a value may begin to the state that
has it delivered, whatever is open around it.

* `Json.Writable` : the values that a text keeps, by the number of levels that they nest;
* `Json.Reads` : a text leads the reader from one state to another;
* `Json.reads_value` : the text of a value delivers the value;
* `Json.readUnmarked_json` : the text of a value is read as the value.
-/

namespace Winnow.Json

open Outcome

/-- The values that a text keeps.  They nest no deeper than so many levels, their integers have no
more digits than are converted, their texts hold no surrogates and the keys of their objects are
distinct. -/
inductive Writable : Nat → Value → Prop
  | null {depth : Nat} : Writable depth .null
  | bool {depth : Nat} (b : Bool) : Writable depth (.bool b)
  | int {depth : Nat} {n : Int} (hn : (Numeral.digits n.natAbs).length ≤ Numeral.digitLimit) :
    Writable depth (.int n)
  | float {depth : Nat} (x : Binary64) : Writable depth (.float x)
  | text {depth : Nat} {t : Text} (ht : ∀ c ∈ t, IsScalar c) : Writable depth (.text t)
  | list {depth : Nat} {items : List Value} (hitems : ∀ v ∈ items, Writable depth v) :
    Writable (depth + 1) (.list items)
  | object {depth : Nat} {entries : Value.Entries} (hkeys : ∀ e ∈ entries, ∀ c ∈ e.1, IsScalar c)
    (hdistinct : (entries.map (·.1)).Nodup) (hvalues : ∀ e ∈ entries, Writable depth e.2) :
    Writable (depth + 1) (.object entries)

/-- A text leads the reader from one state to another, whatever follows that does not continue a
number. -/
def Reads (t : Text) (s s' : State) : Prop :=
  ∀ place rest, EndsNumber rest →
    (tokensFrom place 0 (t ++ rest)).foldlM State.step s =
      (tokensFrom (place + t.length) 0 rest).foldlM State.step s'

/-! ## Pieces -/

variable {s s' s'' : State} {w t : Text} {token : Token}

theorem reads_token (hscan : Scans w token) (hstep : ∀ place, s.step ⟨place, token⟩ = .ok s') :
    Reads w s s' := by
  intro place rest hrest
  rw [hscan.tokensFrom place hrest, List.foldlM_cons, hstep]
  rfl

/-- A text may be read in two pieces if the second does not continue a number. -/
theorem Reads.append (hw : Reads w s s') (ht : Reads t s' s'')
    (hends : ∀ rest, EndsNumber (t ++ rest)) : Reads (w ++ t) s s'' := by
  intro place rest hrest
  rw [List.append_assoc, hw place _ (hends rest), ht _ rest hrest, List.length_append,
    Nat.add_assoc]

/-- The marks of arrays and objects. -/
inductive IsMark : Char → Token → Prop
  | openArray : IsMark '[' .openArray
  | closeArray : IsMark ']' .closeArray
  | openObject : IsMark '\x7b' .openObject
  | closeObject : IsMark '\x7d' .closeObject
  | comma : IsMark ',' .comma
  | colon : IsMark ':' .colon

theorem reads_mark {c : Char} (hmark : IsMark c token)
    (hstep : ∀ place, s.step ⟨place, token⟩ = .ok s') (ht : Reads t s' s'') :
    Reads (.scalar c :: t) s s'' := by
  have hscan : ∀ rest, isBlank (.scalar c) = false ∧
      scanToken (.scalar c :: rest) = (token, 1) := by
    intro rest
    cases hmark <;> exact ⟨rfl, rfl⟩
  intro place rest hrest
  obtain ⟨hblank, hscan⟩ := hscan (t ++ rest)
  have htokens := @tokensFrom_token place _ [] (t ++ rest) _ hblank hscan
  have hplace : place + (([] : Text).length + 1) + t.length =
      place + (CodePoint.scalar c :: t).length := by
    rw [List.length_nil, List.length_cons]
    omega
  rw [List.nil_append] at htokens
  rw [List.cons_append, htokens, List.foldlM_cons, hstep, ← hplace]
  exact ht _ rest hrest

theorem reads_nil (s : State) : Reads [] s s := fun _ _ _ => rfl

theorem reads_blanks {b : Text} (hb : ∀ c ∈ b, isBlank c = true) (ht : Reads t s s') :
    Reads (b ++ t) s s' := by
  induction b with
  | nil => exact ht
  | cons c b ih =>
    obtain ⟨hc, hb⟩ := List.forall_mem_cons.mp hb
    intro place rest hrest
    have hplace : place + 1 + (b ++ t).length = place + ((b ++ t).length + 1) := by omega
    rw [List.cons_append, List.cons_append, tokensFrom_blank place hc, ih hb _ rest hrest,
      List.length_cons, hplace]

theorem endsNumber_cons {c : Char} (hc : c ∈ [',', ':', ']', '\x7d']) (t : Text) :
    EndsNumber (.scalar c :: t) := by
  rintro d ⟨⟩
  simp only [List.mem_cons, List.not_mem_nil, or_false] at hc
  rcases hc with rfl | rfl | rfl | rfl <;> exact ⟨rfl, by decide, by decide, by decide⟩

theorem endsNumber_blanks {b : Text} (hb : ∀ c ∈ b, isBlank c = true) {t : Text}
    (ht : EndsNumber t) : EndsNumber (b ++ t) := by
  cases b with
  | nil => exact ht
  | cons c b =>
    rintro d ⟨⟩
    have hblank := hb c List.mem_cons_self
    simp only [isBlank, Bool.or_eq_true, decide_eq_true_eq] at hblank
    rcases hblank with ((rfl | rfl) | rfl) | rfl <;> exact ⟨rfl, by decide, by decide, by decide⟩

/-! ## Layouts -/

theorem isBlank_newline (layout : Layout) (level : Nat) :
    ∀ c ∈ newline layout level, isBlank c = true := by
  intro c hc
  unfold newline at hc
  split at hc
  · cases hc
  · rcases List.mem_cons.mp hc with rfl | hc
    · rfl
    · rw [List.eq_of_mem_replicate hc]
      rfl

theorem isBlank_space : ∀ c ∈ [CodePoint.scalar ' '], isBlank c = true := by
  intro c hc
  rw [List.mem_singleton.mp hc]
  rfl

/-- Between two items stands a comma, and then blanks. -/
theorem between_eq (layout : Layout) (level : Nat) :
    ∃ b, between layout level = .scalar ',' :: b ∧ ∀ c ∈ b, isBlank c = true := by
  unfold between
  split
  · exact ⟨[.scalar ' '], rfl, isBlank_space⟩
  · exact ⟨_, rfl, isBlank_newline layout level⟩

/-! ## Items between brackets -/

variable {layout : Layout}

/-- Items that are joined lead from item to item, if a comma leads from what is delivered to what
awaits the next. -/
theorem reads_joined {α : Type} {awaiting delivered : List α → State} {level : Nat}
    (hcomma : ∀ xs place, (delivered xs).step ⟨place, .comma⟩ = .ok (awaiting xs))
    {xs : List α} {ts : List Text}
    (hitems : List.Forall₂
      (fun x t => ∀ before, Reads t (awaiting before) (delivered (before ++ [x]))) xs ts)
    {before : List α} {x : α} (hfirst : Reads t s (delivered (before ++ [x]))) :
    Reads (List.intercalate (between layout level) (t :: ts)) s (delivered (before ++ x :: xs)) := by
  induction hitems generalizing before x t s with
  | nil =>
    rw [List.intercalate_singleton]
    exact hfirst
  | @cons x' t' xs ts hitem _ ih =>
    have hrest := ih (hitem (before ++ [x]))
    rw [List.append_assoc, List.singleton_append] at hrest
    obtain ⟨b, hbetween, hb⟩ := between_eq layout level
    rw [List.intercalate_cons_cons, List.append_assoc]
    rw [hbetween] at hrest ⊢
    refine hfirst.append ?_ fun rest => endsNumber_cons (by decide) _
    exact reads_mark .comma (hcomma (before ++ [x])) (reads_blanks hb hrest)

/-- Items between brackets lead from before the opening bracket to after the closing one. -/
theorem reads_bracketed {α : Type} {awaiting delivered : List α → State} {level : Nat}
    {opening closing : Char} {opens closes : Token} {opened : State} {final : List α → State}
    (hopening : IsMark opening opens) (hclosing : IsMark closing closes)
    (hbracket : closing ∈ [',', ':', ']', '\x7d'])
    (hopen : ∀ place, s.step ⟨place, opens⟩ = .ok opened)
    (hempty : ∀ place, opened.step ⟨place, closes⟩ = .ok (final []))
    (hcomma : ∀ xs place, (delivered xs).step ⟨place, .comma⟩ = .ok (awaiting xs))
    (hclose : ∀ xs place, (delivered xs).step ⟨place, closes⟩ = .ok (final xs))
    {xs : List α} {ts : List Text}
    (hfirst : List.Forall₂ (fun x t => Reads t opened (delivered [x])) xs ts)
    (hitems : List.Forall₂
      (fun x t => ∀ before, Reads t (awaiting before) (delivered (before ++ [x]))) xs ts) :
    Reads (bracketed layout level opening closing ts) s (final xs) := by
  cases hfirst with
  | nil =>
    exact reads_mark hopening hopen (reads_mark hclosing hempty (reads_nil _))
  | @cons x t xs ts hfirst _ =>
    cases hitems with
    | cons _ hitems =>
      have htext : bracketed layout level opening closing (t :: ts) =
          .scalar opening :: (newline layout (level + 1) ++
            (List.intercalate (between layout (level + 1)) (t :: ts) ++
              (newline layout level ++ [.scalar closing]))) := by
        simp only [bracketed, List.isEmpty_cons, Bool.false_eq_true, if_false, List.append_assoc,
          List.cons_append, List.nil_append]
      have hjoined := @reads_joined opened t layout α awaiting delivered (level + 1) hcomma xs ts
        hitems [] x hfirst
      rw [List.nil_append] at hjoined
      rw [htext]
      have hend : Reads (newline layout level ++ [.scalar closing]) (delivered (x :: xs))
          (final (x :: xs)) :=
        reads_blanks (isBlank_newline layout level)
          (reads_mark hclosing (hclose _) (reads_nil _))
      refine reads_mark hopening hopen (reads_blanks (isBlank_newline layout (level + 1))
        (hjoined.append hend fun rest => ?_))
      rw [List.append_assoc]
      exact endsNumber_blanks (isBlank_newline layout level) (endsNumber_cons hbracket _)

/-! ## Values -/

/-- Where a value may begin. -/
def Awaits (expect : Expectation) : Prop := expect = .value ∨ expect = .itemOrEnd

/-- The text of a value delivers the value, as far as the reader may nest. -/
def Delivers (depth : Nat) (v : Value) (t : Text) : Prop :=
  ∀ stack expect, stack.length + depth ≤ nestingLimit → Awaits expect →
    Reads t ⟨stack, expect⟩ (State.deliver v stack)

theorem delivers_plain {depth : Nat} {v : Value} (hscan : Scans t (.plain v)) :
    Delivers depth v t := by
  intro stack expect _ hexpect
  refine reads_token hscan fun place => ?_
  rcases hexpect with rfl | rfl <;> rfl

theorem delivers_string {depth : Nat} {u : Text} (hu : ∀ c ∈ u, IsScalar c) :
    Delivers depth (.text u) (string layout.ascii u) := by
  intro stack expect _ hexpect
  refine reads_token (scans_string layout.ascii hu) fun place => ?_
  rcases hexpect with rfl | rfl <;> rfl

theorem step_open {stack : List Frame} {expect : Expectation} (hexpect : Awaits expect)
    (hstack : stack.length < nestingLimit) (place : Nat) :
    State.step ⟨stack, expect⟩ ⟨place, .openArray⟩ = .ok ⟨.array [] :: stack, .itemOrEnd⟩ ∧
      State.step ⟨stack, expect⟩ ⟨place, .openObject⟩ = .ok ⟨.object [] :: stack, .keyOrEnd⟩ := by
  have henter : ∀ frame what next, State.enter frame what next stack = .ok ⟨frame :: stack, next⟩ :=
    fun _ _ _ => if_neg (Nat.not_le.mpr hstack)
  rcases hexpect with rfl | rfl
  · exact ⟨henter _ _ _, henter _ _ _⟩
  · exact ⟨henter _ _ _, henter _ _ _⟩

theorem delivers_list {depth level : Nat} {items : List Value} {ts : List Text}
    (hitems : List.Forall₂ (Delivers depth) items ts) :
    Delivers (depth + 1) (.list items) (bracketed layout level '[' ']' ts) := by
  intro stack expect hstack hexpect
  have hinner : ∀ before : List Value,
      (Frame.array before :: stack).length + depth ≤ nestingLimit := by
    intro before
    rw [List.length_cons]
    omega
  -- An open array holds its items in reverse, so the items before are turned round.
  refine @reads_bracketed _ layout Value (fun before => ⟨.array before.reverse :: stack, .value⟩)
    (fun before => ⟨.array before.reverse :: stack, .delimiter⟩) level _ _ _ _
    ⟨.array [] :: stack, .itemOrEnd⟩ (fun items => State.deliver (.list items) stack)
    IsMark.openArray IsMark.closeArray (by decide)
    (fun place => (step_open hexpect (by omega) place).1) (fun _ => rfl) (fun _ _ => rfl) ?_
    items ts ?_ ?_
  · intro items place
    show Except.ok (State.deliver (.list items.reverse.reverse) stack) = _
    rw [List.reverse_reverse]
  · exact hitems.imp fun v t hv => hv _ _ (hinner []) (.inr rfl)
  · refine hitems.imp fun v t hv before => ?_
    rw [List.reverse_append]
    exact hv _ _ (hinner _) (.inl rfl)

/-! ## Objects -/

/-- The entries of an object as they are written one after the other. -/
def written (entries : Value.Entries) : Value.Entries :=
  entries.foldl (fun es e => Value.put e.1 e.2 es) []

theorem put_of_not_mem {key : Text} {v : Value} {entries : Value.Entries}
    (hkey : key ∉ entries.map (·.1)) : Value.put key v entries = entries ++ [(key, v)] := by
  induction entries with
  | nil => rfl
  | cons e es ih =>
    rw [List.map_cons, List.mem_cons, not_or] at hkey
    rw [Value.put, if_neg (Ne.symm hkey.1), ih hkey.2, List.cons_append]

theorem written_of_nodup {entries : Value.Entries} (hdistinct : (entries.map (·.1)).Nodup) :
    written entries = entries := by
  induction entries using List.reverseRecOn with
  | nil => rfl
  | append_singleton es e ih =>
    rw [List.map_append, List.nodup_append] at hdistinct
    have hkey : e.1 ∉ es.map (·.1) := fun h =>
      hdistinct.2.2 _ h _ (List.mem_singleton.mpr rfl) rfl
    have hput : written (es ++ [e]) = Value.put e.1 e.2 (written es) := by
      unfold written
      rw [List.foldl_append]
      rfl
    rw [hput, ih hdistinct.1, put_of_not_mem hkey]

/-- Where a key may begin. -/
def AwaitsKey (expect : Expectation) : Prop := expect = .key ∨ expect = .keyOrEnd

/-- A key and its value lead from one entry of an object to the next. -/
theorem reads_entry {depth : Nat} {key : Text} {v : Value} (hkey : ∀ c ∈ key, IsScalar c)
    (hv : Delivers depth v t) {stack : List Frame}
    (hstack : stack.length + 1 + depth ≤ nestingLimit) (entries : Value.Entries)
    {expect : Expectation} (hexpect : AwaitsKey expect) :
    Reads (string layout.ascii key ++ (": " : Text) ++ t) ⟨.object entries :: stack, expect⟩
      ⟨.object (Value.put key v entries) :: stack, .delimiter⟩ := by
  have hname : Reads (string layout.ascii key) ⟨.object entries :: stack, expect⟩
      ⟨.entry entries key :: stack, .colon⟩ := by
    refine reads_token (scans_string layout.ascii hkey) fun place => ?_
    rcases hexpect with rfl | rfl <;> rfl
  have hvalue : Reads t ⟨.entry entries key :: stack, .value⟩
      ⟨.object (Value.put key v entries) :: stack, .delimiter⟩ := hv _ _ hstack (.inl rfl)
  rw [List.append_assoc]
  refine hname.append ?_ fun rest => endsNumber_cons (by decide) _
  exact reads_mark .colon (fun _ => rfl) (reads_blanks isBlank_space hvalue)

/-- The text of an entry, if its key and its value are read back. -/
def EntryText (layout : Layout) (depth : Nat) (e : Text × Value) (t : Text) : Prop :=
  (∀ c ∈ e.1, IsScalar c) ∧ ∃ u, Delivers depth e.2 u ∧ t = string layout.ascii e.1 ++ (": " : Text) ++ u

theorem delivers_object {depth level : Nat} {entries : Value.Entries} {ts : List Text}
    (hdistinct : (entries.map (·.1)).Nodup)
    (hentries : List.Forall₂ (EntryText layout depth) entries ts) :
    Delivers (depth + 1) (.object entries) (bracketed layout level '\x7b' '\x7d' ts) := by
  intro stack expect hstack hexpect
  have hinner : stack.length + 1 + depth ≤ nestingLimit := by omega
  -- What an open object holds is what writing the entries one by one gives; that these are the
  -- entries themselves, because the keys are distinct, is needed only at the closing bracket.
  have hread := @reads_bracketed _ layout (Text × Value)
    (fun before => ⟨.object (written before) :: stack, .key⟩)
    (fun before => ⟨.object (written before) :: stack, .delimiter⟩) level _ _ _ _
    ⟨.object [] :: stack, .keyOrEnd⟩
    (fun entries => State.deliver (.object (written entries)) stack)
    IsMark.openObject IsMark.closeObject (by decide)
    (fun place => (step_open hexpect (by omega) place).2) (fun _ => rfl) (fun _ _ => rfl)
    (fun _ _ => rfl) entries ts ?_ ?_
  · rwa [written_of_nodup hdistinct] at hread
  · refine hentries.imp fun e t he => ?_
    obtain ⟨hkey, u, hu, rfl⟩ := he
    exact reads_entry hkey hu hinner [] (.inr rfl)
  · refine hentries.imp fun e t he before => ?_
    obtain ⟨hkey, u, hu, rfl⟩ := he
    have hput : written (before ++ [e]) = Value.put e.1 e.2 (written before) := by
      unfold written
      rw [List.foldl_append]
      rfl
    rw [hput]
    exact reads_entry hkey hu hinner (written before) (.inl rfl)

/-! ## Whole texts -/

theorem jsonItems_forall {layout : Layout} {level : Nat} {P : Value → Text → Prop}
    {items : List Value} (hitems : ∀ v ∈ items, ∀ t, v.jsonAt layout level = .ok t → P v t)
    {ts : List Text} (hts : Value.jsonItems layout level items = .ok ts) :
    List.Forall₂ P items ts := by
  induction items generalizing ts with
  | nil =>
    cases hts
    exact .nil
  | cons v vs ih =>
    rw [Value.jsonItems] at hts
    obtain ⟨t, ht, hts⟩ := of_bind_ok hts
    obtain ⟨us, hus, hts⟩ := of_bind_ok hts
    cases hts
    exact .cons (hitems v List.mem_cons_self t ht)
      (ih (fun w hw => hitems w (List.mem_cons_of_mem v hw)) hus)

theorem jsonEntries_forall {layout : Layout} {level : Nat} {P : Text × Value → Text → Prop}
    {entries : Value.Entries}
    (hentries : ∀ e ∈ entries, ∀ u, e.2.jsonAt layout level = .ok u →
      P e (string layout.ascii e.1 ++ (": " : Text) ++ u))
    {ts : List Text} (hts : Value.jsonEntries layout level entries = .ok ts) :
    List.Forall₂ P entries ts := by
  induction entries generalizing ts with
  | nil =>
    cases hts
    exact .nil
  | cons e es ih =>
    rw [Value.jsonEntries] at hts
    obtain ⟨u, hu, hts⟩ := of_bind_ok hts
    obtain ⟨us, hus, hts⟩ := of_bind_ok hts
    cases hts
    exact .cons (hentries e List.mem_cons_self u hu)
      (ih (fun f hf => hentries f (List.mem_cons_of_mem e hf)) hus)

/-- **The text of a value delivers the value.** -/
theorem reads_value {depth : Nat} {v : Value} (hv : Writable depth v) {level : Nat} {t : Text}
    (ht : v.jsonAt layout level = .ok t) : Delivers depth v t := by
  induction hv generalizing level t with
  | null =>
    cases ht
    exact delivers_plain scans_null
  | bool b =>
    cases ht
    exact delivers_plain (scans_bool b)
  | int _ => exact delivers_plain (scans_int ht)
  | float x =>
    cases ht
    exact delivers_plain (scans_float x)
  | text hu =>
    cases ht
    exact delivers_string hu
  | list _ ih =>
    rw [Value.jsonAt] at ht
    obtain ⟨ts, hts, ht⟩ := of_bind_ok ht
    cases ht
    exact delivers_list (jsonItems_forall (fun v hv t ht => ih v hv ht) hts)
  | object hkeys hdistinct _ ih =>
    rw [Value.jsonAt] at ht
    obtain ⟨ts, hts, ht⟩ := of_bind_ok ht
    cases ht
    refine delivers_object hdistinct (jsonEntries_forall (fun e he u hu => ?_) hts)
    exact ⟨hkeys e he, u, ih e he hu, rfl⟩

theorem exists_jsonItems {layout : Layout} {level : Nat} {items : List Value}
    (hitems : ∀ v ∈ items, ∃ t, v.jsonAt layout level = .ok t) :
    ∃ ts, Value.jsonItems layout level items = .ok ts := by
  induction items with
  | nil => exact ⟨[], rfl⟩
  | cons v vs ih =>
    obtain ⟨t, ht⟩ := hitems v List.mem_cons_self
    obtain ⟨ts, hts⟩ := ih fun w hw => hitems w (List.mem_cons_of_mem v hw)
    refine ⟨t :: ts, ?_⟩
    rw [Value.jsonItems, ht, hts]
    rfl

theorem exists_jsonEntries {layout : Layout} {level : Nat} {entries : Value.Entries}
    (hentries : ∀ e ∈ entries, ∃ t, e.2.jsonAt layout level = .ok t) :
    ∃ ts, Value.jsonEntries layout level entries = .ok ts := by
  induction entries with
  | nil => exact ⟨[], rfl⟩
  | cons e es ih =>
    obtain ⟨t, ht⟩ := hentries e List.mem_cons_self
    obtain ⟨ts, hts⟩ := ih fun f hf => hentries f (List.mem_cons_of_mem e hf)
    refine ⟨(string layout.ascii e.1 ++ (": " : Text) ++ t) :: ts, ?_⟩
    rw [Value.jsonEntries, ht, hts]
    rfl

/-- Such a value has a text, in every layout. -/
theorem exists_jsonAt (layout : Layout) {depth : Nat} {v : Value} (hv : Writable depth v)
    (level : Nat) : ∃ t, v.jsonAt layout level = .ok t := by
  induction hv generalizing level with
  | null => exact ⟨_, rfl⟩
  | bool b => exact ⟨_, rfl⟩
  | @int _ n hn => exact ⟨Numeral.ofIntUnlimited n, if_neg (Nat.not_lt.mpr hn)⟩
  | float _ => exact ⟨_, rfl⟩
  | text _ => exact ⟨_, rfl⟩
  | @list _ items _ ih =>
    obtain ⟨ts, hts⟩ := exists_jsonItems fun v hv => ih v hv (level + 1)
    refine ⟨bracketed layout level '[' ']' ts, ?_⟩
    rw [Value.jsonAt, hts]
    rfl
  | @object _ entries _ _ _ ih =>
    obtain ⟨ts, hts⟩ := exists_jsonEntries fun e he => ih e he (level + 1)
    refine ⟨bracketed layout level '\x7b' '\x7d' ts, ?_⟩
    rw [Value.jsonAt, hts]
    rfl

/-- **The text of such a value is read as the value**, whatever blanks follow. -/
theorem readUnmarked_json {depth : Nat} (hdepth : depth ≤ nestingLimit) {v : Value}
    (hv : Writable depth v) (ht : v.json layout = .ok t) {b : Text}
    (hb : ∀ c ∈ b, isBlank c = true) : readUnmarked (t ++ b) = .ok v := by
  have hends : EndsNumber [] := fun c hc => by cases hc
  have hread := reads_value hv ht [] .value (by rwa [List.length_nil, Nat.zero_add]) (.inl rfl) 0 b
    (by simpa using endsNumber_blanks hb hends)
  have hblanks := reads_blanks hb (reads_nil (State.deliver v [])) (0 + t.length) [] hends
  rw [List.append_nil, List.append_nil] at hblanks
  unfold readUnmarked tokens
  rw [State.start, hread, hblanks]
  rfl

end Winnow.Json
