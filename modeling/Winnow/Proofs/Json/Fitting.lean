import Winnow.Json.Reader
import Winnow.Proofs.Json.Reading
import Winnow.Proofs.Numeral.Reading
import Winnow.Proofs.Value.Entries

/-!
# What the reader of JSON texts can give

The reader refuses an integer with more digits than are converted, and a text that opens too many
arrays and objects.  Of entries with one key it keeps the last.  So what it gives nests no deeper
than the reader may, all integers in it are short, and the keys of its objects are distinct.

* `Json.Fits` : the values of this form, by the number of levels that they nest at most;
* `Json.scanToken_fits` : every scanned value is one of them;
* `Json.State.step_fits` : so is all that the reader holds, token by token;
* `Json.read_fits` : and so is the value of a text.
-/

namespace Winnow.Json

open Outcome

/-- A value as a JSON text holds it.  It nests no deeper than so many levels, its integers have no
more digits than are converted, and the keys of its objects are distinct. -/
inductive Fits : Nat → Value → Prop
  | null {depth : Nat} : Fits depth .null
  | bool {depth : Nat} (b : Bool) : Fits depth (.bool b)
  | int {depth : Nat} {n : Int} (hn : (Numeral.digits n.natAbs).length ≤ Numeral.digitLimit) :
    Fits depth (.int n)
  | float {depth : Nat} (x : Binary64) : Fits depth (.float x)
  | text {depth : Nat} (t : Text) : Fits depth (.text t)
  | list {depth : Nat} {items : List Value} (hitems : ∀ v ∈ items, Fits depth v) :
    Fits (depth + 1) (.list items)
  | object {depth : Nat} {entries : Value.Entries} (hdistinct : (entries.map (·.1)).Nodup)
    (hvalues : ∀ e ∈ entries, Fits depth e.2) : Fits (depth + 1) (.object entries)

theorem Fits.mono {depth depth' : Nat} {v : Value} (h : Fits depth v) (hle : depth ≤ depth') :
    Fits depth' v := by
  induction h generalizing depth' with
  | null => exact .null
  | bool b => exact .bool b
  | int hn => exact .int hn
  | float x => exact .float x
  | text t => exact .text t
  | list _ ih =>
    obtain ⟨k, rfl⟩ := Nat.exists_eq_add_of_lt hle
    exact .list fun v hv => ih v hv (by omega)
  | object hdistinct _ ih =>
    obtain ⟨k, rfl⟩ := Nat.exists_eq_add_of_lt hle
    exact .object hdistinct fun e he => ih e he (by omega)

/-- Some items of a list make a list as a JSON text holds it. -/
theorem Fits.of_subset {depth : Nat} {items others : List Value} (h : Fits depth (.list items))
    (hsub : others ⊆ items) : Fits depth (.list others) := by
  cases h with
  | list hitems => exact .list fun v hv => hitems v (hsub hv)

/-! ## Numerals -/

theorem isDigit_of_mem_wholePart {t : Text} {c : CodePoint} (hc : c ∈ wholePart t) :
    isDigit c = true := by
  unfold wholePart at hc
  split at hc
  · rw [List.mem_singleton.mp hc]
    decide
  · exact List.mem_takeWhile_imp hc

/-- The integer of a run of digits has no more digits than the run. -/
theorem length_digits_wholeValue {ds : Text} (hds : ∀ c ∈ ds, isDigit c = true) (hne : ds ≠ []) :
    (Numeral.digits (wholeValue ds)).length ≤ ds.length := by
  have hsmall : ∀ d ∈ ds.map (fun c => c.toNat - 0x30), d < 10 := by
    intro d hd
    obtain ⟨c, hc, rfl⟩ := List.mem_map.mp hd
    have hdigit := hds c hc
    simp only [isDigit, Bool.and_eq_true, decide_eq_true_eq] at hdigit
    omega
  have hbound := Numeral.length_digits_valueOf hsmall (by simpa using hne)
  rwa [List.length_map] at hbound

/-! ## Tokens -/

/-- The value of a token fits anywhere. -/
def Token.Fits : Token → Prop
  | .plain v => ∀ depth, Json.Fits depth v
  | _ => True

theorem scanNumber_fits (t : Text) : (scanNumber t).1.Fits := by
  simp only [scanNumber]
  generalize (if t.head? = some (.scalar '-') then [CodePoint.scalar '-'] else []) = minus
  by_cases hempty : (wholePart (t.drop minus.length)).isEmpty = true
  · rw [if_pos hempty]
    trivial
  · rw [if_neg hempty]
    split
    · split
      · trivial
      · have hlength := length_digits_wholeValue (fun c hc => isDigit_of_mem_wholePart hc)
          (by simpa using hempty)
        refine fun depth => Json.Fits.int ?_
        split <;> simp only [Int.natAbs_neg, Int.natAbs_natCast] <;> omega
    · exact fun depth => Json.Fits.float _

theorem words_fit {w : Text × Value} (hw : w ∈ words) (depth : Nat) : Fits depth w.2 := by
  simp only [words, List.mem_cons, List.not_mem_nil, or_false] at hw
  rcases hw with rfl | rfl | rfl | rfl | rfl | rfl <;> constructor

/-- **The value of a scanned token fits.** -/
theorem scanToken_fits (t : Text) : (scanToken t).1.Fits := by
  unfold scanToken
  split
  iterate 7 exact trivial
  · split
    · trivial
    · trivial
  · split
    · rename_i w hw
      exact words_fit (List.mem_of_find?_eq_some hw)
    · exact scanNumber_fits t

theorem tokensFrom_fit (place skip : Nat) (t : Text) :
    ∀ p ∈ tokensFrom place skip t, p.token.Fits := by
  induction t generalizing place skip with
  | nil => simp [tokensFrom, Token.Fits]
  | cons c cs ih =>
    cases skip with
    | succ skip => exact ih (place + 1) skip
    | zero =>
      have hscan := scanToken_fits (c :: cs)
      simp only [tokensFrom]
      split
      · exact ih (place + 1) 0
      · split
        · rename_i token n htoken
          rw [htoken] at hscan
          intro p hp
          rcases List.mem_cons.mp hp with rfl | hp
          · exact hscan
          · exact ih _ _ p hp
        · rename_i token htoken
          rw [htoken] at hscan
          simpa using hscan

/-! ## The reader -/

/-- What an open array or object holds so far nests no deeper than so many levels. -/
def Frame.Fits (depth : Nat) : Frame → Prop
  | .array items => ∀ v ∈ items, Json.Fits depth v
  | .object entries | .entry entries _ =>
    (entries.map (·.1)).Nodup ∧ ∀ e ∈ entries, Json.Fits depth e.2

/-- The open arrays and objects leave room for each other: the more there are around one, the less
deep is what it holds. -/
inductive StackFits : List Frame → Prop
  | nil : StackFits []
  | cons {f : Frame} {fs : List Frame} {depth : Nat} (hdepth : depth + fs.length + 1 = nestingLimit)
    (hf : f.Fits depth) (hfs : StackFits fs) : StackFits (f :: fs)

/-- What the reader holds fits. -/
structure State.Fits (s : State) : Prop where
  stack : StackFits s.stack
  result : ∀ v, s.expect = .nothing v → Json.Fits nestingLimit v

/-- There is room for a value within what is open. -/
theorem StackFits.room {stack : List Frame} (h : StackFits stack) :
    ∃ depth, depth + stack.length = nestingLimit := by
  cases h with
  | nil => exact ⟨nestingLimit, rfl⟩
  | cons hdepth => exact ⟨_, hdepth⟩

namespace State

variable {s s' : State} {stack : List Frame} {p : Placed}

theorem fits_mk {expect : Expectation} (hstack : StackFits stack)
    (hexpect : ∀ v, expect ≠ .nothing v) : (State.mk stack expect).Fits :=
  ⟨hstack, fun v hv => absurd hv (hexpect v)⟩

/-- A value is delivered to where there is room for it. -/
theorem deliver_fits {v : Value} {depth : Nat} (hdepth : depth + stack.length = nestingLimit)
    (hv : Json.Fits depth v) (hstack : StackFits stack) : (deliver v stack).Fits := by
  cases hstack with
  | nil =>
    refine ⟨.nil, ?_⟩
    rintro _ ⟨⟩
    exact hdepth ▸ hv
  | @cons f fs inner hinner hf hfs =>
    have hroom : depth = inner := by
      rw [List.length_cons] at hdepth
      omega
    subst hroom
    cases f with
    | array items => exact fits_mk (.cons hinner (List.forall_mem_cons.mpr ⟨hv, hf⟩) hfs) nofun
    | object entries => exact fits_mk (.cons hinner hf hfs) nofun
    | entry entries key =>
      refine fits_mk (.cons hinner ⟨Value.nodup_put hf.1 key v, fun e he => ?_⟩ hfs) nofun
      rcases Value.mem_put he with rfl | he
      · exact hv
      · exact hf.2 e he

theorem enter_fits {frame : Frame} {what : Text} {expect : Expectation}
    (hframe : ∀ depth, frame.Fits depth) (hexpect : ∀ v, expect ≠ .nothing v)
    (hstack : StackFits stack) (h : enter frame what expect stack = .ok s') : s'.Fits := by
  unfold enter at h
  split at h
  · cases h
  · rename_i hlimit
    cases h
    have hdepth : nestingLimit - stack.length - 1 + stack.length + 1 = nestingLimit := by omega
    exact fits_mk (.cons hdepth (hframe _) hstack) hexpect

/-- The end of an array delivers it. -/
theorem closeArray_fits {items : List Value} (hstack : StackFits (.array items :: stack)) :
    (deliver (.list items.reverse) stack).Fits := by
  cases hstack with
  | cons hdepth hitems hstack =>
    exact deliver_fits (by omega) (.list fun v hv => hitems v (List.mem_reverse.mp hv)) hstack

/-- The end of an object delivers it. -/
theorem closeObject_fits {entries : Value.Entries} (hstack : StackFits (.object entries :: stack)) :
    (deliver (.object entries) stack).Fits := by
  cases hstack with
  | cons hdepth hentries hstack =>
    exact deliver_fits (by omega) (.object hentries.1 hentries.2) hstack

theorem takeValue_fits (hp : p.token.Fits) (hstack : StackFits stack)
    (h : takeValue stack p = .ok s') : s'.Fits := by
  obtain ⟨depth, hdepth⟩ := hstack.room
  unfold takeValue at h
  split at h
  · rename_i v htoken
    cases h
    rw [htoken] at hp
    exact deliver_fits hdepth (hp depth) hstack
  · cases h
    exact deliver_fits hdepth (.text _) hstack
  · have hempty : ∀ depth, (Frame.array []).Fits depth := fun _ => List.forall_mem_nil _
    exact enter_fits hempty (by simp) hstack h
  · have hempty : ∀ depth, (Frame.object []).Fits depth :=
      fun _ => ⟨List.nodup_nil, List.forall_mem_nil _⟩
    exact enter_fits hempty (by simp) hstack h
  all_goals cases h

theorem takeKey_fits (hstack : StackFits stack) (h : takeKey stack p = .ok s') : s'.Fits := by
  unfold takeKey at h
  split at h
  · cases h
    cases hstack with
    | cons hdepth hentries hstack => exact fits_mk (.cons hdepth hentries hstack) nofun
  all_goals cases h

theorem takeDelimiter_fits (hstack : StackFits stack) (h : takeDelimiter stack p = .ok s') :
    s'.Fits := by
  unfold takeDelimiter at h
  split at h
  · cases h
    exact fits_mk hstack nofun
  · cases h
    exact fits_mk hstack nofun
  · cases h
    exact closeArray_fits hstack
  · cases h
    exact closeObject_fits hstack
  · cases h

/-- **The reader keeps to what fits**, token by token. -/
theorem step_fits (hp : p.token.Fits) (hs : s.Fits) (h : s.step p = .ok s') : s'.Fits := by
  have hstack := hs.stack
  unfold step at h
  split at h
  · exact takeValue_fits hp hstack h
  · split at h
    · rename_i items rest _ hopen
      cases h
      rw [hopen] at hstack
      exact closeArray_fits hstack
    · exact takeValue_fits hp hstack h
  · exact takeKey_fits hstack h
  · split at h
    · rename_i entries rest _ hopen
      cases h
      rw [hopen] at hstack
      exact closeObject_fits hstack
    · exact takeKey_fits hstack h
  · split at h
    · cases h
      exact fits_mk hstack nofun
    · cases h
  · exact takeDelimiter_fits hstack h
  · split at h
    · cases h
      exact hs
    · cases h

end State

/-! ## Texts -/

/-- The value of a text that is read fits. -/
theorem readUnmarked_fits {t : Text} {v : Value} (h : readUnmarked t = .ok v) :
    Fits nestingLimit v := by
  unfold readUnmarked at h
  split at h
  · cases h
  · rename_i stack u hread
    cases h
    have hstart : State.start.Fits := State.fits_mk .nil nofun
    have htokens := tokensFrom_fit 0 0 t
    have hend := of_foldlM_ok (P := State.Fits)
      (fun p hp _ _ hs hstep => State.step_fits (htokens p hp) hs hstep) hstart hread
    exact hend.result v rfl
  · cases h

theorem read_fits {t : Text} {v : Value} (h : read t = .ok v) : Fits nestingLimit v := by
  unfold read at h
  split at h
  · cases h
  · exact readUnmarked_fits h

end Winnow.Json
