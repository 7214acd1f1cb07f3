import Mathlib.Data.List.Flatten
import Winnow.Proofs.Store.Leftovers
import Winnow.Proofs.Text.Splitting

/-!
# Files by the texts that name them

The text that names a file is walked along as it is, while its path leaves out points and doubled
slashes.  Both lead to the same place, so a file that is found by a text is read by the path of the
text.  Appending to a file makes no folder and changes no other file.

* `Folder.place_ofText` : what is found by a text is at the place of its path;
* `Folder.HasFile` : a text names a file with some content;
* `Folder.HasFile.read`, `Folder.HasFile.load` : the file is read, and loaded by a store;
* `Folder.Keeps`, `Folder.append_keeps` : appending nothing to a file leaves all that is there;
* `Folder.append_again` : and then something can be appended.
-/

namespace Winnow

namespace Path

/-! ## The path of a text -/

/-- The names on the way along a text, without those that stay where they are. -/
def namesOf (t : Text) : List Text := (Text.splitOn root t).filter fun name => !isIdle name

theorem ofText_eq (t : Text) : ofText t = start t ++ namesOf t := rfl

theorem ne_root_of_mem {t name : Text} (h : name ∈ namesOf t) : name ≠ root := by
  rintro rfl
  exact Text.not_mem_of_mem_splitOn (List.mem_of_mem_filter h) List.mem_cons_self

/-- The way along the path of a text begins where that along the text begins. -/
theorem way_ofText (t : Text) : Folder.way (ofText t) = (start t, namesOf t) := by
  rw [ofText_eq, start]
  split
  · rfl
  · cases hnames : namesOf t with
    | nil => rfl
    | cons name names =>
      have hname : name ≠ root := ne_root_of_mem (hnames ▸ List.mem_cons_self)
      rw [List.nil_append, Folder.way, if_neg hname]

/-- The text of the path of a text is a part of the text, or a point. -/
theorem text_ofText (t : Text) : text (ofText t) = "." ∨ (text (ofText t)).Sublist t := by
  have joined : ∀ t, (List.intercalate root (namesOf t)).Sublist t := fun t => by
    have hsub := Text.sublist_intercalate root (List.filter_sublist (l := Text.splitOn root t)
      (p := fun name => !isIdle name))
    rwa [show root = [CodePoint.scalar '/'] from rfl, Text.intercalate_splitOn] at hsub
  rw [ofText_eq, start]
  split
  · rename_i hroot
    obtain ⟨rest, rfl⟩ := List.isPrefixOf_iff_prefix.mp hroot
    refine .inr ?_
    have hnames : namesOf (root ++ rest) = namesOf rest := by
      have hpieces : Text.splitOn root (root ++ rest) = [] :: Text.splitOn root rest := by
        rw [show root = [CodePoint.scalar '/'] from rfl, Text.splitOn_singleton,
          Text.splitOn_singleton, List.singleton_append, List.splitOn_cons_eq_if_modifyHead,
          if_pos (beq_self_eq_true _)]
      rw [namesOf, hpieces]
      rfl
    rw [hnames]
    exact (List.Sublist.refl root).append (joined rest)
  · cases hnames : namesOf t with
    | nil => exact .inl rfl
    | cons name names =>
      have hname : name ≠ root := ne_root_of_mem (hnames ▸ List.mem_cons_self)
      have hjoined := joined t
      rw [hnames] at hjoined
      rw [List.nil_append, text, if_neg hname]
      exact .inr hjoined

end Path

namespace Folder

variable {f g : Folder} {t : Text} {n : Node} {p place : Path} {content : Bytes}

/-- A part of a text that can be that of a path can be one. -/
theorem checkText_of_sublist {u : Text} (hsub : u.Sublist t) (h : checkText t = .ok ()) :
    checkText u = .ok () := by
  obtain ⟨hname, hnul, hlength⟩ := checkText_iff.mp h
  refine checkText_iff.mpr ⟨?_, ?_, ?_⟩
  · exact List.all_eq_true.mpr fun c hc => List.all_eq_true.mp hname c (hsub.subset hc)
  · rw [Bool.eq_false_iff, ne_eq, List.contains_iff_mem] at hnul ⊢
    exact fun hmem => hnul (hsub.subset hmem)
  · exact Nat.le_trans (hsub.flatMap _).length_le hlength

/-- The way along names leads to where it leads without those that stay where they are. -/
theorem walk_filter {names : List Text} {q : Path} (h : f.walk place names = .ok q) :
    f.walk place (names.filter fun name => !Path.isIdle name) = .ok q := by
  induction names generalizing place with
  | nil => exact h
  | cons name names ih =>
    obtain ⟨hfolder, hlong, hrest⟩ := walk_cons_iff.mp h
    cases hidle : Path.isIdle name with
    | true =>
      have hstays : place.move name.onDisk = place := by
        rw [Path.isIdle, Bool.or_eq_true, decide_eq_true_eq, decide_eq_true_eq] at hidle
        rcases hidle with rfl | rfl <;> rfl
      rw [List.filter_cons_of_neg (by rw [hidle]; decide)]
      exact ih (hstays ▸ hrest)
    | false =>
      rw [List.filter_cons_of_pos (by rw [hidle]; rfl)]
      exact walk_cons_iff.mpr ⟨hfolder, hlong, ih hrest⟩

/-- A text finds what is at the place to which it leads. -/
theorem find_eq_some_iff : f.find t = .ok (some n) ↔ checkText t = .ok () ∧ t ≠ [] ∧
    ∃ place, f.walk (Path.start t) (Text.splitOn Path.root t) = .ok place ∧
      f.node? place = some n := by
  unfold find nodeUnless
  constructor
  · intro h
    split at h
    · rename_i place hplace
      obtain ⟨⟨⟩, hcheck, hwalk⟩ := Outcome.of_bind_ok hplace
      split at hwalk
      · cases hwalk
      · rename_i hne
        exact ⟨hcheck, hne, place, hwalk, Except.ok.inj h⟩
    · split at h <;> cases h
  · rintro ⟨hcheck, hne, place, hwalk, hnode⟩
    simp only [hcheck, if_neg hne, hwalk, bind, Except.bind, hnode]

/-- **What is found by a text is at the place of its path.** -/
theorem place_ofText (h : f.find t = .ok (some n)) :
    ∃ place, f.place (Path.ofText t) = .ok place ∧ f.node? place = some n := by
  obtain ⟨hcheck, -, place, hwalk, hnode⟩ := find_eq_some_iff.mp h
  refine ⟨place, place_eq_ok_iff.mpr ⟨?_, ?_⟩, hnode⟩
  · rcases Path.text_ofText t with hpoint | hsub
    · rw [hpoint]
      rfl
    · exact checkText_of_sublist hsub hcheck
  · rw [Path.way_ofText]
    exact walk_filter hwalk

/-! ## Files with a name -/

/-- A text names a file with some content. -/
def HasFile (f : Folder) (t : Text) (content : Bytes) : Prop :=
  ∃ n, f.find t = .ok (some n) ∧ n.content? = some content

/-- **A file that a text names is read** by the path of the text. -/
theorem HasFile.read (h : f.HasFile t content) : f.read (Path.ofText t) = .ok content := by
  obtain ⟨n, hfind, hcontent⟩ := h
  obtain ⟨place, hplace, hnode⟩ := place_ofText hfind
  unfold Folder.read
  simp only [hplace, bind, Except.bind, hnode, hcontent]
  rfl

/-- A store on that path loads it. -/
theorem HasFile.load (h : f.HasFile t content) :
    FileStore.load ⟨Path.ofText t⟩ f = .ok (some content) := by
  obtain ⟨n, hfind, hcontent⟩ := h
  obtain ⟨place, hplace, hnode⟩ := place_ofText hfind
  unfold FileStore.load
  rw [at?_of_place hplace, hnode]
  simp only [hcontent]

/-! ## Appending -/

/-- The folders are the same ones, and what was there is there. -/
structure Keeps (f g : Folder) : Prop where
  folders : ∀ q, g.hasFolder q = f.hasFolder q
  nodes : ∀ q n, f.node? q = some n → g.node? q = some n

theorem HasFile.of_keeps (h : f.HasFile t content) (hkeeps : Keeps f g) :
    g.HasFile t content := by
  obtain ⟨n, hfind, hcontent⟩ := h
  obtain ⟨hcheck, hne, place, hwalk, hnode⟩ := find_eq_some_iff.mp hfind
  have hwalk' := walk_mono (fun p hp => (hkeeps.folders p).trans hp) hwalk
  exact ⟨n, find_eq_some_iff.mpr ⟨hcheck, hne, place, hwalk', hkeeps.nodes place n hnode⟩, hcontent⟩

/-- A path leads to the root, to the working folder, or into a folder. -/
theorem exists_folder_of_place (hplace : f.place p = .ok place) (hfree : f.hasFolder place = false) :
    ∃ r name, place = r ++ [name] ∧ f.hasFolder r = true := by
  obtain ⟨-, hwalk⟩ := place_eq_ok_iff.mp hplace
  rcases List.eq_nil_or_concat' (way p).2 with hnames | ⟨names, name, hnames⟩
  · -- Where there are no names on the way, it stays where it begins.
    rw [hnames] at hwalk
    obtain rfl := Except.ok.inj hwalk
    have hstart : f.hasFolder (way p).1 = true := by
      cases p with
      | nil => rfl
      | cons name names =>
        rw [way]
        split
        · rename_i hroot
          rw [hroot]
          rfl
        · rfl
    rw [hstart] at hfree
    cases hfree
  · rw [hnames] at hwalk
    obtain ⟨r, -, hr, -, rfl⟩ := walk_concat_iff.mp hwalk
    exact ⟨r, _, move_of_not_hasFolder hr hfree, hr⟩

theorem read_ok (h : f.read p = .ok content) :
    ∃ place n, f.place p = .ok place ∧ f.node? place = some n ∧ n.content? = some content := by
  obtain ⟨place, hplace, h⟩ := Outcome.of_bind_ok h
  split at h
  · rename_i n hnode
    split at h
    · rename_i held hheld
      cases h
      exact ⟨place, n, hplace, hnode, hheld⟩
    · cases h
  · cases h

theorem read_missing (h : f.read p = .error .missing) (hplace : f.place p = .ok place) :
    f.node? place = none := by
  unfold Folder.read at h
  simp only [hplace, bind, Except.bind] at h
  split at h
  · split at h <;> cases h
  · assumption

/-- What writing does: nothing to a sink, and otherwise a file is put at its place. -/
theorem write_ok (h : f.write p content = .ok g) : ∃ place, f.place p = .ok place ∧
    f.hasFolder place = false ∧
      (f.node? place = some .sink ∧ g = f ∨
        f.node? place ≠ some .sink ∧ g = f.put place (.file content)) := by
  obtain ⟨place, hplace, h⟩ := Outcome.of_bind_ok h
  have hfree : f.hasFolder place = true → False := fun hfolder => by
    rw [node?_eq_folder_iff.mpr hfolder] at h
    cases h
  refine ⟨place, hplace, Bool.eq_false_iff.mpr hfree, ?_⟩
  split at h
  · cases h
  · rename_i hsink
    exact .inl ⟨hsink, (Except.ok.inj h).symm⟩
  · rename_i hkept
    exact .inr ⟨hkept, (Except.ok.inj h).symm⟩

/-- What appending does: nothing to a sink; otherwise a file is put at its place, where there was
nothing, or a file with what stands first in it. -/
theorem append_ok (h : f.append p content = .ok g) : ∃ place, f.place p = .ok place ∧
    f.hasFolder place = false ∧
      (f.node? place = some .sink ∧ g = f ∨
        ∃ old, (f.node? place = some (.file old) ∨ f.node? place = none ∧ old = []) ∧
          g = f.put place (.file (old ++ content))) := by
  unfold append at h
  split at h
  · rename_i old hread
    obtain ⟨place, hplace, hfree, hcases⟩ := write_ok h
    obtain ⟨place', n, hplace', hnode, hheld⟩ := read_ok hread
    obtain rfl := Except.ok.inj (hplace.symm.trans hplace')
    refine ⟨place, hplace, hfree, hcases.imp id ?_⟩
    rintro ⟨hkept, rfl⟩
    refine ⟨old, .inl ?_, rfl⟩
    cases n with
    | file held => rw [hnode, Option.some.inj hheld]
    | folder => cases hheld
    | sink => exact absurd hnode hkept
  · rename_i hread
    obtain ⟨place, hplace, hfree, hcases⟩ := write_ok h
    have hnone := read_missing hread hplace
    refine ⟨place, hplace, hfree, hcases.imp id ?_⟩
    rintro ⟨-, rfl⟩
    exact ⟨[], .inr ⟨hnone, rfl⟩, rfl⟩
  · cases h

/-- A file that is put in the place of one with the same content, or of nothing, leaves all that is
there. -/
theorem keeps_put_file (hplace : f.place p = .ok place) (hfree : f.hasFolder place = false)
    (hold : f.node? place = some (.file content) ∨ f.node? place = none) :
    Keeps f (f.put place (.file content)) := by
  obtain ⟨r, name, rfl, hr⟩ := exists_folder_of_place hplace hfree
  have hfolders := hasFolder_put_file hr hfree content
  refine ⟨hfolders, fun q n hq => ?_⟩
  by_cases hsame : q = r ++ [name]
  · subst hsame
    rw [node?_of_not_hasFolder ((hfolders _).trans hfree), lookup_put, if_pos rfl]
    rcases hold with hold | hold
    · rw [← hold, hq]
    · rw [hold] at hq
      cases hq
  · have hnode : (f.put (r ++ [name]) (.file content)).node? q = f.node? q := by
      unfold node?
      rw [hfolders q, lookup_put, if_neg hsame]
    rw [hnode, hq]

/-- **Appending nothing leaves all that is there.** -/
theorem append_keeps (h : f.append p [] = .ok g) : Keeps f g := by
  obtain ⟨place, hplace, hfree, ⟨-, rfl⟩ | ⟨old, hold, rfl⟩⟩ := append_ok h
  · exact ⟨fun _ => rfl, fun _ _ => id⟩
  · rw [List.append_nil]
    exact keeps_put_file hplace hfree (hold.imp_right And.left)

/-- **Where nothing could be appended, something can be.** -/
theorem append_again (h : f.append p [] = .ok g) (content : Bytes) :
    ∃ after, g.append p content = .ok after := by
  have hkeeps := append_keeps h
  obtain ⟨place, hplace, hfree, hcases⟩ := append_ok h
  have hplace' := place_mono (fun q hq => (hkeeps.folders q).trans hq) hplace
  have hfree' := (hkeeps.folders place).trans hfree
  -- After the first time there is a sink, or the file that was put there.
  obtain ⟨n, held, hnode, hheld, hwrite⟩ : ∃ n held, g.node? place = some n ∧
      n.content? = some held ∧ ∃ after, g.write p (held ++ content) = .ok after := by
    rcases hcases with ⟨hsink, rfl⟩ | ⟨old, -, hput⟩
    · refine ⟨.sink, [], hsink, rfl, g, ?_⟩
      unfold write
      simp only [hplace, bind, Except.bind, hsink]
      rfl
    · have hnode : g.node? place = some (.file (old ++ [])) := by
        rw [node?_of_not_hasFolder hfree', hput, lookup_put, if_pos rfl]
      exact ⟨_, _, hnode, rfl, _, write_of_place hplace' hfree' (by rw [hnode]; nofun) _⟩
  obtain ⟨after, hafter⟩ := hwrite
  refine ⟨after, ?_⟩
  have hread : g.read p = .ok held := by
    unfold Folder.read
    simp only [hplace', bind, Except.bind, hnode, hheld]
    rfl
  unfold append
  rw [hread]
  exact hafter

end Folder

end Winnow
