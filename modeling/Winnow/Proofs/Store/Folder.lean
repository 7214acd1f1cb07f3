import Winnow.Proofs.Outcome
import Winnow.Proofs.Text.Utf8
import Winnow.Store.Folder

/-!
# Places of files and folders

A path leads to a place by way of folders, so where it leads depends on nothing but which places are
folders.  A file that is put into a folder, or taken out of one with another file in it, makes no
difference to that.  Folders are made only at places where there is nothing, so files stay as they
are.

* `Folder.Shows`, `Folder.hasFolder_iff`, `Folder.hasFolder_mono` : what shows that a folder is there;
* `Folder.node?_eq_folder_iff`, `Folder.hasFolder_around` : what is a folder, and what is around
  one;
* `Folder.walk_mono`, `Folder.walk_concat_iff`, `Folder.place_mono` : the way along names;
* `Folder.lookup_put`, `Folder.lookup_erase`, `Folder.file?_put`, `Folder.file?_erase` : what is at a
  place, and the files, after a change of one place;
* `Folder.hasFolder_put_file`, `Folder.hasFolder_erase` : the folders after such a change;
* `Folder.Extends`, `Folder.makeFolders_extends` : folders are made where there was nothing;
* `Folder.read_of_place`, `Folder.write_of_place`, `Folder.rename_of_place` : files by their places.
-/

namespace Winnow

namespace Path

/-! ## Paths -/

theorem move_eq_append {place : Path} {name : Text} (hidle : isIdle name = false)
    (hback : name ≠ back) : place.move name = place ++ [name] := by
  unfold move
  rw [if_neg (by rw [hidle]; decide), if_pos (.inl hback)]

/-- The name that steps back has no other spelling on disk. -/
theorem eq_back_of_onDisk {name : Text} (hname : name.isFileName = true) (h : name.onDisk = back) :
    name = back := by
  refine Text.eq_of_onDisk hname h fun b hb => ?_
  have hbytes : Text.nameBytes back = [0x2E, 0x2E] := rfl
  rw [hbytes, List.mem_cons, List.mem_singleton, or_self] at hb
  rw [hb]
  decide

theorem isOutside_around {p q : Path} (h : p <+: q) (hq : q.isOutside = true) :
    p.isOutside = true :=
  List.all_eq_true.mpr fun name hname => List.all_eq_true.mp hq name (h.subset hname)

end Path

namespace Folder

variable {f g : Folder} {p q : Path} {n : Node} {e : Path × Node}

/-! ## What is at a place -/

theorem lookup_eq_some (h : f.nodes.lookup p = some n) : (p, n) ∈ f.nodes := by
  obtain ⟨before, after, hsplit, -⟩ := List.lookup_eq_some_iff.mp h
  rw [hsplit]
  exact List.mem_append_right _ List.mem_cons_self

/-- What is at some place shows that there is a folder at another one: it is that folder, or it is
inside of it. -/
def Shows (e : Path × Node) (q : Path) : Prop := e = (q, .folder) ∨ q <+: e.1 ∧ e.1 ≠ q

theorem hasFolder_iff : f.hasFolder p = true ↔
    p.isOutside = true ∨ p = [Path.root] ∨ ∃ e ∈ f.nodes, Shows e p := by
  unfold hasFolder Shows
  simp only [Bool.or_eq_true, decide_eq_true_eq, List.any_eq_true, Bool.and_eq_true, beq_iff_eq,
    bne_iff_ne, List.isPrefixOf_iff_prefix, or_assoc, Prod.ext_iff]

theorem hasFolder_of_shows (hmem : e ∈ f.nodes) (h : Shows e p) : f.hasFolder p = true :=
  hasFolder_iff.mpr (.inr (.inr ⟨e, hmem, h⟩))

/-- A folder that holds something is there. -/
theorem hasFolder_of_child {name : Text} (h : (p ++ [name], n) ∈ f.nodes) : f.hasFolder p = true :=
  hasFolder_of_shows h (.inr ⟨List.prefix_append p [name], by simp⟩)

/-- Folders stay where everything that shows one is still found in it. -/
theorem hasFolder_mono (h : ∀ e ∈ f.nodes, ∀ q, Shows e q → g.hasFolder q = true)
    (hp : f.hasFolder p = true) : g.hasFolder p = true := by
  rcases hasFolder_iff.mp hp with hp | hp | ⟨e, hmem, hshows⟩
  · exact hasFolder_iff.mpr (.inl hp)
  · exact hasFolder_iff.mpr (.inr (.inl hp))
  · exact h e hmem p hshows

theorem node?_eq_folder_iff : f.node? p = some .folder ↔ f.hasFolder p = true := by
  unfold node?
  split
  · rename_i hfolder
    exact iff_of_true rfl hfolder
  · rename_i hfolder
    refine iff_of_false (fun h => hfolder ?_) hfolder
    exact hasFolder_of_shows (lookup_eq_some h) (.inl rfl)

theorem node?_of_not_hasFolder (h : f.hasFolder p = false) : f.node? p = f.nodes.lookup p := by
  rw [node?, if_neg (by rw [h]; decide)]

theorem Shows.around (hpart : p <+: q) (h : Shows e q) : Shows e p := by
  by_cases hsame : q = p
  · exact hsame ▸ h
  rcases h with rfl | ⟨hq, -⟩
  · exact .inr ⟨hpart, hsame⟩
  · refine .inr ⟨hpart.trans hq, fun heq => hsame ?_⟩
    exact (hpart.eq_of_length (Nat.le_antisymm hpart.length_le (heq ▸ hq.length_le))).symm

/-- What is around a folder are folders. -/
theorem hasFolder_around (hpart : p <+: q) (hq : f.hasFolder q = true) :
    f.hasFolder p = true := by
  rcases hasFolder_iff.mp hq with hq | rfl | ⟨e, hmem, hshows⟩
  · exact hasFolder_iff.mpr (.inl (Path.isOutside_around hpart hq))
  · -- Around the root there is nothing but the empty path.
    rcases List.prefix_cons_iff.mp hpart with rfl | ⟨rest, rfl, hrest⟩
    · rfl
    · rw [List.prefix_nil.mp hrest]
      rfl
  · exact hasFolder_of_shows hmem (hshows.around hpart)

/-- What is in a folder and no folder itself shows only what is around that folder. -/
theorem Shows.around_parent {name : Text} (h : Shows e q) (hmem : e ∈ f.nodes)
    (hplace : e.1 = p ++ [name]) (hfree : f.hasFolder (p ++ [name]) = false) : q <+: p := by
  rcases h with rfl | ⟨hpart, hne⟩
  · rw [← hplace, hasFolder_of_shows hmem (.inl rfl)] at hfree
    cases hfree
  · rw [hplace] at hpart hne
    exact (List.prefix_concat_iff.mp hpart).resolve_left hne.symm

/-! ## The way along names -/

theorem walk_cons_iff {place : Path} {name : Text} {names : List Text} :
    f.walk place (name :: names) = .ok q ↔
      f.hasFolder place = true ∧ Path.isLong name = false ∧
        f.walk (place.move name.onDisk) names = .ok q := by
  rw [← node?_eq_folder_iff, walk]
  cases f.node? place with
  | none => simp
  | some n =>
    cases n with
    | folder => cases Path.isLong name <;> simp
    | _ => simp

/-- Where there are more folders, a way leads to the same place. -/
theorem walk_mono (h : ∀ p, f.hasFolder p = true → g.hasFolder p = true) {place : Path}
    {names : List Text} (hwalk : f.walk place names = .ok q) : g.walk place names = .ok q := by
  induction names generalizing place with
  | nil => exact hwalk
  | cons name names ih =>
    obtain ⟨hfolder, hlong, hrest⟩ := walk_cons_iff.mp hwalk
    exact walk_cons_iff.mpr ⟨h place hfolder, hlong, ih hrest⟩

/-- A way leads to a place that depends only on the names, and none of these is too long. -/
theorem of_walk {place : Path} {names : List Text} (h : f.walk place names = .ok q) :
    q = names.foldl (fun place name => place.move name.onDisk) place ∧
      ∀ name ∈ names, Path.isLong name = false := by
  induction names generalizing place with
  | nil => exact ⟨(Except.ok.inj h).symm, nofun⟩
  | cons name names ih =>
    obtain ⟨-, hlong, hrest⟩ := walk_cons_iff.mp h
    obtain ⟨hq, hnames⟩ := ih hrest
    exact ⟨hq, List.forall_mem_cons.mpr ⟨hlong, hnames⟩⟩

theorem isLong_of_walk {place : Path} {names : List Text}
    (h : f.walk place names = .error .nameTooLong) : ∃ name ∈ names, Path.isLong name = true := by
  induction names generalizing place with
  | nil => cases h
  | cons name names ih =>
    rw [walk] at h
    split at h
    · split at h
      · rename_i hlong
        exact ⟨name, List.mem_cons_self, hlong⟩
      · obtain ⟨other, hmem, hlong⟩ := ih h
        exact ⟨other, List.mem_cons_of_mem name hmem, hlong⟩
    · cases h
    · cases h

/-- The last step of a way starts from a folder. -/
theorem walk_concat_iff {place : Path} {names : List Text} {name : Text} :
    f.walk place (names ++ [name]) = .ok q ↔
      ∃ r, f.walk place names = .ok r ∧ f.hasFolder r = true ∧ Path.isLong name = false ∧
        q = r.move name.onDisk := by
  induction names generalizing place with
  | nil =>
    rw [List.nil_append, walk_cons_iff]
    constructor
    · rintro ⟨hfolder, hlong, hend⟩
      exact ⟨place, rfl, hfolder, hlong, (Except.ok.inj hend).symm⟩
    · rintro ⟨r, hr, hfolder, hlong, rfl⟩
      obtain rfl := Except.ok.inj hr
      exact ⟨hfolder, hlong, rfl⟩
  | cons other names ih =>
    rw [List.cons_append, walk_cons_iff, ih]
    simp only [walk_cons_iff]
    constructor
    · rintro ⟨hfolder, hlong, r, hwalk, hrest⟩
      exact ⟨r, ⟨hfolder, hlong, hwalk⟩, hrest⟩
    · rintro ⟨r, ⟨hfolder, hlong, hwalk⟩, hrest⟩
      exact ⟨hfolder, hlong, r, hwalk, hrest⟩

/-- A step from a folder to what is no folder goes forward. -/
theorem move_of_not_hasFolder {name : Text} (hp : f.hasFolder p = true)
    (hfree : f.hasFolder (p.move name) = false) : p.move name = p ++ [name] := by
  unfold Path.move at hfree ⊢
  split
  · rename_i hidle
    rw [if_pos hidle, hp] at hfree
    cases hfree
  · rename_i hidle
    rw [if_neg hidle] at hfree
    split
    · rfl
    · rename_i hback
      rw [if_neg hback] at hfree
      split at hfree
      · rw [hp] at hfree
        cases hfree
      · rw [hasFolder_around (List.dropLast_prefix p) hp] at hfree
        cases hfree

/-- A step back from a folder leads to a folder. -/
theorem hasFolder_move_back (hp : f.hasFolder p = true) : f.hasFolder (p.move Path.back) = true := by
  unfold Path.move
  rw [if_neg (by decide)]
  split
  · rename_i houtside
    have hall : p.isOutside = true := houtside.resolve_left fun h => h rfl
    refine hasFolder_iff.mpr (.inl ?_)
    rw [Path.isOutside, List.all_append, Bool.and_eq_true]
    exact ⟨hall, rfl⟩
  · split
    · exact hp
    · exact hasFolder_around (List.dropLast_prefix p) hp

/-! ## Changes of one place -/

theorem lookup_cons_eq (p : Path) (n : Node) (nodes : List (Path × Node)) (q : Path) :
    List.lookup q ((p, n) :: nodes) = if q = p then some n else nodes.lookup q := by
  rw [List.lookup_cons]
  by_cases hq : q = p
  · rw [if_pos hq, beq_iff_eq.mpr hq]
  · rw [if_neg hq, beq_eq_false_iff_ne.mpr hq]

theorem lookup_filter_ne (nodes : List (Path × Node)) (p q : Path) :
    (nodes.filter fun e => e.1 != p).lookup q = if q = p then none else nodes.lookup q := by
  induction nodes with
  | nil => rw [List.filter_nil, List.lookup_nil, ite_self]
  | cons e nodes ih =>
    obtain ⟨place, node⟩ := e
    by_cases hplace : place = p
    · subst hplace
      rw [List.filter_cons_of_neg (by simp), ih, lookup_cons_eq]
      split <;> rfl
    · rw [List.filter_cons_of_pos (by simpa using hplace), lookup_cons_eq, lookup_cons_eq, ih]
      by_cases hq : q = p
      · rw [if_pos hq, if_pos hq, if_neg fun heq => hplace (heq.symm.trans hq)]
      · rw [if_neg hq, if_neg hq]

theorem lookup_put (f : Folder) (p : Path) (n : Node) (q : Path) :
    (f.put p n).nodes.lookup q = if q = p then some n else f.nodes.lookup q := by
  unfold put
  rw [List.lookup_append, lookup_filter_ne, lookup_cons_eq, List.lookup_nil]
  split
  · rfl
  · exact Option.or_none

theorem lookup_erase (f : Folder) (p q : Path) :
    (f.erase p).nodes.lookup q = if q = p then none else f.nodes.lookup q :=
  lookup_filter_ne f.nodes p q

/-- The files after something is put at a place. -/
theorem file?_put (f : Folder) (p : Path) (n : Node) (q : Path) (hq : q ≠ p) :
    (f.put p n).file? q = f.file? q := by
  unfold file?
  rw [lookup_put, if_neg hq]

/-- The files after what is at a place is taken away. -/
theorem file?_erase (f : Folder) (p q : Path) :
    (f.erase p).file? q = if q = p then none else f.file? q := by
  unfold file?
  rw [lookup_erase]
  by_cases hq : q = p
  · rw [if_pos hq, if_pos hq]
  · rw [if_neg hq, if_neg hq]

theorem mem_put_iff : e ∈ (f.put p n).nodes ↔ e ∈ f.nodes ∧ e.1 ≠ p ∨ e = (p, n) := by
  simp [put]

theorem mem_erase_iff : e ∈ (f.erase p).nodes ↔ e ∈ f.nodes ∧ e.1 ≠ p := by
  simp [erase]

/-- A file in a folder makes no folder. -/
theorem hasFolder_put_file {name : Text} (hp : f.hasFolder p = true)
    (hfree : f.hasFolder (p ++ [name]) = false) (content : Bytes) (q : Path) :
    (f.put (p ++ [name]) (.file content)).hasFolder q = f.hasFolder q := by
  refine Bool.eq_iff_iff.mpr ⟨hasFolder_mono fun e hmem q hshows => ?_,
    hasFolder_mono fun e hmem q hshows => ?_⟩
  · rcases mem_put_iff.mp hmem with ⟨hmem, -⟩ | rfl
    · exact hasFolder_of_shows hmem hshows
    · -- What is around the file is around its folder.
      obtain ⟨hpart, hne⟩ := hshows.resolve_left nofun
      exact hasFolder_around ((List.prefix_concat_iff.mp hpart).resolve_left hne.symm) hp
  · by_cases hplace : e.1 = p ++ [name]
    · exact hasFolder_around (hshows.around_parent hmem hplace hfree)
        (hasFolder_of_child (mem_put_iff.mpr (.inr rfl)))
    · exact hasFolder_of_shows (mem_put_iff.mpr (.inl ⟨hmem, hplace⟩)) hshows

/-- A folder is there without one of two files in it. -/
theorem hasFolder_erase {name other : Text} (hfree : f.hasFolder (p ++ [name]) = false)
    (hother : (p ++ [other], n) ∈ f.nodes) (hne : other ≠ name) (q : Path) :
    (f.erase (p ++ [name])).hasFolder q = f.hasFolder q := by
  have hplaces : p ++ [other] ≠ p ++ [name] := by simpa using hne
  refine Bool.eq_iff_iff.mpr ⟨hasFolder_mono fun e hmem q hshows => ?_,
    hasFolder_mono fun e hmem q hshows => ?_⟩
  · exact hasFolder_of_shows (mem_erase_iff.mp hmem).1 hshows
  · by_cases hplace : e.1 = p ++ [name]
    · -- The other file shows the folder of both.
      exact hasFolder_around (hshows.around_parent hmem hplace hfree)
        (hasFolder_of_child (mem_erase_iff.mpr ⟨hother, hplaces⟩))
    · exact hasFolder_of_shows (mem_erase_iff.mpr ⟨hmem, hplace⟩) hshows

/-! ## The place of a path -/

theorem way_concat {p : Path} {name : Text} (h : p ++ [name] ≠ [Path.root]) :
    way (p ++ [name]) = ((way p).1, (way p).2 ++ [name]) := by
  cases p with
  | nil =>
    have hname : name ≠ Path.root := fun heq => h (by rw [heq]; rfl)
    show (if name = Path.root then _ else _) = _
    rw [if_neg hname]
    rfl
  | cons first names =>
    show (if first = Path.root then _ else _) = ((way (first :: names)).1, _)
    rw [way]
    split <;> rfl

theorem place_eq_ok_iff {p place : Path} :
    f.place p = .ok place ↔ checkText p.text = .ok () ∧ f.walk (way p).1 (way p).2 = .ok place := by
  constructor
  · intro h
    obtain ⟨⟨⟩, hcheck, hwalk⟩ := Outcome.of_bind_ok h
    exact ⟨hcheck, hwalk⟩
  · rintro ⟨hcheck, hwalk⟩
    unfold Folder.place
    rw [hcheck]
    exact hwalk

/-- Where there are more folders, a path leads to the same place. -/
theorem place_mono (h : ∀ p, f.hasFolder p = true → g.hasFolder p = true) {p place : Path}
    (hplace : f.place p = .ok place) : g.place p = .ok place := by
  obtain ⟨hcheck, hwalk⟩ := place_eq_ok_iff.mp hplace
  exact place_eq_ok_iff.mpr ⟨hcheck, walk_mono h hwalk⟩

theorem checkText_ne_missing (t : Text) : checkText t ≠ .error .missing := by
  unfold checkText
  split
  · nofun
  split
  · nofun
  split <;> nofun

theorem isFileName_of_checkText {t : Text} (h : checkText t = .ok ()) : t.isFileName = true := by
  unfold checkText at h
  split at h
  · cases h
  · rename_i hname
    simpa using hname

/-- The code points of the names of a path are in its text. -/
theorem mem_text {p : Path} {name : Text} (hname : name ∈ p) {c : CodePoint} (hc : c ∈ name) :
    c ∈ p.text := by
  have hjoined : ∀ {names : List Text}, name ∈ names → c ∈ List.intercalate Path.root names := by
    intro names hmem
    induction names with
    | nil => cases hmem
    | cons first names ih =>
      cases names with
      | nil =>
        rw [List.mem_singleton.mp hmem] at hc
        simpa [List.intercalate] using hc
      | cons second names =>
        rw [List.intercalate_cons_cons, List.mem_append, List.mem_append]
        rcases List.mem_cons.mp hmem with rfl | hmem
        · exact .inl (.inl hc)
        · exact .inr (ih hmem)
  unfold Path.text
  split
  · cases hname
  · split
    · rename_i hroot
      rcases List.mem_cons.mp hname with rfl | hname
      · exact List.mem_append_left _ (hroot ▸ hc)
      · exact List.mem_append_right _ (hjoined hname)
    · exact hjoined hname

theorem isFileName_of_mem {p : Path} {name : Text} (hcheck : checkText p.text = .ok ())
    (hname : name ∈ p) : name.isFileName = true :=
  List.all_eq_true.mpr fun _ hc =>
    List.all_eq_true.mp (isFileName_of_checkText hcheck) _ (mem_text hname hc)

theorem mem_of_mem_way {p : Path} {name : Text} (hname : name ∈ (way p).2) : name ∈ p := by
  cases p with
  | nil => cases hname
  | cons first names =>
    rw [way] at hname
    split at hname
    · exact List.mem_cons_of_mem first hname
    · exact hname

/-! ## Making folders -/

theorem node?_eq_none_iff : f.node? p = none ↔ f.hasFolder p = false ∧ f.nodes.lookup p = none := by
  unfold node?
  split
  · rename_i hfolder
    simp [hfolder]
  · rename_i hfolder
    simp [hfolder]

/-- A step forward from nothing leads to nothing. -/
theorem node?_move_of_none {name : Text} (h : f.node? p = none) (hback : name ≠ Path.back) :
    f.node? (p.move name) = none := by
  by_cases hidle : Path.isIdle name = true
  · rw [Path.move, if_pos hidle, h]
  · rw [Path.move_eq_append (Bool.eq_false_iff.mpr hidle) hback]
    obtain ⟨hfree, -⟩ := node?_eq_none_iff.mp h
    have hpart : p <+: p ++ [name] := List.prefix_append p [name]
    refine node?_eq_none_iff.mpr ⟨?_, ?_⟩
    · by_contra hfolder
      rw [hasFolder_around hpart (by simpa using hfolder)] at hfree
      cases hfree
    · by_contra hnode
      obtain ⟨n, hn⟩ := Option.ne_none_iff_exists'.mp hnode
      rw [hasFolder_of_child (lookup_eq_some hn)] at hfree
      cases hfree

/-- Files and folders that come from others by making folders where there was nothing. -/
inductive Extends (f : Folder) : Folder → Prop where
  | refl : Extends f f
  | make {g : Folder} {p : Path} : Extends f g → g.node? p = none → Extends f (g.put p .folder)

/-- Making folders changes no file. -/
theorem Extends.file?_eq (h : Extends f g) (q : Path) : g.file? q = f.file? q := by
  induction h with
  | refl => rfl
  | @make g p _ hnone ih =>
    rw [← ih]
    by_cases hq : q = p
    · subst hq
      unfold file?
      rw [lookup_put, if_pos rfl, (node?_eq_none_iff.mp hnone).2]
    · exact file?_put g p .folder q hq

/-- Making folders takes no folder away. -/
theorem Extends.hasFolder (h : Extends f g) {q : Path} (hq : f.hasFolder q = true) :
    g.hasFolder q = true := by
  induction h with
  | refl => exact hq
  | @make g p _ _ ih =>
    refine hasFolder_mono (fun e hmem q hshows => ?_) ih
    by_cases hplace : e.1 = p
    · -- A folder shows whatever was shown by what it took the place of.
      have hfolder : Shows (p, .folder) q := hplace ▸ hshows.imp_left fun heq => by rw [heq]
      exact hasFolder_of_shows (mem_put_iff.mpr (.inr rfl)) hfolder
    · exact hasFolder_of_shows (mem_put_iff.mpr (.inl ⟨hmem, hplace⟩)) hshows

/-- Making folders makes nothing but folders. -/
theorem Extends.mem_nodes (h : Extends f g) {q : Path} {n : Node} (hq : (q, n) ∈ g.nodes)
    (hn : n ≠ .folder) : (q, n) ∈ f.nodes := by
  induction h with
  | refl => exact hq
  | make _ _ ih =>
    rcases mem_put_iff.mp hq with ⟨hq, -⟩ | heq
    · exact ih hq
    · cases heq
      exact absurd rfl hn

/-- The way along names makes folders where there was nothing. -/
theorem makeWay_extends {place : Path} {isNew : Bool} {names : List Text} (hf : Extends f g)
    (hnames : ∀ name ∈ names, name.isFileName = true)
    (hnew : isNew = true → g.node? place = none) :
    Extends f (g.makeWay place isNew names).2 := by
  have hmade : ∀ {g : Folder} {place : Path} {isNew : Bool}, Extends f g →
      (isNew = true → g.node? place = none) →
        Extends f (if isNew then g.put place .folder else g) := by
    intro g place isNew hf hnew
    split
    · rename_i his
      exact hf.make (hnew his)
    · exact hf
  induction names generalizing g place isNew with
  | nil => exact hmade hf hnew
  | cons name names ih =>
    obtain ⟨hname, hrest⟩ := List.forall_mem_cons.mp hnames
    rw [makeWay]
    split
    · exact hmade hf hnew
    split
    · refine ih (hmade hf hnew) hrest ?_
      nofun
    · rename_i hback
      split
      · rename_i his
        -- What comes after a new folder is new as well, unless it goes back.
        exact ih hf hrest fun _ => node?_move_of_none (hnew his) fun hondisk =>
          hback (Path.eq_back_of_onDisk hname hondisk)
      · split
        · refine ih hf hrest ?_
          nofun
        · exact hf
        · rename_i hnone
          exact ih hf hrest fun _ => hnone

/-- What is at a path is looked up only if the text of the path can be one. -/
theorem checkText_of_nodeUnless {p : Path} {o : Option Node}
    (h : f.nodeUnless (· ≠ .missing) (f.place p) = .ok o) : checkText p.text = .ok () := by
  cases hcheck : checkText p.text with
  | ok => rfl
  | error fault =>
    have hplace : f.place p = .error fault := by
      unfold Folder.place
      rw [hcheck]
      rfl
    have hfault : fault ≠ .missing := fun heq => checkText_ne_missing p.text (heq ▸ hcheck)
    rw [hplace, nodeUnless] at h
    simp [hfault] at h

theorem checkText_of_makeFolders {p : Path} (h : (f.makeFolders p).1 = .ok ()) :
    checkText p.text = .ok () := by
  unfold makeFolders at h
  split at h
  · cases h
  · rename_i hnode
    exact checkText_of_nodeUnless hnode
  · cases h
  · rename_i hnode
    exact checkText_of_nodeUnless hnode

/-- A folder that is there is not made. -/
theorem makeFolders_of_hasFolder {p r : Path} (hplace : f.place p = .ok r)
    (hr : f.hasFolder r = true) : f.makeFolders p = (.ok (), f) := by
  have hnode : f.nodeUnless (· ≠ .missing) (f.place p) = .ok (some .folder) := by
    rw [hplace, nodeUnless, node?_eq_folder_iff.mpr hr]
  unfold makeFolders
  rw [hnode]

/-- **A folder is made where there was nothing**, and so are those on the way to it, whatever comes
of it. -/
theorem makeFolders_extends (f : Folder) (p : Path) : Extends f (f.makeFolders p).2 := by
  unfold makeFolders
  split
  · exact .refl
  · exact .refl
  · exact .refl
  · rename_i hnode
    have hcheck := checkText_of_nodeUnless hnode
    have hnames : ∀ name ∈ (way p).2, name.isFileName = true := fun name hname =>
      isFileName_of_mem hcheck (mem_of_mem_way hname)
    show Extends f (if depthLimit < f.missingNames (way p).1 (way p).2 then (Except.error .tooDeep, f)
      else f.makeWay (way p).1 false (way p).2).2
    by_cases hdeep : depthLimit < f.missingNames (way p).1 (way p).2
    · rw [if_pos hdeep]
      exact .refl
    · rw [if_neg hdeep]
      refine makeWay_extends .refl hnames ?_
      nofun

/-! ## Reading, writing and moving files -/

variable {place : Path} {content : Bytes}

theorem node?_file (hfree : f.hasFolder place = false)
    (hfile : f.nodes.lookup place = some (.file content)) :
    f.node? place = some (.file content) :=
  (node?_of_not_hasFolder hfree).trans hfile

/-- A path leads to the same place with other folders, or nowhere. -/
theorem at?_of_elsewhere (f : Folder) (hplace : g.place p = .ok place) :
    f.at? p = .ok (f.node? place) ∨ f.at? p = .ok none := by
  obtain ⟨hcheck, hwalk⟩ := place_eq_ok_iff.mp hplace
  obtain ⟨hq, hnames⟩ := of_walk hwalk
  unfold at?
  cases hbefore : f.place p with
  | ok q =>
    obtain ⟨-, hwalkBefore⟩ := place_eq_ok_iff.mp hbefore
    rw [(of_walk hwalkBefore).1, ← hq]
    exact .inl rfl
  | error fault =>
    have hfault : fault ≠ .nameTooLong := by
      rintro rfl
      unfold Folder.place at hbefore
      rw [hcheck] at hbefore
      obtain ⟨name, hname, hlong⟩ := isLong_of_walk hbefore
      rw [hnames name hname] at hlong
      cases hlong
    exact .inr (if_neg (by simpa using hfault))

theorem at?_of_place (hplace : f.place p = .ok place) : f.at? p = .ok (f.node? place) := by
  unfold at?
  rw [hplace, nodeUnless]

/-- The file at a place is read. -/
theorem read_of_place (hplace : f.place p = .ok place) (hfree : f.hasFolder place = false)
    (hfile : f.nodes.lookup place = some (.file content)) : f.read p = .ok content := by
  have hnode := node?_file hfree hfile
  unfold Folder.read
  simp only [hplace, bind, Except.bind, hnode, Node.content?]
  rfl

/-- A file is written at a place that is no folder and no sink. -/
theorem write_of_place (hplace : f.place p = .ok place) (hfree : f.hasFolder place = false)
    (hkept : f.node? place ≠ some .sink) (content : Bytes) :
    f.write p content = .ok (f.put place (.file content)) := by
  unfold write
  simp only [hplace, bind, Except.bind]
  split
  · rename_i hfolder
    rw [node?_eq_folder_iff.mp hfolder] at hfree
    cases hfree
  · rename_i hsink
    exact absurd hsink hkept
  · rfl

/-- A file is moved to a place that is no folder. -/
theorem rename_of_place {source target old new : Path} (hsource : f.place source = .ok old)
    (hold : f.hasFolder old = false) (hfile : f.nodes.lookup old = some (.file content))
    (htarget : f.place target = .ok new) (hnew : f.hasFolder new = false)
    (hback : target.getLast? ≠ some Path.back) :
    f.rename source target = .ok ((f.put new (.file content)).erase old) := by
  have hread := read_of_place hsource hold hfile
  unfold rename
  simp only [hread, hsource, htarget, hnew, bind, Except.bind, if_neg hback, Bool.false_eq_true,
    if_false]
  rfl

end Folder

end Winnow
