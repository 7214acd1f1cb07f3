import Winnow.Proofs.Store.Contract
import Winnow.Proofs.Store.Folder
import Winnow.Store.File

/-!
# Stores in a file keep the contract

A save makes the folder of the file, writes the draft beside the file, and moves it into place.  The
file and the draft are two places in one folder, and neither is a folder itself.  So after the save
the folders are the same ones, the file has the data, there is no draft, and all else is as before:
the store can save again.

* `FileStore.Ready` : the folder can be made, and the two paths lead to places for files;
* `FileStore.Drafts`, `FileStore.Drafts.exists_folder` : the draft can be written, beside the file;
* `FileStore.Ready.exists_folder` : the two places are beside each other;
* `FileStore.Ready.save_eq` : a save succeeds, with given files after it;
* `FileStore.Ready.afterSave` : then the store is ready again;
* `FileStore.keeps` : so it does what a store has to, and changes no other file.
-/

namespace Winnow.FileStore

open Folder

/-- A store in a file as a store, whose states are the files. -/
def store (s : FileStore) : Store Folder :=
  ⟨fun f => (s.load f).map (Option.map .bytes), s.save⟩

/-- The files after the attempt to make the folder of the file. -/
def prepared (s : FileStore) (f : Folder) : Folder := (f.makeFolders s.path.dropLast).2

/-- A store can work on files: the folder of its file is there or can be made, and then its path and
that of its draft lead to places where there is no folder.  The draft is no sink, which would not
keep what is written to it; the sink of the surroundings is none (`draft_ne_sink`). -/
structure Ready (s : FileStore) (f : Folder) (place draft : Path) : Prop where
  parent : (f.makeFolders s.path.dropLast).1 = .ok ()
  placed : (s.prepared f).place s.path = .ok place
  drafted : (s.prepared f).place s.draft = .ok draft
  free : (s.prepared f).hasFolder place = false
  draftFree : (s.prepared f).hasFolder draft = false
  draftKept : (draft, .sink) ∉ f.nodes

/-- The draft can be written: the folder of the file is there or can be made, the file has a name,
and there is no folder where the path of the draft leads. -/
structure Drafts (s : FileStore) (f : Folder) (draft : Path) : Prop where
  parent : (f.makeFolders s.path.dropLast).1 = .ok ()
  named : s.path.isNameless = false
  drafted : (s.prepared f).place s.draft = .ok draft
  draftFree : (s.prepared f).hasFolder draft = false

/-- The files after a save. -/
def afterSave (f : Folder) (place draft : Path) (data : Bytes) : Folder :=
  ((f.put draft (.file data)).put place (.file data)).erase draft

variable {s : FileStore} {f : Folder} {place draft : Path} {data : Bytes}

/-! ## The folder of the file -/

theorem prepared_extends (s : FileStore) (f : Folder) : Extends f (s.prepared f) :=
  makeFolders_extends f s.path.dropLast

theorem draft_concat {folder : Path} {name : Text} (h : s.path = folder ++ [name]) :
    s.draft = folder ++ [name ++ draftEnding] := by
  unfold FileStore.draft Path.withEnding
  rw [h, List.getLast?_concat, List.dropLast_concat]

theorem draft_ne_root {folder : Path} {name : Text} :
    folder ++ [name ++ draftEnding] ≠ [Path.root] := by
  intro heq
  have hlast := congrArg List.getLast? heq
  rw [List.getLast?_concat] at hlast
  have hlength := congrArg List.length (Option.some.inj hlast)
  rw [List.length_append] at hlength
  exact absurd hlength (by show name.length + 4 ≠ 1; omega)

theorem Ready.nameless (h : s.Ready f place draft) : s.path.isNameless = false := by
  by_contra hnameless
  have hpath : s.path = [] ∨ s.path = [Path.root] := by
    simpa only [Path.isNameless, Bool.not_eq_false, Bool.or_eq_true, decide_eq_true_eq] using hnameless
  -- The working folder and the root are folders.
  have hfolder : (s.prepared f).hasFolder place = true := by
    obtain ⟨-, hwalk⟩ := place_eq_ok_iff.mp h.placed
    rcases hpath with hpath | hpath <;>
    · rw [hpath] at hwalk
      cases hwalk
      rfl
  rw [h.free] at hfolder
  cases hfolder

theorem Ready.drafts (h : s.Ready f place draft) : s.Drafts f draft :=
  ⟨h.parent, h.nameless, h.drafted, h.draftFree⟩

/-- The draft stands in the folder of the file. -/
theorem Drafts.exists_folder (h : s.Drafts f draft) :
    ∃ folder name r, s.path = folder ++ [name] ∧ folder ++ [name] ≠ [Path.root] ∧
      (s.prepared f).walk (way folder).1 (way folder).2 = .ok r ∧
      (s.prepared f).hasFolder r = true ∧ Path.isLong (name ++ draftEnding) = false ∧
      draft = r ++ [(name ++ draftEnding).onDisk] := by
  have hnameless := h.named
  simp only [Path.isNameless, Bool.or_eq_false_iff, decide_eq_false_iff_not] at hnameless
  obtain ⟨hne, hroot⟩ := hnameless
  obtain ⟨folder, name, hpath⟩ := (List.eq_nil_or_concat' s.path).resolve_left hne
  have hwalk := (place_eq_ok_iff.mp h.drafted).2
  rw [draft_concat hpath, way_concat draft_ne_root] at hwalk
  obtain ⟨r, hr, hfolder, hlong, hdraft⟩ := walk_concat_iff.mp hwalk
  exact ⟨folder, name, r, hpath, hpath ▸ hroot, hr, hfolder, hlong,
    hdraft.trans (move_of_not_hasFolder hfolder (hdraft ▸ h.draftFree))⟩

/-- The file and its draft are places in one folder, with two names. -/
theorem Ready.exists_folder (h : s.Ready f place draft) :
    ∃ name r, s.path.getLast? = some name ∧ name ≠ Path.back ∧
      (s.prepared f).place s.path.dropLast = .ok r ∧ (s.prepared f).hasFolder r = true ∧
      place = r ++ [name.onDisk] ∧ draft = r ++ [(name ++ draftEnding).onDisk] := by
  obtain ⟨folder, name, r, hpath, hroot, hr, hfolder, -, hdraft⟩ := h.drafts.exists_folder
  have hwalk := (place_eq_ok_iff.mp h.placed).2
  rw [hpath, way_concat hroot] at hwalk
  obtain ⟨r', hr', -, -, hplace⟩ := walk_concat_iff.mp hwalk
  obtain rfl := Except.ok.inj (hr.symm.trans hr')
  have hcheck : checkText (Path.text folder) = .ok () := by
    have hparent := checkText_of_makeFolders h.parent
    rwa [hpath, List.dropLast_concat] at hparent
  refine ⟨name, r, by rw [hpath, List.getLast?_concat], ?_, ?_, hfolder, ?_, hdraft⟩
  · rintro rfl
    have hback := hasFolder_move_back hfolder
    rw [show Path.back = Path.back.onDisk from rfl, ← hplace, h.free] at hback
    cases hback
  · rw [hpath, List.dropLast_concat]
    exact place_eq_ok_iff.mpr ⟨hcheck, hr⟩
  · rw [hplace]
    exact move_of_not_hasFolder hfolder (hplace ▸ h.free)

theorem Ready.place_ne_draft (h : s.Ready f place draft) : place ≠ draft := by
  obtain ⟨name, r, -, -, -, -, rfl, rfl⟩ := h.exists_folder
  intro heq
  have hnames := List.append_cancel_left heq
  simp only [List.cons.injEq, and_true] at hnames
  exact Text.onDisk_append_ne name (by decide) hnames.symm

/-- A store that is ready loads something, or nothing, before the first save. -/
theorem Ready.exists_load (h : s.Ready f place draft) : ∃ content, s.load f = .ok content := by
  have hfree : f.hasFolder place = false := by
    refine Bool.eq_false_iff.mpr fun hfolder => ?_
    have hmade := (s.prepared_extends f).hasFolder hfolder
    rw [h.free] at hmade
    cases hmade
  unfold load
  rcases at?_of_elsewhere f h.placed with hat | hat
  · rw [hat]
    cases hnode : f.node? place with
    | none => exact ⟨none, rfl⟩
    | some n =>
      cases n with
      | file content => exact ⟨some content, rfl⟩
      | sink => exact ⟨some [], rfl⟩
      | folder =>
        rw [node?_eq_folder_iff.mp hnode] at hfree
        cases hfree
  · rw [hat]
    exact ⟨none, rfl⟩

/-- No draft is at the place of the sink in the surroundings, whose name is another one. -/
theorem draft_ne_sink (hdrafted : f.place s.draft = .ok draft) (hfree : f.hasFolder draft = false) :
    draft ≠ [Path.root, "dev", "null"] := by
  have hwalk := (place_eq_ok_iff.mp hdrafted).2
  rcases List.eq_nil_or_concat' s.path with hpath | ⟨folder, name, hpath⟩
  · have hdraft : s.draft = [] := by
      unfold FileStore.draft Path.withEnding
      rw [hpath, List.getLast?_nil]
    rw [hdraft] at hwalk
    cases hwalk
    nofun
  · rw [draft_concat hpath, way_concat draft_ne_root] at hwalk
    obtain ⟨r, -, hr, -, rfl⟩ := walk_concat_iff.mp hwalk
    rw [move_of_not_hasFolder hr hfree]
    intro heq
    have hlast := congrArg List.getLast? heq
    rw [List.getLast?_concat] at hlast
    -- The two names end in different bytes.
    have hbytes := congrArg Text.nameBytes (Option.some.inj hlast)
    rw [Text.nameBytes_onDisk, Text.nameBytes_append] at hbytes
    have hend := congrArg List.getLast? hbytes
    rw [List.getLast?_append_of_ne_nil _ (by decide)] at hend
    exact absurd hend (by decide)

/-! ## A save -/

/-- A save makes no folder and takes none away. -/
theorem Ready.hasFolder_afterSave (h : s.Ready f place draft) (data : Bytes) (q : Path) :
    (afterSave (s.prepared f) place draft data).hasFolder q = (s.prepared f).hasFolder q := by
  have hne := h.place_ne_draft
  have hfree := h.free
  have hdraftFree := h.draftFree
  obtain ⟨name, r, -, -, -, hr, rfl, rfl⟩ := h.exists_folder
  have hnames : name.onDisk ≠ (name ++ draftEnding).onDisk := fun heq => hne (by rw [heq])
  have hfirst := hasFolder_put_file hr hdraftFree data
  have hsecond := hasFolder_put_file ((hfirst r).trans hr) ((hfirst _).trans hfree) data
  unfold afterSave
  rw [hasFolder_erase ((hsecond _).trans ((hfirst _).trans hdraftFree))
    (mem_put_iff.mpr (.inr rfl)) hnames, hsecond, hfirst]

theorem lookup_afterSave_draft (f : Folder) (place draft : Path) (data : Bytes) :
    (afterSave f place draft data).nodes.lookup draft = none := by
  unfold afterSave
  rw [lookup_erase, if_pos rfl]

theorem lookup_afterSave_place (f : Folder) (hne : place ≠ draft) (data : Bytes) :
    (afterSave f place draft data).nodes.lookup place = some (.file data) := by
  unfold afterSave
  rw [lookup_erase, if_neg hne, lookup_put, if_pos rfl]

theorem Drafts.prepare_eq (h : s.Drafts f draft) : s.prepare f = (.ok (), s.prepared f) := by
  have hmake : f.makeFolders s.path.dropLast = (.ok (), s.prepared f) := Prod.ext h.parent rfl
  unfold prepare
  rw [hmake]
  dsimp only
  rw [h.named, if_neg (by decide)]

/-- The draft is written. -/
theorem Drafts.write_eq (h : s.Drafts f draft) (hkept : (draft, .sink) ∉ f.nodes) (data : Bytes) :
    (s.prepared f).write s.draft data = .ok ((s.prepared f).put draft (.file data)) := by
  refine write_of_place h.drafted h.draftFree ?_ data
  rw [node?_of_not_hasFolder h.draftFree]
  exact fun hsink => hkept ((s.prepared_extends f).mem_nodes (lookup_eq_some hsink) nofun)

/-- The draft makes no folder, so paths still lead to their places. -/
theorem Drafts.hasFolder_put (h : s.Drafts f draft) (data : Bytes) (q : Path) :
    ((s.prepared f).put draft (.file data)).hasFolder q = (s.prepared f).hasFolder q := by
  have hfree := h.draftFree
  obtain ⟨_, _, r, -, -, -, hr, -, rfl⟩ := h.exists_folder
  exact hasFolder_put_file hr hfree data q

/-- The draft is moved into place. -/
theorem Ready.rename_eq (h : s.Ready f place draft) (data : Bytes) :
    ((s.prepared f).put draft (.file data)).rename s.draft s.path =
      .ok (afterSave (s.prepared f) place draft data) := by
  have hsame := h.drafts.hasFolder_put data
  obtain ⟨name, -, hlast, hback, -⟩ := h.exists_folder
  refine rename_of_place (place_mono (fun p hp => (hsame p).trans hp) h.drafted)
    ((hsame _).trans h.draftFree) ?_ (place_mono (fun p hp => (hsame p).trans hp) h.placed)
    ((hsame _).trans h.free) ?_
  · rw [lookup_put, if_pos rfl]
  · rw [hlast]
    exact fun heq => hback (Option.some.inj heq)

/-- **A save succeeds**, and moves its data into place. -/
theorem Ready.save_eq (h : s.Ready f place draft) (data : Bytes) :
    s.save data f = (.ok (), afterSave (s.prepared f) place draft data) := by
  unfold save
  rw [h.drafts.prepare_eq]
  dsimp only
  rw [h.drafts.write_eq h.draftKept]
  dsimp only
  rw [h.rename_eq]
  rfl

/-! ## After a save -/

/-- After a save the folder of the file is there, and is not made again. -/
theorem Ready.makeFolders_afterSave (h : s.Ready f place draft) (data : Bytes) :
    (afterSave (s.prepared f) place draft data).makeFolders s.path.dropLast =
      (.ok (), afterSave (s.prepared f) place draft data) := by
  obtain ⟨-, r, -, -, hfolder, hr, -, -⟩ := h.exists_folder
  have hsame := h.hasFolder_afterSave data
  exact makeFolders_of_hasFolder (place_mono (fun p hp => (hsame p).trans hp) hfolder)
    ((hsame r).trans hr)

/-- **After a save the store can save again.** -/
theorem Ready.again (h : s.Ready f place draft) (data : Bytes) :
    s.Ready (afterSave (s.prepared f) place draft data) place draft := by
  have hmake := h.makeFolders_afterSave data
  have hsame := h.hasFolder_afterSave data
  have hprepared : s.prepared (afterSave (s.prepared f) place draft data) =
      afterSave (s.prepared f) place draft data := congrArg Prod.snd hmake
  refine ⟨congrArg Prod.fst hmake, ?_, ?_, ?_, ?_, fun hsink => (mem_erase_iff.mp hsink).2 rfl⟩ <;>
    rw [hprepared]
  · exact place_mono (fun p hp => (hsame p).trans hp) h.placed
  · exact place_mono (fun p hp => (hsame p).trans hp) h.drafted
  · exact (hsame place).trans h.free
  · exact (hsame draft).trans h.draftFree

/-- What the store loads after a save. -/
theorem Ready.load_afterSave (h : s.Ready f place draft) (data : Bytes) :
    s.load (afterSave (s.prepared f) place draft data) = .ok (some data) := by
  have hsame := h.hasFolder_afterSave data
  have hplaced := place_mono (fun p hp => (hsame p).trans hp) h.placed
  unfold load
  rw [at?_of_place hplaced, node?_file ((hsame place).trans h.free)
    (lookup_afterSave_place _ h.place_ne_draft data)]
  rfl

/-- A save changes no other file. -/
theorem file?_afterSave {q : Path} (hplace : q ≠ place) (hdraft : q ≠ draft) (data : Bytes) :
    (afterSave (s.prepared f) place draft data).file? q = f.file? q := by
  unfold afterSave
  rw [file?_erase, if_neg hdraft, file?_put _ _ _ _ hplace, file?_put _ _ _ _ hdraft]
  exact (s.prepared_extends f).file?_eq q

/-! ## Runs -/

/-- Files after some data was saved last, or none: as at the beginning, but for the file with the
data, and without a draft. -/
structure Holds (s : FileStore) (start : Folder) (place draft : Path) (data : Bytes) (f : Folder) :
    Prop where
  ready : s.Ready f place draft
  load : s.load f = .ok (some data)
  content : f.file? place = some data
  noDraft : f.node? draft = none
  others : ∀ q, q ≠ place → q ≠ draft → f.file? q = start.file? q

/-- Files after a run of calls, in which some data was saved last, or none. -/
def After (s : FileStore) (start : Folder) (place draft : Path) : Option Bytes → Folder → Prop
  | none, f => f = start
  | some data, f => s.Holds start place draft data f

section

variable {start : Folder} {saved : Option Bytes}

theorem After.ready (h : s.After start place draft saved f) (hstart : s.Ready start place draft) :
    s.Ready f place draft := by
  cases saved with
  | none =>
    obtain rfl : f = start := h
    exact hstart
  | some data => exact Holds.ready h

/-- A run of calls changes no other file. -/
theorem After.others (h : s.After start place draft saved f) {q : Path} (hplace : q ≠ place)
    (hdraft : q ≠ draft) : f.file? q = start.file? q := by
  cases saved with
  | none =>
    obtain rfl : f = start := h
    rfl
  | some data => exact Holds.others h q hplace hdraft

/-- **A store in a file that is ready does what it has to**, and leaves all other files as they
are. -/
theorem keeps (hstart : s.Ready start place draft) {content : Option Bytes}
    (hload : s.load start = .ok content) : s.store.Keeps content (s.After start place draft) where
  load := by
    intro saved f hf
    show (s.load f).map (Option.map Blob.bytes) = _
    cases saved with
    | none =>
      obtain rfl : f = start := hf
      rw [hload]
      rfl
    | some data =>
      rw [Holds.load hf]
      rfl
  save := by
    intro saved f data hf _
    have hready := hf.ready hstart
    have hfree := (hready.hasFolder_afterSave data draft).trans hready.draftFree
    show (s.save data f).1 = _ ∧ s.Holds start place draft data (s.save data f).2
    rw [hready.save_eq]
    refine ⟨rfl, hready.again data, hready.load_afterSave data, ?_, ?_, fun q hplace hdraft => ?_⟩
    · unfold file?
      rw [lookup_afterSave_place _ hready.place_ne_draft]
    · exact node?_eq_none_iff.mpr ⟨hfree, lookup_afterSave_draft _ _ _ _⟩
    · rw [file?_afterSave hplace hdraft, hf.others hplace hdraft]

end

end Winnow.FileStore
