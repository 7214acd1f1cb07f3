import Winnow.Proofs.Store.File

/-!
# What a failing save leaves

A save makes the folder of the file, writes the draft and moves it into place, and what was done
before a step that fails stays done.  Moving fails only where the path leads to a folder; then the
draft is left.

* `Folder.IsPlain` : no file swallows what is written to it, but for the one of the surroundings;
* `FileStore.Blocked` : the draft can be written, but it cannot be moved;
* `FileStore.Drafts.exists_place` : where the path of the draft leads to a place, so does that of the
  file;
* `FileStore.Leaves`, `FileStore.Leaves.same_iff` : what a failing save leaves, and when that is all as
  it was;
* `FileStore.ready_or_leaves` : a store is ready, or its save fails and leaves that;
* `FileStore.save_leaves` : what a save leaves.
-/

namespace Winnow

namespace Path

/-! ## Endings -/

theorem intercalate_concat_append (names : List Text) (name ending : Text) :
    List.intercalate root (names ++ [name ++ ending]) =
      List.intercalate root (names ++ [name]) ++ ending := by
  induction names with
  | nil => simp
  | cons first names ih =>
    have hne : ∀ t, names ++ [t] ≠ [] := fun t => by simp
    simp only [List.cons_append]
    rw [List.intercalate_cons_of_ne_nil (hne _), List.intercalate_cons_of_ne_nil (hne _), ih,
      ← List.append_assoc]

/-- An ending behind the last name stands at the end of the text. -/
theorem text_concat_append {folder : Path} {name ending : Text} (h : folder ++ [name] ≠ [root])
    (hending : folder ++ [name ++ ending] ≠ [root]) :
    text (folder ++ [name ++ ending]) = text (folder ++ [name]) ++ ending := by
  cases folder with
  | nil =>
    have hname : name ≠ root := fun heq => h (by rw [heq]; rfl)
    have hlong : name ++ ending ≠ root := fun heq => hending (by rw [List.nil_append, heq])
    simp [text, hname, hlong]
  | cons first names =>
    simp only [List.cons_append, text]
    split
    · rw [intercalate_concat_append, List.append_assoc]
    · exact intercalate_concat_append (first :: names) name ending

theorem isLong_of_append {name ending : Text} (h : isLong (name ++ ending) = false) :
    isLong name = false := by
  unfold isLong at h ⊢
  rw [Text.nameBytes_append, List.length_append] at h
  simp only [decide_eq_false_iff_not] at h ⊢
  omega

end Path

namespace Folder

theorem checkText_iff {t : Text} : checkText t = .ok () ↔
    t.isFileName = true ∧ t.contains Text.nul = false ∧ t.nameBytes.length ≤ Path.textLimit := by
  unfold checkText
  split
  · simp_all
  split
  · simp_all
  split
  · rename_i hlong
    simp [Nat.not_le.mpr hlong]
  · simp_all

/-- A text can be that of a path if it can with an ending. -/
theorem checkText_of_append {t ending : Text} (h : checkText (t ++ ending) = .ok ()) :
    checkText t = .ok () := by
  obtain ⟨hname, hnul, hlength⟩ := checkText_iff.mp h
  rw [Text.isFileName, List.all_append, Bool.and_eq_true] at hname
  rw [List.contains_append, Bool.or_eq_false_iff] at hnul
  rw [Text.nameBytes_append, List.length_append] at hlength
  exact checkText_iff.mpr ⟨hname.1, hnul.1, by omega⟩

/-- No file swallows what is written to it, but for the one of the surroundings. -/
def IsPlain (f : Folder) : Prop :=
  ∀ place, (place, .sink) ∈ f.nodes → place = [Path.root, "dev", "null"]

/-- Files and folders as they were. -/
structure Same (f g : Folder) : Prop where
  files : ∀ q, g.file? q = f.file? q
  folders : ∀ q, g.hasFolder q = f.hasFolder q

end Folder

namespace FileStore

open Folder

/-- The draft can be written, but it cannot be moved: there is a folder where the path of the file
leads. -/
structure Blocked (s : FileStore) (f : Folder) (place draft : Path) : Prop extends
    s.Drafts f draft where
  placed : (s.prepared f).place s.path = .ok place
  taken : (s.prepared f).hasFolder place = true

variable {s : FileStore} {f : Folder} {place draft : Path} {data : Bytes}

/-! ## Drafts -/

/-- **Where the path of the draft leads to a place, so does that of the file**: its last name is a
shorter one in the same folder. -/
theorem Drafts.exists_place (h : s.Drafts f draft) :
    ∃ place, (s.prepared f).place s.path = .ok place := by
  obtain ⟨folder, name, r, hpath, hroot, hr, hfolder, hlong, -⟩ := h.exists_folder
  have hcheck := (place_eq_ok_iff.mp h.drafted).1
  rw [draft_concat hpath, Path.text_concat_append hroot draft_ne_root] at hcheck
  refine ⟨r.move name.onDisk, ?_⟩
  rw [hpath]
  refine place_eq_ok_iff.mpr ⟨checkText_of_append hcheck, ?_⟩
  rw [way_concat hroot]
  exact walk_concat_iff.mpr ⟨r, hr, hfolder, Path.isLong_of_append hlong, rfl⟩

theorem Drafts.draftKept (h : s.Drafts f draft) (hf : f.IsPlain) : (draft, .sink) ∉ f.nodes :=
  fun hsink => draft_ne_sink h.drafted h.draftFree (hf draft hsink)

/-- Once the draft can be written, all depends on what is at the place of the file. -/
theorem Drafts.ready_or_blocked (h : s.Drafts f draft) (hf : f.IsPlain) :
    ∃ place, s.Ready f place draft ∨ s.Blocked f place draft := by
  obtain ⟨place, hplaced⟩ := h.exists_place
  refine ⟨place, ?_⟩
  cases htaken : (s.prepared f).hasFolder place with
  | false => exact .inl ⟨h.parent, hplaced, h.drafted, htaken, h.draftFree, h.draftKept hf⟩
  | true => exact .inr ⟨h, hplaced, htaken⟩

theorem Ready.not_blocked (h : s.Ready f place draft) {other otherDraft : Path} :
    ¬ s.Blocked f other otherDraft := by
  intro hblocked
  obtain rfl := Except.ok.inj (h.placed.symm.trans hblocked.placed)
  cases h.free.symm.trans hblocked.taken

/-! ## Failing saves -/

/-- A draft is not moved to where a folder is. -/
theorem Blocked.rename_error (h : s.Blocked f place draft) (data : Bytes) :
    ∃ fault, ((s.prepared f).put draft (.file data)).rename s.draft s.path = .error fault := by
  have hsame := h.hasFolder_put data
  have hread : ((s.prepared f).put draft (.file data)).read s.draft = .ok data :=
    read_of_place (place_mono (fun p hp => (hsame p).trans hp) h.drafted)
      ((hsame draft).trans h.draftFree) (by rw [lookup_put, if_pos rfl])
  have hplace := place_mono (fun p hp => (hsame p).trans hp) h.placed
  unfold rename
  by_cases hback : s.path.getLast? = some Path.back
  · exact ⟨.busy, by simp only [hread, hback, bind, Except.bind, if_true]⟩
  · refine ⟨.isFolder, ?_⟩
    simp only [hread, hplace, hback, (hsame place).trans h.taken, bind, Except.bind, if_false, if_true,
      pure, Except.pure]

/-- **The draft is left** where it cannot be moved. -/
theorem Blocked.save_eq (h : s.Blocked f place draft) (hf : f.IsPlain) (data : Bytes) :
    ∃ fault, s.save data f = (.error fault, (s.prepared f).put draft (.file data)) := by
  obtain ⟨fault, hrename⟩ := h.rename_error data
  refine ⟨.file fault, ?_⟩
  unfold save
  rw [h.prepare_eq]
  dsimp only
  rw [h.write_eq (h.draftKept hf)]
  dsimp only
  rw [hrename]
  rfl

/-- **A save that cannot write the draft** makes folders at most. -/
theorem save_of_not_drafts (h : ∀ draft, ¬ s.Drafts f draft) (data : Bytes) :
    ∃ fault, s.save data f = (.error fault, s.prepared f) := by
  obtain ⟨outcome, hmake⟩ : ∃ outcome, f.makeFolders s.path.dropLast = (outcome, s.prepared f) :=
    ⟨_, rfl⟩
  unfold save prepare
  rw [hmake]
  cases outcome with
  | error fault => exact ⟨.file fault, rfl⟩
  | ok =>
    dsimp only
    by_cases hnamed : s.path.isNameless = true
    · rw [if_pos hnamed]
      exact ⟨_, rfl⟩
    rw [if_neg hnamed]
    have hwrite : ∃ fault, (s.prepared f).write s.draft data = .error fault := by
      unfold write
      cases hdrafted : (s.prepared f).place s.draft with
      | error fault => exact ⟨fault, rfl⟩
      | ok draft =>
        cases hfree : (s.prepared f).hasFolder draft with
        | true =>
          refine ⟨.isFolder, ?_⟩
          simp only [bind, Except.bind, node?_eq_folder_iff.mpr hfree]
        | false =>
          exact absurd ⟨congrArg Prod.fst hmake, by simpa using hnamed, hdrafted, hfree⟩ (h draft)
    obtain ⟨fault, hwrite⟩ := hwrite
    dsimp only
    rw [hwrite]
    exact ⟨.file fault, rfl⟩

theorem Blocked.draft_eq (h : s.Blocked f place draft) {other otherDraft : Path}
    (hother : s.Blocked f other otherDraft) : otherDraft = draft :=
  Except.ok.inj (hother.drafted.symm.trans h.drafted)

/-! ## What is left -/

/-- What a failing save leaves: the folders that it made, and the draft if that could not be moved.
-/
structure Leaves (s : FileStore) (data : Bytes) (f g : Folder) : Prop where
  folders : ∀ q, g.hasFolder q = (s.prepared f).hasFolder q
  draft : ∀ place draft, s.Blocked f place draft → g.file? draft = some data
  files : ∀ q, (∀ place, ¬ s.Blocked f place q) → g.file? q = f.file? q

variable {g : Folder}

theorem Blocked.leaves (h : s.Blocked f place draft) (data : Bytes) :
    s.Leaves data f ((s.prepared f).put draft (.file data)) where
  folders := h.hasFolder_put data
  draft := by
    intro other otherDraft hother
    unfold file?
    rw [h.draft_eq hother, lookup_put, if_pos rfl]
  files := by
    intro q hq
    have hne : q ≠ draft := fun heq => hq place (heq ▸ h)
    exact (file?_put _ _ _ _ hne).trans ((s.prepared_extends f).file?_eq q)

theorem leaves_of_not_drafts (h : ∀ draft, ¬ s.Drafts f draft) (data : Bytes) :
    s.Leaves data f (s.prepared f) where
  folders := fun _ => rfl
  draft := fun _ draft hblocked => absurd hblocked.toDrafts (h draft)
  files := fun q _ => (s.prepared_extends f).file?_eq q

/-- A failing save takes no folder away. -/
theorem Leaves.hasFolder (h : s.Leaves data f g) {q : Path} (hq : f.hasFolder q = true) :
    g.hasFolder q = true :=
  (h.folders q).trans ((s.prepared_extends f).hasFolder hq)

/-- A failing save leaves all as it was exactly if it made no folder, and if the draft that is left
over was there before with the same data. -/
theorem Leaves.same_iff (h : s.Leaves data f g) :
    f.Same g ↔ (∀ place draft, s.Blocked f place draft → f.file? draft = some data) ∧
      ∀ q, (s.prepared f).hasFolder q = f.hasFolder q := by
  constructor
  · intro hsame
    exact ⟨fun place draft hblocked =>
        (hsame.files draft).symm.trans (h.draft place draft hblocked),
      fun q => (h.folders q).symm.trans (hsame.folders q)⟩
  · rintro ⟨hheld, hmade⟩
    refine ⟨fun q => ?_, fun q => (h.folders q).trans (hmade q)⟩
    by_cases hq : ∃ place, s.Blocked f place q
    · obtain ⟨place, hblocked⟩ := hq
      exact (h.draft place q hblocked).trans (hheld place q hblocked).symm
    · exact h.files q (not_exists.mp hq)

/-- **A store is ready, or its save fails**: the draft could be written and not moved, or it could not
be written. -/
theorem ready_or_leaves (s : FileStore) (hf : f.IsPlain) (data : Bytes) :
    (∃ place draft, s.Ready f place draft) ∨
      (∀ place draft, ¬ s.Ready f place draft) ∧
        ∃ fault g, s.save data f = (.error fault, g) ∧ s.Leaves data f g := by
  by_cases hdrafts : ∃ draft, s.Drafts f draft
  · obtain ⟨draft, hdrafts⟩ := hdrafts
    obtain ⟨place, hready | hblocked⟩ := hdrafts.ready_or_blocked hf
    · exact .inl ⟨place, draft, hready⟩
    · obtain ⟨fault, hsave⟩ := hblocked.save_eq hf data
      exact .inr ⟨fun _ _ hready => hready.not_blocked hblocked, fault, _, hsave,
        hblocked.leaves data⟩
  · have hnone := not_exists.mp hdrafts
    obtain ⟨fault, hsave⟩ := save_of_not_drafts hnone data
    exact .inr ⟨fun _ draft hready => hnone draft hready.drafts, fault, _, hsave,
      leaves_of_not_drafts hnone data⟩

/-- Where the folder of the file is there, no folder is made. -/
theorem prepared_of_hasFolder {r : Path} (hplace : f.place s.path.dropLast = .ok r)
    (hr : f.hasFolder r = true) : s.prepared f = f :=
  congrArg Prod.snd (makeFolders_of_hasFolder hplace hr)

/-- **What a save leaves.**  It succeeds exactly if the store is ready, and then the store loads the
data, and no other file has changed.  A save that fails takes no folder away and makes those on the
way to the file, none if the folder of the file is there.  It leaves the draft, with the data,
exactly where that was written and could not be moved, and all other files as they are.  So a failing
save changes nothing exactly if no folder was missing and no draft is left that was not there
before. -/
theorem save_leaves (s : FileStore) {f : Folder} (hf : f.IsPlain) (data : Bytes) :
    let after := s.save data f
    (after.1 = .ok () ↔ ∃ place draft, s.Ready f place draft) ∧
      (∀ place draft, s.Ready f place draft →
        s.load after.2 = .ok (some data) ∧
          ∀ q, q ≠ place → q ≠ draft → after.2.file? q = f.file? q) ∧
      (∀ fault, after.1 = .error fault →
        s.Leaves data f after.2 ∧ (∀ q, f.hasFolder q = true → after.2.hasFolder q = true) ∧
          (f.Same after.2 ↔
            (∀ place draft, s.Blocked f place draft → f.file? draft = some data) ∧
              ∀ q, (s.prepared f).hasFolder q = f.hasFolder q)) ∧
      ∀ r, f.place s.path.dropLast = .ok r → f.hasFolder r = true → s.prepared f = f := by
  intro after
  have hready : ∀ place draft, s.Ready f place draft →
      after = (.ok (), afterSave (s.prepared f) place draft data) := fun _ _ h => h.save_eq data
  refine ⟨?_, ?_, ?_, fun _ => prepared_of_hasFolder⟩
  · constructor
    · intro hok
      rcases s.ready_or_leaves hf data with h | ⟨-, fault, g, hsave, -⟩
      · exact h
      · cases hok.symm.trans (congrArg Prod.fst hsave)
    · rintro ⟨place, draft, h⟩
      rw [hready place draft h]
  · intro place draft h
    rw [hready place draft h]
    exact ⟨h.load_afterSave data, fun q hplace hdraft => file?_afterSave hplace hdraft data⟩
  · intro fault hfault
    rcases s.ready_or_leaves hf data with ⟨place, draft, h⟩ | ⟨-, _, g, hsave, hleaves⟩
    · rw [hready place draft h] at hfault
      cases hfault
    · rw [show after = _ from hsave]
      exact ⟨hleaves, fun q => hleaves.hasFolder, hleaves.same_iff⟩

/-- A store in a file of the working folder. -/
def plainStore : FileStore := ⟨["s.json"]⟩

/-- Files with a folder where that file should be. -/
def folderInPlace : Folder := ⟨(["s.json"], .folder) :: surroundings.nodes⟩

theorem folderInPlace_isPlain : folderInPlace.IsPlain := by
  intro place hsink
  simpa [folderInPlace, surroundings] using hsink

/-- There the draft can be written, but it cannot be moved. -/
theorem plainStore_blocked : plainStore.Blocked folderInPlace ["s.json"] ["s.json.tmp"] where
  parent := rfl
  named := by decide +kernel
  drafted := rfl
  draftFree := by decide +kernel
  placed := rfl
  taken := by decide +kernel

/-- The save fails, and there was no draft before. -/
theorem save_folderInPlace :
    (plainStore.save [0x5B, 0x5D] folderInPlace).1 = .error (.file .isFolder) ∧
      folderInPlace.file? ["s.json.tmp"] = none := ⟨rfl, by decide +kernel⟩

/-- The draft is left. -/
theorem save_leaves_folderInPlace :
    (plainStore.save [0x5B, 0x5D] folderInPlace).1 = .error (.file .isFolder) ∧
      (plainStore.save [0x5B, 0x5D] folderInPlace).2.file? ["s.json.tmp"] = some [0x5B, 0x5D] ∧
      folderInPlace.file? ["s.json.tmp"] = none := by
  obtain ⟨hfails, hnone⟩ := save_folderInPlace
  obtain ⟨-, -, hfailing, -⟩ := save_leaves plainStore folderInPlace_isPlain [0x5B, 0x5D]
  obtain ⟨hleaves, -⟩ := hfailing _ hfails
  exact ⟨hfails, hleaves.draft _ _ plainStore_blocked, hnone⟩

/-- A save that fails need not leave the files as they were. -/
theorem not_save_leaves_same :
    ¬ ∀ (s : FileStore) (f : Folder) (data : Bytes) (fault : Fault), f.IsPlain →
      (s.save data f).1 = .error fault → f.Same (s.save data f).2 := by
  intro hkeeps
  obtain ⟨hfails, hnone⟩ := save_folderInPlace
  have hsame := hkeeps plainStore folderInPlace _ _ folderInPlace_isPlain hfails
  obtain ⟨fault, hsave⟩ := plainStore_blocked.save_eq folderInPlace_isPlain [0x5B, 0x5D]
  rw [hsave] at hsame
  have hleft := (plainStore_blocked.leaves [0x5B, 0x5D]).draft _ _ plainStore_blocked
  cases hleft.symm.trans ((hsame.files _).trans hnone)

end FileStore

end Winnow
