import Recompile.Proofs.Storage.Retry

/-!
# Disks that lack files

One disk lacks files of another if they differ only in that some files of the other are not there
(`Disk.Lacks`).  Both have the same directories, so what is read anywhere but at a missing file is
the same (`Disk.Lacks.read_iff`, `Disk.Lacks.readText_iff`).

Writing differs only where a path leads through a missing file.  A path that does not
(`Disk.Alike`) is followed in the same way on both disks, directories are made for it with the same
result (`Disk.Lacks.makeDirectories`), and a file is replaced with the same result even if it is one
of those that are missing (`Write.lacks_run`, `Write.lacks_runAll`).  Afterwards the one disk still
lacks files of the other, and no more than before.
-/

namespace Recompile

/-- The path leads through none of the locations, and it ends at none of them. -/
def Path.Misses (path : Path) (places : Location → Prop) : Prop :=
  ∀ location, path.Visits location → ¬ places location

namespace Disk

variable {before middle after : Disk} {path : Path} {places others : Location → Prop}

/-! ### Missing files -/

/-- The disks differ only in that some files of the first one, at some of the locations, are missing
on the second one. -/
def Lacks (before after : Disk) (places : Location → Prop) : Prop :=
  ∀ location, after.node? location = before.node? location ∨
    (∃ content, before.node? location = some (.file content)) ∧
      after.node? location = none ∧ places location

/-- The content at a location depends on what is there alone. -/
lemma content?_congr {location : Location} (h : after.node? location = before.node? location) :
    after.content? location = before.content? location := by
  unfold content?
  rw [h]

/-- What it means that a text is read. -/
lemma readText_eq_ok {disk : Disk} {text : String} : disk.readText path = .ok text ↔
    ∃ content, disk.read path = .ok content ∧ Bytes.text? content = some text := by
  unfold readText
  cases disk.read path with
  | error fault =>
    refine iff_of_false (fun htext => nomatch htext) ?_
    rintro ⟨content, hread, -⟩
    cases hread
  | ok content =>
    simp only [bind, Except.bind, Except.ok.injEq, exists_eq_left']
    cases Bytes.text? content with
    | none => exact iff_of_false (fun htext => nomatch htext) (fun htext => nomatch htext)
    | some found =>
      constructor
      · intro htext
        exact congrArg some (Except.ok.inj htext)
      · intro htext
        exact congrArg Except.ok (Option.some.inj htext)

namespace Lacks

/-- A disk lacks none of its own files. -/
lemma refl (disk : Disk) (places : Location → Prop) : disk.Lacks disk places :=
  fun _ => .inl rfl

/-- The locations may be more. -/
lemma mono (h : before.Lacks after places)
    (hplaces : ∀ location, places location → others location) :
    before.Lacks after others := by
  intro location
  rcases h location with hsame | ⟨hfile, hnone, hplace⟩
  · exact .inl hsame
  · exact .inr ⟨hfile, hnone, hplaces location hplace⟩

/-- The missing files are at locations where the disks differ. -/
lemma differs (h : before.Lacks after places) :
    before.Lacks after fun location => after.node? location ≠ before.node? location := by
  intro location
  rcases h location with hsame | ⟨⟨content, hfile⟩, hnone, -⟩
  · exact .inl hsame
  · refine .inr ⟨⟨content, hfile⟩, hnone, fun hsame => ?_⟩
    rw [hfile, hnone] at hsame
    cases hsame

/-- Where no file may be missing the disks are the same. -/
lemma node?_eq (h : before.Lacks after places) {location : Location} (hplace : ¬ places location) :
    after.node? location = before.node? location :=
  (h location).resolve_right fun hmissing => hplace hmissing.2.2

/-- More files may be missing on a third disk. -/
lemma trans (h : before.Lacks middle places) (h' : middle.Lacks after places) :
    before.Lacks after places := by
  intro location
  rcases h location with hsame | ⟨hfile, hnone, hplace⟩
  · rcases h' location with hsame' | ⟨hfile', hnone', hplace'⟩
    · exact .inl (hsame'.trans hsame)
    · rw [hsame] at hfile'
      exact .inr ⟨hfile', hnone', hplace'⟩
  · rcases h' location with hsame' | ⟨⟨content, hfile'⟩, -, -⟩
    · exact .inr ⟨hfile, hsame'.trans hnone, hplace⟩
    · rw [hnone] at hfile'
      cases hfile'

/-- No directory is missing. -/
lemma directory (h : before.Lacks after places) (location : Location) :
    after.node? location = some .directory ↔ before.node? location = some .directory := by
  rcases h location with hsame | ⟨⟨content, hfile⟩, hnone, -⟩
  · rw [hsame]
  · rw [hfile, hnone]
    exact iff_of_false (fun hdirectory => nomatch hdirectory) (fun hdirectory => nomatch hdirectory)

/-- All directories are kept. -/
lemma keeps (h : before.Lacks after places) : before.KeepsDirectories after :=
  fun location hdirectory => (h.directory location).mpr hdirectory

/-- The first disk has no more directories. -/
lemma keeps_back (h : before.Lacks after places) : after.KeepsDirectories before :=
  fun location hdirectory => (h.directory location).mp hdirectory

/-- A path leads to a directory on both disks or on neither. -/
lemma opens_iff (h : before.Lacks after places) : after.Opens path ↔ before.Opens path :=
  ⟨fun hopens => hopens.mono h.keeps_back, fun hopens => hopens.mono h.keeps⟩

/-- Asking whether there is a directory gives the same. -/
lemma isDirectory (h : before.Lacks after places) :
    after.isDirectory path = before.isDirectory path := by
  have hiff : ∀ disk : Disk, disk.isDirectory path = true ↔ disk.Opens path := by
    intro disk
    refine ⟨opens_of_isDirectory, fun hopens => ?_⟩
    unfold Disk.isDirectory
    rw [find_eq_ok.mpr ⟨hopens.1, rfl, hopens.2⟩]
  rw [Bool.eq_iff_iff, hiff, hiff]
  exact h.opens_iff

/-- A path that leads to something although files are missing leads to something without that. -/
lemma contains_back (h : before.Lacks after places) (hcontains : after.contains path = true) :
    before.contains path = true := by
  unfold Disk.contains at hcontains ⊢
  cases hfind : after.find path with
  | error fault =>
    rw [hfind] at hcontains
    cases hcontains
  | ok found =>
    obtain ⟨location, node⟩ := found
    obtain ⟨hleads, rfl, hnode⟩ := find_eq_ok.mp hfind
    have hthere : ∃ node, before.node? path.place = some node := by
      rcases h path.place with hsame | ⟨⟨content, hfile⟩, -, -⟩
      · exact ⟨node, hsame.symm.trans hnode⟩
      · exact ⟨_, hfile⟩
    obtain ⟨node, hnode⟩ := hthere
    rw [find_eq_ok.mpr ⟨hleads.mono h.keeps_back, rfl, hnode⟩]
    rfl

/-- What is read is the same if the content at the place of the path is the same. -/
theorem read_iff (h : before.Lacks after places)
    (hcontent : after.content? path.place = before.content? path.place) (content : Bytes) :
    after.read path = .ok content ↔ before.read path = .ok content :=
  ⟨fun hread => read_mono hread h.keeps_back hcontent.symm,
    fun hread => read_mono hread h.keeps hcontent⟩

/-- The same texts are read if none is read from a location where files may be missing. -/
theorem readText_iff (h : before.Lacks after places)
    (hplace : ∀ text, before.readText path = .ok text → ¬ places path.place) (text : String) :
    after.readText path = .ok text ↔ before.readText path = .ok text := by
  constructor
  · intro hafter
    obtain ⟨content, hread, htext⟩ := readText_eq_ok.mp hafter
    -- A file that can be read is not missing.
    have hcontent : after.content? path.place = before.content? path.place := by
      rcases h path.place with hsame | ⟨-, hnone, -⟩
      · exact content?_congr hsame
      · have hthere := content?_of_read hread
        unfold content? at hthere
        rw [hnone] at hthere
        cases hthere
    exact readText_eq_ok.mpr ⟨content, (h.read_iff hcontent content).mp hread, htext⟩
  · intro hbefore
    obtain ⟨content, hread, htext⟩ := readText_eq_ok.mp hbefore
    have hcontent := content?_congr (h.node?_eq (hplace text hbefore))
    exact readText_eq_ok.mpr ⟨content, (h.read_iff hcontent content).mpr hread, htext⟩

/-- Something is put at the same location of both disks. -/
lemma insert (h : before.Lacks after places) {location : Location} (hroot : location ≠ [])
    (hcurrent : location ≠ current) (node : Node) :
    (before.insert location node).Lacks (after.insert location node) places := by
  intro other
  rw [node?_insert before node hroot hcurrent, node?_insert after node hroot hcurrent]
  split_ifs
  · exact .inl rfl
  · exact h other

/-- The same tree is removed from both disks. -/
lemma prune (h : before.Lacks after places) (location : Location) :
    (before.prune location).Lacks (after.prune location) places := by
  intro other
  rw [node?_prune, node?_prune]
  split_ifs
  · exact .inl rfl
  · exact .inl rfl
  · exact h other

end Lacks

/-! ### Following -/

/-- Pieces that lead through the same are followed in the same way. -/
lemma follow_alike {location : Location} {pieces : List String}
    (h : ∀ front rest, pieces = front ++ rest → rest ≠ [] →
      after.node? (front.foldl Path.follow location) =
        before.node? (front.foldl Path.follow location)) :
    after.follow location pieces = before.follow location pieces := by
  induction pieces generalizing location with
  | nil => rfl
  | cons piece rest ih =>
    have hrest : ∀ next, Path.follow location piece = next →
        after.follow next rest = before.follow next rest := by
      rintro next rfl
      apply ih
      intro front tail heq hne
      exact h (piece :: front) tail (by rw [heq]; rfl) hne
    have hhere : after.node? location = before.node? location :=
      h [] (piece :: rest) rfl (List.cons_ne_nil _ _)
    rw [follow, follow, hhere]
    split
    · rfl
    · rfl
    · unfold Path.follow at hrest
      split_ifs at hrest ⊢
      · exact hrest _ rfl
      · exact hrest _ rfl
      · rfl
      · exact hrest _ rfl

/-- The location for an entry is the same if what stands before its name leads through the same. -/
lemma entryAt_alike {first : Location} {pieces : List String}
    (hfirst : after.node? first = before.node? first)
    (h : ∀ front rest, pieces = front ++ rest → rest ≠ [] →
      after.node? (front.foldl Path.follow first) = before.node? (front.foldl Path.follow first)) :
    after.entryAt first pieces = before.entryAt first pieces := by
  rcases List.eq_nil_or_concat pieces with rfl | ⟨front, name, rfl⟩
  · unfold entryAt
    rw [List.dropLast_nil, follow, follow]
    simp only [bind, Except.bind]
    rw [hfirst]
  · rw [List.concat_eq_append] at h ⊢
    have hfront : after.follow first front = before.follow first front := by
      apply follow_alike
      intro passed rest heq hne
      refine h passed (rest ++ [name]) ?_ (List.append_ne_nil_of_left_ne_nil hne _)
      rw [heq, List.append_assoc]
    unfold entryAt
    rw [List.dropLast_concat, List.getLast?_concat, hfront]
    cases hfollow : before.follow first front with
    | error fault => rfl
    | ok parent =>
      have hparent : after.node? parent = before.node? parent := by
        rw [eq_of_follow hfollow]
        exact h front [name] rfl (List.cons_ne_nil _ _)
      simp only [bind, Except.bind]
      rw [hparent]

/-! ### Making directories -/

namespace Lacks

/-- A directory is made on both disks, or it is made on neither for the same reason. -/
lemma makeDirectory (h : before.Lacks after places) (hmisses : path.Misses places) :
    (∃ fault, before.makeDirectory path = .error fault ∧ after.makeDirectory path = .error fault) ∨
      ∃ made left, before.makeDirectory path = .ok made ∧ after.makeDirectory path = .ok left ∧
        made.Lacks left places := by
  obtain ⟨blanks, hpieces, -⟩ := exists_dropBlanks path.pieces
  unfold Disk.makeDirectory
  cases hstart : start path with
  | error fault => exact .inl ⟨fault, rfl, rfl⟩
  | ok first =>
    have halike : ∀ front rest, (path.pieces.reverse.dropWhile (· = "")).reverse = front ++ rest →
        after.node? (front.foldl Path.follow first) =
          before.node? (front.foldl Path.follow first) := by
      intro front rest heq
      refine h.node?_eq (hmisses _ ⟨front, rest ++ blanks, ?_, ?_⟩)
      · rw [← List.append_assoc, ← heq]
        exact hpieces
      · rw [eq_of_start hstart]
    have hentry : after.entryAt first (path.pieces.reverse.dropWhile (· = "")).reverse =
        before.entryAt first (path.pieces.reverse.dropWhile (· = "")).reverse :=
      entryAt_alike (halike [] _ (List.nil_append _).symm) fun front rest heq _ =>
        halike front rest heq
    simp only [bind, Except.bind]
    rw [hentry]
    cases htarget : before.entryAt first (path.pieces.reverse.dropWhile (· = "")).reverse with
    | error fault => exact .inl ⟨fault, rfl, rfl⟩
    | ok target =>
      obtain ⟨hplace, hroot, hcurrent⟩ := eq_of_entryAt htarget
      have hnode : after.node? target = before.node? target := by
        rw [hplace]
        exact halike _ [] (List.append_nil _).symm
      simp only
      rw [hnode]
      cases before.node? target with
      | some node => exact .inl ⟨alreadyThere, rfl, rfl⟩
      | none => exact .inr ⟨_, _, rfl, rfl, h.insert hroot hcurrent .directory⟩

/-- Directories are made on both disks with the same result, however far it goes. -/
lemma makeDirectoriesIn (fuel : Nat) (h : before.Lacks after places)
    (hpath : path.text ≠ "" → path.IsTrim ∧ path.Misses places) :
    (Disk.makeDirectoriesIn fuel after path).1 = (Disk.makeDirectoriesIn fuel before path).1 ∧
      (Disk.makeDirectoriesIn fuel before path).2.Lacks
        (Disk.makeDirectoriesIn fuel after path).2 places := by
  induction fuel generalizing before after path with
  | zero => exact ⟨rfl, h⟩
  | succ fuel ih =>
    by_cases hne : path.text = ""
    · have hempty : path.text.isEmpty = true := String.isEmpty_iff.mpr hne
      rw [Disk.makeDirectoriesIn, Disk.makeDirectoriesIn, if_pos hempty, if_pos hempty]
      exact ⟨rfl, h⟩
    obtain ⟨⟨front, last, hpieces, hlast⟩, hmisses⟩ := hpath hne
    have hempty : ¬ path.text.isEmpty = true := fun hempty => hne (String.isEmpty_iff.mp hempty)
    rw [Disk.makeDirectoriesIn, Disk.makeDirectoriesIn, if_neg hempty, if_neg hempty]
    rcases h.makeDirectory hmisses with ⟨fault, hbefore, hafter⟩ |
      ⟨made, left, hbefore, hafter, hlacks⟩
    · rw [hbefore, hafter]
      simp only
      cases hidle : Path.isIdle last with
      | true =>
        -- A single idle piece: nothing is missing.
        have hnil : front = [] := hlast.resolve_right (by rw [hidle]; exact Bool.noConfusion)
        rw [hnil, List.nil_append] at hpieces
        obtain ⟨fault', hfault', hfound, -⟩ := makeDirectory_of_idle before hpieces hidle hne
        obtain rfl := Except.error.inj (hbefore.symm.trans hfault')
        rw [hfound, if_neg Bool.false_ne_true, if_neg Bool.false_ne_true, h.isDirectory]
        exact ⟨rfl, h⟩
      | false =>
        obtain ⟨parent, rest, hparent, -, -, habove⟩ := Path.parent?_of_step hpieces hidle
        have hpathParent : parent.text ≠ "" → parent.IsTrim ∧ parent.Misses places := by
          intro hparentNe
          obtain ⟨hempty, -⟩ | ⟨-, habs, htrimParent, hheads⟩ := habove
          · exact absurd hempty hparentNe
          · exact ⟨htrimParent, fun location hvisits =>
              hmisses location (hheads.passes habs hpieces hvisits).visits⟩
        have hparents := ih h hpathParent
        by_cases hmissing : fault.isNotFound = true
        · rw [if_pos hmissing, if_pos hmissing, hparent]
          simp only
          generalize Disk.makeDirectoriesIn fuel before parent = made at hparents ⊢
          generalize Disk.makeDirectoriesIn fuel after parent = left at hparents ⊢
          obtain ⟨result, made⟩ := made
          obtain ⟨result', left⟩ := left
          obtain ⟨rfl, habove⟩ := hparents
          cases result' with
          | error fault => exact ⟨rfl, habove⟩
          | ok done =>
            simp only
            rcases habove.makeDirectory hmisses with ⟨fault, hbefore, hafter⟩ |
              ⟨made', left', hbefore, hafter, hlacks⟩
            · rw [hbefore, hafter]
              simp only
              rw [habove.isDirectory]
              exact ⟨rfl, habove⟩
            · rw [hbefore, hafter]
              exact ⟨rfl, hlacks⟩
        · rw [if_neg hmissing, if_neg hmissing, h.isDirectory]
          exact ⟨rfl, h⟩
    · rw [hbefore, hafter]
      exact ⟨rfl, hlacks⟩

/-- Directories are made on both disks with the same result. -/
theorem makeDirectories (h : before.Lacks after places) (htrim : path.IsTrim)
    (hmisses : path.Misses places) :
    (after.makeDirectories path).1 = (before.makeDirectories path).1 ∧
      (before.makeDirectories path).2.Lacks (after.makeDirectories path).2 places :=
  h.makeDirectoriesIn _ fun _ => ⟨htrim, hmisses⟩

/-! ### Replacing files and removing trees -/

/-- A file is put on both disks, or on neither for the same reason.  It may be missing on one of
them before. -/
lemma write (h : before.Lacks after places)
    (hmisses : ∀ location, path.Passes location → ¬ places location) (content : Bytes) :
    (∃ fault, before.write path content = .error fault ∧
        after.write path content = .error fault) ∨
      ∃ written left, before.write path content = .ok written ∧
        after.write path content = .ok left ∧ written.Lacks left places := by
  unfold Disk.write
  cases hstart : start path with
  | error fault => exact .inl ⟨fault, rfl, rfl⟩
  | ok first =>
    have hfirst : after.node? first = before.node? first := by
      rw [(after.directory_start hstart).1, (before.directory_start hstart).1]
    have hentry : after.entryAt first path.pieces = before.entryAt first path.pieces := by
      refine entryAt_alike hfirst fun front rest heq hne => ?_
      refine h.node?_eq (hmisses _ ⟨front, rest, heq, hne, ?_⟩)
      rw [eq_of_start hstart]
    simp only [bind, Except.bind]
    rw [hentry]
    cases htarget : before.entryAt first path.pieces with
    | error fault => exact .inl ⟨fault, rfl, rfl⟩
    | ok target =>
      obtain ⟨-, hroot, hcurrent⟩ := eq_of_entryAt htarget
      have hdirectory : after.isDirectoryAt target = before.isDirectoryAt target := by
        unfold isDirectoryAt
        rw [decide_eq_decide]
        exact h.directory target
      simp only
      rw [hdirectory]
      split_ifs
      · exact .inl ⟨isDirectoryFault, rfl, rfl⟩
      · exact .inr ⟨_, _, rfl, rfl, h.insert hroot hcurrent (.file content)⟩

/-- The same tree is removed from both disks, or none is removed from either. -/
lemma removeTree (h : before.Lacks after places) (path : Path) :
    (before.removeTree path = .ok (before.prune path.place) ∧
        after.removeTree path = .ok (after.prune path.place)) ∨
      (∃ fault, before.removeTree path = .error fault) ∧
        ∃ fault, after.removeTree path = .error fault := by
  by_cases hopens : before.Opens path
  · exact .inl ⟨removeTree_of_opens hopens, removeTree_of_opens (h.opens_iff.mpr hopens)⟩
  · have hfails : ∀ disk : Disk, ¬ disk.Opens path →
        ∃ fault, disk.removeTree path = .error fault := by
      intro disk hclosed
      unfold Disk.removeTree
      cases hfind : disk.find path with
      | error fault => exact ⟨fault, rfl⟩
      | ok found =>
        obtain ⟨location, node⟩ := found
        obtain ⟨hleads, -, hnode⟩ := find_eq_ok.mp hfind
        cases node with
        | file content => exact ⟨notDirectory, rfl⟩
        | directory => exact absurd ⟨hleads, hnode⟩ hclosed
    exact .inr ⟨hfails before hopens, hfails after fun hafter => hopens (h.opens_iff.mp hafter)⟩

end Lacks

end Disk

namespace Write

variable {write : Write} {writes : List Write} {before after : Disk} {places : Location → Prop}

/-- A file is replaced on both disks with the same result, if the way to it misses the locations. -/
lemma lacks_run (hfiled : write.Filed) (h : before.Lacks after places)
    (hmisses : ∀ location, write.path.Passes location → ¬ places location) :
    (write.run after).1 = (write.run before).1 ∧
      (write.run before).2.Lacks (write.run after).2 places := by
  obtain ⟨base, dir, name, hdir, -, -, hdirectory, hway⟩ := hfiled.directory
  have htrim : write.directory.IsTrim := by
    rw [hdirectory]
    exact base.isTrim_join hdir
  have hmade := h.makeDirectories htrim fun location hvisits =>
    hmisses location ((hway location).mp hvisits)
  unfold run
  generalize before.makeDirectories write.directory = made at hmade ⊢
  generalize after.makeDirectories write.directory = left at hmade ⊢
  obtain ⟨result, made⟩ := made
  obtain ⟨result', left⟩ := left
  obtain ⟨rfl, hlacks⟩ := hmade
  cases result' with
  | error fault => exact ⟨rfl, hlacks⟩
  | ok done =>
    simp only
    rcases hlacks.write hmisses write.content with ⟨fault, hbefore, hafter⟩ |
      ⟨written, left', hbefore, hafter, hwritten⟩
    · rw [hbefore, hafter]
      exact ⟨rfl, hlacks⟩
    · rw [hbefore, hafter]
      exact ⟨rfl, hwritten⟩

/-- Several files are replaced on both disks with the same result, if the ways to them miss the
locations. -/
theorem lacks_runAll (hfiled : ∀ write ∈ writes, write.Filed) (h : before.Lacks after places)
    (hmisses : ∀ write ∈ writes, ∀ location, write.path.Passes location → ¬ places location) :
    (runAll writes after).1 = (runAll writes before).1 ∧
      (runAll writes before).2.Lacks (runAll writes after).2 places := by
  induction writes generalizing before after with
  | nil => exact ⟨rfl, h⟩
  | cons write rest ih =>
    have hfirst := lacks_run (hfiled write List.mem_cons_self) h (hmisses write List.mem_cons_self)
    rw [runAll_cons, runAll_cons]
    generalize write.run before = made at hfirst ⊢
    generalize write.run after = left at hfirst ⊢
    obtain ⟨result, made⟩ := made
    obtain ⟨result', left⟩ := left
    obtain ⟨rfl, hlacks⟩ := hfirst
    cases result' with
    | error error => exact ⟨rfl, hlacks⟩
    | ok done =>
      exact ih (fun other hother => hfiled other (List.mem_cons_of_mem _ hother)) hlacks
        fun other hother => hmisses other (List.mem_cons_of_mem _ hother)

end Write

end Recompile
