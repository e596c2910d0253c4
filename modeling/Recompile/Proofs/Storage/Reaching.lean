import Mathlib.Data.String.Basic
import Recompile.Proofs.Storage.Collecting
import Recompile.Proofs.Storage.Retry

/-!
# Where an archive keeps its artifacts

An archive that starts empty on a disk (`Archive.StartsEmpty`) reaches the files of all keys: their
paths can be followed once the directories of the shelves are there, and none of them passes through
an entry of a shelf, so that one artifact never stands on the way to another (`Archive.Reaches`).
The latter is a property of the paths alone; it holds because a path through an entry of a shelf
could only be followed if that entry were there.

An empty directory with a path that is not too long is a root of an archive that starts empty
(`Archive.startsEmpty_of_opens`).
-/

namespace Recompile

/-! ### Paths -/

namespace Path

/-- Joining two paths adds at most a slash. -/
lemma utf8ByteSize_join_le (base path : Path) :
    (base.join path).text.utf8ByteSize ≤
      base.text.utf8ByteSize + 1 + path.text.utf8ByteSize := by
  have hslash : ("/" : String).utf8ByteSize = 1 := rfl
  unfold Path.join
  split_ifs
  · omega
  · rw [String.utf8ByteSize_append]
    omega
  · rw [String.utf8ByteSize_append, String.utf8ByteSize_append, hslash]

/-- A path visits what it passes, and its place. -/
lemma Visits.cases {path : Path} {location : Location} (h : path.Visits location) :
    path.Passes location ∨ location = path.place := by
  obtain ⟨front, rest, hpieces, hlocation⟩ := h
  by_cases hrest : rest = []
  · rw [hrest, List.append_nil] at hpieces
    rw [← hpieces] at hlocation
    exact .inr hlocation.symm
  · exact .inl ⟨front, rest, hpieces, hrest, hlocation⟩

end Path

namespace Disk

variable {disk goal : Disk} {path : Path}

/-- A name that a disk takes can be followed in a directory, if the path does not get too long. -/
lemma Opens.leads_join {name : String} (h : disk.Opens path) (hname : Path.IsName name)
    (hnull : '\x00' ∉ name.toList) (hshort : ¬ maxName < name.utf8ByteSize)
    (hfits : (path.join ⟨name⟩).text.utf8ByteSize < maxPath) : disk.Leads (path.join ⟨name⟩) := by
  obtain ⟨first, hstart, -⟩ := h.1
  obtain ⟨hsome, hpathNull, -⟩ := start_eq hstart
  have hne : path.text ≠ "" := by
    intro hnil
    rw [hnil] at hsome
    cases hsome
  have hnone : '\x00' ∉ (path.join ⟨name⟩).text.toList := by
    obtain ⟨cs, hbase, hjoin⟩ :=
      Path.toList_join_relative hname.not_isAbsolute fun hnil =>
        hne (String.toList_eq_nil_iff.mp hnil)
    rw [hjoin, List.mem_append, List.mem_cons]
    rintro (hmem | hslash | hmem)
    · have hthere : '\x00' ∈ path.text.toList := by
        rcases hbase with hbase | hbase <;> rw [hbase]
        · exact hmem
        · exact List.mem_append_left _ hmem
      rw [List.contains_eq_mem, decide_eq_true hthere] at hpathNull
      cases hpathNull
    · exact absurd hslash (by decide)
    · exact hnull hmem
  refine (Disk.leads_join hname hne).mpr
    ⟨⟨if (path.join ⟨name⟩).isAbsolute then [] else current, ?_⟩, hshort, h⟩
  unfold start
  rw [if_neg fun hempty => path.join_ne_empty hname (String.isEmpty_iff.mp hempty),
    if_neg (by rw [List.contains_eq_mem, decide_eq_true_iff]; exact hnone),
    if_neg (Nat.not_le.mpr hfits)]

/-- If a path can be followed on some disk and no file is on its way, then the file at its place is
missing if there is nothing. -/
lemma read_eq_missing (hleads : goal.Leads path)
    (hclear : ∀ location, path.Passes location → ∀ content,
      disk.node? location ≠ some (.file content))
    (hnode : disk.node? path.place = none) : disk.read path = .error missing := by
  obtain ⟨first, hstart, hgoal⟩ := hleads
  unfold read find
  simp only [hstart, bind, Except.bind]
  cases hfollow : disk.follow first path.pieces with
  | error fault =>
    obtain rfl := eq_missing_of_follow hgoal (fun front rest hpieces hrest =>
      hclear _ ⟨front, rest, hpieces, hrest, by rw [eq_of_start hstart]⟩) hfollow
    rfl
  | ok target =>
    have htarget : target = path.place := by
      rw [eq_of_follow hfollow, eq_of_start hstart]
      rfl
    rw [← htarget] at hnode
    simp only [hnode]
    rfl

/-- A directory lists what is below it. -/
lemma mem_entriesAt {location : Location} {name : String} :
    name ∈ (disk.entriesAt location).map (·.1) ↔
      ∃ node, disk.nodes[location ++ [name]]? = some node := by
  unfold entriesAt
  rw [List.mem_map]
  constructor
  · rintro ⟨entry, hentry, rfl⟩
    obtain ⟨⟨place, node⟩, hnode, heq⟩ := List.mem_filterMap.mp hentry
    rw [← eq_of_entry heq]
    exact ⟨node, Std.ExtTreeMap.mem_toList_iff_getElem?_eq_some.mp hnode⟩
  · rintro ⟨node, hnode⟩
    refine ⟨(name, node), List.mem_filterMap.mpr ⟨(location ++ [name], node),
      Std.ExtTreeMap.mem_toList_iff_getElem?_eq_some.mpr hnode, ?_⟩, rfl⟩
    simp only [List.dropLast_concat, if_true, List.getLast?_concat, Option.map_some]

/-- A file that can be read can be removed. -/
lemma removeFile_of_read {content : Bytes} (h : disk.read path = .ok content) :
    ∃ removed, disk.removeFile path = .ok removed := by
  obtain ⟨hleads, hcontent⟩ := read_eq_ok.mp h
  unfold content? at hcontent
  split at hcontent
  · rename_i raw hnode
    unfold removeFile
    rw [find_eq_ok.mpr ⟨hleads, rfl, hnode⟩]
    exact ⟨_, rfl⟩
  · cases hcontent

end Disk

namespace Archive

/-! ### Keys -/

/-- The digits that keys are made of. -/
def alphabet : List Char := "0123456789abcdef".toList

/-- A key as the library makes them: thirty-two hexadecimal digits. -/
structure IsKey (key : String) : Prop where
  /-- There are thirty-two of them. -/
  length : key.length = 32
  /-- They are digits. -/
  digits : ∀ c ∈ key.toList, c ∈ alphabet

instance (key : String) : Decidable (IsKey key) :=
  decidable_of_iff (key.length = 32 ∧ key.toList.all (alphabet.contains ·) = true)
    ⟨fun h => ⟨h.1, fun c hc => List.contains_iff_mem.mp (List.all_eq_true.mp h.2 c hc)⟩,
      fun h => ⟨h.length, List.all_eq_true.mpr fun c hc =>
        List.contains_iff_mem.mpr (h.digits c hc)⟩⟩

/-- Digits neither separate pieces of a path nor end it, and take one byte each. -/
lemma plain_of_digit {c : Char} (h : c ∈ alphabet) : c ≠ '/' ∧ c ≠ '\x00' ∧ c.utf8Size = 1 := by
  have hall : alphabet.all (fun c => c != '/' && c != '\x00' && c.utf8Size == 1) = true := by
    decide
  simpa [and_assoc] using List.all_eq_true.mp hall c h

namespace IsKey

variable {key other : String}

/-- A key is not empty. -/
lemma ne_empty (h : IsKey key) : key ≠ "" := by
  rintro rfl
  exact absurd h.length (by decide)

/-- The file of a key has a name. -/
lemma isName (h : IsKey key) : Path.IsName (key ++ "." ++ ending) :=
  isName_file fun c hc => (plain_of_digit (h.digits c hc)).1

/-- A key has thirty-two bytes. -/
lemma utf8ByteSize_eq (h : IsKey key) : key.utf8ByteSize = 32 := by
  have hchars : ∀ cs : List Char, (∀ c ∈ cs, c ∈ alphabet) →
      String.utf8Len cs = cs.length := by
    intro cs hdigits
    induction cs with
    | nil => rfl
    | cons c cs ih =>
      rw [String.utf8Len_cons, List.length_cons,
        ih fun other hother => hdigits other (List.mem_cons_of_mem c hother),
        (plain_of_digit (hdigits c List.mem_cons_self)).2.2]
  have hlen := hchars key.toList h.digits
  rwa [String.length_toList, h.length, ← String.utf8ByteSize_ofList, String.ofList_toList] at hlen

/-- The name of its file has thirty-six bytes. -/
lemma utf8ByteSize_file (h : IsKey key) : (key ++ "." ++ ending).utf8ByteSize = 36 := by
  rw [String.utf8ByteSize_append, String.utf8ByteSize_append, h.utf8ByteSize_eq]
  rfl

/-- The name is short enough. -/
lemma short (h : IsKey key) : ¬ Disk.maxName < (key ++ "." ++ ending).utf8ByteSize := by
  rw [h.utf8ByteSize_file]
  decide

/-- The name has no character that no path can have. -/
lemma no_null (h : IsKey key) : '\x00' ∉ (key ++ "." ++ ending).toList := by
  rw [String.append_assoc, String.toList_append, List.mem_append]
  rintro (hkey | hending)
  · exact (plain_of_digit (h.digits _ hkey)).2.1 rfl
  · exact absurd hending (by decide)

end IsKey

/-- The text of a digest is a key: it has thirty-two hexadecimal digits. -/
lemma isKey_hex (digest : Digest) : IsKey digest.hex where
  length := by
    rw [Digest.hex, Bytes.length_hex, digest.length_bytes]
  digits c hc := by
    have hdigits : ∀ n < 16, Nat.digitChar n ∈ alphabet := by decide
    obtain ⟨n, hn, rfl⟩ := Bytes.exists_digit_of_mem_hex hc
    exact hdigits n hn

/-- No file is dead twice. -/
lemma nodup_deadNames (live : List String) (disk : Disk) (location : Location) :
    (deadNames live disk location).Nodup :=
  (disk.nodup_entriesAt location).filter _

/-- Files of a directory that can be read can be removed one by one, and nothing else is removed. -/
lemma removeAll_of_read {directory : Path} {names : List String} (disk : Disk)
    (hnodup : names.Nodup) (hnames : ∀ name ∈ names, Path.IsName name ∧
      ∃ content, disk.read (directory.join ⟨name⟩) = .ok content) :
    ∃ left, removeAll directory names disk = (.ok names.length, left) ∧
      ∀ location, left.node? location =
        if ∃ name ∈ names, location = directory.place ++ [name] then none
        else disk.node? location := by
  induction names generalizing disk with
  | nil => exact ⟨disk, removeAll_nil directory disk, fun location => by simp⟩
  | cons name rest ih =>
    obtain ⟨hfirst, hrest⟩ := List.nodup_cons.mp hnodup
    obtain ⟨hname, content, hread⟩ := hnames name List.mem_cons_self
    obtain ⟨removed, hremove⟩ := Disk.removeFile_of_read hread
    have hstill : ∀ other ∈ rest, Path.IsName other ∧
        ∃ content, removed.read (directory.join ⟨other⟩) = .ok content := by
      intro other hother
      obtain ⟨hisName, content, hcontent⟩ := hnames other (List.mem_cons_of_mem _ hother)
      refine ⟨hisName, content, (Disk.read_removeFile hremove ?_).mpr hcontent⟩
      rw [directory.place_join hisName, directory.place_join hname]
      intro hplaces
      rw [List.singleton_inj.mp (List.append_cancel_left hplaces)] at hother
      exact hfirst hother
    obtain ⟨left, hleft, hnodes⟩ := ih removed hrest hstill
    refine ⟨left, ?_, fun location => ?_⟩
    · rw [removeAll.eq_def]
      simp only [hremove, hleft, List.length_cons]
    · rw [hnodes, Disk.node?_removeFile hremove, directory.place_join hname]
      simp only [List.mem_cons, exists_eq_or_imp]
      by_cases hother : ∃ other ∈ rest, location = directory.place ++ [other]
      · rw [if_pos hother, if_pos (.inr hother)]
      · rw [if_neg hother]
        simp only [hother, or_false]

/-- If all that is listed in a directory are files that can be read, then those that are dead are
gone once it was collected. -/
theorem collect_of_read {archive : Archive} {disk : Disk} {subdirectory : String}
    (hopens : disk.Opens (archive.root.join ⟨subdirectory⟩))
    (hfiles : ∀ name node,
      disk.nodes[(archive.root.join ⟨subdirectory⟩).place ++ [name]]? = some node →
        Path.IsName name ∧
          ∃ content, disk.read ((archive.root.join ⟨subdirectory⟩).join ⟨name⟩) = .ok content)
    (live : List String) :
    ∃ count left, archive.collect disk subdirectory live = (.ok count, left) ∧
      ∀ name, isDead live name = true →
        left.content? ((archive.root.join ⟨subdirectory⟩).place ++ [name]) = none := by
  rcases archive.collect_cases disk subdirectory live with ⟨-, hcollect⟩ | ⟨hnot, -⟩
  · obtain ⟨left, hleft, hnodes⟩ := removeAll_of_read disk (nodup_deadNames live disk _)
      fun name hname =>
        let ⟨node, hnode⟩ := Disk.mem_entriesAt.mp (List.mem_filter.mp hname).1
        hfiles name node hnode
    refine ⟨_, left, hcollect.trans hleft, fun name hdead => ?_⟩
    unfold Disk.content?
    rw [hnodes]
    split_ifs with hgone
    · rfl
    · have hnode : disk.nodes[(archive.root.join ⟨subdirectory⟩).place ++ [name]]? = none := by
        rw [Option.eq_none_iff_forall_ne_some]
        exact fun node hnode => hgone
          ⟨name, List.mem_filter.mpr ⟨Disk.mem_entriesAt.mpr ⟨node, hnode⟩, hdead⟩, rfl⟩
      unfold Disk.node?
      rw [hnode]
      split_ifs <;> rfl
  · exact absurd hopens hnot

/-! ### Where an archive reaches -/

/-- The archive starts empty on a disk: the directory of each shelf is there or can be made, it is
empty once it is there, and the paths of artifacts are not longer than a disk takes. -/
structure StartsEmpty (archive : Archive) (disk : Disk) : Prop where
  /-- The directory is there or can be made, and then it has no entry. -/
  opens : ∀ shelf : Shelf, ∃ made,
    disk.makeDirectories (archive.root.join ⟨shelf.directory⟩) = (.ok (), made) ∧
      ∀ name, made.node? (archive.root.place ++ [shelf.directory, name]) = none
  /-- The paths are not too long. -/
  fits : ∀ (shelf : Shelf) (key : String), IsKey key →
    (archive.pathOf shelf.directory key).text.utf8ByteSize < Disk.maxPath

/-- The paths of artifacts can be followed on some disks, and none of them passes through an entry
of a shelf. -/
structure Reaches (archive : Archive) : Prop where
  /-- The paths can be followed. -/
  leads : ∀ (shelf : Shelf) (key : String), IsKey key →
    ∃ goal : Disk, goal.Leads (archive.pathOf shelf.directory key)
  /-- They pass through no entry. -/
  apart : ∀ (shelf other : Shelf) (name : String),
    ¬ (archive.root.join ⟨shelf.directory⟩).Visits
      (archive.root.place ++ [other.directory, name])

section Start

variable {archive : Archive} {disk : Disk} {shelf other : Shelf} {key : String}

/-- The place of a shelf. -/
lemma place_shelf (archive : Archive) (shelf : Shelf) :
    (archive.root.join ⟨shelf.directory⟩).place = archive.root.place ++ [shelf.directory] :=
  Path.place_join _ shelf.isName_directory

/-- The way to an artifact is the way to its shelf. -/
lemma visits_of_passes {location : Location} (hkey : IsKey key)
    (h : (archive.pathOf shelf.directory key).Passes location) :
    (archive.root.join ⟨shelf.directory⟩).Visits location := by
  rcases Path.passes_join hkey.isName h with hshelf | rfl
  · exact hshelf.visits
  · exact Path.visits_place _

/-- The way to a shelf is that to the root, the root, and the shelf. -/
lemma visits_shelf {location : Location}
    (h : (archive.root.join ⟨shelf.directory⟩).Visits location) :
    archive.root.Passes location ∨ location = archive.root.place ∨
      location = archive.root.place ++ [shelf.directory] := by
  rcases h.cases with hshelf | hplace
  · exact (Path.passes_join shelf.isName_directory hshelf).imp_right .inl
  · rw [place_shelf] at hplace
    exact .inr (.inr hplace)

/-- The directory of a shelf has a path that is not empty. -/
lemma text_shelf_ne (archive : Archive) (shelf : Shelf) :
    (archive.root.join ⟨shelf.directory⟩).text ≠ "" :=
  Path.join_ne_empty _ shelf.isName_directory

/-- If the directory of a shelf can be opened, the paths of its artifacts can be followed. -/
lemma leads_pathOf (hkey : IsKey key)
    (hfits : (archive.pathOf shelf.directory key).text.utf8ByteSize < Disk.maxPath)
    (h : disk.Opens (archive.root.join ⟨shelf.directory⟩)) :
    disk.Leads (archive.pathOf shelf.directory key) :=
  h.leads_join hkey.isName hkey.no_null hkey.short hfits

/-- The file of an artifact is in the directory of its shelf. -/
lemma filed_storing (archive : Archive) (shelf : Shelf) (hkey : IsKey key) (payload : Bytes) :
    (archive.storing shelf.directory key payload).Filed :=
  ⟨archive.root, shelf.directory, _, shelf.isName_directory, hkey.isName, rfl⟩

/-- Storing a payload puts the artifact at its location and makes directories on the way to the
shelf. -/
lemma node?_of_write {written : Disk} {payload : Bytes} (hkey : IsKey key)
    (hrun : archive.write disk shelf.directory key payload = (.ok (), written))
    (location : Location) :
    written.node? location = disk.node? location ∨ location = archive.locate shelf key ∨
      written.node? location = some .directory ∧
        (archive.root.join ⟨shelf.directory⟩).Visits location := by
  have halters := Write.alters_run (filed_storing archive shelf hkey payload) disk
  unfold Archive.write at hrun
  rw [hrun] at halters
  rcases halters location with hsame | ⟨write, hwrite, hlocation, -⟩ |
    ⟨-, hthere, write, hwrite, hpasses⟩
  · exact .inl (Disk.node?_congr hsame)
  · rw [List.mem_singleton.mp hwrite] at hlocation
    exact .inr (.inl (hlocation.trans (place_pathOf archive shelf hkey.isName)))
  · rw [List.mem_singleton.mp hwrite] at hpasses
    exact .inr (.inr ⟨hthere, visits_of_passes hkey hpasses⟩)

/-- Storing a payload leaves what is read under other keys. -/
lemma read_of_write {written : Disk} {payload raw : Bytes} {found : String}
    (hkey : IsKey key) (hfound : IsKey found) (hne : ¬ (other = shelf ∧ found = key))
    (hrun : archive.write disk shelf.directory key payload = (.ok (), written))
    (hread : disk.read (archive.pathOf other.directory found) = .ok raw) :
    written.read (archive.pathOf other.directory found) = .ok raw := by
  have hkeeps := (archive.storing shelf.directory key payload).keeps_run disk
  unfold Archive.write at hrun
  rw [hrun] at hkeeps
  refine Disk.read_mono hread hkeeps ?_
  rw [Write.content?_run hrun, if_neg]
  intro hplaces
  apply hne
  apply locate_injective archive
  rw [← place_pathOf archive other hfound.isName, ← place_pathOf archive shelf hkey.isName]
  exact hplaces

/-- If the archive starts empty, the directory of each shelf can be opened on some disk that has
only more directories on the way to it, and nothing below it. -/
lemma StartsEmpty.exists_made (h : archive.StartsEmpty disk) (shelf : Shelf) :
    ∃ made : Disk, made.Opens (archive.root.join ⟨shelf.directory⟩) ∧
      disk.AddsDirectories made (archive.root.join ⟨shelf.directory⟩).Visits ∧
      ∀ name, made.node? (archive.root.place ++ [shelf.directory, name]) = none := by
  obtain ⟨made, hmade, hempty⟩ := h.opens shelf
  have hadds := Disk.addsDirectories_makeDirectoriesIn
    ((archive.root.join ⟨shelf.directory⟩).text.length + 1) disk
    fun _ => archive.root.isTrim_join shelf.isName_directory
  unfold Disk.makeDirectories at hmade
  rw [hmade] at hadds
  exact ⟨made, Disk.opens_of_makeDirectoriesIn hmade (text_shelf_ne archive shelf), hadds,
    hempty⟩

/-- An archive that starts empty somewhere reaches its artifacts. -/
lemma StartsEmpty.reaches (h : archive.StartsEmpty disk) : archive.Reaches := by
  constructor
  · intro shelf key hkey
    obtain ⟨made, hopens, -, -⟩ := h.exists_made shelf
    exact ⟨made, leads_pathOf hkey (h.fits shelf key hkey) hopens⟩
  · intro shelf other name hvisits
    have hlong : archive.root.place ++ [other.directory, name] ≠ archive.root.place := by
      intro heq
      exact absurd (congrArg List.length heq) (by simp)
    have hdeep : archive.root.place ++ [other.directory, name] ≠
        archive.root.place ++ [shelf.directory] := by
      intro heq
      exact absurd (congrArg List.length heq) (by simp)
    rcases visits_shelf hvisits with hroot | hplace | hplace
    · -- The way to the root is part of the way to the other shelf, below which nothing is.
      obtain ⟨made, hopens, -, hempty⟩ := h.exists_made other
      have hthere := hopens.1.directory (hroot.join other.isName_directory)
      rw [hempty] at hthere
      cases hthere
    · exact hlong hplace
    · exact hdeep hplace

/-- The directory of a shelf has a short name without odd characters. -/
lemma plain_directory (shelf : Shelf) :
    '\x00' ∉ shelf.directory.toList ∧ shelf.directory.utf8ByteSize ≤ 11 := by
  cases shelf <;> decide

/-- Joining the directory of a shelf makes a path little longer. -/
lemma utf8ByteSize_shelf_le (archive : Archive) (shelf : Shelf) :
    (archive.root.join ⟨shelf.directory⟩).text.utf8ByteSize ≤
      archive.root.text.utf8ByteSize + 12 := by
  have hjoin := archive.root.utf8ByteSize_join_le ⟨shelf.directory⟩
  have hdirectory := (plain_directory shelf).2
  simp only at hjoin
  omega

/-- The way to an empty directory and to what would be in it are directories and nothing. -/
lemma node?_of_visits (hroot : disk.Opens archive.root)
    (hempty : ∀ name rest, disk.node? (archive.root.place ++ name :: rest) = none)
    {location : Location} (hvisits : (archive.root.join ⟨shelf.directory⟩).Visits location) :
    disk.node? location = some .directory ∨
      location = archive.root.place ++ [shelf.directory] ∧ disk.node? location = none := by
  rcases visits_shelf hvisits with hpasses | rfl | rfl
  · exact .inl (hroot.1.directory hpasses)
  · exact .inl hroot.2
  · exact .inr ⟨rfl, hempty _ _⟩

/-- An archive starts empty if its root is an empty directory whose path is not too long. -/
theorem startsEmpty_of_opens (hroot : disk.Opens archive.root)
    (hempty : ∀ name rest, disk.node? (archive.root.place ++ name :: rest) = none)
    (hfits : archive.root.text.utf8ByteSize + 49 < Disk.maxPath) : archive.StartsEmpty disk where
  fits shelf key hkey := by
    have hshelf := utf8ByteSize_shelf_le archive shelf
    have hjoin := (archive.root.join ⟨shelf.directory⟩).utf8ByteSize_join_le
      ⟨key ++ "." ++ ending⟩
    simp only [hkey.utf8ByteSize_file] at hjoin
    unfold pathOf
    omega
  opens shelf := by
    obtain ⟨hnull, hsize⟩ := plain_directory shelf
    have hshelf := utf8ByteSize_shelf_le archive shelf
    have hleads : disk.Leads (archive.root.join ⟨shelf.directory⟩) :=
      hroot.leads_join shelf.isName_directory hnull (by unfold Disk.maxName; omega) (by omega)
    have hclear : ∀ location, (archive.root.join ⟨shelf.directory⟩).Visits location →
        ∀ content, disk.node? location ≠ some (.file content) := by
      intro location hvisits content hfile
      rcases node?_of_visits hroot hempty hvisits with hthere | ⟨-, hnone⟩
      · rw [hthere] at hfile
        cases hfile
      · rw [hnone] at hfile
        cases hfile
    obtain ⟨made, hmade, -, hadds⟩ := Disk.makeDirectories_ok
      (archive.root.isTrim_join shelf.isName_directory) (text_shelf_ne archive shelf) hleads hclear
    refine ⟨made, hmade, fun name => ?_⟩
    rcases hadds (archive.root.place ++ [shelf.directory, name]) with hsame | ⟨-, -, hvisits⟩
    · rw [Disk.node?_congr hsame, hempty]
    · rcases node?_of_visits hroot hempty hvisits with hthere | ⟨hplace, -⟩
      · rw [hempty] at hthere
        cases hthere
      · exact absurd (congrArg List.length hplace) (by simp)

end Start

end Archive

end Recompile
