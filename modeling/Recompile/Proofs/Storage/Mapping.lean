import Mathlib.Data.List.Nodup
import Mathlib.Logic.Function.Basic
import Recompile.Proofs.Storage.Artifact
import Recompile.Proofs.Storage.Reaching
import Recompile.Store

/-!
# Archives are maps

Seen from outside, an archive that starts empty and that nobody else writes to is a map from keys to
payloads for each shelf (`Archive.Contents`): storing puts a payload, collecting keeps the live
keys, and reading changes nothing (`Archive.Call.apply`).  After any calls the archive answers as
the map says (`Archive.behaves_as_map`).

The proof keeps up a relation between the map and the disk (`Archive.Represents`).  It says more
than that the stored payloads can be read: whatever a shelf lists is the file of a stored key, so
that collecting meets nothing else, and no file stands on the way to a shelf.  Each call keeps the
relation (`Archive.Represents.run`), hence all calls do (`Archive.Represents.runAll`).
-/

namespace Recompile

namespace Archive

/-! ### Calls -/

/-- What an archive holds: a payload for each stored key of each shelf. -/
abbrev Contents := Shelf → Store String Bytes

/-- Nothing is stored. -/
def Contents.nothing : Contents := fun _ => ∅

/-- A key is stored if there is a payload. -/
lemma Contents.mem_iff {contents : Contents} {shelf : Shelf} {key : String} :
    key ∈ contents shelf ↔ ∃ payload, (contents shelf)[key]? = some payload := by
  rw [Std.ExtTreeMap.mem_iff_isSome_getElem?, Option.isSome_iff_exists]

/-- A call of an archive. -/
inductive Call where
  /-- Store a payload. -/
  | write (shelf : Shelf) (key : String) (payload : Bytes)
  /-- Read a payload. -/
  | read (shelf : Shelf) (key : String)
  /-- Remove what is not live. -/
  | collect (shelf : Shelf) (live : List String)

namespace Call

/-- The keys under which something is stored or read are keys. -/
def Keyed : Call → Prop
  | write _ key _ => IsKey key
  | read _ key => IsKey key
  | collect _ _ => True

/-- What a call does to the disk. -/
def run (archive : Archive) (disk : Disk) : Call → Disk
  | write shelf key payload => (archive.write disk shelf.directory key payload).2
  | read _ _ => disk
  | collect shelf live => (archive.collect disk shelf.directory live).2

/-- What a call does to the contents. -/
def apply (contents : Contents) : Call → Contents
  | write shelf key payload =>
    Function.update contents shelf ((contents shelf).insert key payload)
  | read _ _ => contents
  | collect shelf live =>
    Function.update contents shelf ((contents shelf).filter fun key _ => live.contains key)

variable {contents : Contents} {shelf other : Shelf} {key found : String} {payload : Bytes}
variable {live : List String}

/-- Storing puts a payload under its key. -/
lemma getElem?_apply_write :
    ((write shelf key payload).apply contents other)[found]? =
      if other = shelf ∧ found = key then some payload else (contents other)[found]? := by
  rw [apply, Function.update_apply]
  by_cases hshelf : other = shelf
  · rw [if_pos hshelf, Std.ExtTreeMap.getElem?_insert, hshelf]
    simp only [Std.LawfulEqCmp.compare_eq_iff_eq, true_and, eq_comm (a := key)]
  · rw [if_neg hshelf, if_neg fun hboth => hshelf hboth.1]

/-- Collecting keeps the live keys of its shelf. -/
lemma getElem?_apply_collect :
    ((collect shelf live).apply contents other)[found]? =
      if other = shelf ∧ found ∉ live then none else (contents other)[found]? := by
  rw [apply, Function.update_apply]
  by_cases hshelf : other = shelf
  · rw [if_pos hshelf, Std.ExtTreeMap.getElem?_filter', hshelf]
    cases (contents shelf)[found]? with
    | none => exact (ite_self _).symm
    | some payload =>
      rw [Option.filter_some, List.contains_eq_mem]
      by_cases hlive : found ∈ live
      · rw [decide_eq_true hlive, if_pos rfl, if_neg fun hboth => hboth.2 hlive]
      · rw [decide_eq_false hlive, if_neg Bool.false_ne_true, if_pos ⟨rfl, hlive⟩]
  · rw [if_neg hshelf, if_neg fun hboth => hshelf hboth.1]

/-- The key of a payload that is put is stored, with all others. -/
lemma mem_apply_write : found ∈ (write shelf key payload).apply contents other ↔
    (other = shelf ∧ found = key) ∨ found ∈ contents other := by
  rw [Contents.mem_iff, Contents.mem_iff, getElem?_apply_write]
  split_ifs with hsame
  · exact iff_of_true ⟨payload, rfl⟩ (.inl hsame)
  · exact (or_iff_right hsame).symm

/-- Of the keys of a shelf that is collected only live ones are stored. -/
lemma mem_apply_collect : found ∈ (collect shelf live).apply contents other ↔
    ¬ (other = shelf ∧ found ∉ live) ∧ found ∈ contents other := by
  rw [Contents.mem_iff, Contents.mem_iff, getElem?_apply_collect]
  split_ifs with hgone
  · refine iff_of_false ?_ fun hboth => hboth.1 hgone
    rintro ⟨payload, hstored⟩
    cases hstored
  · exact (and_iff_right hgone).symm

end Call

/-- Collecting a shelf took away the stored keys that are not live, and nothing else. -/
structure Collected (archive : Archive) (contents : Contents) (shelf : Shelf) (live : List String)
    (before after : Disk) : Prop where
  /-- These keys are gone. -/
  gone : ∀ key ∈ contents shelf, key ∉ live → after.node? (archive.locate shelf key) = none
  /-- Everything else is as it was. -/
  kept : ∀ location, (∀ key ∈ contents shelf, key ∉ live → location ≠ archive.locate shelf key) →
    after.node? location = before.node? location
  /-- So is all that is on the other shelf. -/
  other : ∀ other, other ≠ shelf → ∀ rest,
    after.node? (archive.root.place ++ other.directory :: rest) =
      before.node? (archive.root.place ++ other.directory :: rest)

/-- What was collected is known from what is left. -/
lemma Collected.of_node? {archive : Archive} {contents : Contents} {shelf : Shelf}
    {live : List String} {before after : Disk}
    (hgone : ∀ key ∈ contents shelf, key ∉ live → after.node? (archive.locate shelf key) = none)
    (hkept : ∀ location,
      (∀ key ∈ contents shelf, key ∉ live → location ≠ archive.locate shelf key) →
        after.node? location = before.node? location) :
    archive.Collected contents shelf live before after where
  gone := hgone
  kept := hkept
  other other hother rest := by
    refine hkept _ fun key _ _ hplace => hother ?_
    have hnames := List.append_cancel_left hplace
    exact Shelf.directory_injective (List.cons_eq_cons.mp hnames).1

/-- The archive answers on the disk as a map with these contents does. -/
structure ActsAs (archive : Archive) (contents : Contents) (disk : Disk) : Prop where
  /-- Every payload can be stored. -/
  write : ∀ (shelf : Shelf) (key : String) (payload : Bytes), IsKey key →
    (archive.write disk shelf.directory key payload).1 = .ok ()
  /-- What is stored is read. -/
  read : ∀ (shelf : Shelf) (key : String) (payload : Bytes), IsKey key →
    (contents shelf)[key]? = some payload →
      archive.read disk shelf.directory key = .ok payload
  /-- What is not stored is not found. -/
  missing : ∀ (shelf : Shelf) (key : String), IsKey key → (contents shelf)[key]? = none →
    ∃ error, archive.read disk shelf.directory key = .error error ∧ error.isNotFound = true
  /-- Collecting removes the stored keys that are not live, and counts them. -/
  collect : ∀ (shelf : Shelf) (live : List String), ∃ left,
    archive.collect disk shelf.directory live =
        (.ok ((contents shelf).keys.filter (· ∉ live)).length, left) ∧
      archive.Collected contents shelf live disk left

/-! ### The map and the disk -/

/-- The disk holds the contents of the archive, and nothing else where the archive keeps them. -/
structure Represents (archive : Archive) (contents : Contents) (disk : Disk) : Prop where
  /-- What is stored has a key. -/
  keyed : ∀ (shelf : Shelf) (key : String), key ∈ contents shelf → IsKey key
  /-- What is stored can be read. -/
  stored : ∀ (shelf : Shelf) (key : String) (payload : Bytes),
    (contents shelf)[key]? = some payload →
      disk.read (archive.pathOf shelf.directory key) = .ok (Artifact.encode archive.tool payload)
  /-- Whatever a shelf lists is stored. -/
  listed : ∀ (shelf : Shelf) (name : String) (node : Node),
    disk.node? (archive.root.place ++ [shelf.directory, name]) = some node →
      ∃ key ∈ contents shelf, name = key ++ "." ++ ending
  /-- There is no file on the way to a shelf. -/
  way : ∀ (shelf : Shelf) (location : Location),
    (archive.root.join ⟨shelf.directory⟩).Visits location → ∀ content,
      disk.node? location ≠ some (.file content)

namespace Represents

variable {archive : Archive} {contents : Contents} {disk : Disk} {shelf : Shelf} {key : String}
variable {payload : Bytes} {live : List String}

/-- An archive that starts empty holds nothing. -/
lemma of_startsEmpty (h : archive.StartsEmpty disk) :
    archive.Represents Contents.nothing disk where
  keyed shelf key hmem := absurd hmem Std.ExtTreeMap.not_mem_empty
  stored shelf key payload hstored := by
    unfold Contents.nothing at hstored
    rw [Std.ExtTreeMap.getElem?_empty] at hstored
    cases hstored
  listed shelf name node hnode := by
    obtain ⟨made, -, hadds, hempty⟩ := h.exists_made shelf
    rcases hadds (archive.root.place ++ [shelf.directory, name]) with hsame | ⟨hnone, -, -⟩
    · rw [← Disk.node?_congr hsame, hempty] at hnode
      cases hnode
    · rw [hnone] at hnode
      cases hnode
  way shelf location hvisits content hfile := by
    obtain ⟨made, hopens, hadds, -⟩ := h.exists_made shelf
    have hdirectory : made.node? location = some .directory := by
      rcases hvisits.cases with hpasses | rfl
      · exact hopens.1.directory hpasses
      · exact hopens.2
    rcases hadds location with hsame | ⟨hnone, -, -⟩
    · rw [Disk.node?_congr hsame, hfile] at hdirectory
      cases hdirectory
    · rw [hnone] at hfile
      cases hfile

/-! ### Reading -/

/-- At the location of a stored key there is its artifact. -/
lemma content? (h : archive.Represents contents disk)
    (hstored : (contents shelf)[key]? = some payload) :
    disk.content? (archive.locate shelf key) = some (Artifact.encode archive.tool payload) := by
  have hkey := h.keyed shelf key (Contents.mem_iff.mpr ⟨payload, hstored⟩)
  rw [← place_pathOf archive shelf hkey.isName]
  exact Disk.content?_of_read (h.stored shelf key payload hstored)

/-- At the location of a key there is something only if it is stored. -/
lemma mem_of_node? (h : archive.Represents contents disk) {node : Node}
    (hnode : disk.node? (archive.locate shelf key) = some node) : key ∈ contents shelf := by
  obtain ⟨other, hother, hname⟩ := h.listed shelf _ node hnode
  rwa [file_injective hname]

/-- There is no directory at the location of a key. -/
lemma node?_ne_directory (h : archive.Represents contents disk) :
    disk.node? (archive.locate shelf key) ≠ some .directory := by
  intro hdirectory
  obtain ⟨payload, hstored⟩ := Contents.mem_iff.mp (h.mem_of_node? hdirectory)
  have hcontent := h.content? hstored
  unfold Disk.content? at hcontent
  rw [hdirectory] at hcontent
  cases hcontent

/-- A stored payload is read. -/
lemma read (h : archive.Represents contents disk)
    (hheader : Artifact.headerCost archive.tool payload ≤ Artifact.maxHeader)
    (hstored : (contents shelf)[key]? = some payload) :
    archive.read disk shelf.directory key = .ok payload :=
  read_eq_ok.mpr ⟨_, h.stored shelf key payload hstored, Artifact.payload_encode hheader⟩

/-- A key that is not stored is not found. -/
lemma missing (h : archive.Represents contents disk) (hreaches : archive.Reaches)
    (hkey : IsKey key) (hnone : (contents shelf)[key]? = none) :
    archive.read disk shelf.directory key =
      .error (.disk (archive.pathOf shelf.directory key) Disk.missing) := by
  obtain ⟨goal, hleads⟩ := hreaches.leads shelf key hkey
  have hplace : disk.node? (archive.pathOf shelf.directory key).place = none := by
    rw [place_pathOf archive shelf hkey.isName, Option.eq_none_iff_forall_ne_some]
    intro node hnode
    have hmem := h.mem_of_node? hnode
    obtain ⟨payload, hstored⟩ := Contents.mem_iff.mp hmem
    rw [hnone] at hstored
    cases hstored
  unfold Archive.read
  simp only [Disk.read_eq_missing hleads
    (fun location hpasses => h.way shelf location (visits_of_passes hkey hpasses)) hplace]

/-! ### Storing -/

/-- A payload can be stored. -/
lemma exists_write (h : archive.Represents contents disk) (shelf : Shelf)
    (hreaches : archive.Reaches) (hkey : IsKey key) (payload : Bytes) :
    ∃ written, archive.write disk shelf.directory key payload = (.ok (), written) := by
  have hplace : (archive.storing shelf.directory key payload).path.place =
      archive.locate shelf key := place_pathOf archive shelf hkey.isName
  obtain ⟨goal, hleads⟩ := hreaches.leads shelf key hkey
  refine Write.run_of_free (filed_storing archive shelf hkey payload) hleads ⟨?_, ?_⟩ ?_
  · intro write hwrite
    rw [List.mem_singleton.mp hwrite]
    exact fun location hpasses => h.way shelf location (visits_of_passes hkey hpasses)
  · intro write hwrite
    rw [List.mem_singleton.mp hwrite, hplace]
    exact h.node?_ne_directory
  · intro write hwrite other hother
    rw [List.mem_singleton.mp hwrite, List.mem_singleton.mp hother, hplace]
    exact fun hpasses => hreaches.apart shelf shelf _ (visits_of_passes hkey hpasses)

/-- Once a payload is stored, the contents have it. -/
lemma write {written : Disk} (h : archive.Represents contents disk) (hreaches : archive.Reaches)
    (hkey : IsKey key)
    (hrun : archive.write disk shelf.directory key payload = (.ok (), written)) :
    archive.Represents ((Call.write shelf key payload).apply contents) written := by
  constructor
  case keyed =>
    intro other found hmem
    rcases Call.mem_apply_write.mp hmem with ⟨-, rfl⟩ | hmem
    · exact hkey
    · exact h.keyed other found hmem
  case stored =>
    intro other found content hstored
    rw [Call.getElem?_apply_write] at hstored
    split_ifs at hstored with hsame
    · have hread := Write.read_of_run hrun
      rw [hsame.1, hsame.2, ← Option.some.inj hstored]
      exact hread
    · have hfound := h.keyed other found (Contents.mem_iff.mpr ⟨content, hstored⟩)
      exact read_of_write hkey hfound hsame hrun (h.stored other found content hstored)
  case listed =>
    intro other name node hnode
    rcases node?_of_write hkey hrun (archive.root.place ++ [other.directory, name]) with
      hsame | hplace | ⟨-, hvisits⟩
    · rw [hsame] at hnode
      obtain ⟨found, hfound, hname⟩ := h.listed other name node hnode
      exact ⟨found, Call.mem_apply_write.mpr (.inr hfound), hname⟩
    · have hnames := List.append_cancel_left hplace
      rw [List.cons_eq_cons, List.cons_eq_cons] at hnames
      have hshelf := Shelf.directory_injective hnames.1
      exact ⟨key, Call.mem_apply_write.mpr (.inl ⟨hshelf, rfl⟩), hnames.2.1⟩
    · exact absurd hvisits (hreaches.apart shelf other name)
  case way =>
    intro other location hvisits content hfile
    rcases node?_of_write hkey hrun location with hsame | hplace | ⟨hthere, -⟩
    · rw [hsame] at hfile
      exact h.way other location hvisits content hfile
    · rw [hplace] at hvisits
      exact hreaches.apart other shelf _ hvisits
    · rw [hthere] at hfile
      cases hfile

/-! ### Collecting -/

/-- A shelf lists the files of the stored keys. -/
lemma mem_entries (h : archive.Represents contents disk) {name : String} :
    name ∈ (disk.entriesAt (archive.root.join ⟨shelf.directory⟩).place).map (·.1) ↔
      ∃ key ∈ contents shelf, name = key ++ "." ++ ending := by
  have hplace : (archive.root.join ⟨shelf.directory⟩).place ++ [name] =
      archive.root.place ++ [shelf.directory, name] := by
    rw [place_shelf, List.append_assoc]
    rfl
  have hroot : ¬ (archive.root.place ++ [shelf.directory, name] = [] ∨
      archive.root.place ++ [shelf.directory, name] = Disk.current) := by
    rintro (hnil | hcurrent)
    · exact absurd (congrArg List.length hnil) (by simp)
    · exact absurd (congrArg List.length hcurrent) (by simp [Disk.current])
  have hlisted : disk.nodes[archive.root.place ++ [shelf.directory, name]]? =
      disk.node? (archive.root.place ++ [shelf.directory, name]) := (if_neg hroot).symm
  rw [Disk.mem_entriesAt, hplace, hlisted]
  constructor
  · rintro ⟨node, hnode⟩
    exact h.listed shelf name node hnode
  · rintro ⟨key, hkey, rfl⟩
    obtain ⟨payload, hstored⟩ := Contents.mem_iff.mp hkey
    have hcontent := h.content? hstored
    unfold Disk.content? locate at hcontent
    split at hcontent
    · exact ⟨_, by assumption⟩
    · cases hcontent

/-- What is dead on a shelf are the files of the stored keys that are not live. -/
lemma mem_deadNames (h : archive.Represents contents disk) {name : String} :
    name ∈ deadNames live disk (archive.root.join ⟨shelf.directory⟩).place ↔
      ∃ key ∈ contents shelf, key ∉ live ∧ name = key ++ "." ++ ending := by
  unfold deadNames
  rw [List.mem_filter, h.mem_entries]
  constructor
  · rintro ⟨⟨key, hkey, rfl⟩, hdead⟩
    rw [isDead_file (h.keyed shelf key hkey).ne_empty, List.contains_eq_mem] at hdead
    exact ⟨key, hkey, by simpa using hdead, rfl⟩
  · rintro ⟨key, hkey, hdead, rfl⟩
    refine ⟨⟨key, hkey, rfl⟩, ?_⟩
    rw [isDead_file (h.keyed shelf key hkey).ne_empty, List.contains_eq_mem,
      decide_eq_false hdead]
    rfl

/-- There are as many dead files on a shelf as stored keys that are not live. -/
lemma length_deadNames (h : archive.Represents contents disk) (shelf : Shelf)
    (live : List String) :
    (deadNames live disk (archive.root.join ⟨shelf.directory⟩).place).length =
      ((contents shelf).keys.filter (· ∉ live)).length := by
  have hnames : (deadNames live disk (archive.root.join ⟨shelf.directory⟩).place).Nodup :=
    nodup_deadNames live disk _
  have hkeys : (((contents shelf).keys.filter (· ∉ live)).map (· ++ "." ++ ending)).Nodup :=
    (Std.ExtTreeMap.nodup_keys.filter _).map fun _ _ => file_injective
  have hperm : (deadNames live disk (archive.root.join ⟨shelf.directory⟩).place).Perm
      (((contents shelf).keys.filter (· ∉ live)).map (· ++ "." ++ ending)) := by
    refine (List.perm_ext_iff_of_nodup hnames hkeys).mpr fun name => ?_
    simp only [h.mem_deadNames, List.mem_map, List.mem_filter, Std.ExtTreeMap.mem_keys,
      decide_eq_true_eq, and_assoc, eq_comm (a := name)]
  rw [hperm.length_eq, List.length_map]

/-- A shelf that has no directory has no stored keys. -/
lemma opens_of_mem (h : archive.Represents contents disk) (hmem : key ∈ contents shelf) :
    disk.Opens (archive.root.join ⟨shelf.directory⟩) := by
  obtain ⟨payload, hstored⟩ := Contents.mem_iff.mp hmem
  have hleads := (Disk.read_eq_ok.mp (h.stored shelf key payload hstored)).1
  exact ((Disk.leads_join (h.keyed shelf key hmem).isName (text_shelf_ne archive shelf)).mp
    hleads).2.2

/-- If a shelf has no directory, collecting it does nothing. -/
lemma collect_of_closed (h : archive.Represents contents disk)
    (hclosed : ¬ disk.Opens (archive.root.join ⟨shelf.directory⟩)) :
    archive.collect disk shelf.directory live = (.ok 0, disk) := by
  rcases archive.collect_cases disk shelf.directory live with
    ⟨hopens, -⟩ | ⟨-, ⟨-, heq⟩ | ⟨hcontains, -⟩⟩
  · exact absurd hopens hclosed
  · exact heq
  · -- Something would be at the place of the shelf, and it is no file.
    unfold Disk.contains at hcontains
    cases hfind : disk.find (archive.root.join ⟨shelf.directory⟩) with
    | error fault =>
      rw [hfind] at hcontains
      cases hcontains
    | ok found =>
      obtain ⟨location, node⟩ := found
      obtain ⟨hleads, -, hnode⟩ := Disk.find_eq_ok.mp hfind
      cases node with
      | directory => exact absurd ⟨hleads, hnode⟩ hclosed
      | file content => exact absurd hnode (h.way shelf _ (Path.visits_place _) content)

/-- Collecting removes the stored keys that are not live, and counts them. -/
lemma exists_collect (h : archive.Represents contents disk) (shelf : Shelf) (live : List String) :
    ∃ left, archive.collect disk shelf.directory live =
        (.ok ((contents shelf).keys.filter (· ∉ live)).length, left) ∧
      archive.Collected contents shelf live disk left := by
  by_cases hopens : disk.Opens (archive.root.join ⟨shelf.directory⟩)
  · have hcollect := (archive.collect_cases disk shelf.directory live).resolve_right
      fun hclosed => hclosed.1 hopens
    have hread : ∀ name ∈ deadNames live disk (archive.root.join ⟨shelf.directory⟩).place,
        Path.IsName name ∧ ∃ content,
          disk.read ((archive.root.join ⟨shelf.directory⟩).join ⟨name⟩) = .ok content := by
      intro name hname
      obtain ⟨key, hkey, -, rfl⟩ := h.mem_deadNames.mp hname
      obtain ⟨payload, hstored⟩ := Contents.mem_iff.mp hkey
      exact ⟨(h.keyed shelf key hkey).isName, _, h.stored shelf key payload hstored⟩
    obtain ⟨left, hleft, hnodes⟩ :=
      removeAll_of_read disk (nodup_deadNames live disk _) hread
    have hlocate : ∀ key, (archive.root.join ⟨shelf.directory⟩).place ++
        [key ++ "." ++ ending] = archive.locate shelf key := by
      intro key
      rw [place_shelf, List.append_assoc]
      rfl
    refine ⟨left, ?_, .of_node? ?_ ?_⟩
    · rw [hcollect.2, hleft, h.length_deadNames]
    · intro key hkey hdead
      rw [hnodes, if_pos]
      exact ⟨_, h.mem_deadNames.mpr ⟨key, hkey, hdead, rfl⟩, (hlocate key).symm⟩
    · intro location hlocation
      rw [hnodes, if_neg]
      rintro ⟨name, hname, hplace⟩
      obtain ⟨key, hkey, hdead, rfl⟩ := h.mem_deadNames.mp hname
      exact hlocation key hkey hdead (hplace.trans (hlocate key))
  · have hnone : ∀ key, key ∉ contents shelf := fun key hkey => hopens (h.opens_of_mem hkey)
    have hnil : (contents shelf).keys = [] :=
      List.eq_nil_iff_forall_not_mem.mpr fun key hkey =>
        hnone key (Std.ExtTreeMap.mem_keys.mp hkey)
    rw [h.collect_of_closed hopens, hnil]
    exact ⟨disk, rfl, .of_node? (fun key hkey => absurd hkey (hnone key)) fun _ _ => rfl⟩

/-- Once a shelf was collected, the contents have its live keys. -/
lemma collect {left : Disk} (h : archive.Represents contents disk)
    (hcollected : archive.Collected contents shelf live disk left) :
    archive.Represents ((Call.collect shelf live).apply contents) left := by
  -- Nothing but files is removed.
  have hkeeps : disk.KeepsDirectories left := by
    intro location hdirectory
    rw [hcollected.kept location ?_]
    · exact hdirectory
    · rintro found - - rfl
      exact h.node?_ne_directory hdirectory
  constructor
  case keyed =>
    intro other found hmem
    exact h.keyed other found (Call.mem_apply_collect.mp hmem).2
  case stored =>
    intro other found content hstored
    rw [Call.getElem?_apply_collect] at hstored
    split_ifs at hstored with hgone
    have hfound := h.keyed other found (Contents.mem_iff.mpr ⟨content, hstored⟩)
    refine Disk.read_mono (h.stored other found content hstored) hkeeps (Disk.content?_congr ?_)
    rw [place_pathOf archive other hfound.isName]
    apply hcollected.kept
    intro key _ hdead hplace
    obtain ⟨hshelf, rfl⟩ := locate_injective archive hplace
    exact hgone ⟨hshelf, hdead⟩
  case listed =>
    intro other name node hnode
    have hthere : disk.node? (archive.root.place ++ [other.directory, name]) = some node := by
      rw [← hcollected.kept _ ?_]
      · exact hnode
      · intro key hkey hdead hplace
        rw [hplace, hcollected.gone key hkey hdead] at hnode
        cases hnode
    obtain ⟨found, hfound, rfl⟩ := h.listed other name node hthere
    refine ⟨found, Call.mem_apply_collect.mpr ⟨?_, hfound⟩, rfl⟩
    rintro ⟨rfl, hdead⟩
    have hgone := hcollected.gone found hfound hdead
    unfold locate at hgone
    rw [hgone] at hnode
    cases hnode
  case way =>
    intro other location hvisits content hfile
    refine h.way other location hvisits content ?_
    rw [← hcollected.kept location ?_]
    · exact hfile
    · intro key hkey hdead hplace
      rw [hplace, hcollected.gone key hkey hdead] at hfile
      cases hfile

/-! ### Runs -/

/-- Each call keeps the relation between the contents and the disk. -/
theorem run (h : archive.Represents contents disk) (hreaches : archive.Reaches) {call : Call}
    (hkeyed : call.Keyed) : archive.Represents (call.apply contents) (call.run archive disk) := by
  cases call with
  | write shelf key payload =>
    obtain ⟨written, hrun⟩ := h.exists_write shelf hreaches hkeyed payload
    have hafter := h.write hreaches hkeyed hrun
    rwa [Call.run, hrun]
  | read shelf key => exact h
  | collect shelf live =>
    obtain ⟨left, hrun, hcollected⟩ := h.exists_collect shelf live
    have hafter := h.collect hcollected
    rwa [Call.run, hrun]

/-- Several calls keep it as well. -/
theorem runAll {calls : List Call} (h : archive.Represents contents disk)
    (hreaches : archive.Reaches) (hkeyed : ∀ call ∈ calls, call.Keyed) :
    archive.Represents (calls.foldl Call.apply contents) (calls.foldl (Call.run archive) disk) := by
  induction calls generalizing contents disk with
  | nil => exact h
  | cons call rest ih =>
    exact ih (h.run hreaches (hkeyed call List.mem_cons_self))
      fun other hother => hkeyed other (List.mem_cons_of_mem _ hother)

/-- An archive answers as a map with the contents that the disk holds. -/
theorem actsAs (h : archive.Represents contents disk) (hreaches : archive.Reaches)
    (hheader : ∀ payload, Artifact.headerCost archive.tool payload ≤ Artifact.maxHeader) :
    archive.ActsAs contents disk where
  write shelf key payload hkey := by
    obtain ⟨written, hrun⟩ := h.exists_write shelf hreaches hkey payload
    rw [hrun]
  read shelf key payload _ hstored := h.read (hheader payload) hstored
  missing shelf key hkey hnone := ⟨_, h.missing hreaches hkey hnone, rfl⟩
  collect shelf live := h.exists_collect shelf live

end Represents

/-- An archive that starts empty and that nobody else writes to behaves as a map, if the header of
its tool can be read: after any calls every payload can be stored, what is read under a key is what
was stored there last and not collected since, nothing else is found, and collecting a shelf removes
the stored keys that are not live, counts them, and leaves the other shelf alone. -/
theorem behaves_as_map {archive : Archive} {disk : Disk} (hstart : archive.StartsEmpty disk)
    (hheader : ∀ payload, Artifact.headerCost archive.tool payload ≤ Artifact.maxHeader)
    {calls : List Call} (hkeyed : ∀ call ∈ calls, call.Keyed) :
    archive.ActsAs (calls.foldl Call.apply Contents.nothing)
      (calls.foldl (Call.run archive) disk) :=
  ((Represents.of_startsEmpty hstart).runAll hstart.reaches hkeyed).actsAs hstart.reaches hheader

/-- An archive in the current directory. -/
def nearby : Archive := ⟨⟨"cache"⟩, "5.4.2"⟩

/-- A disk on which its root is an empty directory. -/
def nearbyDisk : Disk := Disk.empty.insert ["", "cache"] .directory

/-- Calls that store a payload on each shelf, replace one of them and collect the other. -/
def nearbyCalls : List Call :=
  [.write .code "0123456789abcdef0123456789abcdef" [1],
    .write .diagnostics "0123456789abcdef0123456789abcdef" [2],
    .write .code "0123456789abcdef0123456789abcdef" [3],
    .read .code "ffffffffffffffffffffffffffffffff",
    .collect .diagnostics ["ffffffffffffffffffffffffffffffff"]]

theorem behaves_as_map_nearby :
    nearby.StartsEmpty nearbyDisk ∧
    (∀ payload, Artifact.headerCost nearby.tool payload ≤ Artifact.maxHeader) ∧
    (∀ call ∈ nearbyCalls, call.Keyed) ∧
    nearby.read (nearbyCalls.foldl (Call.run nearby) nearbyDisk) "code"
      "0123456789abcdef0123456789abcdef" = .ok [3] ∧
    (∃ error, nearby.read (nearbyCalls.foldl (Call.run nearby) nearbyDisk) "diagnostics"
      "0123456789abcdef0123456789abcdef" = .error error ∧ error.isNotFound = true) ∧
    ∃ left, nearby.collect (nearbyCalls.foldl (Call.run nearby) nearbyDisk) "code" [] =
      (.ok 1, left) := by
  have hkey : IsKey "0123456789abcdef0123456789abcdef" := by decide +kernel
  have hstart : nearby.StartsEmpty nearbyDisk := by
    refine startsEmpty_of_opens ⟨⟨Disk.current, by decide, by decide +kernel⟩, by decide +kernel⟩
      (fun name rest => ?_) (by decide)
    have hplace : nearby.root.place = ["", "cache"] := by decide
    rw [hplace, nearbyDisk, Disk.node?_insert _ _ (by decide) (by decide), if_neg (by simp)]
    rfl
  have hheader : ∀ payload, Artifact.headerCost nearby.tool payload ≤ Artifact.maxHeader := by
    intro payload
    have hcost : Artifact.headerCost nearby.tool payload =
        Artifact.headerCost nearby.tool [] := rfl
    rw [hcost]
    decide
  have hkeyed : ∀ call ∈ nearbyCalls, call.Keyed := by
    simp only [nearbyCalls, List.forall_mem_cons, List.not_mem_nil, false_imp_iff, implies_true,
      and_true]
    exact ⟨hkey, hkey, hkey, (by decide +kernel : IsKey _), trivial⟩
  have hacts := behaves_as_map hstart hheader hkeyed
  refine ⟨hstart, hheader, hkeyed, hacts.read .code _ [3] hkey ?_,
    hacts.missing .diagnostics _ hkey ?_, ?_⟩
  · decide +kernel
  · decide +kernel
  · obtain ⟨left, hleft, -⟩ := hacts.collect .code []
    exact ⟨left, hleft⟩

end Archive

end Recompile
