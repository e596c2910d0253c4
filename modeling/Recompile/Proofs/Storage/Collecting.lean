import Recompile.Proofs.Storage.Lacking

/-!
# Collecting twice

Collecting removes the dead files of a directory one after the other, in the order of their names,
until one of them cannot be removed.  Afterwards the disk lacks dead files and no others
(`Archive.lacks_collect`), and what is left of the dead files is what was not removed.  So
collecting again removes nothing: either no dead file is left, or the first one that is left is the
one that could not be removed (`Archive.collect_again`). -/

namespace Recompile

namespace Disk

variable {disk removed : Disk} {path : Path}

/-! ### Entries -/

/-- A file that is removed was there, and it is no longer listed. -/
lemma removeFile_eq (h : disk.removeFile path = .ok removed) :
    (∃ content, disk.node? path.place = some (.file content)) ∧
      removed = ⟨disk.nodes.erase path.place⟩ := by
  unfold removeFile at h
  cases hfind : disk.find path with
  | error fault => rw [hfind] at h; cases h
  | ok found =>
    obtain ⟨location, node⟩ := found
    obtain ⟨-, rfl, hnode⟩ := find_eq_ok.mp hfind
    rw [hfind] at h
    cases node with
    | directory => cases h
    | file content => exact ⟨⟨content, hnode⟩, (Except.ok.inj h).symm⟩

/-- What is listed after something was erased. -/
lemma toList_erase (nodes : Std.ExtTreeMap Location Node) (location : Location) :
    (nodes.erase location).toList = nodes.toList.filter fun entry => entry.1 ≠ location := by
  have herase : nodes.erase location = nodes.filter fun place _ => place ≠ location := by
    refine Std.ExtTreeMap.ext_getElem? fun place => ?_
    rw [Std.ExtTreeMap.getElem?_erase, Std.ExtTreeMap.getElem?_filter']
    simp only [Std.LawfulEqCmp.compare_eq_iff_eq]
    split_ifs with hplace
    · cases nodes[place]? with
      | none => rfl
      | some node => rw [Option.filter_some, hplace, decide_eq_false (not_not_intro rfl)]; rfl
    · cases nodes[place]? with
      | none => rfl
      | some node => rw [Option.filter_some, decide_eq_true (Ne.symm hplace)]; rfl
  rw [herase, Std.ExtTreeMap.toList_filter]

/-- What is listed at a location is an entry of the directory above it, under its last name. -/
lemma eq_of_entry {place location : Location} {node : Node} {entry : String × Node}
    (h : (if place.dropLast = location then place.getLast?.map fun name => (name, node)
      else none) = some entry) : place = location ++ [entry.1] := by
  split_ifs at h with hparent
  obtain ⟨name, hlast, rfl⟩ := Option.map_eq_some_iff.mp h
  rw [← hparent]
  exact (List.dropLast_append_getLast? _ hlast).symm

/-- The entries of a directory after a file was removed. -/
lemma entriesAt_removeFile (h : disk.removeFile path = .ok removed) (location : Location) :
    removed.entriesAt location =
      (disk.entriesAt location).filter fun entry => location ++ [entry.1] ≠ path.place := by
  obtain ⟨-, rfl⟩ := removeFile_eq h
  unfold entriesAt
  rw [toList_erase, List.filterMap_filter, List.filter_filterMap]
  congr 1
  funext ⟨place, node⟩
  dsimp only
  cases hentry : (if place.dropLast = location then place.getLast?.map fun name => (name, node)
      else none) with
  | none =>
    rw [Option.filter_none]
    split_ifs <;> rfl
  | some entry => rw [Option.filter_some, eq_of_entry hentry]

/-- The entries of a directory have different names. -/
lemma nodup_entriesAt (disk : Disk) (location : Location) :
    ((disk.entriesAt location).map (·.1)).Nodup := by
  have hdistinct := Std.ExtTreeMap.distinct_keys_toList (t := disk.nodes)
  unfold entriesAt List.Nodup
  rw [List.pairwise_map, List.pairwise_filterMap]
  refine hdistinct.imp ?_
  rintro ⟨place, node⟩ ⟨place', node'⟩ hne entry hentry other hother hname
  apply hne
  rw [eq_of_entry hentry, eq_of_entry hother, hname]
  exact Std.ReflCmp.compare_self

/-- What a directory lists has a name. -/
lemma Spelled.isName_of_mem_entriesAt (h : disk.Spelled) {location : Location} {name : String}
    (hname : name ∈ (disk.entriesAt location).map (·.1)) : Path.IsName name := by
  obtain ⟨entry, hentry, rfl⟩ := List.mem_map.mp hname
  unfold entriesAt at hentry
  obtain ⟨⟨place, node⟩, hnode, heq⟩ := List.mem_filterMap.mp hentry
  refine h place node entry.1 (Std.ExtTreeMap.mem_toList_iff_getElem?_eq_some.mp hnode) ?_
  rw [eq_of_entry heq, List.getLast?_concat]

end Disk

namespace Archive

variable {disk : Disk} {directory : Path} {names live : List String}

/-! ### Removing one by one -/

/-- To remove no files is to do nothing. -/
lemma removeAll_nil (directory : Path) (disk : Disk) :
    removeAll directory [] disk = (.ok 0, disk) :=
  rfl

/-- The dead files of a directory. -/
def deadNames (live : List String) (disk : Disk) (location : Location) : List String :=
  ((disk.entriesAt location).map (·.1)).filter (isDead live)

/-- After a file was removed, the others are left. -/
lemma deadNames_removeFile {removed : Disk} {path : Path}
    (h : disk.removeFile path = .ok removed) (location : Location) :
    deadNames live removed location =
      (deadNames live disk location).filter fun name => location ++ [name] ≠ path.place := by
  have hnames : (removed.entriesAt location).map (·.1) =
      ((disk.entriesAt location).map (·.1)).filter fun name => location ++ [name] ≠ path.place := by
    rw [Disk.entriesAt_removeFile h, List.filter_map]
    rfl
  unfold deadNames
  rw [hnames, List.filter_comm]

/-- Removing files one by one takes files of the directory away. -/
lemma lacks_removeAll (hnames : ∀ name ∈ names, Path.IsName name) (disk : Disk) :
    disk.Lacks (removeAll directory names disk).2
      fun location => ∃ name ∈ names, location = directory.place ++ [name] := by
  refine removeAll_induction
    (motive := fun left => disk.Lacks left
      fun location => ∃ name ∈ names, location = directory.place ++ [name])
    (fun name hmem {middle removed} hremove hlacks => hlacks.trans fun location => ?_)
    (.refl disk _)
  rw [Disk.node?_removeFile hremove]
  split_ifs with hlocation
  · rw [hlocation]
    exact .inr ⟨(Disk.removeFile_eq hremove).1, rfl, name, hmem,
      directory.place_join (hnames name hmem)⟩
  · exact .inl rfl

/-- Once dead files were removed one by one, either none is left, or the first that is left cannot
be removed. -/
lemma removeAll_deadNames (hnames : ∀ name ∈ names, Path.IsName name)
    (h : deadNames live disk directory.place = names) :
    removeAll directory (deadNames live (removeAll directory names disk).2 directory.place)
        (removeAll directory names disk).2 =
      ((removeAll directory names disk).1.map fun _ => 0, (removeAll directory names disk).2) := by
  induction names generalizing disk with
  | nil =>
    rw [removeAll_nil, h, removeAll_nil]
    rfl
  | cons name rest ih =>
    cases hremove : disk.removeFile (directory.join ⟨name⟩) with
    | error fault =>
      have hall : removeAll directory (name :: rest) disk =
          (.error (.disk (directory.join ⟨name⟩) fault), disk) := by
        rw [removeAll.eq_def]
        simp only [hremove]
      rw [hall, h, hall]
      rfl
    | ok removed =>
      have hleft : deadNames live removed directory.place = rest := by
        have hnodup : (name :: rest).Nodup := by
          rw [← h]
          exact (disk.nodup_entriesAt directory.place).filter _
        rw [deadNames_removeFile hremove, h,
          directory.place_join (hnames name List.mem_cons_self)]
        rw [List.filter_cons, if_neg (by simp), List.filter_eq_self]
        intro other hother
        have hne : other ≠ name := by
          rintro rfl
          exact (List.nodup_cons.mp hnodup).1 hother
        simpa using hne
      have hrest := ih (fun other hother => hnames other (List.mem_cons_of_mem _ hother)) hleft
      have hall : removeAll directory (name :: rest) disk =
          ((removeAll directory rest removed).1.map (· + 1),
            (removeAll directory rest removed).2) := by
        rw [removeAll.eq_def]
        simp only [hremove]
        cases removeAll directory rest removed with
        | mk result left => cases result <;> rfl
      rw [hall, hrest]
      simp only
      cases (removeAll directory rest removed).1 <;> rfl

/-- Only of no files none are removed. -/
lemma eq_nil_of_removeAll {left : Disk} (h : removeAll directory names disk = (.ok 0, left)) :
    names = [] := by
  cases names with
  | nil => rfl
  | cons name rest =>
    rw [removeAll.eq_def] at h
    simp only at h
    split at h
    · cases h
    · split at h
      · cases h
      · cases h

/-- Removing files of one directory leaves the dead files of others. -/
lemma deadNames_removeAll_of_ne (hnames : ∀ name ∈ names, Path.IsName name) {location : Location}
    (hne : location ≠ directory.place) (disk : Disk) :
    deadNames live (removeAll directory names disk).2 location = deadNames live disk location := by
  refine removeAll_induction
    (motive := fun left => deadNames live left location = deadNames live disk location)
    (fun name hmem {middle removed} hremove hsame => ?_) rfl
  rw [← hsame, deadNames_removeFile hremove, List.filter_eq_self]
  intro other _
  rw [directory.place_join (hnames name hmem), decide_eq_true_eq]
  exact fun heq => hne (List.append_inj' heq rfl).1

/-! ### Collecting -/

section Collecting

variable {archive : Archive} {subdirectory : String}

/-- Collecting removes the dead files of the subdirectory, if there is one.  If there is none it
removes nothing. -/
lemma collect_cases (archive : Archive) (disk : Disk) (subdirectory : String)
    (live : List String) :
    (disk.Opens (archive.root.join ⟨subdirectory⟩) ∧
        archive.collect disk subdirectory live = removeAll (archive.root.join ⟨subdirectory⟩)
          (deadNames live disk (archive.root.join ⟨subdirectory⟩).place) disk) ∨
      ¬ disk.Opens (archive.root.join ⟨subdirectory⟩) ∧
        ((disk.contains (archive.root.join ⟨subdirectory⟩) = false ∧
            archive.collect disk subdirectory live = (.ok 0, disk)) ∨
          disk.contains (archive.root.join ⟨subdirectory⟩) = true ∧
            ∃ error, archive.collect disk subdirectory live = (.error error, disk)) := by
  unfold collect Disk.contains Disk.entries
  dsimp only
  cases hfind : disk.find (archive.root.join ⟨subdirectory⟩) with
  | error fault =>
    refine .inr ⟨fun hopens => ?_, .inl ⟨rfl, rfl⟩⟩
    rw [Disk.find_eq_ok.mpr ⟨hopens.1, rfl, hopens.2⟩] at hfind
    cases hfind
  | ok found =>
    obtain ⟨location, node⟩ := found
    obtain ⟨hleads, rfl, hnode⟩ := Disk.find_eq_ok.mp hfind
    cases node with
    | directory => exact .inl ⟨⟨hleads, hnode⟩, rfl⟩
    | file content =>
      refine .inr ⟨fun hopens => ?_, .inr ⟨rfl, _, rfl⟩⟩
      rw [hopens.2] at hnode
      cases hnode

/-- After collecting the disk lacks dead files of the subdirectory and no others. -/
theorem lacks_collect (h : disk.Spelled) (archive : Archive) (subdirectory : String)
    (live : List String) :
    disk.Lacks (archive.collect disk subdirectory live).2 fun location =>
      disk.Opens (archive.root.join ⟨subdirectory⟩) ∧
        ∃ name, Path.IsName name ∧ isDead live name = true ∧
          location = (archive.root.join ⟨subdirectory⟩).place ++ [name] := by
  rcases archive.collect_cases disk subdirectory live with
    ⟨hopens, heq⟩ | ⟨-, ⟨-, heq⟩ | ⟨-, error, heq⟩⟩
  · have hnames : ∀ name ∈ deadNames live disk (archive.root.join ⟨subdirectory⟩).place,
        Path.IsName name ∧ isDead live name = true := by
      intro name hname
      obtain ⟨hmem, hdead⟩ := List.mem_filter.mp hname
      exact ⟨h.isName_of_mem_entriesAt hmem, hdead⟩
    rw [heq]
    apply (lacks_removeAll (fun name hname => (hnames name hname).1) disk).mono
    rintro location ⟨name, hname, hlocation⟩
    exact ⟨hopens, name, (hnames name hname).1, (hnames name hname).2, hlocation⟩
  · rw [heq]
    exact .refl disk _
  · rw [heq]
    exact .refl disk _

/-- Collecting again removes nothing. -/
theorem collect_again (h : disk.Spelled) (archive : Archive) (subdirectory : String)
    (live : List String) :
    archive.collect (archive.collect disk subdirectory live).2 subdirectory live =
      ((archive.collect disk subdirectory live).1.map fun _ => 0,
        (archive.collect disk subdirectory live).2) := by
  have hlacks := lacks_collect h archive subdirectory live
  rcases archive.collect_cases disk subdirectory live with
    ⟨hopens, heq⟩ | ⟨-, ⟨-, heq⟩ | ⟨-, error, heq⟩⟩
  · have hnames : ∀ name ∈ deadNames live disk (archive.root.join ⟨subdirectory⟩).place,
        Path.IsName name :=
      fun name hname => h.isName_of_mem_entriesAt (List.mem_filter.mp hname).1
    rcases archive.collect_cases (archive.collect disk subdirectory live).2 subdirectory live with
      ⟨-, hagain⟩ | ⟨hclosed, -⟩
    · rw [hagain, heq]
      exact removeAll_deadNames hnames rfl
    · exact absurd (hlacks.opens_iff.mpr hopens) hclosed
  · rw [heq, heq]
    rfl
  · rw [heq, heq]
    rfl

/-- If collecting one subdirectory removes nothing, it still removes nothing after another one was
collected. -/
lemma collect_of_other (h : disk.Spelled) (other : String) (others : List String)
    (hne : (archive.root.join ⟨subdirectory⟩).place ≠ (archive.root.join ⟨other⟩).place)
    (hnothing : archive.collect disk subdirectory live = (.ok 0, disk)) :
    archive.collect (archive.collect disk other others).2 subdirectory live =
      (.ok 0, (archive.collect disk other others).2) := by
  have hlacks := lacks_collect h archive other others
  have hdead : ∀ dead, deadNames dead (archive.collect disk other others).2
      (archive.root.join ⟨subdirectory⟩).place =
        deadNames dead disk (archive.root.join ⟨subdirectory⟩).place := by
    intro dead
    rcases archive.collect_cases disk other others with ⟨-, heq⟩ | ⟨-, ⟨-, heq⟩ | ⟨-, error, heq⟩⟩
    · rw [heq]
      refine deadNames_removeAll_of_ne (fun name hname => ?_) hne disk
      exact h.isName_of_mem_entriesAt (List.mem_filter.mp hname).1
    · rw [heq]
    · rw [heq]
  rcases archive.collect_cases disk subdirectory live with
    ⟨hopens, heq⟩ | ⟨hclosed, ⟨hmissing, -⟩ | ⟨-, error, heq⟩⟩
  · have hnil := eq_nil_of_removeAll (heq.symm.trans hnothing)
    rcases archive.collect_cases (archive.collect disk other others).2 subdirectory live with
      ⟨-, hagain⟩ | ⟨hclosed, -⟩
    · rw [hagain, hdead, hnil, removeAll_nil]
    · exact absurd (hlacks.opens_iff.mpr hopens) hclosed
  · rcases archive.collect_cases (archive.collect disk other others).2 subdirectory live with
      ⟨hopens, -⟩ | ⟨-, ⟨-, hagain⟩ | ⟨hthere, -⟩⟩
    · exact absurd (hlacks.opens_iff.mp hopens) hclosed
    · exact hagain
    · rw [hlacks.contains_back hthere] at hmissing
      cases hmissing
  · rw [heq] at hnothing
    cases hnothing

end Collecting

end Archive

end Recompile
