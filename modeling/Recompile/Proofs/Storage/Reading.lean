import Recompile.Proofs.Disk.Reading
import Recompile.Proofs.Storage.Archive

/-!
# Files that stay readable

Replacing files makes directories and puts files, so whatever could be read can still be read,
unless it was replaced (`Write.read_runAll`).  If no write failed, every file that was to be written
can be read (`Write.read_of_runAll`); and a file that can be read can be replaced
(`Write.run_of_read`).

Collecting takes dead files of one directory away and leaves all others readable
(`Archive.read_collect`), those of live keys among them (`Archive.isDead_of_mem`).
-/

namespace Recompile

namespace Write

/-! ### Writing -/

/-- What making the directory and writing the file preserve holds after a write, however far it
goes. -/
theorem run_induction {motive : Disk → Prop} {write : Write} {disk : Disk}
    (hmake : motive (disk.makeDirectories write.directory).2)
    (hwrite : ∀ {made written : Disk}, made.write write.path write.content = .ok written →
      motive made → motive written) : motive (write.run disk).2 := by
  unfold run
  split
  · rename_i made hmade
    rwa [hmade] at hmake
  · rename_i made hmade
    rw [hmade] at hmake
    split
    · exact hmake
    · rename_i written hwritten
      exact hwrite hwritten hmake

/-- What each of several writes preserves holds after them, however far they go. -/
theorem runAll_induction {motive : Disk → Prop} {writes : List Write} {disk : Disk}
    (hrun : ∀ write ∈ writes, ∀ disk, motive disk → motive (write.run disk).2) (h : motive disk) :
    motive (runAll writes disk).2 := by
  induction writes generalizing disk with
  | nil => exact h
  | cons write rest ih =>
    have hfirst := hrun write List.mem_cons_self disk h
    rw [runAll_cons]
    split
    · rename_i written hwritten
      rwa [hwritten] at hfirst
    · rename_i written hwritten
      rw [hwritten] at hfirst
      exact ih (fun other hother => hrun other (List.mem_cons_of_mem _ hother)) hfirst

/-- A write keeps all directories, however far it goes. -/
lemma keeps_run (write : Write) (disk : Disk) : disk.KeepsDirectories (write.run disk).2 :=
  run_induction (disk.keeps_makeDirectories write.directory)
    fun hwrite hmade => hmade.trans (Disk.keeps_write hwrite)

/-- A write keeps a disk spelled. -/
lemma spelled_run {disk : Disk} (h : disk.Spelled) (write : Write) :
    (write.run disk).2.Spelled :=
  run_induction (h.makeDirectories write.directory) fun hwrite hmade => hmade.write hwrite

/-- Several writes keep all directories. -/
lemma keeps_runAll (writes : List Write) (disk : Disk) :
    disk.KeepsDirectories (runAll writes disk).2 :=
  runAll_induction (fun write _ middle hkeeps => hkeeps.trans (write.keeps_run middle))
    (.refl disk)

/-- Several writes keep a disk spelled. -/
lemma spelled_runAll {disk : Disk} (h : disk.Spelled) (writes : List Write) :
    (runAll writes disk).2.Spelled :=
  runAll_induction (fun write _ _ hspelled => spelled_run hspelled write) h

/-- However far several writes go, a file that could be read before can be read after them, and
holds what it held or what was written there. -/
theorem read_runAll (writes : List Write) {disk : Disk} {path : Path} {content : Bytes}
    (h : disk.read path = .ok content) :
    (runAll writes disk).2.read path = .ok content ∨
      ∃ write ∈ writes, write.path.place = path.place ∧
        (runAll writes disk).2.read path = .ok write.content := by
  obtain ⟨hleads, hcontent⟩ := Disk.read_eq_ok.mp h
  have hstill := hleads.mono (keeps_runAll writes disk)
  rcases content?_runAll writes disk path.place with hold | ⟨write, hwrite, hplace, hnew⟩
  · exact .inl (Disk.read_eq_ok.mpr ⟨hstill, hold.trans hcontent⟩)
  · exact .inr ⟨write, hwrite, hplace, Disk.read_eq_ok.mpr ⟨hstill, hnew⟩⟩

/-- If all files were replaced, the path of each of them leads to it. -/
lemma leads_of_runAll {writes : List Write} {disk left : Disk}
    (h : runAll writes disk = (.ok (), left)) {write : Write} (hwrite : write ∈ writes) :
    left.Leads write.path := by
  induction writes generalizing disk with
  | nil => cases hwrite
  | cons first rest ih =>
    rw [runAll_cons] at h
    split at h
    · cases h
    · rename_i middle hrun
      rcases List.mem_cons.mp hwrite with rfl | hrest
      · have hkeeps := keeps_runAll rest middle
        rw [h] at hkeeps
        exact (Disk.read_eq_ok.mp (read_of_run hrun)).1.mono hkeeps
      · exact ih h hrest

/-- If all files were replaced, each of them can be read, and has a content that was written
there. -/
theorem read_of_runAll {writes : List Write} {disk left : Disk}
    (h : runAll writes disk = (.ok (), left)) {write : Write} (hwrite : write ∈ writes) :
    ∃ other ∈ writes, other.path.place = write.path.place ∧
      left.read write.path = .ok other.content := by
  obtain ⟨other, hother, hplace, hcontent⟩ := content?_runAll_ok h hwrite
  exact ⟨other, hother, hplace, Disk.read_eq_ok.mpr ⟨leads_of_runAll h hwrite, hcontent⟩⟩

/-- A file that can be read can be replaced. -/
theorem run_of_read {base : Path} {dir name : String} {disk : Disk} {content : Bytes}
    (hdir : Path.IsName dir) (hname : Path.IsName name)
    (h : disk.read ((base.join ⟨dir⟩).join ⟨name⟩) = .ok content) (other : Bytes) :
    ∃ written, (Write.mk ((base.join ⟨dir⟩).join ⟨name⟩) other).run disk = (.ok (), written) := by
  have hopens : disk.Opens (base.join ⟨dir⟩) :=
    ((Disk.leads_join hname (base.join_ne_empty hdir)).mp (Disk.read_eq_ok.mp h).1).2.2
  have hdirectory : (Write.mk ((base.join ⟨dir⟩).join ⟨name⟩) other).directory =
      base.join ⟨dir⟩ := by
    unfold directory
    rw [base.parent?_join_join hdir hname, Option.getD_some]
  obtain ⟨written, hwritten⟩ := Disk.write_of_read hname h other
  refine ⟨written, ?_⟩
  unfold run
  rw [hdirectory, Disk.makeDirectories_of_opens hdir hopens]
  simp only [hwritten]

end Write

namespace Archive

/-! ### Collecting -/

/-- An archive reads what the file at the path of a key holds. -/
lemma read_eq_ok {archive : Archive} {disk : Disk} {subdirectory key : String} {payload : Bytes} :
    archive.read disk subdirectory key = .ok payload ↔
      ∃ raw, disk.read (archive.pathOf subdirectory key) = .ok raw ∧
        Artifact.payload archive.tool raw = .ok payload := by
  unfold read
  simp only
  cases disk.read (archive.pathOf subdirectory key) with
  | error fault => simp
  | ok raw =>
    simp only [Except.ok.injEq, exists_eq_left']
    cases Artifact.payload archive.tool raw <;> simp

/-- Removing files one by one leaves what is read elsewhere. -/
lemma read_removeAll {directory path : Path} {names : List String} {content : Bytes}
    (hnames : ∀ name ∈ names, Path.IsName name ∧ path.place ≠ directory.place ++ [name])
    (disk : Disk) :
    (removeAll directory names disk).2.read path = .ok content ↔ disk.read path = .ok content := by
  refine removeAll_induction
    (motive := fun left => left.read path = .ok content ↔ disk.read path = .ok content)
    (fun name hmem {middle removed} hremove hsame => ?_) Iff.rfl
  obtain ⟨hname, hplace⟩ := hnames name hmem
  rw [← directory.place_join hname] at hplace
  exact (Disk.read_removeFile hremove hplace).trans hsame

/-- Removing files one by one keeps a disk spelled. -/
lemma spelled_removeAll {disk : Disk} (h : disk.Spelled) (directory : Path) (names : List String) :
    (removeAll directory names disk).2.Spelled :=
  removeAll_induction (fun _ _ {_ _} hremove hspelled => hspelled.removeFile hremove) h

/-- Collecting leaves what is read anywhere but at a dead file. -/
theorem read_collect {disk : Disk} (h : disk.Spelled) (archive : Archive) {subdirectory : String}
    {live : List String} {path : Path}
    (hplace : ∀ name, Path.IsName name → isDead live name = true →
      path.place ≠ (archive.root.join ⟨subdirectory⟩).place ++ [name]) (content : Bytes) :
    (archive.collect disk subdirectory live).2.read path = .ok content ↔
      disk.read path = .ok content := by
  unfold collect
  simp only
  split
  · split
    · rfl
    · rename_i entries hentries
      refine read_removeAll (fun name hname => ?_) disk
      obtain ⟨hmem, hdead⟩ := List.mem_filter.mp hname
      obtain ⟨entry, hentry, rfl⟩ := List.mem_map.mp hmem
      have hisName := h.isName_of_mem_entries hentries hentry
      exact ⟨hisName, hplace _ hisName hdead⟩
  · rfl

/-- Collecting keeps a disk spelled. -/
lemma spelled_collect {disk : Disk} (h : disk.Spelled) (archive : Archive) (subdirectory : String)
    (live : List String) : (archive.collect disk subdirectory live).2.Spelled := by
  unfold collect
  simp only
  split
  · split
    · exact h
    · exact spelled_removeAll h _ _
  · exact h

/-- The name of the file of a key ends with the last dot. -/
lemma splitName_file {key : String} (hne : key ≠ "") :
    Path.splitName (key ++ "." ++ ending) = (key, some ending) := by
  have hnonempty : key.toList.reverse.isEmpty = false := by
    rw [List.isEmpty_eq_false_iff, ne_eq, List.reverse_eq_nil_iff, String.toList_eq_nil_iff]
    exact hne
  unfold Path.splitName
  simp [hnonempty, ending, List.dropWhile, List.takeWhile]

/-- The file of a key is dead if the key is not live. -/
lemma isDead_file {key : String} (hne : key ≠ "") (live : List String) :
    isDead live (key ++ "." ++ ending) = !live.contains key := by
  unfold isDead Path.extension? Path.stem
  rw [splitName_file hne, if_pos rfl]

/-- The file of a live key is not dead. -/
lemma isDead_of_mem {live : List String} {key : String} (hne : key ≠ "") (h : key ∈ live) :
    isDead live (key ++ "." ++ ending) = false := by
  rw [isDead_file hne, List.contains_eq_mem, decide_eq_true h]
  rfl

end Archive

end Recompile
