import Mathlib.Tactic.IntervalCases
import Recompile.Proofs.Disk.Place
import Recompile.Record.Slot
import Recompile.Storage.Archive

/-!
# What archives leave on a disk

Replacing files one after the other leaves each location with its old content or with one that was
written there (`Write.content?_runAll`); if no write failed, every written location has one that was
written (`Write.content?_runAll_ok`).  What an archive reads under a key comes from the place of
that key (`Archive.payload_of_read`), and collecting only takes files away
(`Archive.collect_within`).

The names that the library gives to directories and files are digests in hexadecimal and fixed
texts.  Different digests have different names (`Digest.hex_injective`).
-/

namespace Recompile

/-! ### Names -/

namespace Bytes

/-- The value of a digit is the digit's number. -/
lemma hexValue?_digitChar {n : Nat} (h : n < 16) : hexValue? (Nat.digitChar n) = some n := by
  interval_cases n <;> rfl

/-- Both halves of a byte are values of digits. -/
lemma halves_lt (byte : UInt8) : byte.toNat / 16 < 16 ∧ byte.toNat % 16 < 16 := by
  have := byte.toNat_lt
  omega

/-- Hexadecimal text is read back. -/
lemma ofHexChars?_flatMap (bytes : Bytes) : ofHexChars? (bytes.flatMap hexPair) = some bytes := by
  induction bytes with
  | nil => rfl
  | cons byte rest ih =>
    obtain ⟨hhigh, hlow⟩ := halves_lt byte
    have hbyte : UInt8.ofNat (16 * (byte.toNat / 16) + byte.toNat % 16) = byte := by
      rw [Nat.div_add_mod]
      exact UInt8.ofNat_toNat
    simp only [List.flatMap_cons, hexPair, List.cons_append, List.nil_append, ofHexChars?,
      hexValue?_digitChar hhigh, hexValue?_digitChar hlow, ih, bind, Option.bind, pure, hbyte]

/-- Bytes are determined by their hexadecimal text. -/
lemma hex_injective {bytes other : Bytes} (h : hex bytes = hex other) : bytes = other := by
  have hchars : bytes.flatMap hexPair = other.flatMap hexPair := String.ofList_injective h
  have hread := congrArg ofHexChars? hchars
  rw [ofHexChars?_flatMap, ofHexChars?_flatMap] at hread
  exact Option.some.inj hread

/-- No hexadecimal digit is a slash or a dot. -/
lemma digitChar_ne {n : Nat} (h : n < 16) : Nat.digitChar n ≠ '/' ∧ Nat.digitChar n ≠ '.' := by
  interval_cases n <;> decide

/-- Hexadecimal text has two characters for each byte. -/
lemma length_hex (bytes : Bytes) : (hex bytes).length = 2 * bytes.length := by
  rw [hex, String.length_ofList]
  induction bytes with
  | nil => rfl
  | cons byte rest ih =>
    rw [List.flatMap_cons, List.length_append, ih, List.length_cons, hexPair]
    simp only [List.length_cons, List.length_nil]
    omega

/-- Hexadecimal text is made of digits. -/
lemma exists_digit_of_mem_hex {bytes : Bytes} {c : Char} (h : c ∈ (hex bytes).toList) :
    ∃ n < 16, c = Nat.digitChar n := by
  rw [hex, String.toList_ofList] at h
  obtain ⟨byte, -, hc⟩ := List.mem_flatMap.mp h
  obtain ⟨hhigh, hlow⟩ := halves_lt byte
  rcases List.mem_cons.mp hc with hc | hc
  · exact ⟨_, hhigh, hc⟩
  · exact ⟨_, hlow, List.mem_singleton.mp hc⟩

/-- Hexadecimal text has neither slashes nor dots. -/
lemma hex_chars {bytes : Bytes} {c : Char} (h : c ∈ (hex bytes).toList) : c ≠ '/' ∧ c ≠ '.' := by
  obtain ⟨n, hn, rfl⟩ := exists_digit_of_mem_hex h
  exact digitChar_ne hn

end Bytes

namespace Digest

/-- Different digests have different names. -/
lemma hex_injective {digest other : Digest} (h : digest.hex = other.hex) : digest = other := by
  have hbytes := Bytes.hex_injective h
  cases digest
  cases other
  cases hbytes
  rfl

/-- The name of a digest is a name. -/
lemma isName_hex (digest : Digest) : Path.IsName digest.hex := by
  refine Path.isName_of_chars (fun c hc => (Bytes.hex_chars hc).1) ?_
  obtain ⟨bytes, hlength⟩ := digest
  cases bytes with
  | nil => cases hlength
  | cons byte rest =>
    have hmem : Nat.digitChar (byte.toNat / 16) ∈ (Bytes.hex (byte :: rest)).toList := by
      simp [Bytes.hex, Bytes.hexPair]
    exact ⟨_, hmem, (Bytes.hex_chars hmem).2⟩

end Digest

/-- The directory of a shelf is a name. -/
lemma Shelf.isName_directory (shelf : Shelf) : Path.IsName shelf.directory := by
  cases shelf with
  | code =>
    refine Path.isName_of_chars ?_ ⟨'c', by decide, by decide⟩
    rintro c hc rfl
    exact absurd hc (by decide)
  | diagnostics =>
    refine Path.isName_of_chars ?_ ⟨'d', by decide, by decide⟩
    rintro c hc rfl
    exact absurd hc (by decide)

/-- Different shelves have different directories. -/
lemma Shelf.directory_injective {shelf other : Shelf} (h : shelf.directory = other.directory) :
    shelf = other := by
  cases shelf <;> cases other <;> first | rfl | exact absurd h (by decide)

/-- The file of a key without slashes has a name. -/
lemma Archive.isName_file {key : String} (h : ∀ c ∈ key.toList, c ≠ '/') :
    Path.IsName (key ++ "." ++ ending) := by
  have hending : ("." ++ ending).toList = ['.', 'b', 'i', 'n'] := rfl
  have htext : (key ++ "." ++ ending).toList = key.toList ++ ['.', 'b', 'i', 'n'] := by
    rw [String.append_assoc, String.toList_append, hending]
  refine Path.isName_of_chars ?_ ⟨'b', ?_, by decide⟩
  · intro c hc
    rw [htext, List.mem_append] at hc
    rcases hc with hkey | hrest
    · exact h c hkey
    · rintro rfl
      exact absurd hrest (by decide)
  · rw [htext]
    exact List.mem_append_right _ (by decide)

/-- The file of an artifact has a name. -/
lemma isName_artifact (file : ModuleId) (content config : Digest) (generation : UInt64) :
    Path.IsName (artifactKey file content config generation ++ "." ++ Archive.ending) :=
  Archive.isName_file fun _ hc => (Bytes.hex_chars hc).1

/-- The file of a record has a name. -/
lemma Record.isName_key (record : Record) (config : Digest) :
    Path.IsName (record.key config ++ "." ++ Archive.ending) :=
  isName_artifact record.file record.content config record.generation

/-! ### Writing -/

namespace Write

/-- A write that succeeds leaves its content at its place and all others as they were. -/
lemma content?_run {write : Write} {disk written : Disk}
    (h : write.run disk = (.ok (), written)) (location : Location) :
    written.content? location =
      if location = write.path.place then some write.content else disk.content? location := by
  have hmade := Disk.content?_makeDirectories disk write.directory location
  unfold run at h
  split at h
  · cases h
  · rename_i made hmake
    rw [hmake] at hmade
    split at h
    · cases h
    · rename_i done hwrite
      obtain rfl := (Prod.mk.inj h).2
      rw [Disk.content?_write hwrite, ← hmade]

/-- A write that fails leaves all contents as they were. -/
lemma content?_run_error {write : Write} {disk written : Disk} {error : StorageError}
    (h : write.run disk = (.error error, written)) (location : Location) :
    written.content? location = disk.content? location := by
  have hmade := Disk.content?_makeDirectories disk write.directory location
  unfold run at h
  split at h
  · rename_i made hmake
    rw [hmake] at hmade
    rw [← (Prod.mk.inj h).2, ← hmade]
  · rename_i made hmake
    rw [hmake] at hmade
    split at h
    · rw [← (Prod.mk.inj h).2, ← hmade]
    · cases h

/-- A write that succeeds can be read back. -/
lemma read_of_run {write : Write} {disk written : Disk} (h : write.run disk = (.ok (), written)) :
    written.read write.path = .ok write.content := by
  unfold run at h
  split at h
  · cases h
  · split at h
    · cases h
    · rename_i done hwrite
      obtain rfl := (Prod.mk.inj h).2
      exact Disk.read_of_write hwrite

/-- Whether a write succeeds does not depend on its content. -/
lemma isOk_run {path : Path} {content : Bytes} {disk : Disk}
    (h : ((Write.mk path content).run disk).1.isOk) (other : Bytes) :
    ((Write.mk path other).run disk).1.isOk := by
  have hdirectory : (Write.mk path content).directory = (Write.mk path other).directory := rfl
  unfold run at h ⊢
  rw [hdirectory] at h
  split at h
  · cases h
  · rename_i made hmade
    simp only at h ⊢
    cases hwrite : made.write path content with
    | error fault => rw [hwrite] at h; cases h
    | ok done =>
      have hother := Disk.write_isOk (by rw [hwrite]; rfl) other
      cases hfound : made.write path other with
      | error fault => rw [hfound] at hother; cases hother
      | ok done => rfl

/-- Some of the writes put this content at this location. -/
def Puts (writes : List Write) (location : Location) (content : Option Bytes) : Prop :=
  ∃ write ∈ writes, write.path.place = location ∧ content = some write.content

/-- After replacing files, as far as it went, each location has its old content or one that was
written there. -/
theorem content?_runAll (writes : List Write) (disk : Disk) (location : Location) :
    (runAll writes disk).2.content? location = disk.content? location ∨
      Puts writes location ((runAll writes disk).2.content? location) := by
  induction writes generalizing disk with
  | nil => exact .inl rfl
  | cons write rest ih =>
    rw [runAll_cons]
    split
    · rename_i written hrun
      exact .inl (content?_run_error hrun location)
    · rename_i written hrun
      rcases ih written with hold | ⟨other, hother, hplace, hcontent⟩
      · rw [hold, content?_run hrun]
        split_ifs with hlocation
        · exact .inr ⟨write, List.mem_cons_self, hlocation.symm, rfl⟩
        · exact .inl rfl
      · exact .inr ⟨other, List.mem_cons_of_mem _ hother, hplace, hcontent⟩

/-- If all files were replaced, every location that was to be written has a content that was
written there. -/
theorem content?_runAll_ok {writes : List Write} {disk written : Disk}
    (h : runAll writes disk = (.ok (), written)) {write : Write} (hwrite : write ∈ writes) :
    Puts writes write.path.place (written.content? write.path.place) := by
  induction writes generalizing disk with
  | nil => cases hwrite
  | cons first rest ih =>
    rw [runAll_cons] at h
    split at h
    · cases h
    · rename_i middle hrun
      have hcons : ∀ {content}, Puts rest write.path.place content →
          Puts (first :: rest) write.path.place content := by
        rintro content ⟨other, hother, hplace, hcontent⟩
        exact ⟨other, List.mem_cons_of_mem _ hother, hplace, hcontent⟩
      rcases List.mem_cons.mp hwrite with rfl | hrest
      · have hlater := content?_runAll rest middle write.path.place
        rw [h] at hlater
        rcases hlater with hold | hputs
        · refine ⟨write, List.mem_cons_self, rfl, ?_⟩
          rw [hold, content?_run hrun, if_pos rfl]
        · exact hcons hputs
      · exact hcons (ih h hrest)

end Write

/-! ### Archives -/

namespace Archive

/-- The location of the artifact of a key. -/
def locate (archive : Archive) (shelf : Shelf) (key : String) : Location :=
  archive.root.place ++ [shelf.directory, key ++ "." ++ ending]

/-- Different keys have different files. -/
lemma file_injective {key other : String} (h : key ++ "." ++ ending = other ++ "." ++ ending) :
    key = other :=
  (String.append_left_inj _).mp ((String.append_left_inj _).mp h)

/-- A location belongs to one shelf and one key. -/
lemma locate_injective (archive : Archive) {shelf other : Shelf} {key found : String}
    (h : archive.locate shelf key = archive.locate other found) : shelf = other ∧ key = found := by
  have hnames := List.append_cancel_left h
  rw [List.cons_eq_cons, List.cons_eq_cons] at hnames
  exact ⟨Shelf.directory_injective hnames.1, file_injective hnames.2.1⟩

/-- The path of an artifact leads to its location. -/
lemma place_pathOf (archive : Archive) (shelf : Shelf) {key : String}
    (hkey : Path.IsName (key ++ "." ++ ending)) :
    (archive.pathOf shelf.directory key).place = archive.locate shelf key := by
  rw [pathOf, Path.place_join _ hkey, Path.place_join _ shelf.isName_directory, List.append_assoc]
  rfl

/-- A payload that an archive reads is that of the artifact at the location. -/
theorem payload_of_read {archive : Archive} {disk : Disk} {shelf : Shelf} {key : String}
    {payload : Bytes} (hkey : Path.IsName (key ++ "." ++ ending))
    (h : archive.read disk shelf.directory key = .ok payload) :
    ∃ content, disk.content? (archive.locate shelf key) = some content ∧
      Artifact.payload archive.tool content = .ok payload := by
  unfold read at h
  simp only at h
  split at h
  · cases h
  · rename_i raw hread
    split at h
    · cases h
    · rename_i found hpayload
      obtain rfl := Except.ok.inj h
      refine ⟨raw, ?_, hpayload⟩
      rw [← place_pathOf archive shelf hkey]
      exact Disk.content?_of_read hread

/-- What each file that is removed preserves holds after files were removed one by one, however far
that went. -/
theorem removeAll_induction {motive : Disk → Prop} {directory : Path} {names : List String}
    (hremove : ∀ name ∈ names, ∀ {disk removed : Disk},
      disk.removeFile (directory.join ⟨name⟩) = .ok removed → motive disk → motive removed)
    {disk : Disk} (h : motive disk) : motive (removeAll directory names disk).2 := by
  induction names generalizing disk with
  | nil => exact h
  | cons name rest ih =>
    rw [removeAll.eq_def]
    simp only
    cases hremoved : disk.removeFile (directory.join ⟨name⟩) with
    | error fault => exact h
    | ok removed =>
      have hrest := ih (fun other hother => hremove other (List.mem_cons_of_mem _ hother))
        (hremove name List.mem_cons_self hremoved h)
      simp only
      cases hall : removeAll directory rest removed with
      | mk result left =>
        rw [hall] at hrest
        cases result <;> exact hrest

/-- Removing files one by one adds no content. -/
lemma removeAll_within (directory : Path) (names : List String) (disk : Disk) :
    (removeAll directory names disk).2.Within disk :=
  removeAll_induction (fun _ _ {_ _} hremove hwithin =>
    (Disk.removeFile_within hremove).trans hwithin) (.refl disk)

/-- Collecting adds no content. -/
theorem collect_within (archive : Archive) (disk : Disk) (subdirectory : String)
    (live : List String) : (archive.collect disk subdirectory live).2.Within disk := by
  unfold collect
  simp only
  split
  · split
    · exact .refl disk
    · exact removeAll_within _ _ disk
  · exact .refl disk

end Archive

end Recompile
