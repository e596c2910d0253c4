import Mathlib.Data.Finset.Card
import Recompile.Proofs.Session.Transparent
import Recompile.Proofs.Storage.Lacking
import Recompile.Session.Declarations

/-!
# Where declarations end up

Declarations are written one after the other, each to the file at its path.  When all are written,
each file holds what was written there last, and nothing else on the disk has changed
(`Declaration.writeAll_spec`).  Which files these are is decided by the places of the paths, not by
their spelling.

Nothing keeps two declarations from going to the same place: without a common directory only the file
names count, so two modules of the same name in different directories are enough.  Then the later
one takes the place of the earlier one, although both are counted (`Session.declaration_overwritten`).
All declarations are kept, and counted as many files as there are, exactly if their places are
different (`Session.declarations_kept_iff`).
-/

namespace Recompile

namespace Declaration

variable {bundle : Option Path} {outDirectory : Path} {disk after : Disk}
  {declarations : List Declaration}

/-- The text of the file of a declaration: a mark, if it is to have one, and what it declares. -/
def fullText (declaration : Declaration) : String :=
  if declaration.writeMark then byteOrderMark ++ declaration.text else declaration.text

/-- The path of the file of a declaration. -/
def goal (bundle : Option Path) (outDirectory : Path) (declaration : Declaration) : Path :=
  target ⟨declaration.path⟩ bundle outDirectory

/-- The last of several declarations whose file is at a location. -/
def lastAt? (bundle : Option Path) (outDirectory : Path) (declarations : List Declaration)
    (location : Location) : Option Declaration :=
  declarations.reverse.find? fun declaration =>
    (goal bundle outDirectory declaration).place = location

/-! ### Which declaration counts -/

/-- A declaration counts if no later one has its file at the location. -/
lemma lastAt?_cons (declaration : Declaration) (declarations : List Declaration)
    (location : Location) :
    lastAt? bundle outDirectory (declaration :: declarations) location =
      (lastAt? bundle outDirectory declarations location).or
        (if (goal bundle outDirectory declaration).place = location then some declaration
          else none) := by
  unfold lastAt?
  rw [List.reverse_cons, List.find?_append, List.find?_singleton]
  simp only [decide_eq_true_eq]

/-- The declaration that counts is one of them, and its file is at the location. -/
lemma mem_of_lastAt? {location : Location} {last : Declaration}
    (h : lastAt? bundle outDirectory declarations location = some last) :
    last ∈ declarations ∧ (goal bundle outDirectory last).place = location := by
  unfold lastAt? at h
  have hplace := List.find?_some h
  exact ⟨List.mem_reverse.mp (List.mem_of_find?_eq_some h), of_decide_eq_true hplace⟩

/-- Where a declaration has its file, some declaration counts. -/
lemma exists_lastAt? {declaration : Declaration} (h : declaration ∈ declarations) :
    ∃ last, lastAt? bundle outDirectory declarations
      (goal bundle outDirectory declaration).place = some last := by
  apply Option.isSome_iff_exists.mp
  exact List.find?_isSome.mpr ⟨declaration, List.mem_reverse.mpr h, decide_eq_true rfl⟩

/-! ### Writing -/

/-- A declaration is written to a disk on which directories were made. -/
lemma exists_of_write {declaration : Declaration} {path : Path}
    (h : declaration.write path disk = (.ok (), after)) :
    ∃ made, disk.KeepsDirectories made ∧
      (∀ location, made.content? location = disk.content? location) ∧
      made.write path declaration.content = .ok after := by
  unfold write at h
  split at h
  rename_i result made hmaking
  obtain ⟨hkeeps, hsame⟩ : disk.KeepsDirectories made ∧
      ∀ location, made.content? location = disk.content? location := by
    cases hparent : path.parent? with
    | none =>
      rw [hparent] at hmaking
      obtain rfl := (Prod.mk.inj hmaking).2
      exact ⟨.refl disk, fun _ => rfl⟩
    | some parent =>
      have hkeeps := Disk.keeps_makeDirectories disk parent
      have hsame := Disk.content?_makeDirectories disk parent
      rw [hparent] at hmaking
      simp only at hmaking
      rw [hmaking] at hkeeps hsame
      exact ⟨hkeeps, hsame⟩
  refine ⟨made, hkeeps, hsame, ?_⟩
  cases result with
  | error fault => cases h
  | ok _ =>
    cases hwrite : made.write path declaration.content with
    | error fault =>
      rw [hwrite] at h
      cases h
    | ok written =>
      rw [hwrite] at h
      rw [(Prod.mk.inj h).2]

/-- A declaration that is written is the content at the place of its path, and no other content
changes. -/
lemma write_spec {declaration : Declaration} {path : Path}
    (h : declaration.write path disk = (.ok (), after)) :
    after.Leads path ∧ disk.KeepsDirectories after ∧ ∀ location, after.content? location =
      if location = path.place then some declaration.content else disk.content? location := by
  obtain ⟨made, hkeeps, hsame, hwrite⟩ := exists_of_write h
  refine ⟨(Disk.read_eq_ok.mp (Disk.read_of_write hwrite)).1,
    hkeeps.trans (Disk.keeps_write hwrite), fun location => ?_⟩
  rw [Disk.content?_write hwrite, hsame]

/-- A declaration is written before the others. -/
lemma writeAll_cons (declaration : Declaration) (rest : List Declaration) (disk : Disk) :
    writeAll bundle outDirectory (declaration :: rest) disk =
      match declaration.write (goal bundle outDirectory declaration) disk with
      | (.error fault, middle) =>
        (.error (.declaration (goal bundle outDirectory declaration) fault), middle)
      | (.ok (), middle) => writeAll bundle outDirectory rest middle :=
  rfl

/-- When declarations are written one after the other, every path leads to its file, and every file
has what counts there. -/
theorem writeAll_spec (h : writeAll bundle outDirectory declarations disk = (.ok (), after)) :
    disk.KeepsDirectories after ∧
      (∀ declaration ∈ declarations, after.Leads (goal bundle outDirectory declaration)) ∧
      ∀ location, after.content? location =
        ((lastAt? bundle outDirectory declarations location).map content).or
          (disk.content? location) := by
  induction declarations generalizing disk with
  | nil =>
    obtain rfl := (Prod.mk.inj h).2
    exact ⟨.refl _, fun _ hmem => absurd hmem List.not_mem_nil, fun _ => rfl⟩
  | cons declaration rest ih =>
    rw [writeAll_cons] at h
    rcases hwrite : declaration.write (goal bundle outDirectory declaration) disk with
      ⟨result, middle⟩
    rw [hwrite] at h
    cases result with
    | error fault => cases h
    | ok _ =>
      obtain ⟨hleads, hkeeps, hcontent⟩ := write_spec hwrite
      obtain ⟨hkeeps', hleads', hcontent'⟩ := ih h
      refine ⟨hkeeps.trans hkeeps', ?_, fun location => ?_⟩
      · rintro other hother
        rcases List.mem_cons.mp hother with rfl | hrest
        · exact hleads.mono hkeeps'
        · exact hleads' other hrest
      · rw [hcontent', hcontent, lastAt?_cons]
        cases hlast : lastAt? bundle outDirectory rest location with
        | some last => rfl
        | none =>
          rw [Option.none_or, Option.map_none, Option.none_or]
          by_cases hplace : (goal bundle outDirectory declaration).place = location
          · rw [if_pos hplace, if_pos hplace.symm]
            rfl
          · rw [if_neg hplace, if_neg (Ne.symm hplace)]
            rfl

/-- The file of a declaration holds the text of the one that counts there. -/
lemma readText_of_writeAll
    (h : writeAll bundle outDirectory declarations disk = (.ok (), after))
    {declaration last : Declaration} (hmem : declaration ∈ declarations)
    (hlast : lastAt? bundle outDirectory declarations
      (goal bundle outDirectory declaration).place = some last) :
    after.readText (goal bundle outDirectory declaration) = .ok last.fullText := by
  obtain ⟨-, hleads, hcontent⟩ := writeAll_spec h
  have hstored : after.content? (goal bundle outDirectory declaration).place =
      some (Bytes.ofText last.fullText) := by
    rw [hcontent, hlast]
    rfl
  exact Disk.readText_eq_ok.mpr
    ⟨_, Disk.read_eq_ok.mpr ⟨hleads declaration hmem, hstored⟩, Bytes.text?_ofText _⟩

/-- What is at no place of a declaration stays. -/
lemma content?_of_writeAll
    (h : writeAll bundle outDirectory declarations disk = (.ok (), after)) {location : Location}
    (hlocation : location ∉ declarations.map fun declaration =>
      (goal bundle outDirectory declaration).place) :
    after.content? location = disk.content? location := by
  rw [(writeAll_spec h).2.2 location]
  cases hlast : lastAt? bundle outDirectory declarations location with
  | none => rfl
  | some last =>
    obtain ⟨hmem, hplace⟩ := mem_of_lastAt? hlast
    exact absurd (List.mem_map.mpr ⟨last, hmem, hplace⟩) hlocation

end Declaration

namespace Session

variable {session : Session} {disk after : Disk} {bundle : Option Path} {outDirectory : Path}
  {n : Nat}

/-- The bundle that declarations are put next to, unless the options say that they stay where the
compiler puts them. -/
def bundleFor (session : Session) (bundle : Option Path) : Option Path :=
  if session.options.declarationsInPlace then none else bundle

/-- The places of the files of the declarations of a session. -/
def places (session : Session) (bundle : Option Path) (outDirectory : Path) : List Location :=
  session.declarations.values.map fun declaration =>
    (declaration.goal (session.bundleFor bundle) outDirectory).place

/-- If the declarations of a session are written, all of them are, and all of them are counted. -/
lemma writeAll_of_writeDeclarations
    (h : session.writeDeclarations disk bundle outDirectory = (.ok n, after)) :
    Declaration.writeAll (session.bundleFor bundle) outDirectory session.declarations.values disk =
        (.ok (), after) ∧ n = session.declarations.values.length := by
  unfold writeDeclarations at h
  simp only at h
  rcases hwrite : Declaration.writeAll (session.bundleFor bundle) outDirectory
    session.declarations.values disk with ⟨result, written⟩
  unfold bundleFor at hwrite
  rw [hwrite] at h
  cases result with
  | error error => cases h
  | ok _ =>
    obtain ⟨hcount, rfl⟩ := Prod.mk.inj h
    exact ⟨rfl, (Except.ok.inj hcount).symm⟩

/-- After the declarations of a session are written, the file of each of them holds the text of the
last one that has its file at that place, and no other content has changed.  Every declaration is in
its file, and as many were counted as there are files, exactly if no two of them have their files at
one place. -/
theorem declarations_kept_iff
    (h : session.writeDeclarations disk bundle outDirectory = (.ok n, after)) :
    (∀ declaration ∈ session.declarations.values, ∃ last,
      Declaration.lastAt? (session.bundleFor bundle) outDirectory session.declarations.values
        (declaration.goal (session.bundleFor bundle) outDirectory).place = some last ∧
      after.readText (declaration.goal (session.bundleFor bundle) outDirectory) =
        .ok last.fullText) ∧
    (∀ location ∉ session.places bundle outDirectory,
      after.content? location = disk.content? location) ∧
    ((∀ declaration ∈ session.declarations.values,
        after.readText (declaration.goal (session.bundleFor bundle) outDirectory) =
          .ok declaration.fullText) ∧
      n = (session.places bundle outDirectory).toFinset.card ↔
        (session.places bundle outDirectory).Nodup) := by
  obtain ⟨hwrite, hcount⟩ := writeAll_of_writeDeclarations h
  have hlength : n = (session.places bundle outDirectory).length := by
    rw [hcount, places, List.length_map]
  refine ⟨fun declaration hmem => ?_, fun location hlocation => ?_, ?_⟩
  · obtain ⟨last, hlast⟩ := Declaration.exists_lastAt? hmem
    exact ⟨last, hlast, Declaration.readText_of_writeAll hwrite hmem hlast⟩
  · exact Declaration.content?_of_writeAll hwrite hlocation
  constructor
  · rintro ⟨-, hfiles⟩
    rw [hlength] at hfiles
    exact Multiset.toFinset_card_eq_card_iff_nodup.mp hfiles.symm
  · intro hnodup
    refine ⟨fun declaration hmem => ?_, ?_⟩
    · obtain ⟨last, hlast⟩ := Declaration.exists_lastAt? hmem
      obtain ⟨hmemLast, hplace⟩ := Declaration.mem_of_lastAt? hlast
      have hsame : last = declaration := List.inj_on_of_nodup_map hnodup hmemLast hmem hplace
      rw [Declaration.readText_of_writeAll hwrite hmem hlast, hsame]
    · rw [hlength, List.toFinset_card_of_nodup hnodup]

/-! ### Two declarations of one name -/

/-- A compiler that gives the declaration of each module the same name, but in another directory. -/
def twins : Compiler Unit where
  version := "1"
  emit snapshot state :=
    if snapshot.id = ⟨"a.ts"⟩ then
      (⟨false, [⟨"a.js", "a", false⟩, ⟨"dist/types.d.ts", "export type A = 1;", true⟩]⟩, state)
    else
      (⟨false, [⟨"b.js", "b", false⟩, ⟨"lib/types.d.ts", "export type B = 2;", false⟩]⟩, state)
  check _ _ state := ([], state)
  checkOptions state := ([], state)

/-- What is left after both modules were handed in. -/
def twinsAfter (opened : After Unit Unit) : After Unit (Except SessionError (Option Emitted)) :=
  let first := opened.session.transform twins opened.disk ⟨"a.ts"⟩ "a" ()
  first.session.transform twins first.disk ⟨"b.ts"⟩ "b" ()

/-- If the output directory is the current one, the declarations keep their directories, and both are
in their files. -/
theorem declarations_kept_iff_twins :
    ∃ opened, start twins {} [] .empty () = .ok opened ∧
      let session := (twinsAfter opened).session
      ∃ after, session.writeDeclarations (twinsAfter opened).disk (some ⟨"bundle/index.js"⟩) ⟨""⟩ =
          (.ok 2, after) ∧
        (∀ declaration ∈ session.declarations.values,
          after.readText
              (declaration.goal (session.bundleFor (some ⟨"bundle/index.js"⟩)) ⟨""⟩) =
            .ok declaration.fullText) ∧
        2 = (session.places (some ⟨"bundle/index.js"⟩) ⟨""⟩).toFinset.card := by
  obtain ⟨opened, hstart, hwritten, hnodup⟩ : ∃ opened, start twins {} [] .empty () = .ok opened ∧
      ((twinsAfter opened).session.writeDeclarations (twinsAfter opened).disk
        (some ⟨"bundle/index.js"⟩) ⟨""⟩).1 = .ok 2 ∧
      ((twinsAfter opened).session.places (some ⟨"bundle/index.js"⟩) ⟨""⟩).Nodup :=
    exists_start_of_any (by decide +kernel)
  rcases hwrite : (twinsAfter opened).session.writeDeclarations (twinsAfter opened).disk
    (some ⟨"bundle/index.js"⟩) ⟨""⟩ with ⟨result, after⟩
  rw [hwrite] at hwritten
  obtain rfl : result = .ok 2 := hwritten
  exact ⟨opened, hstart, after, hwrite, (declarations_kept_iff hwrite).2.2.mpr hnodup⟩

/-- If the output directory is that of one of them, both go to one file: both are counted, and the
first one is lost. -/
theorem declaration_overwritten :
    ∃ opened, start twins {} [] .empty () = .ok opened ∧
      let session := (twinsAfter opened).session
      let written := session.writeDeclarations (twinsAfter opened).disk
        (some ⟨"bundle/index.js"⟩) ⟨"dist"⟩
      written.1 = .ok 2 ∧
        ¬ ((∀ declaration ∈ session.declarations.values,
            written.2.readText
                (declaration.goal (session.bundleFor (some ⟨"bundle/index.js"⟩)) ⟨"dist"⟩) =
              .ok declaration.fullText) ∧
          2 = (session.places (some ⟨"bundle/index.js"⟩) ⟨"dist"⟩).toFinset.card) :=
  exists_start_of_any (by decide +kernel)

end Session

end Recompile
