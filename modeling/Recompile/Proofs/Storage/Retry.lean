import Recompile.Proofs.Disk.Making
import Recompile.Proofs.Storage.Reading

/-!
# Writing again

Writing files changes a disk in two ways: directories are added on the way to the files, and the
files are put at their places (`Write.Alters`).  If all files are written, the disk is determined by
what it was elsewhere: on the way to the files there are directories, and at each place there is
what was written there last (`Write.eq_of_runAll`).

So it does not matter whether some of the writes were done before.  If they can be done on a disk,
they can be done on each disk that they have altered already, and that comes to the same
(`Write.runAll_again`): what they altered stands in the way of none of them (`Write.Free`).
-/

namespace Recompile

namespace Disk

variable {disk : Disk} {path : Path} {location : Location}

/-- What is written is put at the place of the path, which has a name, where no directory was. -/
lemma write_eq_ok {written : Disk} {content : Bytes} (h : disk.write path content = .ok written) :
    written = disk.insert path.place (.file content) ∧ path.place ≠ [] ∧ path.place ≠ current := by
  obtain ⟨first, target, hstart, htarget, -, rfl⟩ := insert_of_write h
  obtain ⟨hplace, hroot, hcurrent⟩ := eq_of_entryAt htarget
  rw [eq_of_start hstart] at hplace
  have htargetPlace : target = path.place := hplace
  rw [← htargetPlace]
  exact ⟨rfl, hroot, hcurrent⟩

/-! ### Removing obstacles -/

/-- The disk without what is at or below some locations. -/
def without (disk : Disk) (obstacles : List Location) : Disk :=
  obstacles.foldl prune disk

/-- What is listed there is listed on the disk, unless it was removed. -/
lemma nodes_without (disk : Disk) (obstacles : List Location) (location : Location) :
    (disk.without obstacles).nodes[location]? =
      if ∃ obstacle ∈ obstacles, obstacle <+: location then none
      else disk.nodes[location]? := by
  induction obstacles generalizing disk with
  | nil =>
    rw [if_neg (by rintro ⟨obstacle, hobstacle, -⟩; cases hobstacle)]
    rfl
  | cons first rest ih =>
    have hprune : (disk.prune first).nodes[location]? =
        if first <+: location then none else disk.nodes[location]? := by
      unfold prune
      rw [Std.ExtTreeMap.getElem?_filter']
      cases disk.nodes[location]? with
      | none => rw [ite_self]; rfl
      | some node =>
        rw [Option.filter_some]
        by_cases hprefix : first <+: location
        · rw [if_pos hprefix, List.isPrefixOf_iff_prefix.mpr hprefix]
          rfl
        · have hnot : first.isPrefixOf location = false := by
            rw [Bool.eq_false_iff, ne_eq, List.isPrefixOf_iff_prefix]
            exact hprefix
          rw [if_neg hprefix, hnot]
          rfl
    have hfirst := ih (disk.prune first)
    unfold without at hfirst ⊢
    rw [List.foldl_cons, hfirst, hprune]
    by_cases hrest : ∃ obstacle ∈ rest, obstacle <+: location
    · obtain ⟨obstacle, hobstacle, hprefix⟩ := hrest
      rw [if_pos ⟨obstacle, hobstacle, hprefix⟩,
        if_pos ⟨obstacle, List.mem_cons_of_mem _ hobstacle, hprefix⟩]
    · rw [if_neg hrest]
      by_cases hprefix : first <+: location
      · rw [if_pos hprefix, if_pos ⟨first, List.mem_cons_self, hprefix⟩]
      · rw [if_neg hprefix, if_neg]
        rintro ⟨obstacle, hobstacle, hother⟩
        rcases List.mem_cons.mp hobstacle with rfl | hobstacle
        · exact hprefix hother
        · exact hrest ⟨obstacle, hobstacle, hother⟩

end Disk

namespace Write

variable {write : Write} {writes others : List Write} {disk before middle after goal : Disk}
variable {location : Location}

/-! ### Files in directories with names -/

/-- The file has a name in a directory that has a name. -/
def Filed (write : Write) : Prop :=
  ∃ (base : Path) (dir name : String), Path.IsName dir ∧ Path.IsName name ∧
    write.path = (base.join ⟨dir⟩).join ⟨name⟩

/-- Its directory is that one, and the way to the file is the way to it. -/
lemma Filed.directory (h : write.Filed) :
    ∃ (base : Path) (dir name : String), Path.IsName dir ∧ Path.IsName name ∧
      write.path = (base.join ⟨dir⟩).join ⟨name⟩ ∧ write.directory = base.join ⟨dir⟩ ∧
      ∀ location, write.directory.Visits location ↔ write.path.Passes location := by
  obtain ⟨base, dir, name, hdir, hname, hpath⟩ := h
  have hdirectory : write.directory = base.join ⟨dir⟩ := by
    unfold Write.directory
    rw [hpath, base.parent?_join_join hdir hname, Option.getD_some]
  refine ⟨base, dir, name, hdir, hname, hpath, hdirectory, fun location => ?_⟩
  rw [hdirectory, hpath]
  constructor
  · rintro ⟨front, rest, hpieces, hlocation⟩
    obtain ⟨hjoin, habs⟩ := base.pieces_join_join hdir hname
    refine ⟨front, rest ++ [name], ?_, ?_, ?_⟩
    · rw [hjoin, hpieces, List.append_assoc]
    · simp
    · rw [habs]
      exact hlocation
  · intro hpasses
    rcases Path.passes_join hname hpasses with hfront | hplace
    · exact hfront.visits
    · rw [hplace]
      exact (base.join ⟨dir⟩).visits_place

/-! ### What writing alters -/

/-- The disks differ only by what some writes do: files that were written, and directories that were
added on the way to them. -/
def Alters (writes : List Write) (before after : Disk) : Prop :=
  ∀ location, after.nodes[location]? = before.nodes[location]? ∨
    (∃ write ∈ writes, location = write.path.place ∧
      after.node? location = some (.file write.content)) ∨
    before.node? location = none ∧ after.node? location = some .directory ∧
      ∃ write ∈ writes, write.path.Passes location

namespace Alters

/-- A disk is not altered by being left alone. -/
lemma refl (writes : List Write) (disk : Disk) : Alters writes disk disk :=
  fun _ => .inl rfl

/-- The writes may be more. -/
lemma mono (h : Alters writes before after) (hsubset : ∀ write ∈ writes, write ∈ others) :
    Alters others before after := by
  intro location
  rcases h location with hsame | ⟨write, hwrite, hfile⟩ | ⟨hnone, hthere, write, hwrite, hpasses⟩
  · exact .inl hsame
  · exact .inr (.inl ⟨write, hsubset write hwrite, hfile⟩)
  · exact .inr (.inr ⟨hnone, hthere, write, hsubset write hwrite, hpasses⟩)

/-- Two alterations one after the other are one. -/
lemma trans (h : Alters writes before middle) (h' : Alters writes middle after) :
    Alters writes before after := by
  intro location
  rcases h' location with hsame' | hfile' | ⟨hnone', hthere', hpasses'⟩
  · rcases h location with hsame | ⟨write, hwrite, hplace, hfile⟩ | ⟨hnone, hthere, hpasses⟩
    · exact .inl (hsame'.trans hsame)
    · exact .inr (.inl ⟨write, hwrite, hplace, (Disk.node?_congr hsame').trans hfile⟩)
    · exact .inr (.inr ⟨hnone, (Disk.node?_congr hsame').trans hthere, hpasses⟩)
  · exact .inr (.inl hfile')
  · rcases h location with hsame | ⟨write, -, -, hfile⟩ | ⟨-, hthere, -⟩
    · exact .inr (.inr ⟨(Disk.node?_congr hsame).symm.trans hnone', hthere', hpasses'⟩)
    · rw [hfile] at hnone'
      cases hnone'
    · rw [hthere] at hnone'
      cases hnone'

/-- Directories that are added on the way to the files are an alteration. -/
lemma of_addsDirectories {places : Location → Prop} (h : before.AddsDirectories after places)
    (hplaces : ∀ location, places location → ∃ write ∈ writes, write.path.Passes location) :
    Alters writes before after := by
  intro location
  rcases h location with hsame | ⟨hnone, hthere, hplace⟩
  · exact .inl hsame
  · exact .inr (.inr ⟨hnone, hthere, hplaces location hplace⟩)

/-- What is removed on both disks is altered no more. -/
lemma without (h : Alters writes before after) (obstacles : List Location) :
    Alters writes (before.without obstacles) (after.without obstacles) := by
  intro location
  by_cases hremoved : ∃ obstacle ∈ obstacles, obstacle <+: location
  · left
    rw [Disk.nodes_without, Disk.nodes_without, if_pos hremoved, if_pos hremoved]
  · have hkept : ∀ disk : Disk, (disk.without obstacles).nodes[location]? =
        disk.nodes[location]? := by
      intro disk
      rw [Disk.nodes_without, if_neg hremoved]
    rw [hkept, hkept, Disk.node?_congr (hkept before), Disk.node?_congr (hkept after)]
    exact h location

end Alters

/-- One write alters a disk by what it does, however far it goes. -/
lemma alters_run (h : write.Filed) (disk : Disk) : Alters [write] disk (write.run disk).2 := by
  obtain ⟨base, dir, name, hdir, -, -, hdirectory, hway⟩ := h.directory
  have htrim : write.directory.IsTrim := by
    rw [hdirectory]
    exact base.isTrim_join hdir
  refine run_induction ?_ (fun {made written} hwrite hmade => hmade.trans ?_)
  · apply Alters.of_addsDirectories (Disk.addsDirectories_makeDirectoriesIn _ disk fun _ => htrim)
    intro location hvisits
    exact ⟨write, List.mem_singleton_self write, (hway location).mp hvisits⟩
  · obtain ⟨heq, hroot, hcurrent⟩ := Disk.write_eq_ok hwrite
    intro location
    by_cases hplace : location = write.path.place
    · right
      left
      refine ⟨write, List.mem_singleton_self write, hplace, ?_⟩
      rw [heq, Disk.node?_insert made _ hroot hcurrent, if_pos hplace]
    · left
      have hne : compare write.path.place location ≠ .eq := fun hcompare =>
        hplace (Std.LawfulEqOrd.eq_of_compare hcompare).symm
      rw [heq]
      unfold Disk.insert
      rw [Std.ExtTreeMap.getElem?_insert, if_neg hne]

/-- Several writes alter a disk by what they do, however far they go. -/
theorem alters_runAll (h : ∀ write ∈ writes, write.Filed) (disk : Disk) :
    Alters writes disk (runAll writes disk).2 := by
  refine runAll_induction (fun write hwrite middle hmiddle => hmiddle.trans ?_) (.refl writes disk)
  apply (alters_run (h write hwrite) middle).mono
  intro other hother
  rw [List.mem_singleton.mp hother]
  exact hwrite

/-! ### Where everything was written -/

/-- The content that is written last at a location. -/
def put? : List Write → Location → Option Bytes
  | [], _ => none
  | write :: rest, location =>
    (put? rest location).or (if write.path.place = location then some write.content else none)

/-- If all files were written, each location has what was written there last, or what it had. -/
lemma content?_eq_put? (h : runAll writes disk = (.ok (), after)) (location : Location) :
    after.content? location = (put? writes location).or (disk.content? location) := by
  induction writes generalizing disk with
  | nil =>
    obtain rfl := (Prod.mk.inj h).2
    rfl
  | cons write rest ih =>
    rw [runAll_cons] at h
    split at h
    · cases h
    · rename_i middle hrun
      rw [ih h, content?_run hrun, put?, Option.or_assoc]
      by_cases hplace : location = write.path.place
      · rw [if_pos hplace, if_pos hplace.symm]
        rfl
      · rw [if_neg hplace, if_neg (Ne.symm hplace)]
        rfl

/-- Something is written at the place of each write. -/
lemma exists_put? (h : write ∈ writes) :
    ∃ content, put? writes write.path.place = some content := by
  induction writes with
  | nil => cases h
  | cons first rest ih =>
    rw [put?]
    rcases List.mem_cons.mp h with rfl | hrest
    · rw [if_pos rfl]
      cases put? rest write.path.place with
      | none => exact ⟨_, rfl⟩
      | some content => exact ⟨content, rfl⟩
    · obtain ⟨content, hcontent⟩ := ih hrest
      rw [hcontent]
      exact ⟨content, rfl⟩

/-- If all files were written, there are files at their places and directories on the way. -/
lemma node?_of_runAll (h : runAll writes disk = (.ok (), after)) (hwrite : write ∈ writes) :
    (∃ content, put? writes write.path.place = some content ∧
        after.node? write.path.place = some (.file content)) ∧
      ∀ location, write.path.Passes location → after.node? location = some .directory := by
  constructor
  · obtain ⟨content, hput⟩ := exists_put? hwrite
    refine ⟨content, hput, ?_⟩
    have hcontent := content?_eq_put? h write.path.place
    rw [hput, Option.some_or] at hcontent
    unfold Disk.content? at hcontent
    split at hcontent
    · rename_i raw hnode
      rw [hnode, Option.some.inj hcontent]
    · cases hcontent
  · intro location hpasses
    exact (leads_of_runAll h hwrite).directory hpasses

/-- Nothing is listed differently where directories always are. -/
lemma Alters.nodes_of_root (h : Alters writes before after)
    (hroot : location = [] ∨ location = Disk.current) :
    after.nodes[location]? = before.nodes[location]? := by
  have hdirectory : ∀ disk : Disk, disk.node? location = some .directory :=
    fun _ => if_pos hroot
  rcases h location with hsame | ⟨write, -, -, hfile⟩ | ⟨hnone, -, -⟩
  · exact hsame
  · rw [hdirectory] at hfile
    cases hfile
  · rw [hdirectory] at hnone
    cases hnone

/-- If all files were written on two disks that differ only by what the writes do, the disks are the
same then. -/
theorem eq_of_runAll (hfiled : ∀ write ∈ writes, write.Filed) (halters : Alters writes before after)
    {first second : Disk} (hfirst : runAll writes before = (.ok (), first))
    (hsecond : runAll writes after = (.ok (), second)) : first = second := by
  have hbefore := alters_runAll hfiled before
  rw [hfirst] at hbefore
  have hafter := alters_runAll hfiled after
  rw [hsecond] at hafter
  have hnodes : first.nodes = second.nodes := by
    refine Std.ExtTreeMap.ext_getElem? fun location => ?_
    by_cases hroot : location = [] ∨ location = Disk.current
    · rw [hbefore.nodes_of_root hroot, hafter.nodes_of_root hroot, halters.nodes_of_root hroot]
    have hlisted : first.node? location = second.node? location →
        first.nodes[location]? = second.nodes[location]? := by
      intro hsame
      unfold Disk.node? at hsame
      rwa [if_neg hroot, if_neg hroot] at hsame
    by_cases hplace : ∃ write ∈ writes, location = write.path.place
    · obtain ⟨write, hwrite, rfl⟩ := hplace
      obtain ⟨content, hput, hnode⟩ := (node?_of_runAll hfirst hwrite).1
      obtain ⟨content', hput', hnode'⟩ := (node?_of_runAll hsecond hwrite).1
      rw [hput] at hput'
      apply hlisted
      rw [hnode, hnode', Option.some.inj hput']
    by_cases hpassed : ∃ write ∈ writes, write.path.Passes location
    · obtain ⟨write, hwrite, hpasses⟩ := hpassed
      apply hlisted
      rw [(node?_of_runAll hfirst hwrite).2 location hpasses,
        (node?_of_runAll hsecond hwrite).2 location hpasses]
    · -- Elsewhere nothing is altered.
      have hsame : ∀ {old new : Disk}, Alters writes old new →
          new.nodes[location]? = old.nodes[location]? := by
        intro old new hold
        rcases hold location with hsame | ⟨write, hwrite, heq, -⟩ | ⟨-, -, hpasses⟩
        · exact hsame
        · exact absurd ⟨write, hwrite, heq⟩ hplace
        · exact absurd hpasses hpassed
      rw [hsame hbefore, hsame hafter, hsame halters]
  cases first
  cases second
  exact congrArg Disk.mk hnodes

/-! ### What stands in the way -/

/-- Nothing stands in the way of the writes: no file on the way, and no directory in their place. -/
structure Free (writes : List Write) (disk : Disk) : Prop where
  /-- There is no file on the way. -/
  way : ∀ write ∈ writes, ∀ location, write.path.Passes location → ∀ content,
    disk.node? location ≠ some (.file content)
  /-- There is no directory in the place. -/
  place : ∀ write ∈ writes, disk.node? write.path.place ≠ some .directory

/-- No file is written on the way to another one. -/
def Apart (writes : List Write) : Prop :=
  ∀ write ∈ writes, ∀ other ∈ writes, ¬ write.path.Passes other.path.place

/-- If all files can be written, none is written on the way to another one. -/
lemma apart_of_runAll (h : runAll writes disk = (.ok (), goal)) : Apart writes := by
  intro write hwrite other hother hpasses
  obtain ⟨content, -, hfile⟩ := (node?_of_runAll h hother).1
  rw [(node?_of_runAll h hwrite).2 _ hpasses] at hfile
  cases hfile

/-- If all files can be written, nothing stands in their way. -/
lemma free_of_runAll (hfiled : ∀ write ∈ writes, write.Filed)
    (h : runAll writes disk = (.ok (), goal)) : Free writes disk := by
  have halters := alters_runAll hfiled disk
  have hkeeps := keeps_runAll writes disk
  rw [h] at halters hkeeps
  constructor
  · intro write hwrite location hpasses content hfile
    have hdirectory := (node?_of_runAll h hwrite).2 location hpasses
    rcases halters location with hsame | ⟨other, -, -, hwritten⟩ | ⟨hnone, -, -⟩
    · rw [Disk.node?_congr hsame, hfile] at hdirectory
      cases hdirectory
    · rw [hdirectory] at hwritten
      cases hwritten
    · rw [hfile] at hnone
      cases hnone
  · intro write hwrite hdirectory
    obtain ⟨content, -, hfile⟩ := (node?_of_runAll h hwrite).1
    rw [hkeeps _ hdirectory] at hfile
    cases hfile

/-- What the writes alter stands in the way of none of them. -/
lemma Free.alters (h : Free writes before) (hapart : Apart writes)
    (halters : Alters writes before after) : Free writes after := by
  constructor
  · intro write hwrite location hpasses content hfile
    rcases halters location with hsame | ⟨other, hother, hplace, -⟩ | ⟨-, hthere, -⟩
    · rw [Disk.node?_congr hsame] at hfile
      exact h.way write hwrite location hpasses content hfile
    · rw [hplace] at hpasses
      exact hapart write hwrite other hother hpasses
    · rw [hthere] at hfile
      cases hfile
  · intro write hwrite hdirectory
    rcases halters write.path.place with hsame | ⟨other, -, -, hfile⟩ |
      ⟨-, -, other, hother, hpasses⟩
    · rw [Disk.node?_congr hsame] at hdirectory
      exact h.place write hwrite hdirectory
    · rw [hdirectory] at hfile
      cases hfile
    · exact hapart other hother write hwrite hpasses

/-- A file can be written if its path can be followed on some disk and nothing stands in the way. -/
lemma run_of_free (hfiled : write.Filed) (hleads : goal.Leads write.path)
    (hfree : Free [write] disk) (hapart : Apart [write]) :
    ∃ written, write.run disk = (.ok (), written) := by
  obtain ⟨base, dir, name, hdir, hname, hpath, hdirectory, hway⟩ := hfiled.directory
  have hmem := List.mem_singleton_self write
  have hne : (base.join ⟨dir⟩).text ≠ "" := base.join_ne_empty hdir
  rw [hpath] at hleads
  obtain ⟨hstart, hshort, hopens⟩ := (Disk.leads_join hname hne).mp hleads
  have hclear : ∀ location, (base.join ⟨dir⟩).Visits location → ∀ content,
      disk.node? location ≠ some (.file content) := by
    intro location hvisits
    rw [← hdirectory] at hvisits
    exact hfree.way write hmem location ((hway location).mp hvisits)
  obtain ⟨made, hmade, hopensMade, hadds⟩ :=
    Disk.makeDirectories_ok (base.isTrim_join hdir) hne hopens.1 hclear
  have hplace : made.node? write.path.place ≠ some .directory := by
    intro hthere
    rcases hadds write.path.place with hsame | ⟨-, -, hvisits⟩
    · rw [Disk.node?_congr hsame] at hthere
      exact hfree.place write hmem hthere
    · rw [← hdirectory] at hvisits
      exact hapart write hmem write hmem ((hway _).mp hvisits)
  rw [hpath] at hplace
  obtain ⟨written, hwritten⟩ := Disk.write_of_leads hname
    ((Disk.leads_join hname hne).mpr ⟨hstart, hshort, hopensMade⟩) hplace write.content
  refine ⟨written, ?_⟩
  unfold run
  rw [hdirectory, hmade]
  simp only
  rw [hpath, hwritten]

/-- A file cannot be written where a directory is, but the directories on the way are made. -/
lemma run_of_directory (hfiled : write.Filed) (hleads : goal.Leads write.path)
    (hway : ∀ location, write.path.Passes location → ∀ content,
      disk.node? location ≠ some (.file content))
    (hplace : disk.node? write.path.place = some .directory) :
    ∃ error made, write.run disk = (.error error, made) ∧ made.Opens write.directory ∧
      disk.AddsDirectories made write.path.Passes := by
  obtain ⟨base, dir, name, hdir, hname, hpath, hdirectory, hway'⟩ := hfiled.directory
  have hne : (base.join ⟨dir⟩).text ≠ "" := base.join_ne_empty hdir
  rw [hpath] at hleads
  obtain ⟨-, -, hopens⟩ := (Disk.leads_join hname hne).mp hleads
  have hclear : ∀ location, (base.join ⟨dir⟩).Visits location → ∀ content,
      disk.node? location ≠ some (.file content) := by
    intro location hvisits
    rw [← hdirectory] at hvisits
    exact hway location ((hway' location).mp hvisits)
  obtain ⟨made, hmade, hopensMade, hadds⟩ :=
    Disk.makeDirectories_ok (base.isTrim_join hdir) hne hopens.1 hclear
  rw [← hdirectory] at hmade hopensMade hadds
  have hthere := disk.keeps_makeDirectories write.directory _ hplace
  rw [hmade] at hthere
  unfold run
  rw [hmade]
  simp only
  cases hwrite : made.write write.path write.content with
  | error fault =>
    exact ⟨_, made, rfl, hopensMade, hadds.mono fun location => (hway' location).mp⟩
  | ok written =>
    obtain ⟨first, target, hstart, htarget, hnode, -⟩ := Disk.insert_of_write hwrite
    obtain ⟨hsame, -⟩ := Disk.eq_of_entryAt htarget
    rw [Disk.eq_of_start hstart] at hsame
    have hsame' : target = write.path.place := hsame
    rw [hsame', hthere] at hnode
    exact absurd rfl hnode

/-- All files can be written if their paths can be followed on some disk and nothing stands in the
way. -/
theorem runAll_of_free (hfiled : ∀ write ∈ writes, write.Filed)
    (hleads : ∀ write ∈ writes, goal.Leads write.path) (hfree : Free writes disk)
    (hapart : Apart writes) : ∃ written, runAll writes disk = (.ok (), written) := by
  induction writes generalizing disk with
  | nil => exact ⟨disk, rfl⟩
  | cons write rest ih =>
    have hfirst := hfiled write List.mem_cons_self
    have hone : ∀ other ∈ [write], other ∈ write :: rest := by
      intro other hother
      rw [List.mem_singleton.mp hother]
      exact List.mem_cons_self
    obtain ⟨middle, hrun⟩ := run_of_free hfirst (hleads write List.mem_cons_self)
      ⟨fun other hother => hfree.way other (hone other hother),
        fun other hother => hfree.place other (hone other hother)⟩
      (fun other hother next hnext => hapart other (hone other hother) next (hone next hnext))
    have halters := (alters_run hfirst disk).mono hone
    rw [hrun] at halters
    have hstill := hfree.alters hapart halters
    rw [runAll_cons, hrun]
    apply ih
    · exact fun other hother => hfiled other (List.mem_cons_of_mem _ hother)
    · exact fun other hother => hleads other (List.mem_cons_of_mem _ hother)
    · exact ⟨fun other hother => hstill.way other (List.mem_cons_of_mem _ hother),
        fun other hother => hstill.place other (List.mem_cons_of_mem _ hother)⟩
    · exact fun other hother next hnext => hapart other (List.mem_cons_of_mem _ hother) next
        (List.mem_cons_of_mem _ hnext)

/-- A file can be written where its path can be followed, unless there is a directory in its place,
and nothing else changes. -/
lemma run_of_leads (hfiled : write.Filed) (hleads : disk.Leads write.path)
    (hplace : disk.node? write.path.place ≠ some .directory) :
    write.run disk = (.ok (), disk.insert write.path.place (.file write.content)) := by
  obtain ⟨base, dir, name, hdir, hname, hpath, hdirectory, -⟩ := hfiled.directory
  have hopens : disk.Opens (base.join ⟨dir⟩) := by
    rw [hpath] at hleads
    exact ((Disk.leads_join hname (base.join_ne_empty hdir)).mp hleads).2.2
  obtain ⟨written, hwritten⟩ : ∃ written, disk.write write.path write.content = .ok written := by
    rw [hpath] at hleads hplace ⊢
    exact Disk.write_of_leads hname hleads hplace write.content
  unfold run
  rw [hdirectory, Disk.makeDirectories_of_opens hdir hopens]
  simp only [hwritten]
  rw [(Disk.write_eq_ok hwritten).1]

/-- The same for several files. -/
theorem runAll_of_leads (hfiled : ∀ write ∈ writes, write.Filed)
    (hleads : ∀ write ∈ writes, disk.Leads write.path)
    (hplace : ∀ write ∈ writes, disk.node? write.path.place ≠ some .directory) :
    runAll writes disk = (.ok (), writes.foldl
      (fun disk write => disk.insert write.path.place (.file write.content)) disk) := by
  induction writes generalizing disk with
  | nil => rfl
  | cons write rest ih =>
    have hrun := run_of_leads (hfiled write List.mem_cons_self) (hleads write List.mem_cons_self)
      (hplace write List.mem_cons_self)
    have hkeeps := write.keeps_run disk
    have halters := alters_run (hfiled write List.mem_cons_self) disk
    rw [hrun] at hkeeps halters
    rw [runAll_cons, hrun]
    refine ih (fun other hother => hfiled other (List.mem_cons_of_mem _ hother))
      (fun other hother => (hleads other (List.mem_cons_of_mem _ hother)).mono hkeeps)
      fun other hother hdirectory => ?_
    -- A directory would have been there, or on the way, where all directories are there.
    rcases halters other.path.place with hsame | ⟨_, _, _, hfile⟩ | ⟨hnone, -, first, hfirst, hway⟩
    · rw [Disk.node?_congr hsame] at hdirectory
      exact hplace other (List.mem_cons_of_mem _ hother) hdirectory
    · rw [hfile] at hdirectory
      cases hdirectory
    · rw [List.mem_singleton.mp hfirst] at hway
      rw [(hleads write List.mem_cons_self).directory hway] at hnone
      cases hnone

/-- If all files can be written on a disk, they can be written on each disk that differs from it
only by what the writes do, and that comes to the same. -/
theorem runAll_again (hfiled : ∀ write ∈ writes, write.Filed) (halters : Alters writes before after)
    (h : runAll writes before = (.ok (), goal)) : runAll writes after = (.ok (), goal) := by
  have hapart := apart_of_runAll h
  have hfree := (free_of_runAll hfiled h).alters hapart halters
  obtain ⟨written, hwritten⟩ :=
    runAll_of_free hfiled (fun write hwrite => leads_of_runAll h hwrite) hfree hapart
  rw [hwritten, ← eq_of_runAll hfiled halters h hwritten]

end Write

end Recompile
