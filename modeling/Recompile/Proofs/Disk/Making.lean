import Recompile.Proofs.Disk.Parents

/-!
# Making directories

A directory is made together with the missing ones above it.  By induction along the paths above a
trim path, three things follow:

* nothing changes but that directories are added where the path leads through nothing
  (`Disk.addsDirectories_makeDirectoriesIn`);
* if it succeeds, the path leads to a directory (`Disk.opens_of_makeDirectoriesIn`);
* it succeeds whenever the path could be followed on some other disk and no file stands in its way
  (`Disk.makeDirectories_ok`): then the only failure on the way is that something is missing, and
  once the directory above is there nothing is missing any more.
-/

namespace Recompile

namespace Disk

variable {disk made whole : Disk} {path : Path}

/-! ### Following -/

/-- Idle pieces are followed in a directory. -/
lemma follow_idle {location : Location} {pieces : List String}
    (h : disk.node? location = some .directory)
    (hidle : ∀ piece ∈ pieces, Path.isIdle piece = true) :
    disk.follow location pieces = .ok location := by
  induction pieces with
  | nil => rfl
  | cons piece rest ih =>
    rw [follow, h]
    simp only [hidle piece List.mem_cons_self, if_true]
    exact ih fun other hother => hidle other (List.mem_cons_of_mem _ hother)

/-- The locations above one that was followed to are directories. -/
lemma directory_of_follow {location target : Location} {pieces : List String}
    (h : disk.follow location pieces = .ok target)
    (habove : ∀ above, above <+: location → above ≠ location →
      disk.node? above = some .directory) :
    ∀ above, above <+: target → above ≠ target → disk.node? above = some .directory := by
  induction pieces generalizing location with
  | nil =>
    obtain rfl := Except.ok.inj h
    exact habove
  | cons piece rest ih =>
    rw [follow] at h
    split at h
    · cases h
    · cases h
    · rename_i hnode
      split_ifs at h
      · exact ih h habove
      · apply ih h
        intro above hupper hne
        have hdrop : location.dropLast <+: location := List.dropLast_prefix location
        apply habove above (hupper.trans hdrop)
        rintro rfl
        exact hne (List.IsPrefix.eq_of_length_le hupper hdrop.length_le)
      · apply ih h
        intro above hupper hne
        rcases List.prefix_concat_iff.mp hupper with heq | hshort
        · exact absurd heq hne
        · by_cases hhere : above = location
          · rw [hhere]
            exact hnode
          · exact habove above hshort hhere

/-- Where a path starts is a directory, and so is what is above it. -/
lemma directory_start (disk : Disk) {first : Location} (h : start path = .ok first) :
    disk.node? first = some .directory ∧
      ∀ above, above <+: first → above ≠ first → disk.node? above = some .directory := by
  have hroot : disk.node? [] = some .directory := if_pos (.inl rfl)
  have hcurrent : disk.node? current = some .directory := if_pos (.inr rfl)
  rw [eq_of_start h]
  split_ifs
  · refine ⟨hroot, fun above hprefix hne => ?_⟩
    exact absurd (List.prefix_nil.mp hprefix) hne
  · refine ⟨hcurrent, fun above hprefix hne => ?_⟩
    have hnil : above = [] := by
      rcases List.prefix_cons_iff.mp hprefix with hnil | ⟨rest, heq, hrest⟩
      · exact hnil
      · rw [List.prefix_nil.mp hrest] at heq
        exact absurd heq hne
    rw [hnil]
    exact hroot

/-- Pieces that could be followed on another disk can only be missing, if no file stands in the
way. -/
lemma eq_missing_of_follow {location target : Location} {pieces : List String} {fault : Fault}
    (hwhole : whole.follow location pieces = .ok target)
    (hclear : ∀ front rest, pieces = front ++ rest → rest ≠ [] → ∀ content,
      disk.node? (front.foldl Path.follow location) ≠ some (.file content))
    (h : disk.follow location pieces = .error fault) : fault = missing := by
  induction pieces generalizing location with
  | nil => cases h
  | cons piece rest ih =>
    have hhere := hclear [] (piece :: rest) rfl (List.cons_ne_nil _ _)
    have hrest : ∀ front tail, rest = front ++ tail → tail ≠ [] → ∀ content,
        disk.node? (front.foldl Path.follow (Path.follow location piece)) ≠
          some (.file content) := by
      intro front tail heq
      exact hclear (piece :: front) tail (by rw [heq]; rfl)
    unfold Path.follow at hrest
    rw [follow] at hwhole h
    cases hnode : disk.node? location with
    | none =>
      rw [hnode] at h
      exact (Except.error.inj h).symm
    | some node =>
      cases node with
      | file content => exact absurd hnode (hhere content)
      | directory =>
        rw [hnode] at h
        split at hwhole
        · cases hwhole
        · cases hwhole
        · split_ifs at hwhole h hrest
          · exact ih hwhole hrest h
          · exact ih hwhole hrest h
          · exact ih hwhole hrest h

/-! ### Making one directory -/

/-- Blanks at the end are idle. -/
lemma exists_dropBlanks (pieces : List String) :
    ∃ blanks, pieces = (pieces.reverse.dropWhile (· = "")).reverse ++ blanks ∧
      ∀ piece ∈ blanks, Path.isIdle piece = true := by
  refine ⟨pieces.rtakeWhile (· = ""), List.rdropWhile_append_rtakeWhile.symm, ?_⟩
  intro piece hpiece
  have hblank := List.mem_rtakeWhile_imp hpiece
  rw [decide_eq_true_iff] at hblank
  rw [hblank]
  rfl

/-- A directory that is made is put at the place of its path, where nothing was, and the path leads
to it. -/
theorem makeDirectory_eq_ok (h : disk.makeDirectory path = .ok made) :
    made = disk.insert path.place .directory ∧ disk.node? path.place = none ∧ made.Opens path := by
  have hkeeps := keeps_makeDirectory h
  obtain ⟨first, target, hstart, htarget, hnode, rfl⟩ := insert_of_makeDirectory h
  obtain ⟨blanks, hpieces, hblanks⟩ := exists_dropBlanks path.pieces
  obtain ⟨hplace, hroot, hcurrent⟩ := eq_of_entryAt htarget
  -- The blanks lead nowhere else.
  have htargetPlace : target = path.place := by
    unfold Path.place
    rw [hplace, eq_of_start hstart]
    conv_rhs => rw [hpieces]
    rw [List.foldl_append, Path.foldl_follow_idle hblanks]
  have hthere : (disk.insert target .directory).node? target = some .directory := by
    rw [node?_insert disk _ hroot hcurrent, if_pos rfl]
  obtain ⟨front, name, parent, hname, hfollow, hparent, hidle, hup, hlong, htargetName⟩ :=
    exists_of_entryAt htarget
  have hstill : (disk.insert target .directory).follow first front = .ok parent :=
    follow_mono hfollow fun _ _ _ _ => hkeeps _
  have hlast : (disk.insert target .directory).follow parent [name] = .ok target := by
    rw [follow, hkeeps parent hparent]
    simp only
    rw [if_neg hidle, if_neg hup, if_neg hlong, follow, htargetName]
  have hwhole : (disk.insert target .directory).follow first path.pieces = .ok target := by
    rw [hpieces, follow_append, hname, follow_append, hstill]
    simp only [Except.bind]
    rw [hlast]
    exact follow_idle hthere hblanks
  rw [← htargetPlace]
  refine ⟨rfl, hnode, ⟨first, hstart, ?_⟩, ?_⟩
  · rw [← htargetPlace]
    exact hwhole
  · rw [← htargetPlace]
    exact hthere

/-- A single idle piece leads to a directory that is there. -/
lemma makeDirectory_of_idle (disk : Disk) {piece : String} (hpieces : path.pieces = [piece])
    (hidle : Path.isIdle piece = true) (hne : path.text ≠ "") :
    ∃ fault, disk.makeDirectory path = .error fault ∧ fault.isNotFound = false ∧
      (∀ first, start path = .ok first → disk.isDirectory path = true) := by
  have hempty : path.text.isEmpty = false := by
    rw [Bool.eq_false_iff, ne_eq, String.isEmpty_iff]
    exact hne
  cases hstart : start path with
  | error fault =>
    refine ⟨fault, ?_, ?_, ?_⟩
    · unfold makeDirectory
      simp only [hstart, bind, Except.bind]
    · unfold start at hstart
      rw [hempty, if_neg Bool.false_ne_true] at hstart
      split_ifs at hstart <;>
        · obtain rfl := Except.error.inj hstart
          rfl
    · intro first hfirst
      cases hfirst
  | ok first =>
    have hnode := (disk.directory_start hstart).1
    have hfollow : disk.follow first path.pieces = .ok first := by
      apply follow_idle hnode
      rw [hpieces]
      intro other hother
      rw [List.mem_singleton.mp hother]
      exact hidle
    refine ⟨alreadyThere, ?_, rfl, ?_⟩
    · unfold makeDirectory
      simp only [hstart, bind, Except.bind]
      rw [hpieces, List.reverse_singleton, List.dropWhile_cons]
      unfold entryAt
      split_ifs with hblank
      · rw [List.dropWhile_nil, List.reverse_nil, List.dropLast_nil, follow]
        simp only [hnode, bind, Except.bind, List.getLast?_nil]
        rfl
      · rw [List.reverse_singleton, List.dropLast_singleton, follow]
        simp only [hnode, bind, Except.bind, List.getLast?_singleton, hidle, true_or, if_true]
        rfl
    · intro other _
      unfold isDirectory find
      simp only [hstart, hfollow, hnode, bind, Except.bind, pure, Except.pure]

/-- A directory for a path whose last piece is a step is made where that piece leads. -/
lemma makeDirectory_of_step {front : List String} {last : String} {first : Location}
    (hpieces : path.pieces = front ++ [last]) (hlast : Path.isIdle last = false)
    (hstart : start path = .ok first) :
    disk.makeDirectory path = (disk.entryAt first path.pieces).bind fun location =>
      match disk.node? location with
      | some _ => .error alreadyThere
      | none => .ok (disk.insert location .directory) := by
  have hblank : ¬ decide (last = "") = true := by
    rw [decide_eq_true_iff]
    exact Path.ne_empty_of_step hlast
  have htrim : (path.pieces.reverse.dropWhile (· = "")).reverse = path.pieces := by
    rw [hpieces]
    exact List.rdropWhile_concat_neg _ _ _ hblank
  unfold makeDirectory
  simp only [hstart, htrim, bind, Except.bind]
  rfl

/-- If what stands before the last step of a path leads to a directory and no file is at its place,
then a directory is made there or there is one. -/
lemma makeDirectory_of_parent {front : List String} {last : String} {first parent : Location}
    (hpieces : path.pieces = front ++ [last]) (hlast : Path.isIdle last = false)
    (hshort : last ≠ ".." → ¬ maxName < last.utf8ByteSize) (hstart : start path = .ok first)
    (hfollow : disk.follow first front = .ok parent)
    (hparent : disk.node? parent = some .directory)
    (hclear : ∀ content, disk.node? path.place ≠ some (.file content)) :
    (∃ made, disk.makeDirectory path = .ok made) ∨
      disk.makeDirectory path = .error alreadyThere ∧ disk.isDirectory path = true := by
  have hplace : path.place = Path.follow parent last := by
    unfold Path.place
    rw [hpieces, List.foldl_append, ← eq_of_start hstart, ← eq_of_follow hfollow]
    rfl
  -- If there is a directory at the place, the path leads to it.
  have hthere (hnode : disk.node? path.place = some .directory) : disk.isDirectory path = true := by
    have hleads : disk.follow first path.pieces = .ok path.place := by
      rw [hpieces, follow_append, hfollow, hplace]
      simp only [Except.bind]
      rw [follow, hparent]
      unfold Path.follow
      simp only [hlast, if_neg Bool.false_ne_true]
      split_ifs with hup hlong
      · rfl
      · exact absurd hlong (hshort hup)
      · rfl
    unfold isDirectory
    rw [find_eq_ok.mpr ⟨⟨first, hstart, hleads⟩, rfl, hnode⟩]
  rw [makeDirectory_of_step hpieces hlast hstart]
  unfold entryAt
  rw [hpieces, List.dropLast_concat, hfollow, List.getLast?_concat]
  simp only [hparent, bind, Except.bind]
  by_cases hup : last = ".."
  · right
    rw [if_pos (.inr hup)]
    refine ⟨rfl, hthere ?_⟩
    rw [hplace, Path.follow, if_neg (by rw [hlast]; exact Bool.false_ne_true), if_pos hup]
    by_cases hnil : parent.dropLast = parent
    · rw [hnil]
      exact hparent
    · have habove := (disk.directory_start hstart).2
      exact directory_of_follow hfollow habove _ (List.dropLast_prefix parent) hnil
  · have hstep : ¬ (Path.isIdle last = true ∨ last = "..") := by
      rw [hlast, not_or]
      exact ⟨Bool.false_ne_true, hup⟩
    have hname : path.place = parent ++ [last] := by
      rw [hplace, Path.follow, if_neg (by rw [hlast]; exact Bool.false_ne_true), if_neg hup]
    rw [if_neg hstep, if_neg (hshort hup)]
    rw [hname] at hclear hthere
    cases hnode : disk.node? (parent ++ [last]) with
    | none =>
      left
      simp only [pure, Except.pure, hnode]
      exact ⟨_, rfl⟩
    | some node =>
      cases node with
      | file content => exact absurd hnode (hclear content)
      | directory =>
        right
        simp only [pure, Except.pure, hnode]
        exact ⟨trivial, hthere hnode⟩

/-! ### What making directories changes -/

/-- The disks differ only in that the second one has directories at some of the locations where the
first one has nothing. -/
def AddsDirectories (before after : Disk) (places : Location → Prop) : Prop :=
  ∀ location, after.nodes[location]? = before.nodes[location]? ∨
    before.node? location = none ∧ after.node? location = some .directory ∧ places location

/-- What is at a location is what is listed there. -/
lemma node?_congr {before after : Disk} {location : Location}
    (h : after.nodes[location]? = before.nodes[location]?) :
    after.node? location = before.node? location := by
  unfold node?
  rw [h]

namespace AddsDirectories

variable {before middle after : Disk} {places others : Location → Prop}

/-- Nothing is added to a disk by leaving it alone. -/
lemma refl (disk : Disk) (places : Location → Prop) : disk.AddsDirectories disk places :=
  fun _ => .inl rfl

/-- The locations may be more. -/
lemma mono (h : before.AddsDirectories after places)
    (hplaces : ∀ location, places location → others location) :
    before.AddsDirectories after others := by
  intro location
  rcases h location with hsame | ⟨hnone, hthere, hplace⟩
  · exact .inl hsame
  · exact .inr ⟨hnone, hthere, hplaces location hplace⟩

/-- Directories may be added one after the other. -/
lemma trans (h : before.AddsDirectories middle places)
    (h' : middle.AddsDirectories after places) : before.AddsDirectories after places := by
  intro location
  rcases h location with hsame | ⟨hnone, hthere, hplace⟩
  · rcases h' location with hsame' | ⟨hnone', hthere', hplace'⟩
    · exact .inl (hsame'.trans hsame)
    · exact .inr ⟨(node?_congr hsame).symm.trans hnone', hthere', hplace'⟩
  · rcases h' location with hsame' | ⟨hnone', -⟩
    · exact .inr ⟨hnone, (node?_congr hsame').trans hthere, hplace⟩
    · rw [hthere] at hnone'
      cases hnone'

/-- No file is added. -/
lemma file (h : before.AddsDirectories after places) {location : Location} {content : Bytes}
    (hfile : after.node? location = some (.file content)) :
    before.node? location = some (.file content) := by
  rcases h location with hsame | ⟨-, hthere, -⟩
  · exact (node?_congr hsame).symm.trans hfile
  · rw [hthere] at hfile
    cases hfile

end AddsDirectories

/-- Making one directory adds it. -/
lemma addsDirectories_makeDirectory (h : disk.makeDirectory path = .ok made) :
    disk.AddsDirectories made path.Visits := by
  obtain ⟨heq, hnone, hopens⟩ := makeDirectory_eq_ok h
  intro location
  by_cases hplace : location = path.place
  · rw [hplace]
    exact .inr ⟨hnone, hopens.2, path.visits_place⟩
  · left
    have hne : compare path.place location ≠ .eq := fun hcompare =>
      hplace (Std.LawfulEqOrd.eq_of_compare hcompare).symm
    rw [heq]
    unfold insert
    rw [Std.ExtTreeMap.getElem?_insert, if_neg hne]

/-- Making directories for the empty path changes nothing. -/
lemma makeDirectoriesIn_empty (fuel : Nat) (disk : Disk) (h : path.text = "") :
    (makeDirectoriesIn fuel disk path).2 = disk := by
  have hempty : path.text.isEmpty = true := String.isEmpty_iff.mpr h
  cases fuel with
  | zero => rfl
  | succ fuel =>
    rw [makeDirectoriesIn, if_pos hempty]

/-- Making directories adds some where the path leads through nothing, however far it goes. -/
theorem addsDirectories_makeDirectoriesIn (fuel : Nat) (disk : Disk)
    (htrim : path.text ≠ "" → path.IsTrim) :
    disk.AddsDirectories (makeDirectoriesIn fuel disk path).2 path.Visits := by
  induction fuel generalizing disk path with
  | zero => exact .refl disk _
  | succ fuel ih =>
    by_cases hne : path.text = ""
    · rw [makeDirectoriesIn_empty _ _ hne]
      exact .refl disk _
    obtain ⟨front, last, hpieces, hlast⟩ := htrim hne
    rw [makeDirectoriesIn, if_neg (fun hempty => hne (String.isEmpty_iff.mp hempty))]
    cases hidle : Path.isIdle last with
    | true =>
      -- A single idle piece: nothing is missing.
      have hnil : front = [] := hlast.resolve_right (by rw [hidle]; exact Bool.noConfusion)
      rw [hnil, List.nil_append] at hpieces
      obtain ⟨fault, hfault, hfound, -⟩ := makeDirectory_of_idle disk hpieces hidle hne
      rw [hfault]
      simp only [hfound, if_neg Bool.false_ne_true]
      exact .refl disk _
    | false =>
      obtain ⟨parent, rest, hparent, -, -, habove⟩ := Path.parent?_of_step hpieces hidle
      have hparents : disk.AddsDirectories (makeDirectoriesIn fuel disk parent).2 path.Visits := by
        rcases habove with ⟨hempty, -⟩ | ⟨-, habs, htrimParent, hheads⟩
        · rw [makeDirectoriesIn_empty _ _ hempty]
          exact .refl disk _
        · apply (ih disk fun _ => htrimParent).mono
          intro location hvisits
          exact (hheads.passes habs hpieces hvisits).visits
      split
      · rename_i made hmade
        exact addsDirectories_makeDirectory hmade
      · split
        · rw [hparent]
          simp only
          split
          · rename_i above hrun
            rwa [hrun] at hparents
          · rename_i above hrun
            rw [hrun] at hparents
            split
            · rename_i made hmade
              exact hparents.trans (addsDirectories_makeDirectory hmade)
            · exact hparents
        · exact .refl disk _

/-! ### Success -/

/-- A path at which a directory is found opens it. -/
lemma opens_of_isDirectory (h : disk.isDirectory path = true) : disk.Opens path := by
  unfold isDirectory at h
  split at h
  · rename_i location hfind
    obtain ⟨hleads, -, hnode⟩ := find_eq_ok.mp hfind
    exact ⟨hleads, hnode⟩
  · cases h

/-- If directories were made, the path leads to a directory. -/
theorem opens_of_makeDirectoriesIn {fuel : Nat}
    (h : makeDirectoriesIn fuel disk path = (.ok (), made)) (hne : path.text ≠ "") :
    made.Opens path := by
  cases fuel with
  | zero => cases h
  | succ fuel =>
    rw [makeDirectoriesIn, if_neg (fun hempty => hne (String.isEmpty_iff.mp hempty))] at h
    split at h
    · rename_i done hmade
      obtain rfl := (Prod.mk.inj h).2
      exact (makeDirectory_eq_ok hmade).2.2
    · split at h
      · split at h
        · cases h
        · split at h
          · cases h
          · split at h
            · rename_i done hmade
              obtain rfl := (Prod.mk.inj h).2
              exact (makeDirectory_eq_ok hmade).2.2
            · split_ifs at h with hdirectory
              · obtain rfl := (Prod.mk.inj h).2
                exact opens_of_isDirectory hdirectory
              · cases h
      · split_ifs at h with hdirectory
        · obtain rfl := (Prod.mk.inj h).2
          exact opens_of_isDirectory hdirectory
        · cases h

section Parents

variable {parent : Path} {front : List String} {last rest : String}

/-- If a path can be followed, so can the path above it. -/
lemma Leads.above (h : disk.Leads path) (hpieces : path.pieces = front ++ [last])
    (htext : path.text = parent.text ++ rest) (hne : parent.text ≠ "")
    (habs : parent.isAbsolute = path.isAbsolute) (hheads : parent.Heads front) :
    disk.Leads parent := by
  obtain ⟨first, hstart, hfollow⟩ := h
  have hfirst := start_of_append htext hne habs hstart
  obtain ⟨core, idle, hfront, -, hcore⟩ := hheads
  have hparent : ∃ target, disk.follow first parent.pieces = .ok target := by
    rcases hcore with hcore | ⟨-, hroot⟩
    · rw [hpieces, hfront, List.append_assoc, follow_append] at hfollow
      rw [hcore]
      cases hfound : disk.follow first core with
      | error fault => rw [hfound] at hfollow; cases hfollow
      | ok target => exact ⟨target, rfl⟩
    · rw [hroot]
      exact ⟨first, follow_empty (disk.directory_start hfirst).1⟩
  obtain ⟨target, htarget⟩ := hparent
  have hplace : target = parent.place := by
    rw [eq_of_follow htarget, eq_of_start hfirst]
    rfl
  exact ⟨first, hfirst, hplace ▸ htarget⟩

/-- If the path above opens a directory, what stands before the last piece leads to it. -/
lemma Opens.follow_front (h : disk.Opens parent) {first : Location}
    (hstart : start path = .ok first) (habs : parent.isAbsolute = path.isAbsolute)
    (hheads : parent.Heads front) :
    disk.follow first front = .ok parent.place := by
  obtain ⟨⟨first', hstart', hfollow⟩, hnode⟩ := h
  have hfirst : first' = first := by
    rw [eq_of_start hstart', eq_of_start hstart, habs]
  rw [hfirst] at hfollow
  obtain ⟨core, idle, hfront, hidle, hcore⟩ := hheads
  rw [hfront, follow_append]
  rcases hcore with hcore | ⟨hnil, hroot⟩
  · rw [← hcore, hfollow]
    exact follow_idle hnode hidle
  · have hplace : parent.place = first := by
      rw [eq_of_follow hfollow, hroot]
      rfl
    rw [hplace] at hnode ⊢
    rw [hnil]
    exact follow_idle hnode hidle

end Parents

/-- If a path can be followed on some disk and no file stands in its way, then its directory is
made, or it is there, or something above it is missing. -/
lemma makeDirectory_of_clear {front : List String} {last : String} {first : Location}
    (hpieces : path.pieces = front ++ [last]) (hlast : Path.isIdle last = false)
    (hstart : start path = .ok first) (hleads : whole.Leads path)
    (hclear : ∀ location, path.Visits location → ∀ content,
      disk.node? location ≠ some (.file content)) :
    (∃ made, disk.makeDirectory path = .ok made) ∨
      (disk.makeDirectory path = .error alreadyThere ∧ disk.isDirectory path = true) ∨
      disk.makeDirectory path = .error missing ∧
        ¬ ∃ target, disk.follow first front = .ok target ∧
          disk.node? target = some .directory := by
  obtain ⟨first', hstart', hwhole⟩ := hleads
  obtain rfl := Except.ok.inj (hstart.symm.trans hstart')
  rw [hpieces, follow_append] at hwhole
  -- On the way no file is met.
  have hway : ∀ before after, front = before ++ after → ∀ content,
      disk.node? (before.foldl Path.follow first) ≠ some (.file content) := by
    intro before after heq
    apply hclear
    refine ⟨before, after ++ [last], ?_, ?_⟩
    · rw [hpieces, heq, List.append_assoc]
    · rw [eq_of_start hstart]
  cases hfront : whole.follow first front with
  | error fault => rw [hfront] at hwhole; cases hwhole
  | ok there =>
    rw [hfront] at hwhole
    have hshort : last ≠ ".." → ¬ maxName < last.utf8ByteSize := by
      intro hup hlong
      simp only [Except.bind] at hwhole
      rw [follow] at hwhole
      split at hwhole
      · cases hwhole
      · cases hwhole
      · rw [hlast, if_neg Bool.false_ne_true, if_neg hup, if_pos hlong] at hwhole
        cases hwhole
    cases hfollow : disk.follow first front with
    | error fault =>
      obtain rfl := eq_missing_of_follow hfront (fun before after heq _ => hway before after heq)
        hfollow
      refine .inr (.inr ⟨?_, ?_⟩)
      · rw [makeDirectory_of_step hpieces hlast hstart]
        unfold entryAt
        rw [hpieces, List.dropLast_concat, hfollow]
        rfl
      · rintro ⟨target, htarget, -⟩
        cases htarget
    | ok target =>
      cases hnode : disk.node? target with
      | none =>
        refine .inr (.inr ⟨?_, ?_⟩)
        · rw [makeDirectory_of_step hpieces hlast hstart]
          unfold entryAt
          rw [hpieces, List.dropLast_concat, hfollow]
          simp only [hnode, bind, Except.bind]
          rfl
        · rintro ⟨other, hother, hdirectory⟩
          obtain rfl := Except.ok.inj hother
          rw [hnode] at hdirectory
          cases hdirectory
      | some node =>
        cases node with
        | file content =>
          have hfile := hway front [] (List.append_nil _).symm content
          rw [← eq_of_follow hfollow] at hfile
          exact absurd hnode hfile
        | directory =>
          rcases makeDirectory_of_parent hpieces hlast hshort hstart hfollow hnode
            (hclear path.place path.visits_place) with hmade | hthere
          · exact .inl hmade
          · exact .inr (.inl hthere)

/-- Directories can be made for every path that can be followed on some disk, if no file stands in
its way. -/
theorem makeDirectoriesIn_ok (fuel : Nat) (disk : Disk) (hfuel : path.text.length < fuel)
    (htrim : path.text ≠ "" → path.IsTrim ∧ whole.Leads path)
    (hclear : ∀ location, path.Visits location → ∀ content,
      disk.node? location ≠ some (.file content)) :
    ∃ made, makeDirectoriesIn fuel disk path = (.ok (), made) := by
  induction fuel generalizing disk path with
  | zero => exact absurd hfuel (Nat.not_lt_zero _)
  | succ fuel ih =>
    by_cases hne : path.text = ""
    · rw [makeDirectoriesIn, if_pos (String.isEmpty_iff.mpr hne)]
      exact ⟨disk, rfl⟩
    obtain ⟨⟨front, last, hpieces, hlast⟩, hleads⟩ := htrim hne
    obtain ⟨first, hstart, hwhole⟩ := id hleads
    rw [makeDirectoriesIn, if_neg (fun hempty => hne (String.isEmpty_iff.mp hempty))]
    cases hidle : Path.isIdle last with
    | true =>
      have hnil : front = [] := hlast.resolve_right (by rw [hidle]; exact Bool.noConfusion)
      rw [hnil, List.nil_append] at hpieces
      obtain ⟨fault, hfault, hfound, hthere⟩ :=
        makeDirectory_of_idle disk hpieces hidle hne
      rw [hfault]
      simp only [hfound, if_neg Bool.false_ne_true, hthere first hstart, if_true]
      exact ⟨disk, rfl⟩
    | false =>
      rcases makeDirectory_of_clear hpieces hidle hstart hleads hclear with
        ⟨made, hmade⟩ | ⟨halready, hthere⟩ | ⟨hmissing, hnot⟩
      · rw [hmade]
        exact ⟨made, rfl⟩
      · rw [halready]
        simp only [alreadyThere, Fault.isNotFound, hthere]
        exact ⟨disk, rfl⟩
      · -- The directories above are made first; then nothing is missing any more.
        obtain ⟨parent, rest, hparent, htext, hrest, habove⟩ := Path.parent?_of_step hpieces hidle
        rcases habove with ⟨-, hnil⟩ | ⟨hparentNe, habs, htrimParent, hheads⟩
        · refine absurd ⟨first, ?_, (disk.directory_start hstart).1⟩ hnot
          rw [hnil]
          rfl
        have hshorter : parent.text.length < fuel := by
          have hlength : 0 < rest.length := by
            rw [Nat.pos_iff_ne_zero, ne_eq, String.length_eq_zero_iff]
            exact hrest
          rw [htext, String.length_append] at hfuel
          omega
        have hclearParent : ∀ location, parent.Visits location → ∀ content,
            disk.node? location ≠ some (.file content) := fun location hvisits =>
          hclear location (hheads.passes habs hpieces hvisits).visits
        obtain ⟨above, hrun⟩ := ih disk hshorter
          (fun _ => ⟨htrimParent, hleads.above hpieces htext hparentNe habs hheads⟩) hclearParent
        have hopens : above.Opens parent := opens_of_makeDirectoriesIn hrun hparentNe
        have hadds := addsDirectories_makeDirectoriesIn fuel disk fun _ => htrimParent
        rw [hrun] at hadds
        have hclearAbove : ∀ location, path.Visits location → ∀ content,
            above.node? location ≠ some (.file content) := by
          intro location hvisits content hfile
          exact hclear location hvisits content (hadds.file hfile)
        rw [hmissing, hparent]
        simp only [missing, Fault.isNotFound, decide_true, if_true, hrun]
        rcases makeDirectory_of_clear hpieces hidle hstart hleads hclearAbove with
          ⟨made, hmade⟩ | ⟨halready, hthere⟩ | ⟨-, hnot⟩
        · rw [hmade]
          exact ⟨made, rfl⟩
        · rw [halready]
          simp only [hthere, if_true]
          exact ⟨above, rfl⟩
        · exact absurd ⟨parent.place, hopens.follow_front hstart habs hheads, hopens.2⟩ hnot

/-- Directories can be made for every path that can be followed on some disk, if no file stands in
its way; then the path leads to a directory, and only directories on its way were added. -/
theorem makeDirectories_ok (htrim : path.IsTrim) (hne : path.text ≠ "") (hleads : whole.Leads path)
    (hclear : ∀ location, path.Visits location → ∀ content,
      disk.node? location ≠ some (.file content)) :
    ∃ made, disk.makeDirectories path = (.ok (), made) ∧ made.Opens path ∧
      disk.AddsDirectories made path.Visits := by
  obtain ⟨made, hmade⟩ := makeDirectoriesIn_ok (path.text.length + 1) disk (Nat.lt_succ_self _)
    (fun _ => ⟨htrim, hleads⟩) hclear
  have hadds := addsDirectories_makeDirectoriesIn (path.text.length + 1) disk fun _ => htrim
  rw [hmade] at hadds
  exact ⟨made, hmade, opens_of_makeDirectoriesIn hmade hne, hadds⟩

end Disk

end Recompile
