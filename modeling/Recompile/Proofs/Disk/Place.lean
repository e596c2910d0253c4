import Mathlib.Tactic.Common
import Recompile.Disk.Basic

/-!
# Where paths lead

A disk has no links, so where a path leads, if it leads anywhere, depends on its text alone: its
*place* (`Path.place`).  Following a path gives its place (`Disk.place_of_find`), and so do the
operations that put something on the disk.  Joining a name to a path adds that name to the place
(`Path.place_join`).

What a disk holds is seen through `Disk.content?`, the content of the file at a location.  Making
directories changes no content; writing a file changes the content at its place; removing a file or
a tree only takes contents away.
-/

namespace Recompile

/-! ### Places -/

namespace Path

/-- Where one piece leads from a location. -/
def follow (location : Location) (piece : String) : Location :=
  if isIdle piece then location
  else if piece = ".." then location.dropLast
  else location ++ [piece]

/-- Where a path leads, by its text alone. -/
def place (path : Path) : Location :=
  path.pieces.foldl follow (if path.isAbsolute then [] else Disk.current)

/-- A text that names an entry of a directory. -/
structure IsName (text : String) : Prop where
  /-- It is one piece. -/
  no_slash : '/' ∉ text.toList
  /-- It is a step. -/
  not_idle : isIdle text = false
  /-- It does not lead up. -/
  not_up : text ≠ ".."

/-- Where pieces between slashes lead from a location. -/
def walk (location : Location) (cs : List Char) : Location :=
  ((cs.splitOn '/').map String.ofList).foldl follow location

/-- Nothing leads nowhere else. -/
@[simp] lemma walk_nil (location : Location) : walk location [] = location := by
  rw [walk, List.splitOn_nil]
  rfl

/-- Pieces on both sides of a slash are followed one after the other. -/
lemma walk_append_slash (location : Location) (xs ys : List Char) :
    walk location (xs ++ '/' :: ys) = walk (walk location xs) ys := by
  unfold walk
  rw [List.splitOn_append_cons_self, List.map_append, List.foldl_append]

/-- A name leads to the entry of that name. -/
lemma walk_name (location : Location) {name : String} (h : IsName name) :
    walk location name.toList = location ++ [name] := by
  unfold walk
  rw [List.splitOn_eq_singleton h.no_slash]
  simp only [List.map_cons, List.map_nil, List.foldl_cons, List.foldl_nil, String.ofList_toList]
  rw [follow, h.not_idle, if_neg Bool.false_ne_true, if_neg h.not_up]

/-- The place of a path in terms of its characters. -/
lemma place_eq_walk (path : Path) :
    path.place = if path.isAbsolute then walk [] path.text.toList.tail
      else walk Disk.current path.text.toList := by
  unfold place pieces walk
  split_ifs <;> rfl

/-- A path that starts with a slash is absolute. -/
lemma isAbsolute_cons {path : Path} {cs : List Char} (h : path.text.toList = '/' :: cs) :
    path.isAbsolute = true := by
  simp [isAbsolute, h]

/-- A name is not an absolute path. -/
lemma IsName.not_isAbsolute {name : String} (h : IsName name) :
    (Path.mk name).isAbsolute = false := by
  unfold isAbsolute
  rw [decide_eq_false_iff_not]
  intro hhead
  exact h.no_slash (List.mem_of_mem_head? hhead)

/-- A name after a slash leads to the entry of that name. -/
lemma walk_append_name (location : Location) (cs : List Char) {name : String} (h : IsName name) :
    walk location (cs ++ '/' :: name.toList) = walk location cs ++ [name] := by
  rw [walk_append_slash, walk_name _ h]

/-- A slash at the end leads nowhere else. -/
lemma walk_slash_end (location : Location) (cs : List Char) :
    walk location (cs ++ ['/']) = walk location cs := by
  rw [walk_append_slash, walk_nil]

/-- Joining a relative path gives the text with that path after its last slash. -/
lemma toList_join_relative {base path : Path} (h : path.isAbsolute = false)
    (hne : base.text.toList ≠ []) :
    ∃ cs, (base.text.toList = cs ∨ base.text.toList = cs ++ ['/']) ∧
      (base.join path).text.toList = cs ++ '/' :: path.text.toList := by
  have hempty : base.text.isEmpty = false := by
    rw [Bool.eq_false_iff]
    intro hnil
    rw [String.isEmpty_iff] at hnil
    exact hne (by rw [hnil]; rfl)
  unfold join
  rw [h, hempty, Bool.or_false, if_neg Bool.false_ne_true]
  split_ifs with hlast
  · obtain ⟨cs, hcs⟩ := List.getLast?_eq_some_iff.mp hlast
    refine ⟨cs, .inr hcs, ?_⟩
    rw [String.toList_append, hcs, List.append_assoc]
    rfl
  · refine ⟨base.text.toList, .inl rfl, ?_⟩
    rw [String.toList_append, String.toList_append, List.append_assoc]
    rfl

/-- Joining a name to a path adds the name to its place. -/
theorem place_join (base : Path) {name : String} (h : IsName name) :
    (base.join ⟨name⟩).place = base.place ++ [name] := by
  by_cases hne : base.text.toList = []
  · have hbase : base = ⟨""⟩ := by
      cases base
      simpa using hne
    subst hbase
    have hjoin : (Path.mk "").join ⟨name⟩ = ⟨name⟩ := by simp [join]
    rw [hjoin, place_eq_walk, h.not_isAbsolute, if_neg Bool.false_ne_true]
    exact walk_name _ h
  · obtain ⟨cs, hbase, hjoin⟩ := toList_join_relative h.not_isAbsolute hne
    rw [place_eq_walk, place_eq_walk, hjoin]
    cases cs with
    | nil =>
      -- The base is the root.
      have hroot : base.text.toList = ['/'] := hbase.resolve_left hne
      rw [isAbsolute_cons hroot, isAbsolute_cons hjoin, if_pos rfl, if_pos rfl, hroot]
      simpa using walk_name [] h
    | cons c cs =>
      have hhead : base.text.toList.head? = some c := by rcases hbase with h | h <;> rw [h] <;> rfl
      have habs : (base.join ⟨name⟩).isAbsolute = base.isAbsolute := by
        simp [isAbsolute, hjoin, hhead]
      rw [habs]
      split_ifs
      · rw [List.cons_append, List.tail_cons, walk_append_name _ _ h]
        rcases hbase with hbase | hbase <;> rw [hbase]
        · rfl
        · rw [List.cons_append, List.tail_cons, walk_slash_end]
      · rw [walk_append_name _ _ h]
        rcases hbase with hbase | hbase <;> rw [hbase]
        rw [walk_slash_end]

/-- A text without slashes that does not only have dots is a name. -/
lemma isName_of_chars {text : String} (hchars : ∀ c ∈ text.toList, c ≠ '/')
    (hdot : ∃ c ∈ text.toList, c ≠ '.') : IsName text where
  no_slash hmem := hchars _ hmem rfl
  not_idle := by
    obtain ⟨c, hc, hcdot⟩ := hdot
    have hnil : text ≠ "" := by
      intro heq
      rw [heq] at hc
      exact List.not_mem_nil hc
    have hone : text ≠ "." := by
      intro heq
      rw [heq] at hc
      exact hcdot (List.mem_singleton.mp hc)
    simp [isIdle, hnil, hone]
  not_up heq := by
    obtain ⟨c, hc, hcdot⟩ := hdot
    rw [heq] at hc
    have hdots : c = '.' := by
      have : c ∈ ['.', '.'] := hc
      simpa using this
    exact hcdot hdots

end Path

/-! ### Following paths -/

namespace Disk

/-- Following pieces leads where the pieces say. -/
lemma eq_of_follow {disk : Disk} {location target : Location} {pieces : List String}
    (h : disk.follow location pieces = .ok target) :
    target = pieces.foldl Path.follow location := by
  induction pieces generalizing location with
  | nil => exact (Except.ok.inj h).symm
  | cons piece rest ih =>
    rw [follow] at h
    rw [List.foldl_cons, Path.follow]
    split at h
    · cases h
    · cases h
    · split_ifs at h ⊢
      · exact ih h
      · exact ih h
      · exact ih h

/-- A path starts where its text says. -/
lemma eq_of_start {path : Path} {location : Location} (h : start path = .ok location) :
    location = if path.isAbsolute then [] else current := by
  unfold start at h
  split_ifs at h with h₁ h₂ h₃ h₄
  · rw [if_pos h₄]
    exact (Except.ok.inj h).symm
  · rw [if_neg h₄]
    exact (Except.ok.inj h).symm

/-- A path that leads to something leads to its place. -/
theorem place_of_find {disk : Disk} {path : Path} {location : Location} {node : Node}
    (h : disk.find path = .ok (location, node)) :
    location = path.place ∧ disk.node? location = some node := by
  unfold find at h
  cases hstart : start path with
  | error fault => rw [hstart] at h; cases h
  | ok first =>
    simp only [hstart, bind, Except.bind] at h
    cases hfollow : disk.follow first path.pieces with
    | error fault => rw [hfollow] at h; cases h
    | ok target =>
      simp only [hfollow] at h
      cases hnode : disk.node? target with
      | none => rw [hnode] at h; cases h
      | some found =>
        rw [hnode] at h
        obtain ⟨rfl, rfl⟩ := Prod.mk.inj (Except.ok.inj h)
        refine ⟨?_, hnode⟩
        rw [eq_of_follow hfollow, eq_of_start hstart]
        rfl

/-- The location for an entry is that of its name in a directory. -/
lemma exists_of_entryAt {disk : Disk} {location target : Location} {pieces : List String}
    (h : disk.entryAt location pieces = .ok target) :
    ∃ front name parent, pieces = front ++ [name] ∧ disk.follow location front = .ok parent ∧
      disk.node? parent = some .directory ∧ ¬ Path.isIdle name ∧ name ≠ ".." ∧
      ¬ maxName < name.utf8ByteSize ∧ target = parent ++ [name] := by
  unfold entryAt at h
  cases hfollow : disk.follow location pieces.dropLast with
  | error fault => rw [hfollow] at h; cases h
  | ok parent =>
    simp only [hfollow, bind, Except.bind] at h
    split at h
    · cases h
    · cases h
    · rename_i name hnode hlast
      split_ifs at h with hstep hlong
      obtain ⟨hidle, hup⟩ := not_or.mp hstep
      obtain ⟨front, rfl⟩ := List.getLast?_eq_some_iff.mp hlast
      rw [List.dropLast_concat] at hfollow
      exact ⟨front, name, parent, rfl, hfollow, hnode, hidle, hup, hlong, (Except.ok.inj h).symm⟩
    · cases h

/-- The location for an entry is where its pieces lead, and has a name. -/
lemma eq_of_entryAt {disk : Disk} {location target : Location} {pieces : List String}
    (h : disk.entryAt location pieces = .ok target) :
    target = pieces.foldl Path.follow location ∧ target ≠ [] ∧ target ≠ current := by
  obtain ⟨front, name, parent, rfl, hfollow, -, hidle, hup, -, rfl⟩ := exists_of_entryAt h
  refine ⟨?_, by simp, ?_⟩
  · rw [List.foldl_append, ← eq_of_follow hfollow]
    simp only [List.foldl_cons, List.foldl_nil]
    rw [Path.follow, if_neg hidle, if_neg hup]
  · intro hcurrent
    have hname : name = "" := by
      cases parent with
      | nil => simpa [current] using hcurrent
      | cons first rest => simp [current] at hcurrent
    exact hidle (by rw [hname]; rfl)

/-! ### Putting something in a place -/

/-- A directory that is made is put in the place of an entry where nothing was. -/
lemma insert_of_makeDirectory {disk made : Disk} {path : Path}
    (h : disk.makeDirectory path = .ok made) :
    ∃ first target, start path = .ok first ∧
      disk.entryAt first (path.pieces.reverse.dropWhile (· = "")).reverse = .ok target ∧
      disk.node? target = none ∧ made = disk.insert target .directory := by
  unfold makeDirectory at h
  cases hstart : start path with
  | error fault => simp only [hstart, bind, Except.bind] at h; cases h
  | ok first =>
    simp only [hstart, bind, Except.bind] at h
    split at h
    · cases h
    · rename_i target htarget
      cases hnode : disk.node? target with
      | some node => rw [hnode] at h; cases h
      | none =>
        rw [hnode] at h
        exact ⟨first, target, rfl, htarget, hnode, (Except.ok.inj h).symm⟩

/-- A file that is written is put in the place of an entry where no directory was. -/
lemma insert_of_write {disk written : Disk} {path : Path} {content : Bytes}
    (h : disk.write path content = .ok written) :
    ∃ first target, start path = .ok first ∧ disk.entryAt first path.pieces = .ok target ∧
      disk.node? target ≠ some .directory ∧ written = disk.insert target (.file content) := by
  unfold write at h
  cases hstart : start path with
  | error fault => simp only [hstart, bind, Except.bind] at h; cases h
  | ok first =>
    simp only [hstart, bind, Except.bind] at h
    split at h
    · cases h
    · rename_i target htarget
      split_ifs at h with hoccupied
      exact ⟨first, target, rfl, htarget, fun hnode => hoccupied (decide_eq_true hnode),
        (Except.ok.inj h).symm⟩

/-- What every directory that is made preserves is preserved by making directories, however far
that goes. -/
theorem makeDirectories_induction {motive : Disk → Prop}
    (hmake : ∀ {disk made : Disk} {path : Path}, disk.makeDirectory path = .ok made →
      motive disk → motive made) {disk : Disk} (h : motive disk) (path : Path) :
    motive (disk.makeDirectories path).2 := by
  have hfuel : ∀ (fuel : Nat) (path : Path), motive (makeDirectoriesIn fuel disk path).2 := by
    intro fuel
    induction fuel with
    | zero => exact fun _ => h
    | succ fuel ih =>
      intro path
      rw [makeDirectoriesIn]
      split
      · exact h
      · split
        · rename_i made hmade
          exact hmake hmade h
        · split
          · split
            · exact h
            · rename_i parent _
              have hparent := ih parent
              split
              · rename_i above hrun
                rwa [hrun] at hparent
              · rename_i above hrun
                rw [hrun] at hparent
                split
                · rename_i made hmade
                  exact hmake hmade hparent
                · exact hparent
          · exact h
  exact hfuel _ path

/-! ### Contents -/

/-- The content of the file at a location. -/
def content? (disk : Disk) (location : Location) : Option Bytes :=
  match disk.node? location with
  | some (.file content) => some content
  | _ => none

/-- What a path is read as is the content at its place. -/
lemma content?_of_read {disk : Disk} {path : Path} {content : Bytes}
    (h : disk.read path = .ok content) : disk.content? path.place = some content := by
  unfold read at h
  cases hfind : disk.find path with
  | error fault => rw [hfind] at h; cases h
  | ok found =>
    obtain ⟨location, node⟩ := found
    obtain ⟨rfl, hnode⟩ := place_of_find hfind
    rw [hfind] at h
    cases node with
    | directory => cases h
    | file raw =>
      obtain rfl := Except.ok.inj h
      rw [content?, hnode]

/-- The text that a path is read as is encoded by the content at its place. -/
lemma content?_of_readText {disk : Disk} {path : Path} {text : String}
    (h : disk.readText path = .ok text) :
    ∃ content, disk.content? path.place = some content ∧ Bytes.text? content = some text := by
  unfold readText at h
  cases hread : disk.read path with
  | error fault => rw [hread] at h; cases h
  | ok content =>
    simp only [hread, bind, Except.bind] at h
    cases htext : Bytes.text? content with
    | none => rw [htext] at h; cases h
    | some found =>
      rw [htext] at h
      obtain rfl := Except.ok.inj h
      exact ⟨content, content?_of_read hread, htext⟩

/-- What is at a location with two names is what is listed there. -/
lemma node?_cons_cons (disk : Disk) (first second : String) (rest : Location) :
    disk.node? (first :: second :: rest) = disk.nodes[first :: second :: rest]? := by
  unfold node?
  rw [if_neg (by simp [current])]

/-- The content of a file. -/
lemma content?_of_node? {disk : Disk} {location : Location} {content : Bytes}
    (h : disk.node? location = some (.file content)) : disk.content? location = some content := by
  unfold content?
  rw [h]

/-- What is where after something was put at a location that has a name. -/
lemma node?_insert (disk : Disk) {location : Location} (node : Node) (hroot : location ≠ [])
    (hcurrent : location ≠ current) (other : Location) :
    (disk.insert location node).node? other =
      if other = location then some node else disk.node? other := by
  unfold node? insert
  by_cases hother : other = location
  · subst hother
    rw [if_neg (not_or.mpr ⟨hroot, hcurrent⟩), if_pos rfl, Std.ExtTreeMap.getElem?_insert_self]
  · rw [if_neg hother, Std.ExtTreeMap.getElem?_insert]
    have hne : compare location other ≠ .eq := fun heq =>
      hother (Std.LawfulEqOrd.eq_of_compare heq).symm
    rw [if_neg hne]

/-- Making a directory changes no content. -/
lemma content?_makeDirectory {disk made : Disk} {path : Path}
    (h : disk.makeDirectory path = .ok made) (location : Location) :
    made.content? location = disk.content? location := by
  obtain ⟨first, target, -, htarget, hnode, rfl⟩ := insert_of_makeDirectory h
  obtain ⟨-, hroot, hcurrent⟩ := eq_of_entryAt htarget
  unfold content?
  rw [node?_insert disk _ hroot hcurrent]
  split_ifs with heq
  · rw [heq, hnode]
  · rfl

/-- Making directories changes no content. -/
@[simp] lemma content?_makeDirectories (disk : Disk) (path : Path) (location : Location) :
    (disk.makeDirectories path).2.content? location = disk.content? location :=
  makeDirectories_induction
    (motive := fun left => left.content? location = disk.content? location)
    (fun hmade hsame => (content?_makeDirectory hmade location).trans hsame) rfl path

/-- Writing a file changes the content at its place. -/
lemma content?_write {disk written : Disk} {path : Path} {content : Bytes}
    (h : disk.write path content = .ok written) (location : Location) :
    written.content? location =
      if location = path.place then some content else disk.content? location := by
  obtain ⟨first, target, hstart, htarget, -, rfl⟩ := insert_of_write h
  obtain ⟨hplace, hroot, hcurrent⟩ := eq_of_entryAt htarget
  rw [eq_of_start hstart] at hplace
  unfold content?
  rw [node?_insert disk _ hroot hcurrent, hplace]
  by_cases heq : location = path.place
  · rw [if_pos heq, if_pos (by rw [heq]; rfl)]
  · rw [if_neg heq, if_neg (by exact heq)]

/-- Pieces that could be followed can still be followed after a file was put where no directory
was. -/
lemma follow_insert {disk : Disk} {target : Location} (content : Bytes) (hroot : target ≠ [])
    (hcurrent : target ≠ current) (hdirectory : disk.node? target ≠ some .directory)
    {location parent : Location} {pieces : List String}
    (h : disk.follow location pieces = .ok parent) :
    (disk.insert target (.file content)).follow location pieces = .ok parent := by
  induction pieces generalizing location with
  | nil => exact h
  | cons piece rest ih =>
    rw [follow] at h ⊢
    cases hnode : disk.node? location with
    | none => rw [hnode] at h; cases h
    | some node =>
      rw [hnode] at h
      cases node with
      | file raw => cases h
      | directory =>
        have hne : location ≠ target := by
          rintro rfl
          exact hdirectory hnode
        rw [node?_insert disk _ hroot hcurrent, if_neg hne, hnode]
        simp only at h ⊢
        split_ifs at h ⊢
        · exact ih h
        · exact ih h
        · exact ih h

/-- Pieces are followed one after the other. -/
lemma follow_concat {disk : Disk} {location parent : Location} {front : List String} {name : String}
    (h : disk.follow location front = .ok parent) :
    disk.follow location (front ++ [name]) = disk.follow parent [name] := by
  induction front generalizing location with
  | nil =>
    obtain rfl := Except.ok.inj h
    rfl
  | cons piece rest ih =>
    rw [List.cons_append, follow]
    rw [follow] at h
    cases hnode : disk.node? location with
    | none => rw [hnode] at h; cases h
    | some node =>
      rw [hnode] at h
      cases node with
      | file raw => cases h
      | directory =>
        simp only at h ⊢
        split_ifs at h ⊢
        · exact ih h
        · exact ih h
        · exact ih h

/-- What is written to a path can be read from it. -/
theorem read_of_write {disk written : Disk} {path : Path} {content : Bytes}
    (h : disk.write path content = .ok written) : written.read path = .ok content := by
  obtain ⟨first, target, hstart, htarget, hdirectory, rfl⟩ := insert_of_write h
  obtain ⟨-, hroot, hcurrent⟩ := eq_of_entryAt htarget
  obtain ⟨front, name, parent, hpieces, hfollow, hnode, hidle, hup, hlong, htarget⟩ :=
    exists_of_entryAt htarget
  have hne : parent ≠ target := by
    rintro rfl
    exact hdirectory hnode
  have hlast : (disk.insert target (.file content)).follow parent [name] = .ok target := by
    rw [follow, node?_insert disk _ hroot hcurrent, if_neg hne, hnode]
    simp only
    rw [if_neg hidle, if_neg hup, if_neg hlong, follow, htarget]
  have hreach : (disk.insert target (.file content)).follow first path.pieces = .ok target := by
    rw [hpieces, follow_concat (follow_insert content hroot hcurrent hdirectory hfollow), hlast]
  unfold read find
  simp only [hstart, hreach, bind, Except.bind]
  rw [node?_insert disk _ hroot hcurrent, if_pos rfl]
  rfl

/-- Whether a file can be written does not depend on its content. -/
lemma write_isOk {disk : Disk} {path : Path} {content : Bytes}
    (h : (disk.write path content).isOk) (other : Bytes) : (disk.write path other).isOk := by
  unfold write at h ⊢
  cases hstart : start path with
  | error fault => simp only [hstart, bind, Except.bind] at h; cases h
  | ok first =>
    simp only [hstart, bind, Except.bind] at h ⊢
    split at h
    · cases h
    · split_ifs at h ⊢
      · cases h
      · rfl

/-! ### Taking away -/

/-- Every content of the first disk is on the second one, at the same location. -/
def Within (disk other : Disk) : Prop :=
  ∀ location content, disk.content? location = some content → other.content? location = some content

/-- A disk is within itself. -/
lemma Within.refl (disk : Disk) : disk.Within disk :=
  fun _ _ h => h

/-- Being within another disk is transitive. -/
lemma Within.trans {first second third : Disk} (h : first.Within second)
    (h' : second.Within third) : first.Within third :=
  fun location content hcontent => h' location content (h location content hcontent)

/-- A disk that keeps some of the nodes is within the disk. -/
lemma within_of_nodes {disk other : Disk}
    (h : ∀ (location : Location) (node : Node), disk.nodes[location]? = some node →
      other.nodes[location]? = some node) : disk.Within other := by
  intro location content hcontent
  unfold content? node? at hcontent ⊢
  by_cases hroot : location = [] ∨ location = current
  · rw [if_pos hroot] at hcontent ⊢
    exact hcontent
  · rw [if_neg hroot] at hcontent ⊢
    cases hnode : disk.nodes[location]? with
    | none => rw [hnode] at hcontent; cases hcontent
    | some node =>
      rw [h location node hnode]
      rw [hnode] at hcontent
      exact hcontent

/-- Removing a file adds no content. -/
lemma removeFile_within {disk removed : Disk} {path : Path}
    (h : disk.removeFile path = .ok removed) : removed.Within disk := by
  unfold removeFile at h
  cases hfind : disk.find path with
  | error fault => rw [hfind] at h; cases h
  | ok found =>
    obtain ⟨location, node⟩ := found
    rw [hfind] at h
    cases node with
    | directory => cases h
    | file content =>
      obtain rfl := Except.ok.inj h
      refine within_of_nodes fun place node hnode => ?_
      rw [Std.ExtTreeMap.getElem?_erase] at hnode
      split_ifs at hnode
      exact hnode

/-- Removing a tree adds no content. -/
lemma prune_within (disk : Disk) (location : Location) : (disk.prune location).Within disk := by
  refine within_of_nodes fun place node hnode => ?_
  unfold prune at hnode
  rw [Std.ExtTreeMap.getElem?_filter'] at hnode
  exact (Option.filter_eq_some_iff.mp hnode).1

/-- Removing a tree adds no content. -/
lemma removeTree_within {disk removed : Disk} {path : Path}
    (h : disk.removeTree path = .ok removed) : removed.Within disk := by
  unfold removeTree at h
  cases hfind : disk.find path with
  | error fault => rw [hfind] at h; cases h
  | ok found =>
    obtain ⟨location, node⟩ := found
    rw [hfind] at h
    cases node with
    | file content => cases h
    | directory =>
      obtain rfl := Except.ok.inj h
      exact prune_within disk location

end Disk

end Recompile
