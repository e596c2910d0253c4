import Recompile.Proofs.Disk.Place

/-!
# What can be read through a path

A file is read through a path if the path can be followed and there is a file at its place
(`Disk.read_eq_ok`).  Following a path asks for directories on the way and for nothing else, so it
still works after directories were made and files were written or removed (`Disk.KeepsDirectories`);
only removing a tree takes directories away.

A path that ends with a name can be followed if what stands before the name leads to a directory
(`Disk.leads_join`).  So nothing is read in a directory that is not there, and a file that is read
can be replaced (`Disk.makeDirectories_of_opens`, `Disk.write_of_read`).
-/

namespace Recompile

/-! ### Pieces -/

namespace Path

/-- The pieces of characters between slashes. -/
def split (cs : List Char) : List String :=
  (cs.splitOn '/').map String.ofList

/-- Pieces on both sides of a slash. -/
lemma split_append_slash (xs ys : List Char) : split (xs ++ '/' :: ys) = split xs ++ split ys := by
  unfold split
  rw [List.splitOn_append_cons_self, List.map_append]

/-- A name is one piece. -/
lemma split_name {name : String} (h : IsName name) : split name.toList = [name] := by
  unfold split
  rw [List.splitOn_eq_singleton h.no_slash, List.map_cons, List.map_nil, String.ofList_toList]

/-- Nothing is one empty piece. -/
lemma split_nil : split [] = [""] := by
  unfold split
  rw [List.splitOn_nil]
  rfl

/-- There is a piece. -/
lemma split_ne_nil (cs : List Char) : split cs ≠ [] := by
  unfold split
  rw [ne_eq, List.map_eq_nil_iff]
  exact List.splitOn_ne_nil _ _

/-- The pieces of a path. -/
lemma pieces_eq_split (path : Path) :
    path.pieces = split (if path.isAbsolute then path.text.toList.tail else path.text.toList) := rfl

/-- The text of an absolute path starts with a slash. -/
lemma toList_of_isAbsolute {path : Path} (h : path.isAbsolute = true) :
    path.text.toList = '/' :: path.text.toList.tail := by
  unfold isAbsolute at h
  rw [decide_eq_true_iff] at h
  obtain ⟨rest, hrest⟩ := List.head?_eq_some_iff.mp h
  rw [hrest, List.tail_cons]

/-- A path has pieces. -/
lemma pieces_ne_nil (path : Path) : path.pieces ≠ [] := by
  rw [pieces_eq_split]
  exact split_ne_nil _

/-- Nothing between two slashes has a slash. -/
lemma no_slash_of_mem_splitOn {cs xs : List Char} (h : xs ∈ cs.splitOn '/') : '/' ∉ xs := by
  induction cs generalizing xs with
  | nil =>
    rw [List.splitOn_nil, List.mem_singleton] at h
    rw [h]
    exact List.not_mem_nil
  | cons c cs ih =>
    rw [List.splitOn_cons_eq_if_modifyHead] at h
    split_ifs at h with hc
    · rcases List.mem_cons.mp h with rfl | h
      · exact List.not_mem_nil
      · exact ih h
    · cases hsplit : cs.splitOn '/' with
      | nil => exact absurd hsplit (List.splitOn_ne_nil _ _)
      | cons first rest =>
        rw [hsplit] at h ih
        rcases List.mem_cons.mp h with rfl | h
        · rw [List.mem_cons, not_or]
          exact ⟨fun heq => hc (beq_iff_eq.mpr heq.symm), ih List.mem_cons_self⟩
        · exact ih (List.mem_cons_of_mem _ h)

/-- The pieces of a path have no slashes. -/
lemma no_slash_of_mem_pieces {path : Path} {piece : String} (h : piece ∈ path.pieces) :
    '/' ∉ piece.toList := by
  rw [pieces_eq_split] at h
  obtain ⟨xs, hxs, rfl⟩ := List.mem_map.mp h
  rw [String.toList_ofList]
  exact no_slash_of_mem_splitOn hxs

variable {base : Path} {name dir : String}

/-- A relative path joined to a path adds its pieces; the pieces before them are those of the path,
without an empty one at the end. -/
lemma pieces_join_relative {path : Path} (h : path.isAbsolute = false) (hne : base.text ≠ "") :
    ∃ front, (base.join path).pieces = front ++ path.pieces ∧
      (base.pieces = front ∨ base.pieces = front ++ [""]) ∧
      (base.join path).isAbsolute = base.isAbsolute ∧ (base.isAbsolute = false → front ≠ []) := by
  have hchars : base.text.toList ≠ [] := fun heq => hne (String.toList_eq_nil_iff.mp heq)
  have hpath : path.pieces = split path.text.toList := by
    rw [pieces_eq_split, h, if_neg Bool.false_ne_true]
  obtain ⟨cs, hbase, hjoin⟩ := toList_join_relative h hchars
  rw [pieces_eq_split, pieces_eq_split base, hpath]
  cases cs with
  | nil =>
    -- The base is the root.
    have hroot : base.text.toList = ['/'] := hbase.resolve_left hchars
    rw [isAbsolute_cons hroot, isAbsolute_cons hjoin, hjoin, hroot]
    exact ⟨[], rfl, .inr split_nil, rfl, fun habs => absurd habs (by decide)⟩
  | cons c cs =>
    have hhead : base.text.toList.head? = some c := by rcases hbase with h | h <;> rw [h] <;> rfl
    have habs : (base.join path).isAbsolute = base.isAbsolute := by
      simp [isAbsolute, hjoin, hhead]
    rw [habs, hjoin]
    cases base.isAbsolute with
    | true =>
      refine ⟨split cs, ?_, ?_, rfl, fun habs => absurd habs (by decide)⟩
      · rw [if_pos rfl, List.cons_append, List.tail_cons, split_append_slash]
      · rcases hbase with hbase | hbase
        · exact .inl (by rw [hbase, if_pos rfl, List.tail_cons])
        · refine .inr ?_
          rw [hbase, if_pos rfl, List.cons_append, List.tail_cons, split_append_slash, split_nil]
    | false =>
      refine ⟨split (c :: cs), ?_, ?_, rfl, fun _ => split_ne_nil _⟩
      · rw [if_neg Bool.false_ne_true, split_append_slash]
      · rcases hbase with hbase | hbase
        · exact .inl (by rw [hbase, if_neg Bool.false_ne_true])
        · exact .inr (by rw [hbase, if_neg Bool.false_ne_true, split_append_slash, split_nil])

/-- A name is a path of one piece. -/
lemma pieces_name (h : IsName name) : (Path.mk name).pieces = [name] := by
  rw [pieces_eq_split, h.not_isAbsolute, if_neg Bool.false_ne_true]
  exact split_name h

/-- A name joined to a path is its last piece; the pieces before it are those of the path, without
an empty one at the end. -/
lemma pieces_join (h : IsName name) (hne : base.text ≠ "") :
    ∃ front, (base.join ⟨name⟩).pieces = front ++ [name] ∧
      (base.pieces = front ∨ base.pieces = front ++ [""]) ∧
      (base.join ⟨name⟩).isAbsolute = base.isAbsolute := by
  obtain ⟨front, hjoin, hbase, habs, -⟩ := pieces_join_relative h.not_isAbsolute hne
  rw [pieces_name h] at hjoin
  exact ⟨front, hjoin, hbase, habs⟩

/-- Joining a name to a path appends to its text. -/
lemma text_join (base : Path) (h : IsName name) :
    ∃ rest, (base.join ⟨name⟩).text = base.text ++ rest ∧ rest ≠ "" := by
  have hname : name ≠ "" := by
    rintro rfl
    exact absurd h.not_idle (by decide)
  unfold join
  rw [h.not_isAbsolute, Bool.false_or]
  split_ifs with hempty
  · rw [String.isEmpty_iff.mp hempty]
    exact ⟨name, (String.empty_append).symm, hname⟩
  · exact ⟨name, rfl, hname⟩
  · refine ⟨"/" ++ name, by rw [String.append_assoc], fun heq => ?_⟩
    exact hname (String.append_eq_empty_iff.mp heq).2

/-- A path with a name joined to it is not empty. -/
lemma join_ne_empty (base : Path) (h : IsName name) : (base.join ⟨name⟩).text ≠ "" := by
  obtain ⟨rest, htext, hrest⟩ := base.text_join h
  rw [htext]
  exact fun heq => hrest (String.append_eq_empty_iff.mp heq).2

/-- The last piece of a path with a name joined to it is the name. -/
lemma exists_pieces_join (base : Path) (h : IsName name) :
    ∃ front, (base.join ⟨name⟩).pieces = front ++ [name] := by
  by_cases hne : base.text = ""
  · have hjoin : base.join ⟨name⟩ = ⟨name⟩ := by simp [join, hne]
    rw [hjoin]
    exact ⟨[], pieces_name h⟩
  · obtain ⟨front, hfront, -⟩ := pieces_join h hne
    exact ⟨front, hfront⟩

/-- A second name joined to a path is one more piece. -/
lemma pieces_join_join (base : Path) (hdir : IsName dir) (hname : IsName name) :
    ((base.join ⟨dir⟩).join ⟨name⟩).pieces = (base.join ⟨dir⟩).pieces ++ [name] ∧
      ((base.join ⟨dir⟩).join ⟨name⟩).isAbsolute = (base.join ⟨dir⟩).isAbsolute := by
  obtain ⟨front, hfront⟩ := base.exists_pieces_join hdir
  obtain ⟨front', hfront', hpieces, habs⟩ := pieces_join hname (base.join_ne_empty hdir)
  refine ⟨?_, habs⟩
  rcases hpieces with hpieces | hpieces
  · rw [hfront', hpieces]
  · rw [hfront] at hpieces
    obtain rfl := List.singleton_inj.mp (List.append_inj' hpieces rfl).2
    exact absurd hdir.not_idle (by decide)

/-- Pieces that end with a step are not trimmed. -/
lemma trimEnd_of_step (front : List String) {last : String} (hlast : isIdle last = false) :
    trimEnd (front ++ [last]) = front ++ [last] := by
  unfold trimEnd
  rw [List.reverse_append, List.reverse_singleton, List.singleton_append,
    List.dropWhile_cons_of_neg (by rw [hlast]; exact Bool.false_ne_true), List.reverse_cons,
    List.reverse_reverse]

/-- A path is glued together from its pieces. -/
lemma glue_pieces (path : Path) :
    glue path.pieces =
      String.ofList (if path.isAbsolute then path.text.toList.tail else path.text.toList) := by
  have hlist : (String.toList ∘ String.ofList) = id := funext fun _ => String.toList_ofList
  unfold glue pieces
  simp only
  rw [List.map_map, hlist, List.map_id, List.intercalate_splitOn]

/-- The parent of a path to which two names were joined is the path with the first name. -/
theorem parent?_join_join (base : Path) (hdir : IsName dir) (hname : IsName name) :
    ((base.join ⟨dir⟩).join ⟨name⟩).parent? = some (base.join ⟨dir⟩) := by
  obtain ⟨hpieces, habs⟩ := base.pieces_join_join hdir hname
  obtain ⟨front, hfront⟩ := base.exists_pieces_join hdir
  have hglue := (base.join ⟨dir⟩).glue_pieces
  generalize (base.join ⟨dir⟩).join ⟨name⟩ = child at hpieces habs
  generalize base.join ⟨dir⟩ = path at hpieces habs hfront hglue ⊢
  unfold parent?
  rw [habs]
  cases hpath : path.isAbsolute with
  | true =>
    rw [hpath, if_pos rfl] at hglue
    have htext : "/" ++ String.ofList path.text.toList.tail = path.text := by
      rw [← String.toList_inj, String.toList_append, String.toList_ofList, String.toList_ofList]
      exact (toList_of_isAbsolute hpath).symm
    rw [if_pos rfl, hpieces, trimEnd_of_step _ hname.not_idle]
    split
    · rename_i hnil
      exact absurd hnil (List.append_ne_nil_of_right_ne_nil _ (List.cons_ne_nil _ _))
    · rw [List.dropLast_concat, hfront, trimEnd_of_step _ hdir.not_idle, ← hfront, hglue, htext]
  | false =>
    rw [hpath, if_neg Bool.false_ne_true, String.ofList_toList] at hglue
    rw [if_neg Bool.false_ne_true, hpieces]
    cases hall : path.pieces with
    | nil =>
      rw [hfront] at hall
      exact absurd hall (List.append_ne_nil_of_right_ne_nil _ (List.cons_ne_nil _ _))
    | cons first rest =>
      have htrim : trimEnd rest = rest := by
        rcases List.eq_nil_or_concat rest with rfl | ⟨middle, last, rfl⟩
        · rfl
        · rw [List.concat_eq_append] at hall ⊢
          have hlast : last = dir := by
            rw [hfront, ← List.cons_append] at hall
            exact (List.singleton_inj.mp (List.append_inj' hall rfl).2).symm
          rw [hlast]
          exact trimEnd_of_step _ hdir.not_idle
      rw [hall] at hglue
      simp only [List.cons_append, trimEnd_of_step _ hname.not_idle]
      split
      · rename_i hnil
        exact absurd hnil (List.append_ne_nil_of_right_ne_nil _ (List.cons_ne_nil _ _))
      · rw [List.dropLast_concat, htrim, hglue]

end Path

namespace Disk

variable {disk after : Disk} {path : Path}

/-! ### Following paths -/

/-- Pieces are followed one after the other. -/
lemma follow_append (disk : Disk) (location : Location) (front rest : List String) :
    disk.follow location (front ++ rest) =
      (disk.follow location front).bind fun parent => disk.follow parent rest := by
  induction front generalizing location with
  | nil => rfl
  | cons piece front ih =>
    rw [List.cons_append, follow, follow]
    split
    · rfl
    · rfl
    · split_ifs
      · exact ih location
      · exact ih location.dropLast
      · rfl
      · exact ih (location ++ [piece])

/-- One idle piece is followed in a directory and leads nowhere else. -/
lemma follow_empty {location : Location} (h : disk.node? location = some .directory) :
    disk.follow location [""] = .ok location := by
  rw [follow, h]
  rfl

/-- A name is followed in a directory, if it is not too long. -/
lemma follow_name {location target : Location} {name : String} (hname : Path.IsName name) :
    disk.follow location [name] = .ok target ↔
      disk.node? location = some .directory ∧ ¬ maxName < name.utf8ByteSize ∧
        target = location ++ [name] := by
  rw [follow]
  constructor
  · intro h
    split at h
    · cases h
    · cases h
    · rename_i hnode
      rw [hname.not_idle, if_neg Bool.false_ne_true, if_neg hname.not_up] at h
      split_ifs at h with hlong
      exact ⟨hnode, hlong, (Except.ok.inj h).symm⟩
  · rintro ⟨hnode, hlong, rfl⟩
    rw [hnode]
    simp only
    rw [hname.not_idle, if_neg Bool.false_ne_true, if_neg hname.not_up, if_neg hlong]
    rfl

/-- A path can be followed to its place. -/
def Leads (disk : Disk) (path : Path) : Prop :=
  ∃ first, start path = .ok first ∧ disk.follow first path.pieces = .ok path.place

/-- A path leads to a directory. -/
def Opens (disk : Disk) (path : Path) : Prop :=
  disk.Leads path ∧ disk.node? path.place = some .directory

/-- What a path leads to is what is at its place, if it can be followed there. -/
lemma find_eq_ok {location : Location} {node : Node} :
    disk.find path = .ok (location, node) ↔
      disk.Leads path ∧ location = path.place ∧ disk.node? path.place = some node := by
  constructor
  · intro h
    obtain ⟨rfl, hnode⟩ := place_of_find h
    unfold find at h
    cases hstart : start path with
    | error fault => rw [hstart] at h; cases h
    | ok first =>
      simp only [hstart, bind, Except.bind] at h
      cases hfollow : disk.follow first path.pieces with
      | error fault => rw [hfollow] at h; cases h
      | ok target =>
        have htarget : target = path.place := by
          rw [eq_of_follow hfollow, eq_of_start hstart]
          rfl
        rw [htarget] at hfollow
        exact ⟨⟨first, hstart, hfollow⟩, rfl, hnode⟩
  · rintro ⟨⟨first, hstart, hfollow⟩, rfl, hnode⟩
    unfold find
    simp only [hstart, hfollow, hnode, bind, Except.bind, pure, Except.pure]

/-- What a path is read as is the content at its place, if the path can be followed. -/
theorem read_eq_ok {content : Bytes} :
    disk.read path = .ok content ↔ disk.Leads path ∧ disk.content? path.place = some content := by
  constructor
  · intro h
    refine ⟨?_, content?_of_read h⟩
    unfold read at h
    cases hfind : disk.find path with
    | error fault => rw [hfind] at h; cases h
    | ok found => exact (find_eq_ok.mp hfind).1
  · rintro ⟨hleads, hcontent⟩
    unfold content? at hcontent
    split at hcontent
    · rename_i raw hnode
      obtain rfl := Option.some.inj hcontent
      unfold read
      rw [find_eq_ok.mpr ⟨hleads, rfl, hnode⟩]
      rfl
    · cases hcontent

/-! ### Directories that stay -/

/-- Every directory of the first disk is on the second one. -/
def KeepsDirectories (before after : Disk) : Prop :=
  ∀ location, before.node? location = some .directory → after.node? location = some .directory

/-- A disk keeps its own directories. -/
lemma KeepsDirectories.refl (disk : Disk) : disk.KeepsDirectories disk :=
  fun _ h => h

/-- Keeping directories is transitive. -/
lemma KeepsDirectories.trans {first second third : Disk} (h : first.KeepsDirectories second)
    (h' : second.KeepsDirectories third) : first.KeepsDirectories third :=
  fun location hnode => h' location (h location hnode)

/-- Pieces can still be followed as long as the directories on the way stay. -/
lemma follow_mono {location target : Location} {pieces : List String}
    (h : disk.follow location pieces = .ok target)
    (hkeeps : ∀ front rest, pieces = front ++ rest → rest ≠ [] →
      disk.node? (front.foldl Path.follow location) = some .directory →
      after.node? (front.foldl Path.follow location) = some .directory) :
    after.follow location pieces = .ok target := by
  induction pieces generalizing location with
  | nil => exact h
  | cons piece rest ih =>
    rw [follow] at h
    cases hnode : disk.node? location with
    | none => rw [hnode] at h; cases h
    | some node =>
      rw [hnode] at h
      cases node with
      | file content => cases h
      | directory =>
        have hhere : after.node? location = some .directory :=
          hkeeps [] (piece :: rest) rfl (List.cons_ne_nil _ _) hnode
        -- What is passed after this piece is passed on the whole way.
        have hrest : ∀ front tail, rest = front ++ tail → tail ≠ [] →
            disk.node? (front.foldl Path.follow (Path.follow location piece)) =
              some .directory →
            after.node? (front.foldl Path.follow (Path.follow location piece)) =
              some .directory :=
          fun front tail heq => hkeeps (piece :: front) tail (by rw [heq]; rfl)
        unfold Path.follow at hrest
        rw [follow, hhere]
        simp only at h ⊢
        split_ifs at h hrest ⊢
        · exact ih h hrest
        · exact ih h hrest
        · exact ih h hrest

/-- A path can still be followed if all directories stay. -/
lemma Leads.mono (h : disk.Leads path) (hkeeps : disk.KeepsDirectories after) :
    after.Leads path := by
  obtain ⟨first, hstart, hfollow⟩ := h
  exact ⟨first, hstart, follow_mono hfollow fun _ _ _ _ => hkeeps _⟩

/-- A path still leads to a directory if all directories stay. -/
lemma Opens.mono (h : disk.Opens path) (hkeeps : disk.KeepsDirectories after) : after.Opens path :=
  ⟨h.1.mono hkeeps, hkeeps _ h.2⟩

/-- A file is still read if all directories and its content stay. -/
lemma read_mono {content : Bytes} (h : disk.read path = .ok content)
    (hkeeps : disk.KeepsDirectories after)
    (hcontent : after.content? path.place = disk.content? path.place) :
    after.read path = .ok content := by
  obtain ⟨hleads, hread⟩ := read_eq_ok.mp h
  exact read_eq_ok.mpr ⟨hleads.mono hkeeps, hcontent.trans hread⟩

/-! ### Names in directories -/

variable {base : Path} {name dir : String}

/-- A path from which one can start at all. -/
lemma start_eq {first : Location} (h : start path = .ok first) :
    path.text.isEmpty = false ∧ path.text.toList.contains '\x00' = false ∧
      path.text.utf8ByteSize < maxPath := by
  unfold start at h
  split_ifs at h with hempty hnull hlong <;>
    exact ⟨by simpa using hempty, by simpa using hnull, by omega⟩

/-- One can start from every text that is not empty and that the text of a path starts with. -/
lemma start_of_append {rest : String} {first : Location} (htext : path.text = base.text ++ rest)
    (hne : base.text ≠ "") (habs : base.isAbsolute = path.isAbsolute)
    (h : start path = .ok first) : start base = .ok first := by
  obtain ⟨-, hnull, hshort⟩ := start_eq h
  rw [htext] at hnull hshort
  have hempty : base.text.isEmpty = false := by
    rw [Bool.eq_false_iff, ne_eq, String.isEmpty_iff]
    exact hne
  rw [eq_of_start h, ← habs]
  unfold start
  rw [hempty, if_neg Bool.false_ne_true]
  rw [String.utf8ByteSize_append] at hshort
  rw [String.toList_append, List.contains_append, Bool.or_eq_false_iff] at hnull
  rw [hnull.1, if_neg Bool.false_ne_true, if_neg (by omega)]

/-- One can start from every path that a name can be joined to. -/
lemma start_of_join (hname : Path.IsName name) (hne : base.text ≠ "") {first : Location}
    (h : start (base.join ⟨name⟩) = .ok first) : start base = .ok first := by
  obtain ⟨rest, htext, -⟩ := base.text_join hname
  obtain ⟨-, -, -, habs⟩ := Path.pieces_join hname hne
  exact start_of_append htext hne habs.symm h

/-- A path that ends with a name can be followed if one can start from it, the name is not too long,
and what stands before it leads to a directory. -/
theorem leads_join (hname : Path.IsName name) (hne : base.text ≠ "") :
    disk.Leads (base.join ⟨name⟩) ↔
      (∃ first, start (base.join ⟨name⟩) = .ok first) ∧ ¬ maxName < name.utf8ByteSize ∧
        disk.Opens base := by
  obtain ⟨front, hjoin, hbase, -⟩ := Path.pieces_join hname hne
  constructor
  · rintro ⟨first, hstart, hfollow⟩
    rw [hjoin, follow_append] at hfollow
    cases hfront : disk.follow first front with
    | error fault => rw [hfront] at hfollow; cases hfollow
    | ok parent =>
      rw [hfront] at hfollow
      obtain ⟨hnode, hlong, -⟩ := (follow_name hname).mp hfollow
      have hfirst := start_of_join hname hne hstart
      have hpieces : disk.follow first base.pieces = .ok parent := by
        rcases hbase with hbase | hbase
        · rw [hbase]
          exact hfront
        · rw [hbase, follow_append, hfront]
          exact follow_empty hnode
      have hparent : parent = base.place := by
        rw [eq_of_follow hpieces, eq_of_start hfirst]
        rfl
      rw [hparent] at hpieces hnode
      exact ⟨⟨first, hstart⟩, hlong, ⟨first, hfirst, hpieces⟩, hnode⟩
  · rintro ⟨⟨first, hstart⟩, hlong, ⟨first', hfirst, hpieces⟩, hnode⟩
    obtain rfl := Except.ok.inj ((start_of_join hname hne hstart).symm.trans hfirst)
    have hfront : disk.follow first front = .ok base.place := by
      rcases hbase with hbase | hbase
      · rw [← hbase]
        exact hpieces
      · rw [hbase, follow_append] at hpieces
        cases hfront : disk.follow first front with
        | error fault => rw [hfront] at hpieces; cases hpieces
        | ok parent =>
          have hparent : parent = base.place := by
            have hplace : base.place = (front ++ [""]).foldl Path.follow first := by
              rw [← hbase, eq_of_start hfirst]
              rfl
            rw [hplace, List.foldl_append, ← eq_of_follow hfront]
            rfl
          rw [hparent]
    refine ⟨first, hstart, ?_⟩
    rw [hjoin, follow_append, hfront, base.place_join hname]
    exact (follow_name hname).mpr ⟨hnode, hlong, rfl⟩

/-! ### Writing -/

/-- Making a directory keeps all directories. -/
lemma keeps_makeDirectory {made : Disk} (h : disk.makeDirectory path = .ok made) :
    disk.KeepsDirectories made := by
  obtain ⟨first, target, -, htarget, -, rfl⟩ := insert_of_makeDirectory h
  obtain ⟨-, hroot, hcurrent⟩ := eq_of_entryAt htarget
  intro location hdirectory
  rw [node?_insert disk _ hroot hcurrent]
  split_ifs
  · rfl
  · exact hdirectory

/-- Making directories keeps all directories. -/
lemma keeps_makeDirectories (disk : Disk) (path : Path) :
    disk.KeepsDirectories (disk.makeDirectories path).2 :=
  makeDirectories_induction (fun hmade hkeeps => hkeeps.trans (keeps_makeDirectory hmade))
    (.refl disk) path

/-- Writing a file keeps all directories. -/
lemma keeps_write {written : Disk} {content : Bytes} (h : disk.write path content = .ok written) :
    disk.KeepsDirectories written := by
  obtain ⟨first, target, -, htarget, hnode, rfl⟩ := insert_of_write h
  obtain ⟨-, hroot, hcurrent⟩ := eq_of_entryAt htarget
  intro location hdirectory
  have hne : location ≠ target := by
    rintro rfl
    exact hnode hdirectory
  rw [node?_insert disk _ hroot hcurrent, if_neg hne]
  exact hdirectory

/-- The location for an entry is the place of its path, if the path can be followed and ends with a
name. -/
lemma entryAt_of_leads {front : List String} {first : Location} (hname : Path.IsName name)
    (hpieces : path.pieces = front ++ [name]) (hstart : start path = .ok first)
    (h : disk.Leads path) : disk.entryAt first path.pieces = .ok path.place := by
  obtain ⟨first', hstart', hfollow⟩ := h
  obtain rfl := Except.ok.inj (hstart.symm.trans hstart')
  rw [hpieces, follow_append] at hfollow
  cases hfront : disk.follow first front with
  | error fault => rw [hfront] at hfollow; cases hfollow
  | ok parent =>
    rw [hfront] at hfollow
    obtain ⟨hnode, hlong, hplace⟩ := (follow_name hname).mp hfollow
    have hstep : ¬ (Path.isIdle name = true ∨ name = "..") := by
      rw [hname.not_idle, not_or]
      exact ⟨Bool.false_ne_true, hname.not_up⟩
    unfold entryAt
    rw [hpieces, List.dropLast_concat, hfront, List.getLast?_concat]
    simp only [hnode, bind, Except.bind]
    rw [if_neg hstep, if_neg hlong, hplace]
    rfl

/-- Nothing has to be made where a path leads to a directory. -/
theorem makeDirectories_of_opens (hdir : Path.IsName dir) (h : disk.Opens (base.join ⟨dir⟩)) :
    disk.makeDirectories (base.join ⟨dir⟩) = (.ok (), disk) := by
  obtain ⟨front, hpieces⟩ := base.exists_pieces_join hdir
  have hempty : (base.join ⟨dir⟩).text.isEmpty = false := by
    rw [Bool.eq_false_iff, ne_eq, String.isEmpty_iff]
    exact base.join_ne_empty hdir
  have hisDirectory : disk.isDirectory (base.join ⟨dir⟩) = true := by
    unfold isDirectory
    rw [find_eq_ok.mpr ⟨h.1, rfl, h.2⟩]
  have htrim : ((base.join ⟨dir⟩).pieces.reverse.dropWhile (· = "")).reverse =
      (base.join ⟨dir⟩).pieces := by
    have hne : decide (dir = "") = false := by
      rw [decide_eq_false_iff_not]
      rintro rfl
      exact absurd hdir.not_idle (by decide)
    rw [hpieces, List.reverse_append, List.reverse_singleton, List.singleton_append,
      List.dropWhile_cons]
    simp only [hne, Bool.false_eq_true, if_false, List.reverse_cons, List.reverse_reverse]
  have hmake : disk.makeDirectory (base.join ⟨dir⟩) = .error alreadyThere := by
    obtain ⟨first, hstart, hfollow⟩ := h.1
    unfold makeDirectory
    simp only [hstart, htrim, bind, Except.bind]
    rw [entryAt_of_leads hdir hpieces hstart h.1]
    simp only [h.2]
    rfl
  unfold makeDirectories
  rw [makeDirectoriesIn, hempty, if_neg Bool.false_ne_true, hmake]
  simp only [hisDirectory]
  rfl

/-- A file can be written where a path leads that ends with a name, unless there is a directory. -/
lemma write_of_leads (hname : Path.IsName name) (hleads : disk.Leads (base.join ⟨name⟩))
    (hnode : disk.node? (base.join ⟨name⟩).place ≠ some .directory) (content : Bytes) :
    ∃ written, disk.write (base.join ⟨name⟩) content = .ok written := by
  obtain ⟨front, hpieces⟩ := base.exists_pieces_join hname
  have hfree : disk.isDirectoryAt (base.join ⟨name⟩).place = false := by
    unfold isDirectoryAt
    rw [decide_eq_false_iff_not]
    exact hnode
  obtain ⟨first, hstart, hfollow⟩ := hleads
  unfold write
  simp only [hstart, bind, Except.bind]
  rw [entryAt_of_leads hname hpieces hstart ⟨first, hstart, hfollow⟩]
  simp only [hfree, if_neg Bool.false_ne_true]
  exact ⟨_, rfl⟩

/-- A file that is read through a path that ends with a name can be replaced. -/
theorem write_of_read (hname : Path.IsName name) {content : Bytes}
    (h : disk.read (base.join ⟨name⟩) = .ok content) (other : Bytes) :
    ∃ written, disk.write (base.join ⟨name⟩) other = .ok written := by
  obtain ⟨hleads, hcontent⟩ := read_eq_ok.mp h
  apply write_of_leads hname hleads
  intro hdirectory
  unfold content? at hcontent
  rw [hdirectory] at hcontent
  cases hcontent

/-! ### Taking away -/

/-- What is where after a file was removed. -/
lemma node?_removeFile {removed : Disk} (h : disk.removeFile path = .ok removed)
    (location : Location) :
    removed.node? location = if location = path.place then none else disk.node? location := by
  unfold removeFile at h
  cases hfind : disk.find path with
  | error fault => rw [hfind] at h; cases h
  | ok found =>
    obtain ⟨place, node⟩ := found
    obtain ⟨-, rfl, hnode⟩ := find_eq_ok.mp hfind
    rw [hfind] at h
    cases node with
    | directory => cases h
    | file content =>
      obtain rfl := Except.ok.inj h
      have hroot : ¬ (path.place = [] ∨ path.place = current) := by
        intro hroot
        unfold node? at hnode
        rw [if_pos hroot] at hnode
        cases hnode
      unfold node?
      by_cases hplace : location = path.place
      · rw [hplace, if_neg hroot, if_pos rfl, Std.ExtTreeMap.getElem?_erase_self]
      · have hne : compare path.place location ≠ .eq := fun heq =>
          hplace (Std.LawfulEqOrd.eq_of_compare heq).symm
        rw [if_neg hplace, Std.ExtTreeMap.getElem?_erase, if_neg hne]

/-- A file that is removed was no directory. -/
lemma directory_removeFile {removed : Disk} (h : disk.removeFile path = .ok removed)
    (location : Location) :
    removed.node? location = some .directory ↔ disk.node? location = some .directory := by
  have hfile : disk.node? path.place ≠ some .directory := by
    intro hnode
    unfold removeFile at h
    cases hfind : disk.find path with
    | error fault => rw [hfind] at h; cases h
    | ok found =>
      obtain ⟨place, node⟩ := found
      obtain ⟨-, rfl, hfound⟩ := find_eq_ok.mp hfind
      obtain rfl := Option.some.inj (hnode.symm.trans hfound)
      rw [hfind] at h
      cases h
  rw [node?_removeFile h]
  split_ifs with hplace
  · rw [hplace]
    exact iff_of_false id hfile
  · rfl

/-- Removing a file takes away what is read at its place and nothing else. -/
lemma read_removeFile {removed : Disk} (h : disk.removeFile path = .ok removed) {other : Path}
    (hplace : other.place ≠ path.place) {content : Bytes} :
    removed.read other = .ok content ↔ disk.read other = .ok content := by
  have hcontent : removed.content? other.place = disk.content? other.place := by
    unfold content?
    rw [node?_removeFile h, if_neg hplace]
  constructor
  · exact fun hread => read_mono hread (fun location => (directory_removeFile h location).mp)
      hcontent.symm
  · exact fun hread => read_mono hread (fun location => (directory_removeFile h location).mpr)
      hcontent

/-- What is where after a tree was removed. -/
lemma node?_prune (disk : Disk) (location other : Location) :
    (disk.prune location).node? other =
      if other = [] ∨ other = current then some .directory
      else if location <+: other then none else disk.node? other := by
  unfold node? prune
  split_ifs with hroot hprefix
  · rfl
  · rw [Std.ExtTreeMap.getElem?_filter']
    cases disk.nodes[other]? with
    | none => rfl
    | some node =>
      rw [Option.filter_some, List.isPrefixOf_iff_prefix.mpr hprefix]
      rfl
  · rw [Std.ExtTreeMap.getElem?_filter']
    cases disk.nodes[other]? with
    | none => rfl
    | some node =>
      have hnot : location.isPrefixOf other = false := by
        rw [Bool.eq_false_iff, ne_eq, List.isPrefixOf_iff_prefix]
        exact hprefix
      rw [Option.filter_some, hnot]
      rfl

/-- A directory can be removed. -/
lemma removeTree_of_opens (h : disk.Opens path) :
    disk.removeTree path = .ok (disk.prune path.place) := by
  unfold removeTree
  rw [find_eq_ok.mpr ⟨h.1, rfl, h.2⟩]
  rfl

/-- What is removed is the tree at the place of the path. -/
lemma eq_prune_of_removeTree {removed : Disk} (h : disk.removeTree path = .ok removed) :
    removed = disk.prune path.place := by
  unfold removeTree at h
  cases hfind : disk.find path with
  | error fault => rw [hfind] at h; cases h
  | ok found =>
    obtain ⟨place, node⟩ := found
    obtain ⟨-, rfl, -⟩ := find_eq_ok.mp hfind
    rw [hfind] at h
    cases node with
    | directory => exact (Except.ok.inj h).symm
    | file content => cases h

/-- There is no file in a tree that was removed. -/
lemma content?_prune (disk : Disk) (location below : Location) :
    (disk.prune location).content? (location ++ below) = none := by
  unfold content?
  rw [node?_prune, if_pos (List.prefix_append location below)]
  split_ifs <;> rfl

/-! ### Names of entries -/

/-- What is listed in a directory has a name. -/
def Spelled (disk : Disk) : Prop :=
  ∀ (location : Location) (node : Node) (name : String), disk.nodes[location]? = some node →
    location.getLast? = some name → Path.IsName name

namespace Spelled

/-- The empty disk lists nothing. -/
lemma empty : Disk.empty.Spelled := by
  intro location node name hnode
  unfold Disk.empty at hnode
  rw [Std.ExtTreeMap.getElem?_empty] at hnode
  cases hnode

/-- The last name of a location for an entry is a name. -/
lemma isName_of_entryAt {location target : Location} {pieces : List String}
    (hpieces : ∀ piece ∈ pieces, '/' ∉ piece.toList)
    (h : disk.entryAt location pieces = .ok target) :
    ∃ parent name, target = parent ++ [name] ∧ Path.IsName name := by
  obtain ⟨front, name, parent, rfl, -, -, hidle, hup, -, rfl⟩ := exists_of_entryAt h
  have hslash := hpieces name (List.mem_append_right _ (List.mem_singleton_self name))
  exact ⟨parent, name, rfl, hslash, Bool.eq_false_iff.mpr hidle, hup⟩

/-- Something may be put under a name. -/
lemma insert (h : disk.Spelled) (parent : Location) (hname : Path.IsName name) (node : Node) :
    (disk.insert (parent ++ [name]) node).Spelled := by
  intro location found last hfound hlast
  unfold Disk.insert at hfound
  rw [Std.ExtTreeMap.getElem?_insert] at hfound
  split_ifs at hfound with heq
  · obtain rfl := Std.LawfulEqOrd.eq_of_compare heq
    rw [List.getLast?_concat] at hlast
    rw [← Option.some.inj hlast]
    exact hname
  · exact h location found last hfound hlast

/-- Some of what is listed may be taken away. -/
lemma of_nodes (h : disk.Spelled) {less : Disk}
    (hless : ∀ (location : Location) (node : Node), less.nodes[location]? = some node →
      disk.nodes[location]? = some node) : less.Spelled :=
  fun location node name hnode => h location node name (hless location node hnode)

/-- Making a directory keeps a disk spelled. -/
lemma makeDirectory (h : disk.Spelled) {made : Disk} (hmake : disk.makeDirectory path = .ok made) :
    made.Spelled := by
  obtain ⟨first, target, -, htarget, -, rfl⟩ := insert_of_makeDirectory hmake
  obtain ⟨parent, name, rfl, hname⟩ := isName_of_entryAt (fun piece hpiece => by
    rw [List.mem_reverse] at hpiece
    exact Path.no_slash_of_mem_pieces
      (List.mem_reverse.mp (List.dropWhile_subset _ hpiece))) htarget
  exact h.insert parent hname .directory

/-- Making directories keeps a disk spelled. -/
lemma makeDirectories (h : disk.Spelled) (path : Path) : (disk.makeDirectories path).2.Spelled :=
  makeDirectories_induction (fun hmade hspelled => hspelled.makeDirectory hmade) h path

/-- Writing a file keeps a disk spelled. -/
lemma write (h : disk.Spelled) {written : Disk} {content : Bytes}
    (hwrite : disk.write path content = .ok written) : written.Spelled := by
  obtain ⟨first, target, -, htarget, -, rfl⟩ := insert_of_write hwrite
  obtain ⟨parent, name, rfl, hname⟩ :=
    isName_of_entryAt (fun piece hpiece => Path.no_slash_of_mem_pieces hpiece) htarget
  exact h.insert parent hname (.file content)

/-- Removing a file keeps a disk spelled. -/
lemma removeFile (h : disk.Spelled) {removed : Disk}
    (hremove : disk.removeFile path = .ok removed) : removed.Spelled := by
  unfold Disk.removeFile at hremove
  cases hfind : disk.find path with
  | error fault => rw [hfind] at hremove; cases hremove
  | ok found =>
    obtain ⟨location, node⟩ := found
    rw [hfind] at hremove
    cases node with
    | directory => cases hremove
    | file content =>
      obtain rfl := Except.ok.inj hremove
      refine h.of_nodes fun place node hnode => ?_
      rw [Std.ExtTreeMap.getElem?_erase] at hnode
      split_ifs at hnode
      exact hnode

/-- Removing a tree keeps a disk spelled. -/
lemma prune (h : disk.Spelled) (location : Location) : (disk.prune location).Spelled := by
  refine h.of_nodes fun place node hnode => ?_
  unfold Disk.prune at hnode
  rw [Std.ExtTreeMap.getElem?_filter'] at hnode
  exact (Option.filter_eq_some_iff.mp hnode).1

/-- What a directory lists has a name. -/
lemma isName_of_mem_entries (h : disk.Spelled) {entries : List (String × Node)}
    {entry : String × Node} (hentries : disk.entries path = .ok entries) (hmem : entry ∈ entries) :
    Path.IsName entry.1 := by
  unfold Disk.entries at hentries
  cases hfind : disk.find path with
  | error fault => rw [hfind] at hentries; cases hentries
  | ok found =>
    obtain ⟨location, node⟩ := found
    rw [hfind] at hentries
    cases node with
    | file content => cases hentries
    | directory =>
      obtain rfl := Except.ok.inj hentries
      unfold entriesAt at hmem
      obtain ⟨⟨place, node⟩, hnode, hentry⟩ := List.mem_filterMap.mp hmem
      simp only at hentry
      split_ifs at hentry
      obtain ⟨name, hname, rfl⟩ := Option.map_eq_some_iff.mp hentry
      exact h place node name (Std.ExtTreeMap.mem_toList_iff_getElem?_eq_some.mp hnode) hname

end Spelled

end Disk

end Recompile
