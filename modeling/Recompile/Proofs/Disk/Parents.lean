import Mathlib.Data.List.DropRight
import Recompile.Proofs.Disk.Passing

/-!
# The path above a path

The path above a path is its text without the last step.  A path is trim if its last piece is a
step, unless it is the only piece (`Path.IsTrim`); a path to which a name was joined is trim.  Above
a trim path with a step there is again a trim path, with a shorter text, and it leads to what stands
before the step (`Path.parent?_of_step`).  Whatever it leads through is passed by the path itself
(`Path.Heads.passes`), so going up from one path to the next never leaves the way of the first one.
-/

namespace Recompile

namespace Path

variable {path : Path} {front : List String} {last : String} {location : Location}

/-! ### Pieces -/

/-- Pieces are trimmed by taking idle ones away. -/
lemma exists_trimEnd_append (pieces : List String) :
    ∃ idle, pieces = trimEnd pieces ++ idle ∧ ∀ piece ∈ idle, isIdle piece = true :=
  ⟨pieces.rtakeWhile isIdle, List.rdropWhile_append_rtakeWhile.symm,
    fun _ hpiece => List.mem_rtakeWhile_imp hpiece⟩

/-- What is left ends with a step. -/
lemma exists_trimEnd_eq {pieces : List String} (h : trimEnd pieces ≠ []) :
    ∃ front last, trimEnd pieces = front ++ [last] ∧ isIdle last = false := by
  have hlast := List.rdropWhile_last_not isIdle pieces h
  rw [Bool.not_eq_true] at hlast
  exact ⟨_, _, (List.dropLast_append_getLast h).symm, hlast⟩

/-- Pieces that are glued together are taken apart again. -/
lemma split_glue {pieces : List String} (hne : pieces ≠ [])
    (hslash : ∀ piece ∈ pieces, '/' ∉ piece.toList) : split (glue pieces).toList = pieces := by
  have hlist : (String.ofList ∘ String.toList) = id := funext fun _ => String.ofList_toList
  unfold split glue
  rw [String.toList_ofList, List.splitOn_intercalate, List.map_map, hlist, List.map_id]
  · intro cs hcs
    obtain ⟨piece, hpiece, rfl⟩ := List.mem_map.mp hcs
    exact hslash piece hpiece
  · rw [ne_eq, List.map_eq_nil_iff]
    exact hne

/-- A slash stands between pieces. -/
lemma glue_append {first second : List String} (hfirst : first ≠ []) (hsecond : second ≠ []) :
    glue (first ++ second) = glue first ++ ("/" ++ glue second) := by
  rw [← String.toList_inj]
  unfold glue
  simp only [String.toList_append, String.toList_ofList, List.map_append]
  induction first with
  | nil => exact absurd rfl hfirst
  | cons piece rest ih =>
    cases rest with
    | nil =>
      rw [List.map_cons, List.map_nil, List.singleton_append, List.intercalate_cons_of_ne_nil,
        List.intercalate_singleton, List.append_assoc]
      · rfl
      · rw [ne_eq, List.map_eq_nil_iff]
        exact hsecond
    | cons next rest =>
      have hrest := ih (List.cons_ne_nil _ _)
      simp only [List.map_cons, List.cons_append, List.intercalate_cons_cons] at hrest ⊢
      rw [hrest, List.append_assoc, List.append_assoc, List.append_assoc]

/-- One piece is the text. -/
lemma glue_singleton (piece : String) : glue [piece] = piece := by
  unfold glue
  rw [List.map_cons, List.map_nil, List.intercalate_singleton, String.ofList_toList]

/-- Pieces of which the last one is a step are glued to some text. -/
lemma glue_ne_empty (front : List String) (hlast : last ≠ "") : glue (front ++ [last]) ≠ "" := by
  cases front with
  | nil =>
    rw [List.nil_append, glue_singleton]
    exact hlast
  | cons piece rest =>
    rw [glue_append (List.cons_ne_nil _ _) (List.cons_ne_nil _ _), glue_singleton]
    intro heq
    exact hlast (String.append_eq_empty_iff.mp (String.append_eq_empty_iff.mp heq).2).2

/-- A step is not empty. -/
lemma ne_empty_of_step (hlast : isIdle last = false) : last ≠ "" := by
  rintro rfl
  exact absurd hlast (by decide)

/-- The text of an absolute path is a slash and its pieces. -/
lemma text_of_isAbsolute (h : path.isAbsolute = true) : path.text = "/" ++ glue path.pieces := by
  rw [glue_pieces, h, if_pos rfl, ← String.toList_inj, String.toList_append]
  simp only [String.toList_ofList]
  exact toList_of_isAbsolute h

/-- The text of a relative path is its pieces. -/
lemma text_of_not_isAbsolute (h : path.isAbsolute = false) : path.text = glue path.pieces := by
  rw [glue_pieces, h, if_neg Bool.false_ne_true, String.ofList_toList]

/-- A text that starts with a slash is that of an absolute path. -/
lemma isAbsolute_slash (text : String) : (Path.mk ("/" ++ text)).isAbsolute = true := by
  apply isAbsolute_cons
  rw [String.toList_append]
  rfl

/-- The pieces after a slash at the start. -/
lemma pieces_slash (text : String) : (Path.mk ("/" ++ text)).pieces = split text.toList := by
  rw [pieces_eq_split, isAbsolute_slash, if_pos rfl, String.toList_append]
  rfl

/-- Pieces that start with some text make up a relative path. -/
lemma isAbsolute_glue {first : String} (rest : List String) (hne : first ≠ "")
    (hslash : '/' ∉ first.toList) : (Path.mk (glue (first :: rest))).isAbsolute = false := by
  cases hchars : first.toList with
  | nil => exact absurd (String.toList_eq_nil_iff.mp hchars) hne
  | cons c cs =>
    have hhead : (glue (first :: rest)).toList.head? = some c := by
      unfold glue
      cases rest with
      | nil =>
        rw [List.map_cons, List.map_nil, List.intercalate_singleton, String.toList_ofList, hchars]
        rfl
      | cons next rest =>
        rw [List.map_cons, List.map_cons, List.intercalate_cons_cons, String.toList_ofList, hchars]
        rfl
    unfold isAbsolute
    rw [hhead, decide_eq_false_iff_not]
    intro heq
    rw [hchars, Option.some.inj heq] at hslash
    exact hslash List.mem_cons_self

/-- The relative path that pieces make up has these pieces. -/
lemma pieces_glue {first : String} {rest : List String} (hne : first ≠ "")
    (hslash : ∀ piece ∈ first :: rest, '/' ∉ piece.toList) :
    (Path.mk (glue (first :: rest))).isAbsolute = false ∧
      (Path.mk (glue (first :: rest))).pieces = first :: rest := by
  have hrelative := isAbsolute_glue rest hne (hslash first List.mem_cons_self)
  refine ⟨hrelative, ?_⟩
  rw [pieces_eq_split, hrelative, if_neg Bool.false_ne_true]
  exact split_glue (List.cons_ne_nil _ _) hslash

/-- The first of several pieces of a relative path is not empty. -/
lemma first_ne_empty {first : String} {rest : List String} (h : path.isAbsolute = false)
    (hpieces : path.pieces = first :: rest) (hrest : rest ≠ []) : first ≠ "" := by
  rintro rfl
  have htext := text_of_not_isAbsolute h
  have hempty : glue [""] = "" := by decide
  rw [hpieces, ← List.singleton_append, glue_append (List.cons_ne_nil _ _) hrest, hempty,
    String.empty_append] at htext
  have habs := isAbsolute_slash (glue rest)
  rw [← htext, h] at habs
  cases habs

/-! ### Where a path leads through -/

/-- The path leads through a location or ends there. -/
def Visits (path : Path) (location : Location) : Prop :=
  ∃ front rest, path.pieces = front ++ rest ∧
    front.foldl follow (if path.isAbsolute then [] else Disk.current) = location

/-- A path ends at its place. -/
lemma visits_place (path : Path) : path.Visits path.place :=
  ⟨path.pieces, [], (List.append_nil _).symm, rfl⟩

/-- What is passed is visited. -/
lemma Passes.visits (h : path.Passes location) : path.Visits location := by
  obtain ⟨front, rest, hpieces, -, hlocation⟩ := h
  exact ⟨front, rest, hpieces, hlocation⟩

/-- The last piece is a step, unless it is the only one. -/
def IsTrim (path : Path) : Prop :=
  ∃ front last, path.pieces = front ++ [last] ∧ (front = [] ∨ isIdle last = false)

/-- A path with a name joined to it is trim. -/
lemma isTrim_join (base : Path) {name : String} (h : IsName name) : (base.join ⟨name⟩).IsTrim := by
  obtain ⟨front, hpieces⟩ := base.exists_pieces_join h
  exact ⟨front, name, hpieces, .inr h.not_idle⟩

/-- A path leads to the pieces that stand before the last one, apart from idle ones. -/
def Heads (parent : Path) (front : List String) : Prop :=
  ∃ core idle, front = core ++ idle ∧ (∀ piece ∈ idle, isIdle piece = true) ∧
    (parent.pieces = core ∨ core = [] ∧ parent.pieces = [""])

/-- The path above an absolute path. -/
lemma parent?_of_isAbsolute (habs : path.isAbsolute = true)
    (hpieces : path.pieces = front ++ [last])
    (hlast : isIdle last = false) :
    ∃ parent rest, path.parent? = some parent ∧ path.text = parent.text ++ rest ∧ rest ≠ "" ∧
      parent.text ≠ "" ∧ parent.isAbsolute = true ∧ parent.IsTrim ∧ parent.Heads front := by
  obtain ⟨idle, hfront, hidle⟩ := exists_trimEnd_append front
  have hslash : ∀ piece ∈ trimEnd front, '/' ∉ piece.toList := by
    intro piece hpiece
    refine no_slash_of_mem_pieces (?_ : piece ∈ path.pieces)
    rw [hpieces, hfront]
    exact List.mem_append_left _ (List.mem_append_left _ hpiece)
  have hparent : path.parent? = some ⟨"/" ++ glue (trimEnd front)⟩ := by
    unfold parent?
    rw [habs, if_pos rfl, hpieces, trimEnd_of_step front hlast]
    split
    · rename_i hnil
      exact absurd hnil (List.append_ne_nil_of_right_ne_nil _ (List.cons_ne_nil _ _))
    · rw [List.dropLast_concat]
  have hsplit := pieces_slash (glue (trimEnd front))
  have htext : path.text = "/" ++ glue (front ++ [last]) := by
    rw [← hpieces]
    exact text_of_isAbsolute habs
  have hne : "/" ++ glue (trimEnd front) ≠ "" := by
    intro heq
    exact absurd (String.append_eq_empty_iff.mp heq).1 (by decide)
  by_cases hroot : trimEnd front = []
  · rw [hroot] at hfront hsplit hparent hne
    refine ⟨_, glue (front ++ [last]), hparent, ?_, glue_ne_empty front (ne_empty_of_step hlast),
      hne, isAbsolute_slash _, ?_, ?_⟩
    · rw [htext]
      rfl
    · exact ⟨[], "", hsplit.trans split_nil, .inl rfl⟩
    · exact ⟨[], idle, hfront, hidle, .inr ⟨rfl, hsplit.trans split_nil⟩⟩
  · rw [split_glue hroot hslash] at hsplit
    refine ⟨_, "/" ++ glue (idle ++ [last]), hparent, ?_, ?_, hne, isAbsolute_slash _, ?_, ?_⟩
    · rw [htext, hfront, List.append_assoc, glue_append hroot
        (List.append_ne_nil_of_right_ne_nil _ (List.cons_ne_nil _ _)), ← hfront]
      simp only [String.append_assoc]
    · intro heq
      exact absurd (String.append_eq_empty_iff.mp heq).1 (by decide)
    · obtain ⟨before, step, hstep, hnot⟩ := exists_trimEnd_eq hroot
      exact ⟨before, step, hsplit.trans hstep, .inr hnot⟩
    · exact ⟨trimEnd front, idle, hfront, hidle, .inl hsplit⟩

/-- The path above a relative path with several pieces. -/
lemma parent?_of_relative {first : String} {middle : List String}
    (habs : path.isAbsolute = false) (hpieces : path.pieces = first :: middle ++ [last])
    (hlast : isIdle last = false) :
    ∃ parent rest, path.parent? = some parent ∧ path.text = parent.text ++ rest ∧ rest ≠ "" ∧
      parent.text ≠ "" ∧ parent.isAbsolute = false ∧ parent.IsTrim ∧
      parent.Heads (first :: middle) := by
  obtain ⟨idle, hmiddle, hidle⟩ := exists_trimEnd_append middle
  have hslash : ∀ piece ∈ first :: trimEnd middle, '/' ∉ piece.toList := by
    intro piece hpiece
    refine no_slash_of_mem_pieces (?_ : piece ∈ path.pieces)
    rw [hpieces, hmiddle, List.cons_append]
    rcases List.mem_cons.mp hpiece with rfl | hpiece
    · exact List.mem_cons_self
    · exact List.mem_cons_of_mem _ (List.mem_append_left _ (List.mem_append_left _ hpiece))
  have hfirst : first ≠ "" :=
    first_ne_empty habs (hpieces.trans (List.cons_append ..))
      (List.append_ne_nil_of_right_ne_nil _ (List.cons_ne_nil _ _))
  have hparent : path.parent? = some ⟨glue (first :: trimEnd middle)⟩ := by
    unfold parent?
    rw [habs, if_neg Bool.false_ne_true, hpieces]
    simp only [List.cons_append, trimEnd_of_step middle hlast]
    split
    · rename_i hnil
      exact absurd hnil (List.append_ne_nil_of_right_ne_nil _ (List.cons_ne_nil _ _))
    · rw [List.dropLast_concat]
  obtain ⟨hrelative, hsplit⟩ := pieces_glue hfirst hslash
  have htext : path.text = glue (first :: trimEnd middle) ++ ("/" ++ glue (idle ++ [last])) := by
    rw [text_of_not_isAbsolute habs, hpieces]
    conv_lhs => rw [hmiddle]
    rw [← List.cons_append, List.append_assoc, glue_append (List.cons_ne_nil _ _)
      (List.append_ne_nil_of_right_ne_nil _ (List.cons_ne_nil _ _))]
  refine ⟨_, _, hparent, htext, ?_, ?_, hrelative, ?_, ?_⟩
  · intro heq
    exact absurd (String.append_eq_empty_iff.mp heq).1 (by decide)
  · intro heq
    have hnil := split_glue (List.cons_ne_nil first (trimEnd middle)) hslash
    simp only at heq
    rw [heq] at hnil
    exact hfirst (List.cons_eq_cons.mp (hnil.symm.trans split_nil)).1
  · by_cases hnil : trimEnd middle = []
    · exact ⟨[], first, by rw [hsplit, hnil]; rfl, .inl rfl⟩
    · obtain ⟨before, step, hstep, hnot⟩ := exists_trimEnd_eq hnil
      exact ⟨first :: before, step, by rw [hsplit, hstep]; rfl, .inr hnot⟩
  · refine ⟨first :: trimEnd middle, idle, ?_, hidle, .inl hsplit⟩
    rw [List.cons_append, ← hmiddle]

/-- The path above a path whose last piece is a step has a shorter text and leads to what stands
before the step; above a single step in the current directory there is the empty path. -/
theorem parent?_of_step (hpieces : path.pieces = front ++ [last]) (hlast : isIdle last = false) :
    ∃ parent rest, path.parent? = some parent ∧ path.text = parent.text ++ rest ∧ rest ≠ "" ∧
      (parent.text = "" ∧ front = [] ∨
        parent.text ≠ "" ∧ parent.isAbsolute = path.isAbsolute ∧ parent.IsTrim ∧
          parent.Heads front) := by
  cases habs : path.isAbsolute with
  | true =>
    obtain ⟨parent, rest, hparent, htext, hrest, habove⟩ :=
      parent?_of_isAbsolute habs hpieces hlast
    exact ⟨parent, rest, hparent, htext, hrest, .inr habove⟩
  | false =>
    cases front with
    | nil =>
      have hne := ne_empty_of_step hlast
      refine ⟨⟨""⟩, path.text, ?_, String.empty_append.symm, ?_, .inl ⟨rfl, rfl⟩⟩
      · unfold parent?
        rw [habs, if_neg Bool.false_ne_true, hpieces]
        simp only [List.nil_append]
        split
        · rw [if_neg hne]
        · rename_i hnil
          exact absurd rfl hnil
      · rw [text_of_not_isAbsolute habs, hpieces]
        exact glue_ne_empty [] hne
    | cons first middle =>
      obtain ⟨parent, rest, hparent, htext, hrest, habove⟩ :=
        parent?_of_relative habs hpieces hlast
      exact ⟨parent, rest, hparent, htext, hrest, .inr habove⟩

/-- Idle pieces lead nowhere else. -/
lemma foldl_follow_idle {pieces : List String} (h : ∀ piece ∈ pieces, isIdle piece = true)
    (location : Location) : pieces.foldl follow location = location := by
  induction pieces with
  | nil => rfl
  | cons piece rest ih =>
    rw [List.foldl_cons, follow, if_pos (h piece List.mem_cons_self)]
    exact ih fun other hother => h other (List.mem_cons_of_mem _ hother)

/-- What the path above leads through is passed. -/
lemma Heads.passes {parent : Path} (h : parent.Heads front)
    (habs : parent.isAbsolute = path.isAbsolute) (hpieces : path.pieces = front ++ [last])
    (hvisits : parent.Visits location) : path.Passes location := by
  obtain ⟨core, idle, hfront, -, hcore⟩ := h
  obtain ⟨before, after, hsplit, hlocation⟩ := hvisits
  rw [habs] at hlocation
  rw [hfront] at hpieces
  rcases hcore with hcore | ⟨hnil, hroot⟩
  · refine ⟨before, after ++ (idle ++ [last]), ?_, ?_, hlocation⟩
    · rw [hpieces, ← hcore, hsplit]
      simp only [List.append_assoc]
    · simp
  · -- The path above is the root.
    rw [hroot] at hsplit
    refine ⟨[], path.pieces, rfl, ?_, ?_⟩
    · rw [hpieces]
      simp
    · rw [← hlocation]
      apply Eq.symm
      apply foldl_follow_idle
      intro piece hpiece
      have hmem : piece ∈ [""] := by
        rw [hsplit]
        exact List.mem_append_left _ hpiece
      rw [List.mem_singleton.mp hmem]
      rfl

end Path

end Recompile
