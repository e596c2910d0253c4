import Recompile.Proofs.Disk.Parents

/-!
# The steps of paths

What a path means is the list of its steps, and here is what becomes of the steps when paths are
joined, trimmed or taken apart.  A path starts with the root, with a dot or with neither
(`Path.opening`), and after that its pieces are steps unless they are idle (`Path.stepsOf`).

The steps of joined paths are those of the one and then those of the other only if the second path
has no opening (`Path.steps_join_iff`): an absolute path stands for itself, and a dot counts only at
the very start.  A path relative to a base has the steps that follow those of the base, and it has
an opening only if the base has no steps (`Path.steps_of_stripBase?`).
-/

namespace Recompile

namespace Path

variable {path base rest : Path} {pieces front : List String} {last : String}

/-! ### Steps and pieces -/

/-- The steps of pieces before which others stand. -/
def stepsOf (pieces : List String) : List Step :=
  (pieces.filter fun piece => !isIdle piece).map stepOf

/-- The step at the start of a path that is no entry: the root, or a dot. -/
def opening (path : Path) : List Step :=
  if path.isAbsolute then [.root]
  else if path.pieces.head? = some "." then [.here]
  else []

/-- The steps of a path are its opening and those of its pieces. -/
lemma steps_eq (path : Path) : path.steps = path.opening ++ stepsOf path.pieces := by
  unfold steps opening stepsOf
  split_ifs <;> rfl

/-- The steps of some pieces and of those after them. -/
lemma stepsOf_append (first second : List String) :
    stepsOf (first ++ second) = stepsOf first ++ stepsOf second := by
  unfold stepsOf
  rw [List.filter_append, List.map_append]

/-- An idle piece is no step. -/
lemma stepsOf_cons_idle {piece : String} (h : isIdle piece = true) (pieces : List String) :
    stepsOf (piece :: pieces) = stepsOf pieces := by
  unfold stepsOf
  rw [List.filter_cons_of_neg (by rw [h]; decide)]

/-- A piece that is not idle is a step. -/
lemma stepsOf_cons_step {piece : String} (h : isIdle piece = false) (pieces : List String) :
    stepsOf (piece :: pieces) = stepOf piece :: stepsOf pieces := by
  unfold stepsOf
  rw [List.filter_cons_of_pos (by rw [h]; rfl), List.map_cons]

/-- Idle pieces are no steps. -/
lemma stepsOf_idle (h : ∀ piece ∈ pieces, isIdle piece = true) : stepsOf pieces = [] := by
  induction pieces with
  | nil => rfl
  | cons piece pieces ih =>
    rw [stepsOf_cons_idle (h piece List.mem_cons_self)]
    exact ih fun other hother => h other (List.mem_cons_of_mem _ hother)

/-- A name is one step. -/
lemma stepsOf_name (h : IsName last) : stepsOf [last] = [.name last] := by
  rw [stepsOf_cons_step h.not_idle, stepOf, if_neg h.not_up]
  rfl

/-- Pieces without idle ones at the end have the same steps. -/
lemma stepsOf_trimEnd (pieces : List String) : stepsOf (trimEnd pieces) = stepsOf pieces := by
  obtain ⟨idle, hpieces, hidle⟩ := exists_trimEnd_append pieces
  conv_rhs => rw [hpieces, stepsOf_append, stepsOf_idle hidle, List.append_nil]

/-- A piece leads up or to an entry. -/
lemma of_mem_stepsOf {step : Step} (h : step ∈ stepsOf pieces) :
    ¬ (step = .root ∨ step = .here) := by
  obtain ⟨piece, -, rfl⟩ := List.mem_map.mp h
  unfold stepOf
  split_ifs
  · decide
  · rintro (heq | heq) <;> cases heq

/-- What a path starts with is seen from its first step. -/
lemma opening_of_head {first : Step} (h : path.steps.head? = some first) :
    path.opening = if first = .root ∨ first = .here then [first] else [] := by
  rw [steps_eq] at h
  unfold opening at h ⊢
  split_ifs at h ⊢ with habs hstep hhere hstep hstep
  · rw [← Option.some.inj h]
  · exact absurd (.inl (Option.some.inj h).symm) hstep
  · rw [← Option.some.inj h]
  · exact absurd (.inr (Option.some.inj h).symm) hstep
  · rw [List.nil_append] at h
    exact absurd hstep (of_mem_stepsOf (List.mem_of_mem_head? h))
  · rfl

/-- A path without an opening is relative and does not start with a dot. -/
lemma opening_eq_nil_iff :
    path.opening = [] ↔ path.isAbsolute = false ∧ path.pieces.head? ≠ some "." := by
  unfold opening
  split_ifs with habs hdot
  · exact iff_of_false (by decide) fun h => absurd (habs.symm.trans h.1) (by decide)
  · exact iff_of_false (by decide) fun h => h.2 hdot
  · exact iff_of_true rfl ⟨Bool.eq_false_iff.mpr habs, hdot⟩

/-- An absolute path opens with the root. -/
lemma isAbsolute_iff_opening : path.isAbsolute = true ↔ path.opening = [.root] := by
  unfold opening
  split_ifs with habs hdot
  · exact iff_of_true habs rfl
  · exact iff_of_false habs (by decide)
  · exact iff_of_false habs (by decide)

/-- A name is a path without an opening, and of one step. -/
lemma name_spec (h : IsName last) :
    (Path.mk last).opening = [] ∧ (Path.mk last).steps = [.name last] := by
  have hopening : (Path.mk last).opening = [] := by
    refine opening_eq_nil_iff.mpr ⟨h.not_isAbsolute, ?_⟩
    rw [pieces_name h, List.head?_cons]
    intro heq
    have hidle := h.not_idle
    rw [Option.some.inj heq] at hidle
    exact absurd hidle (by decide)
  refine ⟨hopening, ?_⟩
  rw [steps_eq, hopening, pieces_name h, stepsOf_name h, List.nil_append]

/-- Only the empty path has no steps. -/
lemma steps_eq_nil_iff : path.steps = [] ↔ path.text = "" := by
  constructor
  · intro h
    rw [steps_eq] at h
    obtain ⟨hopening, hsteps⟩ := List.append_eq_nil_iff.mp h
    unfold opening at hopening
    split_ifs at hopening with habs hhere
    rw [Bool.not_eq_true] at habs
    cases hpieces : path.pieces with
    | nil => exact absurd hpieces path.pieces_ne_nil
    | cons first others =>
      rw [hpieces] at hhere hsteps
      cases hidle : isIdle first with
      | false =>
        rw [stepsOf_cons_step hidle] at hsteps
        cases hsteps
      | true =>
        have hfirst : first = "" := by
          have hdot : first ≠ "." := fun heq => hhere (by rw [heq]; rfl)
          simpa [isIdle, hdot] using hidle
        -- A first piece without text is the only one.
        cases others with
        | nil =>
          rw [text_of_not_isAbsolute habs, hpieces, hfirst]
          decide
        | cons second others =>
          exact absurd hfirst (first_ne_empty habs hpieces (List.cons_ne_nil _ _))
  · intro h
    have hpath : path = ⟨""⟩ := by
      cases path
      rw [Path.mk.injEq]
      exact h
    rw [hpath]
    decide

/-! ### Joining -/

/-- An absolute path stands for itself. -/
lemma join_of_isAbsolute (base : Path) (h : path.isAbsolute = true) : base.join path = path := by
  unfold join
  rw [h, Bool.true_or, if_pos rfl]

/-- A path joined to the empty path is itself. -/
lemma join_of_empty (path : Path) (h : base.text = "") : base.join path = path := by
  unfold join
  rw [String.isEmpty_iff.mpr h, Bool.or_true, if_pos rfl]

/-- The steps of a relative path that is joined to another path. -/
lemma steps_join_relative (h : path.isAbsolute = false) (hne : base.text ≠ "") :
    (base.join path).steps = base.steps ++ stepsOf path.pieces := by
  obtain ⟨front, hjoin, hbase, habs, hfront⟩ := pieces_join_relative h hne
  have hsteps : stepsOf base.pieces = stepsOf front := by
    rcases hbase with hbase | hbase
    · rw [hbase]
    · rw [hbase, stepsOf_append, stepsOf_idle (by decide : ∀ piece ∈ [""], isIdle piece = true),
        List.append_nil]
  have hopening : (base.join path).opening = base.opening := by
    unfold opening
    rw [habs, hjoin]
    cases hrelative : base.isAbsolute with
    | true => rfl
    | false =>
      -- The first piece of a relative path stays where it is.
      have hne := hfront hrelative
      rw [List.head?_append_of_ne_nil _ hne]
      rcases hbase with hbase | hbase <;> rw [hbase]
      rw [List.head?_append_of_ne_nil _ hne]
  rw [steps_eq, hopening, hjoin, stepsOf_append, steps_eq base, hsteps, List.append_assoc]

/-- A path that is joined to another adds its steps, unless it has an opening and the other path is
not empty. -/
theorem steps_join_iff (base path : Path) :
    (base.join path).steps = base.steps ++ path.steps ↔ base.steps = [] ∨ path.opening = [] := by
  by_cases hne : base.text = ""
  · have hnil := steps_eq_nil_iff.mpr hne
    rw [join_of_empty path hne, hnil, List.nil_append]
    exact iff_of_true rfl (.inl rfl)
  · have hsteps : base.steps ≠ [] := fun heq => hne (steps_eq_nil_iff.mp heq)
    rw [or_iff_right hsteps]
    cases habs : path.isAbsolute with
    | true =>
      have hopening : path.opening ≠ [] := by
        unfold opening
        rw [habs, if_pos rfl]
        exact List.cons_ne_nil _ _
      rw [join_of_isAbsolute base habs, List.self_eq_append_left]
      exact iff_of_false hsteps hopening
    | false =>
      rw [steps_join_relative habs hne, steps_eq path, List.append_cancel_left_eq,
        List.self_eq_append_left]

/-! ### Trimming -/

/-- An absolute path without idle pieces at its end. -/
lemma trimmed_of_isAbsolute (habs : path.isAbsolute = true) :
    path.trimmed.opening = path.opening ∧ stepsOf path.trimmed.pieces = stepsOf path.pieces := by
  have htrimmed : path.trimmed = ⟨"/" ++ glue (trimEnd path.pieces)⟩ := by
    unfold trimmed
    rw [habs, if_pos rfl]
  rw [htrimmed]
  constructor
  · unfold opening
    rw [isAbsolute_slash, habs, if_pos rfl, if_pos rfl]
  · rw [pieces_slash, ← stepsOf_trimEnd path.pieces]
    by_cases hroot : trimEnd path.pieces = []
    · have hnothing : (glue []).toList = [] := by decide
      rw [hroot, hnothing, split_nil, stepsOf_cons_idle (by decide)]
    · obtain ⟨idle, hpieces, -⟩ := exists_trimEnd_append path.pieces
      rw [split_glue hroot]
      intro piece hpiece
      refine no_slash_of_mem_pieces (?_ : piece ∈ path.pieces)
      rw [hpieces]
      exact List.mem_append_left _ hpiece

/-- A relative path without idle pieces at its end. -/
lemma trimmed_of_relative (habs : path.isAbsolute = false) :
    path.trimmed.opening = path.opening ∧ stepsOf path.trimmed.pieces = stepsOf path.pieces := by
  cases hpieces : path.pieces with
  | nil => exact absurd hpieces path.pieces_ne_nil
  | cons first others =>
    have htrimmed : path.trimmed = ⟨glue (first :: trimEnd others)⟩ := by
      unfold trimmed
      rw [habs, if_neg Bool.false_ne_true, hpieces]
    rw [htrimmed]
    by_cases hfirst : first = ""
    · -- The path is empty.
      have hnil : others = [] := by
        by_contra hothers
        exact first_ne_empty habs hpieces hothers hfirst
      have hsame : glue (first :: trimEnd others) = path.text := by
        rw [text_of_not_isAbsolute habs, hpieces, hnil]
        rfl
      rw [hsame, ← hpieces]
      exact ⟨rfl, rfl⟩
    · obtain ⟨idle, hothers, -⟩ := exists_trimEnd_append others
      have hslash : ∀ piece ∈ first :: trimEnd others, '/' ∉ piece.toList := by
        intro piece hpiece
        refine no_slash_of_mem_pieces (?_ : piece ∈ path.pieces)
        rw [hpieces, hothers]
        rcases List.mem_cons.mp hpiece with rfl | hpiece
        · exact List.mem_cons_self
        · exact List.mem_cons_of_mem _ (List.mem_append_left _ hpiece)
      obtain ⟨hrelative, hglue⟩ := pieces_glue hfirst hslash
      constructor
      · unfold opening
        rw [hrelative, hglue, habs, hpieces, List.head?_cons, List.head?_cons]
      · rw [hglue, ← List.singleton_append, stepsOf_append, stepsOf_trimEnd, ← stepsOf_append,
          List.singleton_append]

/-- A path without idle pieces at its end starts as before and has the same steps. -/
lemma trimmed_spec (path : Path) :
    path.trimmed.opening = path.opening ∧ path.trimmed.steps = path.steps := by
  have h : path.trimmed.opening = path.opening ∧
      stepsOf path.trimmed.pieces = stepsOf path.pieces := by
    cases habs : path.isAbsolute with
    | true => exact trimmed_of_isAbsolute habs
    | false => exact trimmed_of_relative habs
  refine ⟨h.1, ?_⟩
  rw [steps_eq, steps_eq, h.1, h.2]

/-! ### Taking a base away -/

/-- What is left of pieces is at their end. -/
lemma dropSteps_suffix (count : Nat) (pieces : List String) :
    dropSteps count pieces <:+ pieces := by
  fun_induction dropSteps count pieces with
  | case1 => exact List.suffix_rfl
  | case2 piece rest hidle ih => exact ih.trans (List.suffix_cons piece rest)
  | case3 => exact List.suffix_rfl
  | case4 count piece rest hidle ih => exact ih.trans (List.suffix_cons piece rest)
  | case5 count piece rest hidle ih => exact ih.trans (List.suffix_cons piece rest)

/-- So many pieces that are not idle are so many steps. -/
lemma stepsOf_dropSteps (count : Nat) (pieces : List String) :
    stepsOf (dropSteps count pieces) = (stepsOf pieces).drop count := by
  fun_induction dropSteps count pieces with
  | case1 count => exact List.drop_nil.symm
  | case2 piece rest hidle ih => rw [ih, stepsOf_cons_idle hidle]
  | case3 => rfl
  | case4 count piece rest hidle ih => rw [ih, stepsOf_cons_idle hidle]
  | case5 count piece rest hidle ih =>
    rw [ih, stepsOf_cons_step (Bool.eq_false_iff.mpr hidle), List.drop_succ_cons]

/-- What is left of pieces starts with a step. -/
lemma dropSteps_head (count : Nat) (pieces : List String) {first : String}
    (h : (dropSteps count pieces).head? = some first) : isIdle first = false := by
  fun_induction dropSteps count pieces with
  | case1 => cases h
  | case2 piece rest hidle ih => exact ih h
  | case3 piece rest hidle => rw [← Option.some.inj h, Bool.eq_false_iff]; exact hidle
  | case4 count piece rest hidle ih => exact ih h
  | case5 count piece rest hidle ih => exact ih h

/-- Pieces that start with a step make up a path without an opening. -/
lemma glue_spec (hhead : ∀ first, pieces.head? = some first → isIdle first = false)
    (hslash : ∀ piece ∈ pieces, '/' ∉ piece.toList) :
    (Path.mk (glue (trimEnd pieces))).opening = [] ∧
      (Path.mk (glue (trimEnd pieces))).steps = stepsOf pieces := by
  obtain ⟨idle, hpieces, hidle⟩ := exists_trimEnd_append pieces
  rw [← stepsOf_trimEnd pieces]
  cases htrim : trimEnd pieces with
  | nil => exact ⟨by decide, by decide⟩
  | cons first others =>
    rw [htrim] at hpieces
    have hfirst := hhead first (by rw [hpieces]; rfl)
    have hslash : ∀ piece ∈ first :: others, '/' ∉ piece.toList := fun piece hpiece =>
      hslash piece (by rw [hpieces]; exact List.mem_append_left _ hpiece)
    obtain ⟨hrelative, hglue⟩ := pieces_glue (ne_empty_of_step hfirst) hslash
    have hdot : ¬ (first :: others).head? = some "." := by
      intro heq
      rw [Option.some.inj heq] at hfirst
      exact absurd hfirst (by decide)
    have hopening : (Path.mk (glue (first :: others))).opening = [] := by
      unfold opening
      rw [hrelative, hglue, if_neg Bool.false_ne_true, if_neg hdot]
    refine ⟨hopening, ?_⟩
    rw [steps_eq, hopening, hglue, List.nil_append]

/-- A path is relative to the bases whose steps it starts with. -/
lemma stripBase?_eq_none_iff : path.stripBase? base = none ↔ ¬ base.steps <+: path.steps := by
  rw [← List.isPrefixOf_iff_prefix]
  unfold stripBase?
  split_ifs with hprefix
  · refine iff_of_false ?_ (not_not.mpr hprefix)
    split <;> exact Option.some_ne_none _
  · exact iff_of_true rfl hprefix

/-- A path relative to a base has the steps that follow those of the base, and no opening if the
base has steps. -/
theorem steps_of_stripBase? (h : path.stripBase? base = some rest) :
    rest.steps = path.steps.drop base.steps.length ∧
      rest.opening = if base.steps = [] then path.opening else [] := by
  have hprefix : base.steps <+: path.steps := by
    by_contra hnot
    rw [stripBase?_eq_none_iff.mpr hnot] at h
    cases h
  unfold stripBase? at h
  rw [if_pos (List.isPrefixOf_iff_prefix.mpr hprefix)] at h
  cases hbase : base.steps with
  | nil =>
    rw [hbase] at h
    obtain rfl := Option.some.inj h
    obtain ⟨hopening, hsteps⟩ := path.trimmed_spec
    exact ⟨hsteps, hopening⟩
  | cons first others =>
    rw [hbase] at h hprefix
    obtain rfl := Option.some.inj h
    obtain ⟨after, hafter⟩ := hprefix
    have hhead : path.steps.head? = some first := by
      rw [← hafter]
      rfl
    have hopening := opening_of_head hhead
    obtain ⟨hnone, hsteps⟩ := glue_spec (fun _ => dropSteps_head _ path.pieces)
      fun piece hpiece => no_slash_of_mem_pieces ((dropSteps_suffix _ path.pieces).subset hpiece)
    rw [if_neg (List.cons_ne_nil _ _)]
    refine ⟨?_, hnone⟩
    rw [hsteps, stepsOf_dropSteps, steps_eq path, hopening, List.length_cons]
    split_ifs
    · rw [List.singleton_append, List.drop_succ_cons]
    · rw [List.nil_append]

/-! ### The last step -/

/-- The last step goes to the name at the end. -/
lemma fileName?_of_name (hpieces : path.pieces = front ++ [last]) (h : IsName last) :
    path.steps.getLast? = some (.name last) ∧ path.fileName? = some last := by
  have hlast : path.steps.getLast? = some (.name last) := by
    rw [steps_eq, hpieces, stepsOf_append, stepsOf_name h, ← List.append_assoc,
      List.getLast?_concat]
  refine ⟨hlast, ?_⟩
  unfold fileName?
  rw [hlast]

/-- An ending without slashes is one of what follows a slash. -/
lemma suffix_after_slash {cs xs ys : List Char} (hcs : '/' ∉ cs) (h : cs <:+ xs ++ '/' :: ys) :
    cs <:+ ys := by
  rcases List.suffix_or_suffix_of_suffix h (List.suffix_append xs ('/' :: ys)) with hshort | hlong
  · rcases List.suffix_cons_iff.mp hshort with heq | hrest
    · rw [heq] at hcs
      exact absurd List.mem_cons_self hcs
    · exact hrest
  · exact absurd (hlong.subset List.mem_cons_self) hcs

/-- An ending without slashes is one of the last piece. -/
lemma exists_last_of_suffix {cs : List Char} (hcs : '/' ∉ cs) (h : cs <:+ path.text.toList) :
    ∃ front last, path.pieces = front ++ [last] ∧ cs <:+ last.toList := by
  have hsuffix : cs <:+ (glue path.pieces).toList := by
    rw [glue_pieces, String.toList_ofList]
    split_ifs with habs
    · rw [toList_of_isAbsolute habs] at h
      exact @suffix_after_slash cs [] _ hcs h
    · exact h
  obtain hnil | ⟨front, last, hpieces⟩ := List.eq_nil_or_concat' path.pieces
  · exact absurd hnil path.pieces_ne_nil
  refine ⟨front, last, hpieces, ?_⟩
  rw [hpieces] at hsuffix
  by_cases hfront : front = []
  · rwa [hfront, List.nil_append, glue_singleton] at hsuffix
  · rw [glue_append hfront (List.cons_ne_nil _ _), glue_singleton, String.toList_append,
      String.toList_append] at hsuffix
    exact suffix_after_slash hcs hsuffix

end Path

end Recompile
