import Recompile.Proofs.Disk.Steps
import Recompile.Session.Declarations

/-!
# Declarations next to a bundle

With a bundle, a declaration is written under the directory of the bundle: what follows there is its
path relative to the output directory of the compiler, or else its file name
(`Declaration.remainder`).

That holds for every output directory that has steps.  The empty output directory has none, so each
path is relative to it and is taken whole, with its root or the dot at its start; it is not taken
for a path relative to the directory of the bundle (`Declaration.target_beside_iff`).  An absolute
path then replaces that directory, and the declaration is written where the compiler puts it
(`Declaration.declaration_outside_bundle`).
-/

namespace Recompile

namespace Declaration

variable {name bundle directory outDirectory : Path}

/-- What is to follow the directory of the bundle: the steps after the output directory if the
declaration is in it, and else the last step. -/
def remainder (name outDirectory : Path) : List Path.Step :=
  if outDirectory.steps <+: name.steps then name.steps.drop outDirectory.steps.length
  else name.steps.getLast?.toList

/-- The last piece of the path of a declaration is a name. -/
lemma exists_last_name (hname : ".d.ts".toList <:+ name.text.toList) :
    ∃ front last, name.pieces = front ++ [last] ∧ Path.IsName last := by
  obtain ⟨front, last, hpieces, hlast⟩ := Path.exists_last_of_suffix (by decide) hname
  refine ⟨front, last, hpieces, Path.isName_of_chars (fun c hc heq => ?_) ?_⟩
  · rw [heq] at hc
    refine Path.no_slash_of_mem_pieces (?_ : last ∈ name.pieces) hc
    rw [hpieces]
    exact List.mem_append_right _ (List.mem_singleton_self last)
  · exact ⟨'d', hlast.subset (by decide), by decide⟩

/-- Nothing is taken away for an output directory without steps. -/
lemma remainder_of_nil (h : outDirectory.steps = []) :
    remainder name outDirectory = name.steps := by
  unfold remainder
  rw [h, if_pos List.nil_prefix]
  rfl

/-- The path relative to the output directory has the steps that are to follow, and it has an
opening only if the output directory has no steps. -/
lemma relative_spec (hname : ".d.ts".toList <:+ name.text.toList) (outDirectory : Path) :
    (relative name outDirectory).steps = remainder name outDirectory ∧
      (relative name outDirectory).opening =
        if outDirectory.steps = [] then name.opening else [] := by
  unfold relative remainder
  cases hstrip : name.stripBase? outDirectory with
  | some rest =>
    have hprefix : outDirectory.steps <+: name.steps := by
      by_contra hnot
      rw [Path.stripBase?_eq_none_iff.mpr hnot] at hstrip
      cases hstrip
    rw [if_pos hprefix]
    exact Path.steps_of_stripBase? hstrip
  | none =>
    have hnot := Path.stripBase?_eq_none_iff.mp hstrip
    have hsteps : outDirectory.steps ≠ [] := by
      intro hnil
      rw [hnil] at hnot
      exact hnot List.nil_prefix
    obtain ⟨front, last, hpieces, hlast⟩ := exists_last_name hname
    obtain ⟨hstep, hfile⟩ := Path.fileName?_of_name hpieces hlast
    obtain ⟨hopening, hone⟩ := Path.name_spec hlast
    rw [if_neg hnot, if_neg hsteps, hfile, hstep]
    exact ⟨hone, hopening⟩

/-- With a bundle, the path relative to the output directory is joined to the directory of the
bundle. -/
lemma target_eq_join (hdirectory : bundle.parent? = some directory) :
    target name (some bundle) outDirectory = directory.join (relative name outDirectory) := by
  unfold target
  simp only [hdirectory, Option.getD_some]

/-- The path relative to the output directory is absolute only if the output directory has no steps
and the declaration has an absolute path. -/
lemma isAbsolute_relative_iff (hname : ".d.ts".toList <:+ name.text.toList) :
    (relative name outDirectory).isAbsolute = true ↔
      outDirectory.steps = [] ∧ name.isAbsolute = true := by
  obtain ⟨-, hopening⟩ := relative_spec hname outDirectory
  rw [Path.isAbsolute_iff_opening, hopening, Path.isAbsolute_iff_opening]
  by_cases hnil : outDirectory.steps = []
  · rw [if_pos hnil]
    exact (and_iff_right hnil).symm
  · rw [if_neg hnil]
    exact iff_of_false (List.cons_ne_nil _ _).symm fun h => hnil h.1

/-- A declaration that does not replace the directory of the bundle has steps after it, those of its
relative path without the opening. -/
lemma steps_target (hname : ".d.ts".toList <:+ name.text.toList)
    (hdirectory : bundle.parent? = some directory) (hne : directory.steps ≠ [])
    (hinside : ¬ (outDirectory.steps = [] ∧ name.isAbsolute = true)) :
    (target name (some bundle) outDirectory).steps = directory.steps ++
      (remainder name outDirectory).drop (relative name outDirectory).opening.length := by
  obtain ⟨hsteps, -⟩ := relative_spec hname outDirectory
  have habs : (relative name outDirectory).isAbsolute = false := by
    rw [← Bool.not_eq_true, isAbsolute_relative_iff hname]
    exact hinside
  rw [target_eq_join hdirectory,
    Path.steps_join_relative habs fun hempty => hne (Path.steps_eq_nil_iff.mpr hempty), ← hsteps,
    Path.steps_eq (relative name outDirectory), List.drop_left]

/-- With an empty output directory, a declaration with an absolute path replaces the directory of
the bundle. -/
lemma steps_target_of_isAbsolute (hname : ".d.ts".toList <:+ name.text.toList)
    (hdirectory : bundle.parent? = some directory) (hnil : outDirectory.steps = [])
    (habs : name.isAbsolute = true) :
    (target name (some bundle) outDirectory).steps = name.steps := by
  rw [target_eq_join hdirectory,
    Path.join_of_isAbsolute _ ((isAbsolute_relative_iff hname).mpr ⟨hnil, habs⟩),
    (relative_spec hname outDirectory).1, remainder_of_nil hnil]

/-- Any other declaration stays under the directory of the bundle. -/
lemma prefix_steps_target (hname : ".d.ts".toList <:+ name.text.toList)
    (hdirectory : bundle.parent? = some directory)
    (hinside : ¬ (outDirectory.steps = [] ∧ name.isAbsolute = true)) :
    directory.steps <+: (target name (some bundle) outDirectory).steps := by
  by_cases hne : directory.steps = []
  · rw [hne]
    exact List.nil_prefix
  · rw [steps_target hname hdirectory hne hinside]
    exact List.prefix_append _ _

/-- With a bundle, a declaration is written under the directory of the bundle, and what follows
there is its remainder, exactly if the output directory has steps, the directory of the bundle has
none, or the path of the declaration starts with neither the root nor a dot.

The directory of the bundle is left exactly if the output directory is empty and the declaration has
an absolute path that does not lead there anyway: it is written to that path.  A dot at the start is
only lost. -/
theorem target_beside_iff (hname : ".d.ts".toList <:+ name.text.toList)
    (hdirectory : bundle.parent? = some directory) :
    ((target name (some bundle) outDirectory).steps =
        directory.steps ++ remainder name outDirectory ↔
      outDirectory.steps ≠ [] ∨ directory.steps = [] ∨
        name.isAbsolute = false ∧ name.pieces.head? ≠ some ".") ∧
    (directory.steps <+: (target name (some bundle) outDirectory).steps ↔
      outDirectory.steps ≠ [] ∨ name.isAbsolute = false ∨ directory.steps <+: name.steps) ∧
    (outDirectory.steps = [] → name.isAbsolute = true →
      (target name (some bundle) outDirectory).steps = name.steps) ∧
    (outDirectory.steps = [] → directory.steps ≠ [] → name.isAbsolute = false →
      name.pieces.head? = some "." →
      (target name (some bundle) outDirectory).steps = directory.steps ++ name.steps.tail) := by
  obtain ⟨hsteps, hopening⟩ := relative_spec hname outDirectory
  refine ⟨?_, ?_, steps_target_of_isAbsolute hname hdirectory, ?_⟩
  · rw [target_eq_join hdirectory, ← hsteps, Path.steps_join_iff, hopening,
      ← Path.opening_eq_nil_iff]
    by_cases hnil : outDirectory.steps = []
    · rw [if_pos hnil, or_iff_right (not_not.mpr hnil)]
    · rw [if_neg hnil]
      exact iff_of_true (.inr rfl) (.inl hnil)
  · by_cases hinside : outDirectory.steps = [] ∧ name.isAbsolute = true
    · obtain ⟨hnil, habs⟩ := hinside
      rw [steps_target_of_isAbsolute hname hdirectory hnil habs, or_iff_right (not_not.mpr hnil),
        or_iff_right (by rw [habs]; decide)]
    · refine iff_of_true (prefix_steps_target hname hdirectory hinside) ?_
      rw [not_and_or, Bool.not_eq_true] at hinside
      rcases hinside with hnil | habs
      · exact .inl hnil
      · exact .inr (.inl habs)
  · intro hnil hne habs hdot
    have hinside : ¬ (outDirectory.steps = [] ∧ name.isAbsolute = true) := by
      rw [habs]
      exact fun h => absurd h.2 Bool.false_ne_true
    have hhere : name.opening = [.here] := by
      unfold Path.opening
      rw [habs, if_neg Bool.false_ne_true, if_pos hdot]
    rw [steps_target hname hdirectory hne hinside, hopening, if_pos hnil, hhere,
      remainder_of_nil hnil, List.length_singleton, List.drop_one]

/-- A declaration in a directory under the output directory. -/
theorem target_beside_iff_nested :
    (target ⟨"dist/sub/a.d.ts"⟩ (some ⟨"build/index.js"⟩) ⟨"dist"⟩).steps =
      [.name "build", .name "sub", .name "a.d.ts"] :=
  (@target_beside_iff ⟨"dist/sub/a.d.ts"⟩ ⟨"build/index.js"⟩ ⟨"build"⟩ ⟨"dist"⟩ (by decide)
    (by decide)).1.mpr (.inl (by decide))

/-- With an empty output directory, a declaration with an absolute path is not written next to the
bundle. -/
theorem declaration_outside_bundle :
    ".d.ts".toList <:+ (Path.mk "/types/a.d.ts").text.toList ∧
      (Path.mk "bundle/index.js").parent? = some ⟨"bundle"⟩ ∧
      ¬ (Path.mk "bundle").steps <+:
        (target ⟨"/types/a.d.ts"⟩ (some ⟨"bundle/index.js"⟩) ⟨""⟩).steps := by
  decide

end Declaration

end Recompile
