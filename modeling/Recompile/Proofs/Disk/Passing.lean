import Recompile.Proofs.Disk.Reading

/-!
# The directories that a path passes

Following a path needs the directories that it passes (`Path.Passes`) and no others: whatever else
happens to a disk, it can still be followed if these stay (`Disk.Leads.of_passes`).  So removing a
tree leaves what is read through paths that neither pass through it nor end in it
(`Disk.read_prune`).

A path that never leads up passes only what lies above its place (`Path.avoids_of_no_up`), but one
that does may pass through a directory below its place and come back.
-/

namespace Recompile

namespace Path

/-- A location that is passed on the way to the place of a path. -/
def Passes (path : Path) (location : Location) : Prop :=
  ∃ front rest, path.pieces = front ++ rest ∧ rest ≠ [] ∧
    front.foldl follow (if path.isAbsolute then [] else Disk.current) = location

/-- The path does not pass through the entry of that name at its place. -/
def Avoids (path : Path) (name : String) : Prop :=
  ∀ location, path.Passes location → ¬ path.place ++ [name] <+: location

variable {base : Path} {name : String} {location : Location}

/-- A path with a name joined to it passes what the path passes, and its place. -/
lemma passes_join (hname : IsName name) (h : (base.join ⟨name⟩).Passes location) :
    base.Passes location ∨ location = base.place := by
  obtain ⟨front, rest, hpieces, hrest, hlocation⟩ := h
  by_cases hne : base.text = ""
  · -- The name is all there is.
    have hbase : base = ⟨""⟩ := by
      cases base
      exact congrArg Path.mk hne
    subst hbase
    have hjoin : (Path.mk "").join ⟨name⟩ = ⟨name⟩ := by simp [join]
    rw [hjoin, pieces_eq_split, hname.not_isAbsolute, if_neg Bool.false_ne_true,
      split_name hname] at hpieces
    rw [hjoin, hname.not_isAbsolute, if_neg Bool.false_ne_true] at hlocation
    obtain ⟨rfl, -⟩ | ⟨-, rfl⟩ := List.append_eq_singleton_iff.mp hpieces.symm
    · exact .inr (hlocation.symm.trans (by decide))
    · exact absurd rfl hrest
  · obtain ⟨whole, hjoin, hbase, habs⟩ := pieces_join hname hne
    obtain ⟨before, last, rfl⟩ := (List.eq_nil_or_concat rest).resolve_left hrest
    rw [hjoin, List.concat_eq_append, ← List.append_assoc] at hpieces
    rw [habs] at hlocation
    obtain ⟨rfl, -⟩ := List.append_inj' hpieces rfl
    cases before with
    | nil =>
      refine .inr (hlocation.symm.trans ?_)
      rw [List.append_nil] at hbase
      unfold place
      rcases hbase with hbase | hbase
      · rw [hbase]
      · rw [hbase, List.foldl_append]
        rfl
    | cons piece before =>
      refine .inl ?_
      rcases hbase with hbase | hbase
      · exact ⟨front, piece :: before, hbase, List.cons_ne_nil _ _, hlocation⟩
      · exact ⟨front, piece :: before ++ [""], by rw [hbase, List.append_assoc],
          List.cons_ne_nil _ _, hlocation⟩

/-- What a path passes is passed as well if a name is joined to it. -/
lemma Passes.join (hname : IsName name) (h : base.Passes location) :
    (base.join ⟨name⟩).Passes location := by
  obtain ⟨front, rest, hpieces, hrest, hlocation⟩ := h
  by_cases hne : base.text = ""
  · -- Only the current directory is passed.
    have hbase : base = ⟨""⟩ := by
      cases base
      exact congrArg Path.mk hne
    subst hbase
    have hjoin : (Path.mk "").join ⟨name⟩ = ⟨name⟩ := by simp [Path.join]
    have hpiece : (Path.mk "").pieces = [""] := by decide
    rw [hpiece] at hpieces
    obtain ⟨rfl, -⟩ | ⟨-, rfl⟩ := List.append_eq_singleton_iff.mp hpieces.symm
    · refine ⟨[], [name], ?_, List.cons_ne_nil _ _, ?_⟩
      · rw [hjoin, pieces_eq_split, hname.not_isAbsolute, if_neg Bool.false_ne_true,
          split_name hname]
        rfl
      · rw [← hlocation, hjoin, hname.not_isAbsolute]
        rfl
    · exact absurd rfl hrest
  · obtain ⟨whole, hjoin, hbase, habs⟩ := pieces_join hname hne
    rw [← habs] at hlocation
    rcases hbase with hbase | hbase
    · refine ⟨front, rest ++ [name], ?_, ?_, hlocation⟩
      · rw [hjoin, ← hbase, hpieces, List.append_assoc]
      · exact List.append_ne_nil_of_right_ne_nil _ (List.cons_ne_nil _ _)
    · obtain ⟨before, last, rfl⟩ := (List.eq_nil_or_concat rest).resolve_left hrest
      rw [hbase, List.concat_eq_append, ← List.append_assoc] at hpieces
      refine ⟨front, before ++ [name], ?_, ?_, hlocation⟩
      · rw [hjoin, (List.append_inj' hpieces rfl).1, List.append_assoc]
      · exact List.append_ne_nil_of_right_ne_nil _ (List.cons_ne_nil _ _)

/-- Pieces that do not lead up lead down, if anywhere. -/
lemma length_le_foldl_follow {pieces : List String} (h : ".." ∉ pieces) (location : Location) :
    location.length ≤ (pieces.foldl follow location).length := by
  induction pieces generalizing location with
  | nil => exact Nat.le_refl _
  | cons piece rest ih =>
    obtain ⟨hpiece, hrest⟩ := not_or.mp (mt List.mem_cons.mpr h)
    refine Nat.le_trans ?_ (ih hrest (follow location piece))
    unfold follow
    split_ifs with hidle hup
    · exact Nat.le_refl _
    · exact absurd hup.symm hpiece
    · rw [List.length_append]
      exact Nat.le_add_right _ _

/-- A path that does not lead up passes through nothing at its place. -/
theorem avoids_of_no_up {path : Path} (h : ".." ∉ path.pieces) (name : String) :
    path.Avoids name := by
  rintro location ⟨front, rest, hpieces, -, rfl⟩ hprefix
  have hrest : ".." ∉ rest := fun hup =>
    h (by rw [hpieces]; exact List.mem_append_right front hup)
  have hlong := length_le_foldl_follow hrest
    (front.foldl follow (if path.isAbsolute then [] else Disk.current))
  rw [← List.foldl_append, ← hpieces] at hlong
  have hshort := hprefix.length_le
  rw [List.length_append, List.length_singleton] at hshort
  unfold place at hshort
  omega

end Path

namespace Disk

variable {disk after : Disk} {path : Path} {location : Location}

/-- A path that can be followed passes directories. -/
lemma Leads.directory (h : disk.Leads path) (hpasses : path.Passes location) :
    disk.node? location = some .directory := by
  obtain ⟨first, hstart, hfollow⟩ := h
  obtain ⟨front, rest, hpieces, hrest, hlocation⟩ := hpasses
  rw [hpieces, follow_append] at hfollow
  cases hfront : disk.follow first front with
  | error fault => rw [hfront] at hfollow; cases hfollow
  | ok target =>
    have htarget : target = location := by
      rw [eq_of_follow hfront, eq_of_start hstart, hlocation]
    rw [hfront, htarget] at hfollow
    simp only [Except.bind] at hfollow
    cases rest with
    | nil => exact absurd rfl hrest
    | cons piece rest =>
      rw [follow] at hfollow
      split at hfollow
      · cases hfollow
      · cases hfollow
      · assumption

/-- A path can still be followed if the directories that it passes stay. -/
lemma Leads.of_passes (h : disk.Leads path)
    (hkeeps : ∀ location, path.Passes location → disk.node? location = some .directory →
      after.node? location = some .directory) : after.Leads path := by
  obtain ⟨first, hstart, hfollow⟩ := h
  refine ⟨first, hstart, follow_mono hfollow fun front rest hpieces hrest => ?_⟩
  exact hkeeps _ ⟨front, rest, hpieces, hrest, by rw [eq_of_start hstart]⟩

/-- Removing a tree leaves what is read through a path that stays out of it. -/
theorem read_prune {content : Bytes} (h : disk.read path = .ok content)
    (hpasses : ∀ passed, path.Passes passed → ¬ location <+: passed)
    (hplace : ¬ location <+: path.place) : (disk.prune location).read path = .ok content := by
  obtain ⟨hleads, hcontent⟩ := read_eq_ok.mp h
  have hnode : ∀ other, ¬ location <+: other →
      (disk.prune location).node? other = disk.node? other := by
    intro other hother
    rw [node?_prune, if_neg hother]
    unfold node?
    split_ifs <;> rfl
  refine read_eq_ok.mpr ⟨hleads.of_passes fun passed hpassed hdirectory => ?_, ?_⟩
  · rw [hnode passed (hpasses passed hpassed)]
    exact hdirectory
  · unfold content? at hcontent ⊢
    rw [hnode _ hplace]
    exact hcontent

end Disk

end Recompile
