import Mathlib.Data.List.Pairwise
import Recompile.Proofs.Cache.Texts

/-!
# What versions tell

Texts come to a table of snapshots one after the other: the host hands them in, or they are read
from the disk, which may fail (`SnapshotTable.History`).  Whatever happens to other modules in
between, what is answered for a module depends on its text before alone (`Submission.Follows`): the
first version is 1, the same text gives the same snapshot again, and any other text gives the next
version, also if the module has had it before.

So the versions of a module never decrease, and they stay the same only as long as the text does.  A
version identifies a text, also among snapshots that were given out long ago
(`SnapshotTable.version_identifies_text`).
-/

namespace Recompile

/-- A text that came to a table, and what the table answered. -/
structure Submission where
  /-- The module. -/
  id : ModuleId
  /-- The text. -/
  text : String
  /-- The answer. -/
  update : SnapshotTable.Update

namespace Submission

/-- The snapshot that was given for the text. -/
def snapshot (submission : Submission) : Snapshot :=
  submission.update.snapshot

/-- The version of that snapshot. -/
def version (submission : Submission) : Nat :=
  submission.snapshot.version

/-- The text was answered as it should be after what came before it for the same module, if
anything did. -/
inductive Follows : Option Submission → Submission → Prop where
  /-- The first text of a module has version 1. -/
  | first {submission : Submission} (hversion : submission.version = 1)
    (hchange : submission.update.change = .created) : Follows none submission
  /-- The same text has the same snapshot. -/
  | same {previous submission : Submission} (htext : submission.text = previous.text)
    (hsnapshot : submission.snapshot = previous.snapshot)
    (hchange : submission.update.change = .unchanged) : Follows (some previous) submission
  /-- Another text has the next version, and the answer names the digest of the text before. -/
  | other {previous submission : Submission} (htext : submission.text ≠ previous.text)
    (hversion : submission.version = previous.version + 1)
    (hchange : submission.update.change = .replaced (.ofText previous.text)) :
    Follows (some previous) submission

/-- The later of two submissions has the greater version, unless both have the same snapshot. -/
def Grows (earlier later : Submission) : Prop :=
  earlier.version ≤ later.version ∧
    (earlier.version = later.version → earlier.snapshot = later.snapshot)

/-- A text right after another one has the next version or the same snapshot. -/
lemma Follows.grows {previous submission : Submission} (h : Follows (some previous) submission) :
    previous.Grows submission := by
  cases h with
  | same htext hsnapshot hchange =>
    have hversion : previous.version = submission.version := by
      unfold version
      rw [hsnapshot]
    exact ⟨hversion.le, fun _ => hsnapshot.symm⟩
  | other htext hversion hchange =>
    refine ⟨by omega, fun heq => ?_⟩
    omega

/-- Versions go on growing. -/
lemma Grows.trans {first second third : Submission} (h : first.Grows second)
    (h' : second.Grows third) : first.Grows third := by
  refine ⟨h.1.trans h'.1, fun heq => ?_⟩
  have hfirst : first.version = second.version := le_antisymm h.1 (heq ▸ h'.1)
  have hsecond : second.version = third.version := hfirst.symm.trans heq
  exact (h.2 hfirst).trans (h'.2 hsecond)

/-- The submissions of one module. -/
def of (history : List Submission) (id : ModuleId) : List Submission :=
  history.filter fun submission => submission.id = id

/-- After a further submission. -/
lemma of_concat (history : List Submission) (submission : Submission) (id : ModuleId) :
    of (history ++ [submission]) id =
      if submission.id = id then of history id ++ [submission] else of history id := by
  unfold of
  rw [List.filter_append, List.filter_singleton]
  split_ifs with h
  · rw [decide_eq_true h, cond_true]
  · rw [decide_eq_false h, cond_false, List.append_nil]

/-- The submissions of one module, all answered as they should be, and its current snapshot. -/
structure Orderly (id : ModuleId) (own : List Submission) (current : Option Snapshot) : Prop where
  /-- The current snapshot is the last one. -/
  current : current = own.getLast?.map snapshot
  /-- Each answer is right after the one before. -/
  follows : ∀ front submission rest, own = front ++ submission :: rest →
    Follows front.getLast? submission
  /-- Each snapshot has the text that came. -/
  tells : ∀ submission ∈ own,
    submission.snapshot.id = id ∧ submission.snapshot.text = submission.text
  /-- Versions grow. -/
  grows : own.Pairwise Grows
  /-- No version is greater than the number of submissions. -/
  version_le : ∀ submission ∈ own, submission.version ≤ own.length

namespace Orderly

variable {id : ModuleId} {own : List Submission} {current : Option Snapshot}

/-- A module without submissions. -/
lemma nil (id : ModuleId) : Orderly id [] none where
  current := rfl
  follows := fun _ _ _ h => by simp at h
  tells := fun _ h => absurd h List.not_mem_nil
  grows := .nil
  version_le := fun _ h => absurd h List.not_mem_nil

/-- Any submission has a smaller version than a further one, or the same snapshot. -/
lemma grows_of_follows (h : Orderly id own current) {submission : Submission}
    (hfollows : Follows own.getLast? submission) :
    ∀ earlier ∈ own, earlier.Grows submission := by
  intro earlier hearlier
  rcases List.eq_nil_or_concat' own with rfl | ⟨front, last, rfl⟩
  · exact absurd hearlier List.not_mem_nil
  rw [List.getLast?_concat] at hfollows
  rcases List.mem_append.mp hearlier with hfront | hlast
  · have hbetween := (List.pairwise_append.mp h.grows).2.2 earlier hfront last
      (List.mem_singleton_self last)
    exact hbetween.trans hfollows.grows
  · rw [List.mem_singleton.mp hlast]
    exact hfollows.grows

/-- A further submission of the module. -/
lemma concat (h : Orderly id own current) {submission : Submission}
    (hfollows : Follows own.getLast? submission) (hid : submission.snapshot.id = id)
    (htext : submission.snapshot.text = submission.text) :
    Orderly id (own ++ [submission]) (some submission.snapshot) where
  current := by rw [List.getLast?_concat, Option.map_some]
  follows := by
    intro front middle rest heq
    rcases List.eq_nil_or_concat' rest with rfl | ⟨others, last, rfl⟩
    · obtain ⟨rfl, hmiddle⟩ := List.append_inj' heq rfl
      rw [← List.singleton_inj.mp hmiddle]
      exact hfollows
    · rw [← List.cons_append, ← List.append_assoc] at heq
      exact h.follows front middle others (List.append_inj' heq rfl).1
  tells := by
    intro other hother
    rcases List.mem_append.mp hother with hown | hlast
    · exact h.tells other hown
    · rw [List.mem_singleton.mp hlast]
      exact ⟨hid, htext⟩
  grows := by
    refine List.pairwise_append.mpr ⟨h.grows, List.pairwise_singleton _ _, ?_⟩
    intro earlier hearlier later hlater
    rw [List.mem_singleton.mp hlater]
    exact h.grows_of_follows hfollows earlier hearlier
  version_le := by
    intro other hother
    rw [List.length_append, List.length_singleton]
    rcases List.mem_append.mp hother with hown | hlast
    · exact (h.version_le other hown).trans (Nat.le_succ _)
    · rw [List.mem_singleton.mp hlast]
      rcases List.eq_nil_or_concat' own with rfl | ⟨front, last, rfl⟩
      · cases hfollows with
        | first hversion hchange => exact hversion.le
      · have hversion := h.version_le last (List.mem_append_right _ (List.mem_singleton_self last))
        rw [List.getLast?_concat] at hfollows
        cases hfollows with
        | same htext hsnapshot hchange =>
          unfold version at hversion ⊢
          rw [hsnapshot]
          exact hversion.trans (Nat.le_succ _)
        | other htext hnext hchange => omega

end Orderly

end Submission

namespace SnapshotTable

open Submission

/-- The texts that came to a table since it was empty, and the table. -/
inductive History : List Submission → SnapshotTable → Prop where
  /-- Nothing came. -/
  | empty : History [] .empty
  /-- A text is handed in. -/
  | submit {history : List Submission} {table : SnapshotTable} (h : History history table)
    (id : ModuleId) (text : String) :
    History (history ++ [⟨id, text, (table.submit id text).1⟩]) (table.submit id text).2
  /-- A file is read. -/
  | read {history : List Submission} {table after : SnapshotTable} {update : Update} {disk : Disk}
    {path : Path} {text : String} (h : History history table)
    (htext : disk.readText path = .ok text)
    (hread : table.submitFile disk path = .ok (update, after)) :
    History (history ++ [⟨.ofPath path.text, text, update⟩]) after
  /-- A file cannot be read. -/
  | fail {history : List Submission} {table : SnapshotTable} {disk : Disk} {path : Path}
    {fault : Disk.Fault} (h : History history table)
    (hread : table.submitFile disk path = .error fault) : History history table

variable {history : List Submission} {table : SnapshotTable}

/-- What is answered for a text depends on the current snapshot of the module. -/
lemma follows_submit {id : ModuleId} {previous : Option Submission}
    (hcurrent : table.get? id = previous.map snapshot)
    (htext : ∀ submission ∈ previous, submission.snapshot.text = submission.text) (text : String) :
    Follows previous ⟨id, text, (table.submit id text).1⟩ := by
  unfold submit
  cases previous with
  | none =>
    rw [hcurrent, Option.map_none]
    exact .first rfl rfl
  | some last =>
    have hlast : last.snapshot.text = last.text := htext last rfl
    rw [hcurrent, Option.map_some]
    simp only
    split_ifs with hsame
    · exact .same (hsame.symm.trans hlast) rfl rfl
    · refine .other (fun heq => hsame (hlast.trans heq.symm)) rfl ?_
      rw [← hlast]
      rfl

/-- Handing in the text of a module. -/
lemma orderly_submit (hnamed : table.Named)
    (h : ∀ id, Orderly id (of history id) (table.get? id)) (id : ModuleId) (text : String)
    (other : ModuleId) :
    Orderly other (of (history ++ [⟨id, text, (table.submit id text).1⟩]) other)
      ((table.submit id text).2.get? other) := by
  rw [of_concat]
  by_cases hother : id = other
  · subst hother
    have hfollows : Follows (of history id).getLast? ⟨id, text, (table.submit id text).1⟩ :=
      follows_submit (h id).current
        (fun submission hlast => ((h id).tells submission (List.mem_of_getLast? hlast)).2) text
    rw [if_pos rfl, (table.get?_submit id text).1]
    exact (h id).concat hfollows (hnamed.id_submit id text) (table.get?_submit id text).2
  · rw [if_neg hother, table.get?_submit_of_ne (Ne.symm hother)]
    exact h other

/-- Reading a file that can be read is handing in its text. -/
lemma submitFile_eq_ok {after : SnapshotTable} {update : Update} {disk : Disk} {path : Path}
    {text : String} (htext : disk.readText path = .ok text)
    (hread : table.submitFile disk path = .ok (update, after)) :
    (update, after) = table.submit (.ofPath path.text) text := by
  unfold submitFile at hread
  rw [htext] at hread
  exact (Except.ok.inj hread).symm

/-- All that came to a table was answered as it should be. -/
lemma History.orderly (h : History history table) :
    table.Named ∧ ∀ id, Orderly id (of history id) (table.get? id) := by
  induction h with
  | empty =>
    refine ⟨named_empty, fun id => ?_⟩
    have hnone : SnapshotTable.empty.get? id = none := by simp [get?, SnapshotTable.empty]
    rw [hnone]
    exact .nil id
  | submit _ id text ih => exact ⟨ih.1.submit id text, orderly_submit ih.1 ih.2 id text⟩
  | read _ htext hread ih =>
    obtain ⟨rfl, rfl⟩ := Prod.mk.inj (submitFile_eq_ok htext hread)
    exact ⟨ih.1.submit _ _, orderly_submit ih.1 ih.2 _ _⟩
  | fail _ _ ih => exact ih

/-- Each snapshot that is given for a text of a module is about this module, has this text, and has
its digest as fingerprint; its version does not exceed the number of texts that came for the module.
The first version of a module is 1; after that the snapshot stays identical as long as the text
does, and any other text gives the next version and is answered with the digest of the text that it
replaces.  Two snapshots of one module with the same version are the same.  The current snapshot of
a module is the one that was given last for it, whatever came for other modules and however many
files could not be read. -/
theorem version_identifies_text (h : History history table) (id : ModuleId) :
    (∀ submission ∈ of history id, submission.snapshot.id = id ∧
      submission.snapshot.text = submission.text ∧
      submission.snapshot.fingerprint = .ofText submission.text ∧
      submission.version ≤ (of history id).length) ∧
    (∀ front submission rest, of history id = front ++ submission :: rest →
      Follows front.getLast? submission) ∧
    (∀ first ∈ of history id, ∀ second ∈ of history id, first.version = second.version →
      first.snapshot = second.snapshot) ∧
    table.get? id = (of history id).getLast?.map snapshot := by
  have horderly := h.orderly.2 id
  refine ⟨fun submission hmem => ?_, horderly.follows, ?_, horderly.current⟩
  · obtain ⟨hid, htext⟩ := horderly.tells submission hmem
    refine ⟨hid, htext, ?_, horderly.version_le submission hmem⟩
    unfold Snapshot.fingerprint
    rw [htext]
  · have hsame := horderly.grows.imp And.right
    have : Std.Symm fun first second : Submission =>
        first.version = second.version → first.snapshot = second.snapshot :=
      ⟨fun _ _ h heq => (h heq.symm).symm⟩
    exact fun first hfirst second hsecond =>
      hsame.forall_of_forall (fun _ _ _ => rfl) hfirst hsecond

/-- A text that comes back has a version of its own. -/
theorem version_identifies_text_reverted :
    ∃ history table, History history table ∧
      (of history ⟨"a.ts"⟩).map Submission.text = ["one", "two", "one"] ∧
      (of history ⟨"a.ts"⟩).map version = [1, 2, 3] ∧
      table.get? ⟨"a.ts"⟩ = (of history ⟨"a.ts"⟩).getLast?.map snapshot := by
  have hfail : ∀ table : SnapshotTable,
      table.submitFile Disk.empty ⟨"a.ts"⟩ = .error Disk.missing := fun _ => rfl
  have h := ((((History.empty.submit ⟨"a.ts"⟩ "one").submit ⟨"b.ts"⟩ "").fail (hfail _)).submit
    ⟨"a.ts"⟩ "two").submit ⟨"a.ts"⟩ "one"
  exact ⟨_, _, h, by decide, by decide +kernel, (version_identifies_text h ⟨"a.ts"⟩).2.2.2⟩

end SnapshotTable

end Recompile
