import Recompile.Manifest
import Recompile.Proofs.Json.ReadBack
import Recompile.Proofs.Storage.Archive

/-!
# Reading manifests back

A type has a lawful JSON form (`LawfulShape`) if what is written has only integers and texts and is
accepted as the value that was written.  Manifests have one, and so the document of a manifest
describes that manifest (`Manifest.ofDocument?_document`).

Whether a manifest can be saved in a directory is up to the disk alone, and what is loaded after
that is the manifest that was saved (`Manifest.load_save`).
-/

namespace Recompile

/-- A type whose written form is plain and is accepted as what was written. -/
class LawfulShape (α : Type) [JsonShape α] : Prop where
  /-- The written form has integers and texts only. -/
  plain : ∀ a : α, (toJson a).Plain
  /-- It is accepted as what was written. -/
  ofJson?_toJson : ∀ a : α, ofJson? (toJson a) = some a

export LawfulShape (plain ofJson?_toJson)

namespace LawfulShape

/-! ### Plain values -/

instance : LawfulShape String where
  plain _ := trivial
  ofJson?_toJson _ := rfl

instance : LawfulShape ModuleId where
  plain _ := trivial
  ofJson?_toJson _ := rfl

instance : LawfulShape UInt8 where
  plain _ := trivial
  ofJson?_toJson n := by
    have hlt := n.toNat_lt
    have hread : ofJson? (toJson n) = if n.toNat < 256 then some (UInt8.ofNat n.toNat) else none :=
      rfl
    rw [hread, if_pos hlt, UInt8.ofNat_toNat]

instance : LawfulShape UInt32 where
  plain _ := trivial
  ofJson?_toJson n := by
    have hlt := n.toNat_lt
    have hread : ofJson? (toJson n) =
        if n.toNat < 4294967296 then some (UInt32.ofNat n.toNat) else none := rfl
    rw [hread, if_pos hlt, UInt32.ofNat_toNat]

instance : LawfulShape UInt64 where
  plain _ := trivial
  ofJson?_toJson n := by
    have hlt := n.toNat_lt
    have hread : ofJson? (toJson n) =
        if n.toNat < 18446744073709551616 then some (UInt64.ofNat n.toNat) else none := rfl
    rw [hread, if_pos hlt, UInt64.ofNat_toNat]

/-! ### Collections -/

section

variable {α : Type} [JsonShape α] [LawfulShape α]

/-- The items of a list are plain. -/
lemma plainItems_map (items : List α) : Json.PlainItems (items.map toJson) := by
  induction items with
  | nil => trivial
  | cons item items ih => exact ⟨plain item, ih⟩

/-- The items of a list are accepted one by one. -/
lemma mapM_map_toJson (items : List α) : (items.map toJson).mapM ofJson? = some items := by
  induction items with
  | nil => rfl
  | cons item items ih =>
    rw [List.map_cons, List.mapM_cons, ofJson?_toJson, ih]
    rfl

instance : LawfulShape (List α) where
  plain := plainItems_map
  ofJson?_toJson := mapM_map_toJson

omit [LawfulShape α] in
/-- What is not `null` is accepted as a value that is there. -/
lemma ofJson?_some {json : Json} (h : json ≠ .null) :
    ofJson? json = (ofJson? json : Option α).map some := by
  cases json with
  | null => exact absurd rfl h
  | _ => rfl

/-- A value that may be absent has a lawful form, if it is never written as `null`. -/
lemma of_ne_null (h : ∀ a : α, toJson a ≠ .null) : LawfulShape (Option α) where
  plain := by
    rintro (_ | a)
    · trivial
    · exact plain a
  ofJson?_toJson := by
    rintro (_ | a)
    · rfl
    · have hform : toJson (some a) = toJson a := rfl
      rw [hform, ofJson?_some (h a), ofJson?_toJson, Option.map_some]

end

/-! ### Structures -/

instance : LawfulShape Digest where
  plain digest := plain digest.bytes
  ofJson?_toJson digest := by
    have hread : ofJson? (toJson digest) = (ofJson? (toJson digest.bytes)).bind Digest.ofList? :=
      rfl
    rw [hread, ofJson?_toJson, Option.bind_some, Digest.ofList?, dif_pos digest.length_bytes]

instance : LawfulShape (Option Digest) :=
  of_ne_null fun _ h => by cases h

instance : LawfulShape (Option String) :=
  of_ne_null fun _ h => by cases h

instance : LawfulShape Edge where
  plain _ := ⟨⟨rfl, trivial⟩, ⟨rfl, trivial⟩, trivial⟩
  ofJson?_toJson _ := rfl

instance : LawfulShape FileState where
  plain state := ⟨⟨rfl, plain state.content⟩, ⟨rfl, plain state.generation⟩,
    ⟨rfl, plain state.codeKey⟩, ⟨rfl, plain state.diagnosticsKey⟩, trivial⟩
  ofJson?_toJson state := by
    have hread : ofJson? (toJson state) =
        (ofJson? (toJson state.content)).bind fun content =>
        (ofJson? (toJson state.generation)).bind fun generation =>
        (ofJson? (toJson state.codeKey)).bind fun codeKey =>
        (ofJson? (toJson state.diagnosticsKey)).bind fun diagnosticsKey =>
          some (FileState.mk content generation codeKey diagnosticsKey) := rfl
    rw [hread, ofJson?_toJson, ofJson?_toJson, ofJson?_toJson, ofJson?_toJson]
    rfl

/-! ### The states of modules -/

/-- The states that were written are inserted one by one. -/
lemma foldlM_members (entries : List (ModuleId × FileState))
    (files : Std.ExtTreeMap ModuleId FileState) :
    (entries.map fun entry => (some entry.1.text, toJson entry.2)).foldlM
        (fun files (member : Option String × Json) => do
          return files.insert ⟨← member.1⟩ (← ofJson? member.2)) files =
      some (entries.foldl (fun files entry => files.insert entry.1 entry.2) files) := by
  induction entries generalizing files with
  | nil => rfl
  | cons entry entries ih =>
    rw [List.map_cons, List.foldlM_cons, List.foldl_cons, ofJson?_toJson]
    exact ih _

/-- Inserting the entries of a map one by one gives the map. -/
lemma foldl_toList (files : Std.ExtTreeMap ModuleId FileState) :
    files.toList.foldl (fun map entry => map.insert entry.1 entry.2) ∅ = files := by
  rw [← Std.ExtTreeMap.insertMany_list_eq_foldl]
  refine Std.ExtTreeMap.ext_getElem? fun id => ?_
  cases hstate : files[id]? with
  | some state =>
    exact Std.ExtTreeMap.getElem?_insertMany_list_of_mem Std.ReflCmp.compare_self
      Std.ExtTreeMap.distinct_keys_toList
      (Std.ExtTreeMap.mem_toList_iff_getElem?_eq_some.mpr hstate)
  | none =>
    have habsent : (files.toList.map Prod.fst).contains id = false := by
      rw [List.contains_eq_mem, decide_eq_false_iff_not, List.mem_map]
      rintro ⟨⟨other, state⟩, hmem, rfl⟩
      rw [Std.ExtTreeMap.mem_toList_iff_getElem?_eq_some.mp hmem] at hstate
      cases hstate
    rw [Std.ExtTreeMap.getElem?_insertMany_list_of_contains_eq_false habsent,
      Std.ExtTreeMap.getElem?_empty]

instance : LawfulShape (Std.ExtTreeMap ModuleId FileState) where
  plain files := by
    have hform : toJson files =
        .object (files.toList.map fun entry => (some entry.1.text, toJson entry.2)) := rfl
    rw [hform]
    show Json.PlainMembers _
    induction files.toList with
    | nil => trivial
    | cons entry entries ih => exact ⟨⟨rfl, plain entry.2⟩, ih⟩
  ofJson?_toJson files := by
    have hread : ofJson? (toJson files) = Manifest.filesOfMembers
        (files.toList.map fun entry => (some entry.1.text, toJson entry.2)) := rfl
    rw [hread, Manifest.filesOfMembers, foldlM_members, foldl_toList]

instance : LawfulShape Manifest where
  plain manifest := ⟨⟨rfl, plain manifest.format⟩, ⟨rfl, plain manifest.tool⟩,
    ⟨rfl, plain manifest.config⟩, ⟨rfl, plain manifest.files⟩, ⟨rfl, plain manifest.edges⟩, trivial⟩
  ofJson?_toJson manifest := by
    have hread : ofJson? (toJson manifest) =
        (ofJson? (toJson manifest.format)).bind fun format =>
        (ofJson? (toJson manifest.tool)).bind fun tool =>
        (ofJson? (toJson manifest.config)).bind fun config =>
        (ofJson? (toJson manifest.files)).bind fun files =>
        (ofJson? (toJson manifest.edges)).bind fun edges =>
          some (Manifest.mk format tool config files edges) := rfl
    rw [hread, ofJson?_toJson, ofJson?_toJson, ofJson?_toJson, ofJson?_toJson, ofJson?_toJson]
    rfl

end LawfulShape

namespace Manifest

/-- The document of a manifest describes that manifest. -/
theorem ofDocument?_document (manifest : Manifest) :
    ofDocument? manifest.document = some manifest := by
  unfold ofDocument? document
  rw [Json.read?_pretty (plain manifest)]
  exact ofJson?_toJson manifest

/-! ### Files -/

/-- The manifest that the content of a file describes. -/
def ofContent? (content : Bytes) : Option Manifest :=
  Bytes.text? content >>= ofDocument?

/-- What is written to the file of a manifest describes that manifest. -/
theorem ofContent?_saving (manifest : Manifest) (directory : Path) :
    ofContent? (manifest.saving directory).content = some manifest := by
  unfold ofContent? saving
  simp only [Bytes.text?_ofText, Option.bind_eq_bind, Option.bind_some, ofDocument?_document]

/-- A manifest that is loaded is described by the content at its place. -/
theorem content?_of_load {disk : Disk} {directory : Path} {manifest : Manifest}
    (h : load disk directory = .ok (some manifest)) :
    ∃ content, disk.content? (directory.join fileName).place = some content ∧
      ofContent? content = some manifest := by
  unfold load at h
  simp only at h
  split at h
  · split_ifs at h
    cases h
  · rename_i text hread
    obtain ⟨content, hcontent, htext⟩ := Disk.content?_of_readText hread
    refine ⟨content, hcontent, ?_⟩
    unfold ofContent?
    rw [htext, Option.bind_eq_bind, Option.bind_some]
    split at h
    · rename_i found hfound
      rw [hfound, Option.some.inj (Except.ok.inj h)]
    · cases h

/-- A manifest that was saved is loaded. -/
theorem load_of_save {manifest : Manifest} {disk left : Disk} {directory : Path}
    (h : manifest.save disk directory = (.ok (), left)) :
    load left directory = .ok (some manifest) := by
  unfold save at h
  have hread := Write.read_of_run h
  simp only [saving] at hread
  unfold load Disk.readText
  simp only [hread, bind, Except.bind, Bytes.text?_ofText, pure, Except.pure,
    ofDocument?_document]

/-- Whether a manifest can be saved does not depend on the manifest. -/
lemma isOk_save {manifest : Manifest} {disk : Disk} {directory : Path}
    (h : (manifest.save disk directory).1.isOk) (other : Manifest) :
    (other.save disk directory).1.isOk := by
  unfold save saving at h ⊢
  exact Write.isOk_run h (Bytes.ofText other.document)

/-- If any manifest at all can be saved in a directory, then every manifest can, and loading gives
exactly that manifest. -/
theorem load_save {saved : Manifest} {disk : Disk} {directory : Path}
    (h : (saved.save disk directory).1 = .ok ()) (manifest : Manifest) :
    ∃ left, manifest.save disk directory = (.ok (), left) ∧
      load left directory = .ok (some manifest) := by
  have hok := isOk_save (by rw [h]; rfl) manifest
  cases hsave : manifest.save disk directory with
  | mk result left =>
    rw [hsave] at hok
    cases result with
    | error error => cases hok
    | ok done => exact ⟨left, rfl, load_of_save hsave⟩

/-- A manifest whose texts have to be escaped, with the largest generation, states without some of
their fields, and an edge that is listed twice. -/
def escaped : Manifest :=
  { format := 4294967295, tool := "5.4 \"\\\t\x01\x7f\u2028", config := .zero
    files := (∅ : Std.ExtTreeMap ModuleId FileState).insertMany
      [(⟨"a\\\"b\n.ts"⟩, ⟨none, 18446744073709551615, some "k\"", none⟩),
        (⟨"é😀\x00"⟩, ⟨some .zero, 0, none, some ""⟩), (⟨""⟩, .unknown)]
    edges := [⟨⟨"b\\"⟩, ⟨"\r"⟩⟩, ⟨⟨""⟩, ⟨"é"⟩⟩, ⟨⟨"b\\"⟩, ⟨"\r"⟩⟩] }

theorem load_save_escaped :
    (escaped.save .empty ⟨"cache"⟩).1 = .ok () ∧
    ∃ left, escaped.save .empty ⟨"cache"⟩ = (.ok (), left) ∧
      load left ⟨"cache"⟩ = .ok (some escaped) := by
  have hsave : (escaped.save .empty ⟨"cache"⟩).1 = .ok () := by decide +kernel
  exact ⟨hsave, load_save hsave escaped⟩

end Manifest

end Recompile
