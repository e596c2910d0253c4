import Mathlib.Data.List.Permutation
import Recompile.Session.Compiler

/-!
# What is kept of an emission

An emission usually holds one file with code and perhaps the map of the code, a declaration and the
map of the declaration (`Emission.Usual`).  The files may come in any order.  Code and declaration
are found wherever they stand, because no other of these files ends as they do.

The two maps end alike, and the first of them is taken for the map of the code.  That is right as
long as the map of the code stands first, and wrong otherwise: a declaration map that stands first,
or stands alone, becomes the source map of the code (`Emission.declaration_map_taken`).  So what is
kept is the code with its own map exactly if that one stands first, or both maps happen to read the
same (`Emission.map_is_own_iff`).
-/

namespace Recompile

namespace OutputFile

variable {file : OutputFile}

/-! ### Endings -/

/-- The name of a file ends in a text. -/
lemma endsWith_iff {ending : String} :
    file.endsWith ending = true ↔ ending.toList <:+ file.name.toList := by
  unfold endsWith
  exact List.isSuffixOf_iff_suffix

/-- A name has only one of two endings, unless one of them is an ending of the other. -/
lemma endsWith_eq_false {ending other : String} (h : file.endsWith ending = true)
    (hleft : ¬ ending.toList <:+ other.toList) (hright : ¬ other.toList <:+ ending.toList) :
    file.endsWith other = false := by
  rw [Bool.eq_false_iff]
  intro hother
  rcases List.suffix_or_suffix_of_suffix (endsWith_iff.mp h) (endsWith_iff.mp hother) with hs | hs
  · exact hleft hs
  · exact hright hs

/-- Code is neither a map nor a declaration. -/
lemma not_others_of_isCode (h : file.isCode = true) :
    file.isMap = false ∧ file.isDeclaration = false := by
  unfold isCode at h
  rcases Bool.or_eq_true_iff.mp h with hcode | hcode
  · exact ⟨endsWith_eq_false hcode (by decide) (by decide),
      endsWith_eq_false hcode (by decide) (by decide)⟩
  · exact ⟨endsWith_eq_false hcode (by decide) (by decide),
      endsWith_eq_false hcode (by decide) (by decide)⟩

/-- A map is neither code nor a declaration. -/
lemma not_others_of_isMap (h : file.isMap = true) :
    file.isCode = false ∧ file.isDeclaration = false := by
  unfold isMap at h
  refine ⟨Bool.or_eq_false_iff.mpr ⟨?_, ?_⟩, ?_⟩ <;>
    exact endsWith_eq_false h (by decide) (by decide)

/-- A declaration is neither code nor a map. -/
lemma not_others_of_isDeclaration (h : file.isDeclaration = true) :
    file.isCode = false ∧ file.isMap = false := by
  unfold isDeclaration at h
  refine ⟨Bool.or_eq_false_iff.mpr ⟨?_, ?_⟩, ?_⟩ <;>
    exact endsWith_eq_false h (by decide) (by decide)

/-- The map that a file holds; a missing or unreadable one maps nothing. -/
def reading (file : Option OutputFile) : SourceMap :=
  (file.bind fun file => SourceMap.ofText? file.text).getD .empty

end OutputFile

namespace Emission

open OutputFile

variable {emission : Emission} {code : OutputFile}
  {codeMap declaration declarationMap : Option OutputFile}

/-- An emission that was not skipped and holds one file with code, at most one map of it, at most
one declaration, at most one map of a declaration, and no other files, in any order. -/
structure Usual (emission : Emission) (code : OutputFile)
    (codeMap declaration declarationMap : Option OutputFile) : Prop where
  /-- The emission can be used. -/
  used : emission.skipped = false
  /-- These are the files. -/
  files : emission.files.Perm
    (code :: (codeMap.toList ++ declaration.toList ++ declarationMap.toList))
  /-- The first one is code. -/
  isCode : code.isCode = true
  /-- Its map has its name with a further ending. -/
  name_codeMap : ∀ file ∈ codeMap, file.name = code.name ++ ".map"
  /-- The declaration ends as declarations do. -/
  isDeclaration : ∀ file ∈ declaration, file.isDeclaration = true
  /-- The map of a declaration has its ending and that of maps. -/
  ends_declarationMap : ∀ file ∈ declarationMap, file.endsWith ".d.ts.map" = true

/-- If there is a declaration map, then there is a map of the code, which stands before it. -/
def CodeMapFirst (emission : Emission) (codeMap declarationMap : Option OutputFile) : Prop :=
  ∀ other ∈ declarationMap, ∃ own ∈ codeMap, [own, other].Sublist emission.files

namespace Usual

/-! ### Which file is which -/

/-- The map of the code is a map. -/
lemma isMap_codeMap (h : emission.Usual code codeMap declaration declarationMap) :
    ∀ file ∈ codeMap, file.isMap = true := by
  intro file hfile
  unfold isMap
  rw [endsWith_iff, h.name_codeMap file hfile, String.toList_append]
  exact List.suffix_append _ _

/-- A declaration map is a map. -/
lemma isMap_declarationMap (h : emission.Usual code codeMap declaration declarationMap) :
    ∀ file ∈ declarationMap, file.isMap = true := by
  intro file hfile
  have hends := endsWith_iff.mp (h.ends_declarationMap file hfile)
  have hmap : ".map".toList <:+ ".d.ts.map".toList := by decide
  exact endsWith_iff.mpr (hmap.trans hends)

/-- Files of one kind among optional ones. -/
lemma filter_toList {kind : OutputFile → Bool} {file : Option OutputFile} (value : Bool)
    (h : ∀ f ∈ file, kind f = value) :
    file.toList.filter kind = if value then file.toList else [] := by
  cases file with
  | none => cases value <;> rfl
  | some f => cases value <;> simp [h f rfl]

/-- The only code is the code. -/
lemma filter_isCode (h : emission.Usual code codeMap declaration declarationMap) :
    emission.files.filter OutputFile.isCode = [code] := by
  have hperm := h.files.filter OutputFile.isCode
  rw [List.filter_cons_of_pos h.isCode, List.filter_append, List.filter_append,
    filter_toList false fun f hf => (not_others_of_isMap (h.isMap_codeMap f hf)).1,
    filter_toList false fun f hf => (not_others_of_isDeclaration (h.isDeclaration f hf)).1,
    filter_toList false fun f hf => (not_others_of_isMap (h.isMap_declarationMap f hf)).1] at hperm
  exact List.perm_singleton.mp hperm

/-- The only declaration is the declaration. -/
lemma filter_isDeclaration (h : emission.Usual code codeMap declaration declarationMap) :
    emission.files.filter OutputFile.isDeclaration = declaration.toList := by
  have hcode := (not_others_of_isCode h.isCode).2
  have hperm := h.files.filter OutputFile.isDeclaration
  rw [List.filter_cons_of_neg (by rw [hcode]; exact Bool.false_ne_true), List.filter_append,
    List.filter_append,
    filter_toList false fun f hf => (not_others_of_isMap (h.isMap_codeMap f hf)).2,
    filter_toList true h.isDeclaration,
    filter_toList false fun f hf => (not_others_of_isMap (h.isMap_declarationMap f hf)).2] at hperm
  cases declaration with
  | none => exact hperm.eq_nil
  | some f => exact List.perm_singleton.mp hperm

/-- The maps are the two maps, in some order. -/
lemma filter_isMap (h : emission.Usual code codeMap declaration declarationMap) :
    (emission.files.filter OutputFile.isMap).Perm (codeMap.toList ++ declarationMap.toList) := by
  have hcode := (not_others_of_isCode h.isCode).1
  have hperm := h.files.filter OutputFile.isMap
  rw [List.filter_cons_of_neg (by rw [hcode]; exact Bool.false_ne_true), List.filter_append,
    List.filter_append, filter_toList true h.isMap_codeMap,
    filter_toList false fun f hf => (not_others_of_isDeclaration (h.isDeclaration f hf)).2,
    filter_toList true h.isMap_declarationMap] at hperm
  simpa using hperm

/-! ### Which map is found -/

/-- The map of the code is the first map, if it stands before the declaration map. -/
lemma find?_of_first (h : emission.Usual code codeMap declaration declarationMap)
    (hfirst : emission.CodeMapFirst codeMap declarationMap) :
    emission.files.find? OutputFile.isMap = codeMap := by
  have hmaps := h.filter_isMap
  rw [← List.head?_filter]
  cases declarationMap with
  | none =>
    cases codeMap with
    | none => rw [List.Perm.eq_nil hmaps, List.head?_nil]
    | some own => rw [List.perm_singleton.mp hmaps, List.head?_cons]
  | some other =>
    obtain ⟨own, rfl, hsublist⟩ := hfirst other rfl
    have hboth : [own, other].filter OutputFile.isMap = [own, other] := by
      rw [List.filter_cons_of_pos (h.isMap_codeMap own rfl),
        List.filter_cons_of_pos (h.isMap_declarationMap other rfl), List.filter_nil]
    have hordered := hsublist.filter OutputFile.isMap
    rw [hboth] at hordered
    rw [← hordered.eq_of_length hmaps.length_eq.symm, List.head?_cons]

/-- Otherwise the declaration map is the first map. -/
lemma find?_of_not_first (h : emission.Usual code codeMap declaration declarationMap)
    (hfirst : ¬ emission.CodeMapFirst codeMap declarationMap) :
    emission.files.find? OutputFile.isMap = declarationMap := by
  have hmaps := h.filter_isMap
  rw [← List.head?_filter]
  unfold CodeMapFirst at hfirst
  push Not at hfirst
  obtain ⟨other, rfl, hbehind⟩ := hfirst
  cases codeMap with
  | none => rw [List.perm_singleton.mp hmaps, List.head?_cons]
  | some own =>
    rcases List.perm_pair.mp hmaps with heq | heq
    · refine absurd ?_ (hbehind own rfl)
      rw [← heq]
      exact List.filter_sublist
    · rw [heq, List.head?_cons]

end Usual

/-- Of a usual emission the code and the declaration are kept, wherever they stand.  The map that is
kept is the map of the code if that one stands before the declaration map or there is no declaration
map, and else it is the declaration map.  So the code is kept with its own map exactly in the first
case, or if both maps read the same. -/
theorem map_is_own_iff (h : emission.Usual code codeMap declaration declarationMap) :
    emission.output.code = some code.text ∧
      emission.output.declaration = declaration.map OutputFile.declaration ∧
      (emission.CodeMapFirst codeMap declarationMap →
        emission.output.map = some (reading codeMap)) ∧
      (¬ emission.CodeMapFirst codeMap declarationMap →
        emission.output.map = some (reading declarationMap)) ∧
      (emission.output.map = some (reading codeMap) ↔
        emission.CodeMapFirst codeMap declarationMap ∨
          reading declarationMap = reading codeMap) := by
  have hown : emission.CodeMapFirst codeMap declarationMap →
      emission.output.map = some (reading codeMap) := by
    intro hfirst
    unfold output map reading
    rw [h.find?_of_first hfirst]
  have hother : ¬ emission.CodeMapFirst codeMap declarationMap →
      emission.output.map = some (reading declarationMap) := by
    intro hfirst
    unfold output map reading
    rw [h.find?_of_not_first hfirst]
  refine ⟨?_, ?_, hown, hother, ?_⟩
  · unfold output code?
    rw [h.used, ← List.head?_filter, h.filter_isCode]
    rfl
  · unfold output declaration?
    rw [← List.head?_filter, h.filter_isDeclaration]
    cases declaration <;> rfl
  constructor
  · intro hmap
    by_cases hfirst : emission.CodeMapFirst codeMap declarationMap
    · exact .inl hfirst
    · exact .inr (Option.some.inj ((hother hfirst).symm.trans hmap))
  · rintro (hfirst | hsame)
    · exact hown hfirst
    · by_cases hfirst : emission.CodeMapFirst codeMap declarationMap
      · exact hown hfirst
      · rw [hother hfirst, hsame]

/-! ### Two orders of the same files -/

/-- A file with code. -/
def script : OutputFile := ⟨"a.js", "x;", false⟩

/-- The map of the code. -/
def scriptMap : OutputFile := ⟨"a.js.map", "\x7b\"mappings\":\"AAAA\"\x7d", false⟩

/-- The declaration. -/
def typings : OutputFile := ⟨"a.d.ts", "export \x7b\x7d;", true⟩

/-- The map of the declaration. -/
def typingsMap : OutputFile := ⟨"a.d.ts.map", "\x7b\"mappings\":\"CCCC\"\x7d", false⟩

/-- With the map of the code in front, the code is kept with its own map. -/
theorem map_is_own_iff_ahead :
    let emission : Emission := ⟨false, [scriptMap, script, typingsMap, typings]⟩
    emission.Usual script (some scriptMap) (some typings) (some typingsMap) ∧
      emission.CodeMapFirst (some scriptMap) (some typingsMap) ∧
      emission.output.map = some (reading (some scriptMap)) := by
  intro emission
  have husual : emission.Usual script (some scriptMap) (some typings) (some typingsMap) :=
    ⟨rfl, by decide, by decide, by decide, by decide, by decide⟩
  have hfirst : emission.CodeMapFirst (some scriptMap) (some typingsMap) := by
    intro other hother
    rw [← Option.mem_some_iff.mp hother]
    exact ⟨scriptMap, rfl, by decide⟩
  exact ⟨husual, hfirst, (map_is_own_iff husual).2.2.1 hfirst⟩

/-- With the map of the declaration in front, the code is kept with that map. -/
theorem declaration_map_taken :
    let emission : Emission := ⟨false, [typingsMap, typings, scriptMap, script]⟩
    emission.Usual script (some scriptMap) (some typings) (some typingsMap) ∧
      emission.output.map = some (reading (some typingsMap)) ∧
      emission.output.map ≠ some (reading (some scriptMap)) := by
  intro emission
  exact ⟨⟨rfl, by decide, by decide, by decide, by decide, by decide⟩, by decide +kernel,
    by decide +kernel⟩

end Emission

end Recompile
