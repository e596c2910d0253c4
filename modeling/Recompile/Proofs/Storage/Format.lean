import Recompile.Proofs.Packed.Grammar
import Recompile.Proofs.Storage.Artifact
import Recompile.Storage.Archive

/-!
# The artifact format, byte by byte

Whatever bytes are found at the path of an artifact, reading it gives a payload exactly if the bytes
are the length of a header, that many bytes which start with a header, and the payload, and if the
header passes its checks (`Artifact.Holds`).  A header is spelled out byte by byte
(`Artifact.Header.Spelled`): its numbers may have more bytes than they need, its text is UTF-8, it
fits the budget, and what follows it within the stated length is ignored.

Otherwise the first check that fails says which error there is (`Artifact.Refuses`); each case
states that the checks before it pass.
-/

namespace Recompile.Artifact

open Packed

variable {tool : String} {path : Path} {raw form content : Bytes} {header : Header}

/-! ### Headers -/

/-- The bytes of a header: the mark, the format version in a form of its number, the form of the
length of the tool's name, that name, and the digest. -/
def Header.Written (header : Header) (form : Bytes) : Prop :=
  ∃ format length, Spells 4 header.format.toNat format ∧
    Spells 8 (Bytes.ofText header.tool).length length ∧ header.mark.length = 4 ∧
    form = header.mark ++ (format ++ (length ++ (Bytes.ofText header.tool ++
      header.checksum.bytes)))

/-- What reading a header claims: four bytes for the mark, four for the format version, eight for
the length of the tool's name, that name, and sixteen for the digest. -/
def Header.claimed (header : Header) : Nat :=
  32 + (Bytes.ofText header.tool).length

/-- The bytes are those of a header that fits the budget. -/
def Header.Spelled (header : Header) (form : Bytes) : Prop :=
  header.Written form ∧ header.claimed ≤ maxHeader

/-- The reader of headers accepts the bytes of headers. -/
lemma accepts_header : Accepts (unpack (α := Header)) fun header form claimed =>
    header.Written form ∧ claimed = header.claimed := by
  refine ((accepts_unpackBytes 4).andThen fun mark => accepts_word.andThen fun format =>
    accepts_text.andThen fun tool => accepts_digest.andThen fun checksum =>
      accepts_done (Header.mk mark format tool checksum)).congr fun header form claimed => ?_
  unfold Header.Written Header.claimed
  constructor
  · rintro ⟨⟨format, length, hformat, hlength, hmark, rfl⟩, rfl⟩
    refine ⟨header.mark, header.mark, _, 4, 4 + (8 + (Bytes.ofText header.tool).length + 16),
      ⟨rfl, hmark, rfl⟩, ?_, rfl, by omega⟩
    refine ⟨header.format, format, _, 4, _, ⟨hformat, rfl⟩, ?_, rfl, rfl⟩
    refine ⟨header.tool, length ++ Bytes.ofText header.tool, _, _, _, ⟨length, hlength, rfl, rfl⟩,
      ?_, (List.append_assoc ..).symm, rfl⟩
    exact ⟨header.checksum, header.checksum.bytes, [], 16, 0, ⟨rfl, rfl⟩, ⟨rfl, rfl, rfl⟩,
      (List.append_nil _).symm, rfl⟩
  · rintro ⟨mark, markForm, backMark, claimedMark, restMark, ⟨rfl, hmark, rfl⟩,
      ⟨format, formatForm, backFormat, claimedFormat, restFormat, ⟨hformat, rfl⟩,
        ⟨tool, toolForm, backTool, claimedTool, restTool, ⟨length, hlength, rfl, rfl⟩,
          ⟨checksum, digestForm, last, claimedDigest, none, ⟨rfl, rfl⟩, ⟨rfl, rfl, rfl⟩, rfl, rfl⟩,
          rfl, rfl⟩, rfl, rfl⟩, rfl, rfl⟩
    refine ⟨⟨formatForm, length, hformat, hlength, hmark, ?_⟩, ?_⟩
    · rw [List.append_nil, List.append_assoc]
    · dsimp only
      omega

/-- A header is read from bytes exactly if they start with the bytes of that header. -/
lemma unpackFrom_eq_ok :
    unpackFrom maxHeader form = .ok header ↔ ∃ front rest, form = front ++ rest ∧
      header.Spelled front := by
  have haccepts := accepts_header maxHeader form header
  unfold unpackFrom
  constructor
  · intro h
    cases hread : unpack (α := Header) ⟨maxHeader, form⟩ with
    | error fault => rw [hread] at h; cases h
    | ok result =>
      obtain ⟨found, left, rest⟩ := result
      rw [hread] at h
      obtain rfl := Except.ok.inj h
      obtain ⟨front, claimed, ⟨hwritten, rfl⟩, hform, hbudget⟩ := (haccepts left rest).mp hread
      exact ⟨front, rest, hform, hwritten, by omega⟩
  · rintro ⟨front, rest, hform, hwritten, hbudget⟩
    have hread := (haccepts (maxHeader - header.claimed) rest).mpr
      ⟨front, header.claimed, ⟨hwritten, rfl⟩, hform, (Nat.sub_add_cancel hbudget).symm⟩
    rw [hread]

/-! ### Frames -/

/-- The bytes are a length, as many bytes, and what follows them. -/
def Framed (raw form content : Bytes) : Prop :=
  form.length < 2 ^ 32 ∧ raw = Bytes.littleEndian 4 form.length ++ (form ++ content)

/-- The bytes are the length of a header, the header with anything after it, and a payload. -/
def Carries (raw : Bytes) (header : Header) (content : Bytes) : Prop :=
  ∃ front rest, header.Spelled front ∧ Framed raw (front ++ rest) content

/-- The bytes are an artifact that a tool made of a payload. -/
def Holds (tool : String) (raw content : Bytes) : Prop :=
  ∃ header, Carries raw header content ∧ header.mark = formatMark ∧
    header.format = formatVersion ∧ header.tool = tool ∧ header.checksum = Digest.ofBytes content

/-- The bytes at a path are refused with an error: the first check that fails is the one that the
error is about. -/
inductive Refuses (tool : String) (path : Path) (raw : Bytes) : StorageError → Prop where
  /-- There are fewer than four bytes. -/
  | shortLength : raw.length < 4 →
      Refuses tool path raw (.header path "truncated header length")
  /-- After the length there are fewer bytes than it says. -/
  | shortHeader (length : Nat) (rest : Bytes) : length < 2 ^ 32 →
      raw = Bytes.littleEndian 4 length ++ rest → rest.length < length →
      Refuses tool path raw (.header path "truncated header")
  /-- The bytes for the header do not start with one; the reader says why. -/
  | badHeader (form content : Bytes) (fault : Packed.Fault) : Framed raw form content →
      (∀ header front, front <+: form → ¬ Header.Spelled header front) →
      unpackFrom (α := Header) maxHeader form = .error fault →
      Refuses tool path raw (.header path fault.name)
  /-- There is a header, but its mark is another one. -/
  | badMark (header : Header) (content : Bytes) : Carries raw header content →
      header.mark ≠ formatMark → Refuses tool path raw (.header path "bad magic bytes")
  /-- The mark is right, but the format is another one. -/
  | format (header : Header) (content : Bytes) : Carries raw header content →
      header.mark = formatMark → header.format ≠ formatVersion →
      Refuses tool path raw (.format path formatVersion header.format)
  /-- Mark and format are right, but the tool is another one. -/
  | tool (header : Header) (content : Bytes) : Carries raw header content →
      header.mark = formatMark → header.format = formatVersion → header.tool ≠ tool →
      Refuses tool path raw (.tool path tool header.tool)
  /-- Only the digest is another one. -/
  | checksum (header : Header) (content : Bytes) : Carries raw header content →
      header.mark = formatMark → header.format = formatVersion → header.tool = tool →
      header.checksum ≠ Digest.ofBytes content →
      Refuses tool path raw
        (.checksum path header.checksum.hex (Digest.ofBytes content).hex)

/-- What is read from framed bytes. -/
lemma payload_of_framed (h : Framed raw form content) (tool : String) :
    payload tool raw =
      match unpackFrom (α := Header) maxHeader form with
      | .error fault => .error (.badHeader fault)
      | .ok header =>
        match header.fault? tool content with
        | some fault => .error fault
        | none => .ok content := by
  obtain ⟨hlength, rfl⟩ := h
  have hfour : (Bytes.littleEndian 4 form.length).length = 4 := Bytes.length_littleEndian 4 _
  have hsize : Bytes.toNat (Bytes.littleEndian 4 form.length) = form.length :=
    Bytes.toNat_littleEndian_of_lt hlength
  have hbody : ¬ (form ++ content).length < form.length := by
    rw [List.length_append]
    exact Nat.not_lt.mpr (Nat.le_add_right _ _)
  unfold payload
  rw [List.take_left' hfour, List.drop_left' hfour, hsize, List.length_append, hfour,
    if_neg (Nat.not_lt.mpr (Nat.le_add_right _ _))]
  simp only
  rw [List.take_left, List.drop_left]
  exact if_neg hbody

/-- What is read from bytes with a header and a payload. -/
lemma payload_of_carries (h : Carries raw header content) (tool : String) :
    payload tool raw =
      match header.fault? tool content with
      | some fault => .error fault
      | none => .ok content := by
  obtain ⟨front, rest, hspelled, hframed⟩ := h
  have hheader : unpackFrom maxHeader (front ++ rest) = .ok header :=
    unpackFrom_eq_ok.mpr ⟨front, rest, rfl, hspelled⟩
  rw [payload_of_framed hframed, hheader]

/-- Four bytes and as many more as they say are framed. -/
lemma framed_of_length (hlong : ¬ raw.length < 4)
    (hbody : ¬ (raw.drop 4).length < Bytes.toNat (raw.take 4)) :
    Framed raw ((raw.drop 4).take (Bytes.toNat (raw.take 4)))
      ((raw.drop 4).drop (Bytes.toNat (raw.take 4))) := by
  have hfour : (raw.take 4).length = 4 := by
    rw [List.length_take]
    omega
  have hrange := Bytes.toNat_lt (raw.take 4)
  have hbytes := Bytes.littleEndian_toNat (raw.take 4)
  rw [hfour] at hrange hbytes
  have hlength : ((raw.drop 4).take (Bytes.toNat (raw.take 4))).length =
      Bytes.toNat (raw.take 4) := by
    rw [List.length_take]
    omega
  constructor
  · rw [hlength]
    exact hrange
  · rw [hlength, hbytes, List.take_append_drop, List.take_append_drop]

/-! ### Reading -/

/-- The first check of a header that fails is the one that a refusal is about. -/
lemma refuses_of_fault? (h : Carries raw header content) {fault : Fault}
    (hfault : header.fault? tool content = some fault) :
    Refuses tool path raw (fault.toError path tool) := by
  unfold Header.fault? at hfault
  split_ifs at hfault with hmark hformat htool hsum
  · obtain rfl := Option.some.inj hfault
    exact .badMark header content h hmark
  · obtain rfl := Option.some.inj hfault
    exact .format header content h (not_not.mp hmark) hformat
  · obtain rfl := Option.some.inj hfault
    exact .tool header content h (not_not.mp hmark) (not_not.mp hformat) htool
  · obtain rfl := Option.some.inj hfault
    exact .checksum header content h (not_not.mp hmark) (not_not.mp hformat) (not_not.mp htool) hsum

/-- Bytes are read as a payload that they hold, or refused with an error that is about the first
check that fails. -/
lemma holds_or_refuses (tool : String) (path : Path) (raw : Bytes) :
    (∃ content, payload tool raw = .ok content ∧ Holds tool raw content) ∨
      ∃ fault, payload tool raw = .error fault ∧
        Refuses tool path raw (fault.toError path tool) := by
  by_cases hlong : raw.length < 4
  · refine .inr ⟨.shortLength, ?_, .shortLength hlong⟩
    unfold payload
    rw [if_pos hlong]
  by_cases hbody : (raw.drop 4).length < Bytes.toNat (raw.take 4)
  · have hfour : (raw.take 4).length = 4 := by
      rw [List.length_take]
      omega
    have hrange := Bytes.toNat_lt (raw.take 4)
    have hbytes := Bytes.littleEndian_toNat (raw.take 4)
    rw [hfour] at hrange hbytes
    refine .inr ⟨.shortHeader, ?_, .shortHeader _ _ hrange ?_ hbody⟩
    · unfold payload
      rw [if_neg hlong]
      simp only
      rw [if_pos hbody]
    · rw [hbytes, List.take_append_drop]
  have hframed := framed_of_length hlong hbody
  have hpayload := payload_of_framed hframed tool
  cases hheader : unpackFrom (α := Header) maxHeader
      ((raw.drop 4).take (Bytes.toNat (raw.take 4))) with
  | error fault =>
    rw [hheader] at hpayload
    refine .inr ⟨.badHeader fault, hpayload, .badHeader _ _ fault hframed ?_ hheader⟩
    rintro header front ⟨rest, hrest⟩ hspelled
    rw [unpackFrom_eq_ok.mpr ⟨front, rest, hrest.symm, hspelled⟩] at hheader
    cases hheader
  | ok header =>
    rw [hheader] at hpayload
    obtain ⟨front, rest, hform, hspelled⟩ := unpackFrom_eq_ok.mp hheader
    have hcarries : Carries raw header ((raw.drop 4).drop (Bytes.toNat (raw.take 4))) :=
      ⟨front, rest, hspelled, hform ▸ hframed⟩
    cases hfault : header.fault? tool ((raw.drop 4).drop (Bytes.toNat (raw.take 4))) with
    | none =>
      simp only [hfault] at hpayload
      exact .inl ⟨_, hpayload, header, hcarries, Header.fault?_eq_none.mp hfault⟩
    | some fault =>
      simp only [hfault] at hpayload
      exact .inr ⟨fault, hpayload, refuses_of_fault? hcarries hfault⟩

/-- A payload that bytes hold is read from them. -/
lemma payload_of_holds (h : Holds tool raw content) : payload tool raw = .ok content := by
  obtain ⟨header, hcarries, hchecks⟩ := h
  rw [payload_of_carries hcarries, Header.fault?_eq_none.mpr hchecks]

/-- Bytes that are refused are read with that error. -/
lemma payload_of_refuses {error : StorageError} (h : Refuses tool path raw error) :
    ∃ fault, payload tool raw = .error fault ∧ fault.toError path tool = error := by
  cases h with
  | shortLength hshort =>
    refine ⟨.shortLength, ?_, rfl⟩
    unfold payload
    rw [if_pos hshort]
  | shortHeader length rest hrange hraw hshort =>
    have hfour : (Bytes.littleEndian 4 length).length = 4 := Bytes.length_littleEndian 4 _
    refine ⟨.shortHeader, ?_, rfl⟩
    unfold payload
    rw [hraw, List.take_left' hfour, List.drop_left' hfour, Bytes.toNat_littleEndian_of_lt hrange,
      List.length_append, hfour, if_neg (Nat.not_lt.mpr (Nat.le_add_right _ _))]
    simp only
    rw [if_pos hshort]
  | badHeader form content fault hframed _ hfault =>
    refine ⟨.badHeader fault, ?_, rfl⟩
    rw [payload_of_framed hframed, hfault]
  | badMark header content hcarries hmark =>
    refine ⟨.badMark, ?_, rfl⟩
    rw [payload_of_carries hcarries, Header.fault?, if_pos hmark]
  | format header content hcarries hmark hformat =>
    refine ⟨.format header.format, ?_, rfl⟩
    rw [payload_of_carries hcarries, Header.fault?, if_neg (not_not.mpr hmark), if_pos hformat]
  | tool header content hcarries hmark hformat htool =>
    refine ⟨.tool header.tool, ?_, rfl⟩
    rw [payload_of_carries hcarries, Header.fault?, if_neg (not_not.mpr hmark),
      if_neg (not_not.mpr hformat), if_pos htool]
  | checksum header content hcarries hmark hformat htool hsum =>
    refine ⟨.checksum header.checksum (Digest.ofBytes content), ?_, rfl⟩
    rw [payload_of_carries hcarries, Header.fault?, if_neg (not_not.mpr hmark),
      if_neg (not_not.mpr hformat), if_neg (not_not.mpr htool), if_pos hsum]

end Recompile.Artifact

namespace Recompile.Archive

open Artifact

/-- What an archive makes of the bytes at the path of an artifact. -/
lemma read_of_disk_read {archive : Archive} {disk : Disk} {subdirectory key : String} {raw : Bytes}
    (h : disk.read (archive.pathOf subdirectory key) = .ok raw) :
    archive.read disk subdirectory key =
      (payload archive.tool raw).mapError
        fun fault => fault.toError (archive.pathOf subdirectory key) archive.tool := by
  unfold read
  simp only [h]
  cases payload archive.tool raw <;> rfl

/-- Whatever bytes are at the path of an artifact, they are read as a payload exactly if they are an
artifact of the tool with that payload, and refused with an error exactly if the error is about the
first check that fails. -/
theorem read_iff_format (archive : Archive) (disk : Disk) (subdirectory key : String) (raw : Bytes)
    (hraw : disk.read (archive.pathOf subdirectory key) = .ok raw) :
    (∀ content, archive.read disk subdirectory key = .ok content ↔
      Holds archive.tool raw content) ∧
    ∀ error, archive.read disk subdirectory key = .error error ↔
      Refuses archive.tool (archive.pathOf subdirectory key) raw error := by
  rw [read_of_disk_read hraw]
  have hcases := holds_or_refuses archive.tool (archive.pathOf subdirectory key) raw
  constructor
  · intro content
    constructor
    · intro hread
      rcases hcases with ⟨found, hfound, hholds⟩ | ⟨fault, hfault, -⟩
      · rw [hfound] at hread
        rwa [← Except.ok.inj hread]
      · rw [hfault] at hread
        cases hread
    · intro hholds
      rw [payload_of_holds hholds]
      rfl
  · intro error
    constructor
    · intro hread
      rcases hcases with ⟨found, hfound, -⟩ | ⟨fault, hfault, hrefuses⟩
      · rw [hfound] at hread
        cases hread
      · rw [hfault] at hread
        rwa [← Except.error.inj hread]
    · intro hrefuses
      obtain ⟨fault, hfault, rfl⟩ := payload_of_refuses hrefuses
      rw [hfault]
      rfl

/-- A header whose numbers have more bytes than they need. -/
def wideHeader : Bytes :=
  formatMark ++ ([251, 1, 0] ++ ([252, 1, 0, 0, 0] ++ (Bytes.ofText "t" ++
    (Digest.ofBytes [1, 2, 3]).bytes)))

/-- An artifact with that header and two more bytes within its stated length. -/
def wideArtifact : Bytes :=
  Bytes.littleEndian 4 (wideHeader ++ [7, 7]).length ++ (wideHeader ++ [7, 7] ++ [1, 2, 3])

/-- A disk with that artifact alone. -/
def wideDisk : Disk :=
  (Disk.empty.insert ["", "code"] .directory).insert ["", "code", "k.bin"] (.file wideArtifact)

theorem read_iff_format_wide :
    wideDisk.read (pathOf ⟨⟨""⟩, "t"⟩ "code" "k") = .ok wideArtifact ∧
    wideDisk.read (pathOf ⟨⟨""⟩, "u"⟩ "code" "k") = .ok wideArtifact ∧
    read ⟨⟨""⟩, "t"⟩ wideDisk "code" "k" = .ok [1, 2, 3] ∧
    read ⟨⟨""⟩, "u"⟩ wideDisk "code" "k" = .error (.tool ⟨"code/k.bin"⟩ "u" "t") := by
  have hraw : wideDisk.read ⟨"code/k.bin"⟩ = .ok wideArtifact := by decide +kernel
  have hcarries : Carries wideArtifact (headerOf "t" [1, 2, 3]) [1, 2, 3] := by
    refine ⟨wideHeader, [7, 7], ⟨⟨[251, 1, 0], [252, 1, 0, 0, 0], ?_, ?_, rfl, rfl⟩, by decide⟩,
      by decide +kernel, rfl⟩
    · exact Packed.Spells.marked 1 (by decide) (by decide) (by decide)
    · exact Packed.Spells.marked 2 (by decide) (by decide) (by decide)
  have hsame := read_iff_format ⟨⟨""⟩, "t"⟩ wideDisk "code" "k" wideArtifact hraw
  have hother := read_iff_format ⟨⟨""⟩, "u"⟩ wideDisk "code" "k" wideArtifact hraw
  exact ⟨hraw, hraw, (hsame.1 _).mpr ⟨_, hcarries, rfl, rfl, rfl, rfl⟩,
    (hother.2 _).mpr (.tool _ _ hcarries rfl rfl (by decide))⟩

end Recompile.Archive
