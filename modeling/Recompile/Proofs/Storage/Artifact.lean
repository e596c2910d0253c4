import Recompile.Proofs.Packed.Lawful
import Recompile.Storage.Artifact

/-!
# Reading artifacts back

An artifact that can be read at all is read as what was stored, and only under the tool that made it
(`Artifact.eq_of_payload_encode`).  The length of the header is written in four bytes; a header that
is longer than that cannot be read, because no proper prefix of a packed header is one.

Whatever the bytes are, they are read as a payload exactly if they are a well-formed artifact with
that payload (`Artifact.payload_eq_ok`).
-/

namespace Recompile.Artifact

open Packed LawfulPacked

/-- Every part of a header is read stably. -/
lemma stable_unpack : Stable (unpack (α := Header)) :=
  (stable_unpackMany stable_unpackByte 4).andThen fun _ => stable.andThen fun _ =>
    stable.andThen fun _ => stable.andThen fun _ => stable_done _

/-- What reading the header of a payload claims. -/
def headerCost (tool : String) (payload : Bytes) : Nat :=
  (formatMark.map fun _ => 1).sum + (cost formatVersion + (cost tool +
    cost (Digest.ofBytes payload)))

/-- The packed header of a payload is read back. -/
lemma readsBack_headerOf (tool : String) (payload : Bytes) :
    ReadsBack unpack (headerOf tool payload) (pack (headerOf tool payload))
      (headerCost tool payload) := by
  have hmark : ReadsBack (unpackMany unpackByte 4) formatMark (formatMark.flatMap fun b => [b])
      (formatMark.map fun _ => 1).sum :=
    readsBack_unpackMany formatMark fun byte _ => readsBack_unpackByte byte
  refine ReadsBack.of_eq (ReadsBack.andThen hmark _ (.field formatVersion (.field tool
    (.last (Digest.ofBytes payload) rfl)))) ?_ rfl
  simp only [← List.append_assoc]
  rfl

/-- An artifact that can be read is read as what was stored, by the tool that stored it. -/
theorem eq_of_payload_encode {tool reader : String} {content found : Bytes}
    (h : payload reader (encode tool content) = .ok found) : found = content ∧ tool = reader := by
  set form := pack (headerOf tool content) with hform
  have hlength : (Bytes.littleEndian 4 form.length).length = 4 := Bytes.length_littleEndian 4 _
  have htake : (encode tool content).take 4 = Bytes.littleEndian 4 form.length := by
    unfold encode
    rw [List.append_assoc, List.take_left' hlength]
  have hdrop : (encode tool content).drop 4 = form ++ content := by
    unfold encode
    rw [List.append_assoc, List.drop_left' hlength]
  unfold payload at h
  rw [htake, hdrop] at h
  set size := Bytes.toNat (Bytes.littleEndian 4 form.length) with hsize
  have hsize_le : size ≤ form.length := by
    rw [hsize, Bytes.toNat_littleEndian]
    exact Nat.mod_le _ _
  split_ifs at h
  simp only [unpackFrom] at h
  split_ifs at h
  cases hread : unpack (α := Header) ⟨maxHeader, (form ++ content).take size⟩ with
  | error fault => rw [hread] at h; cases h
  | ok result =>
    obtain ⟨header, left⟩ := result
    rw [hread] at h
    -- The bytes after the stated length are appended again, and the whole form is read.
    have hwhole := stable_unpack _ _ _ _ _ ((form ++ content).drop size) hread
    rw [List.take_append_drop] at hwhole
    obtain ⟨rfl, hrest⟩ := (readsBack_headerOf tool content).eq_of_read (by decide) hwhole
    have hcontent : (form ++ content).drop size = content := by
      rw [List.drop_append_of_le_length hsize_le] at hrest ⊢
      have hlen := congrArg List.length hrest
      simp only [List.length_append] at hlen
      have hnil : form.drop size = [] := List.eq_nil_of_length_eq_zero (by omega)
      rw [hnil, List.nil_append]
    simp only [Header.fault?, headerOf, hcontent] at h
    split_ifs at h with hmark hformat htool hsum
    exact ⟨(Except.ok.inj h).symm, not_not.mp htool⟩

/-- A packed header is little longer than what reading it claims. -/
lemma length_pack_headerOf_le (tool : String) (content : Bytes) :
    (pack (headerOf tool content)).length ≤ headerCost tool content + 40 := by
  have hform : pack (headerOf tool content) = formatMark ++ packNat formatVersion.toNat ++
      (packNat (Bytes.ofText tool).length ++ Bytes.ofText tool) ++
      (Digest.ofBytes content).bytes := rfl
  have hcost : headerCost tool content =
      4 + (4 + (8 + (Bytes.ofText tool).length + 16)) := rfl
  have hmark : formatMark.length = 4 := rfl
  have hformat := length_packNat_le formatVersion.toNat
  have htool := length_packNat_le (Bytes.ofText tool).length
  have hdigest := (Digest.ofBytes content).length_bytes
  rw [hform, hcost]
  simp only [List.length_append, hmark, hdigest]
  omega

/-- An artifact is read back by the tool that made it, if its header does not claim too much. -/
theorem payload_encode {tool : String} {content : Bytes}
    (h : headerCost tool content ≤ maxHeader) :
    payload tool (encode tool content) = .ok content := by
  have hlong := length_pack_headerOf_le tool content
  have hread := (readsBack_headerOf tool content).read maxHeader [] (by decide) h
  rw [List.append_nil] at hread
  generalize hform : pack (headerOf tool content) = form at hlong hread
  have hlength : (Bytes.littleEndian 4 form.length).length = 4 := Bytes.length_littleEndian 4 _
  have hsize : Bytes.toNat (Bytes.littleEndian 4 form.length) = form.length := by
    have hbound : form.length < Nat.pow 256 4 := by
      have hmax : maxHeader + 40 < Nat.pow 256 4 := by decide
      omega
    rw [Bytes.toNat_littleEndian, Nat.mod_eq_of_lt hbound]
  unfold payload encode
  rw [hform, List.append_assoc, List.take_left' hlength, List.drop_left' hlength, hsize]
  simp only [List.length_append, hlength, List.take_left, List.drop_left, unpackFrom, hread]
  rw [if_neg (by omega), if_neg (by omega)]
  simp [Header.fault?, headerOf]

/-! ### Arbitrary bytes -/

/-- Bytes that are the size of a header, a header with the mark, the format version, the tool and
the digest of a payload, and that payload. -/
def WellFormed (tool : String) (raw payload : Bytes) : Prop :=
  ∃ (size form : Bytes) (header : Header), raw = size ++ form ++ payload ∧ size.length = 4 ∧
    Bytes.toNat size = form.length ∧ unpackFrom maxHeader form = .ok header ∧
    header.mark = formatMark ∧ header.format = formatVersion ∧ header.tool = tool ∧
    header.checksum = Digest.ofBytes payload

/-- The checks of a header pass exactly if it is that of the tool and the payload. -/
lemma Header.fault?_eq_none {header : Header} {tool : String} {content : Bytes} :
    header.fault? tool content = none ↔ header.mark = formatMark ∧ header.format = formatVersion ∧
      header.tool = tool ∧ header.checksum = Digest.ofBytes content := by
  unfold fault?
  split_ifs <;> simp_all

/-- Bytes are read as a payload exactly if they are a well-formed artifact with it. -/
theorem payload_eq_ok {tool : String} {raw content : Bytes} :
    payload tool raw = .ok content ↔ WellFormed tool raw content := by
  constructor
  · intro h
    unfold payload at h
    split_ifs at h with hshort
    simp only at h
    split_ifs at h with hbody
    cases hheader : unpackFrom (α := Header) maxHeader
        ((raw.drop 4).take (Bytes.toNat (raw.take 4))) with
    | error fault => rw [hheader] at h; cases h
    | ok header =>
      rw [hheader] at h
      simp only at h
      cases hfault : header.fault? tool ((raw.drop 4).drop (Bytes.toNat (raw.take 4))) with
      | some fault => rw [hfault] at h; cases h
      | none =>
        rw [hfault] at h
        obtain rfl := Except.ok.inj h
        refine ⟨raw.take 4, (raw.drop 4).take (Bytes.toNat (raw.take 4)), header, ?_, ?_, ?_,
          hheader, Header.fault?_eq_none.mp hfault⟩
        · rw [List.append_assoc, List.take_append_drop, List.take_append_drop]
        · rw [List.length_take]
          omega
        · rw [List.length_take]
          omega
  · rintro ⟨size, form, header, rfl, hsize, hform, hheader, hfault⟩
    have htake : (size ++ form ++ content).take 4 = size := by
      rw [List.append_assoc, List.take_left' hsize]
    have hdrop : (size ++ form ++ content).drop 4 = form ++ content := by
      rw [List.append_assoc, List.drop_left' hsize]
    unfold payload
    rw [htake, hdrop, hform]
    simp only [List.take_left, List.drop_left, hheader, Header.fault?_eq_none.mpr hfault]
    rw [if_neg, if_neg]
    · rw [List.length_append]
      omega
    · rw [List.length_append, List.length_append]
      omega

end Recompile.Artifact
