import Recompile.Options.Fingerprint
import Recompile.Proofs.Cache.Lineage
import Recompile.Proofs.Packed.Grammar
import Recompile.Proofs.Storage.Reaching

/-!
# What is hashed

The names of artifacts and of namespaces are digests of parts, which are hashed as one stream of
bytes (`Digest.framed`).  The stream determines the parts, whatever bytes they have, because each of
them follows its own length: what a part takes up can be split off the front of any stream
(`Digest.frame_append_inj`), and so the parts can be split off one after the other
(`Digest.framed_eq_iff`).

So no two artifacts share what is hashed for them, and two of them share a name only if two different
streams have the same digest (`Digest.Collide`); the same holds for namespaces
(`Stamp.key_material_unambiguous`).  The streams that would have to collide are always named: that
some streams collide is a fact about every hash.
-/

namespace Recompile

namespace Bytes

/-- Numbers in the range of a width that have the same little-endian bytes are equal. -/
lemma littleEndian_inj {width n m : Nat} (hn : n < 256 ^ width) (hm : m < 256 ^ width)
    (h : littleEndian width n = littleEndian width m) : n = m := by
  rw [← toNat_littleEndian_of_lt hn, h, toNat_littleEndian_of_lt hm]

/-- A text takes up as many bytes as its UTF-8 form has. -/
lemma length_ofText (text : String) : (ofText text).length = text.utf8ByteSize := by
  rw [ofText, Array.length_toList]
  rfl

end Bytes

namespace Digest

/-! ### Streams -/

/-- Every part is so short that eight bytes hold its length, as anything in memory is. -/
def Framable (parts : List Bytes) : Prop :=
  ∀ part ∈ parts, part.length < 2 ^ 64

/-- What a part takes up in a stream can be split off the front, whatever follows it. -/
lemma frame_append_inj {part other rest rest' : Bytes} (hpart : part.length < 2 ^ 64)
    (hother : other.length < 2 ^ 64)
    (h : Bytes.littleEndian 8 part.length ++ part ++ rest =
      Bytes.littleEndian 8 other.length ++ other ++ rest') : part = other ∧ rest = rest' := by
  rw [List.append_assoc, List.append_assoc] at h
  obtain ⟨hlengths, hbody⟩ := List.append_inj h (by simp only [Bytes.length_littleEndian])
  exact List.append_inj hbody (Bytes.littleEndian_inj hpart hother hlengths)

/-- The stream of a part and others. -/
lemma framed_cons (part : Bytes) (rest : List Bytes) :
    framed (part :: rest) = Bytes.littleEndian 8 part.length ++ part ++ framed rest :=
  List.flatMap_cons

/-- The stream of a part and others is not empty. -/
lemma framed_cons_ne_nil (part : Bytes) (rest : List Bytes) : framed (part :: rest) ≠ [] := by
  intro h
  have hlength := congrArg List.length h
  simp only [framed_cons, List.length_append, Bytes.length_littleEndian, List.length_nil] at hlength
  omega

/-- The stream determines the parts. -/
theorem framed_eq_iff {parts others : List Bytes} (hparts : Framable parts)
    (hothers : Framable others) : framed parts = framed others ↔ parts = others := by
  refine ⟨fun h => ?_, fun h => h ▸ rfl⟩
  -- The induction follows the stream: each step splits off one part of both lists.
  induction parts generalizing others with
  | nil =>
    cases others with
    | nil => rfl
    | cons other others => exact absurd h.symm (framed_cons_ne_nil other others)
  | cons part parts ih =>
    cases others with
    | nil => exact absurd h (framed_cons_ne_nil part parts)
    | cons other others =>
      obtain ⟨hpart, hrest⟩ := List.forall_mem_cons.mp hparts
      obtain ⟨hother, hrest'⟩ := List.forall_mem_cons.mp hothers
      rw [framed_cons, framed_cons] at h
      obtain ⟨rfl, hstream⟩ := frame_append_inj hpart hother h
      rw [ih hrest hrest' hstream]

/-! ### Digests of streams -/

/-- Two different streams with the same digest. -/
def Collide (stream other : Bytes) : Prop :=
  stream ≠ other ∧ ofBytes stream = ofBytes other

/-- Lists of parts have the same digest if they are the same, or if their streams collide. -/
theorem ofParts_eq_iff {parts others : List Bytes} (hparts : Framable parts)
    (hothers : Framable others) :
    ofParts parts = ofParts others ↔ parts = others ∨ Collide (framed parts) (framed others) := by
  have hstream := framed_eq_iff hparts hothers
  constructor
  · intro h
    by_cases heq : parts = others
    · exact .inl heq
    · exact .inr ⟨fun hsame => heq (hstream.mp hsame), h⟩
  · rintro (rfl | ⟨-, h⟩)
    · rfl
    · exact h

end Digest

/-! ### Names of artifacts and of namespaces -/

namespace Stamp

/-- What is hashed for the name of an artifact: the module, the digest of its text, the
configuration and the generation. -/
def parts (stamp : Stamp) : List Bytes :=
  [Bytes.ofText stamp.file.text, stamp.content.bytes, stamp.config.bytes,
    Bytes.littleEndian 8 stamp.generation.toNat]

/-- The name of an artifact is the digest of these parts. -/
lemma key_eq (stamp : Stamp) : stamp.key = (Digest.ofParts stamp.parts).hex :=
  rfl

/-- Only the name of the module could be too long. -/
lemma framable_parts {stamp : Stamp} (h : stamp.file.text.utf8ByteSize < 2 ^ 64) :
    Digest.Framable stamp.parts := by
  intro part hpart
  simp only [parts, List.mem_cons, List.not_mem_nil, or_false] at hpart
  rcases hpart with rfl | rfl | rfl | rfl
  · rwa [Bytes.length_ofText]
  · rw [stamp.content.length_bytes]
    decide
  · rw [stamp.config.length_bytes]
    decide
  · rw [Bytes.length_littleEndian]
    decide

/-- What is hashed determines what the artifact is about. -/
lemma parts_injective : Function.Injective parts := by
  rintro ⟨⟨file⟩, ⟨content, _⟩, ⟨config, _⟩, generation⟩
    ⟨⟨file'⟩, ⟨content', _⟩, ⟨config', _⟩, generation'⟩ h
  simp only [parts, List.cons.injEq, and_true] at h
  obtain ⟨hfile, rfl, rfl, hgeneration⟩ := h
  obtain rfl := Bytes.ofText_inj hfile
  have hnumber : generation.toNat = generation'.toNat :=
    Bytes.littleEndian_inj generation.toNat_lt generation'.toNat_lt hgeneration
  rw [UInt64.toNat_inj.mp hnumber]

/-- What is hashed for a name is unambiguous.  A stream determines its parts; the streams of two
artifacts are equal only if the artifacts are about the same module, text, configuration and
generation.  So two artifacts or two namespaces share a name only if the hash itself collides on
their streams: the thirty-two digits of the text tell digests apart. -/
theorem key_material_unambiguous :
    (∀ parts others : List Bytes, Digest.Framable parts → Digest.Framable others →
      (Digest.framed parts = Digest.framed others ↔ parts = others)) ∧
    (∀ stamp other : Stamp, stamp.file.text.utf8ByteSize < 2 ^ 64 →
      other.file.text.utf8ByteSize < 2 ^ 64 →
      (Digest.framed stamp.parts = Digest.framed other.parts ↔ stamp = other) ∧
      (stamp.key = other.key ↔ stamp = other ∨
        Digest.Collide (Digest.framed stamp.parts) (Digest.framed other.parts))) ∧
    (∀ (options options' : Options) (version version' : String) (entries entries' : List ModuleId),
      Digest.Framable (options.parts version entries) →
      Digest.Framable (options'.parts version' entries') →
      ((options.fingerprint version entries).hex = (options'.fingerprint version' entries').hex ↔
        options.parts version entries = options'.parts version' entries' ∨
        Digest.Collide (Digest.framed (options.parts version entries))
          (Digest.framed (options'.parts version' entries')))) ∧
    (∀ digest : Digest, Archive.IsKey digest.hex) ∧ Function.Injective Digest.hex := by
  have hhex : Function.Injective Digest.hex := fun _ _ h => Digest.hex_injective h
  refine ⟨fun _ _ h h' => Digest.framed_eq_iff h h', ?_, ?_, Archive.isKey_hex, hhex⟩
  · intro stamp other hstamp hother
    have hframable := framable_parts hstamp
    have hframable' := framable_parts hother
    rw [key_eq, key_eq, hhex.eq_iff, Digest.ofParts_eq_iff hframable hframable',
      Digest.framed_eq_iff hframable hframable', parts_injective.eq_iff]
    exact ⟨Iff.rfl, Iff.rfl⟩
  · intro options options' version version' entries entries' h h'
    rw [hhex.eq_iff]
    exact Digest.ofParts_eq_iff h h'

/-- A part that looks like the lengths of empty ones, a module at two generations, and a version of
the compiler that reads like an entry module. -/
theorem key_material_unambiguous_nested :
    let stamp : Stamp := ⟨⟨"a.ts"⟩, .zero, .zero, 0⟩
    let later : Stamp := ⟨⟨"a.ts"⟩, .zero, .zero, 1⟩
    let first := Options.parts {} "a.ts" []
    let second := Options.parts {} "" [⟨"a.ts"⟩]
    (Digest.Framable [[0, 0, 0, 0, 0, 0, 0, 0]] ∧ Digest.Framable [[], []] ∧
      Digest.framed [[0, 0, 0, 0, 0, 0, 0, 0]] ≠ Digest.framed [[], []]) ∧
    (stamp.file.text.utf8ByteSize < 2 ^ 64 ∧ later.file.text.utf8ByteSize < 2 ^ 64 ∧
      Digest.framed stamp.parts ≠ Digest.framed later.parts ∧
      (stamp.key = later.key ↔
        Digest.Collide (Digest.framed stamp.parts) (Digest.framed later.parts))) ∧
    Digest.Framable first ∧ Digest.Framable second ∧
      ((Options.fingerprint {} "a.ts" []).hex = (Options.fingerprint {} "" [⟨"a.ts"⟩]).hex ↔
        first = second ∨ Digest.Collide (Digest.framed first) (Digest.framed second)) := by
  intro stamp later first second
  obtain ⟨hstream, hstamps, hnamespaces, -, -⟩ := key_material_unambiguous
  have hparts : Digest.Framable [[0, 0, 0, 0, 0, 0, 0, 0]] := by unfold Digest.Framable; decide
  have hothers : Digest.Framable [[], []] := by unfold Digest.Framable; decide
  have hsize : stamp.file.text.utf8ByteSize < 2 ^ 64 := by decide
  have hgenerations : stamp ≠ later := fun h => absurd (congrArg Stamp.generation h) (by decide)
  obtain ⟨hstampStream, hkey⟩ := hstamps stamp later hsize hsize
  have hfirst : Digest.Framable first := by unfold Digest.Framable; decide +kernel
  have hsecond : Digest.Framable second := by unfold Digest.Framable; decide +kernel
  refine ⟨⟨hparts, hothers, ?_⟩, ⟨hsize, hsize, ?_, ?_⟩, hfirst, hsecond, ?_⟩
  · rw [ne_eq, hstream _ _ hparts hothers]
    decide
  · rwa [ne_eq, hstampStream]
  · rw [hkey, or_iff_right hgenerations]
  · exact hnamespaces {} {} "a.ts" "" [] [⟨"a.ts"⟩] hfirst hsecond

end Stamp

end Recompile
