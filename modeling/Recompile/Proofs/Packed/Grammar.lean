import Recompile.Proofs.Packed.ReadBack

/-!
# What readers of packed bytes accept

A reader is given any bytes, not only packed forms.  What it accepts is a *grammar*: which bytes
stand for which value, and how much of the budget they take (`Packed.Accepts`).  Grammars pass
through `Packed.andThen` like readers do.

The forms of a number are more than the packed one (`Packed.Spells`): a number may also be written
with a wider marker than it needs, as long as its field is that wide.  A text is accepted if its
bytes are UTF-8, and then they are the bytes of that text.
-/

namespace Recompile

namespace Bytes

/-- Little-endian bytes are those of the number that they stand for. -/
lemma littleEndian_toNat (bytes : Bytes) : littleEndian bytes.length (toNat bytes) = bytes := by
  induction bytes with
  | nil => rfl
  | cons byte rest ih =>
    have hbyte := byte.toNat_lt
    have hlow : UInt8.ofNat (byte.toNat + 256 * toNat rest) = byte := by
      apply UInt8.toNat_inj.mp
      rw [UInt8.toNat_ofNat']
      omega
    have hhigh : (byte.toNat + 256 * toNat rest) / 256 = toNat rest := by omega
    rw [toNat, List.length_cons, littleEndian, hlow, hhigh, ih]

/-- Bytes stand for a number in the range of their width. -/
lemma toNat_lt (bytes : Bytes) : toNat bytes < 256 ^ bytes.length := by
  induction bytes with
  | nil => exact Nat.one_pos
  | cons byte rest ih =>
    have hbyte := byte.toNat_lt
    rw [toNat, List.length_cons, Nat.pow_succ]
    omega

/-- Little-endian bytes of a number in the range of their width stand for that number. -/
lemma toNat_littleEndian_of_lt {width n : Nat} (h : n < 256 ^ width) :
    toNat (littleEndian width n) = n := by
  rw [toNat_littleEndian]
  exact Nat.mod_eq_of_lt h

/-- Bytes encode a text exactly if they are the bytes of that text. -/
lemma text?_eq_some {bytes : Bytes} {text : String} :
    text? bytes = some text ↔ bytes = ofText text := by
  constructor
  · intro h
    unfold text? String.fromUTF8? at h
    split_ifs at h with hvalid
    obtain rfl := Option.some.inj h
    rfl
  · rintro rfl
    exact text?_ofText text

end Bytes

namespace Packed

variable {α β : Type}

/-! ### Grammars -/

/-- What a reader accepts: the bytes that stand for a value, followed by anything, if the budget
covers what they claim. -/
def Accepts (reader : Unpack α) (grammar : α → Bytes → Nat → Prop) : Prop :=
  ∀ budget bytes value left rest, reader ⟨budget, bytes⟩ = .ok (value, ⟨left, rest⟩) ↔
    ∃ form claimed, grammar value form claimed ∧ bytes = form ++ rest ∧ budget = left + claimed

/-- A grammar may be given in other words. -/
lemma Accepts.congr {reader : Unpack α} {grammar other : α → Bytes → Nat → Prop}
    (h : Accepts reader grammar)
    (heq : ∀ value form claimed, other value form claimed ↔ grammar value form claimed) :
    Accepts reader other := by
  intro budget bytes value left rest
  simp only [heq]
  exact h budget bytes value left rest

/-- A reader that reads nothing accepts its value. -/
lemma accepts_done (value : α) :
    Accepts (done value) fun found form claimed => found = value ∧ form = [] ∧ claimed = 0 := by
  intro budget bytes found left rest
  unfold done
  constructor
  · intro h
    obtain ⟨rfl, hrest⟩ := Prod.mk.inj (Except.ok.inj h)
    obtain ⟨rfl, rfl⟩ := Remaining.mk.inj hrest
    exact ⟨[], 0, ⟨rfl, rfl, rfl⟩, rfl, rfl⟩
  · rintro ⟨form, claimed, ⟨rfl, rfl, rfl⟩, rfl, rfl⟩
    rfl

/-- The value of an optional one is accepted if it is there. -/
lemma accepts_orFault (fault : Fault) (value : Option α) :
    Accepts (orFault fault value) fun found form claimed =>
      value = some found ∧ form = [] ∧ claimed = 0 := by
  cases value with
  | none =>
    intro budget bytes found left rest
    refine iff_of_false (fun h => nomatch h) ?_
    rintro ⟨form, claimed, ⟨hnone, -, -⟩, -, -⟩
    cases hnone
  | some value =>
    refine (accepts_done value).congr fun found form claimed => ?_
    rw [Option.some.injEq, eq_comm]

/-- A claim accepts nothing but what the budget covers. -/
lemma accepts_claim (amount : Nat) :
    Accepts (claim amount) fun _ form claimed => form = [] ∧ claimed = amount := by
  intro budget bytes found left rest
  unfold claim
  constructor
  · intro h
    simp only at h
    split_ifs at h with hle
    obtain ⟨rfl, rfl⟩ := Remaining.mk.inj (Prod.mk.inj (Except.ok.inj h)).2
    exact ⟨[], amount, ⟨rfl, rfl⟩, rfl, by omega⟩
  · rintro ⟨form, claimed, ⟨rfl, rfl⟩, rfl, rfl⟩
    simp only
    rw [if_pos (Nat.le_add_left _ _), Nat.add_sub_cancel]

/-- As many bytes as stated are accepted, whatever they are. -/
lemma accepts_take (count : Nat) :
    Accepts (take count) fun found form claimed =>
      found = form ∧ form.length = count ∧ claimed = 0 := by
  intro budget bytes found left rest
  unfold take
  constructor
  · intro h
    simp only at h
    split_ifs at h with hle
    obtain ⟨rfl, hrest⟩ := Prod.mk.inj (Except.ok.inj h)
    obtain ⟨rfl, rfl⟩ := Remaining.mk.inj hrest
    refine ⟨bytes.take count, 0, ⟨rfl, ?_, rfl⟩, (List.take_append_drop count bytes).symm, rfl⟩
    rw [List.length_take, Nat.min_eq_left hle]
  · rintro ⟨form, claimed, ⟨rfl, rfl, rfl⟩, rfl, rfl⟩
    simp only
    rw [if_pos (by simp), List.take_left, List.drop_left]

/-- One byte is accepted, whatever it is. -/
lemma accepts_takeByte :
    Accepts takeByte fun byte form claimed => form = [byte] ∧ claimed = 0 := by
  intro budget bytes found left rest
  unfold takeByte
  cases bytes with
  | nil =>
    refine iff_of_false (fun h => nomatch h) ?_
    rintro ⟨form, claimed, ⟨rfl, -⟩, hbytes, -⟩
    cases hbytes
  | cons byte bytes =>
    constructor
    · intro h
      obtain ⟨rfl, hrest⟩ := Prod.mk.inj (Except.ok.inj h)
      obtain ⟨rfl, rfl⟩ := Remaining.mk.inj hrest
      exact ⟨[byte], 0, ⟨rfl, rfl⟩, rfl, rfl⟩
    · rintro ⟨form, claimed, ⟨rfl, rfl⟩, hbytes, rfl⟩
      obtain ⟨rfl, rfl⟩ := List.cons.inj hbytes
      rfl

/-- Two readers one after the other accept one form after the other. -/
lemma Accepts.andThen {first : Unpack α} {next : α → Unpack β} {grammar : α → Bytes → Nat → Prop}
    {grammars : α → β → Bytes → Nat → Prop} (hfirst : Accepts first grammar)
    (hnext : ∀ a, Accepts (next a) (grammars a)) :
    Accepts (Packed.andThen first next) fun b form claimed =>
      ∃ a front back claimedFront claimedBack, grammar a front claimedFront ∧
        grammars a b back claimedBack ∧ form = front ++ back ∧
        claimed = claimedFront + claimedBack := by
  intro budget bytes value left rest
  unfold Packed.andThen
  constructor
  · intro h
    cases hread : first ⟨budget, bytes⟩ with
    | error fault => rw [hread] at h; cases h
    | ok result =>
      obtain ⟨a, middle, between⟩ := result
      rw [hread] at h
      obtain ⟨front, claimedFront, hgrammar, rfl, rfl⟩ := (hfirst _ _ _ _ _).mp hread
      obtain ⟨back, claimedBack, hgrammars, rfl, rfl⟩ := (hnext a _ _ _ _ _).mp h
      refine ⟨front ++ back, claimedFront + claimedBack,
        ⟨a, front, back, claimedFront, claimedBack, hgrammar, hgrammars, rfl, rfl⟩, ?_, by omega⟩
      rw [List.append_assoc]
  · rintro ⟨form, claimed,
      ⟨a, front, back, claimedFront, claimedBack, hgrammar, hgrammars, rfl, rfl⟩, rfl, rfl⟩
    have hread : first ⟨left + (claimedFront + claimedBack), front ++ back ++ rest⟩ =
        .ok (a, ⟨left + claimedBack, back ++ rest⟩) :=
      (hfirst _ _ _ _ _).mpr ⟨front, claimedFront, hgrammar, List.append_assoc .., by omega⟩
    rw [hread]
    exact (hnext a _ _ _ _ _).mpr ⟨back, claimedBack, hgrammars, rfl, rfl⟩

/-! ### Bytes -/

/-- One byte under a claim. -/
lemma accepts_unpackByte :
    Accepts unpackByte fun byte form claimed => form = [byte] ∧ claimed = 1 := by
  refine ((accepts_claim 1).andThen fun _ => accepts_takeByte).congr fun byte form claimed => ?_
  constructor
  · rintro ⟨rfl, rfl⟩
    exact ⟨(), [], [byte], 1, 0, ⟨rfl, rfl⟩, ⟨rfl, rfl⟩, rfl, rfl⟩
  · rintro ⟨-, front, back, claimedFront, claimedBack, ⟨rfl, rfl⟩, ⟨rfl, rfl⟩, rfl, rfl⟩
    exact ⟨rfl, rfl⟩

/-- Several bytes, each under a claim. -/
lemma accepts_unpackBytes (count : Nat) :
    Accepts (unpackMany unpackByte count) fun found form claimed =>
      form = found ∧ found.length = count ∧ claimed = count := by
  induction count with
  | zero =>
    refine (accepts_done []).congr fun found form claimed => ?_
    constructor
    · rintro ⟨rfl, hlength, rfl⟩
      exact ⟨List.eq_nil_of_length_eq_zero hlength, List.eq_nil_of_length_eq_zero hlength, rfl⟩
    · rintro ⟨rfl, rfl, rfl⟩
      exact ⟨rfl, rfl, rfl⟩
  | succ count ih =>
    refine (accepts_unpackByte.andThen fun byte => ih.andThen fun bytes =>
      accepts_done (byte :: bytes)).congr fun found form claimed => ?_
    constructor
    · rintro ⟨rfl, hlength, rfl⟩
      cases form with
      | nil => cases hlength
      | cons byte bytes =>
        exact ⟨byte, [byte], bytes, 1, count, ⟨rfl, rfl⟩,
          ⟨bytes, bytes, [], count, 0, ⟨rfl, Nat.succ.inj hlength, rfl⟩, ⟨rfl, rfl, rfl⟩,
            (List.append_nil bytes).symm, rfl⟩, rfl, Nat.add_comm _ _⟩
    · rintro ⟨byte, front, back, one, many, ⟨rfl, rfl⟩,
        ⟨bytes, middle, last, manyMiddle, none, ⟨rfl, hlength, rfl⟩, ⟨rfl, rfl, rfl⟩, rfl, rfl⟩,
        rfl, rfl⟩
      refine ⟨?_, congrArg Nat.succ hlength, Nat.add_comm _ _⟩
      rw [List.append_nil]
      rfl

/-! ### Numbers -/

/-- The forms of a number in a field of so many bytes: the number itself in one byte, or a marker
and the number in so many bytes, in more of them than it needs too. -/
inductive Spells (width : Nat) (n : Nat) : Bytes → Prop where
  /-- Small numbers are one byte. -/
  | short : n < 251 → Spells width n [UInt8.ofNat n]
  /-- The marker says how many bytes follow, as a power of two. -/
  | marked (power : Nat) : 0 < power → 2 ^ power ≤ width → n < 256 ^ 2 ^ power →
      Spells width n (UInt8.ofNat (250 + power) :: Bytes.littleEndian (2 ^ power) n)

/-- A marker of a field of at most eight bytes is a byte above 250. -/
lemma toNat_marker {width power : Nat} (hwidth : width ≤ 8) (hpower : 2 ^ power ≤ width) :
    (UInt8.ofNat (250 + power)).toNat = 250 + power := by
  have hle : power ≤ 3 :=
    (Nat.pow_le_pow_iff_right (by decide : 1 < 2)).mp (Nat.le_trans hpower hwidth)
  rw [UInt8.toNat_ofNat']
  omega

/-- A spelled number is in the range of its field. -/
lemma Spells.lt {width n : Nat} {form : Bytes} (h : Spells width n form) (hwidth : 0 < width) :
    n < 256 ^ width := by
  cases h with
  | short hsmall =>
    have hpow : 256 ^ 1 ≤ 256 ^ width := Nat.pow_le_pow_right (by decide) hwidth
    omega
  | marked power _ hfits hrange =>
    exact Nat.lt_of_lt_of_le hrange (Nat.pow_le_pow_right (by decide) hfits)

/-- A number is accepted in each of its forms. -/
lemma accepts_unpackNat {width : Nat} (hwidth : width ≤ 8) :
    Accepts (unpackNat width) fun n form claimed => Spells width n form ∧ claimed = width := by
  intro budget bytes n left rest
  constructor
  · intro h
    rcases Nat.lt_or_ge budget width with hlt | hle
    · rw [unpackNat_refuse width budget bytes hlt] at h
      cases h
    cases bytes with
    | nil =>
      simp only [unpackNat, andThen, claim, if_pos hle, takeByte] at h
      cases h
    | cons lead bytes =>
      rw [unpackNat_cons _ _ _ _ hle] at h
      split_ifs at h with hsmall hfits hlong
      · obtain ⟨rfl, hrest⟩ := Prod.mk.inj (Except.ok.inj h)
        obtain ⟨rfl, rfl⟩ := Remaining.mk.inj hrest
        refine ⟨[lead], width, ⟨?_, rfl⟩, rfl, by omega⟩
        have hform : Spells width lead.toNat [UInt8.ofNat lead.toNat] := .short hsmall
        rwa [UInt8.ofNat_toNat] at hform
      · obtain ⟨rfl, hrest⟩ := Prod.mk.inj (Except.ok.inj h)
        obtain ⟨rfl, rfl⟩ := Remaining.mk.inj hrest
        set power := lead.toNat - 250 with hpower
        have hlength : (bytes.take (Nat.pow 2 power)).length = 2 ^ power := by
          rw [List.length_take, Nat.min_eq_left hlong]
          rfl
        have hrange := Bytes.toNat_lt (bytes.take (Nat.pow 2 power))
        have hbytes := Bytes.littleEndian_toNat (bytes.take (Nat.pow 2 power))
        rw [hlength] at hrange hbytes
        have hmarked := Spells.marked power (by omega) hfits hrange
        have hlead : UInt8.ofNat (250 + power) = lead := by
          rw [hpower, Nat.add_sub_cancel' (by omega), UInt8.ofNat_toNat]
        rw [hbytes, hlead] at hmarked
        refine ⟨_, width, ⟨hmarked, rfl⟩, ?_, by omega⟩
        rw [List.cons_append, List.take_append_drop]
  · rintro ⟨form, claimed, ⟨hform, rfl⟩, rfl, rfl⟩
    have hle : claimed ≤ left + claimed := Nat.le_add_left _ _
    cases hform with
    | short hsmall =>
      have hbyte : (UInt8.ofNat n).toNat = n := by
        rw [UInt8.toNat_ofNat']
        omega
      rw [List.singleton_append, unpackNat_cons _ _ _ _ hle, hbyte, if_pos hsmall,
        Nat.add_sub_cancel]
    | marked power hpos hfits hrange =>
      have hmarker := toNat_marker hwidth hfits
      rw [unpackNat_marked (UInt8.ofNat (250 + power)) (2 ^ power) rest (by omega)
        (by rw [hmarker, Nat.add_sub_cancel_left]; rfl) hfits hrange hle, Nat.add_sub_cancel]

/-! ### Texts, words and digests -/

/-- A word is accepted in each of the forms of its number. -/
lemma accepts_word : Accepts (unpack (α := UInt32)) fun n form claimed =>
    Spells 4 n.toNat form ∧ claimed = 4 := by
  refine ((accepts_unpackNat (by decide)).andThen fun n => accepts_done (UInt32.ofNat n)).congr
    fun word form claimed => ?_
  constructor
  · rintro ⟨hform, rfl⟩
    exact ⟨word.toNat, form, [], 4, 0, ⟨hform, rfl⟩, ⟨UInt32.ofNat_toNat.symm, rfl, rfl⟩,
      (List.append_nil form).symm, rfl⟩
  · rintro ⟨n, front, back, four, none, ⟨hform, rfl⟩, ⟨rfl, rfl, rfl⟩, rfl, rfl⟩
    have hn : (UInt32.ofNat n).toNat = n := UInt32.toNat_ofNat_of_lt' (hform.lt (by decide))
    rw [hn, List.append_nil]
    exact ⟨hform, rfl⟩

/-- A text is accepted if the form of its length is followed by its bytes. -/
lemma accepts_text : Accepts (unpack (α := String)) fun text form claimed =>
    ∃ length, Spells 8 (Bytes.ofText text).length length ∧ form = length ++ Bytes.ofText text ∧
      claimed = 8 + (Bytes.ofText text).length := by
  refine ((accepts_unpackNat (by decide)).andThen fun length => (accepts_claim length).andThen
    fun _ => (accepts_take length).andThen fun bytes =>
      accepts_orFault .badText (Bytes.text? bytes)).congr fun text form claimed => ?_
  constructor
  · rintro ⟨length, hlength, rfl, rfl⟩
    refine ⟨_, length, Bytes.ofText text, 8, (Bytes.ofText text).length, ⟨hlength, rfl⟩, ?_, rfl,
      rfl⟩
    exact ⟨(), [], Bytes.ofText text, _, 0, ⟨rfl, rfl⟩,
      ⟨Bytes.ofText text, Bytes.ofText text, [], 0, 0, ⟨rfl, rfl, rfl⟩,
        ⟨Bytes.text?_ofText text, rfl, rfl⟩, (List.append_nil _).symm, rfl⟩, rfl, rfl⟩
  · rintro ⟨count, length, back, eight, claimedBack, ⟨hlength, rfl⟩,
      ⟨-, front, bytes, amount, nothing, ⟨rfl, rfl⟩,
        ⟨taken, form, last, free, none, ⟨rfl, rfl, rfl⟩, ⟨htext, rfl, rfl⟩, rfl, rfl⟩, rfl, rfl⟩,
      rfl, rfl⟩
    rw [Bytes.text?_eq_some] at htext
    rw [htext] at hlength
    refine ⟨length, hlength, ?_, ?_⟩
    · rw [htext, List.append_nil, List.nil_append]
    · rw [htext]
      rfl

/-- A digest is accepted as its bytes. -/
lemma accepts_digest : Accepts (unpack (α := Digest)) fun digest form claimed =>
    form = digest.bytes ∧ claimed = 16 := by
  refine ((accepts_unpackBytes 16).andThen fun bytes =>
    accepts_orFault .unexpectedEnd (Digest.ofList? bytes)).congr fun digest form claimed => ?_
  constructor
  · rintro ⟨rfl, rfl⟩
    refine ⟨digest.bytes, digest.bytes, [], 16, 0, ⟨rfl, digest.length_bytes, rfl⟩, ⟨?_, rfl, rfl⟩,
      (List.append_nil _).symm, rfl⟩
    rw [Digest.ofList?, dif_pos digest.length_bytes]
  · rintro ⟨bytes, front, back, sixteen, none, ⟨rfl, hlength, rfl⟩, ⟨hdigest, rfl, rfl⟩, rfl, rfl⟩
    rw [Digest.ofList?, dif_pos hlength, Option.some.injEq] at hdigest
    rw [← hdigest, List.append_nil]
    exact ⟨rfl, rfl⟩

end Packed

end Recompile
