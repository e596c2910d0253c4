import Mathlib.Tactic.Common
import Recompile.Json.Printer
import Recompile.Json.Reader

/-!
# Reading JSON back

A value that has only integers and texts (`Json.Plain`) is read back from its indented layout
(`Json.read?_pretty`).  Each form is read back from the front of a longer text: literals as they
are, texts whatever follows their closing quote, and integers as long as what follows does not go on
with them (`Json.Ends`).

The reader has fuel, and a value needs no more of it than it has characters.
-/

namespace Recompile.Json

/-! ### Integers -/

/-- What follows a number does not go on with it. -/
def Ends (rest : List Char) : Prop :=
  ∀ c ∈ rest.head?, c.isDigit = false ∧ c ≠ '.' ∧ c ≠ 'e' ∧ c ≠ 'E'

/-- A number may be the last thing. -/
lemma ends_nil : Ends [] := by
  intro c hc
  cases hc

/-- A number may stand before a comma. -/
lemma ends_comma (rest : List Char) : Ends (',' :: rest) := by
  intro c hc
  obtain rfl := Option.some.inj hc
  decide

/-- A number may stand before a new line. -/
lemma ends_newLine (level : Nat) (rest : List Char) : Ends (newLine level ++ rest) := by
  intro c hc
  obtain rfl := Option.some.inj hc
  decide

/-- All the digits of a number are taken. -/
lemma takeWhile_digits {digits rest : List Char} (hdigits : ∀ c ∈ digits, c.isDigit = true)
    (hrest : Ends rest) : (digits ++ rest).takeWhile Char.isDigit = digits ∧
      (digits ++ rest).dropWhile Char.isDigit = rest := by
  have hstop : rest.takeWhile Char.isDigit = [] ∧ rest.dropWhile Char.isDigit = rest := by
    cases rest with
    | nil => exact ⟨rfl, rfl⟩
    | cons c rest =>
      have hc := (hrest c rfl).1
      exact ⟨List.takeWhile_cons_of_neg (by simp [hc]), List.dropWhile_cons_of_neg (by simp [hc])⟩
  rw [List.takeWhile_append_of_pos hdigits, List.dropWhile_append_of_pos hdigits, hstop.1, hstop.2,
    List.append_nil]
  exact ⟨rfl, rfl⟩

/-- A number has a first digit. -/
lemma exists_toDigits (n : Nat) :
    ∃ c cs, Nat.toDigits 10 n = c :: cs ∧ c.isDigit = true := by
  have hne : Nat.toDigits 10 n ≠ [] := Nat.toDigits_ne_nil
  obtain ⟨c, cs, heq⟩ := List.exists_cons_of_ne_nil hne
  have hmem : c ∈ Nat.toDigits 10 n := by
    rw [heq]
    exact List.mem_cons_self
  exact ⟨c, cs, heq, Nat.isDigit_of_mem_toDigits (by decide) (by decide) hmem⟩

/-- The first digit of a number is a zero only for zero. -/
lemma head_toDigits {n : Nat} (h : 0 < n) {c : Char} {cs : List Char}
    (heq : Nat.toDigits 10 n = c :: cs) : c ≠ '0' := by
  induction n using Nat.strongRecOn generalizing cs with
  | ind n ih =>
    rw [Nat.toDigits_eq_if (by decide)] at heq
    split_ifs at heq with hlt
    · have hdigits : ∀ m < 10, 0 < m → Nat.digitChar m ≠ '0' := by decide
      rw [← (List.cons.inj heq).1]
      exact hdigits n hlt h
    · obtain ⟨d, ds, hquot, -⟩ := exists_toDigits (n / 10)
      rw [hquot, List.cons_append] at heq
      obtain ⟨rfl, -⟩ := List.cons.inj heq
      exact ih (n / 10) (by omega) (by omega) hquot

/-- The digits of a number are read back. -/
lemma readWhole_toDigits (n : Nat) {rest : List Char} (h : Ends rest) :
    readWhole (Nat.toDigits 10 n ++ rest) = some (Nat.toDigits 10 n, rest) := by
  rcases Nat.eq_zero_or_pos n with rfl | hpos
  · rfl
  · have hdigits : ∀ c ∈ Nat.toDigits 10 n, c.isDigit = true := fun c hc =>
      Nat.isDigit_of_mem_toDigits (by decide) (by decide) hc
    obtain ⟨htake, hdrop⟩ := takeWhile_digits hdigits h
    obtain ⟨c, cs, heq, -⟩ := exists_toDigits n
    have hhead := head_toDigits hpos heq
    unfold readWhole
    split
    · rename_i tail hzero
      rw [heq, List.cons_append] at hzero
      exact absurd (List.cons.inj hzero).1 hhead
    · simp only [htake, hdrop, List.isEmpty_iff, Nat.toDigits_ne_nil, if_false]

/-- No fraction and no exponent is read before what ends a number. -/
lemma readFraction_of_ends {rest : List Char} (h : Ends rest) :
    readFraction rest = some ([], rest) ∧ readExponent rest = some ([], rest) := by
  cases rest with
  | nil => exact ⟨rfl, rfl⟩
  | cons c rest =>
    obtain ⟨-, hdot, he, hE⟩ := h c rfl
    constructor
    · unfold readFraction
      split
      · rename_i heq
        exact absurd (List.cons.inj heq).1 hdot
      · rfl
    · unfold readExponent
      simp only [he, hE, or_self, if_false]

/-- The magnitude of a number is read back. -/
lemma readUnsigned_toDigits (negative : Bool) (n : Nat) (hn : negative = true → n ≠ 0)
    {rest : List Char} (h : Ends rest) :
    readUnsigned negative (Nat.toDigits 10 n ++ rest) =
      some (.int (if negative then -(n : Int) else n), rest) := by
  obtain ⟨hfraction, hexponent⟩ := readFraction_of_ends h
  have hvalue : ofDigits (Nat.toDigits 10 n) = n := Nat.ofDigitChars_ten_toDigits
  have hzero : (negative && n == 0) = false := by
    cases negative with
    | false => rfl
    | true => simpa using hn rfl
  unfold readUnsigned
  simp only [readWhole_toDigits n h, hfraction, hexponent, bind, Option.bind, hvalue, hzero,
    List.isEmpty_nil, Bool.not_false, Bool.and_self, if_true]
  rfl

/-- A sign or a digit starts an integer. -/
lemma head_intChars (value : Int) :
    ∃ c cs, intChars value = c :: cs ∧ (c.isDigit = true ∨ c = '-') := by
  cases value with
  | ofNat n =>
    obtain ⟨c, cs, heq, hdigit⟩ := exists_toDigits n
    exact ⟨c, cs, heq, .inl hdigit⟩
  | negSucc n => exact ⟨'-', _, rfl, .inr rfl⟩

/-- Integers are read back. -/
lemma readNumber_intChars (value : Int) {rest : List Char} (h : Ends rest) :
    readNumber (intChars value ++ rest) = some (.int value, rest) := by
  cases value with
  | ofNat n =>
    have hread := readUnsigned_toDigits false n (fun hfalse => absurd hfalse Bool.false_ne_true) h
    obtain ⟨c, cs, heq, hdigit⟩ := exists_toDigits n
    have hminus : c ≠ '-' := by
      rintro rfl
      exact absurd hdigit (by decide)
    have hnumber : readNumber (Nat.toDigits 10 n ++ rest) =
        readUnsigned false (Nat.toDigits 10 n ++ rest) := by
      rw [heq, List.cons_append]
      unfold readNumber
      split
      · rename_i tail hcons
        exact absurd (List.cons.inj hcons).1 hminus
      · rfl
    exact hnumber.trans hread
  | negSucc n => exact readUnsigned_toDigits true (n + 1) (fun _ => Nat.succ_ne_zero n) h

/-! ### Texts -/

/-- What is read of one character of a text: controls without a short escape are read as units. -/
def pieceOf (c : Char) : Piece :=
  if c.toNat < 0x20 ∧ c ≠ '\x08' ∧ c ≠ '\t' ∧ c ≠ '\n' ∧ c ≠ '\x0c' ∧ c ≠ '\r' then .unit c.toNat
  else .char c

/-- The unit of a control is read back. -/
lemma unit?_control {n : Nat} (h : n < 0x20) :
    unit? '0' '0' (Nat.digitChar (n / 16)) (Nat.digitChar (n % 16)) = some n := by
  revert n
  decide

/-- A character that is not escaped is read as it is. -/
lemma readPieces_plain {c : Char} (hquote : c ≠ '"') (hslash : c ≠ '\\')
    (hcontrol : ¬ c.toNat < 0x20) (rest : List Char) :
    readPieces (c :: rest) = consPiece (.char c) (readPieces rest) := by
  rw [readPieces.eq_def]
  split
  · rename_i heq
    cases heq
  · rename_i heq
    exact absurd (List.cons.inj heq).1 hquote
  · rename_i heq
    exact absurd (List.cons.inj heq).1 hslash
  · rename_i heq
    exact absurd (List.cons.inj heq).1 hslash
  · rename_i heq
    obtain ⟨rfl, rfl⟩ := List.cons.inj heq
    rw [if_neg (not_or.mpr ⟨hcontrol, hslash⟩)]

/-- One character of a text is read back. -/
lemma readPieces_escapedChar (c : Char) (rest : List Char) :
    readPieces (escapedChar c ++ rest) = consPiece (pieceOf c) (readPieces rest) := by
  unfold escapedChar
  by_cases h₁ : c = '"'
  · subst h₁
    rfl
  by_cases h₂ : c = '\\'
  · subst h₂
    rfl
  by_cases h₃ : c = '\x08'
  · subst h₃
    rfl
  by_cases h₄ : c = '\t'
  · subst h₄
    rfl
  by_cases h₅ : c = '\n'
  · subst h₅
    rfl
  by_cases h₆ : c = '\x0c'
  · subst h₆
    rfl
  by_cases h₇ : c = '\r'
  · subst h₇
    rfl
  simp only [h₁, h₂, h₃, h₄, h₅, h₆, h₇, if_false]
  by_cases h₈ : c.toNat < 0x20
  · have hpiece : pieceOf c = .unit c.toNat := if_pos ⟨h₈, h₃, h₄, h₅, h₆, h₇⟩
    rw [if_pos h₈, hpiece]
    simp only [List.cons_append, List.nil_append]
    rw [readPieces, unit?_control h₈]
  · have hpiece : pieceOf c = .char c := if_neg fun h => h₈ h.1
    rw [if_neg h₈, hpiece, List.cons_append, List.nil_append, readPieces_plain h₁ h₂ h₈]

/-- The characters of a text are read back up to the closing quote. -/
lemma readPieces_text (cs rest : List Char) :
    readPieces (cs.flatMap escapedChar ++ '"' :: rest) = some (cs.map pieceOf, rest) := by
  induction cs with
  | nil => rfl
  | cons c cs ih =>
    rw [List.flatMap_cons, List.append_assoc, readPieces_escapedChar, ih]
    rfl

/-- A unit that is no surrogate is assembled to its character. -/
lemma assemble_unit {value : Nat} (h : value < 0x20) (pieces : List Piece) :
    assemble (.unit value :: pieces) = (assemble pieces).map (Char.ofNat value :: ·) := by
  have hhigh : isHighSurrogate value = false := by
    rw [isHighSurrogate, decide_eq_false (by omega), Bool.false_and]
  have hlow : isLowSurrogate value = false := by
    rw [isLowSurrogate, decide_eq_false (by omega), Bool.false_and]
  cases pieces with
  | nil => simp [assemble, hhigh, hlow]
  | cons piece rest =>
    cases piece with
    | unit low => simp [assemble, hhigh, hlow]
    | char c =>
      simp only [assemble, hhigh, hlow, Bool.or_self, Bool.false_eq_true, if_false, Option.map_map]
      rfl

/-- The pieces of a text are assembled to that text. -/
lemma assemble_text (cs : List Char) : assemble (cs.map pieceOf) = some cs := by
  induction cs with
  | nil => rfl
  | cons c cs ih =>
    rw [List.map_cons, pieceOf]
    split_ifs with h
    · rw [assemble_unit h.1, ih, Option.map_some, Char.ofNat_toNat]
    · rw [assemble, ih, Option.map_some]

/-- Texts are read back. -/
lemma readText_text (text : String) (rest : List Char) :
    readText (text.toList.flatMap escapedChar ++ '"' :: rest) = some (some text, rest) := by
  unfold readText
  simp only [readPieces_text, Option.map_some, assemble_text, String.ofList_toList]

/-! ### Values -/

mutual

/-- A value with integers and texts only. -/
def Plain : Json → Prop
  | .real _ => False
  | .unpaired => False
  | .array items => PlainItems items
  | .object members => PlainMembers members
  | _ => True
termination_by structural value => value

/-- Items with integers and texts only. -/
def PlainItems : List Json → Prop
  | [] => True
  | item :: items => Plain item ∧ PlainItems items
termination_by structural items => items

/-- A key that is a text, with its value. -/
def PlainMember : Option String × Json → Prop
  | (key, value) => key.isSome ∧ Plain value
termination_by structural member => member

/-- Members with integers and texts only. -/
def PlainMembers : List (Option String × Json) → Prop
  | [] => True
  | member :: members => PlainMember member ∧ PlainMembers members
termination_by structural members => members

end

/-- Blanks before a value are skipped. -/
lemma skipSpace_newLine (level : Nat) (cs : List Char) :
    skipSpace (newLine level ++ cs) = skipSpace cs := by
  have hblank : ∀ c ∈ newLine level, isSpace c = true := by
    intro c hc
    rcases List.mem_cons.mp hc with rfl | hc
    · rfl
    · rw [List.eq_of_mem_replicate hc]
      rfl
  exact List.dropWhile_append_of_pos hblank

/-- A character that is no blank is not skipped. -/
lemma skipSpace_cons {c : Char} (h : isSpace c = false) (cs : List Char) :
    skipSpace (c :: cs) = c :: cs :=
  List.dropWhile_cons_of_neg (by rw [h]; exact Bool.false_ne_true)

/-- A comma is not skipped. -/
lemma skipSpace_comma (cs : List Char) : skipSpace (',' :: cs) = ',' :: cs :=
  skipSpace_cons rfl cs

/-- Neither is a colon. -/
lemma skipSpace_colon (cs : List Char) : skipSpace (':' :: cs) = ':' :: cs :=
  skipSpace_cons rfl cs

/-- Characters that a value may start with: they are no blanks and close nothing. -/
def Opens (c : Char) : Prop :=
  isSpace c = false ∧ c ≠ ']' ∧ c ≠ '\x7d'

/-- A sign or a digit may start a value. -/
lemma opens_of_isDigit {c : Char} (h : c.isDigit = true ∨ c = '-') : Opens c := by
  rcases h with h | rfl
  · have hne : ∀ d : Char, d.isDigit = false → c ≠ d := by
      rintro d hd rfl
      rw [h] at hd
      cases hd
    refine ⟨?_, hne _ (by decide), hne _ (by decide)⟩
    unfold isSpace
    rw [decide_eq_false (hne ' ' (by decide)), decide_eq_false (hne '\n' (by decide)),
      decide_eq_false (hne '\t' (by decide)), decide_eq_false (hne '\r' (by decide))]
    rfl
  · exact ⟨rfl, by decide, by decide⟩

/-- What a value starts with. -/
lemma head_prettyChars (level : Nat) {value : Json} (h : value.Plain) :
    ∃ c cs, prettyChars level value = c :: cs ∧ Opens c := by
  cases value with
  | null => exact ⟨'n', _, rfl, rfl, by decide, by decide⟩
  | bool value => cases value <;> exact ⟨_, _, rfl, rfl, by decide, by decide⟩
  | int value =>
    obtain ⟨c, cs, heq, hc⟩ := head_intChars value
    exact ⟨c, cs, heq, opens_of_isDigit hc⟩
  | real literal => exact h.elim
  | text value => exact ⟨'"', _, rfl, rfl, by decide, by decide⟩
  | unpaired => exact h.elim
  | array items => cases items <;> exact ⟨'[', _, rfl, rfl, by decide, by decide⟩
  | object members => cases members <;> exact ⟨'\x7b', _, rfl, rfl, by decide, by decide⟩

/-- A member starts with a quote. -/
lemma head_prettyMember (level : Nat) {member : Option String × Json} (h : PlainMember member) :
    ∃ cs, prettyMember level member = '"' :: cs := by
  obtain ⟨key, value⟩ := member
  obtain ⟨name, rfl⟩ := Option.isSome_iff_exists.mp h.1
  exact ⟨_, rfl⟩

/-- What a list goes on with may end a number. -/
lemma ends_prettyItems (level : Nat) (items : List Json) (rest : List Char) :
    Ends (prettyItems level items ++ rest) := by
  cases items with
  | nil =>
    rw [prettyItems, List.append_assoc]
    exact ends_newLine level _
  | cons item items => exact ends_comma _

/-- What an object goes on with may end a number. -/
lemma ends_prettyMembers (level : Nat) (members : List (Option String × Json))
    (rest : List Char) : Ends (prettyMembers level members ++ rest) := by
  cases members with
  | nil =>
    rw [prettyMembers, List.append_assoc]
    exact ends_newLine level _
  | cons member members => exact ends_comma _

/-- A value is read after blanks as without them. -/
lemma readValue_congr (fuel : Nat) {cs cs' : List Char} (h : skipSpace cs = skipSpace cs') :
    readValue fuel cs = readValue fuel cs' := by
  cases fuel with
  | zero => rfl
  | succ fuel => rw [readValue, readValue, h]

/-- A number is read if a sign or a digit is there. -/
lemma readValue_number (fuel : Nat) {c : Char} (hc : c.isDigit = true ∨ c = '-')
    (cs : List Char) : readValue (fuel + 1) (c :: cs) = readNumber (c :: cs) := by
  have hne : ∀ d : Char, d.isDigit = false → d ≠ '-' → c ≠ d := by
    rintro d hd hminus rfl
    rcases hc with h | h
    · rw [h] at hd
      cases hd
    · exact hminus h
  rw [readValue, skipSpace_cons (opens_of_isDigit hc).1]
  split
  all_goals
    first
    | rfl
    | rename_i heq
      exact absurd (List.cons.inj heq).1 (hne _ (by decide) (by decide))

/-- Values, items and members are read back with so much fuel. -/
structure ReadsBackWithin (fuel : Nat) : Prop where
  /-- Values are, if there is more fuel than characters. -/
  value : ∀ (level : Nat) (value : Json) (rest : List Char), value.Plain →
    (prettyChars level value).length < fuel → Ends rest →
    readValue fuel (prettyChars level value ++ rest) = some (value, rest)
  /-- Items are, up to the end of the list. -/
  items : ∀ (level : Nat) (item : Json) (items : List Json) (cs rest : List Char), item.Plain →
    PlainItems items →
    (prettyChars (level + 1) item).length + (prettyItems level items).length < fuel →
    skipSpace cs = prettyChars (level + 1) item ++ (prettyItems level items ++ rest) →
    readItems fuel cs = some (item :: items, rest)
  /-- Members are, up to the end of the object. -/
  members : ∀ (level : Nat) (member : Option String × Json)
    (members : List (Option String × Json)) (cs rest : List Char), PlainMember member →
    PlainMembers members →
    (prettyMember (level + 1) member).length + (prettyMembers level members).length < fuel →
    skipSpace cs = prettyMember (level + 1) member ++ (prettyMembers level members ++ rest) →
    readMembers fuel cs = some (member :: members, rest)

namespace ReadsBackWithin

variable {fuel : Nat}

/-- A value is read back with one more step than what is in it. -/
lemma value_succ (h : ReadsBackWithin fuel) (level : Nat) (value : Json) (rest : List Char)
    (hplain : value.Plain) (hfuel : (prettyChars level value).length < fuel + 1)
    (hrest : Ends rest) :
    readValue (fuel + 1) (prettyChars level value ++ rest) = some (value, rest) := by
  cases value with
  | null => rfl
  | bool value => cases value <;> rfl
  | int value =>
    obtain ⟨c, cs, heq, hc⟩ := head_intChars value
    rw [prettyChars, ← readNumber_intChars value hrest, heq]
    exact readValue_number fuel hc _
  | real literal => exact hplain.elim
  | text value =>
    have htext : prettyChars level (.text value) ++ rest =
        '"' :: (value.toList.flatMap escapedChar ++ '"' :: rest) := by
      rw [prettyChars, textChars, List.cons_append, List.cons_append, List.append_assoc]
      rfl
    rw [htext, readValue, skipSpace_cons rfl]
    simp only [readText_text]
  | unpaired => exact hplain.elim
  | array items =>
    cases items with
    | nil => rfl
    | cons item items =>
      obtain ⟨hitem, hitems⟩ := hplain
      rw [prettyChars] at hfuel ⊢
      simp only [List.length_append, List.length_cons] at hfuel
      obtain ⟨inner, hinner⟩ : ∃ inner, inner = prettyChars (level + 1) item ++
        (prettyItems level items ++ rest) := ⟨_, rfl⟩
      obtain ⟨c, cs, hhead, hopens⟩ := head_prettyChars (level + 1) hitem
      have hcons : inner = c :: (cs ++ (prettyItems level items ++ rest)) := by
        rw [hinner, hhead, List.cons_append]
      have hskip : skipSpace inner = inner := by rw [hcons, skipSpace_cons hopens.1]
      have hread := h.items level item items inner rest hitem hitems (by omega)
        (hskip.trans hinner)
      have hform : '[' :: newLine (level + 1) ++ prettyChars (level + 1) item ++
          prettyItems level items ++ rest = '[' :: (newLine (level + 1) ++ inner) := by
        simp only [hinner, List.cons_append, List.append_assoc]
      rw [hform, readValue, skipSpace_cons rfl]
      simp only [skipSpace_newLine, hskip]
      split
      · exact absurd (List.cons.inj hcons).1.symm hopens.2.1
      · rw [hread, Option.map_some]
  | object members =>
    cases members with
    | nil => rfl
    | cons member members =>
      obtain ⟨hmember, hmembers⟩ := hplain
      rw [prettyChars] at hfuel ⊢
      simp only [List.length_append, List.length_cons] at hfuel
      obtain ⟨inner, hinner⟩ : ∃ inner, inner = prettyMember (level + 1) member ++
        (prettyMembers level members ++ rest) := ⟨_, rfl⟩
      obtain ⟨cs, hhead⟩ := head_prettyMember (level + 1) hmember
      have hcons : inner = '"' :: (cs ++ (prettyMembers level members ++ rest)) := by
        rw [hinner, hhead, List.cons_append]
      have hskip : skipSpace inner = inner := by rw [hcons, skipSpace_cons rfl]
      have hread := h.members level member members inner rest hmember hmembers (by omega)
        (hskip.trans hinner)
      have hform : '\x7b' :: newLine (level + 1) ++ prettyMember (level + 1) member ++
          prettyMembers level members ++ rest = '\x7b' :: (newLine (level + 1) ++ inner) := by
        simp only [hinner, List.cons_append, List.append_assoc]
      rw [hform, readValue, skipSpace_cons rfl]
      simp only [skipSpace_newLine, hskip]
      split
      · exact absurd (List.cons.inj hcons).1 (by decide)
      · rw [hread, Option.map_some]

/-- Items are read back with one more step than what is in them. -/
lemma items_succ (h : ReadsBackWithin fuel) (level : Nat) (item : Json) (items : List Json)
    (cs rest : List Char) (hitem : item.Plain) (hitems : PlainItems items)
    (hfuel : (prettyChars (level + 1) item).length + (prettyItems level items).length < fuel + 1)
    (hcs : skipSpace cs = prettyChars (level + 1) item ++ (prettyItems level items ++ rest)) :
    readItems (fuel + 1) cs = some (item :: items, rest) := by
  obtain ⟨c, tail, hhead, hopens⟩ := head_prettyChars (level + 1) hitem
  have hskip : skipSpace cs = skipSpace (prettyChars (level + 1) item ++
      (prettyItems level items ++ rest)) := by
    rw [hcs, hhead, List.cons_append, skipSpace_cons hopens.1]
  have hpos : 0 < (prettyItems level items).length := by
    cases items <;> simp [prettyItems, newLine]
  have hread := h.value (level + 1) item (prettyItems level items ++ rest) hitem (by omega)
    (ends_prettyItems level items rest)
  rw [readItems, readValue_congr fuel hskip, hread]
  cases items with
  | nil =>
    rw [prettyItems, List.append_assoc]
    simp only [skipSpace_newLine]
    rfl
  | cons next items =>
    obtain ⟨hnext, hitems⟩ := hitems
    rw [prettyItems] at hfuel ⊢
    simp only [List.length_append, List.length_cons] at hfuel
    have hone : 0 < (prettyChars (level + 1) item).length := by
      rw [hhead]
      exact Nat.succ_pos _
    obtain ⟨d, ds, hnexthead, hnextopens⟩ := head_prettyChars (level + 1) hnext
    have hlater : skipSpace (newLine (level + 1) ++ (prettyChars (level + 1) next ++
        (prettyItems level items ++ rest))) = prettyChars (level + 1) next ++
          (prettyItems level items ++ rest) := by
      rw [skipSpace_newLine, hnexthead, List.cons_append, skipSpace_cons hnextopens.1]
    have hrest := h.items level next items _ rest hnext hitems (by omega) hlater
    simp only [List.cons_append, List.append_assoc, skipSpace_comma]
    rw [hrest, Option.map_some]

/-- Members are read back with one more step than what is in them. -/
lemma members_succ (h : ReadsBackWithin fuel) (level : Nat) (member : Option String × Json)
    (members : List (Option String × Json)) (cs rest : List Char) (hmember : PlainMember member)
    (hmembers : PlainMembers members)
    (hfuel : (prettyMember (level + 1) member).length + (prettyMembers level members).length <
      fuel + 1)
    (hcs : skipSpace cs = prettyMember (level + 1) member ++
      (prettyMembers level members ++ rest)) :
    readMembers (fuel + 1) cs = some (member :: members, rest) := by
  obtain ⟨key, value⟩ := member
  obtain ⟨hkey, hvalue⟩ := hmember
  obtain ⟨name, rfl⟩ := Option.isSome_iff_exists.mp hkey
  have hform : prettyMember (level + 1) (some name, value) ++
      (prettyMembers level members ++ rest) = '"' :: (name.toList.flatMap escapedChar ++
        '"' :: ':' :: ' ' :: (prettyChars (level + 1) value ++
          (prettyMembers level members ++ rest))) := by
    simp only [prettyMember, keyChars, textChars, List.cons_append, List.append_assoc,
      List.nil_append]
  have hlength : (prettyChars (level + 1) value).length <
      (prettyMember (level + 1) (some name, value)).length := by
    simp only [prettyMember, keyChars, textChars, List.length_append, List.length_cons]
    omega
  obtain ⟨c, tail, hhead, hopens⟩ := head_prettyChars (level + 1) hvalue
  have hskip : skipSpace (' ' :: (prettyChars (level + 1) value ++
      (prettyMembers level members ++ rest))) = skipSpace (prettyChars (level + 1) value ++
        (prettyMembers level members ++ rest)) := rfl
  have hpos : 0 < (prettyMembers level members).length := by
    cases members <;> simp [prettyMembers, newLine]
  have hread := h.value (level + 1) value (prettyMembers level members ++ rest) hvalue (by omega)
    (ends_prettyMembers level members rest)
  rw [readMembers, hcs, hform]
  simp only [readText_text, skipSpace_colon]
  rw [readValue_congr fuel hskip, hread]
  cases members with
  | nil =>
    rw [prettyMembers, List.append_assoc]
    simp only [skipSpace_newLine]
    rfl
  | cons next members =>
    obtain ⟨hnext, hmembers⟩ := hmembers
    rw [prettyMembers] at hfuel ⊢
    simp only [List.length_append, List.length_cons] at hfuel
    obtain ⟨ds, hnexthead⟩ := head_prettyMember (level + 1) hnext
    have hlater : skipSpace (newLine (level + 1) ++ (prettyMember (level + 1) next ++
        (prettyMembers level members ++ rest))) = prettyMember (level + 1) next ++
          (prettyMembers level members ++ rest) := by
      rw [skipSpace_newLine, hnexthead, List.cons_append, skipSpace_cons rfl]
    have hrest := h.members level next members _ rest hnext hmembers (by omega) hlater
    simp only [List.cons_append, List.append_assoc, skipSpace_comma]
    rw [hrest, Option.map_some]

end ReadsBackWithin

/-- With any fuel, whatever has fewer characters is read back. -/
theorem readsBackWithin (fuel : Nat) : ReadsBackWithin fuel := by
  induction fuel with
  | zero =>
    constructor
    · intro level value rest _ hfuel
      exact absurd hfuel (Nat.not_lt_zero _)
    · intro level item items cs rest _ _ hfuel
      exact absurd hfuel (Nat.not_lt_zero _)
    · intro level member members cs rest _ _ hfuel
      exact absurd hfuel (Nat.not_lt_zero _)
  | succ fuel ih => exact ⟨ih.value_succ, ih.items_succ, ih.members_succ⟩

/-- A value with integers and texts only is read back from its indented layout. -/
theorem read?_pretty {value : Json} (h : value.Plain) : read? value.pretty = some value := by
  unfold read? pretty
  simp only [String.toList_ofList]
  have hread := (readsBackWithin (2 * (prettyChars 0 value).length + 2)).value 0 value [] h
    (by omega) ends_nil
  rw [List.append_nil] at hread
  rw [hread]
  rfl

end Recompile.Json
