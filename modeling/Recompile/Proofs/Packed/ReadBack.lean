import Mathlib.Algebra.Ring.Nat
import Mathlib.Tactic.Common
import Recompile.Packed.Basic

/-!
# Reading back what was packed

A reader that is given the packed form of a value, followed by anything, gives back exactly that
value and leaves what follows; if the budget does not allow that, it fails, and never gives another
value (`Packed.ReadsBack`).  How much of the budget a value needs is its *cost*.  Reading is also
stable: bytes that are appended to the input of a successful reading are left over
(`Packed.Stable`).  So no proper prefix of a packed form can be read as that type.

Both properties pass through `Packed.andThen`, which is how the readers of structures are built, and
`LawfulPacked` collects them for the types with a packed form.
-/

namespace Recompile

namespace Packed

/-! ### The two laws of a reader -/

/-- Budgets below this bound are the ones that readers are ever given. -/
def budgetBound : Nat := 18446744073709551616

/-- The reader gives back the value from its packed form, at the stated cost, or fails. -/
structure ReadsBack {α : Type} (reader : Unpack α) (value : α) (form : Bytes) (cost : Nat) :
    Prop where
  /-- With enough budget the value is read, and what follows is left. -/
  read : ∀ budget rest, budget < budgetBound → cost ≤ budget →
    reader ⟨budget, form ++ rest⟩ = .ok (value, ⟨budget - cost, rest⟩)
  /-- With less budget the reader fails. -/
  refuse : ∀ budget rest, budget < budgetBound → budget < cost →
    ∃ fault, reader ⟨budget, form ++ rest⟩ = .error fault

/-- Bytes appended to the input of a successful reading are left over. -/
def Stable {α : Type} (reader : Unpack α) : Prop :=
  ∀ budget bytes value left rest more, reader ⟨budget, bytes⟩ = .ok (value, ⟨left, rest⟩) →
    reader ⟨budget, bytes ++ more⟩ = .ok (value, ⟨left, rest ++ more⟩)

variable {α β : Type}

/-- A reading of a packed form that succeeds gives the packed value and what follows. -/
lemma ReadsBack.eq_of_read {reader : Unpack α} {value : α} {form : Bytes} {cost : Nat}
    (h : ReadsBack reader value form cost) {budget : Nat} (hb : budget < budgetBound)
    {rest : Bytes} {found : α} {left : Remaining}
    (hread : reader ⟨budget, form ++ rest⟩ = .ok (found, left)) :
    found = value ∧ left.bytes = rest := by
  rcases Nat.lt_or_ge budget cost with hlt | hle
  · obtain ⟨fault, hfault⟩ := h.refuse budget rest hb hlt
    rw [hfault] at hread
    cases hread
  · rw [h.read budget rest hb hle] at hread
    cases hread
    exact ⟨rfl, rfl⟩

/-- The form and the cost may be given in other words. -/
lemma ReadsBack.of_eq {reader : Unpack α} {value : α} {form form' : Bytes} {cost cost' : Nat}
    (h : ReadsBack reader value form cost) (hform : form' = form) (hcost : cost' = cost) :
    ReadsBack reader value form' cost' := by
  subst hform hcost
  exact h

/-- A reader that reads nothing gives its value back for free. -/
lemma readsBack_done (value : α) : ReadsBack (done value) value [] 0 where
  read budget rest _ _ := by simp [done]
  refuse budget rest _ h := absurd h (Nat.not_lt_zero budget)

/-- Two readers one after the other read back one form after the other. -/
lemma ReadsBack.andThen {first : Unpack α} {a : α} {b : β} {formA formB : Bytes}
    {costA costB : Nat} (hfirst : ReadsBack first a formA costA) (next : α → Unpack β)
    (hnext : ReadsBack (next a) b formB costB) :
    ReadsBack (andThen first next) b (formA ++ formB) (costA + costB) where
  read budget rest hb hcost := by
    have hA : costA ≤ budget := by omega
    have hB : costB ≤ budget - costA := by omega
    have hleft : budget - costA < budgetBound := by omega
    unfold Packed.andThen
    rw [List.append_assoc, hfirst.read budget (formB ++ rest) hb hA]
    simp only
    rw [hnext.read (budget - costA) rest hleft hB, Nat.sub_sub]
  refuse budget rest hb hcost := by
    unfold Packed.andThen
    rw [List.append_assoc]
    rcases Nat.lt_or_ge budget costA with hlt | hle
    · obtain ⟨fault, hfault⟩ := hfirst.refuse budget (formB ++ rest) hb hlt
      exact ⟨fault, by rw [hfault]⟩
    · rw [hfirst.read budget (formB ++ rest) hb hle]
      exact hnext.refuse (budget - costA) rest (by omega) (by omega)

/-- A reader that reads nothing is stable. -/
lemma stable_done (value : α) : Stable (done value) := by
  intro budget bytes found left rest more h
  unfold done at h ⊢
  cases h
  rfl

/-- A reader that fails is stable. -/
lemma stable_fail (fault : Fault) : Stable (fail (α := α) fault) := by
  intro budget bytes found left rest more h
  unfold fail at h
  cases h

/-- Two stable readers one after the other are stable. -/
lemma Stable.andThen {first : Unpack α} {next : α → Unpack β} (hfirst : Stable first)
    (hnext : ∀ a, Stable (next a)) : Stable (andThen first next) := by
  intro budget bytes found left rest more h
  unfold Packed.andThen at h ⊢
  cases hread : first ⟨budget, bytes⟩ with
  | error fault => rw [hread] at h; cases h
  | ok result =>
    obtain ⟨a, middle, between⟩ := result
    rw [hread] at h
    rw [hfirst _ _ _ _ _ more hread]
    exact hnext a _ _ _ _ _ more h

/-- The value of an optional one is read stably. -/
lemma stable_orFault (fault : Fault) (value : Option α) : Stable (orFault fault value) := by
  cases value with
  | none => exact stable_fail fault
  | some value => exact stable_done value

/-! ### The primitive readers -/

/-- Claiming succeeds exactly within the budget. -/
lemma readsBack_claim (amount : Nat) : ReadsBack (claim amount) () [] amount where
  read budget rest _ h := by simp [claim, h]
  refuse budget rest _ h := ⟨.overBudget, by simp [claim, Nat.not_le.mpr h]⟩

lemma stable_claim (amount : Nat) : Stable (claim amount) := by
  intro budget bytes found left rest more h
  unfold claim at h ⊢
  simp only at h ⊢
  split at h
  · rename_i hle
    cases h
    rw [if_pos hle]
  · cases h

/-- Bytes are taken for free. -/
lemma readsBack_take (form : Bytes) : ReadsBack (take form.length) form form 0 where
  read budget rest _ _ := by simp [take]
  refuse budget rest _ h := absurd h (Nat.not_lt_zero budget)

lemma stable_take (count : Nat) : Stable (take count) := by
  intro budget bytes found left rest more h
  unfold take at h ⊢
  simp only at h ⊢
  split at h
  · rename_i hle
    cases h
    rw [if_pos (by rw [List.length_append]; omega), List.take_append_of_le_length hle,
      List.drop_append_of_le_length hle]
  · cases h

/-- One byte is taken for free. -/
lemma readsBack_takeByte (byte : UInt8) : ReadsBack takeByte byte [byte] 0 where
  read budget rest _ _ := by simp [takeByte]
  refuse budget rest _ h := absurd h (Nat.not_lt_zero budget)

lemma stable_takeByte : Stable takeByte := by
  intro budget bytes found left rest more h
  unfold takeByte at h ⊢
  cases bytes with
  | nil => cases h
  | cons byte bytes => cases h; rfl

/-- One byte under a claim costs one. -/
lemma readsBack_unpackByte (byte : UInt8) : ReadsBack unpackByte byte [byte] 1 :=
  (readsBack_claim 1).andThen (fun _ => takeByte) (readsBack_takeByte byte)

lemma stable_unpackByte : Stable unpackByte :=
  (stable_claim 1).andThen fun _ => stable_takeByte

/-! ### Numbers -/

/-- What reading a number makes of the byte in front. -/
lemma unpackNat_cons (width budget : Nat) (lead : UInt8) (bytes : Bytes) (h : width ≤ budget) :
    unpackNat width ⟨budget, lead :: bytes⟩ =
      if lead.toNat < 251 then .ok (lead.toNat, ⟨budget - width, bytes⟩)
      else if Nat.pow 2 (lead.toNat - 250) ≤ width then
        if Nat.pow 2 (lead.toNat - 250) ≤ bytes.length then
          .ok (Bytes.toNat (bytes.take (Nat.pow 2 (lead.toNat - 250))),
            ⟨budget - width, bytes.drop (Nat.pow 2 (lead.toNat - 250))⟩)
        else .error .unexpectedEnd
      else .error .numberTooWide := by
  simp only [unpackNat, andThen, claim, if_pos h, takeByte]
  split_ifs with hsmall hwide hlong
  · rfl
  · simp only [andThen, take, if_pos hlong, done]
  · simp only [andThen, take, if_neg hlong]
  · rfl

/-- Without the budget for its field a number is not read. -/
lemma unpackNat_refuse (width budget : Nat) (bytes : Bytes) (h : budget < width) :
    unpackNat width ⟨budget, bytes⟩ = .error .overBudget := by
  simp only [unpackNat, andThen, claim, if_neg (Nat.not_le.mpr h)]

/-- A number whose marker stands for so many bytes is read from them. -/
lemma unpackNat_marked {width budget n : Nat} (lead : UInt8) (size : Nat) (rest : Bytes)
    (hbig : 251 ≤ lead.toNat) (hsize : Nat.pow 2 (lead.toNat - 250) = size) (hfits : size ≤ width)
    (hn : n < Nat.pow 256 size) (h : width ≤ budget) :
    unpackNat width ⟨budget, lead :: Bytes.littleEndian size n ++ rest⟩ =
      .ok (n, ⟨budget - width, rest⟩) := by
  rw [List.cons_append, unpackNat_cons _ _ _ _ h, if_neg (by omega), hsize, if_pos hfits,
    if_pos (by simp), List.take_left' (by simp), List.drop_left' (by simp),
    Bytes.toNat_littleEndian, Nat.mod_eq_of_lt hn]

/-- A number that its field can hold is read back from its packed form. -/
lemma readsBack_unpackNat {width n : Nat} (hwidth : width = 4 ∨ width = 8)
    (hn : n < Nat.pow 256 width) : ReadsBack (unpackNat width) n (packNat n) width where
  read budget rest _ h := by
    unfold packNat
    split_ifs with h1 h2 h3 h4
    · have hbyte : (UInt8.ofNat n).toNat = n := by simp; omega
      rw [List.singleton_append, unpackNat_cons _ _ _ _ h, hbyte, if_pos h1]
    · exact unpackNat_marked 251 2 rest (by decide) rfl (by omega) (by omega) h
    · exact unpackNat_marked 252 4 rest (by decide) rfl (by omega) (by omega) h
    · have hw : 8 ≤ width := by
        rcases hwidth with rfl | rfl
        · exact absurd hn h3
        · exact Nat.le_refl 8
      exact unpackNat_marked 253 8 rest (by decide) rfl hw (by omega) h
    · rcases hwidth with rfl | rfl
      · exact absurd hn h3
      · exact absurd hn h4
  refuse budget rest _ h := ⟨.overBudget, unpackNat_refuse width budget _ h⟩

/-- A number that no field can hold is not read at all. -/
lemma unpackNat_wide {n : Nat} (hn : budgetBound ≤ n) (budget : Nat) (rest : Bytes) :
    ∃ fault, unpackNat 8 ⟨budget, packNat n ++ rest⟩ = .error fault := by
  unfold budgetBound at hn
  rcases Nat.lt_or_ge budget 8 with hlt | hle
  · exact ⟨.overBudget, unpackNat_refuse 8 budget _ hlt⟩
  · refine ⟨.numberTooWide, ?_⟩
    unfold packNat
    rw [if_neg (by omega), if_neg (by omega), if_neg (by omega), if_neg (by omega),
      List.cons_append, unpackNat_cons _ _ _ _ hle, if_neg (by decide), if_neg (by decide)]

/-- A number takes seventeen bytes at most. -/
lemma length_packNat_le (n : Nat) : (packNat n).length ≤ 17 := by
  unfold packNat
  split_ifs <;> simp only [List.length_cons, List.length_nil, Bytes.length_littleEndian] <;> decide

lemma stable_unpackNat (width : Nat) : Stable (unpackNat width) := by
  refine (stable_claim width).andThen fun _ => stable_takeByte.andThen fun lead => ?_
  split
  · exact stable_done _
  · simp only
    split
    · exact (stable_take _).andThen fun bytes => stable_done _
    · exact stable_fail _

/-! ### Repetition and choice -/

/-- Items one after the other are read back at the sum of their costs. -/
lemma readsBack_unpackMany {item : Unpack α} {form : α → Bytes} {cost : α → Nat}
    (values : List α) (hitem : ∀ value ∈ values, ReadsBack item value (form value) (cost value)) :
    ReadsBack (unpackMany item values.length) values (values.flatMap form)
      (values.map cost).sum := by
  induction values with
  | nil => exact readsBack_done []
  | cons value values ih =>
    have hhead := hitem value (by simp)
    have htail := ih fun other h => hitem other (by simp [h])
    refine (hhead.andThen (fun value =>
      andThen (unpackMany item values.length) fun values => done (value :: values))
      (htail.andThen (fun values => done (value :: values))
        (readsBack_done (value :: values)))).of_eq ?_ ?_
    · simp
    · simp

lemma stable_unpackMany {item : Unpack α} (hitem : Stable item) (count : Nat) :
    Stable (unpackMany item count) := by
  induction count with
  | zero => exact stable_done []
  | succ count ih => exact hitem.andThen fun value => ih.andThen fun values => stable_done _

/-- A choice is read back from its place. -/
lemma readsBack_unpackChoice {choices : List α} {place : Nat} {value : α}
    (h : choices[place]? = some value) (hplace : place < Nat.pow 256 4) :
    ReadsBack (unpackChoice choices) value (packNat place) 4 := by
  have hvalue : ReadsBack (orFault .badChoice choices[place]?) value [] 0 := by
    rw [h]
    exact readsBack_done value
  exact ((readsBack_unpackNat (Or.inl rfl) hplace).andThen
    (fun place => orFault .badChoice choices[place]?) hvalue).of_eq (by simp) rfl

lemma stable_unpackChoice (choices : List α) : Stable (unpackChoice choices) :=
  (stable_unpackNat 4).andThen fun _ => stable_orFault _ _

end Packed

/-! ### Types whose packed form is read back -/

/-- A packed form that is read back, and read stably. -/
class LawfulPacked (α : Type) [Packed α] where
  /-- What reading a value claims. -/
  cost : α → Nat
  /-- Reading claims something. -/
  cost_pos : ∀ value, 0 < cost value
  /-- The packed form is read back. -/
  readsBack : ∀ value, Packed.ReadsBack unpack value (pack value) (cost value)
  /-- Reading is stable. -/
  stable : Packed.Stable (unpack (α := α))

namespace LawfulPacked

variable {α : Type} [Packed α] [LawfulPacked α]

/-- No proper prefix of a packed form is read: since reading is stable, the missing bytes would be
left over by the reading of the whole form, which leaves nothing. -/
lemma exists_error_of_prefix (value : α) {front : Bytes} (hfront : front <+: pack value)
    (hne : front ≠ pack value) {budget : Nat} (hb : budget < Packed.budgetBound) :
    ∃ fault, unpack (α := α) ⟨budget, front⟩ = .error fault := by
  obtain ⟨missing, hmissing⟩ := hfront
  cases hread : unpack (α := α) ⟨budget, front⟩ with
  | error fault => exact ⟨fault, rfl⟩
  | ok result =>
    obtain ⟨found, left, rest⟩ := result
    have hwhole : unpack (α := α) ⟨budget, pack value ++ []⟩ =
        .ok (found, ⟨left, rest ++ missing⟩) := by
      rw [List.append_nil, ← hmissing]
      exact stable budget front found left rest missing hread
    have hover : rest ++ missing = [] := ((readsBack value).eq_of_read hb hwhole).2
    have hnone : missing = [] := (List.append_eq_nil_iff.mp hover).2
    rw [hnone, List.append_nil] at hmissing
    exact absurd hmissing hne

end LawfulPacked

end Recompile
