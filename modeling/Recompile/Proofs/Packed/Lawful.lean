import Recompile.Proofs.Packed.ReadBack
import Recompile.Record.Basic

/-!
# The packed forms of records

Every type that occurs in a record has a lawful packed form, and so has the record itself: reading
its bytes, with anything after them, gives the record back or fails
(`Record.eq_of_ofBytes_toBytes_append`).
-/

namespace Recompile

namespace Packed

open LawfulPacked

variable {α : Type} [Packed α] [LawfulPacked α]

/-! ### Plain values -/

instance : LawfulPacked UInt32 where
  cost _ := 4
  cost_pos _ := by decide
  readsBack n := by
    have hdone : ReadsBack (done (UInt32.ofNat n.toNat)) n [] 0 := by
      rw [UInt32.ofNat_toNat]
      exact readsBack_done n
    exact ((readsBack_unpackNat (Or.inl rfl) n.toNat_lt).andThen
      (fun n => done (UInt32.ofNat n)) hdone).of_eq (by rw [List.append_nil]; rfl) rfl
  stable := (stable_unpackNat 4).andThen fun _ => stable_done _

instance : LawfulPacked UInt64 where
  cost _ := 8
  cost_pos _ := by decide
  readsBack n := by
    have hdone : ReadsBack (done (UInt64.ofNat n.toNat)) n [] 0 := by
      rw [UInt64.ofNat_toNat]
      exact readsBack_done n
    exact ((readsBack_unpackNat (Or.inr rfl) n.toNat_lt).andThen
      (fun n => done (UInt64.ofNat n)) hdone).of_eq (by rw [List.append_nil]; rfl) rfl
  stable := (stable_unpackNat 8).andThen fun _ => stable_done _

instance : LawfulPacked Bool where
  cost _ := 1
  cost_pos _ := by decide
  readsBack b := by
    let next : UInt8 → Unpack Bool := fun byte =>
      if byte = 0 then done false else if byte = 1 then done true else fail .badBool
    cases b with
    | false => exact (readsBack_unpackByte 0).andThen next (readsBack_done false)
    | true => exact (readsBack_unpackByte 1).andThen next (readsBack_done true)
  stable := by
    refine stable_unpackByte.andThen fun byte => ?_
    split_ifs
    · exact stable_done false
    · exact stable_done true
    · exact stable_fail _

/-- The bytes of a text are read back as the text. -/
lemma readsBack_textBytes (text : String) :
    ReadsBack (andThen (claim (Bytes.ofText text).length) fun _ =>
      andThen (take (Bytes.ofText text).length) fun bytes => orFault .badText (Bytes.text? bytes))
      text (Bytes.ofText text) (Bytes.ofText text).length := by
  have hvalue : ReadsBack (orFault .badText (Bytes.text? (Bytes.ofText text))) text [] 0 := by
    rw [Bytes.text?_ofText]
    exact readsBack_done text
  exact ((readsBack_claim _).andThen _ ((readsBack_take _).andThen
    (fun bytes => orFault .badText (Bytes.text? bytes)) hvalue)).of_eq (by simp) (by simp)

instance : LawfulPacked String where
  cost text := 8 + (Bytes.ofText text).length
  cost_pos _ := by omega
  readsBack text := by
    rcases Nat.lt_or_ge (Bytes.ofText text).length budgetBound with hlt | hge
    · exact (readsBack_unpackNat (Or.inr rfl) hlt).andThen (fun length => andThen (claim length)
        fun _ => andThen (take length) fun bytes => orFault .badText (Bytes.text? bytes))
        (readsBack_textBytes text)
    · -- A text that long has no length field, so it is never read.
      refine ⟨fun budget rest hb hcost => by omega, fun budget rest _ _ => ?_⟩
      obtain ⟨fault, hfault⟩ := unpackNat_wide hge budget (Bytes.ofText text ++ rest)
      refine ⟨fault, ?_⟩
      change andThen (unpackNat 8) _ ⟨budget, packNat _ ++ Bytes.ofText text ++ rest⟩ = _
      unfold andThen
      rw [List.append_assoc, hfault]
  stable := (stable_unpackNat 8).andThen fun _ => (stable_claim _).andThen fun _ =>
    (stable_take _).andThen fun _ => stable_orFault _ _

instance : LawfulPacked (Option α) where
  cost value := 1 + value.elim 0 cost
  cost_pos _ := by omega
  readsBack value := by
    let next : UInt8 → Unpack (Option α) := fun byte =>
      if byte = 0 then done none
      else if byte = 1 then andThen unpack fun value => done (some value)
      else fail .badOption
    cases value with
    | none => exact (readsBack_unpackByte 0).andThen next (readsBack_done none)
    | some value =>
      have hrest := (readsBack value).andThen (fun value => done (some value))
        (readsBack_done (some value))
      exact ((readsBack_unpackByte 1).andThen next hrest).of_eq
        (by rw [List.append_nil]; rfl) rfl
  stable := by
    refine stable_unpackByte.andThen fun byte => ?_
    split_ifs
    · exact stable_done none
    · exact (stable (α := α)).andThen fun _ => stable_done _
    · exact stable_fail _

/-- As many items as a bound on their number costs at least that much. -/
lemma length_le_sum_cost (items : List α) : items.length ≤ (items.map cost).sum := by
  induction items with
  | nil => exact Nat.le_refl 0
  | cons item items ih =>
    have hpos := cost_pos item
    simp only [List.length_cons, List.map_cons, List.sum_cons]
    omega

instance : LawfulPacked (List α) where
  cost items := 8 + (items.map cost).sum
  cost_pos _ := by omega
  readsBack items := by
    have hmany := readsBack_unpackMany items fun item _ => readsBack item
    rcases Nat.lt_or_ge items.length budgetBound with hlt | hge
    · exact (readsBack_unpackNat (Or.inr rfl) hlt).andThen
        (fun length => unpackMany unpack length) hmany
    · -- So many items cost more than any budget, and their number has no field anyway.
      have hsum := length_le_sum_cost items
      refine ⟨fun budget rest hb hcost => by omega, fun budget rest _ _ => ?_⟩
      obtain ⟨fault, hfault⟩ := unpackNat_wide hge budget (items.flatMap pack ++ rest)
      refine ⟨fault, ?_⟩
      change andThen (unpackNat 8) _ ⟨budget, packNat _ ++ items.flatMap pack ++ rest⟩ = _
      unfold andThen
      rw [List.append_assoc, hfault]
  stable := (stable_unpackNat 8).andThen fun _ => stable_unpackMany stable _

instance : LawfulPacked ModuleId where
  cost id := cost id.text
  cost_pos id := cost_pos id.text
  readsBack id := ((readsBack id.text).andThen (fun text => done (ModuleId.mk text))
    (readsBack_done id)).of_eq (by rw [List.append_nil]; rfl) rfl
  stable := stable.andThen fun _ => stable_done _

/-- Sixteen bytes are read back as the bytes of a digest. -/
lemma readsBack_digestBytes (digest : Digest) :
    ReadsBack (unpackMany unpackByte 16) digest.bytes digest.bytes 16 := by
  have hmany : ReadsBack (unpackMany unpackByte digest.bytes.length) digest.bytes
      (digest.bytes.flatMap fun byte => [byte]) (digest.bytes.map fun _ => 1).sum :=
    readsBack_unpackMany digest.bytes fun byte _ => readsBack_unpackByte byte
  have hcost : (digest.bytes.map fun _ => 1).sum = 16 := by
    rw [List.map_const', List.sum_replicate_nat, digest.length_bytes]
  rw [digest.length_bytes, hcost, List.flatMap_singleton'] at hmany
  exact hmany

instance : LawfulPacked Digest where
  cost _ := 16
  cost_pos _ := by decide
  readsBack digest := by
    have hvalue : ReadsBack (orFault .unexpectedEnd (Digest.ofList? digest.bytes)) digest [] 0 := by
      rw [Digest.ofList?, dif_pos digest.length_bytes]
      exact readsBack_done digest
    exact ((readsBack_digestBytes digest).andThen
      (fun bytes => orFault .unexpectedEnd (Digest.ofList? bytes)) hvalue).of_eq
      (by rw [List.append_nil]; rfl) rfl
  stable := (stable_unpackMany stable_unpackByte 16).andThen fun _ => stable_orFault _ _

/-! ### Structures -/

instance : LawfulPacked Severity where
  cost _ := 4
  cost_pos _ := by decide
  readsBack severity := readsBack_unpackChoice (by cases severity <;> rfl)
    (by cases severity <;> decide)
  stable := stable_unpackChoice _

instance : LawfulPacked Category where
  cost _ := 4
  cost_pos _ := by decide
  readsBack category := readsBack_unpackChoice (by cases category <;> rfl)
    (by cases category <;> decide)
  stable := stable_unpackChoice _

/-- The next field of a structure is read back before the fields after it. -/
lemma ReadsBack.field {β : Type} (a : α) {b : β} {next : α → Unpack β} {form : Bytes} {rest : Nat}
    (hnext : ReadsBack (next a) b form rest) :
    ReadsBack (Packed.andThen unpack next) b (pack a ++ form) (cost a + rest) :=
  (readsBack a).andThen next hnext

/-- The last field of a structure. -/
lemma ReadsBack.last {β : Type} (a : α) {b : β} {next : α → Unpack β} (hnext : next a = done b) :
    ReadsBack (Packed.andThen unpack next) b (pack a) (cost a) := by
  have hdone : ReadsBack (next a) b [] 0 := hnext ▸ readsBack_done b
  exact ((readsBack a).andThen next hdone).of_eq (List.append_nil _).symm rfl

instance : LawfulPacked Position where
  cost p := cost p.line + cost p.column
  cost_pos p := Nat.add_pos_left (cost_pos p.line) _
  readsBack p := .field p.line (.last p.column rfl)
  stable := stable.andThen fun _ => stable.andThen fun _ => stable_done _

instance : LawfulPacked Diagnostic where
  cost d := cost d.category + (cost d.severity + (cost d.code + (cost d.message +
    (cost d.file + cost d.position))))
  cost_pos d := Nat.add_pos_left (cost_pos d.category) _
  readsBack d := by
    refine ReadsBack.of_eq (.field d.category (.field d.severity (.field d.code
      (.field d.message (.field d.file (.last d.position rfl)))))) ?_ rfl
    simp only [← List.append_assoc]
    rfl
  stable := stable.andThen fun _ => stable.andThen fun _ => stable.andThen fun _ =>
    stable.andThen fun _ => stable.andThen fun _ => stable.andThen fun _ => stable_done _

instance : LawfulPacked SourceMap where
  cost m := cost m.version + (cost m.file + (cost m.sourceRoot + (cost m.sources +
    (cost m.sourcesContent + (cost m.names + cost m.mappings)))))
  cost_pos m := Nat.add_pos_left (cost_pos m.version) _
  readsBack m := by
    refine ReadsBack.of_eq (.field m.version (.field m.file (.field m.sourceRoot
      (.field m.sources (.field m.sourcesContent (.field m.names (.last m.mappings rfl))))))) ?_ rfl
    simp only [← List.append_assoc]
    rfl
  stable := stable.andThen fun _ => stable.andThen fun _ => stable.andThen fun _ =>
    stable.andThen fun _ => stable.andThen fun _ => stable.andThen fun _ =>
    stable.andThen fun _ => stable_done _

instance : LawfulPacked Declaration where
  cost d := cost d.path + (cost d.text + cost d.writeMark)
  cost_pos d := Nat.add_pos_left (cost_pos d.path) _
  readsBack d := by
    refine ReadsBack.of_eq (.field d.path (.field d.text (.last d.writeMark rfl))) ?_ rfl
    simp only [← List.append_assoc]
    rfl
  stable := stable.andThen fun _ => stable.andThen fun _ => stable.andThen fun _ => stable_done _

instance : LawfulPacked Output where
  cost o := cost o.code + (cost o.map + cost o.declaration)
  cost_pos o := Nat.add_pos_left (cost_pos o.code) _
  readsBack o := by
    refine ReadsBack.of_eq (.field o.code (.field o.map (.last o.declaration rfl))) ?_ rfl
    simp only [← List.append_assoc]
    rfl
  stable := stable.andThen fun _ => stable.andThen fun _ => stable.andThen fun _ => stable_done _

instance : LawfulPacked Findings where
  cost f := cost f.form + cost f.meaning
  cost_pos f := Nat.add_pos_left (cost_pos f.form) _
  readsBack f := .field f.form (.last f.meaning rfl)
  stable := stable.andThen fun _ => stable.andThen fun _ => stable_done _

instance : LawfulPacked Record where
  cost r := cost r.file + (cost r.content + (cost r.generation + (cost r.output +
    cost r.findings)))
  cost_pos r := Nat.add_pos_left (cost_pos r.file) _
  readsBack r := by
    refine ReadsBack.of_eq (.field r.file (.field r.content (.field r.generation
      (.field r.output (.last r.findings rfl))))) ?_ rfl
    simp only [← List.append_assoc]
    rfl
  stable := stable.andThen fun _ => stable.andThen fun _ => stable.andThen fun _ =>
    stable.andThen fun _ => stable.andThen fun _ => stable_done _

end Packed

/-! ### The bytes of a record -/

/-- What is read from the bytes of a record, whatever follows them, is that record. -/
theorem Record.eq_of_ofBytes_toBytes_append {record found : Record} {rest : Bytes}
    (h : Record.ofBytes (record.toBytes ++ rest) = .ok found) : found = record := by
  unfold Record.ofBytes unpackFrom Record.toBytes at h
  cases hread : unpack (α := Record) ⟨Record.maxSize, pack record ++ rest⟩ with
  | error fault => rw [hread] at h; cases h
  | ok result =>
    obtain ⟨value, left⟩ := result
    rw [hread] at h
    cases h
    exact ((LawfulPacked.readsBack record).eq_of_read (by decide) hread).1

/-- A record that does not claim too much is read back from its bytes. -/
theorem Record.ofBytes_toBytes {record : Record} (h : LawfulPacked.cost record ≤ Record.maxSize) :
    Record.ofBytes record.toBytes = .ok record := by
  have hread := (LawfulPacked.readsBack record).read Record.maxSize [] (by decide) h
  rw [List.append_nil] at hread
  unfold Record.ofBytes unpackFrom Record.toBytes
  rw [hread]

/-- A record is read back from its bytes, whatever follows them, exactly if reading it does not
claim more than is allowed. -/
lemma Record.ofBytes_toBytes_append_iff (record : Record) (rest : Bytes) :
    Record.ofBytes (record.toBytes ++ rest) = .ok record ↔
      LawfulPacked.cost record ≤ Record.maxSize := by
  have hlaw := LawfulPacked.readsBack record
  unfold Record.ofBytes unpackFrom Record.toBytes
  constructor
  · intro h
    rcases Nat.lt_or_ge Record.maxSize (LawfulPacked.cost record) with hlt | hle
    · obtain ⟨fault, hfault⟩ := hlaw.refuse Record.maxSize rest (by decide) hlt
      rw [hfault] at h
      cases h
    · exact hle
  · intro h
    rw [hlaw.read Record.maxSize rest (by decide) h]

/-- No proper prefix of the bytes of a record is read as a record. -/
lemma Record.exists_error_of_prefix (record : Record) {front : Bytes}
    (hfront : front <+: record.toBytes) (hne : front ≠ record.toBytes) :
    ∃ fault, Record.ofBytes front = .error fault := by
  obtain ⟨fault, hfault⟩ :=
    LawfulPacked.exists_error_of_prefix record hfront hne
      (show Record.maxSize < Packed.budgetBound by decide)
  unfold Record.ofBytes unpackFrom
  rw [hfault]
  exact ⟨fault, rfl⟩

/-- The bytes of a record say where they end.  With anything after them they are read as that
record, if its cost is within the limit and only then; cut short, they are not read at all. -/
theorem Record.toBytes_self_delimiting (record : Record) :
    (∀ rest, Record.ofBytes (record.toBytes ++ rest) = .ok record ↔
      LawfulPacked.cost record ≤ Record.maxSize) ∧
    ∀ front, front <+: record.toBytes → front ≠ record.toBytes →
      ∃ fault, Record.ofBytes front = .error fault := by
  constructor
  · intro rest
    exact record.ofBytes_toBytes_append_iff rest
  · intro front hfront hne
    exact record.exists_error_of_prefix hfront hne

/-- A record whose number and texts are of several widths, with bytes after it, and cut short inside
its findings. -/
def Record.sample : Record :=
  { file := ⟨"src/a.ts"⟩, content := Digest.ofText "let a = 1", generation := 70000
    output := some ⟨some "var a = 1;", none, some ⟨"src/a.d.ts", "declare let a: number;", true⟩⟩
    findings := some ⟨some [], none⟩ }

theorem Record.toBytes_self_delimiting_sample :
    Record.ofBytes (Record.sample.toBytes ++ [1, 2, 3]) = .ok Record.sample ∧
    ∃ fault, Record.ofBytes (Record.sample.toBytes.take 80) = .error fault := by
  have hlaw := Record.toBytes_self_delimiting Record.sample
  have hcost : LawfulPacked.cost Record.sample ≤ Record.maxSize := by decide +kernel
  have hne : Record.sample.toBytes.take 80 ≠ Record.sample.toBytes := by decide +kernel
  exact ⟨(hlaw.1 [1, 2, 3]).mpr hcost, hlaw.2 _ (List.take_prefix 80 _) hne⟩

end Recompile
