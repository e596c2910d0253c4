import Recompile.Proofs.Cache.History

/-!
# Where answers come from

A cache answers from records, and every record is about a module, a text, a configuration, a tool
and a generation.  `Record.Sound` says that each part of a record answers the question about exactly
these in an accepted way.  What a lookup finds is accepted (`Cache.Keeps.accepted_of_lookup`), and
an accepted value may be kept (`Cache.Keeps.keep_sound`).

If the accepted answers are those that were computed so far, this is an invariant of reachable
worlds, and so every answer that was not computed was computed before, for the same question
(`World.served_was_computed`).  Nothing is assumed about the keys of artifacts: two records may well
have one key, since a record says itself what it is about.
-/

namespace Recompile

/-! ### Sound records -/

/-- The answer that a value is to the question that a record is about. -/
def Record.answer (record : Record) (config : Digest) (tool : String) (part : Part)
    (value : part.Value) : Answer where
  part := part
  file := record.file
  content := record.content
  config := config
  tool := tool
  generation := record.generation
  value := value

/-- Each part of a record is an accepted answer to the question that the record is about. -/
def Record.Sound (accepted : Answer → Prop) : RecordProperty := fun config tool record =>
  ∀ (part : Part) (value : part.Value), part.get? record = some value →
    accepted (record.answer config tool part value)

/-- Records about the same have the same answers. -/
lemma Record.answer_congr {record found : Record} (hfile : found.file = record.file)
    (hcontent : found.content = record.content) (hgeneration : found.generation = record.generation)
    (config : Digest) (tool : String) (part : Part) (value : part.Value) :
    found.answer config tool part value = record.answer config tool part value := by
  unfold answer
  rw [hfile, hcontent, hgeneration]

variable {accepted other : Answer → Prop}

/-- What a shelf keeps of a sound record is sound. -/
lemma Record.sound_shelved : (Record.Sound accepted).Shelved := by
  intro config tool record found shelf hsound hshelf part value hvalue
  have hpart := hsound part value (get?_onShelf? hshelf hvalue)
  obtain ⟨hfile, hcontent, hgeneration⟩ := stamp_onShelf? hshelf
  rw [answer_congr hfile hcontent hgeneration]
  exact hpart

/-- The blank record is sound. -/
lemma Record.sound_blank (config : Digest) (tool : String) (file : ModuleId) (content : Digest)
    (generation : UInt64) :
    Record.Sound accepted config tool (.blank file content generation) := by
  intro part value hvalue
  cases part <;> cases hvalue

/-- An accepted answer may be set. -/
lemma Record.Sound.set {config : Digest} {tool : String} {record : Record}
    (h : Record.Sound accepted config tool record) {part : Part} {value : part.Value}
    (hvalue : accepted (record.answer config tool part value)) :
    Record.Sound accepted config tool (part.set value record) := by
  intro asked found hfound
  obtain ⟨hfile, hcontent, hgeneration⟩ := part.stamp_set value record
  rw [answer_congr hfile hcontent hgeneration]
  by_cases hpart : asked = part
  · subst hpart
    rw [Part.get?_set] at hfound
    obtain rfl := Option.some.inj hfound
    exact hvalue
  · rw [Part.get?_set_of_ne hpart] at hfound
    exact h asked found hfound

namespace Cache.Keeps

variable {cache : Cache} {disk : Disk}

/-- More answers may be accepted. -/
lemma sound_mono (h : cache.Keeps (Record.Sound accepted) disk)
    (hmono : ∀ answer, accepted answer → other answer) :
    cache.Keeps (Record.Sound other) disk :=
  h.mono fun _ _ _ hsound part value hvalue => hmono _ (hsound part value hvalue)

/-- What a lookup finds is an accepted answer at the generation that the module then has. -/
theorem accepted_of_lookup (h : cache.Keeps (Record.Sound accepted) disk) {part : Part}
    {snapshot : Snapshot} {value : part.Value}
    (hfound : (cache.lookup disk part snapshot).1 = some value) :
    accepted (World.answerOf (cache.lookup disk part snapshot).2 part snapshot value) := by
  obtain ⟨record, hmemory, hfile, hcontent, hgeneration, hvalue⟩ := record_of_lookup hfound
  have hsound := ((h.lookup Record.sound_shelved part snapshot).memory _ record hmemory).2
  have hpart := hsound part value hvalue
  unfold Record.answer at hpart
  rw [hfile, hcontent, hgeneration] at hpart
  exact hpart

/-- An accepted answer may be kept. -/
theorem keep_sound (h : cache.Keeps (Record.Sound accepted) disk) {part : Part}
    {snapshot : Snapshot} {value : part.Value}
    (hvalue : accepted (World.answerOf cache part snapshot value)) :
    (cache.keep part snapshot value).Keeps (Record.Sound accepted) disk := by
  refine h.keep part snapshot value fun record hfile hcontent hgeneration hbase => ?_
  have hsound : Record.Sound accepted cache.config cache.tool record := by
    rcases hbase with rfl | hsound
    · exact Record.sound_blank _ _ _ _ _
    · exact hsound
  refine hsound.set ?_
  unfold Record.answer
  rw [hfile, hcontent, hgeneration]
  exact hvalue

end Cache.Keeps

/-! ### Accounted answers -/

namespace World

/-- The answer was computed. -/
def Computed (log : List Served) (answer : Answer) : Prop :=
  ⟨answer, true⟩ ∈ log

/-- Everything that is known was computed, and so was every answer that was given without computing
it. -/
structure Accounted (world : World) : Prop where
  /-- The records. -/
  records : world.Keeps (Record.Sound (Computed world.log))
  /-- The answers. -/
  answers : ∀ (before after : List Served) (answer : Answer),
    world.log = before ++ ⟨answer, false⟩ :: after → Computed before answer

/-- An answer after others is accounted for if it was computed, now or before. -/
lemma computed_concat {known : List Served → Answer → Prop} {log : List Served} {served : Served}
    (h : ∀ (before after : List Served) (answer : Answer),
      log = before ++ ⟨answer, false⟩ :: after → known before answer)
    (hlast : served.computed = false → known log served.answer) (before after : List Served)
    (answer : Answer) (hlog : log ++ [served] = before ++ ⟨answer, false⟩ :: after) :
    known before answer := by
  rcases List.eq_nil_or_concat after with rfl | ⟨rest, last, rfl⟩
  · obtain ⟨rfl, hserved⟩ := List.append_inj' hlog rfl
    obtain rfl := List.head_eq_of_cons_eq hserved
    exact hlast rfl
  · have hlog' : log ++ [served] = (before ++ ⟨answer, false⟩ :: rest) ++ [last] := by
      rw [hlog, List.append_assoc, List.cons_append, List.concat_eq_append]
    exact h before rest answer (List.append_inj' hlog' rfl).1

/-- Asking for a part gives one more answer.  It was accepted before, or it is computed now and
kept, and so what is known stays accepted if that answer is. -/
lemma ask_sound {world : World} (h : world.Keeps (Record.Sound accepted)) (part : Part)
    (snapshot : Snapshot) (value : part.Value) :
    ∃ served, (world.ask part snapshot value).log = world.log ++ [served] ∧
      (served.computed = false → accepted served.answer) ∧
      ∀ other : Answer → Prop, (∀ answer, accepted answer → other answer) →
        (served.computed = true → other served.answer) →
        (world.ask part snapshot value).Keeps (Record.Sound other) := by
  have hlookup := h.lookup Record.sound_shelved part snapshot
  refine ⟨_, rfl, ?_⟩
  unfold World.ask given
  rcases world.cache.answer_cases world.disk part snapshot (fun _ => (value, true)) false with
    ⟨found, hfound, heq⟩ | ⟨-, heq⟩
  · rw [heq]
    exact ⟨fun _ => h.accepted_of_lookup hfound,
      fun _ hmono _ => keeps_mk (hlookup.sound_mono hmono)⟩
  · rw [heq]
    exact ⟨fun hcomputed => (Bool.noConfusion hcomputed), fun _ hmono hnew =>
      keeps_mk ((hlookup.sound_mono hmono).keep_sound (hnew rfl))⟩

/-- Asking for a part keeps everything accounted for. -/
theorem Accounted.ask {world : World} (h : world.Accounted) (part : Part) (snapshot : Snapshot)
    (value : part.Value) : (world.ask part snapshot value).Accounted := by
  obtain ⟨⟨answer, computed⟩, hlog, hknown, hkeeps⟩ := ask_sound h.records part snapshot value
  constructor
  · rw [hlog]
    refine hkeeps _ (fun answer hcomputed => ?_) ?_
    · exact List.mem_append_left _ hcomputed
    · rintro rfl
      exact List.mem_append_right _ (List.mem_singleton_self _)
  · rw [hlog]
    exact computed_concat h.answers hknown

/-- The log does not change unless a part is asked for. -/
lemma log_take (world : World) {call : Call}
    (hask : ∀ part snapshot value, call ≠ .ask part snapshot value) :
    (world.take call).log = world.log := by
  cases call with
  | ask part snapshot value => exact absurd rfl (hask part snapshot value)
  | _ => simp only [World.take, put]

/-- Every call keeps everything accounted for. -/
theorem Accounted.take {world : World} (h : world.Accounted) {call : Call}
    (hcall : world.Allows call) : (world.take call).Accounted := by
  by_cases hask : ∃ part snapshot value, call = .ask part snapshot value
  · obtain ⟨part, snapshot, value, rfl⟩ := hask
    exact h.ask part snapshot value
  · have hlog := world.log_take fun part snapshot value heq => hask ⟨part, snapshot, value, heq⟩
    constructor
    · rw [hlog]
      exact h.records.take hcall fun part snapshot value heq =>
        absurd ⟨part, snapshot, value, heq⟩ hask
    · rw [hlog]
      exact h.answers

/-- In reachable worlds everything is accounted for. -/
theorem Reachable.accounted {root : Path} {world : World} (h : Reachable root world) :
    world.Accounted := by
  induction h with
  | start hbare config tool entries =>
    refine ⟨keeps_start hbare config tool entries, fun before after answer hlog => ?_⟩
    exact absurd hlog.symm (List.append_ne_nil_of_right_ne_nil _ (List.cons_ne_nil _ _))
  | take _ hcall ih => exact ih.take hcall

/-- Whatever happens over an empty cache root, an answer that is not computed was computed before:
the same value, for the same part of the same module, with the same text, configuration, tool and
generation. -/
theorem served_was_computed {root : Path} {world : World} (h : Reachable root world)
    {before after : List Served} {answer : Answer}
    (hlog : world.log = before ++ ⟨answer, false⟩ :: after) : ⟨answer, true⟩ ∈ before :=
  h.accounted.answers before after answer hlog

/-- One process asks twice for the output of an empty module; the second answer is the first one. -/
theorem served_was_computed_twice :
    ∃ (world : World) (answer : Answer), Reachable ⟨"cache"⟩ world ∧
      world.log = [⟨answer, true⟩] ++ ⟨answer, false⟩ :: [] ∧
      ⟨answer, true⟩ ∈ [(⟨answer, true⟩ : Served)] := by
  have hworld : Reachable ⟨"cache"⟩ ((start .empty ⟨"cache"⟩ .zero "" []).run
      [.ask .output ⟨⟨"a"⟩, "", 1⟩ .nothing, .ask .output ⟨⟨"a"⟩, "", 1⟩ .nothing]) :=
    (Reachable.start (isBare_empty _) .zero "" []).run ⟨trivial, trivial, trivial⟩
  have hlog : ((start .empty ⟨"cache"⟩ .zero "" []).run
      [.ask .output ⟨⟨"a"⟩, "", 1⟩ .nothing, .ask .output ⟨⟨"a"⟩, "", 1⟩ .nothing]).log =
      [⟨answerOf (.fresh ⟨"cache"⟩ .zero "" []) .output ⟨⟨"a"⟩, "", 1⟩ .nothing, true⟩] ++
        ⟨answerOf (.fresh ⟨"cache"⟩ .zero "" []) .output ⟨⟨"a"⟩, "", 1⟩ .nothing, false⟩ :: [] := by
    decide +kernel
  exact ⟨_, _, hworld, hlog, served_was_computed hworld hlog⟩

end World

end Recompile
