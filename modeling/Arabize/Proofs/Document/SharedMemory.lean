import Arabize.Document.Translate
import Arabize.Proofs.Lockstep
import Arabize.Proofs.Phrase.Memory
import Arabize.Script.Grammar.Reading

/-! # One memory for many documents

A run translates its documents under one memory, and each comes out as if it had been
translated alone: the memory saves work and shows in no rendition.

The argument runs a document twice, under a sound memory and under an empty one.  `Grown`
relates the two memories: the first holds what it held before and what the second has
learned.  A visit answers alike from both and keeps them so related, and `Lockstep` carries
this over every pass.  What a document leaves in the memory therefore depends on the document
alone, and the order of the documents does not matter.
-/

namespace Arabize

open Phrase (Memory Sound answer)

variable {d : Lexicon} {base : Memory}

/-! ## A memory that grows beside a fresh one -/

/-- A memory that holds what it held before and what a fresh one has learned since. -/
structure Grown (d : Lexicon) (base memory fresh : Memory) : Prop where
  sound : Sound d memory
  freshSound : Sound d fresh
  holds : ∀ t, memory.find? t = (base.find? t).or (fresh.find? t)

theorem Grown.start (sound : Sound d base) : Grown d base base [] where
  sound := sound
  freshSound := Phrase.sound_nil d
  holds t := by simp only [Mapping.find?_nil, Option.or_none]

theorem Grown.find?_eq_some {memory fresh : Memory} (grown : Grown d base memory fresh)
    (baseSound : Sound d base) (t v : Text) :
    memory.find? t = some v ↔ base.find? t = some v ∨ fresh.find? t = some v := by
  rw [grown.holds t]
  cases before : base.find? t with
  | none => simp only [Option.none_or, reduceCtorEq, false_or]
  | some w =>
    simp only [Option.some_or, Option.some.injEq]
    refine ⟨.inl, ?_⟩
    rintro (same | learned)
    · exact same
    · rw [(baseSound.find? before).1, (grown.freshSound.find? learned).1]

theorem translate_lockstep (t : Text) :
    Lockstep (Grown d base) (Phrase.translate d t) (Phrase.translate d t) := by
  intro memory fresh grown
  refine ⟨?_, grown.sound.translate t, grown.freshSound.translate t, fun u => ?_⟩
  · rw [Phrase.translate_sound grown.sound, Phrase.translate_sound grown.freshSound]
  · rw [Phrase.find?_translate grown.sound, Phrase.find?_translate grown.freshSound]
    split
    next written =>
      obtain ⟨rfl, _⟩ := written
      -- The text is written down on both sides; had the base held it, then with the same answer.
      cases before : base.find? t with
      | none => rfl
      | some v =>
        have remembered : memory.find? t = some v := by rw [grown.holds, before, Option.some_or]
        rw [(grown.sound.find? remembered).1, Option.some_or]
    next => exact grown.holds u

/-- Beside the memories, visits count the same changes. -/
def GrownProgress (d : Lexicon) (base : Memory) (p q : Phrase.Progress) : Prop :=
  Grown d base p.memory q.memory ∧ p.changes = q.changes

theorem translateCounting_lockstep (t : Text) :
    Lockstep (GrownProgress d base) (Phrase.translateCounting d t)
      (Phrase.translateCounting d t) := by
  intro p q related
  obtain ⟨grown, counts⟩ := related
  obtain ⟨translated, memory, fresh, here, there, memories⟩ := (translate_lockstep t).runs grown
  simp only [Phrase.translateCounting, here, there, counts]
  exact ⟨trivial, memories, rfl⟩

/-! ## Documents -/

/-- Runs whose memories are so related; what they report is their own. -/
def GrownRun (d : Lexicon) (base : Memory) (r s : Run) : Prop := Grown d base r.memory s.memory

theorem translateData_lockstep (content : Text) :
    Lockstep (GrownRun d base) (translateData d content).run (translateData d content).run := by
  intro r s grown
  simp only [ExceptT.run, translateData]
  cases Json.read content with
  | error e => cases e <;> exact ⟨rfl, grown⟩
  | ok j =>
    obtain ⟨translated, p, q, here, there, memories, counts⟩ :=
      (Json.mapLeaves_lockstep translateCounting_lockstep j).runs
        (s := ⟨r.memory, 0⟩) (t := ⟨s.memory, 0⟩) ⟨grown, rfl⟩
    simp only [here, there, counts]
    exact ⟨trivial, memories⟩

theorem translateMarkup_lockstep (content : Text) :
    Lockstep (GrownRun d base) (translateMarkup d content).run
      (translateMarkup d content).run := by
  intro r s grown
  obtain ⟨edited, p, q, here, there, memories, counts⟩ :=
    (Markup.editPage_lockstep translateCounting_lockstep true content).runs
      (s := ⟨r.memory, 0⟩) (t := ⟨s.memory, 0⟩) ⟨grown, rfl⟩
  simp only [ExceptT.run, translateMarkup, Markup.translatePage, here, there, counts]
  exact ⟨trivial, memories⟩

theorem translateScript_lockstep [Script.Parser] (dialect : Script.Grammar.Dialect)
    (content : Text) : Lockstep (GrownRun d base) (translateScript d dialect content).run
      (translateScript d dialect content).run := by
  intro r s grown
  obtain ⟨result, p, q, here, there, memories, counts⟩ :=
    (Script.editProgram_lockstep translateCounting_lockstep
      (Script.Parser.parse dialect) content).runs
      (s := ⟨r.memory, 0⟩) (t := ⟨s.memory, 0⟩) ⟨grown, rfl⟩
  simp only [ExceptT.run] at here there
  simp only [ExceptT.run, translateScript, Script.translateProgram, here, there]
  cases result with
  | error e => exact ⟨rfl, memories⟩
  | ok outcome =>
    simp only [counts]
    exact ⟨trivial, memories⟩

theorem translateNamed_lockstep [Script.Parser] (format content : Text) :
    Lockstep (GrownRun d base) (translateNamed d format content).run
      (translateNamed d format content).run := by
  unfold translateNamed
  cases Format.ofName? format with
  | none => exact fun _ _ grown => ⟨rfl, grown⟩
  | some f =>
    cases f with
    | json => exact translateData_lockstep content
    | html => exact translateMarkup_lockstep content
    | program dialect => exact translateScript_lockstep dialect content

/-! ## Rows of documents -/

/-- A document and the word of its format. -/
abbrev Item := Text × Text

/-- What a document comes to when nothing is remembered before. -/
def alone [Script.Parser] (d : Lexicon) (item : Item) : Except DocumentError Rendition × Run :=
  translateNamed d item.2 item.1 ⟨[], []⟩

/-- Translates one document after the other under one memory.  A document at fault keeps none
    of the others from being translated. -/
def translateEach [Script.Parser] (d : Lexicon) : List Item → StateM Run
    (List (Except DocumentError Rendition))
  | [] => return []
  | item :: rest => do
    let result ← (translateNamed d item.2 item.1).run
    let results ← translateEach d rest
    return result :: results

variable {run : Run}

/-- A document under a sound memory: it comes out as alone, and what it adds to the memory is
    what it learns alone. -/
theorem translateNamed_sound [Script.Parser] (sound : Sound d run.memory) (item : Item) :
    (translateNamed d item.2 item.1 run).1 = (alone d item).1 ∧
      Grown d run.memory (translateNamed d item.2 item.1 run).2.memory
        (alone d item).2.memory :=
  translateNamed_lockstep item.2 item.1 run ⟨[], []⟩ (Grown.start sound)

theorem translateEach_results [Script.Parser] (items : List Item) (sound : Sound d run.memory) :
    (translateEach d items run).1 = items.map fun item => (alone d item).1 := by
  induction items generalizing run with
  | nil => rfl
  | cons item rest ih =>
    obtain ⟨result, grown⟩ := translateNamed_sound sound item
    rw [List.map_cons, ← result, ← ih grown.sound]
    rfl

theorem translateEach_memory [Script.Parser] (items : List Item) (sound : Sound d run.memory)
    (t v : Text) : (translateEach d items run).2.memory.find? t = some v ↔
      run.memory.find? t = some v ∨ ∃ item ∈ items, (alone d item).2.memory.find? t = some v := by
  induction items generalizing run with
  | nil =>
    change run.memory.find? t = some v ↔ _
    simp only [List.not_mem_nil, false_and, exists_false, or_false]
  | cons item rest ih =>
    obtain ⟨_, grown⟩ := translateNamed_sound sound item
    change (translateEach d rest (translateNamed d item.2 item.1 run).2).2.memory.find? t = _ ↔ _
    rw [ih grown.sound, grown.find?_eq_some sound, or_assoc]
    simp only [List.mem_cons, exists_eq_or_imp]

/-- The shared memory is invisible: every document comes out as it does alone, whatever was
    translated before it.  So a document has the same rendition or fault wherever it stands
    among the others, and whatever their order is, the same is remembered in the end. -/
theorem shared_memory_invisible [Script.Parser] (d : Lexicon) (items : List Item) :
    (translateEach d items ⟨[], []⟩).1 = items.map (fun item => (alone d item).1) ∧
    ∀ shuffled : List Item, items.Perm shuffled →
      (items.zip (translateEach d items ⟨[], []⟩).1).Perm
        (shuffled.zip (translateEach d shuffled ⟨[], []⟩).1) ∧
      ∀ t, (translateEach d items ⟨[], []⟩).2.memory.find? t =
        (translateEach d shuffled ⟨[], []⟩).2.memory.find? t := by
  have sound := Phrase.sound_nil d
  refine ⟨translateEach_results items sound, fun shuffled same => ⟨?_, fun t => ?_⟩⟩
  · rw [translateEach_results items sound, translateEach_results shuffled sound]
    rw [← List.map_prod_left_eq_zip, ← List.map_prod_left_eq_zip]
    exact same.map _
  · apply Option.ext
    intro v
    rw [translateEach_memory items sound, translateEach_memory shuffled sound]
    simp only [same.mem_iff]

section

open scoped Installed

/-- A page and a JSON document that share a text, in either order. -/
theorem shared_memory_invisible_swapped :
    let d : Lexicon := [("Home", "X"), ("Home page", "Y")]
    let page : Item := ("<p>Home page</p>", "html")
    let data : Item := ("[\"Home\", \"Home page\"]", "json")
    [page, data].Perm [data, page] ∧
    (([page, data].zip (translateEach d [page, data] ⟨[], []⟩).1).Perm
        ([data, page].zip (translateEach d [data, page] ⟨[], []⟩).1) ∧
      ∀ t, (translateEach d [page, data] ⟨[], []⟩).2.memory.find? t =
        (translateEach d [data, page] ⟨[], []⟩).2.memory.find? t) :=
  ⟨List.Perm.swap _ _ _, (shared_memory_invisible _ _).2 _ (List.Perm.swap _ _ _)⟩

end

end Arabize
