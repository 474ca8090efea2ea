import Arabize.Proofs.Markup.Tags

/-! # One spelling of a page

What a text is made of is found from its beginning: a run of code points of a class ends with the
first one of another class, and a text before a tag with the first tag.  So the well-formed page
that spells a text is the only one that does (`Page.eq_of_text`), and what a page is made of can
be said of its text.
-/

namespace Arabize.Markup

/-! ## Fields -/

/-- The longest beginning of code points of a class is what stands before the first other one. -/
theorem span_unique {p : CodePoint → Bool} {s t u v : Text} (same : u ++ s = v ++ t)
    (inU : u.all p = true) (inV : v.all p = true) (endS : Stops p s) (endT : Stops p t) :
    u = v ∧ s = t := by
  have empty : ∀ {w r : Text}, w.all p = true → Stops p (w ++ r) → w = [] := by
    intro w r inW stops
    cases w with
    | nil => rfl
    | cons c w =>
      rw [List.all_cons, stops c rfl] at inW
      cases inW
  rcases List.append_eq_append_iff.1 same with ⟨w, rfl, rfl⟩ | ⟨w, rfl, rfl⟩
  · rw [List.all_append, Bool.and_eq_true] at inV
    obtain rfl := empty inV.2 endS
    simp
  · rw [List.all_append, Bool.and_eq_true] at inU
    obtain rfl := empty inU.2 endT
    simp

theorem Value.eq_of_text {x y : Value} {s t : Text} (same : x.text ++ s = y.text ++ t)
    (formedX : x.WellFormed) (formedY : y.WellFormed)
    (endS : ∀ u, x = .bare u → Stops isBareChar s) (endT : ∀ u, y = .bare u → Stops isBareChar t) :
    x = y ∧ s = t := by
  cases x with
  | bare u =>
    cases y with
    | bare v =>
      obtain ⟨rfl, rfl⟩ := span_unique same formedX.2 formedY.2 (endS u rfl) (endT v rfl)
      exact ⟨rfl, rfl⟩
    | quoted mark v =>
      have bare := Value.stops_isQuote formedX s
      rw [same] at bare
      exact absurd formedY.1 (by simp [bare mark rfl])
  | quoted mark u =>
    cases y with
    | bare v =>
      have bare := Value.stops_isQuote formedY t
      rw [← same] at bare
      exact absurd formedX.1 (by simp [bare mark rfl])
    | quoted other v =>
      simp only [Value.text, List.cons_append, List.append_assoc, List.nil_append,
        List.cons.injEq] at same
      obtain ⟨rfl, behind⟩ := same
      have inside : ∀ {w : Text}, mark ∉ w → w.all (· != mark) = true := by
        intro w absent
        simp only [List.all_eq_true, bne_iff_ne]
        rintro c member rfl
        exact absent member
      obtain ⟨rfl, ends⟩ := span_unique behind (inside formedX.2) (inside formedY.2)
        (stops_cons (by simp) _) (stops_cons (by simp) _)
      exact ⟨rfl, (List.cons.inj ends).2⟩

theorem Assigned.eq_of_text {a b : Assigned} {s t : Text} (same : a.text ++ s = b.text ++ t)
    (formedA : a.WellFormed) (formedB : b.WellFormed)
    (endS : ∀ u, a.value = .bare u → Stops isBareChar s)
    (endT : ∀ u, b.value = .bare u → Stops isBareChar t) : a = b ∧ s = t := by
  obtain ⟨⟨before, after⟩, x⟩ := a
  obtain ⟨⟨before', after'⟩, y⟩ := b
  have visible : (CodePoint.ofChar '=').isBlank = false := by decide
  simp only [Assigned.text, Sign.text, List.append_assoc, List.cons_append] at same
  obtain ⟨rfl, signs⟩ := span_unique same formedA.before formedB.before (stops_cons visible _)
    (stops_cons visible _)
  obtain ⟨rfl, values⟩ := span_unique (List.cons.inj signs).2 formedA.after formedB.after
    (Value.stops formedA.value s) (Value.stops formedB.value t)
  obtain ⟨rfl, rfl⟩ := Value.eq_of_text values formedA.value formedB.value endS endT
  exact ⟨rfl, rfl⟩

namespace Field

variable {f g : Field} {s t : Text}

theorem stops_isFieldChar (formed : f.WellFormed) (ends : f.Ends s) :
    Stops isFieldChar (f.assigned.elim [] Assigned.text ++ s) := by
  cases assigned : f.assigned with
  | none => exact ends.name
  | some a =>
    have blanks := (formed.assigned a assigned).before
    rw [Option.elim_some, Assigned.text, Sign.text, List.append_assoc, List.append_assoc]
    by_cases empty : a.sign.before = []
    · rw [empty]
      exact stops_cons (by decide) _
    · exact stops_append empty blanks (fun _ => isFieldChar_of_isBlank) _

theorem eq_of_core (same : f.core ++ s = g.core ++ t) (formedF : f.WellFormed)
    (formedG : g.WellFormed) (endS : f.Ends s) (endT : g.Ends t) :
    f.name = g.name ∧ f.assigned = g.assigned ∧ s = t := by
  have unsigned : ∀ {a : Assigned} {u v : Text}, a.WellFormed →
      Stops (· == CodePoint.ofChar '=') (Text.stripLeft u) → u ≠ a.text ++ v := by
    rintro a u v formed stops rfl
    rw [Assigned.text, List.append_assoc, stripLeft_sign formed.before] at stops
    exact absurd (stops _ rfl) (by decide)
  simp only [core, List.append_assoc] at same
  obtain ⟨names, behind⟩ := span_unique same formedF.name.2 formedG.name.2
    (stops_isFieldChar formedF endS) (stops_isFieldChar formedG endT)
  cases inF : f.assigned with
  | none =>
    cases inG : g.assigned with
    | none =>
      simp only [inF, inG, Option.elim_none, List.nil_append] at behind
      exact ⟨names, rfl, behind⟩
    | some b =>
      simp only [inF, inG, Option.elim_none, Option.elim_some, List.nil_append] at behind
      exact absurd behind (unsigned (formedG.assigned b inG) endS.sign)
  | some a =>
    cases inG : g.assigned with
    | none =>
      simp only [inF, inG, Option.elim_none, Option.elim_some, List.nil_append] at behind
      exact absurd behind.symm (unsigned (formedF.assigned a inF) endT.sign)
    | some b =>
      simp only [inF, inG, Option.elim_some] at behind
      obtain ⟨rfl, ends⟩ := Assigned.eq_of_text behind (formedF.assigned a inF)
        (formedG.assigned b inG)
        (fun u bare => endS.value (by simp [isOpen, inF, bare, Value.isBare]))
        (fun u bare => endT.value (by simp [isOpen, inG, bare, Value.isBare]))
      exact ⟨names, rfl, ends⟩

end Field

section Fields

variable {fs gs : List Field} {s t : Text}

theorem EndsFields.ne_field {f : Field} (formed : f.WellFormed) (ends : EndsFields fs s) :
    s ≠ f.text ++ t := by
  rintro rfl
  obtain ⟨c, name, spelled⟩ := List.exists_cons_of_ne_nil formed.name.1
  have isChar := formed.name.2
  rw [spelled, List.all_cons, Bool.and_eq_true] at isChar
  have other := ends.other
  rw [stripLeft_field formed, Field.core, spelled] at other
  exact absurd isChar.1 (by simp [other c rfl])

theorem fields_eq_of_text (same : fs.flatMap Field.text ++ s = gs.flatMap Field.text ++ t)
    (formedF : ∀ f ∈ fs, f.WellFormed) (formedG : ∀ g ∈ gs, g.WellFormed)
    (endS : EndsFields fs s) (endT : EndsFields gs t) : fs = gs ∧ s = t := by
  induction fs generalizing gs with
  | nil =>
    cases gs with
    | nil => exact ⟨rfl, same⟩
    | cons g gs =>
      rw [List.flatMap_cons, List.append_assoc] at same
      exact absurd same (endS.ne_field (formedG g List.mem_cons_self))
  | cons f fs ih =>
    cases gs with
    | nil =>
      rw [List.flatMap_cons, List.append_assoc] at same
      exact absurd same.symm (endT.ne_field (formedF f List.mem_cons_self))
    | cons g gs =>
      obtain ⟨formedHere, formedF⟩ := List.forall_mem_cons.1 formedF
      obtain ⟨formedThere, formedG⟩ := List.forall_mem_cons.1 formedG
      simp only [List.flatMap_cons, Field.text, List.append_assoc] at same
      obtain ⟨leads, cores⟩ := span_unique same formedHere.lead.2 formedThere.lead.2
        (f.stops_isBlank formedHere _) (g.stops_isBlank formedThere _)
      obtain ⟨names, values, behind⟩ := Field.eq_of_core cores formedHere formedThere
        (endS.last.head formedF) (endT.last.head formedG)
      obtain ⟨rfl, rfl⟩ := ih behind formedF formedG endS.tail endT.tail
      cases f
      cases g
      cases leads
      cases names
      cases values
      exact ⟨rfl, rfl⟩

end Fields

/-! ## Tags and pages -/

section Pages

variable {s t u v : Text}

theorem isPlain_of_append (plain : isPlain (u ++ v) = true) : isPlain v = true := by
  induction u with
  | nil => exact plain
  | cons c u ih =>
    rw [List.cons_append, isPlain, Bool.and_eq_true] at plain
    exact ih plain.2

theorem exists_of_startsTag (starts : startsTag t = true) :
    ∃ c rest, isTagInitial c = true ∧ t = CodePoint.ofChar '<' :: c :: rest := by
  match t, starts with
  | c :: d :: rest, starts =>
    simp only [startsTag, Bool.and_eq_true, beq_iff_eq] at starts
    exact ⟨d, rest, starts.2, by rw [starts.1]⟩

/-- A text before a tag ends where the first tag begins. -/
theorem plain_unique (same : u ++ s = v ++ t) (plainU : isPlain u = true)
    (plainV : isPlain v = true) (tagS : s = [] ∨ startsTag s = true)
    (tagT : t = [] ∨ startsTag t = true) : u = v ∧ s = t := by
  have empty : ∀ {u w r : Text}, isPlain (u ++ w) = true →
      (w ++ r = [] ∨ startsTag (w ++ r) = true) → (r = [] ∨ startsTag r = true) → w = [] := by
    intro u w r plain starts next
    rcases starts with nothing | starts
    · exact (List.append_eq_nil_iff.1 nothing).1
    obtain ⟨c, rest, initial, same⟩ := exists_of_startsTag starts
    match w, same, isPlain_of_append plain with
    | [], _, _ => rfl
    | [d], same, _ =>
      -- The tag would begin with the last code point of the text, and another one behind it.
      obtain ⟨-, rfl⟩ := List.cons.inj same
      rcases next with nothing | next
      · cases nothing
      · obtain ⟨d, more, -, same⟩ := exists_of_startsTag next
        rw [(List.cons.inj same).1] at initial
        exact absurd initial (by decide)
    | d :: e :: more, same, plain =>
      simp only [List.cons_append, List.cons.injEq] at same
      obtain ⟨rfl, rfl, rfl⟩ := same
      simp [isPlain, startsTag, initial] at plain
  rcases List.append_eq_append_iff.1 same with ⟨w, rfl, rfl⟩ | ⟨w, rfl, rfl⟩
  · obtain rfl := empty plainV tagS tagT
    simp
  · obtain rfl := empty plainU tagT tagS
    simp

namespace Tag

variable {a b : Tag}

theorem startsTag_text (formed : a.WellFormed) (rest : Text) :
    startsTag (a.text ++ rest) = true := by
  obtain ⟨c, tail, name, initial⟩ := formed.exists_name
  simp [text, name, startsTag, initial]

theorem starts_flatMap {tags : List Tag} (formed : ∀ t ∈ tags, t.WellFormed) :
    tags.flatMap text = [] ∨ startsTag (tags.flatMap text) = true := by
  cases tags with
  | nil => exact .inl rfl
  | cons t tags => exact .inr (startsTag_text (formed t List.mem_cons_self) _)

theorem stops_close {p : CodePoint → Bool} (slash : p (CodePoint.ofChar '/') = false)
    (ends : p (CodePoint.ofChar '>') = false) (rest : Text) : Stops p (a.close ++ rest) := by
  cases closed : a.closed <;> simp only [close, closed, Bool.false_eq_true, if_false, if_true]
  · exact stops_cons ends _
  · exact stops_cons slash _

theorem close_unique (same : a.close ++ s = b.close ++ t) : a.closed = b.closed ∧ s = t := by
  have apart : CodePoint.ofChar '/' ≠ CodePoint.ofChar '>' := by decide
  cases closedA : a.closed <;> cases closedB : b.closed <;>
    simp only [close, closedA, closedB, Bool.false_eq_true, if_false, if_true, List.nil_append,
      List.cons_append, List.cons.injEq, true_and, apart, apart.symm, false_and] at same
  · exact ⟨rfl, same⟩
  · exact ⟨rfl, same⟩

theorem stops_gap {p : CodePoint → Bool} (formed : a.WellFormed)
    (blank : ∀ c, c.isBlank = true → p c = false) (slash : p (CodePoint.ofChar '/') = false)
    (ends : p (CodePoint.ofChar '>') = false) (rest : Text) :
    Stops p (a.gap ++ (a.close ++ rest)) := by
  by_cases empty : a.gap = []
  · rw [empty]
    exact stops_close slash ends rest
  · exact stops_append empty formed.gap blank _

theorem stripLeft_gap (formed : a.WellFormed) (rest : Text) :
    Text.stripLeft (a.gap ++ (a.close ++ rest)) = a.close ++ rest :=
  stripLeft_append formed.gap (stops_close (by decide) (by decide) rest)

theorem endsFields (formed : a.WellFormed) (rest : Text) :
    EndsFields a.fields (a.gap ++ (a.close ++ rest)) := by
  refine ⟨fun f last => ⟨fun isOpen => ?_, ?_, ?_⟩, ?_⟩
  · by_cases empty : a.gap = []
    · have closed : a.closed = false := by
        refine Bool.eq_false_iff.2 fun closed => ?_
        rw [formed.apart closed empty f last] at isOpen
        cases isOpen
      simp only [empty, close, closed, Bool.false_eq_true, if_false]
      exact stops_cons (by decide) _
    · exact stops_append empty formed.gap (fun _ => isBareChar_of_isBlank) _
  · exact stops_gap formed (fun _ => isFieldChar_of_isBlank) (by decide) (by decide) rest
  · rw [stripLeft_gap formed]
    exact stops_close (by decide) (by decide) rest
  · rw [stripLeft_gap formed]
    exact stops_close (by decide) (by decide) rest

theorem stops_fields (formed : a.WellFormed) (rest : Text) :
    Stops isTagChar (a.fields.flatMap Field.text ++ (a.gap ++ (a.close ++ rest))) := by
  have blank : ∀ c, CodePoint.isBlank c = true → isTagChar c = false := by
    intro c blank
    simp [isTagChar, blank]
  cases fields : a.fields with
  | nil => exact stops_gap formed blank (by decide) (by decide) rest
  | cons f fs =>
    have here := formed.fields f (by rw [fields]; exact List.mem_cons_self)
    rw [List.flatMap_cons, Field.text, List.append_assoc, List.append_assoc]
    exact stops_append here.lead.1 here.lead.2 blank _

theorem eq_of_text (same : a.text ++ s = b.text ++ t) (formedA : a.WellFormed)
    (formedB : b.WellFormed) (tagS : s = [] ∨ startsTag s = true)
    (tagT : t = [] ∨ startsTag t = true) : a = b ∧ s = t := by
  obtain ⟨c, tailA, nameA, -⟩ := formedA.exists_name
  obtain ⟨d, tailB, nameB, -⟩ := formedB.exists_name
  have inA := formedA.tail
  have inB := formedB.tail
  rw [nameA, List.tail_cons] at inA
  rw [nameB, List.tail_cons] at inB
  simp only [text, nameA, nameB, List.cons_append, List.append_assoc, List.cons.injEq,
    true_and] at same
  obtain ⟨rfl, same⟩ := same
  obtain ⟨rfl, sameFields⟩ := span_unique same inA inB (stops_fields formedA _)
    (stops_fields formedB _)
  obtain ⟨fields, gaps⟩ := fields_eq_of_text sameFields formedA.fields formedB.fields
    (endsFields formedA _) (endsFields formedB _)
  obtain ⟨gap, closes⟩ := span_unique gaps formedA.gap formedB.gap
    (stops_close (by decide) (by decide) _) (stops_close (by decide) (by decide) _)
  obtain ⟨closed, texts⟩ := close_unique closes
  obtain ⟨behind, rfl⟩ := plain_unique texts formedA.behind formedB.behind tagS tagT
  cases a
  cases b
  simp_all

end Tag

theorem tags_eq_of_text {tags others : List Tag}
    (same : tags.flatMap Tag.text = others.flatMap Tag.text)
    (formedA : ∀ t ∈ tags, t.WellFormed) (formedB : ∀ t ∈ others, t.WellFormed) :
    tags = others := by
  induction tags generalizing others with
  | nil =>
    cases others with
    | nil => rfl
    | cons b others => simp [Tag.text] at same
  | cons a tags ih =>
    cases others with
    | nil => simp [Tag.text] at same
    | cons b others =>
      obtain ⟨hereA, formedA⟩ := List.forall_mem_cons.1 formedA
      obtain ⟨hereB, thereB⟩ := List.forall_mem_cons.1 formedB
      rw [List.flatMap_cons, List.flatMap_cons] at same
      obtain ⟨rfl, behind⟩ := Tag.eq_of_text same hereA hereB (Tag.starts_flatMap formedA)
        (Tag.starts_flatMap thereB)
      rw [ih behind formedA thereB]

/-- A text is spelled by one well-formed page at most. -/
theorem Page.eq_of_text {p q : Page} (formedP : p.WellFormed) (formedQ : q.WellFormed)
    (same : p.text = q.text) : p = q := by
  obtain ⟨heads, behind⟩ := plain_unique same formedP.head formedQ.head
    (Tag.starts_flatMap formedP.tags) (Tag.starts_flatMap formedQ.tags)
  have tags := tags_eq_of_text behind formedP.tags formedQ.tags
  cases p
  cases q
  cases heads
  cases tags
  rfl

end Pages

end Arabize.Markup
