import Arabize.Proofs.Markup.SilentPages

/-! # What the passes over the attributes leave alone

The attributes are sought in the whole text of a page, tag or not.  As long as what is found is an
attribute of a tag, the passes rewrite values of attributes of the sought names and nothing else,
so that the page has the same tags with the same attributes afterwards (`editAttributes_frame`).
-/

namespace Arabize.Markup

variable {σ : Type} {visit : Text → StateM σ Text} {name content : Text} {names : List Text}
  {n m : Nat} {f g : Field} {p q : Page}

/-! ## Values that are written -/

/-- A value as it is written between double quotes. -/
def escaped (value : Text) : Text := Text.replaceAll value "\"" "&quot;"

theorem quoteValue_eq (value : Text) :
    quoteValue value = (Value.quoted (CodePoint.ofChar '"') (escaped value)).text :=
  rfl

theorem not_mem_escaped (value : Text) : CodePoint.ofChar '"' ∉ escaped value :=
  Text.not_mem_replaceAll (by decide) value

/-- A field of one of some names with its value replaced by an answer of a visitor for it. -/
def Answered (visit : Text → StateM σ Text) (names : List Text) (f g : Field) : Prop :=
  ∃ name ∈ names, f.Named name ∧ ∃ sign mark value s,
    f.assigned = some ⟨sign, .quoted mark value⟩ ∧
    g = { f with
      assigned := some ⟨sign, .quoted (CodePoint.ofChar '"') (escaped (visit value s).1)⟩ }

/-! ## Where a field stands -/

theorem exists_of_mem_fieldPlaces {fs : List Field} (member : (m, f) ∈ fieldPlaces n fs) :
    f ∈ fs ∧ ∃ before after, fs.flatMap Field.text = before ++ (f.core ++ after) ∧
      m = n + before.length := by
  induction fs generalizing n with
  | nil => cases member
  | cons g fs ih =>
    rcases List.mem_cons.1 member with same | later
    · cases same
      exact ⟨List.mem_cons_self, f.lead, fs.flatMap Field.text, by simp [Field.text], rfl⟩
    · obtain ⟨inside, before, after, split, rfl⟩ := ih later
      refine ⟨List.mem_cons_of_mem _ inside, g.text ++ before, after, ?_, ?_⟩
      · rw [List.flatMap_cons, split, List.append_assoc]
      · rw [List.length_append, Nat.add_assoc]

theorem exists_of_mem_tagPlaces {tags : List Tag} (member : (m, f) ∈ tagPlaces n tags) :
    (∃ t ∈ tags, f ∈ t.fields) ∧
      ∃ before after, tags.flatMap Tag.text = before ++ (f.core ++ after) ∧
        m = n + before.length := by
  induction tags generalizing n with
  | nil => cases member
  | cons t tags ih =>
    rcases List.mem_append.1 member with here | later
    · obtain ⟨inside, before, after, split, rfl⟩ := exists_of_mem_fieldPlaces here
      refine ⟨⟨t, List.mem_cons_self, inside⟩, CodePoint.ofChar '<' :: t.name ++ before,
        after ++ (t.gap ++ t.close ++ t.behind) ++ tags.flatMap Tag.text, ?_, ?_⟩
      · simp [Tag.text, split]
      · simp only [List.length_append, List.length_cons]
        omega
    · obtain ⟨⟨u, isTag, inside⟩, before, after, split, rfl⟩ := ih later
      refine ⟨⟨u, List.mem_cons_of_mem _ isTag, inside⟩, t.text ++ before, after, ?_, ?_⟩
      · rw [List.flatMap_cons, split, List.append_assoc]
      · rw [List.length_append, Nat.add_assoc]

theorem wellFormed_of_mem_places (formed : p.WellFormed) (member : (m, f) ∈ p.places) :
    f.WellFormed := by
  obtain ⟨⟨t, isTag, inside⟩, -⟩ := exists_of_mem_tagPlaces member
  exact (formed.tags t isTag).fields f inside

theorem drop_of_mem_places (member : (m, f) ∈ p.places) :
    ∃ rest, p.text.drop m = f.core ++ rest := by
  obtain ⟨-, before, after, split, rfl⟩ := exists_of_mem_tagPlaces member
  refine ⟨after, ?_⟩
  rw [Page.text, split, ← List.append_assoc, ← List.length_append, List.drop_left]

/-! ## One pass -/

/-- All attributes of a name that a pass finds in a text are fields of tags, if it is a page. -/
def Owned (name content : Text) : Prop :=
  ∀ p : Page, p.WellFormed → p.text = content → foundPlaces name content ⊆ p.placesOf name

/-- What a pass replaces where a field stands is the field. -/
theorem fieldEdit_of_valueEdit (plain : ∀ d ∈ name, d.Plain) (formed : p.WellFormed)
    (owned : Owned name p.text) {old new : Text} (edit : ValueEdit visit name p.text m old new) :
    FieldEdit (Answered visit [name]) p.places m old new := by
  obtain ⟨found, a, s, sought, rfl, rfl⟩ := edit
  obtain ⟨⟨_, f⟩, member, rfl⟩ := List.mem_map.1 (owned p formed rfl found)
  obtain ⟨member, quotes⟩ := by
    simpa only [List.mem_filter, decide_eq_true_eq] using member
  obtain ⟨sign, mark, value, assigned⟩ := quotes.exists_quoted
  obtain ⟨rest, here⟩ := drop_of_mem_places member
  have read := attribute?_core plain quotes.1 (wellFormed_of_mem_places formed member) assigned rest
  simp only [here, read, Option.some.injEq] at sought
  subst sought
  refine ⟨f, _, member, ⟨name, List.mem_singleton_self _, quotes.1, sign, mark, value, s, assigned,
    rfl⟩, ?_, ?_⟩
  · have length : Attribute.length ⟨f.name, sign.text, value⟩ = f.core.length := by
      simp only [Attribute.length, Field.core, assigned, Option.elim_some, Assigned.text,
        Value.text, List.length_append, List.length_cons, List.length_nil]
      omega
    rw [here, length, List.take_left]
  · simp [Field.core, Assigned.text, quoteValue_eq]

theorem Answered.lead (f g : Field) (answered : Answered visit names f g) : g.lead = f.lead := by
  obtain ⟨-, -, -, -, -, -, -, -, rfl⟩ := answered
  rfl

/-- A pass over an attribute gives fields of the name their answers, and keeps everything else. -/
theorem editAttribute_kept (visit : Text → StateM σ Text) (plain : ∀ d ∈ name, d.Plain)
    (formed : p.WellFormed) (owned : Owned name p.text) (s : σ) :
    ∃ q : Page, PageKept (Answered visit [name]) p q ∧
      (editAttribute visit name p.text s).1 = q.text := by
  have rewrites := (editAttribute_rewrites visit name p.text s).mono fun m old new edit =>
    fieldEdit_of_valueEdit plain formed owned edit
  exact exists_page_of_rewrites Answered.lead formed rewrites

/-! ## The pages that passes leave -/

section Related

variable {α β γ : Type} {r : α → β → Prop} {as : List α} {bs : List β} {cs : List γ}

theorem forall_of_forall₂ (good : α → Prop) {fine : β → Prop}
    (related : List.Forall₂ r as bs) (each : ∀ a b, r a b → good a → fine b)
    (all : ∀ a ∈ as, good a) : ∀ b ∈ bs, fine b := by
  induction related with
  | nil => simp
  | cons here _ ih =>
    obtain ⟨first, others⟩ := List.forall_mem_cons.1 all
    exact List.forall_mem_cons.2 ⟨each _ _ here first, ih others⟩

theorem exists_last_of_forall₂ (related : List.Forall₂ r as bs) {b : β} (last : b ∈ bs.getLast?) :
    ∃ a ∈ as.getLast?, r a b := by
  induction related with
  | nil => cases last
  | cons here rest ih =>
    cases rest with
    | nil =>
      cases last
      exact ⟨_, rfl, here⟩
    | cons _ _ =>
      rw [List.getLast?_cons_cons] at last ⊢
      exact ih last

theorem forall₂_trans {s : β → γ → Prop} {t : α → γ → Prop}
    (compose : ∀ a b c, r a b → s b c → t a c) (first : List.Forall₂ r as bs)
    (later : List.Forall₂ s bs cs) : List.Forall₂ t as cs := by
  induction first generalizing cs with
  | nil => cases later; exact .nil
  | cons here _ ih =>
    cases later with
    | cons there later => exact .cons (compose _ _ _ here there) (ih later)

theorem map_eq_of_forall₂ {f : α → γ} {g : β → γ} (related : List.Forall₂ r as bs)
    (same : ∀ a b, r a b → g b = f a) : bs.map g = as.map f := by
  induction related with
  | nil => rfl
  | cons here _ ih => rw [List.map_cons, List.map_cons, same _ _ here, ih]

end Related

theorem Answered.wellFormed (answered : Answered visit names f g) (formed : f.WellFormed) :
    g.WellFormed ∧ g.isOpen = false := by
  obtain ⟨-, -, -, sign, mark, value, s, assigned, rfl⟩ := answered
  obtain ⟨before, after, -⟩ := formed.assigned _ assigned
  refine ⟨⟨formed.lead, formed.name, ?_⟩, rfl⟩
  rintro a ⟨⟩
  exact ⟨before, after, by decide, not_mem_escaped _⟩

theorem TagKept.wellFormed {a b : Tag} (kept : TagKept (Answered visit names) a b)
    (formed : a.WellFormed) : b.WellFormed := by
  obtain ⟨fields, rfl, kept⟩ := kept
  obtain ⟨name, tail, formed, gap, apart, behind⟩ := formed
  refine ⟨name, tail, ?_, gap, fun closed empty g last => ?_, behind⟩
  · refine forall_of_forall₂ Field.WellFormed kept (fun f g kept formed => ?_) formed
    rcases kept with rfl | answered
    · exact formed
    · exact (answered.wellFormed formed).1
  · obtain ⟨f, lastToo, kept⟩ := exists_last_of_forall₂ kept last
    rcases kept with rfl | answered
    · exact apart closed empty g lastToo
    · exact (answered.wellFormed (formed f (List.mem_of_getLast? lastToo))).2

theorem PageKept.wellFormed (kept : PageKept (Answered visit names) p q) (formed : p.WellFormed) :
    q.WellFormed := by
  obtain ⟨head, tags⟩ := kept
  exact ⟨by rw [head]; exact formed.head,
    forall_of_forall₂ Tag.WellFormed tags (fun _ _ kept formed => kept.wellFormed formed)
      formed.tags⟩

/-- A field changes in one at most of two passes over different names. -/
theorem FieldKept.trans (other : name ∉ names) {h : Field}
    (first : FieldKept (Answered visit [name]) f g) (later : FieldKept (Answered visit names) g h) :
    FieldKept (Answered visit (name :: names)) f h := by
  rcases first with rfl | ⟨own, single, named, answered⟩
  · exact later.imp_right fun ⟨name, member, answered⟩ =>
      ⟨name, List.mem_cons_of_mem _ member, answered⟩
  · obtain rfl := List.mem_singleton.1 single
    rcases later with rfl | ⟨second, member, namedToo, -⟩
    · exact .inr ⟨own, List.mem_cons_self, named, answered⟩
    · obtain ⟨_, _, _, _, _, rfl⟩ := answered
      obtain rfl : second = own := Eq.trans (Eq.symm namedToo) named
      exact absurd member other

theorem PageKept.trans (other : name ∉ names) {r : Page}
    (first : PageKept (Answered visit [name]) p q) (later : PageKept (Answered visit names) q r) :
    PageKept (Answered visit (name :: names)) p r := by
  obtain ⟨head, tags⟩ := first
  obtain ⟨headToo, tagsToo⟩ := later
  refine ⟨headToo.trans head, forall₂_trans ?_ tags tagsToo⟩
  rintro a _ _ ⟨fields, rfl, kept⟩ ⟨fieldsToo, rfl, keptToo⟩
  exact ⟨fieldsToo, rfl, forall₂_trans (fun _ _ _ first later => first.trans other later) kept
    keptToo⟩

/-! ## All passes -/

/-- On the way through the passes over some names all that is found are attributes of tags. -/
def ToldApart (visit : Text → StateM σ Text) : List Text → Text → σ → Prop
  | [], _, _ => True
  | name :: names, content, s =>
    Owned name content ∧ ToldApart visit names (editAttribute visit name content s).1
      (editAttribute visit name content s).2

theorem editEach_kept (plain : ∀ name ∈ names, ∀ d ∈ name, d.Plain) (distinct : names.Nodup)
    (formed : p.WellFormed) (s : σ) (told : ToldApart visit names p.text s) :
    ∃ q : Page, PageKept (Answered visit names) p q ∧
      (editEach visit names p.text s).1 = q.text := by
  induction names generalizing p s with
  | nil =>
    refine ⟨p, ⟨rfl, List.forall₂_same.2 fun t _ => ⟨t.fields, rfl, ?_⟩⟩, rfl⟩
    exact List.forall₂_same.2 fun f _ => .inl rfl
  | cons name names ih =>
    obtain ⟨plainHere, plain⟩ := List.forall_mem_cons.1 plain
    obtain ⟨other, distinct⟩ := List.nodup_cons.1 distinct
    obtain ⟨owned, told⟩ := told
    obtain ⟨q, first, edited⟩ := editAttribute_kept visit plainHere formed owned s
    rw [edited] at told
    obtain ⟨r, later, left⟩ := ih plain distinct (first.wellFormed formed) _ told
    refine ⟨r, first.trans other later, ?_⟩
    rw [← left, ← edited]
    rfl

/-! ## Pages that tell fields apart -/

/-- No answer for the value of a field makes it mention another one of some names. -/
def Tag.Discreet (visit : Text → StateM σ Text) (names : List Text) (t : Tag) : Prop :=
  ∀ f ∈ t.fields, ∀ g, Answered visit names f g →
    ∀ name ∈ names, ¬ f.Named name → ¬ Mentions name g.core

theorem Answered.mono {more : List Text} (answered : Answered visit names f g)
    (listed : names ⊆ more) : Answered visit more f g := by
  obtain ⟨name, member, others⟩ := answered
  exact ⟨name, listed member, others⟩

/-- A field that is answered keeps its name. -/
theorem Answered.named (answered : Answered visit [name] f g) : f.Named name ∧ g.name = f.name := by
  obtain ⟨own, single, named, _, _, _, _, _, rfl⟩ := answered
  obtain rfl := List.mem_singleton.1 single
  exact ⟨named, rfl⟩

section Discreet

variable {first : Text} {a b : Tag}

theorem TagKept.silent (kept : TagKept (Answered visit [first]) a b) (other : first ∉ names)
    (member : name ∈ names) (discreet : a.Discreet visit (first :: names))
    (silent : a.Silent name) : b.Silent name := by
  obtain ⟨fields, rfl, kept⟩ := kept
  obtain ⟨opening, silent, behind⟩ := silent
  refine ⟨opening, ?_, behind⟩
  have both : ∀ f ∈ a.fields, f ∈ a.fields ∧ (f.Quotes name ∨ ¬ Mentions name f.core) :=
    fun f inside => ⟨inside, silent f inside⟩
  refine forall_of_forall₂ _ kept ?_ both
  rintro f g (rfl | answered) ⟨inside, silent⟩
  · exact silent
  · have unnamed : ¬ f.Named name := fun named =>
      other (by rwa [show first = name from Eq.trans (Eq.symm answered.named.1) named])
    exact .inr (discreet f inside g (answered.mono (by simp)) name
      (List.mem_cons_of_mem _ member) unnamed)

theorem TagKept.discreet (kept : TagKept (Answered visit [first]) a b) (other : first ∉ names)
    (discreet : a.Discreet visit (first :: names)) : b.Discreet visit names := by
  obtain ⟨fields, rfl, kept⟩ := kept
  refine forall_of_forall₂ (· ∈ a.fields) kept ?_ fun _ inside => inside
  rintro f g (rfl | answered) inside h later name member unnamed
  · exact discreet g inside h (later.mono (List.subset_cons_self _ _)) name
      (List.mem_cons_of_mem _ member) unnamed
  · -- The field has been answered for the first name, and is none of the others.
    obtain ⟨own, ownMember, named, -⟩ := later
    have same : first = own := by
      rw [← answered.named.1, ← answered.named.2]
      exact named
    rw [same] at other
    exact absurd ownMember other

end Discreet

/-- Where nothing but the fields of some names mentions them, and no answer does, the passes over
    these names find fields only. -/
theorem toldApart_of_silent (sought : ∀ name ∈ names, FieldName name) (distinct : names.Nodup)
    (formed : p.WellFormed) (silent : ∀ name ∈ names, p.Silent name)
    (discreet : ∀ t ∈ p.tags, t.Discreet visit names) (s : σ) :
    ToldApart visit names p.text s := by
  induction names generalizing p s with
  | nil => trivial
  | cons name names ih =>
    obtain ⟨soughtHere, sought⟩ := List.forall_mem_cons.1 sought
    obtain ⟨other, distinct⟩ := List.nodup_cons.1 distinct
    obtain ⟨silentHere, silent⟩ := List.forall_mem_cons.1 silent
    have owned : Owned name p.text := by
      intro q formedToo same
      obtain rfl := Page.eq_of_text formedToo formed same
      exact foundPlaces_subset soughtHere formed silentHere
    obtain ⟨q, kept, edited⟩ := editAttribute_kept visit soughtHere.plain formed owned s
    refine ⟨owned, ?_⟩
    rw [edited]
    refine ih sought distinct (kept.wellFormed formed) (fun own member => ⟨?_, ?_⟩) ?_ _
    · rw [kept.1]
      exact (silent own member).head
    · refine forall_of_forall₂ (fun t => t.Discreet visit (name :: names) ∧ t.Silent own) kept.2 ?_
        fun t inside => ⟨discreet t inside, (silent own member).tags t inside⟩
      exact fun _ _ kept ⟨discreet, silent⟩ => kept.silent other member discreet silent
    · exact forall_of_forall₂ (Tag.Discreet visit (name :: names)) kept.2
        (fun _ _ kept discreet => kept.discreet other discreet) discreet

/-- A field with a quoted value spelled anew. -/
def Field.respelled (spell : Text → Text) (f : Field) : Field :=
  match f.assigned with
  | some ⟨sign, .quoted _ value⟩ =>
    { f with assigned := some ⟨sign, .quoted (CodePoint.ofChar '"') (escaped (spell value))⟩ }
  | _ => f

/-- For a visitor without memory there is one answer for each field. -/
theorem discreet_of_respelled {spell : Text → Text} (answers : ∀ t s, (visit t s).1 = spell t)
    {t : Tag} (silent : ∀ f ∈ t.fields, ∀ name ∈ names,
      f.Named name ∨ ¬ Mentions name (f.respelled spell).core) : t.Discreet visit names := by
  rintro f inside g ⟨_, _, _, sign, mark, value, s, assigned, rfl⟩ name member unnamed
  have respelled := (silent f inside name member).resolve_left unnamed
  simpa only [Field.respelled, assigned, answers] using respelled

/-! ## All attributes -/

/-- The names of the tags of a page, each with the names of its attributes. -/
def Page.outline (p : Page) : List (Text × List Text) :=
  p.tags.map fun t => (t.name, t.fields.map Field.name)

theorem outline_of_kept (kept : PageKept (Answered visit names) p q) : q.outline = p.outline := by
  refine map_eq_of_forall₂ kept.2 ?_
  rintro a _ ⟨fields, rfl, kept⟩
  refine Prod.ext rfl (map_eq_of_forall₂ kept ?_)
  rintro f g (rfl | ⟨_, _, _, _, _, _, _, _, rfl⟩) <;> rfl

/-- As long as what the passes find are attributes of tags, they replace quoted values of
    translatable attributes by answers for them and change nothing else.  So the text that they
    leave is that of one page, of the same tags with the same attributes. -/
theorem editAttributes_frame (visit : Text → StateM σ Text) (formed : p.WellFormed) (s : σ)
    (told : ToldApart visit readableAttributes p.text s) :
    ∃ q : Page, (editAttributes visit p.text s).1 = q.text ∧ q.WellFormed ∧
      (∀ r : Page, r.WellFormed → r.text = q.text → r = q) ∧
      PageKept (Answered visit readableAttributes) p q ∧ q.outline = p.outline := by
  have sought : ∀ name ∈ readableAttributes, FieldName name := by decide
  obtain ⟨q, kept, edited⟩ := editEach_kept (fun name member => (sought name member).plain)
    (by decide) formed s told
  have formedToo := kept.wellFormed formed
  exact ⟨q, edited, formedToo, fun r formedR same => Page.eq_of_text formedR formedToo same, kept,
    outline_of_kept kept⟩

def bracketed (t : Text) : Text := Text.ofString "[" ++ t ++ Text.ofString "]"

/-- A visitor that puts every text between brackets. -/
def bracketing (t : Text) : StateM Unit Text := pure (bracketed t)

/-- A page with an image. -/
def imagePage : Page :=
  ⟨"Home ", [⟨"img", [⟨" ", "alt", some ⟨⟨[], []⟩, .quoted (CodePoint.ofChar '\'') "title"⟩⟩,
      ⟨" ", "TITLE", some ⟨⟨" ", " "⟩, .quoted (CodePoint.ofChar '"') "Home"⟩⟩,
      ⟨" ", "data-title", some ⟨⟨[], []⟩, .bare "Home"⟩⟩], " ", true, " a < b"⟩,
    ⟨"/p", [], [], false, "\n"⟩]⟩

/-- Its two readable attributes are answered. -/
theorem editAttributes_frame_image :
    ∃ q : Page, q.text =
        "Home <img alt=\"[title]\" TITLE = \"[Home]\" data-title=Home /> a < b</p>\n" ∧
      PageKept (Answered bracketing readableAttributes) imagePage q ∧
      q.outline = imagePage.outline := by
  have formed : imagePage.WellFormed := by decide
  have told : ToldApart bracketing readableAttributes imagePage.text () := by
    refine toldApart_of_silent (by decide) (by decide) formed (by decide)
      (fun t member => ?_) ()
    have silent : ∀ t ∈ imagePage.tags, ∀ f ∈ t.fields, ∀ name ∈ readableAttributes,
        f.Named name ∨ ¬ Mentions name (f.respelled bracketed).core := by
      decide
    have answers : ∀ t s, (bracketing t s).1 = bracketed t := fun _ _ => rfl
    exact discreet_of_respelled answers (silent t member)
  obtain ⟨q, edited, -, -, kept, outline⟩ := editAttributes_frame bracketing formed () told
  refine ⟨q, ?_, kept, outline⟩
  rw [← edited]
  decide +kernel

end Arabize.Markup
