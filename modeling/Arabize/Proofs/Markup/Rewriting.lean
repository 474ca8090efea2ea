import Arabize.Proofs.Markup.Reading
import Arabize.Proofs.Markup.Texts
import Mathlib.Data.List.Forall2

/-! # What a pass over an attribute rewrites

A pass replaces stretches of a page and keeps everything between them (`Rewrites`).  Where all
stretches are fields of tags, the result is a page of the same tags (`exists_of_rewrites`).
-/

namespace Arabize.Markup

variable {σ : Type} {name content t u rest out : Text} {n : Nat}

/-! ## Stretches -/

/-- A text that stands at an offset is written out with some stretches replaced, as far as
    `may m old new` allows it for a stretch `old` at the offset `m`. -/
inductive Rewrites (may : Nat → Text → Text → Prop) : Nat → Text → Text → Prop
  | nil (n : Nat) : Rewrites may n [] []
  | keep {n : Nat} (c : CodePoint) {t out : Text} (behind : Rewrites may (n + 1) t out) :
      Rewrites may n (c :: t) (c :: out)
  | change {n : Nat} {old new t out : Text} (here : may n old new)
      (behind : Rewrites may (n + old.length) t out) : Rewrites may n (old ++ t) (new ++ out)

section Rewrites

variable {may : Nat → Text → Text → Prop}

theorem Rewrites.append_left (u : Text) (behind : Rewrites may (n + u.length) t out) :
    Rewrites may n (u ++ t) (u ++ out) := by
  induction u generalizing n with
  | nil => exact behind
  | cons c u ih =>
    refine .keep c (ih ?_)
    rwa [List.length_cons, Nat.add_comm u.length, ← Nat.add_assoc] at behind

theorem Rewrites.mono {other : Nat → Text → Text → Prop} (rewrites : Rewrites may n t out)
    (weaker : ∀ m old new, may m old new → other m old new) : Rewrites other n t out := by
  induction rewrites with
  | nil n => exact .nil n
  | keep c _ ih => exact .keep c ih
  | change here _ ih => exact .change (weaker _ _ _ here) ih

/-- A stretch in which nothing begins that may change is kept. -/
theorem Rewrites.kept (rewrites : Rewrites may n (u ++ t) out)
    (still : ∀ m old new, n ≤ m → m < n + u.length → ¬ may m old new) :
    ∃ behind, out = u ++ behind ∧ Rewrites may (n + u.length) t behind := by
  induction u generalizing n out with
  | nil => exact ⟨out, rfl, rewrites⟩
  | cons c u ih =>
    generalize whole : c :: u ++ t = w at rewrites
    cases rewrites with
    | nil => cases whole
    | keep d behind =>
      cases whole
      obtain ⟨later, rfl, rewrites⟩ := ih behind fun m old new least most =>
        still m old new (by omega) (by rw [List.length_cons]; omega)
      refine ⟨later, rfl, ?_⟩
      rwa [List.length_cons, Nat.add_comm u.length, ← Nat.add_assoc]
    | change here _ =>
      exact absurd here (still n _ _ (Nat.le_refl n) (Nat.lt_add_of_pos_right (Nat.succ_pos _)))

/-- A stretch that may change as a whole only is kept, or changes. -/
theorem Rewrites.stretch (nonempty : u ≠ []) (rewrites : Rewrites may n (u ++ t) out)
    (whole : ∀ m old new, n ≤ m → m < n + u.length → may m old new → m = n ∧ old = u) :
    ∃ v behind, (v = u ∨ may n u v) ∧ out = v ++ behind ∧
      Rewrites may (n + u.length) t behind := by
  obtain ⟨c, u, rfl⟩ := List.exists_cons_of_ne_nil nonempty
  generalize spelled : c :: u ++ t = w at rewrites
  cases rewrites with
  | nil => cases spelled
  | keep d behind =>
    cases spelled
    obtain ⟨later, rfl, rewrites⟩ := behind.kept fun m old new least most changes => by
      have same := (whole m old new (by omega) (by rw [List.length_cons]; omega) changes).1
      omega
    refine ⟨c :: u, later, .inl rfl, rfl, ?_⟩
    rwa [List.length_cons, Nat.add_comm u.length, ← Nat.add_assoc]
  | change here behind =>
    obtain ⟨-, rfl⟩ := whole n _ _ (Nat.le_refl n) (Nat.lt_add_of_pos_right (Nat.succ_pos _)) here
    obtain rfl := List.append_cancel_left spelled
    exact ⟨_, _, .inr here, rfl, behind⟩

end Rewrites

/-! ## A pass -/

/-- Where the attributes of a name stand that a pass visits. -/
def foundPlaces (name content : Text) : List Nat :=
  (cutAttributes name 0 0 none content).filterMap fun piece =>
    match piece with
    | .other _ => none
    | .attribute start _ _ =>
      if insideRawBody content.lower (tagStart content start) then none else some start

/-- What a pass may replace: an attribute that is visited, by one with the answer for its value. -/
def ValueEdit (visit : Text → StateM σ Text) (name content : Text) (n : Nat) (old new : Text) :
    Prop :=
  n ∈ foundPlaces name content ∧ ∃ a s, attribute? name (content.drop n) = some a ∧
    old = (content.drop n).take a.length ∧
    new = a.name ++ a.sign ++ quoteValue (visit a.value s).1

theorem editAttributePieces_cons (visit : Text → StateM σ Text) (content lowered : Text)
    (piece : AttributePiece) (pieces : List AttributePiece) (s : σ) :
    (editAttributePieces visit content lowered (piece :: pieces) s).1 =
      (editAttributePiece visit content lowered piece s).1 ++
        (editAttributePieces visit content lowered pieces
          (editAttributePiece visit content lowered piece s).2).1 :=
  rfl

theorem editAttributePiece_run (visit : Text → StateM σ Text) (content : Text) (start : Nat)
    (a : Attribute) (spelling : Text) (s : σ) :
    (editAttributePiece visit content content.lower (.attribute start a spelling) s).1 =
      if insideRawBody content.lower (tagStart content start) = true ∨
          (visit a.value s).1 = a.value then spelling
      else a.name ++ a.sign ++ quoteValue (visit a.value s).1 := by
  by_cases inside : insideRawBody content.lower (tagStart content start) = true
  · simp only [editAttributePiece, inside, if_true, true_or]
    rfl
  · simp only [editAttributePiece, inside, Bool.false_eq_true, if_false, false_or]
    change ((if (visit a.value s).1 = a.value then (pure spelling : StateM σ Text)
      else pure (a.name ++ a.sign ++ quoteValue (visit a.value s).1)) (visit a.value s).2).1 = _
    split <;> rfl

theorem editAttributePieces_rewrites (visit : Text → StateM σ Text) {skip : Nat}
    {before : Option CodePoint} (here : content.drop n = t)
    (listed : cutAttributes name n skip before t ⊆ cutAttributes name 0 0 none content) (s : σ) :
    Rewrites (ValueEdit visit name content) (n + skip) (t.drop skip)
      (editAttributePieces visit content content.lower (cutAttributes name n skip before t)
        s).1 := by
  fun_induction cutAttributes name n skip before t generalizing s with
  | case1 n skip before =>
    rw [List.drop_nil]
    exact .nil _
  | case2 n skip before c t ih =>
    rw [Nat.add_succ, ← Nat.succ_add]
    exact ih (by rw [← List.drop_drop, here]; rfl) listed s
  | case3 n before c t found a isFound ih =>
    obtain ⟨member, later⟩ := List.cons_subset.1 listed
    have sought : attribute? name (c :: t) = some a := by
      simp only [found] at isFound
      split at isFound
      next => exact isFound
      next => cases isFound
    have fits : a.length ≤ (c :: t).length := length_le_of_attribute? sought
    have wide : a.length = a.length - 1 + 1 := by rw [Attribute.length]; omega
    have behind := ih (by rw [← List.drop_drop, here]; rfl) later
      (editAttributePiece visit content content.lower
        (.attribute n a ((c :: t).take a.length)) s).2
    have next : n + 1 + (a.length - 1) = n + ((c :: t).take a.length).length := by
      rw [List.length_take_of_le fits]
      omega
    have parts : (c :: t).drop 0 = (c :: t).take a.length ++ t.drop (a.length - 1) := by
      rw [wide, Nat.add_sub_cancel, List.take_succ_cons, List.cons_append, List.take_append_drop,
        List.drop_zero]
    rw [next] at behind
    rw [editAttributePieces_cons, parts]
    rw [editAttributePiece_run]
    split
    next => exact .append_left _ behind
    next edited =>
      rw [not_or, Bool.not_eq_true] at edited
      refine .change ⟨?_, a, s, by rw [Nat.add_zero, here]; exact sought, ?_, rfl⟩ behind
      · exact List.mem_filterMap.2 ⟨_, member, by simp [edited.1]⟩
      · rw [Nat.add_zero, here]
  | case4 n before c t found isNone ih =>
    exact .keep c (ih (by rw [← List.drop_drop, here]; rfl) (List.cons_subset.1 listed).2 _)

theorem editAttribute_rewrites (visit : Text → StateM σ Text) (name content : Text) (s : σ) :
    Rewrites (ValueEdit visit name content) 0 content (editAttribute visit name content s).1 :=
  @editAttributePieces_rewrites σ name content content 0 visit 0 none List.drop_zero
    (List.Subset.refl _) s

/-! ## The places of fields -/

/-- The fields of a list that stands at an offset, each with the place where it begins. -/
def fieldPlaces : Nat → List Field → List (Nat × Field)
  | _, [] => []
  | n, f :: fs => (n + f.lead.length, f) :: fieldPlaces (n + f.text.length) fs

/-- The fields of the tags of a list that stands at an offset. -/
def tagPlaces : Nat → List Tag → List (Nat × Field)
  | _, [] => []
  | n, t :: tags =>
    fieldPlaces (n + (t.name.length + 1)) t.fields ++ tagPlaces (n + t.text.length) tags

def Page.places (p : Page) : List (Nat × Field) := tagPlaces p.head.length p.tags

section Places

variable {f : Field} {fs : List Field} {m : Nat}

theorem Field.core_ne_nil (formed : f.WellFormed) : f.core ≠ [] := by
  simp [core, formed.name.1]

theorem bounds_of_mem_fieldPlaces (formed : ∀ f ∈ fs, f.WellFormed)
    (member : (m, f) ∈ fieldPlaces n fs) :
    n ≤ m ∧ m < n + (fs.flatMap Field.text).length := by
  induction fs generalizing n with
  | nil => cases member
  | cons g fs ih =>
    obtain ⟨here, behind⟩ := List.forall_mem_cons.1 formed
    have core := List.length_pos_iff.2 (Field.core_ne_nil here)
    rw [List.flatMap_cons, List.length_append, Field.text, List.length_append]
    rcases List.mem_cons.1 member with same | later
    · cases same
      omega
    · obtain ⟨least, most⟩ := ih behind later
      rw [Field.text, List.length_append] at least most
      omega

theorem le_of_mem_tagPlaces {tags : List Tag} (formed : ∀ t ∈ tags, t.WellFormed)
    (member : (m, f) ∈ tagPlaces n tags) : n ≤ m := by
  induction tags generalizing n with
  | nil => cases member
  | cons t tags ih =>
    obtain ⟨here, behind⟩ := List.forall_mem_cons.1 formed
    rcases List.mem_append.1 member with inside | later
    · have least := (bounds_of_mem_fieldPlaces here.fields inside).1
      omega
    · exact (Nat.le_add_right _ _).trans (ih behind later)

end Places

/-! ## Pages that are rewritten -/

/-- What may change in a page: fields, each into a related one. -/
def FieldEdit (related : Field → Field → Prop) (places : List (Nat × Field)) (n : Nat)
    (old new : Text) : Prop :=
  ∃ f g, (n, f) ∈ places ∧ related f g ∧ old = f.core ∧ new = g.core

/-- A field stays as it is or gives way to a related one. -/
def FieldKept (related : Field → Field → Prop) (f g : Field) : Prop := g = f ∨ related f g

/-- A tag has the same parts as another one, but for fields that give way to related ones. -/
def TagKept (related : Field → Field → Prop) (a b : Tag) : Prop :=
  ∃ fields, b = { a with fields } ∧ List.Forall₂ (FieldKept related) a.fields fields

/-- A page has the same parts as another one, but for fields that give way to related ones. -/
def PageKept (related : Field → Field → Prop) (p q : Page) : Prop :=
  q.head = p.head ∧ List.Forall₂ (TagKept related) p.tags q.tags

section Pages

variable {related : Field → Field → Prop} {places : List (Nat × Field)}

/-! From a field to the page around it: each part is rewritten up to its end, and the rewriting goes
on behind it. -/

theorem exists_field_of_rewrites (lead : ∀ f g, related f g → g.lead = f.lead) {f : Field}
    (formed : f.WellFormed)
    (only : ∀ m g, n ≤ m → m < n + f.text.length → (m, g) ∈ places →
      m = n + f.lead.length ∧ g = f)
    (rewrites : Rewrites (FieldEdit related places) n (f.text ++ rest) out) :
    ∃ g behind, FieldKept related f g ∧ out = g.text ++ behind ∧
      Rewrites (FieldEdit related places) (n + f.text.length) rest behind := by
  have nonempty := Field.core_ne_nil formed
  have long := List.length_pos_iff.2 nonempty
  rw [Field.text, List.length_append] at only
  rw [Field.text, List.append_assoc] at rewrites
  obtain ⟨afterLead, rfl, fromCore⟩ := rewrites.kept fun m old new least most changes => by
    obtain ⟨g, -, member, -⟩ := changes
    have same := (only m g least (by omega) member).1
    omega
  obtain ⟨core, behind, kept, rfl, fromNext⟩ :=
    fromCore.stretch nonempty fun m old new least most changes => by
      obtain ⟨g, -, member, -, spelled, -⟩ := changes
      obtain ⟨same, rfl⟩ := only m g (by omega) (by omega) member
      exact ⟨same, spelled⟩
  rw [Field.text, List.length_append, ← Nat.add_assoc]
  rcases kept with rfl | ⟨g, h, member, edited, -, rfl⟩
  · exact ⟨f, behind, .inl rfl, by rw [Field.text, List.append_assoc], fromNext⟩
  · obtain ⟨-, rfl⟩ := only _ g (Nat.le_add_right _ _) (by omega) member
    exact ⟨h, behind, .inr edited, by rw [Field.text, lead g h edited, List.append_assoc], fromNext⟩

theorem exists_fields_of_rewrites (lead : ∀ f g, related f g → g.lead = f.lead) {fs : List Field}
    (formed : ∀ f ∈ fs, f.WellFormed)
    (listed : ∀ m f, n ≤ m → m < n + (fs.flatMap Field.text).length → (m, f) ∈ places →
      (m, f) ∈ fieldPlaces n fs)
    (rewrites : Rewrites (FieldEdit related places) n (fs.flatMap Field.text ++ rest) out) :
    ∃ gs behind, List.Forall₂ (FieldKept related) fs gs ∧ out = gs.flatMap Field.text ++ behind ∧
      Rewrites (FieldEdit related places) (n + (fs.flatMap Field.text).length) rest behind := by
  induction fs generalizing n out with
  | nil => exact ⟨[], out, .nil, rfl, rewrites⟩
  | cons f fs ih =>
    obtain ⟨formedHere, formedBehind⟩ := List.forall_mem_cons.1 formed
    have long := List.length_pos_iff.2 (Field.core_ne_nil formedHere)
    have width : f.text.length = f.lead.length + f.core.length := List.length_append
    rw [List.flatMap_cons, List.length_append] at listed ⊢
    rw [List.flatMap_cons, List.append_assoc] at rewrites
    obtain ⟨g, fromNext, kept, rfl, goesOn⟩ :=
      exists_field_of_rewrites lead formedHere (fun m g least most member => by
        rcases List.mem_cons.1 (listed m g least (by omega) member) with same | later
        · cases same
          exact ⟨rfl, rfl⟩
        · have := (bounds_of_mem_fieldPlaces formedBehind later).1
          omega) rewrites
    obtain ⟨gs, behind, others, rfl, fromEnd⟩ := ih formedBehind (fun m g least most member => by
      rcases List.mem_cons.1 (listed m g (by omega) (by omega) member) with same | later
      · cases same
        omega
      · exact later) goesOn
    rw [Nat.add_assoc] at fromEnd
    exact ⟨g :: gs, behind, .cons kept others, by rw [List.flatMap_cons, List.append_assoc], fromEnd⟩

theorem exists_tag_of_rewrites (lead : ∀ f g, related f g → g.lead = f.lead) {t : Tag}
    (formed : t.WellFormed)
    (listed : ∀ m f, n ≤ m → m < n + t.text.length → (m, f) ∈ places →
      (m, f) ∈ fieldPlaces (n + (t.name.length + 1)) t.fields)
    (rewrites : Rewrites (FieldEdit related places) n (t.text ++ rest) out) :
    ∃ u behind, TagKept related t u ∧ out = u.text ++ behind ∧
      Rewrites (FieldEdit related places) (n + t.text.length) rest behind := by
  have parts : t.text ++ rest = (CodePoint.ofChar '<' :: t.name) ++ (t.fields.flatMap Field.text ++
      ((t.gap ++ t.close ++ t.behind) ++ rest)) := by
    simp [Tag.text]
  have size : t.text.length = t.name.length + 1 + (t.fields.flatMap Field.text).length +
      (t.gap ++ t.close ++ t.behind).length := by
    simp only [Tag.text, List.length_append, List.length_cons]
    omega
  -- Only the fields may change, so the name is kept, and what stands behind the fields.
  have bounds : ∀ m f, n ≤ m → m < n + t.text.length → (m, f) ∈ places →
      n + (t.name.length + 1) ≤ m ∧
        m < n + (t.name.length + 1) + (t.fields.flatMap Field.text).length :=
    fun m f least most member =>
      bounds_of_mem_fieldPlaces formed.fields (listed m f least most member)
  rw [parts] at rewrites
  obtain ⟨afterName, rfl, fromFields⟩ := rewrites.kept fun m old new least most changes => by
    obtain ⟨f, -, member, -⟩ := changes
    rw [List.length_cons] at most
    have := bounds m f least (by omega) member
    omega
  rw [List.length_cons] at fromFields
  obtain ⟨fields, afterFields, kept, rfl, fromGap⟩ :=
    exists_fields_of_rewrites lead formed.fields
      (fun m f least most member => listed m f (by omega) (by omega) member) fromFields
  obtain ⟨behind, rfl, fromNext⟩ := fromGap.kept fun m old new least most changes => by
    obtain ⟨f, -, member, -⟩ := changes
    have := bounds m f (by omega) (by omega) member
    omega
  refine ⟨{ t with fields }, behind, ⟨fields, rfl, kept⟩, by simp [Tag.text, Tag.close], ?_⟩
  rwa [size, ← Nat.add_assoc, ← Nat.add_assoc]

theorem exists_tags_of_rewrites (lead : ∀ f g, related f g → g.lead = f.lead) {tags : List Tag}
    (formed : ∀ t ∈ tags, t.WellFormed)
    (listed : ∀ m f, n ≤ m → (m, f) ∈ places → (m, f) ∈ tagPlaces n tags)
    (rewrites : Rewrites (FieldEdit related places) n (tags.flatMap Tag.text) out) :
    ∃ others, List.Forall₂ (TagKept related) tags others ∧ out = others.flatMap Tag.text := by
  induction tags generalizing n out with
  | nil =>
    refine ⟨[], .nil, ?_⟩
    generalize nothing : [].flatMap Tag.text = t at rewrites
    cases rewrites with
    | nil => rfl
    | keep c _ => cases nothing
    | change here _ =>
      obtain ⟨f, -, member, -⟩ := here
      cases listed n f (Nat.le_refl n) member
  | cons t tags ih =>
    obtain ⟨formedHere, formedBehind⟩ := List.forall_mem_cons.1 formed
    have size : t.name.length + 1 + (t.fields.flatMap Field.text).length ≤ t.text.length := by
      simp only [Tag.text, List.length_append, List.length_cons]
      omega
    rw [List.flatMap_cons] at rewrites
    obtain ⟨u, fromNext, kept, rfl, goesOn⟩ :=
      exists_tag_of_rewrites lead formedHere (fun m f least most member => by
        rcases List.mem_append.1 (listed m f least member) with inside | later
        · exact inside
        · have := le_of_mem_tagPlaces formedBehind later
          omega) rewrites
    obtain ⟨others, keptBehind, rfl⟩ := ih formedBehind (fun m f least member => by
      rcases List.mem_append.1 (listed m f (by omega) member) with inside | later
      · have := (bounds_of_mem_fieldPlaces formedHere.fields inside).2
        omega
      · exact later) goesOn
    exact ⟨u :: others, .cons kept keptBehind, rfl⟩

/-- A page that is rewritten at fields is a page of the same tags. -/
theorem exists_page_of_rewrites (lead : ∀ f g, related f g → g.lead = f.lead) {p : Page}
    (formed : p.WellFormed) (rewrites : Rewrites (FieldEdit related p.places) 0 p.text out) :
    ∃ q : Page, PageKept related p q ∧ out = q.text := by
  obtain ⟨behind, rfl, fromTags⟩ := rewrites.kept fun m old new _ most changes => by
    obtain ⟨f, -, member, -⟩ := changes
    have least := le_of_mem_tagPlaces formed.tags member
    omega
  rw [Nat.zero_add] at fromTags
  obtain ⟨tags, kept, rfl⟩ := exists_tags_of_rewrites lead formed.tags
    (fun _ _ _ member => member) fromTags
  exact ⟨⟨p.head, tags⟩, ⟨rfl, kept⟩, rfl⟩

end Pages

end Arabize.Markup
