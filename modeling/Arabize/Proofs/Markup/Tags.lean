import Arabize.Markup.Attribute

/-! # Pages made of tags

A page is a text and tags, each with the text behind it.  A tag has fields: attributes with a value
in quotes, with a bare value or without a value.  The parts of a page are kept with all the blanks
and signs between them, so that they spell the page: a field ends where the next one begins
(`LastEnds.head`).
-/

namespace Arabize.Markup

/-! ## Fields -/

/-- An equals sign with the blanks around it. -/
structure Sign where
  before : Text
  after : Text
  deriving DecidableEq

inductive Value
  | bare (t : Text)
  | quoted (mark : CodePoint) (t : Text)
  deriving DecidableEq

structure Assigned where
  sign : Sign
  value : Value
  deriving DecidableEq

/-- An attribute as it stands in a tag, with the blanks before it. -/
structure Field where
  lead : Text
  name : Text
  assigned : Option Assigned
  deriving DecidableEq

def Sign.text (s : Sign) : Text := s.before ++ CodePoint.ofChar '=' :: s.after

def Value.text : Value → Text
  | .bare t => t
  | .quoted mark t => mark :: t ++ [mark]

def Assigned.text (a : Assigned) : Text := a.sign.text ++ a.value.text

/-- A field without the blanks before it. -/
def Field.core (f : Field) : Text := f.name ++ f.assigned.elim [] Assigned.text

def Field.text (f : Field) : Text := f.lead ++ f.core

def isQuote (c : CodePoint) : Bool := c == CodePoint.ofChar '"' || c == CodePoint.ofChar '\''

/-- Whether a code point can stand in a value without quotes. -/
def isBareChar (c : CodePoint) : Bool := !(c.isBlank || isQuote c || c == CodePoint.ofChar '>')

/-- Whether a code point can stand in the name of a field. -/
def isFieldChar (c : CodePoint) : Bool :=
  isBareChar c && c != CodePoint.ofChar '<' && c != CodePoint.ofChar '/' &&
    c != CodePoint.ofChar '='

def Value.WellFormed : Value → Prop
  | .bare t => t ≠ [] ∧ t.all isBareChar = true
  | .quoted mark t => isQuote mark = true ∧ mark ∉ t

structure Assigned.WellFormed (a : Assigned) : Prop where
  before : Text.isBlank a.sign.before = true
  after : Text.isBlank a.sign.after = true
  value : a.value.WellFormed

structure Field.WellFormed (f : Field) : Prop where
  lead : f.lead ≠ [] ∧ Text.isBlank f.lead = true
  name : f.name ≠ [] ∧ f.name.all isFieldChar = true
  assigned : ∀ a ∈ f.assigned, a.WellFormed

instance (x : Value) : Decidable x.WellFormed :=
  match x with
  | .bare _ => inferInstanceAs (Decidable (_ ∧ _))
  | .quoted _ _ => inferInstanceAs (Decidable (_ ∧ _))

instance (a : Assigned) : Decidable a.WellFormed :=
  decidable_of_iff (_ ∧ _ ∧ _) ⟨fun ⟨before, after, value⟩ => ⟨before, after, value⟩,
    fun ⟨before, after, value⟩ => ⟨before, after, value⟩⟩

instance (f : Field) : Decidable f.WellFormed :=
  decidable_of_iff (_ ∧ _ ∧ _) ⟨fun ⟨lead, name, assigned⟩ => ⟨lead, name, assigned⟩,
    fun ⟨lead, name, assigned⟩ => ⟨lead, name, assigned⟩⟩

/-! ## Tags and pages -/

/-- A tag, with the text behind it. -/
structure Tag where
  /-- The name of the tag; that of a closing tag begins with a slash. -/
  name : Text
  fields : List Field
  gap : Text
  /-- Whether a slash stands before the end of the tag. -/
  closed : Bool
  behind : Text
  deriving DecidableEq

structure Page where
  head : Text
  tags : List Tag
  deriving DecidableEq

/-- The end of a tag. -/
def Tag.close (t : Tag) : Text :=
  (if t.closed then [CodePoint.ofChar '/'] else []) ++ [CodePoint.ofChar '>']

def Tag.text (t : Tag) : Text :=
  CodePoint.ofChar '<' :: t.name ++ t.fields.flatMap Field.text ++ t.gap ++ t.close ++ t.behind

def Page.text (p : Page) : Text := p.head ++ p.tags.flatMap Tag.text

/-- Whether the name of a tag can begin with a code point. -/
def isTagInitial (c : CodePoint) : Bool :=
  c.isLowerLetter || c.isUpperLetter || c == CodePoint.ofChar '/' || c == CodePoint.ofChar '!'

/-- Whether a code point can stand in the name of a tag behind the first one. -/
def isTagChar (c : CodePoint) : Bool :=
  !(c.isBlank || c == CodePoint.ofChar '>' || c == CodePoint.ofChar '/')

/-- Whether a text begins with a tag. -/
def startsTag : Text → Bool
  | c :: d :: _ => c == CodePoint.ofChar '<' && isTagInitial d
  | _ => false

/-- Whether no tag begins in a text. -/
def isPlain : Text → Bool
  | [] => true
  | c :: t => !startsTag (c :: t) && isPlain t

def Value.isBare : Value → Bool
  | .bare _ => true
  | .quoted _ _ => false

/-- Whether the value of a field has no quotes, so that what follows it could be part of it. -/
def Field.isOpen (f : Field) : Bool := f.assigned.any fun a => a.value.isBare

structure Tag.WellFormed (t : Tag) : Prop where
  name : t.name.head?.any isTagInitial = true
  tail : t.name.tail.all isTagChar = true
  fields : ∀ f ∈ t.fields, f.WellFormed
  gap : Text.isBlank t.gap = true
  /-- A slash right behind a bare value would be part of it. -/
  apart : t.closed = true → t.gap = [] → ∀ f ∈ t.fields.getLast?, f.isOpen = false
  behind : isPlain t.behind = true

theorem Tag.WellFormed.exists_name {t : Tag} (formed : t.WellFormed) :
    ∃ c tail, t.name = c :: tail ∧ isTagInitial c = true := by
  have name := formed.name
  cases spelled : t.name with
  | nil => simp [spelled] at name
  | cons c tail => exact ⟨c, tail, rfl, by simpa [spelled] using name⟩

structure Page.WellFormed (p : Page) : Prop where
  head : isPlain p.head = true
  tags : ∀ t ∈ p.tags, t.WellFormed

instance (t : Tag) : Decidable t.WellFormed :=
  decidable_of_iff (_ ∧ _ ∧ _ ∧ _ ∧ _ ∧ _)
    ⟨fun ⟨name, tail, fields, gap, apart, behind⟩ => ⟨name, tail, fields, gap, apart, behind⟩,
      fun ⟨name, tail, fields, gap, apart, behind⟩ => ⟨name, tail, fields, gap, apart, behind⟩⟩

instance (p : Page) : Decidable p.WellFormed :=
  decidable_of_iff (_ ∧ _) ⟨fun ⟨head, tags⟩ => ⟨head, tags⟩, fun ⟨head, tags⟩ => ⟨head, tags⟩⟩

/-! ## What a text begins with -/

section Begins

variable {p q : CodePoint → Bool} {t u : Text}

/-- No code point of a class stands at the beginning of a text. -/
def Stops (p : CodePoint → Bool) (t : Text) : Prop := ∀ c ∈ t.head?, p c = false

theorem stops_nil : Stops p [] := by
  rintro c ⟨⟩

theorem stops_cons {c : CodePoint} (other : p c = false) (t : Text) : Stops p (c :: t) := by
  rintro d ⟨⟩
  exact other

theorem stops_append (nonempty : u ≠ []) (all : u.all q = true)
    (apart : ∀ c, q c = true → p c = false) (t : Text) : Stops p (u ++ t) := by
  obtain ⟨c, u, rfl⟩ := List.exists_cons_of_ne_nil nonempty
  rw [List.all_cons, Bool.and_eq_true] at all
  exact stops_cons (apart c all.1) _

end Begins

theorem isBareChar_of_isFieldChar {c : CodePoint} (isChar : isFieldChar c = true) :
    isBareChar c = true := by
  simp only [isFieldChar, Bool.and_eq_true] at isChar
  exact isChar.1.1.1

theorem isBlank_of_isBareChar {c : CodePoint} (isChar : isBareChar c = true) :
    c.isBlank = false := by
  simp only [isBareChar, Bool.not_eq_true', Bool.or_eq_false_iff] at isChar
  exact isChar.1.1

theorem isQuote_of_isBareChar {c : CodePoint} (isChar : isBareChar c = true) :
    isQuote c = false := by
  simp only [isBareChar, Bool.not_eq_true', Bool.or_eq_false_iff] at isChar
  exact isChar.1.2

theorem isBlank_of_isQuote {c : CodePoint} (quote : isQuote c = true) : c.isBlank = false := by
  simp only [isQuote, Bool.or_eq_true, beq_iff_eq] at quote
  rcases quote with rfl | rfl <;> decide

theorem isFieldChar_of_isBlank {c : CodePoint} (blank : c.isBlank = true) :
    isFieldChar c = false := by
  simp [isFieldChar, isBareChar, blank]

theorem isBareChar_of_isBlank {c : CodePoint} (blank : c.isBlank = true) :
    isBareChar c = false := by
  simp [isBareChar, blank]

theorem stripLeft_append {u : Text} (blank : Text.isBlank u = true) {t : Text}
    (visible : Stops CodePoint.isBlank t) : Text.stripLeft (u ++ t) = t := by
  rw [Text.stripLeft, List.dropWhile_append_of_pos (List.all_eq_true.1 blank)]
  cases t with
  | nil => rfl
  | cons c t => exact List.dropWhile_cons_of_neg (by simp [visible c rfl])

theorem stripLeft_sign {sign : Sign} (blank : Text.isBlank sign.before = true) (rest : Text) :
    Text.stripLeft (sign.text ++ rest) = CodePoint.ofChar '=' :: (sign.after ++ rest) := by
  have visible : (CodePoint.ofChar '=').isBlank = false := by decide
  rw [Text.stripLeft, Sign.text, List.append_assoc,
    List.dropWhile_append_of_pos (List.all_eq_true.1 blank), List.cons_append,
    List.dropWhile_cons_of_neg (by simp [visible])]

theorem Value.stops {x : Value} (formed : x.WellFormed) (rest : Text) :
    Stops CodePoint.isBlank (x.text ++ rest) := by
  cases x with
  | bare t => exact stops_append formed.1 formed.2 (fun _ => isBlank_of_isBareChar) rest
  | quoted mark t => exact stops_cons (isBlank_of_isQuote formed.1) _

theorem Value.stops_isQuote {t : Text} (formed : (Value.bare t).WellFormed) (rest : Text) :
    Stops isQuote ((Value.bare t).text ++ rest) :=
  stops_append formed.1 formed.2 (fun _ => isQuote_of_isBareChar) rest

theorem Field.stops_isBlank {f : Field} (formed : f.WellFormed) (rest : Text) :
    Stops CodePoint.isBlank (f.core ++ rest) := by
  rw [Field.core, List.append_assoc]
  exact stops_append formed.name.1 formed.name.2
    (fun _ isChar => isBlank_of_isBareChar (isBareChar_of_isFieldChar isChar)) _

/-! ## What follows a field -/

/-- What can follow a field that has no value, or one that has. -/
structure Field.Ends (f : Field) (rest : Text) : Prop where
  value : f.isOpen = true → Stops isBareChar rest
  name : Stops isFieldChar rest
  sign : Stops (· == CodePoint.ofChar '=') (Text.stripLeft rest)

section Fields

variable {fs : List Field} {s : Text}

/-- The last one of some fields ends where a text begins. -/
def LastEnds (fs : List Field) (rest : Text) : Prop := ∀ f ∈ fs.getLast?, f.Ends rest

/-- What can follow the fields of a tag. -/
structure EndsFields (fs : List Field) (rest : Text) : Prop where
  last : LastEnds fs rest
  other : Stops isFieldChar (Text.stripLeft rest)

theorem LastEnds.tail {f : Field} (ends : LastEnds (f :: fs) s) : LastEnds fs s := by
  refine fun g last => ends g ?_
  rw [List.getLast?_cons, Option.mem_def.1 last]
  rfl

theorem EndsFields.tail {f : Field} (ends : EndsFields (f :: fs) s) : EndsFields fs s :=
  ⟨ends.last.tail, ends.other⟩

theorem stripLeft_field {f : Field} (formed : f.WellFormed) (rest : Text) :
    Text.stripLeft (f.text ++ rest) = f.core ++ rest := by
  rw [Field.text, List.append_assoc, stripLeft_append formed.lead.2 (f.stops_isBlank formed rest)]

/-- A field ends where another one begins. -/
theorem Field.ends_text (f : Field) {g : Field} (formed : g.WellFormed) (rest : Text) :
    f.Ends (g.text ++ rest) := by
  refine ⟨fun _ => ?_, ?_, ?_⟩
  · rw [Field.text, List.append_assoc]
    exact stops_append formed.lead.1 formed.lead.2 (fun _ => isBareChar_of_isBlank) _
  · rw [Field.text, List.append_assoc]
    exact stops_append formed.lead.1 formed.lead.2 (fun _ => isFieldChar_of_isBlank) _
  · rw [stripLeft_field formed, Field.core, List.append_assoc]
    refine stops_append formed.name.1 formed.name.2 (fun c isChar => ?_) _
    simp only [isFieldChar, Bool.and_eq_true, bne_iff_ne] at isChar
    simpa using isChar.2

theorem LastEnds.head {f : Field} (formed : ∀ g ∈ fs, g.WellFormed) (ends : LastEnds (f :: fs) s) :
    f.Ends (fs.flatMap Field.text ++ s) := by
  cases fs with
  | nil => exact ends f rfl
  | cons g gs =>
    rw [List.flatMap_cons, List.append_assoc]
    exact f.ends_text (formed g List.mem_cons_self) _

end Fields

end Arabize.Markup
