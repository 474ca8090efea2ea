import Arabize.Proofs.Phrase.Encoding
import Arabize.Proofs.Script.Splice
import Arabize.Proofs.Script.Visits

/-! # Editing the literals of a program

A template may hold other literals in its substitutions, and then its stretch overlaps
theirs.  Yet no two stretches that are replaced overlap: such a template spells a text with
an interpolation mark, which looks like code, and is therefore never translated.

So the literals are edited exactly (`editLiterals_exact`): the new source is the old one
with every candidate whose text changes spelled anew, and every other byte kept.
-/

namespace Arabize.Script

open Node (Below Inside)
open Utf8 (Boundary Encodable encodable_append encodable_cons)
open Literal (interpolation)

/-! ## Trees over a source -/

/-- A syntax tree over the bytes of a text: it is well nested, and the literals and names in
    it begin and end between code points. -/
structure Covers (content : Text) (root : Node) : Prop where
  nested : root.WellNested
  within : root.stop ≤ Utf8.size content
  aligned : Aligned content root

instance (content : Text) (root : Node) : Decidable (Covers content root) :=
  decidable_of_iff (root.WellNested ∧ root.stop ≤ Utf8.size content ∧
      ∀ n ∈ root.nodes, isLiteral n = true ∨ n.kind = .name →
        Boundary content n.start ∧ Boundary content n.stop)
    ⟨fun ⟨nested, within, aligned⟩ =>
      ⟨nested, within, fun n inside => aligned n (Node.mem_nodes.2 inside)⟩,
    fun covers => ⟨covers.nested, covers.within,
      fun n member => covers.aligned n (Node.mem_nodes.1 member)⟩⟩

/-- Templates that hold another literal have an interpolation mark in their body. -/
def Marked (source : Bytes) (root : Node) : Prop :=
  ∀ n, Inside n root → n.kind = .template → (∃ m, Below m n ∧ isLiteral m = true) →
    ∀ raw, textBetween source n.start n.stop = .ok raw → interpolation <:+: body raw

variable {content : Text} {source : Bytes} {root : Node}

/-! ## Respellings -/

/-- The splices of the candidates whose text changes, each spelled anew in its quotes. -/
def respellings (spell : Text → Text) (cs : List Candidate) : List Splice :=
  (cs.filter fun c => spell c.text != c.text).map fun c =>
    ⟨c.start, c.stop, Utf8.encodeLoose (c.encode (spell c.text))⟩

theorem respellings_cons (spell : Text → Text) (c : Candidate) (cs : List Candidate) :
    respellings spell (c :: cs) =
      (if spell c.text = c.text then []
        else [⟨c.start, c.stop, Utf8.encodeLoose (c.encode (spell c.text))⟩]) ++
        respellings spell cs := by
  by_cases same : spell c.text = c.text <;> simp [respellings, same]

theorem mem_respellings {spell : Text → Text} {cs : List Candidate} {p : Splice} :
    p ∈ respellings spell cs ↔ ∃ c ∈ cs, spell c.text ≠ c.text ∧
      p = ⟨c.start, c.stop, Utf8.encodeLoose (c.encode (spell c.text))⟩ := by
  simp only [respellings, List.mem_map, List.mem_filter, bne_iff_ne, and_assoc]
  simp only [eq_comm]

/-- The splices of a program are those of the candidates that change, if their new spellings
    can be encoded. -/
theorem splicesAt_of_listed {spell : Text → Text} {sites : List Site} {cs : List Candidate}
    (blank : ∀ t, Text.isBlank t = true → spell t = t)
    (listed : candidatesAt source sites = .ok cs)
    (encodable : ∀ c ∈ cs, Encodable (c.encode (spell c.text))) :
    splicesAt spell source sites = .ok (respellings spell cs) := by
  induction sites generalizing cs with
  | nil =>
    cases listed
    rfl
  | cons s rest ih =>
    rcases candidatesAt_cons listed with ⟨here, later⟩ | ⟨c, behind, here, later, rfl⟩
    · simp only [splicesAt, here]
      exact ih later encodable
    · have spliced : spliceOf spell c = .ok (if spell c.text = c.text then []
          else [⟨c.start, c.stop, Utf8.encodeLoose (c.encode (spell c.text))⟩]) := by
        unfold spliceOf
        by_cases same : spell c.text = c.text
        · rw [if_pos (.inr same), if_pos same]
        -- A blank text is its own answer, so this one is visited.
        · have visible : ¬ Text.isBlank c.text = true := fun empty => same (blank _ empty)
          rw [if_neg (not_or.2 ⟨visible, same⟩), if_neg same, encodeText,
            Utf8.encode_of_encodable (encodable c List.mem_cons_self)]
          rfl
      simp only [splicesAt, here, spliced]
      rw [ih later fun e member => encodable e (List.mem_cons_of_mem _ member),
        respellings_cons]
      rfl

variable {d : Lexicon} {memory : Phrase.Memory}

/-! ## Stretches -/

/-- A template with an interpolation mark in its body stays as it is. -/
theorem answer_of_marked {c : Candidate} {rest : Text}
    (read : bodyText c.kind (body (c.quote :: rest)) = .ok c.text)
    (held : interpolation <:+: body (c.quote :: rest)) : Phrase.answer d c.text = c.text := by
  have known : interpolation ∈ Phrase.codeFragments := List.mem_cons_self
  apply Phrase.answer_of_codeFragment known
  rcases bodyText_eq_ok read with ⟨_, taken⟩ | ⟨_, decoded⟩
  · rw [taken]
    exact held
  · exact Literal.interpolation_infix_decode decoded held

/-- Candidates that change do not overlap, and come in the order of their stretches. -/
theorem respellings_apart {cs : List Candidate} (nested : root.WellNested)
    (marked : Marked source root) (listed : candidates source root = .ok cs) :
    (respellings (Phrase.answer d) cs).Pairwise fun a b => a.stop ≤ b.start := by
  have apart : cs.Pairwise fun a b => a.stop ≤ b.start ∨ Phrase.answer d a.text = a.text := by
    -- Sites that overlap are a template and a literal in it, and the template is marked.
    refine candidatesAt_pairwise listed (literalSites_apart nested) fun s isSite t isSiteToo a b
      first second between => ?_
    obtain ⟨startFirst, stopFirst, _, rest, _, spelled, read⟩ := candidate?_eq_some first
    obtain ⟨startSecond, _⟩ := candidate?_eq_some second
    rw [stopFirst, startSecond]
    refine between.imp_right fun ⟨template, below⟩ => ?_
    rw [startFirst, stopFirst] at spelled
    exact answer_of_marked read (marked s.node (mem_literalSites isSite).2.1 template
      ⟨t.node, below, (mem_literalSites isSiteToo).1⟩ _ spelled)
  rw [respellings, List.pairwise_map, List.pairwise_filter]
  refine apart.imp fun either changes _ => ?_
  exact either.resolve_right (bne_iff_ne.1 changes)

theorem stretch_candidate (encoded : Utf8.encode content = .ok source)
    (covers : Covers content root) {s : Site} (isSite : s ∈ literalSites root) {c : Candidate}
    (found : candidate? source s = .ok (some c)) :
    Boundary content c.start ∧ Boundary content c.stop ∧ c.start < c.stop ∧
      c.stop ≤ source.length := by
  obtain ⟨literal, inside, _⟩ := mem_literalSites isSite
  obtain ⟨start, stop, _, rest, _, spelled, _⟩ := candidate?_eq_some found
  obtain ⟨fromStart, toStop⟩ := covers.aligned s.node inside (.inl literal)
  obtain ⟨_, right, _⟩ := inside.within covers.nested
  obtain ⟨_, rfl⟩ := Utf8.encode_eq_ok_iff.1 encoded
  rw [start, stop] at spelled ⊢
  have fits := Nat.le_trans right covers.within
  refine ⟨fromStart, toStop, ?_, by rwa [Utf8.length_encodeLoose]⟩
  -- An empty stretch spells nothing, yet this one spells a quote.
  refine Nat.lt_of_not_le fun empty => ?_
  rw [textBetween, bytesBetween, Nat.sub_eq_zero_of_le empty, List.take_zero] at spelled
  cases spelled

/-- What is replaced stands in the source, begins and ends between code points, and is not
    empty. -/
theorem stretch_respelling (encoded : Utf8.encode content = .ok source)
    (covers : Covers content root) {spell : Text → Text} {cs : List Candidate}
    (listed : candidates source root = .ok cs) {p : Splice} (member : p ∈ respellings spell cs) :
    Boundary content p.start ∧ Boundary content p.stop ∧ p.start < p.stop ∧
      p.stop ≤ source.length := by
  obtain ⟨c, isCandidate, _, rfl⟩ := mem_respellings.1 member
  obtain ⟨s, isSite, found⟩ := mem_candidatesAt listed isCandidate
  exact stretch_candidate encoded covers isSite found

theorem unmarked_respelling {cs : List Candidate} (listed : candidates source root = .ok cs)
    {p : Splice} (member : p ∈ respellings (Phrase.answer d) cs) {raw : Text}
    (spelled : textBetween source p.start p.stop = .ok raw) :
    ¬ interpolation <:+: body raw := by
  intro held
  obtain ⟨c, isCandidate, changes, rfl⟩ := mem_respellings.1 member
  obtain ⟨s, _, found⟩ := mem_candidatesAt listed isCandidate
  obtain ⟨_, _, _, rest, _, same, read⟩ := candidate?_eq_some found
  rw [spelled, Except.ok.injEq] at same
  subst same
  exact changes (answer_of_marked read held)

theorem inRow_respellings (encoded : Utf8.encode content = .ok source)
    (covers : Covers content root) (marked : Marked source root) {cs : List Candidate}
    (listed : candidates source root = .ok cs) :
    InRow source 0 (patches (respellings (Phrase.answer d) cs)) := by
  have apart := respellings_apart (d := d) covers.nested marked listed
  refine inRow_of_pairwise (Nat.zero_le _) (fun _ _ => Nat.zero_le _) (fun p member => ?_)
    (List.pairwise_map.2 apart)
  obtain ⟨q, isSplice, rfl⟩ := List.mem_map.1 member
  exact (stretch_respelling encoded covers listed isSplice).2.2

/-- A source of encoded text stays one if what is put in between code points is encoded text. -/
theorem weave_encoded (encoded : Utf8.encode content = .ok source) {n : Nat}
    {ps : List (Patch UInt8)} (start : Boundary content n) (row : InRow source n ps)
    (bounds : ∀ p ∈ ps, Boundary content p.start ∧ Boundary content p.stop)
    (written : ∀ p ∈ ps, ∃ t, Encodable t ∧ p.new = Utf8.encodeLoose t) :
    ∃ text, Utf8.encode text = .ok (weave source n ps) := by
  induction ps generalizing n with
  | nil =>
    obtain ⟨encodable, rfl⟩ := Utf8.encode_eq_ok_iff.1 encoded
    obtain ⟨before, after, rfl, rfl⟩ := start
    refine ⟨after, Utf8.encode_eq_ok_iff.2 ⟨(encodable_append.1 encodable).2, ?_⟩⟩
    rw [weave, Utf8.encodeLoose_append, List.drop_left' (Utf8.length_encodeLoose before)]
  | cons p rest ih =>
    obtain ⟨before, _, behind⟩ := row
    obtain ⟨atStart, atStop⟩ := bounds p List.mem_cons_self
    obtain ⟨new, encodableNew, bytes⟩ := written p List.mem_cons_self
    -- Between two stretches stands a part of the old text.
    obtain ⟨between, _, encodableBetween, kept⟩ :=
      textBetween_of_boundary encoded start atStart
    obtain ⟨text, woven⟩ := ih atStop behind
      (fun q member => bounds q (List.mem_cons_of_mem _ member))
      (fun q member => written q (List.mem_cons_of_mem _ member))
    obtain ⟨encodableText, further⟩ := Utf8.encode_eq_ok_iff.1 woven
    refine ⟨between ++ new ++ text, Utf8.encode_eq_ok_iff.2 ⟨?_, ?_⟩⟩
    · exact encodable_append.2
        ⟨encodable_append.2 ⟨encodableBetween, encodableNew⟩, encodableText⟩
    · rw [weave, bytes, further, Utf8.encodeLoose_append, Utf8.encodeLoose_append, kept]
      rfl

/-! ## The edit -/

/-- The literals of a program are edited exactly.  The stretches that are replaced follow one
    another without overlap, none of them has an interpolation mark in its body, and the new
    source is the old one with each of them spelled anew and every other byte kept. -/
theorem editLiterals_exact (encoded : Utf8.encode content = .ok source)
    (covers : Covers content root) (marked : Marked source root)
    (small : ∀ s ∈ literalSites root, ∀ e, candidate? source s ≠ .error (.numberTooLarge e))
    (values : d.Encodable) (reachable : Phrase.Reachable d memory) :
    ∃ cs splices after text,
      candidates source root = .ok cs ∧
      splices = respellings (fun t => (Phrase.translate d t memory).1) cs ∧
      visitSites (Phrase.translate d) source (literalSites root) memory = (.ok splices, after) ∧
      splices.Pairwise (fun a b => a.stop ≤ b.start) ∧
      (∀ p ∈ splices, p.start < p.stop ∧ p.stop ≤ source.length ∧
        ∀ raw, textBetween source p.start p.stop = .ok raw → ¬ interpolation <:+: body raw) ∧
      editLiterals (Phrase.translate d) source root memory = (.ok text, after) ∧
      Utf8.encode text = .ok (weave source 0 (patches splices)) := by
  have sound := reachable.sound
  obtain ⟨cs, listed⟩ := candidatesAt_ok fun s isSite =>
    candidate?_ok encoded covers.aligned isSite (small s isSite)
  have written : ∀ c ∈ cs, Encodable (c.encode (Phrase.answer d c.text)) := by
    intro c member
    obtain ⟨s, isSite, found⟩ := mem_candidatesAt listed member
    obtain ⟨text, quote⟩ := encodable_candidate encoded covers.aligned isSite found
    exact encodable_encode quote (Phrase.encodable_answer values text)
  obtain ⟨after, _, visited⟩ := visitSites_answers (Phrase.translate_answers d) source
    (literalSites root) sound
  rw [splicesAt_of_listed (fun _ => Phrase.answer_of_isBlank) listed written] at visited
  -- The splices stand in row, so the new source is woven in one go from the front; it has an
  -- encoding because each stretch of it has one.
  have row := inRow_respellings (d := d) encoded covers marked listed
  obtain ⟨text, woven⟩ : ∃ text, Utf8.encode text =
      .ok (weave source 0 (patches (respellings (Phrase.answer d) cs))) := by
    refine weave_encoded encoded (Boundary.zero content) row (fun p member => ?_)
      (fun p member => ?_)
    · obtain ⟨q, isSplice, rfl⟩ := List.mem_map.1 member
      obtain ⟨start, stop, _⟩ := stretch_respelling encoded covers listed isSplice
      exact ⟨start, stop⟩
    · obtain ⟨q, isSplice, rfl⟩ := List.mem_map.1 member
      obtain ⟨c, isCandidate, _, rfl⟩ := mem_respellings.1 isSplice
      exact ⟨_, written c isCandidate, rfl⟩
  obtain ⟨encodable, bytes⟩ := Utf8.encode_eq_ok_iff.1 woven
  rw [Phrase.fst_translate sound]
  refine ⟨cs, _, after, text, listed, rfl, visited, respellings_apart covers.nested marked listed,
    fun p member => ?_, ?_, woven⟩
  · obtain ⟨_, _, filled, fits⟩ := stretch_respelling encoded covers listed member
    exact ⟨filled, fits, fun raw spelled => unmarked_respelling listed member spelled⟩
  · rw [editLiterals, bind_of_ok visited, run_return, applySplices_eq_weave row, bytes,
      Utf8.decode_encodeLoose encodable]

/-! ## A template that holds a string -/

/-- A template with a string in it. -/
def nestedText : Text := "`$\x7b'Home'\x7d`"

/-- The tree of the template. -/
def nestedTree : Node := Node.branch .other 0 11 [.branch .template 0 11 [.leaf .string 3 9]]

/-- A lexicon that knows the string. -/
def homeLexicon : Lexicon := [("Home", "X")]

theorem answer_home : Phrase.answer homeLexicon "Home" = "X" := by
  rw [Phrase.answer_of_isSafe (by decide)]
  cbv

theorem literalSites_nestedTree : literalSites nestedTree =
    [⟨some nestedTree, .branch .template 0 11 [.leaf .string 3 9]⟩,
      ⟨some (.branch .template 0 11 [.leaf .string 3 9]), .leaf .string 3 9⟩] := by
  simp [literalSites, sitesOf_cons, sitesOf_nil, sitesBelow, siteHere, isLiteral, nestedTree,
    Node.branch, Node.leaf, Node.kind, Node.children]

theorem candidates_nestedTree : candidates (Utf8.encodeLoose nestedText) nestedTree =
    .ok [⟨"$\x7b'Home'\x7d", .literal, 0, 11, '`', []⟩, ⟨"Home", .literal, 3, 9, '\'', []⟩] := by
  rw [candidates, literalSites_nestedTree]
  cbv

/-- The template as a whole is no text for people, so only the string is spelled anew. -/
theorem respellings_nestedTree : respellings (Phrase.answer homeLexicon)
    [⟨"$\x7b'Home'\x7d", .literal, 0, 11, '`', []⟩, ⟨"Home", .literal, 3, 9, '\'', []⟩] =
      [⟨3, 9, Utf8.encodeLoose "'X'"⟩] := by
  have template : Phrase.answer homeLexicon "$\x7b'Home'\x7d" = "$\x7b'Home'\x7d" :=
    Phrase.answer_of_not_isSafe (by decide)
  rw [respellings_cons, respellings_cons, template, answer_home]
  rfl

theorem weave_nestedText : weave (Utf8.encodeLoose nestedText) 0
    (patches [⟨3, 9, Utf8.encodeLoose "'X'"⟩]) = Utf8.encodeLoose "`$\x7b'X'\x7d`" := by
  cbv

/-- The string is replaced, the template around it stays. -/
theorem editLiterals_exact_nested :
    let source := Utf8.encodeLoose nestedText
    let memory := (Phrase.translate homeLexicon "Home" []).2
    Utf8.encode nestedText = .ok source ∧ Covers nestedText nestedTree ∧
    Marked source nestedTree ∧
    (∀ s ∈ literalSites nestedTree, ∀ e, candidate? source s ≠ .error (.numberTooLarge e)) ∧
    homeLexicon.Encodable ∧ Phrase.Reachable homeLexicon memory ∧
    candidates source nestedTree = .ok [⟨"$\x7b'Home'\x7d", .literal, 0, 11, '`', []⟩,
      ⟨"Home", .literal, 3, 9, '\'', []⟩] ∧
    ∃ after, visitSites (Phrase.translate homeLexicon) source (literalSites nestedTree) memory =
        (.ok [⟨3, 9, Utf8.encodeLoose "'X'"⟩], after) ∧
      editLiterals (Phrase.translate homeLexicon) source nestedTree memory =
        (.ok "`$\x7b'X'\x7d`", after) := by
  intro source memory
  have encoded : Utf8.encode nestedText = .ok source :=
    Utf8.encode_of_encodable (by decide)
  have covers : Covers nestedText nestedTree := by decide
  have marked : Marked source nestedTree := by
    have held : ∀ n ∈ nestedTree.nodes, n.kind = .template →
        (match textBetween source n.start n.stop with
          | .ok raw => Text.occursIn interpolation (body raw)
          | .error _ => true) = true := by decide
    intro n inside template _ raw spelled
    have here := held n (Node.mem_nodes.2 inside) template
    rw [spelled] at here
    exact (Text.occursIn_iff _ _).1 here
  have small : ∀ s ∈ literalSites nestedTree, ∀ e,
      candidate? source s ≠ .error (.numberTooLarge e) := by
    intro s isSite e failed
    obtain ⟨found, read⟩ := candidate?_of_listed candidates_nestedTree isSite
    rw [failed] at read
    cases read
  have values : homeLexicon.Encodable := by decide
  have reachable : Phrase.Reachable homeLexicon memory := .visit _ .empty
  obtain ⟨cs, splices, after, text, listed, spelled, visited, _, _, edited, written⟩ :=
    editLiterals_exact encoded covers marked small values reachable
  rw [candidates_nestedTree] at listed
  cases listed
  rw [Phrase.fst_translate reachable.sound, respellings_nestedTree] at spelled
  subst spelled
  obtain ⟨encodable, bytes⟩ := Utf8.encode_eq_ok_iff.1 written
  rw [weave_nestedText] at bytes
  obtain rfl : text = "`$\x7b'X'\x7d`" := by
    have decoded := Utf8.decode_encodeLoose encodable
    rw [← bytes, Utf8.decode_encodeLoose (Utf8.encodable_ofString _)] at decoded
    cases decoded
    rfl
  exact ⟨encoded, covers, marked, small, values, reachable, candidates_nestedTree, after, visited,
    edited⟩

end Arabize.Script
