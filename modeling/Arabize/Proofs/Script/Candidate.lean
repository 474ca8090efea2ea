import Arabize.Proofs.Script.Literal
import Arabize.Proofs.Script.Nesting
import Arabize.Proofs.Text.Encodable
import Arabize.Script.Edit

/-! # Reading the candidates of a program

Where the literals of a tree begin and end between code points, every one of them can be
read, unless an escape in it gives too large a number.  What is read can be encoded again,
and so can what is written in its place.
-/

namespace Arabize.Script

open Node (Inside)
open Utf8 (Boundary Encodable encodable_append encodable_cons)

/-! ## Trees over a source -/

/-- Whether the literals and the names of a tree begin and end between code points. -/
def Aligned (content : Text) (root : Node) : Prop :=
  ∀ n, Inside n root → isLiteral n = true ∨ n.kind = .name →
    Boundary content n.start ∧ Boundary content n.stop

/-- What a parser promises of the places in its trees. -/
def Parser.IsAligned [Parser] : Prop :=
  ∀ dialect content, Utf8.Encodable content → Aligned content (Parser.parse dialect content)

variable {content : Text} {source : Bytes} {root : Node}

theorem bytesBetween_encodeLoose (before between after : Text) :
    bytesBetween (Utf8.encodeLoose (before ++ between ++ after)) (Utf8.size before)
      (Utf8.size before + Utf8.size between) = Utf8.encodeLoose between := by
  rw [bytesBetween, Nat.add_sub_cancel_left, List.append_assoc, Utf8.encodeLoose_append,
    Utf8.encodeLoose_append, List.drop_left' (Utf8.length_encodeLoose before),
    List.take_left' (Utf8.length_encodeLoose between)]

/-- Between two boundaries stands a part of the text, nothing if they are not in order. -/
theorem textBetween_of_boundary (encoded : Utf8.encode content = .ok source) {m n : Nat}
    (start : Boundary content m) (stop : Boundary content n) :
    ∃ between, textBetween source m n = .ok between ∧ Encodable between ∧
      Utf8.encodeLoose between = bytesBetween source m n := by
  obtain ⟨encodable, rfl⟩ := Utf8.encode_eq_ok_iff.1 encoded
  -- Out of order the offsets have nothing between them.
  by_cases ordered : m ≤ n
  · obtain ⟨before, between, after, rfl, rfl, rfl⟩ := start.split stop ordered
    rw [encodable_append, encodable_append] at encodable
    refine ⟨between, ?_, encodable.1.2, (bytesBetween_encodeLoose _ _ _).symm⟩
    rw [textBetween, bytesBetween_encodeLoose, Utf8.decode_encodeLoose encodable.1.2]
  · have empty : bytesBetween (Utf8.encodeLoose content) m n = [] := by
      rw [bytesBetween, Nat.sub_eq_zero_of_le (by omega), List.take_zero]
    refine ⟨[], ?_, Utf8.encodable_nil, empty.symm⟩
    rw [textBetween, empty]
    rfl

/-! ## Candidates -/

theorem bodyText_eq_ok {kind : CandidateKind} {raw t : Text} (read : bodyText kind raw = .ok t) :
    (kind = .attribute ∧ t = raw) ∨ (kind = .literal ∧ Literal.decode raw = .ok t) := by
  cases kind with
  | «attribute» =>
    rw [bodyText, Except.ok.injEq] at read
    exact .inl ⟨rfl, read.symm⟩
  | literal =>
    simp only [bodyText] at read
    split at read
    next decoded =>
      rw [Except.ok.injEq] at read
      exact .inr ⟨rfl, read ▸ decoded⟩
    next => cases read

/-- Nothing but too large a number keeps a body from being read. -/
theorem bodyText_eq_error {kind : CandidateKind} {raw : Text} {e : LiteralError}
    (failed : bodyText kind raw = .error e) : ∃ n, e = .numberTooLarge n := by
  cases kind with
  | «attribute» => cases failed
  | literal =>
    simp only [bodyText] at failed
    split at failed
    next => cases failed
    next n _ =>
      rw [Except.error.injEq] at failed
      exact ⟨n, failed.symm⟩

theorem candidate?_eq_some {s : Site} {c : Candidate}
    (found : candidate? source s = .ok (some c)) :
    c.start = s.node.start ∧ c.stop = s.node.stop ∧
      (s.node.kind = .template → c.kind = .literal) ∧
      ∃ rest, rest ≠ [] ∧ textBetween source c.start c.stop = .ok (c.quote :: rest) ∧
        bodyText c.kind (body (c.quote :: rest)) = .ok c.text := by
  unfold candidate? at found
  split at found
  next => cases found
  next => cases found
  next kind name role =>
    split at found
    next => cases found
    next => cases found
    next => cases found
    next quote rest notSingle spelled =>
      split at found
      next => cases found
      next t read =>
        cases found
        refine ⟨rfl, rfl, fun template => ?_, rest, ?_, spelled, read⟩
        · simp only [role?, template] at role
          split at role
          all_goals simp_all
          split at role <;> simp_all
        · rintro rfl
          exact notSingle rfl

theorem role?_ok {s : Site} (names : ∀ p, s.parent = some p → ∃ name, nameOf source p = .ok name) :
    ∃ role, role? source s = .ok role := by
  unfold role?
  split
  · exact ⟨_, rfl⟩
  next p _ hangs =>
    obtain ⟨name, named⟩ := names p hangs
    split
    · exact ⟨_, rfl⟩
    · split
      · rw [named]
        dsimp only
        split <;> exact ⟨_, rfl⟩
      · exact ⟨_, rfl⟩
  · exact ⟨_, rfl⟩
  · split <;> exact ⟨_, rfl⟩
  · exact ⟨_, rfl⟩

theorem nameOf_ok (encoded : Utf8.encode content = .ok source) (aligned : Aligned content root)
    {p : Node} (inside : Inside p root) : ∃ name, nameOf source p = .ok name := by
  unfold nameOf
  split
  next c found =>
    have isName : c.kind = .name := by simpa using List.find?_some found
    have deeper : Inside c root := .inr (inside.child_below (List.mem_of_find?_eq_some found))
    obtain ⟨start, stop⟩ := aligned c deeper (.inr isName)
    obtain ⟨name, read, _⟩ := textBetween_of_boundary encoded start stop
    exact ⟨name, read⟩
  next => exact ⟨_, rfl⟩

/-- In an aligned tree a literal is read, unless an escape in it gives too large a number. -/
theorem candidate?_ok (encoded : Utf8.encode content = .ok source) (aligned : Aligned content root)
    {s : Site} (isSite : s ∈ literalSites root)
    (small : ∀ e, candidate? source s ≠ .error (.numberTooLarge e)) :
    ∃ found, candidate? source s = .ok found := by
  obtain ⟨literal, inside, hangs⟩ := mem_literalSites isSite
  obtain ⟨start, stop⟩ := aligned s.node inside (.inl literal)
  obtain ⟨raw, spelled, _⟩ := textBetween_of_boundary encoded start stop
  obtain ⟨role, known⟩ := role?_ok fun p parent => nameOf_ok encoded aligned (hangs p parent)
  -- The role and the text are read, so only the body is left to fail.
  unfold candidate? at small ⊢
  rw [known, spelled] at small ⊢
  split
  next => contradiction
  next => exact ⟨_, rfl⟩
  next kind name same =>
    rw [same] at small
    rcases raw with _ | ⟨quote, _ | ⟨c, rest⟩⟩
    · exact ⟨_, rfl⟩
    · exact ⟨_, rfl⟩
    · dsimp only at small ⊢
      cases read : bodyText kind (body (quote :: c :: rest)) with
      | ok t => exact ⟨_, rfl⟩
      | error e =>
        obtain ⟨n, rfl⟩ := bodyText_eq_error read
        rw [read] at small
        exact absurd rfl (small n)

theorem encodable_candidate (encoded : Utf8.encode content = .ok source)
    (aligned : Aligned content root) {s : Site} (isSite : s ∈ literalSites root) {c : Candidate}
    (found : candidate? source s = .ok (some c)) :
    Encodable c.text ∧ c.quote.isSurrogate = false := by
  obtain ⟨literal, inside, _⟩ := mem_literalSites isSite
  obtain ⟨start, stop⟩ := aligned s.node inside (.inl literal)
  obtain ⟨raw, spelled, encodable, _⟩ := textBetween_of_boundary encoded start stop
  obtain ⟨hereStart, hereStop, _, rest, _, same, read⟩ := candidate?_eq_some found
  rw [hereStart, hereStop, spelled, Except.ok.injEq] at same
  subst same
  refine ⟨?_, (encodable_cons.1 encodable).1⟩
  rcases bodyText_eq_ok read with ⟨_, taken⟩ | ⟨_, decoded⟩
  · rw [taken]
    exact encodable.of_subset fun e member =>
      List.drop_subset 1 _ (List.dropLast_subset _ member)
  · exact Literal.encodable_of_decode decoded

/-! ## Lists of candidates -/

theorem candidatesAt_ok {sites : List Site}
    (each : ∀ s ∈ sites, ∃ found, candidate? source s = .ok found) :
    ∃ cs, candidatesAt source sites = .ok cs := by
  induction sites with
  | nil => exact ⟨[], rfl⟩
  | cons s rest ih =>
    obtain ⟨found, here⟩ := each s List.mem_cons_self
    obtain ⟨cs, behind⟩ := ih fun t member => each t (List.mem_cons_of_mem _ member)
    cases found with
    | none => exact ⟨cs, by simp only [candidatesAt, here, behind]⟩
    | some c => exact ⟨c :: cs, by simp only [candidatesAt, here, behind]⟩

theorem candidatesAt_cons {s : Site} {rest : List Site} {cs : List Candidate}
    (listed : candidatesAt source (s :: rest) = .ok cs) :
    (candidate? source s = .ok none ∧ candidatesAt source rest = .ok cs) ∨
      ∃ c behind, candidate? source s = .ok (some c) ∧ candidatesAt source rest = .ok behind ∧
        cs = c :: behind := by
  simp only [candidatesAt] at listed
  split at listed
  next => cases listed
  next here => exact .inl ⟨here, listed⟩
  next c here =>
    split at listed
    next => cases listed
    next behind later =>
      cases listed
      exact .inr ⟨c, behind, here, later, rfl⟩

theorem mem_candidatesAt {sites : List Site} {cs : List Candidate}
    (listed : candidatesAt source sites = .ok cs) {c : Candidate} (member : c ∈ cs) :
    ∃ s ∈ sites, candidate? source s = .ok (some c) := by
  induction sites generalizing cs with
  | nil =>
    cases listed
    cases member
  | cons s rest ih =>
    rcases candidatesAt_cons listed with ⟨_, later⟩ | ⟨first, behind, here, later, rfl⟩
    · obtain ⟨t, isSite, found⟩ := ih later member
      exact ⟨t, List.mem_cons_of_mem _ isSite, found⟩
    · rcases List.mem_cons.1 member with rfl | inBehind
      · exact ⟨s, List.mem_cons_self, here⟩
      · obtain ⟨t, isSite, found⟩ := ih later inBehind
        exact ⟨t, List.mem_cons_of_mem _ isSite, found⟩

theorem candidate?_of_listed {sites : List Site} {cs : List Candidate}
    (listed : candidatesAt source sites = .ok cs) {s : Site} (isSite : s ∈ sites) :
    ∃ found, candidate? source s = .ok found := by
  induction sites generalizing cs with
  | nil => cases isSite
  | cons first rest ih =>
    rcases candidatesAt_cons listed with ⟨here, later⟩ | ⟨c, behind, here, later, rfl⟩
    all_goals
      rcases List.mem_cons.1 isSite with rfl | inRest
      · exact ⟨_, here⟩
      · exact ih later inRest

theorem candidatesAt_pairwise {R : Site → Site → Prop} {Q : Candidate → Candidate → Prop}
    {sites : List Site} {cs : List Candidate} (listed : candidatesAt source sites = .ok cs)
    (related : sites.Pairwise R)
    (carried : ∀ s ∈ sites, ∀ t ∈ sites, ∀ a b, candidate? source s = .ok (some a) →
      candidate? source t = .ok (some b) → R s t → Q a b) : cs.Pairwise Q := by
  induction sites generalizing cs with
  | nil =>
    cases listed
    exact .nil
  | cons s rest ih =>
    rw [List.pairwise_cons] at related
    -- The relation between the other candidates, whether the first site has one or not.
    have further := fun behind later => @ih behind later related.2 fun t isSite u isSiteToo =>
      carried t (List.mem_cons_of_mem _ isSite) u (List.mem_cons_of_mem _ isSiteToo)
    rcases candidatesAt_cons listed with ⟨_, later⟩ | ⟨first, behind, here, later, rfl⟩
    · exact further cs later
    · refine List.pairwise_cons.2 ⟨fun b member => ?_, further behind later⟩
      obtain ⟨t, isSite, found⟩ := mem_candidatesAt later member
      exact carried s List.mem_cons_self t (List.mem_cons_of_mem _ isSite) first b here found
        (related.1 t isSite)

/-! ## New spellings -/

theorem encodable_substitute {c : CodePoint} {new t : Text} (written : Encodable new)
    (text : Encodable t) : Encodable (Literal.substitute c new t) := by
  intro e member
  obtain ⟨f, inText, here⟩ := List.mem_flatMap.1 member
  split at here
  · exact written e here
  · rw [List.mem_singleton.1 here]
    exact text f inText

theorem encodable_encode {c : Candidate} (quote : c.quote.isSurrogate = false) {t : Text}
    (text : Encodable t) : Encodable (c.encode t) := by
  have single : Encodable [c.quote] := encodable_cons.2 ⟨quote, Utf8.encodable_nil⟩
  unfold Candidate.encode
  split
  · have entity : Encodable (if c.quote = CodePoint.ofChar '"' then Text.ofString "&quot;"
        else Text.ofString "&apos;") := by
      split <;> exact Utf8.encodable_ofString _
    exact encodable_cons.2 ⟨quote, encodable_append.2 ⟨encodable_substitute entity text, single⟩⟩
  · have escaped := encodable_substitute (c := c.quote)
      (encodable_cons.2 ⟨Utf8.isSurrogate_ofChar '\\', single⟩)
      (encodable_substitute (c := CodePoint.ofChar '\\') (Utf8.encodable_ofString "\\\\") text)
    refine encodable_cons.2 ⟨quote, encodable_append.2 ⟨?_, single⟩⟩
    split
    · exact Text.encodable_replaceAllFrom (Utf8.encodable_ofString _) 0 escaped
    · exact encodable_substitute (Utf8.encodable_ofString _)
        (encodable_substitute (Utf8.encodable_ofString _) escaped)

end Arabize.Script
