import Arabize.Proofs.Script.Candidate
import Arabize.Script.Grammar.Reading

/-! # Trees stand between code points

A reading counts bytes, but it takes tokens off the front of the program by code points.
So whatever the grammar makes of a program, all its nodes begin and end between two code
points (`outline_aligned`).

The invariant is carried by the spots: every symbol on every way to a spot is aligned, with
all its nodes.  A token and a production keep it, and so does the merging of readings that
meet.
-/

namespace Arabize.Script.Grammar

open Node (Inside)
open Utf8 (Boundary)

variable {content : Text}

/-! ## Symbols -/

/-- A node all whose tree stands between code points of a text. -/
def NodeAligned (content : Text) (n : Node) : Prop :=
  ∀ m, Inside m n → Boundary content m.start ∧ Boundary content m.stop

/-- A symbol that stands between code points with all its nodes. -/
structure SegmentAligned (content : Text) (s : Segment) : Prop where
  start : Boundary content s.start
  stop : Boundary content s.stop
  nodes : ∀ n ∈ s.nodes, NodeAligned content n

theorem nodeAligned_branch {k : Kind} {start stop : Nat} {parts : List Node}
    (left : Boundary content start) (right : Boundary content stop)
    (aligned : ∀ n ∈ parts, NodeAligned content n) :
    NodeAligned content (Node.branch k start stop parts) := by
  rintro m (rfl | below)
  · exact ⟨left, right⟩
  · obtain ⟨c, isChild, inside⟩ := Node.below_iff.1 below
    exact aligned c isChild m inside

theorem nodesOf_aligned {kind : Option Kind} {start stop : Nat} {parts : List Node}
    (left : Boundary content start) (right : Boundary content stop)
    (aligned : ∀ n ∈ parts, NodeAligned content n) :
    ∀ n ∈ nodesOf kind start stop parts, NodeAligned content n := by
  have branch : ∀ k, NodeAligned content (Node.branch k start stop parts.reverse) := fun k =>
    nodeAligned_branch left right fun n member => aligned n (List.mem_reverse.1 member)
  unfold nodesOf
  split
  · exact aligned
  · split
    · simp
    · simpa using branch .other
  next k _ => simpa using branch k

/-! ## Spots -/

/-- A spot all whose ways consist of aligned symbols. -/
inductive SpotAligned (content : Text) : Spot → Prop
  | mk {s : Spot} : (∀ w ∈ s.ways, SegmentAligned content w.segment) →
      (∀ w ∈ s.ways, SpotAligned content w.before) → SpotAligned content s

/-- A way whose symbols are aligned. -/
def WayAligned (content : Text) (w : Way) : Prop :=
  SegmentAligned content w.segment ∧ SpotAligned content w.before

theorem spotAligned_iff {s : Spot} :
    SpotAligned content s ↔ ∀ w ∈ s.ways, WayAligned content w :=
  ⟨fun ⟨segments, before⟩ w member => ⟨segments w member, before w member⟩,
    fun ways => ⟨fun w member => (ways w member).1, fun w member => (ways w member).2⟩⟩

theorem union_aligned {a b : Spot} (first : SpotAligned content a)
    (second : SpotAligned content b) : SpotAligned content (a.union b) := by
  rw [spotAligned_iff] at *
  intro w member
  rcases List.mem_append.1 member with old | new
  · exact first w old
  · exact second w (List.mem_filter.1 new).1

theorem addWay_aligned {w : Way} {ways : List Way} (new : WayAligned content w)
    (old : ∀ v ∈ ways, WayAligned content v) :
    ∀ v ∈ Spot.addWay w ways, WayAligned content v := by
  induction ways with
  | nil => simpa [Spot.addWay] using new
  | cons v ways ih =>
    obtain ⟨here, behind⟩ := List.forall_mem_cons.1 old
    simp only [Spot.addWay]
    -- A way with the same symbol takes the new spots in, else the new way comes last.
    split
    · exact List.forall_mem_cons.2 ⟨⟨here.1, union_aligned here.2 new.2⟩, behind⟩
    · exact List.forall_mem_cons.2 ⟨here, ih behind⟩

theorem foldl_addWay_aligned {more ways : List Way} (new : ∀ w ∈ more, WayAligned content w)
    (old : ∀ v ∈ ways, WayAligned content v) :
    ∀ v ∈ more.foldl (fun ways w => Spot.addWay w ways) ways, WayAligned content v := by
  induction more generalizing ways with
  | nil => exact old
  | cons w more ih =>
    obtain ⟨here, behind⟩ := List.forall_mem_cons.1 new
    exact ih behind (addWay_aligned here old)

theorem merge_aligned {a b : Spot} (first : SpotAligned content a)
    (second : SpotAligned content b) : SpotAligned content (a.merge b) := by
  rw [spotAligned_iff] at *
  exact foldl_addWay_aligned second first

/-- The symbols that are taken off a spot, and the spot before them. -/
theorem paths_aligned {n : Nat} {s : Spot} (aligned : SpotAligned content s) :
    ∀ path ∈ s.paths n,
      (∀ segment ∈ path.1, SegmentAligned content segment) ∧ SpotAligned content path.2 := by
  induction n generalizing s with
  | zero => simpa [Spot.paths] using aligned
  | succ n ih =>
    intro path member
    simp only [Spot.paths, List.mem_flatMap, List.mem_map] at member
    obtain ⟨w, isWay, ⟨segments, base⟩, isPath, rfl⟩ := member
    obtain ⟨segment, before⟩ := spotAligned_iff.1 aligned w isWay
    obtain ⟨others, rest⟩ := ih before _ isPath
    exact ⟨List.forall_mem_cons.2 ⟨segment, others⟩, rest⟩

/-! ## Readings -/

/-- A reading that has taken a beginning off a text, and whose spot is aligned. -/
structure ReadingAligned (content : Text) (r : Reading) : Prop where
  place : ∃ before, content = before ++ r.rest ∧ r.offset = Utf8.size before
  spot : SpotAligned content r.spot

/-- What becomes of an aligned reading: one, or aligned nodes. -/
def OutcomeAligned (content : Text) : Outcome → Prop
  | .going r => ReadingAligned content r
  | .complete nodes => ∀ n ∈ nodes, NodeAligned content n

theorem ReadingAligned.ahead {r : Reading} (aligned : ReadingAligned content r) (n : Nat) :
    ∃ before, content = before ++ r.rest.drop n ∧
      r.offset + Utf8.size (r.rest.take n) = Utf8.size before := by
  obtain ⟨before, whole, offset⟩ := aligned.place
  refine ⟨before ++ r.rest.take n, ?_, ?_⟩
  · rw [List.append_assoc, List.take_append_drop, whole]
  · rw [offset, Utf8.size_append]

theorem ReadingAligned.boundary {r : Reading} (aligned : ReadingAligned content r) (n : Nat) :
    Boundary content (r.offset + Utf8.size (r.rest.take n)) := by
  obtain ⟨before, whole, offset⟩ := aligned.ahead n
  exact ⟨before, _, whole, offset.symm⟩

theorem ReadingAligned.skip {r : Reading} (aligned : ReadingAligned content r) (n : Nat) :
    ReadingAligned content (r.skip n) :=
  ⟨aligned.ahead n, aligned.spot⟩

theorem join_aligned {r : Reading} {rs : List Reading} (new : ReadingAligned content r)
    (old : ∀ s ∈ rs, ReadingAligned content s) :
    ∀ s ∈ r.join rs, ReadingAligned content s := by
  induction rs with
  | nil => simpa [Reading.join] using new
  | cons s rs ih =>
    obtain ⟨here, behind⟩ := List.forall_mem_cons.1 old
    simp only [Reading.join]
    split
    · exact List.forall_mem_cons.2 ⟨⟨here.place, merge_aligned here.spot new.spot⟩, behind⟩
    · exact List.forall_mem_cons.2 ⟨here, ih behind⟩

namespace Table

variable {t : Table}

theorem shift_aligned {r : Reading} (aligned : ReadingAligned content r) (terminal : Nat)
    (token : Token) : ReadingAligned content (t.shift r terminal token) := by
  have left := aligned.boundary token.lead
  have right := aligned.boundary (token.lead + token.width)
  refine ⟨(aligned.skip _).place, spotAligned_iff.2 ?_⟩
  intro w member
  obtain rfl := List.mem_singleton.1 member
  exact ⟨⟨left, right, nodesOf_aligned left right (by simp)⟩, aligned.spot⟩

theorem reduce_aligned {r : Reading} (aligned : ReadingAligned content r) (p : Production)
    {segments : List Segment} {base : Spot}
    (symbols : ∀ segment ∈ segments, SegmentAligned content segment)
    (before : SpotAligned content base) : OutcomeAligned content (t.reduce r p segments base) := by
  have nodes : ∀ n ∈ segments.flatMap Segment.nodes, NodeAligned content n := by
    intro n member
    obtain ⟨segment, isSymbol, isNode⟩ := List.mem_flatMap.1 member
    exact (symbols segment isSymbol).nodes n isNode
  unfold reduce
  dsimp only
  split
  · exact nodes
  next last others first _ lastOne =>
    have left := (symbols first (List.mem_of_getLast? lastOne)).start
    have right := (symbols last List.mem_cons_self).stop
    refine ⟨aligned.place, spotAligned_iff.2 fun w member => ?_⟩
    obtain rfl := List.mem_singleton.1 member
    exact ⟨⟨left, right, nodesOf_aligned left right nodes⟩, before⟩
  · exact aligned

theorem carry_aligned {terminal : Nat} {token : Token} {fuel : Nat} {r : Reading}
    (aligned : ReadingAligned content r) :
    ∀ o ∈ t.carry terminal token fuel r, OutcomeAligned content o := by
  induction fuel generalizing r with
  | zero => simp [carry]
  | succ fuel ih =>
    intro o member
    simp only [carry, List.mem_append, List.mem_flatMap] at member
    -- The token is shifted, or a production is reduced and its reading carried on.
    rcases member with shifted | ⟨number, _, ⟨segments, base⟩, isPath, reduced⟩
    · split at shifted
      · obtain rfl := List.mem_singleton.1 shifted
        exact shift_aligned aligned terminal token
      · cases shifted
    · obtain ⟨symbols, before⟩ := paths_aligned aligned.spot _ isPath
      have next := reduce_aligned (t := t) aligned (t.productions.getD number default) symbols
        before
      dsimp only at reduced
      split at reduced
      next nodes complete =>
        rw [complete] at next
        obtain rfl := List.mem_singleton.1 reduced
        exact next
      next further going =>
        rw [going] at next
        exact ih next o reduced

theorem step_aligned {fuel : Nat} {r : Reading} (aligned : ReadingAligned content r) :
    ∀ o ∈ t.step fuel r, OutcomeAligned content o := by
  unfold step
  split
  · simp
  · split
    · intro o member
      obtain rfl := List.mem_singleton.1 member
      exact aligned.skip _
    · exact carry_aligned aligned

theorem sortOutcomes_aligned {outcomes : List Outcome} {rs : List Reading}
    (each : ∀ o ∈ outcomes, OutcomeAligned content o)
    (old : ∀ r ∈ rs, ReadingAligned content r) :
    (∀ r ∈ (sortOutcomes outcomes rs).1, ReadingAligned content r) ∧
      ∀ nodes, (sortOutcomes outcomes rs).2 = some nodes →
        ∀ n ∈ nodes, NodeAligned content n := by
  induction outcomes generalizing rs with
  | nil => exact ⟨old, fun _ member => by cases member⟩
  | cons o outcomes ih =>
    obtain ⟨here, behind⟩ := List.forall_mem_cons.1 each
    cases o with
    | going r => exact ih behind (join_aligned here old)
    | complete nodes =>
      refine ⟨old, fun found same => ?_⟩
      cases same
      exact here

theorem carryAll_aligned {fuel rounds : Nat} {rs : List Reading} {nodes : List Node}
    (each : ∀ r ∈ rs, ReadingAligned content r)
    (complete : t.carryAll fuel rounds rs = some nodes) : ∀ n ∈ nodes, NodeAligned content n := by
  induction rounds generalizing rs with
  | zero => cases complete
  | succ rounds ih =>
    cases rs with
    | nil => cases complete
    | cons r rs =>
      simp only [carryAll, List.partition_eq_filter_filter] at complete
      generalize leastOffset rs r.offset = here at complete
      -- The readings at the least offset take a step, the others wait.
      have outcomes : ∀ o ∈ ((r :: rs).filter fun s => s.offset == here).flatMap (t.step fuel),
          OutcomeAligned content o := by
        intro o member
        obtain ⟨s, isNow, stepped⟩ := List.mem_flatMap.1 member
        exact step_aligned (each s (List.mem_filter.1 isNow).1) o stepped
      have old : ∀ s ∈ (r :: rs).filter (not ∘ fun s => s.offset == here),
          ReadingAligned content s := fun s member => each s (List.mem_filter.1 member).1
      obtain ⟨next, found⟩ := sortOutcomes_aligned outcomes old
      split at complete
      next _ nodes' sorted =>
        rw [sorted] at found
        exact found nodes complete
      next going sorted =>
        rw [sorted] at next
        exact ih next complete

theorem read_aligned {nodes : List Node} (complete : t.read content = some nodes) :
    ∀ n ∈ nodes, NodeAligned content n := by
  obtain ⟨reversed, found, rfl⟩ := Option.map_eq_some_iff.1 complete
  have start : ReadingAligned content ⟨.mk t.initialState 0 [], content, 0⟩ :=
    ⟨⟨[], rfl, rfl⟩, spotAligned_iff.2 fun _ member => absurd member List.not_mem_nil⟩
  intro n member
  exact carryAll_aligned (by simpa using start) found n (List.mem_reverse.1 member)

end Table

end Arabize.Script.Grammar

namespace Arabize.Script

/-- Every node of the tree of a source begins and ends between two of its code points. -/
theorem outline_aligned (dialect : Grammar.Dialect) (content : Text) :
    Grammar.NodeAligned content (outline dialect content) := by
  have whole : Utf8.Boundary content (Utf8.size content) := ⟨content, [], by simp, rfl⟩
  unfold outline
  split
  next nodes complete =>
    exact Grammar.nodeAligned_branch (.zero content) whole
      (Grammar.Table.read_aligned complete)
  next =>
    -- What cannot be read is one node with nothing below it.
    rintro m (rfl | below)
    · exact ⟨.zero content, whole⟩
    · obtain ⟨c, isChild, _⟩ := Node.below_iff.1 below
      cases isChild

end Arabize.Script

namespace Arabize.Installed

/-- The parser of this library keeps what a parser promises. -/
theorem isAligned : Script.Parser.IsAligned :=
  fun dialect content _ n inside _ => Script.outline_aligned dialect content n inside

end Arabize.Installed
