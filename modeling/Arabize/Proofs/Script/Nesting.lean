import Arabize.Script.Candidate

/-! # Where the literals of a tree stand

In a well nested tree the stretch of a node holds those of its children, which follow one
another without overlap.  So two literals of a program lie apart, unless one of them lies
in the other: then the outer one is a template, since nothing is sought below a string.

`literalSites` lists them so that the one that comes first also starts first.
-/

namespace Arabize.Script

namespace Node

/-! ## Induction -/

variable {P : Node → Prop}

mutual

/-- What holds of a node when it holds of its children holds of every node. -/
theorem induction (step : ∀ n, (∀ c ∈ n.children, P c) → P n) : ∀ n : Node, P n
  | .mk _ _ _ _ _ cs => step _ (induction_list step cs)

theorem induction_list (step : ∀ n, (∀ c ∈ n.children, P c) → P n) :
    ∀ cs : List Node, ∀ c ∈ cs, P c
  | [] => fun _ member => absurd member List.not_mem_nil
  | c :: cs => List.forall_mem_cons.2 ⟨induction step c, induction_list step cs⟩

end

/-! ## Nesting -/

mutual

/-- Whether the stretches of a tree are nested as its nodes are. -/
def WellNested : Node → Prop
  | .mk _ start stop _ _ cs => start ≤ stop ∧ InOrder start stop cs

/-- Whether the trees of a list are well nested and follow one another in a stretch. -/
def InOrder (start stop : Nat) : List Node → Prop
  | [] => True
  | n :: ns => start ≤ n.start ∧ n.stop ≤ stop ∧ n.WellNested ∧ InOrder n.stop stop ns

end

mutual

/-- Whether a tree is well nested can be computed. -/
def decideNested : (n : Node) → Decidable n.WellNested
  | .mk _ start stop _ _ cs =>
    have := decideInOrder start stop cs
    inferInstanceAs (Decidable (start ≤ stop ∧ InOrder start stop cs))

/-- Whether the trees of a list are can be computed. -/
def decideInOrder (start stop : Nat) : (ns : List Node) → Decidable (InOrder start stop ns)
  | [] => inferInstanceAs (Decidable True)
  | n :: ns =>
    have := decideNested n
    have := decideInOrder n.stop stop ns
    inferInstanceAs (Decidable (start ≤ n.start ∧ n.stop ≤ stop ∧ n.WellNested ∧
      InOrder n.stop stop ns))

end

instance (n : Node) : Decidable n.WellNested := decideNested n

/-- The nodes below a node. -/
inductive Below : Node → Node → Prop
  | child {m n : Node} : m ∈ n.children → Below m n
  | deeper {m c n : Node} : c ∈ n.children → Below m c → Below m n

theorem WellNested.start_le_stop {n : Node} (nested : n.WellNested) : n.start ≤ n.stop := by
  cases n
  exact nested.1

theorem WellNested.children {n : Node} (nested : n.WellNested) :
    InOrder n.start n.stop n.children := by
  cases n
  exact nested.2

theorem InOrder.mem {start stop : Nat} {ns : List Node} (ordered : InOrder start stop ns)
    {n : Node} (member : n ∈ ns) : start ≤ n.start ∧ n.stop ≤ stop ∧ n.WellNested := by
  induction ns generalizing start with
  | nil => cases member
  | cons first ns ih =>
    obtain ⟨left, right, nested, later⟩ := ordered
    rcases List.mem_cons.1 member with rfl | behind
    · exact ⟨left, right, nested⟩
    · obtain ⟨further, rest⟩ := ih later behind
      exact ⟨Nat.le_trans left (Nat.le_trans nested.start_le_stop further), rest⟩

theorem Below.within {m n : Node} (below : Below m n) (nested : n.WellNested) :
    n.start ≤ m.start ∧ m.stop ≤ n.stop ∧ m.WellNested := by
  induction below with
  | child isChild => exact nested.children.mem isChild
  | deeper isChild _ ih =>
    obtain ⟨left, right, inner⟩ := nested.children.mem isChild
    obtain ⟨further, before, deepest⟩ := ih inner
    exact ⟨Nat.le_trans left further, Nat.le_trans before right, deepest⟩

/-- A node is a node of its own tree. -/
def Inside (m n : Node) : Prop := m = n ∨ Below m n

mutual

/-- The nodes of a tree, parents before children. -/
def nodes : Node → List Node
  | .mk k start stop missing faulty cs => .mk k start stop missing faulty cs :: nodesOf cs

/-- The nodes of the trees of a list. -/
def nodesOf : List Node → List Node
  | [] => []
  | n :: ns => n.nodes ++ nodesOf ns

end

theorem mem_nodesOf {m : Node} {ns : List Node} : m ∈ nodesOf ns ↔ ∃ n ∈ ns, m ∈ n.nodes := by
  induction ns with
  | nil => simp [nodesOf]
  | cons n ns ih => simp only [nodesOf, List.mem_append, ih, List.mem_cons, exists_eq_or_imp]

theorem below_iff {m n : Node} : Below m n ↔ ∃ c ∈ n.children, Inside m c := by
  constructor
  · rintro (isChild | ⟨isChild, below⟩)
    · exact ⟨m, isChild, .inl rfl⟩
    · exact ⟨_, isChild, .inr below⟩
  · rintro ⟨c, isChild, rfl | below⟩
    · exact .child isChild
    · exact .deeper isChild below

theorem mem_nodes {m n : Node} : m ∈ n.nodes ↔ Inside m n := by
  induction n using Node.induction with
  | step n ih =>
    obtain ⟨k, start, stop, missing, faulty, cs⟩ := n
    rw [nodes, List.mem_cons, mem_nodesOf, Inside, below_iff]
    exact or_congr_right (exists_congr fun c => and_congr_right fun isChild => ih c isChild)

theorem Inside.within {m n : Node} (inside : Inside m n) (nested : n.WellNested) :
    n.start ≤ m.start ∧ m.stop ≤ n.stop ∧ m.WellNested := by
  rcases inside with rfl | below
  · exact ⟨Nat.le_refl _, Nat.le_refl _, nested⟩
  · exact below.within nested

theorem Inside.below {m c n : Node} (inside : Inside m c) (isChild : c ∈ n.children) :
    Below m n :=
  below_iff.2 ⟨c, isChild, inside⟩

theorem Below.child_below {c m n : Node} (below : Below m n) (isChild : c ∈ m.children) :
    Below c n := by
  induction below with
  | child outer => exact .deeper outer (.child isChild)
  | deeper outer _ ih => exact .deeper outer ih

theorem Inside.child_below {c m n : Node} (inside : Inside m n) (isChild : c ∈ m.children) :
    Below c n := by
  rcases inside with rfl | below
  · exact .child isChild
  · exact below.child_below isChild

end Node

open Node (WellNested InOrder Below Inside)

/-! ## Sites -/

theorem sitesOf_nil : sitesOf [] = [] := by rw [sitesOf]

theorem sitesOf_cons (s : Site) (rest : List Site) :
    sitesOf (s :: rest) = siteHere s ++ sitesOf (sitesBelow s.node ++ rest) := by rw [sitesOf]

theorem sitesOf_append (a b : List Site) : sitesOf (a ++ b) = sitesOf a ++ sitesOf b := by
  fun_induction sitesOf a with
  | case1 => rfl
  | case2 s rest ih =>
    rw [List.cons_append, sitesOf_cons, ← List.append_assoc, ih, List.append_assoc]

theorem sitesOf_singleton (s : Site) :
    sitesOf [s] = siteHere s ++ sitesOf (sitesBelow s.node) := by
  rw [sitesOf_cons, List.append_nil]

theorem sitesOf_children (parent : Node) (c : Node) (cs : List Node) :
    sitesOf ((c :: cs).map fun n => ⟨some parent, n⟩) =
      sitesOf [⟨some parent, c⟩] ++ sitesOf (cs.map fun n => ⟨some parent, n⟩) := by
  rw [← sitesOf_append, List.map_cons, List.singleton_append]

theorem mem_siteHere {s t : Site} (member : s ∈ siteHere t) : s = t ∧ isLiteral s.node = true := by
  unfold siteHere at member
  split at member
  next literal =>
    rw [List.mem_singleton.1 member]
    exact ⟨rfl, literal⟩
  next => cases member

theorem mem_sitesOf_children {n : Node} {cs : List Node} {s : Site} :
    s ∈ sitesOf (cs.map fun c => ⟨some n, c⟩) ↔ ∃ c ∈ cs, s ∈ sitesOf [⟨some n, c⟩] := by
  induction cs with
  | nil => simp [sitesOf_nil]
  | cons c cs ih => simp only [sitesOf_children, List.mem_append, ih, List.mem_cons,
      exists_eq_or_imp]

/-- The sites of a tree are literals of the tree, each under a node of the tree. -/
theorem mem_sitesOf {n : Node} {parent : Option Node} {s : Site}
    (member : s ∈ sitesOf [⟨parent, n⟩]) :
    isLiteral s.node = true ∧
      (s = ⟨parent, n⟩ ∨ Below s.node n ∧ ∃ p, s.parent = some p ∧ Inside p n) := by
  -- A site is the node itself or hangs below it; below a string there is none.
  induction n using Node.induction generalizing parent s with
  | step n ih =>
    rw [sitesOf_singleton, List.mem_append] at member
    rcases member with here | below
    · obtain ⟨rfl, literal⟩ := mem_siteHere here
      exact ⟨literal, .inl rfl⟩
    · simp only [sitesBelow] at below
      split at below
      · rw [sitesOf_nil] at below
        cases below
      · obtain ⟨c, isChild, inChild⟩ := mem_sitesOf_children.1 below
        obtain ⟨literal, rfl | ⟨deeper, p, hangs, inside⟩⟩ := ih c isChild inChild
        · exact ⟨literal, .inr ⟨.child isChild, n, rfl, .inl rfl⟩⟩
        · exact ⟨literal, .inr ⟨.deeper isChild deeper, p, hangs, .inr (inside.below isChild)⟩⟩

theorem inside_of_mem_sitesOf {n : Node} {parent : Option Node} {s : Site}
    (member : s ∈ sitesOf [⟨parent, n⟩]) : Inside s.node n := by
  obtain ⟨_, rfl | ⟨below, _⟩⟩ := mem_sitesOf member
  · exact .inl rfl
  · exact .inr below

theorem mem_literalSites {root : Node} {s : Site} (member : s ∈ literalSites root) :
    isLiteral s.node = true ∧ Inside s.node root ∧ ∀ p, s.parent = some p → Inside p root := by
  refine ⟨(mem_sitesOf member).1, inside_of_mem_sitesOf member, fun p same => ?_⟩
  obtain ⟨_, rfl | ⟨_, q, hangs, inside⟩⟩ := mem_sitesOf member
  · cases same
  · rw [hangs, Option.some.injEq] at same
    exact same ▸ inside

/-! ## Literals beside literals -/

/-- One literal ends before another one starts, or is a template that holds it. -/
def Apart (a b : Site) : Prop :=
  a.node.stop ≤ b.node.start ∨ (a.node.kind = .template ∧ Below b.node a.node)

theorem siteHere_apart (s : Site) : (siteHere s).Pairwise Apart := by
  unfold siteHere
  split
  · exact List.pairwise_singleton _ _
  · exact .nil

/-- Trees that follow one another have their literals apart if each of them has. -/
theorem sitesOf_children_apart {n : Node} {cs : List Node} {start stop : Nat}
    (ordered : InOrder start stop cs)
    (each : ∀ c ∈ cs, (sitesOf [⟨some n, c⟩]).Pairwise Apart) :
    (sitesOf (cs.map fun c => ⟨some n, c⟩)).Pairwise Apart := by
  induction cs generalizing start with
  | nil =>
    rw [List.map_nil, sitesOf_nil]
    exact .nil
  | cons c cs ih =>
    obtain ⟨_, _, nested, later⟩ := ordered
    rw [sitesOf_children, List.pairwise_append]
    refine ⟨each c List.mem_cons_self,
      ih later fun c member => each c (List.mem_cons_of_mem _ member), fun a first b behind => ?_⟩
    obtain ⟨e, member, second⟩ := mem_sitesOf_children.1 behind
    obtain ⟨left, _, nestedToo⟩ := later.mem member
    -- A literal ends with the tree it is in, before the next tree starts.
    have before := ((inside_of_mem_sitesOf first).within nested).2.1
    have after := ((inside_of_mem_sitesOf second).within nestedToo).1
    exact .inl (Nat.le_trans before (Nat.le_trans left after))

theorem sitesOf_apart {n : Node} {parent : Option Node} (nested : n.WellNested) :
    (sitesOf [⟨parent, n⟩]).Pairwise Apart := by
  induction n using Node.induction generalizing parent with
  | step n ih =>
    rw [sitesOf_singleton, List.pairwise_append]
    refine ⟨siteHere_apart _, ?_, fun a here b below => ?_⟩
    · simp only [sitesBelow]
      split
      · rw [sitesOf_nil]
        exact .nil
      · exact sitesOf_children_apart nested.children fun c member =>
          ih c member (nested.children.mem member).2.2
    · obtain ⟨rfl, literal⟩ := mem_siteHere here
      simp only [sitesBelow] at below
      split at below
      · rw [sitesOf_nil] at below
        cases below
      next notString =>
        obtain ⟨c, isChild, inChild⟩ := mem_sitesOf_children.1 below
        -- A literal with sites below it is no string.
        refine .inr ⟨?_, (inside_of_mem_sitesOf inChild).below isChild⟩
        simpa [isLiteral, notString] using literal

/-- The literals of a well nested tree lie apart or in templates. -/
theorem literalSites_apart {root : Node} (nested : root.WellNested) :
    (literalSites root).Pairwise Apart :=
  sitesOf_apart nested

end Arabize.Script
