import Mathlib.Data.List.Lex
import Arabize.Proofs.Script.Candidate

/-! # The order in which the literals of a tree are looked at

The stack of `sitesOf` goes through a tree in preorder, except that it leaves out what is
below a string.  The preorder is written down here by recursion on the tree, as a list of
places: a node with the way down to it and the nodes above it.  One node can stand at
several places of a tree, so a place is known by its way.

The recursion carries over from a tree to a stack of trees because `sitesOf` takes a stack
apart (`sitesOf_append`): what the trees on it have still to give is what each of them
gives, one after the other.
-/

namespace Arabize.Script

/-! ## Places -/

/-- A node of a tree, with where it stands. -/
structure Place where
  /-- Which child to go to at each step from the root. -/
  way : List Nat
  /-- The nodes above it, the nearest first. -/
  above : List Node
  node : Node

namespace Place

def root (n : Node) : Place := ⟨[], [], n⟩

def child (p : Place) (i : Nat) (c : Node) : Place := ⟨p.way ++ [i], p.node :: p.above, c⟩

def site (p : Place) : Site := ⟨p.above.head?, p.node⟩

/-- Whether no node above a place is a string. -/
def isOpen (p : Place) : Bool := p.above.all fun m => m.kind != .string

/-- A place can be reached from another one by going from nodes to their children. -/
inductive Under : Place → Place → Prop
  | here (p : Place) : Under p p
  | down {p q : Place} {i : Nat} {c : Node} :
      p.node.children[i]? = some c → Under (p.child i c) q → Under p q

end Place

open Place (Under)

mutual

/-- The places of a tree in preorder: its own, then those of its children, left to right. -/
def placesFrom (way : List Nat) (above : List Node) : Node → List Place
  | .mk k start stop missing faulty cs =>
    ⟨way, above, .mk k start stop missing faulty cs⟩ ::
      placesAmong way (.mk k start stop missing faulty cs :: above) 0 cs

/-- The places of some children of a node, given how many children stand before them. -/
def placesAmong (way : List Nat) (above : List Node) (i : Nat) : List Node → List Place
  | [] => []
  | c :: cs => placesFrom (way ++ [i]) above c ++ placesAmong way above (i + 1) cs

end

/-- The places of a tree that have no string above them, in preorder. -/
def reached (root : Node) : List Place := (placesFrom [] [] root).filter Place.isOpen

/-- The candidate at a place, if it can be read and is one. -/
def accepted? (source : Bytes) (p : Place) : Option Candidate :=
  match candidate? source p.site with
  | .ok found => found
  | .error _ => none

variable {way : List Nat} {above : List Node} {n root : Node} {p q : Place} {source : Bytes}

theorem placesFrom_eq (way : List Nat) (above : List Node) (n : Node) :
    placesFrom way above n = ⟨way, above, n⟩ :: placesAmong way (n :: above) 0 n.children := by
  cases n
  rw [placesFrom, Node.children]

theorem mem_placesAmong {cs : List Node} {i : Nat} :
    p ∈ placesAmong way above i cs ↔
      ∃ j c, cs[j]? = some c ∧ p ∈ placesFrom (way ++ [i + j]) above c := by
  induction cs generalizing i with
  | nil => simp [placesAmong]
  | cons c cs ih =>
    rw [placesAmong, List.mem_append, ih]
    constructor
    · rintro (first | ⟨j, d, found, later⟩)
      · exact ⟨0, c, rfl, first⟩
      · refine ⟨j + 1, d, found, ?_⟩
        rwa [Nat.add_assoc, Nat.add_comm 1 j] at later
    · rintro ⟨_ | j, d, found, member⟩
      · cases found
        exact .inl member
      · refine .inr ⟨j, d, found, ?_⟩
        rwa [Nat.add_assoc, Nat.add_comm 1 j]

/-- The places of a tree are those that can be reached from its own. -/
theorem mem_placesFrom : p ∈ placesFrom way above n ↔ Under ⟨way, above, n⟩ p := by
  -- A step down leads to a child of this node, whose tree the hypothesis is about.
  induction n using Node.induction generalizing way above with
  | step n ih =>
    rw [placesFrom_eq, List.mem_cons, mem_placesAmong]
    simp only [Nat.zero_add]
    constructor
    · rintro (rfl | ⟨i, c, found, member⟩)
      · exact .here _
      · exact .down found ((ih c (List.mem_of_getElem? found)).1 member)
    · rintro (_ | ⟨found, under⟩)
      · exact .inl rfl
      · exact .inr ⟨_, _, found, (ih _ (List.mem_of_getElem? found)).2 under⟩

theorem Place.Under.extends (under : Under p q) :
    p.way <+: q.way ∧ p.above <:+ q.above := by
  induction under with
  | here p => exact ⟨List.prefix_refl _, List.suffix_refl _⟩
  | down _ _ ih =>
    exact ⟨(List.prefix_append _ _).trans ih.1, (List.suffix_cons _ _).trans ih.2⟩

/-! ## Each place once -/

theorem way_of_mem_placesAmong {cs : List Node} {i : Nat}
    (member : p ∈ placesAmong way above i cs) :
    ∃ j rest, i ≤ j ∧ p.way = way ++ j :: rest := by
  obtain ⟨j, c, _, inChild⟩ := mem_placesAmong.1 member
  obtain ⟨rest, same⟩ := (mem_placesFrom.1 inChild).extends.1
  refine ⟨i + j, rest, Nat.le_add_right i j, ?_⟩
  rw [← same, List.append_assoc, List.singleton_append]

theorem placesAmong_ordered {cs : List Node} {i : Nat}
    (each : ∀ c ∈ cs, ∀ j, (placesFrom (way ++ [j]) above c).Pairwise fun p q => p.way < q.way) :
    (placesAmong way above i cs).Pairwise fun p q => p.way < q.way := by
  induction cs generalizing i with
  | nil => exact .nil
  | cons c cs ih =>
    rw [placesAmong, List.pairwise_append]
    refine ⟨each c List.mem_cons_self i, ih fun d member => each d (List.mem_cons_of_mem _ member),
      fun p first q later => ?_⟩
    -- The ways part at this child: one goes to it, the other to a child behind it.
    obtain ⟨rest, same⟩ := (mem_placesFrom.1 first).extends.1
    obtain ⟨j, rest', further, same'⟩ := way_of_mem_placesAmong later
    rw [← same, same', List.append_assoc, List.singleton_append]
    exact List.append_left_lt (List.cons_lt_cons_iff.2 (.inl further))

/-- Of two places of a tree the one that comes first has the smaller way. -/
theorem placesFrom_ordered (way : List Nat) (above : List Node) (n : Node) :
    (placesFrom way above n).Pairwise fun p q => p.way < q.way := by
  induction n using Node.induction generalizing way above with
  | step n ih =>
    rw [placesFrom_eq, List.pairwise_cons]
    refine ⟨fun p member => ?_, placesAmong_ordered fun c isChild j => ih c isChild _ _⟩
    obtain ⟨j, rest, _, same⟩ := way_of_mem_placesAmong member
    have longer : way ++ [] < way ++ j :: rest := List.append_left_lt (List.nil_lt_cons j rest)
    rw [List.append_nil] at longer
    rwa [same]

/-! ## What the stack gives -/

/-- The sites of the literals among some places that are reached. -/
def sitesAt (ps : List Place) : List Site :=
  ((ps.filter Place.isOpen).filter fun p => isLiteral p.node).map Place.site

theorem sitesAt_append (ps qs : List Place) : sitesAt (ps ++ qs) = sitesAt ps ++ sitesAt qs := by
  simp only [sitesAt, List.filter_append, List.map_append]

theorem sitesAt_cons (p : Place) (ps : List Place) :
    sitesAt (p :: ps) = sitesAt [p] ++ sitesAt ps :=
  sitesAt_append [p] ps

theorem sitesAt_singleton (isOpen : p.isOpen = true) : sitesAt [p] = siteHere p.site := by
  unfold sitesAt siteHere
  cases literal : isLiteral p.node <;> simp [isOpen, literal, Place.site]

/-- Nothing is reached below a string. -/
theorem sitesAt_placesAmong_of_string {cs : List Node} {i : Nat} {m : Node} (member : m ∈ above)
    (isString : m.kind = .string) : sitesAt (placesAmong way above i cs) = [] := by
  have closed : (placesAmong way above i cs).filter Place.isOpen = [] := by
    rw [List.filter_eq_nil_iff]
    intro p inside isOpen
    obtain ⟨_, _, _, inChild⟩ := mem_placesAmong.1 inside
    have still := (mem_placesFrom.1 inChild).extends.2.subset member
    simpa [isString] using List.all_eq_true.1 isOpen m still
  rw [sitesAt, closed]
  rfl

theorem sitesOf_children_eq {cs : List Node}
    (each : ∀ c ∈ cs, ∀ j, sitesOf [⟨some n, c⟩] = sitesAt (placesFrom (way ++ [j]) (n :: above) c))
    (i : Nat) :
    sitesOf (cs.map fun c => ⟨some n, c⟩) = sitesAt (placesAmong way (n :: above) i cs) := by
  induction cs generalizing i with
  | nil => exact sitesOf_nil
  | cons c cs ih =>
    rw [sitesOf_children, placesAmong, sitesAt_append, each c List.mem_cons_self i,
      ih (fun d member => each d (List.mem_cons_of_mem _ member)) (i + 1)]

/-- A tree on the stack gives the literals among the places of the tree that are reached. -/
theorem sitesOf_eq (way : List Nat) (above : List Node) (n : Node)
    (isOpen : above.all (fun m => m.kind != .string) = true) :
    sitesOf [⟨above.head?, n⟩] = sitesAt (placesFrom way above n) := by
  induction n using Node.induction generalizing way above with
  | step n ih =>
    have here : sitesAt [⟨way, above, n⟩] = siteHere ⟨above.head?, n⟩ := sitesAt_singleton isOpen
    rw [sitesOf_singleton, placesFrom_eq, sitesAt_cons, here]
    congr 1
    -- Below a string nothing gets on the stack, and no place is open.
    by_cases isString : n.kind = .string
    · rw [sitesAt_placesAmong_of_string List.mem_cons_self isString, sitesBelow, if_pos isString,
        sitesOf_nil]
    · rw [sitesBelow, if_neg isString]
      refine sitesOf_children_eq (fun c isChild j => ih c isChild _ (n :: above) ?_) 0
      simp [isString, isOpen]

/-! ## The candidates -/

theorem literalSites_eq (root : Node) :
    literalSites root = ((reached root).filter fun p => isLiteral p.node).map Place.site :=
  sitesOf_eq [] [] root rfl

/-- A node that is no literal is no candidate. -/
theorem candidate?_of_not_literal {s : Site} (other : isLiteral s.node = false) :
    candidate? source s = .ok none := by
  have role : role? source s = .ok none := by
    unfold role?
    split <;> simp_all [isLiteral]
  rw [candidate?, role]

theorem candidatesAt_eq_filterMap {ps : List Place}
    (readable : ∀ p ∈ ps, ∀ e, candidate? source p.site ≠ .error e) :
    candidatesAt source (ps.map Place.site) = .ok (ps.filterMap (accepted? source)) := by
  induction ps with
  | nil => rfl
  | cons p ps ih =>
    have later := ih fun q member => readable q (List.mem_cons_of_mem _ member)
    rw [List.map_cons, candidatesAt]
    cases here : candidate? source p.site with
    | error e => exact absurd here (readable p List.mem_cons_self e)
    | ok found => cases found <;> simp [accepted?, here, later]

theorem filterMap_literals (ps : List Place) :
    (ps.filter fun p => isLiteral p.node).filterMap (accepted? source) =
      ps.filterMap (accepted? source) := by
  rw [List.filterMap_filter]
  refine List.filterMap_congr fun p _ => ?_
  cases literal : isLiteral p.node with
  | true => rfl
  | false =>
    have passed : candidate? source p.site = .ok none := candidate?_of_not_literal literal
    simp [accepted?, passed]

theorem start_le_of_apart {s t : Site} (nested : root.WellNested)
    (inside : Node.Inside s.node root) (apart : Apart s t) : s.node.start ≤ t.node.start := by
  have inner := (inside.within nested).2.2
  rcases apart with before | ⟨_, below⟩
  · exact Nat.le_trans inner.start_le_stop before
  · exact (below.within inner).1

theorem candidates_start_le (nested : root.WellNested) {cs : List Candidate}
    (listed : candidates source root = .ok cs) : cs.Pairwise fun a b => a.start ≤ b.start := by
  refine candidatesAt_pairwise listed (literalSites_apart nested) ?_
  intro s isSite t _ a b first second apart
  rw [(candidate?_eq_some first).1, (candidate?_eq_some second).1]
  exact start_le_of_apart nested (mem_literalSites isSite).2.1 apart

/-- The candidates of a program are what the preorder of its tree gives.  The places that are
    reached are those of the tree with no string above them, each once and in the order of
    their ways; the literals among them are what the stack gives; and where each of them can be
    read, the candidates are those accepted there, in this order.  In a well nested tree their
    starts never go down. -/
theorem candidates_preorder
    (readable : ∀ p ∈ reached root, ∀ e, candidate? source p.site ≠ .error e) :
    (∀ p, p ∈ reached root ↔ Under (.root root) p ∧ ∀ m ∈ p.above, m.kind ≠ .string) ∧
    (reached root).Pairwise (fun p q => p.way < q.way) ∧
    literalSites root = ((reached root).filter fun p => isLiteral p.node).map Place.site ∧
    candidates source root = .ok ((reached root).filterMap (accepted? source)) ∧
    (root.WellNested → ((reached root).filterMap (accepted? source)).Pairwise
      fun a b => a.start ≤ b.start) := by
  have listed : candidates source root = .ok ((reached root).filterMap (accepted? source)) := by
    rw [candidates, literalSites_eq, ← filterMap_literals]
    exact candidatesAt_eq_filterMap fun p member => readable p (List.mem_filter.1 member).1
  refine ⟨fun p => ?_, (placesFrom_ordered [] [] root).filter _, literalSites_eq root, listed,
    fun nested => candidates_start_le nested listed⟩
  rw [reached, List.mem_filter, mem_placesFrom]
  simp [Place.root, Place.isOpen]

/-- A tagged template is no candidate, but the string in it is looked at, and what is below
    that string is not. -/
theorem candidates_preorder_tagged :
    let source := Utf8.encodeLoose "f`$\x7b'Home'\x7d`"
    let root := Node.branch .call 0 12
      [.leaf .other 0 1, .branch .template 1 12 [.branch .string 4 10 [.leaf .other 5 9]]]
    (reached root).map (·.way) = [[], [0], [1], [1, 0]] ∧
    (reached root).filterMap (accepted? source) = [⟨"Home", .literal, 4, 10, .ofChar '\'', []⟩] ∧
    (∀ p ∈ reached root, ∀ e, candidate? source p.site ≠ .error e) ∧
    (∀ p, p ∈ reached root ↔ Under (.root root) p ∧ ∀ m ∈ p.above, m.kind ≠ .string) ∧
    (reached root).Pairwise (fun p q => p.way < q.way) ∧
    literalSites root = ((reached root).filter fun p => isLiteral p.node).map Place.site ∧
    candidates source root = .ok ((reached root).filterMap (accepted? source)) ∧
    (root.WellNested → ((reached root).filterMap (accepted? source)).Pairwise
      fun a b => a.start ≤ b.start) := by
  intro source root
  have readable : ∀ p ∈ reached root, ∀ e, candidate? source p.site ≠ .error e := by
    have read : ((reached root).all fun p => (candidate? source p.site).isOk) = true := by
      decide +kernel
    intro p member e failed
    have here := List.all_eq_true.1 read p member
    rw [failed] at here
    cases here
  exact ⟨by decide, by decide +kernel, readable, candidates_preorder readable⟩

end Arabize.Script
