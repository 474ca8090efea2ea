import Arabize.Project.Guard
import Arabize.Proofs.Disk.Following
import Arabize.Proofs.Text.Search

/-! # The names in real paths

A real path is given by names that an entry can have, so it can be written as a text and read
back.  Comparing two real paths as texts is then comparing their names: one lies below the other
if its names begin with those of the other, except that nothing lies below the root, whose path
ends with a slash already.

If the working directory is given by names as well (`Grounded`), the names of the real path of a
path are the location that the path leads to.
-/

namespace Arabize

variable {cs kept : List Text} {name : Text}

/-! ## Names -/

namespace Path

/-- A name that an entry of a directory can have. -/
def IsName (name : Text) : Prop :=
  (name ≠ [] ∧ name ≠ here) ∧ name ≠ up ∧ slash ∉ name

theorem mem_normalComponents (proper : ∀ name ∈ kept, (name ≠ [] ∧ name ≠ here) ∧ name ≠ up)
    (member : name ∈ normalComponents true kept cs) :
    ((name ≠ [] ∧ name ≠ here) ∧ name ≠ up) ∧ (name ∈ kept ∨ name ∈ cs) := by
  induction cs generalizing kept with
  | nil =>
    have inside := List.mem_reverse.1 member
    exact ⟨proper name inside, .inl inside⟩
  | cons c rest ih =>
    simp only [normalComponents] at member
    split at member
    · obtain ⟨isProper, place⟩ := ih proper member
      exact ⟨isProper, place.imp_right (List.mem_cons_of_mem _)⟩
    next named =>
      split at member
      · cases kept with
        | nil =>
          obtain ⟨isProper, place⟩ := ih (by simp) member
          exact ⟨isProper, .inr (List.mem_cons_of_mem _ (place.resolve_left (by simp)))⟩
        | cons k ks =>
          have other : k ≠ up := (proper k List.mem_cons_self).2
          simp only [if_neg other] at member
          obtain ⟨isProper, place⟩ := ih (fun n inside => proper n (List.mem_cons_of_mem _ inside))
            member
          exact ⟨isProper, place.imp (List.mem_cons_of_mem _) (List.mem_cons_of_mem _)⟩
      next other =>
        have proper' : ∀ n ∈ c :: kept, (n ≠ [] ∧ n ≠ here) ∧ n ≠ up := by
          intro n inside
          rcases List.mem_cons.1 inside with rfl | inside
          · exact ⟨not_or.1 named, other⟩
          · exact proper n inside
        obtain ⟨isProper, place⟩ := ih proper' member
        refine ⟨isProper, ?_⟩
        rcases place with inside | behind
        · rcases List.mem_cons.1 inside with rfl | inside
          · exact .inr List.mem_cons_self
          · exact .inl inside
        · exact .inr (List.mem_cons_of_mem _ behind)

/-- Names are normal as they are. -/
theorem normalComponents_of_names (names : ∀ name ∈ cs, IsName name) :
    normalComponents true kept cs = kept.reverse ++ cs := by
  induction cs generalizing kept with
  | nil => simp [normalComponents]
  | cons c rest ih =>
    have first := names c List.mem_cons_self
    have behind := @ih (c :: kept) fun name member => names name (List.mem_cons_of_mem _ member)
    simp [normalComponents, first.1, first.2.1, behind]

theorem not_mem_of_mem_components {p : Path} (member : name ∈ components p) : slash ∉ name :=
  Text.not_mem_splitOn member

end Path

open Arabize.Path (IsName)

/-! ## Real paths as names -/

namespace Disk

variable {d : Disk} {depth k : Nat} {start : Reached} {rest : List Text} {known : Known}
  {loc l : Location} {p : Path}

/-- Names without a slash in them. -/
def Slashless (names : List Text) : Prop := ∀ name ∈ names, Path.slash ∉ name

/-- What links are known to lead to holds no slash. -/
def SlashlessEnds (known : Known) : Prop :=
  ∀ link reached, known? link known = some (some reached) → Slashless reached.2

theorem slashless_components (p : Path) : Slashless (Path.components p) :=
  fun _ => Path.not_mem_of_mem_components

theorem slashless_append {first second : List Text} :
    Slashless (first ++ second) ↔ Slashless first ∧ Slashless second := by
  simp only [Slashless, List.mem_append, or_imp, forall_and]

theorem slashless_cons {name : Text} {more : List Text} :
    Slashless (name :: more) ↔ Path.slash ∉ name ∧ Slashless more := by
  simp only [Slashless, List.forall_mem_cons]

theorem Slashless.dropLast {names : List Text} (slashless : Slashless names) :
    Slashless names.dropLast :=
  fun name member => slashless name (List.dropLast_subset _ member)

theorem SlashlessEnds.cons {next : Reached} {r : Option Reached} (ends : SlashlessEnds known)
    (here : ∀ reached, r = some reached → Slashless reached.2) :
    SlashlessEnds ((next, r) :: known) := by
  intro link reached met
  rw [known?_cons] at met
  split at met
  · exact here reached (Option.some.inj met)
  · exact ends link reached met

theorem slashless_onto (target : Path) (begins : Slashless start.2) :
    Slashless (onto target start).2 := by
  unfold onto
  split
  · simp [Slashless]
  · exact begins

/-- A resolution writes no slash into a name. -/
theorem resolve_slashless (d : Disk) (depth : Nat) (start : Reached)
    (begins : Slashless start.2) (goesOn : Slashless rest) (ends : SlashlessEnds known) :
    Slashless (d.resolve depth start rest known).reached.2 ∧
      SlashlessEnds (d.resolve depth start rest known).known := by
  fun_induction d.resolve depth start rest known with
  | case1 => exact ⟨begins, ends⟩
  | case2 depth start known name more skipped ih =>
    exact ih begins (slashless_cons.1 goesOn).2 ends
  | case3 depth start known more named ih =>
    exact ih begins.dropLast (slashless_cons.1 goesOn).2 ends
  | case4 depth start known name more named other next free ih =>
    obtain ⟨here, behind⟩ := slashless_cons.1 goesOn
    exact ih (slashless_append.2 ⟨begins, by simpa [Slashless] using here⟩) behind ends
  | case5 depth start known name more named other next target link reached met ih =>
    exact ih (ends next reached met) (slashless_cons.1 goesOn).2 ends
  | case6 depth start known name more | case7 start known name more =>
    refine ⟨?_, ends⟩
    rw [slashless_append, slashless_append]
    obtain ⟨here, behind⟩ := slashless_cons.1 goesOn
    exact ⟨⟨begins, by simpa [Slashless] using here⟩, behind⟩
  | case8 start known name more named other next target link fresh depth r finished inner _ outer =>
    obtain ⟨there, known'⟩ := inner (slashless_onto target begins) (slashless_components target)
      (ends.cons (by simp))
    refine outer there (slashless_cons.1 goesOn).2 (known'.cons ?_)
    rintro reached ⟨rfl⟩
    exact there
  | case9 start known name more named other next target link fresh depth r stuck inner =>
    obtain ⟨there, known'⟩ := inner (slashless_onto target begins) (slashless_components target)
      (ends.cons (by simp))
    exact ⟨slashless_append.2 ⟨there, (slashless_cons.1 goesOn).2⟩, known'⟩

theorem slashless_origin (d : Disk) (p : Path) : Slashless (d.origin p) := by
  unfold origin
  split
  · simp [Slashless]
  · exact fun name member => Path.not_mem_of_mem_components (List.mem_filter.1 member).1

theorem isName_of_mem_realNames (d : Disk) (p : Path) : ∀ name ∈ d.realNames p, IsName name := by
  intro name member
  have noEnds : SlashlessEnds [] := by simp [SlashlessEnds]
  have slashless := resolve_slashless d (2 * d.linkCount) (Path.isAbsolute p, d.origin p)
    (slashless_origin d p) (slashless_components p) noEnds
  obtain ⟨proper, place⟩ := Path.mem_normalComponents (by simp) member
  exact ⟨proper.1, proper.2, slashless.1 name (place.resolve_left (by simp))⟩

/-- The working directory of a disk is given by names. -/
def Grounded (d : Disk) : Prop := ∀ name ∈ Path.names d.cwd, name ≠ Path.here ∧ name ≠ Path.up

theorem Grounded.origin (grounded : Grounded d) (p : Path) : ∀ name ∈ d.origin p, IsName name := by
  intro name member
  have slashless := slashless_origin d p name member
  unfold Disk.origin at member
  split at member
  · cases member
  · have proper := grounded name member
    have filled : name ≠ [] := by simpa using (List.mem_filter.1 member).2
    exact ⟨⟨filled, proper.1⟩, proper.2, slashless⟩

/-- A way that starts from names and goes along components comes to names. -/
theorem Follows.isName (follows : Follows d k loc rest l) (begins : ∀ name ∈ loc, IsName name)
    (goesOn : Slashless rest) : ∀ name ∈ l, IsName name := by
  induction follows with
  | done => exact begins
  | skip _ _ ih => exact ih begins (slashless_cons.1 goesOn).2
  | up _ ih =>
    exact ih (fun n member => begins n (List.dropLast_subset _ member)) (slashless_cons.1 goesOn).2
  | past named other _ _ ih =>
    obtain ⟨here, behind⟩ := slashless_cons.1 goesOn
    refine ih (fun n member => ?_) behind
    rcases List.mem_append.1 member with inside | last
    · exact begins n inside
    · rw [List.mem_singleton.1 last]
      exact ⟨not_or.1 named, other, here⟩
  | @along _ loc _ _ target _ _ _ _ _ ih =>
    refine ih (fun n member => ?_) ?_
    · unfold base at member
      split at member
      · cases member
      · exact begins n member
    · exact slashless_append.2 ⟨slashless_components target, (slashless_cons.1 goesOn).2⟩

/-- The real path of a path names the location that the path leads to. -/
theorem Leads.realNames {links : Nat} {spot : Spot} (grounded : Grounded d)
    (leads : Leads d .target links (d.origin p) (Path.components p) spot) :
    d.realNames p = spot.location := by
  obtain ⟨k, follows⟩ := leads.follows
  have names := follows.isName (grounded.origin p) (slashless_components p)
  rw [realNames_of_follows follows, Path.normalComponents_of_names names, List.reverse_nil,
    List.nil_append]

theorem realNames_of_locate {spot : Spot} (grounded : Grounded d)
    (found : d.locate .target p = .ok spot) : d.realNames p = spot.location :=
  (locate_eq_ok_iff.1 found).2.realNames grounded

/-- So does the real path of a path that a file is written at. -/
theorem Lands.realNames (grounded : Grounded d) (lands : Lands d p l) : d.realNames p = l := by
  obtain ⟨spot, found, writable, rfl⟩ := lands
  exact ((locate_eq_ok_iff.1 found).2.target (writable_ne_link writable)).realNames grounded

end Disk

/-! ## Real paths as texts -/

namespace Project

variable {a b : List Text}

theorem ofLocation_ne_slashes (names : ∀ name ∈ b, IsName name) :
    ¬ [Path.slash, Path.slash] <+: Path.ofLocation b := by
  intro begins
  cases b with
  | nil => simp [Path.ofLocation, Text.intercalate, List.cons_prefix_cons] at begins
  | cons name rest =>
    obtain ⟨⟨filled, _⟩, _, slashless⟩ := names name List.mem_cons_self
    obtain ⟨c, more, rfl⟩ := List.exists_cons_of_ne_nil filled
    cases rest <;>
      · simp only [Path.ofLocation, Text.intercalate, List.cons_append, List.cons_prefix_cons,
          true_and] at begins
        exact slashless (begins.1 ▸ List.mem_cons_self)

theorem ofLocation_append (filled : a ≠ []) (more : b ≠ []) :
    Path.ofLocation (a ++ b) =
      Path.ofLocation a ++ Path.slash :: Text.intercalate [Path.slash] b := by
  simp [Path.ofLocation, Text.intercalate_append filled more]

theorem components_ofLocation (filled : a ≠ []) (names : ∀ name ∈ a, IsName name) :
    Path.components (Path.ofLocation a) = [] :: a := by
  have pieces := Text.splitOn_intercalate filled fun name member => (names name member).2.2
  simp only [Path.components, Path.ofLocation, Text.splitOn, if_true, pieces]

theorem ofLocation_injective (first : ∀ name ∈ a, IsName name) (second : ∀ name ∈ b, IsName name)
    (same : Path.ofLocation a = Path.ofLocation b) : a = b := by
  have empty : ∀ {c : List Text}, (∀ name ∈ c, IsName name) →
      Path.ofLocation c = Path.ofLocation [] → c = [] := by
    intro c names same
    refine Classical.byContradiction fun filled => ?_
    have pieces := components_ofLocation filled names
    rw [same] at pieces
    have bare : c = [[]] := (List.cons.inj pieces).2.symm
    exact (names [] (by simp [bare])).1.1 rfl
  by_cases bare : a = []
  · subst bare
    exact (empty second same.symm).symm
  · by_cases nothing : b = []
    · subst nothing
      exact empty first same
    · have pieces := components_ofLocation bare first
      rw [same, components_ofLocation nothing second] at pieces
      exact (List.cons.inj pieces).2.symm

/-- A real path extends another one if its names do, but none extends the root. -/
theorem extendsReal_iff (first : ∀ name ∈ a, IsName name) (second : ∀ name ∈ b, IsName name) :
    extendsReal (Path.ofLocation a) (Path.ofLocation b) = true ↔ b = a ∨ a ≠ [] ∧ a <+: b := by
  unfold extendsReal
  rw [Bool.or_eq_true, decide_eq_true_eq, Text.startsWith_iff]
  constructor
  · rintro (same | ⟨rest, whole⟩)
    · exact .inl (ofLocation_injective second first same)
    · refine .inr ?_
      by_cases empty : a = []
      · subst empty
        exact absurd ⟨rest, whole⟩ (ofLocation_ne_slashes second)
      · have filled : b ≠ [] := by
          rintro rfl
          have sized := congrArg List.length whole
          simp [Path.ofLocation, Text.intercalate] at sized
        have split := components_ofLocation filled second
        rw [← whole, List.append_assoc, List.singleton_append, Path.components,
          Text.splitOn_append] at split
        have before := components_ofLocation empty first
        rw [Path.components] at before
        rw [before, List.cons_append, List.cons.injEq] at split
        exact ⟨empty, _, split.2⟩
  · rintro (rfl | ⟨filled, more, rfl⟩)
    · exact .inl rfl
    · by_cases empty : more = []
      · simp [empty]
      · rw [ofLocation_append filled empty]
        exact .inr ⟨Text.intercalate [Path.slash] more, by simp⟩

end Project

end Arabize
