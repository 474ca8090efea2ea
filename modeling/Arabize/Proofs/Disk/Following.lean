import Arabize.Proofs.Disk.Alike

/-! # Where real paths lead

A walk that comes to an end has followed each link on its way to the end of its target.  The
real path of its path is then the location it has come to: a resolution goes the same way, and
never finds a circle on it, because a link that is met in its own target would have to be
followed more often than the walk has followed links at all.

The non-trivial ingredient is that the number of links on a way is determined by the way
(`Follows.unique`).  `Pending` says what it is good for: to go on from where a resolution is takes
no more links than the target of any link that is still open.
-/

namespace Arabize.Disk

/-! ## Ways to the end -/

/-- A way from a directory along components that follows exactly so many links and comes to a
    location, whether or not something is there. -/
inductive Follows (d : Disk) : Nat → Location → List Text → Location → Prop
  | done {loc} : Follows d 0 loc [] loc
  | skip {k loc name more l} : name = [] ∨ name = Path.here → Follows d k loc more l →
      Follows d k loc (name :: more) l
  | up {k loc more l} : Follows d k loc.dropLast more l → Follows d k loc (Path.up :: more) l
  | past {k loc name more l} : ¬ (name = [] ∨ name = Path.here) → name ≠ Path.up →
      d.link? (loc ++ [name]) = none → Follows d k (loc ++ [name]) more l →
      Follows d k loc (name :: more) l
  | along {k loc name more target l} : ¬ (name = [] ∨ name = Path.here) → name ≠ Path.up →
      d.link? (loc ++ [name]) = some target →
      Follows d k (base target loc) (Path.components target ++ more) l →
      Follows d (k + 1) loc (name :: more) l

variable {d : Disk} {links j k depth : Nat} {loc l m : Location} {start : Reached}
  {name : Text} {rest front back : List Text} {known : Known} {spot : Spot} {p : Path}

/-! The first component of a way says which step it begins with. -/

theorem Follows.of_skip (skipped : name = [] ∨ name = Path.here)
    (follows : Follows d k loc (name :: rest) l) : Follows d k loc rest l := by
  cases follows with
  | skip _ onward => exact onward
  | up => exact absurd skipped (by decide)
  | past named => exact absurd skipped named
  | along named => exact absurd skipped named

theorem Follows.of_up (follows : Follows d k loc (Path.up :: rest) l) :
    Follows d k loc.dropLast rest l := by
  cases follows with
  | skip skipped => exact absurd skipped (by decide)
  | up onward => exact onward
  | past _ other => exact absurd rfl other
  | along _ other => exact absurd rfl other

theorem Follows.of_past (named : ¬ (name = [] ∨ name = Path.here)) (other : name ≠ Path.up)
    (free : d.link? (loc ++ [name]) = none) (follows : Follows d k loc (name :: rest) l) :
    Follows d k (loc ++ [name]) rest l := by
  cases follows with
  | skip skipped => exact absurd skipped named
  | up => exact absurd rfl other
  | past _ _ _ onward => exact onward
  | along _ _ link =>
    rw [free] at link
    cases link

theorem Follows.of_along {target : Path} (named : ¬ (name = [] ∨ name = Path.here))
    (other : name ≠ Path.up) (link : d.link? (loc ++ [name]) = some target)
    (follows : Follows d k loc (name :: rest) l) :
    ∃ j, Follows d j (base target loc) (Path.components target ++ rest) l ∧ k = j + 1 := by
  cases follows with
  | skip skipped => exact absurd skipped named
  | up => exact absurd rfl other
  | past _ _ free =>
    rw [link] at free
    cases free
  | along _ _ also onward =>
    rw [link] at also
    cases also
    exact ⟨_, onward, rfl⟩

theorem Follows.unique (first : Follows d k loc rest l) (second : Follows d j loc rest m) :
    k = j ∧ l = m := by
  induction first generalizing j with
  | done =>
    cases second
    exact ⟨rfl, rfl⟩
  | skip skipped _ ih => exact ih (second.of_skip skipped)
  | up _ ih => exact ih second.of_up
  | past named other free _ ih => exact ih (second.of_past named other free)
  | along named other link _ ih =>
    obtain ⟨i, onward, rfl⟩ := second.of_along named other link
    obtain ⟨rfl, rfl⟩ := ih onward
    exact ⟨rfl, rfl⟩

/-- A way can be cut between any two of its components. -/
theorem Follows.cut (follows : Follows d k loc (front ++ back) l) :
    ∃ i j mid, Follows d i loc front mid ∧ Follows d j mid back l ∧ k = i + j := by
  generalize whole : front ++ back = rest at follows
  induction follows generalizing front with
  | done =>
    obtain ⟨rfl, rfl⟩ := List.append_eq_nil_iff.1 whole
    exact ⟨0, 0, _, .done, .done, rfl⟩
  | skip skipped onward ih =>
    obtain ⟨rfl, rfl⟩ | ⟨front, rfl, rfl⟩ := List.append_eq_cons_iff.1 whole
    · exact ⟨0, _, _, .done, .skip skipped onward, (Nat.zero_add _).symm⟩
    · obtain ⟨i, j, mid, first, second, sum⟩ := ih rfl
      exact ⟨i, j, mid, .skip skipped first, second, sum⟩
  | up onward ih =>
    obtain ⟨rfl, rfl⟩ | ⟨front, rfl, rfl⟩ := List.append_eq_cons_iff.1 whole
    · exact ⟨0, _, _, .done, .up onward, (Nat.zero_add _).symm⟩
    · obtain ⟨i, j, mid, first, second, sum⟩ := ih rfl
      exact ⟨i, j, mid, .up first, second, sum⟩
  | past named other free onward ih =>
    obtain ⟨rfl, rfl⟩ | ⟨front, rfl, rfl⟩ := List.append_eq_cons_iff.1 whole
    · exact ⟨0, _, _, .done, .past named other free onward, (Nat.zero_add _).symm⟩
    · obtain ⟨i, j, mid, first, second, sum⟩ := ih rfl
      exact ⟨i, j, mid, .past named other free first, second, sum⟩
  | along named other link onward ih =>
    obtain ⟨rfl, rfl⟩ | ⟨front, rfl, rfl⟩ := List.append_eq_cons_iff.1 whole
    · exact ⟨0, _, _, .done, .along named other link onward, (Nat.zero_add _).symm⟩
    · obtain ⟨i, j, mid, first, second, sum⟩ := ih (List.append_assoc _ front back)
      exact ⟨i + 1, j, mid, .along named other link first, second, by omega⟩

/-- A way that meets a link goes along its target first, and on from the end of that. -/
theorem Follows.through {target : Path} (named : ¬ (name = [] ∨ name = Path.here))
    (other : name ≠ Path.up) (link : d.link? (loc ++ [name]) = some target)
    (follows : Follows d k loc (name :: rest) l) :
    ∃ i j mid, Follows d i (base target loc) (Path.components target) mid ∧
      Follows d j mid rest l ∧ k = i + j + 1 := by
  obtain ⟨n, onward, rfl⟩ := follows.of_along named other link
  obtain ⟨i, j, mid, first, second, rfl⟩ := onward.cut
  exact ⟨i, j, mid, first, second, rfl⟩

/-- A way only depends on links. -/
theorem Follows.of_link? {c : Disk} (links : ∀ l, c.link? l = d.link? l)
    (follows : Follows d k loc rest l) : Follows c k loc rest l := by
  induction follows with
  | done => exact .done
  | skip skipped _ ih => exact .skip skipped ih
  | up _ ih => exact .up ih
  | past named other free _ ih => exact .past named other ((links _).trans free) ih
  | along named other link _ ih => exact .along named other ((links _).trans link) ih

/-- What a walk finds is at the end of such a way. -/
theorem Leads.follows (leads : Leads d .target links loc rest spot) :
    ∃ k, Follows d k loc rest spot.location := by
  have empties : ∀ {names : List Text} {loc : Location}, names.all List.isEmpty = true →
      Follows d 0 loc names loc := by
    intro names loc empty
    induction names with
    | nil => exact .done
    | cons name rest ih =>
      simp only [List.all_cons, Bool.and_eq_true, List.isEmpty_iff] at empty
      exact .skip (.inl empty.1) (ih empty.2)
  induction leads with
  | done => exact ⟨0, .done⟩
  | skip skipped _ ih =>
    obtain ⟨k, onward⟩ := ih
    exact ⟨k, .skip skipped onward⟩
  | up _ ih =>
    obtain ⟨k, onward⟩ := ih
    exact ⟨k, .up onward⟩
  | free named absent ends =>
    exact ⟨0, .past named.1 named.2.1 (link?_eq_none_of_entry absent (by simp)) (empties ends)⟩
  | directory named present _ ih =>
    obtain ⟨k, onward⟩ := ih
    exact ⟨k, .past named.1 named.2.1 (link?_eq_none_of_entry present (by simp)) onward⟩
  | file named present =>
    exact ⟨0, .past named.1 named.2.1 (link?_eq_none_of_entry present (by simp)) .done⟩
  | link _ _ own => rcases own with own | own <;> cases own
  | along named present _ _ _ ih =>
    obtain ⟨k, onward⟩ := ih
    exact ⟨k + 1, .along named.1 named.2.1 (link?_eq_some_iff.2 present) onward⟩

/-! ## Resolutions go the same way -/

/-- What is known of links is where their targets end. -/
def Settled (d : Disk) (known : Known) : Prop :=
  ∀ link reached target, known? link known = some (some reached) → d.link? link.2 = some target →
    ∃ k, Follows d k (base target link.2.dropLast) (Path.components target) reached.2

/-- The target of a link that is open takes at least so many links. -/
def Pending (d : Disk) (k : Nat) (known : Known) : Prop :=
  ∀ link target j m, known? link known = some none → d.link? link.2 = some target →
    Follows d j (base target link.2.dropLast) (Path.components target) m → k ≤ j

theorem Settled.opened (settled : Settled d known) (next : Reached) :
    Settled d ((next, none) :: known) := by
  intro link reached target met there
  rw [known?_cons] at met
  split at met
  · cases met
  · exact settled link reached target met there

theorem Settled.closed (settled : Settled d known) {next reached : Reached} {target : Path}
    (link : d.link? next.2 = some target)
    (ends : Follows d k (base target next.2.dropLast) (Path.components target) reached.2) :
    Settled d ((next, some reached) :: known) := by
  intro link' reached' target' met there
  rw [known?_cons] at met
  split at met
  next same =>
    subst same
    cases met
    rw [link] at there
    cases there
    exact ⟨k, ends⟩
  · exact settled link' reached' target' met there

theorem Pending.opened (pending : Pending d k known) {next : Reached} {target : Path}
    (link : d.link? next.2 = some target)
    (ends : Follows d j (base target next.2.dropLast) (Path.components target) m) (fewer : j ≤ k) :
    Pending d j ((next, none) :: known) := by
  intro link' target' i m' met there follows
  rw [known?_cons] at met
  split at met
  next same =>
    subst same
    rw [link] at there
    cases there
    exact Nat.le_of_eq (ends.unique follows).1
  · exact Nat.le_trans fewer (pending link' target' i m' met there follows)

/-- Fewer links are left to be followed, and no more of them are open. -/
theorem Pending.weaken {more : Known} (pending : Pending d k known) (fewer : j ≤ k)
    (closed : ∀ link, known? link more = some none → known? link known = some none) :
    Pending d j more := by
  intro link target i m met there follows
  exact Nat.le_trans fewer (pending link target i m (closed link met) there follows)

/-- A resolution has come to a location: all that it knows of links is right, and no link is
    open that was not before. -/
structure Arrives (d : Disk) (known : Known) (l : Location) (r : Resolution) : Prop where
  finished : r.finished = true
  reached : r.reached.2 = l
  settled : Settled d r.known
  noneOpen : ∀ link, known? link r.known = some none → known? link known = some none

/-- A link that was opened for its target is closed behind it. -/
theorem Arrives.closed {next : Reached} {r : Resolution}
    (arrives : Arrives d ((next, none) :: known) l r) (link : Reached)
    (met : known? link ((next, some r.reached) :: r.known) = some none) :
    known? link known = some none := by
  rw [known?_cons] at met
  split at met
  · cases met
  next different =>
    have before := arrives.noneOpen link met
    rwa [known?_cons, if_neg different] at before

/-- A resolution comes to where the way does. -/
theorem resolve_of_follows (start : Reached) (settled : Settled d known)
    (enough : unmet d known ≤ depth) :
    ∀ {k l}, Pending d k known → Follows d k start.2 rest l →
      Arrives d known l (d.resolve depth start rest known) := by
  fun_induction d.resolve depth start rest known with
  | case1 =>
    intro k l pending follows
    cases follows
    exact ⟨rfl, rfl, settled, fun _ met => met⟩
  | case2 depth start known name more skipped ih =>
    intro k l pending follows
    exact ih settled enough pending (follows.of_skip skipped)
  | case3 depth start known more named ih =>
    intro k l pending follows
    exact ih settled enough pending follows.of_up
  | case4 depth start known name more named other next free ih =>
    intro k l pending follows
    exact ih settled enough pending (follows.of_past named other free)
  | case5 depth start known name more named other next target link reached met ih =>
    intro k l pending follows
    obtain ⟨i, j, mid, first, second, sum⟩ := follows.through named other link
    obtain ⟨i', ends⟩ := settled next reached target met link
    rw [List.dropLast_concat] at ends
    obtain ⟨_, rfl⟩ := ends.unique first
    exact ih settled enough (pending.weaken (by omega) fun _ still => still) second
  | case6 depth start known name more named other next target link met =>
    -- The circle would have to be followed before its own end.
    intro k l pending follows
    obtain ⟨i, j, mid, first, second, sum⟩ := follows.through named other link
    have bound := pending next target i mid met link (by rwa [List.dropLast_concat])
    omega
  | case7 start known name more named other next target link fresh =>
    have fewer := unmet_opened link fresh
    omega
  | case8 start known name more named other next target link fresh depth r finished inner _ outer =>
    intro k l pending follows
    obtain ⟨i, j, mid, first, second, sum⟩ := follows.through named other link
    have fewer := unmet_opened link fresh
    have grows : Grows ((next, none) :: known) r.known := resolve_grows
    have fewest := unmet_closed link fresh grows r.reached
    have along : Follows d i (base target next.2.dropLast) (Path.components target) mid := by
      rwa [List.dropLast_concat]
    have arrives : Arrives d ((next, none) :: known) mid r :=
      inner (settled.opened next) (by omega) (pending.opened link along (by omega))
        (onto_snd target start ▸ first)
    -- From the end of the target on, fewer links are left to follow than from the link.
    have goesOn := outer (arrives.settled.closed link (arrives.reached ▸ along)) (by omega)
      (pending.weaken (by omega) arrives.closed) (arrives.reached ▸ second)
    exact ⟨goesOn.finished, goesOn.reached, goesOn.settled,
      fun other met => arrives.closed other (goesOn.noneOpen other met)⟩
  | case9 start known name more named other next target link fresh depth r stuck inner =>
    intro k l pending follows
    obtain ⟨i, j, mid, first, second, sum⟩ := follows.through named other link
    have fewer := unmet_opened link fresh
    have along : Follows d i (base target next.2.dropLast) (Path.components target) mid := by
      rwa [List.dropLast_concat]
    have arrives : Arrives d ((next, none) :: known) mid r :=
      inner (settled.opened next) (by omega) (pending.opened link along (by omega))
        (onto_snd target start ▸ first)
    exact absurd arrives.finished stuck

/-! ## What a path names -/

/-- A path names a location: that is where it comes to, all links followed. -/
def Names (d : Disk) (p : Path) (l : Location) : Prop :=
  ∃ k, Follows d k (d.origin p) (Path.components p) l

theorem Names.unique (names : Names d p l) (also : Names d p m) : l = m := by
  obtain ⟨_, first⟩ := names
  obtain ⟨_, second⟩ := also
  exact (first.unique second).2

theorem Names.of_link? {c : Disk} (cwd : c.cwd = d.cwd) (links : ∀ l, c.link? l = d.link? l)
    (names : Names d p l) : Names c p l := by
  obtain ⟨k, follows⟩ := names
  rw [← origin_congr cwd] at follows
  exact ⟨k, follows.of_link? links⟩

/-- A file is written at the location that its path names. -/
theorem Lands.names (lands : Lands d p l) : Names d p l := by
  obtain ⟨spot, found, writable, rfl⟩ := lands
  exact ((locate_eq_ok_iff.1 found).2.target (writable_ne_link writable)).follows

/-- A file that is removed is the one that its path names. -/
theorem names_of_removal {bytes : Bytes}
    (found : d.locate .removal p = .ok (.there l (.file bytes))) : Names d p l :=
  ((locate_eq_ok_iff.1 found).2.target (by simp [Spot.entry?])).follows

theorem realNames_of_follows (follows : Follows d k (d.origin p) (Path.components p) l) :
    d.realNames p = Path.normalComponents true [] l := by
  have settled : Settled d [] := by
    intro link reached target met
    cases met
  have pending : Pending d k [] := by
    intro link target i m met
    cases met
  have enough : unmet d [] ≤ 2 * d.linkCount := Nat.le_of_eq (unmet_nil d)
  have arrives := resolve_of_follows (Path.isAbsolute p, d.origin p) settled enough pending follows
  simp only [realNames, arrives.reached]

end Arabize.Disk
