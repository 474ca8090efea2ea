import Arabize.Proofs.Disk.Crossing

/-! # Real paths on other disks

A real path depends only on the links that its path leads over.  A resolution may stop early
where too many links stand inside one another; but only as many can as there are links that
nothing is known of yet, so with that many allowed it never does, and what a disk has of
other links does not matter.
-/

namespace Arabize.Disk

variable {d c : Disk} {depth : Nat} {start : Reached} {rest : List Text} {known : Known}

/-! ## Steps -/

section Steps

variable {name : Text} {more : List Text} {target : Path} {reached : Reached} {r : Resolution}

/-- What the target of a link is resolved from. -/
def onto (target : Path) (start : Reached) : Reached :=
  if Path.isAbsolute target then (true, []) else start

theorem onto_snd (target : Path) (start : Reached) :
    (onto target start).2 = base target start.2 := by
  unfold onto base
  split <;> rfl

theorem resolve_skip (skipped : name = [] ∨ name = Path.here) :
    d.resolve depth start (name :: more) known = d.resolve depth start more known := by
  rw [resolve, if_pos skipped]

theorem resolve_up :
    d.resolve depth start (Path.up :: more) known =
      d.resolve depth (start.1, start.2.dropLast) more known := by
  rw [resolve, if_neg (by decide), if_pos rfl]

theorem resolve_past (named : ¬ (name = [] ∨ name = Path.here)) (other : name ≠ Path.up)
    (free : d.link? (start.2 ++ [name]) = none) :
    d.resolve depth start (name :: more) known =
      d.resolve depth (start.1, start.2 ++ [name]) more known := by
  rw [resolve, if_neg named, if_neg other]
  simp only [free]

/-- A link that was met before leads where it led then. -/
theorem resolve_met (named : ¬ (name = [] ∨ name = Path.here)) (other : name ≠ Path.up)
    (link : d.link? (start.2 ++ [name]) = some target)
    (met : known? (start.1, start.2 ++ [name]) known = some (some reached)) :
    d.resolve depth start (name :: more) known = d.resolve depth reached more known := by
  rw [resolve, if_neg named, if_neg other]
  simp only [link, met]

theorem resolve_circle (named : ¬ (name = [] ∨ name = Path.here)) (other : name ≠ Path.up)
    (link : d.link? (start.2 ++ [name]) = some target)
    (met : known? (start.1, start.2 ++ [name]) known = some none) :
    d.resolve depth start (name :: more) known =
      ⟨(start.1, start.2 ++ [name] ++ more), false, known⟩ := by
  rw [resolve, if_neg named, if_neg other]
  simp only [link, met]

theorem resolve_exhausted (named : ¬ (name = [] ∨ name = Path.here)) (other : name ≠ Path.up)
    (link : d.link? (start.2 ++ [name]) = some target)
    (fresh : known? (start.1, start.2 ++ [name]) known = none) :
    d.resolve 0 start (name :: more) known =
      ⟨(start.1, start.2 ++ [name] ++ more), false, known⟩ := by
  rw [resolve, if_neg named, if_neg other]
  simp only [link, fresh]

/-- A link that is met for the first time leads where its target does, if that can be finished. -/
theorem resolve_along (named : ¬ (name = [] ∨ name = Path.here)) (other : name ≠ Path.up)
    (link : d.link? (start.2 ++ [name]) = some target)
    (fresh : known? (start.1, start.2 ++ [name]) known = none)
    (target_ends : d.resolve depth (onto target start) (Path.components target)
      (((start.1, start.2 ++ [name]), none) :: known) = r) :
    d.resolve (depth + 1) start (name :: more) known =
      if r.finished then
        d.resolve depth r.reached more (((start.1, start.2 ++ [name]), some r.reached) :: r.known)
      else ⟨(r.reached.1, r.reached.2 ++ more), false, r.known⟩ := by
  subst target_ends
  rw [resolve, if_neg named, if_neg other]
  simp only [link, fresh]
  rfl

end Steps

/-! ## Links that are known -/

@[simp] theorem known?_nil (link : Reached) : known? link [] = none := rfl

theorem known?_cons (link l : Reached) (r : Option Reached) (known : Known) :
    known? link ((l, r) :: known) = if l = link then some r else known? link known := rfl

/-- What is known of links is right: on from the end of a link is on along its target. -/
def Sound (d : Disk) (known : Known) : Prop :=
  ∀ link reached, known? link known = some (some reached) →
    ∀ target, d.link? link.2 = some target → ∀ more l, Crosses d reached.2 more l →
      Crosses d (base target link.2.dropLast) (Path.components target ++ more) l

theorem sound_nil (d : Disk) : Sound d [] := by
  intro link reached found
  cases found

theorem Sound.opened (sound : Sound d known) (next : Reached) : Sound d ((next, none) :: known) := by
  intro link reached met
  rw [known?_cons] at met
  split at met
  · cases met
  · exact sound link reached met

theorem Sound.closed (sound : Sound d known) {next reached : Reached} {target : Path}
    (link : d.link? next.2 = some target)
    (along : ∀ more l, Crosses d reached.2 more l →
      Crosses d (base target next.2.dropLast) (Path.components target ++ more) l) :
    Sound d ((next, some reached) :: known) := by
  intro link' reached' met target' there more l onWay
  rw [known?_cons] at met
  split at met
  next same =>
    subst same
    cases met
    rw [link] at there
    cases there
    exact along more l onWay
  next => exact sound link' reached' met target' there more l onWay

/-- A finished resolution has led where the way goes on. -/
def Continues (d : Disk) (start : Reached) (rest : List Text) (r : Resolution) : Prop :=
  r.finished = true → ∀ more l, Crosses d r.reached.2 more l → Crosses d start.2 (rest ++ more) l

/-- On from where the target of a link ends is on along the target. -/
theorem Continues.along {target : Path} {r : Resolution}
    (onward : Continues d (onto target start) (Path.components target) r)
    (finished : r.finished = true) (more : List Text) (l : Location)
    (onWay : Crosses d r.reached.2 more l) :
    Crosses d (base target start.2) (Path.components target ++ more) l := by
  rw [← onto_snd]
  exact onward finished more l onWay

theorem resolve_continues (depth : Nat) (start : Reached) (rest : List Text)
    (sound : Sound d known) :
    Sound d (d.resolve depth start rest known).known ∧
      Continues d start rest (d.resolve depth start rest known) := by
  fun_induction d.resolve depth start rest known with
  | case1 => exact ⟨sound, fun _ _ _ crosses => crosses⟩
  | case2 depth start known name more skipped ih =>
    obtain ⟨right, onward⟩ := ih sound
    exact ⟨right, fun finished _ l onWay => .skip skipped (onward finished _ l onWay)⟩
  | case3 depth start known more named ih =>
    obtain ⟨right, onward⟩ := ih sound
    exact ⟨right, fun finished _ l onWay => .up (onward finished _ l onWay)⟩
  | case4 depth start known name more named other next free ih =>
    obtain ⟨right, onward⟩ := ih sound
    exact ⟨right, fun finished _ l onWay => .past named other free (onward finished _ l onWay)⟩
  | case5 depth start known name more named other next target link reached met ih =>
    obtain ⟨right, onward⟩ := ih sound
    refine ⟨right, fun finished after l onWay => .along named other link ?_⟩
    have along := sound next reached met target link _ l (onward finished after l onWay)
    rwa [List.dropLast_concat] at along
  | case6 | case7 => exact ⟨sound, fun same => by cases same⟩
  | case8 start known name more named other next target link unmet k r finished inner _ outer =>
    obtain ⟨right, onward⟩ := inner (sound.opened next)
    have along := Continues.along onward finished
    obtain ⟨last, behind⟩ := outer (right.closed link (by rwa [List.dropLast_concat]))
    exact ⟨last, fun finished' after l onWay =>
      .along named other link (along _ l (behind finished' after l onWay))⟩
  | case9 start known name more named other next target link unmet k r stuck inner =>
    exact ⟨(inner (sound.opened next)).1, fun same => by cases same⟩

/-- A resolution only looks at the links that its way leads over. -/
theorem resolve_congr (sound : Sound d known)
    (same : ∀ l, Crosses d start.2 rest l → d.link? l = c.link? l) :
    d.resolve depth start rest known = c.resolve depth start rest known := by
  fun_induction d.resolve depth start rest known with
  | case1 => rw [resolve]
  | case2 depth start known name more skipped ih =>
    rw [resolve_skip skipped]
    exact ih sound fun l onWay => same l (.skip skipped onWay)
  | case3 depth start known more named ih =>
    rw [resolve_up]
    exact ih sound fun l onWay => same l (.up onWay)
  -- From here on, the name is looked up, and it is the same link on both disks, or on none.
  | case4 depth start known name more named other next free ih =>
    have there := (same _ (.here named other)).symm.trans free
    rw [resolve_past named other there]
    exact ih sound fun l onWay => same l (.past named other free onWay)
  | case5 depth start known name more named other next target link reached met ih =>
    have there := (same _ (.here named other)).symm.trans link
    rw [resolve_met named other there met]
    refine ih sound fun l onWay => same l (.along named other link ?_)
    have along := sound next reached met target link _ l onWay
    rwa [List.dropLast_concat] at along
  | case6 depth start known name more named other next target link met =>
    have there := (same _ (.here named other)).symm.trans link
    rw [resolve_circle named other there met]
  | case7 start known name more named other next target link unmet =>
    have there := (same _ (.here named other)).symm.trans link
    rw [resolve_exhausted named other there unmet]
  | case8 start known name more named other next target link unmet k r finished inner _ outer =>
    have there := (same _ (.here named other)).symm.trans link
    obtain ⟨right, onward⟩ := resolve_continues k (onto target start) (Path.components target)
      (sound.opened next)
    have along := onward.along finished
    have first := inner (sound.opened next) fun l onWay =>
      same l (.along named other link (onto_snd target start ▸ onWay).append)
    have second := outer (right.closed link (by rwa [List.dropLast_concat])) fun l onWay =>
      same l (.along named other link (along more l onWay))
    rw [resolve_along named other there unmet first.symm, if_pos finished, second]
  | case9 start known name more named other next target link unmet k r stuck inner =>
    have there := (same _ (.here named other)).symm.trans link
    have first := inner (sound.opened next) fun l onWay =>
      same l (.along named other link (onto_snd target start ▸ onWay).append)
    rw [resolve_along named other there unmet first.symm, if_neg stuck]

/-! ## Links inside one another -/

/-- The links of a disk, each as it is reached from the root and from the current directory. -/
def reachable (d : Disk) : List Reached :=
  d.entries.flatMap fun e => match e.2 with
    | .link _ => [(true, e.1), (false, e.1)]
    | _ => []

theorem length_reachable (d : Disk) : d.reachable.length = 2 * d.linkCount := by
  unfold reachable linkCount
  induction d.entries with
  | nil => rfl
  | cons e rest ih =>
    rw [List.flatMap_cons, List.length_append, ih]
    cases kind : e.2 with
    | link target =>
      rw [List.filter_cons_of_pos (by simp [kind])]
      simp only [List.length_cons, List.length_nil]
      omega
    | file bytes =>
      rw [List.filter_cons_of_neg (by simp [kind])]
      simp
    | directory =>
      rw [List.filter_cons_of_neg (by simp [kind])]
      simp

theorem mem_reachable {link : Reached} {target : Path} (there : d.link? link.2 = some target) :
    link ∈ d.reachable := by
  have entry := link?_eq_some_iff.1 there
  unfold entry? at entry
  split at entry
  · cases entry
  · refine List.mem_flatMap.2 ⟨_, mem_of_entryIn? entry, ?_⟩
    obtain ⟨absolute, l⟩ := link
    cases absolute <;> simp

theorem link?_of_linkCount (free : d.linkCount = 0) (l : Location) : d.link? l = none := by
  have empty : d.reachable = [] := by
    rw [← List.length_eq_zero_iff, length_reachable, free]
  cases there : d.link? l with
  | none => rfl
  | some target =>
    have member : (true, l) ∈ d.reachable := mem_reachable there
    rw [empty] at member
    cases member

/-- How many links nothing is known of. -/
def unmet (d : Disk) (known : Known) : Nat :=
  d.reachable.countP fun link => (known? link known).isNone

theorem unmet_nil (d : Disk) : unmet d [] = 2 * d.linkCount := by
  rw [← length_reachable]
  exact List.countP_eq_length.2 fun _ _ => rfl

theorem countP_lt {α : Type} {p q : α → Bool} {l : List α} {x : α} (member : x ∈ l)
    (implies : ∀ y, q y = true → p y = true) (holds : p x = true) (fails : q x = false) :
    l.countP q < l.countP p := by
  have mono := fun l : List α => List.countP_mono_left (l := l) fun y _ => implies y
  induction l with
  | nil => cases member
  | cons y rest ih =>
    rw [List.countP_cons, List.countP_cons]
    rcases List.mem_cons.1 member with rfl | behind
    · have bound := mono rest
      rw [holds, fails]
      simp only [if_true, Bool.false_eq_true, if_false]
      omega
    · have bound := ih behind
      by_cases here : q y = true
      · rw [if_pos here, if_pos (implies y here)]
        omega
      · rw [if_neg here]
        omega

/-- A link that something is known of is known for good. -/
def Grows (known more : Known) : Prop := ∀ link, known? link known ≠ none → known? link more ≠ none

theorem Grows.trans {first second third : Known} (grows : Grows first second)
    (further : Grows second third) : Grows first third :=
  fun link met => further link (grows link met)

theorem grows_cons (known : Known) (link : Reached) (r : Option Reached) :
    Grows known ((link, r) :: known) := by
  intro other met
  rw [known?_cons]
  split
  · exact Option.some_ne_none r
  · exact met

theorem unmet_lt {more : Known} {next : Reached} {target : Path}
    (there : d.link? next.2 = some target) (fresh : known? next known = none)
    (grows : Grows known more) (met : known? next more ≠ none) :
    unmet d more < unmet d known := by
  refine countP_lt (mem_reachable there) (fun link unknown => ?_) ?_ ?_
  · rw [Option.isNone_iff_eq_none] at unknown ⊢
    exact Classical.byContradiction fun met => grows link met unknown
  · rw [fresh]
    rfl
  · exact Option.isNone_eq_false_iff.2 (Option.isSome_iff_ne_none.2 met)

/-- One link less is unmet once a link is open. -/
theorem unmet_opened {next : Reached} {target : Path} (there : d.link? next.2 = some target)
    (fresh : known? next known = none) : unmet d ((next, none) :: known) < unmet d known :=
  unmet_lt there fresh (grows_cons known next none) (by simp [known?_cons])

/-- And it is not unmet again when it is closed, whatever else has become known. -/
theorem unmet_closed {more : Known} {next : Reached} {target : Path}
    (there : d.link? next.2 = some target) (fresh : known? next known = none)
    (grows : Grows ((next, none) :: known) more) (reached : Reached) :
    unmet d ((next, some reached) :: more) < unmet d known :=
  unmet_lt there fresh (((grows_cons known next none).trans grows).trans (grows_cons more next _))
    (by simp [known?_cons])

theorem resolve_grows : Grows known (d.resolve depth start rest known).known := by
  fun_induction d.resolve depth start rest known with
  | case1 | case6 | case7 => exact fun _ met => met
  | case2 _ _ _ _ _ _ ih | case3 _ _ _ _ _ ih | case4 _ _ _ _ _ _ _ _ _ ih
  | case5 _ _ _ _ _ _ _ _ _ _ _ _ ih => exact ih
  | case8 start known name more named other next target link unmet k r finished inner _ outer =>
    exact ((grows_cons known next none).trans inner).trans ((grows_cons _ next _).trans outer)
  | case9 start known name more named other next target link unmet k r stuck inner =>
    exact (grows_cons known next none).trans inner

/-- It does not matter how many links may stand inside one another if it is enough for all
    that nothing is known of. -/
theorem resolve_depth (enough : unmet d known ≤ depth) :
    ∀ other, unmet d known ≤ other →
      d.resolve depth start rest known = d.resolve other start rest known := by
  fun_induction d.resolve depth start rest known with
  | case1 => exact fun other _ => by rw [resolve]
  | case2 depth start known name more skipped ih =>
    intro other also
    rw [resolve_skip skipped]
    exact ih enough other also
  | case3 depth start known more named ih =>
    intro other also
    rw [resolve_up]
    exact ih enough other also
  | case4 depth start known name more named notUp next free ih =>
    intro other also
    rw [resolve_past named notUp free]
    exact ih enough other also
  | case5 depth start known name more named notUp next target link reached met ih =>
    intro other also
    rw [resolve_met named notUp link met]
    exact ih enough other also
  | case6 depth start known name more named notUp next target link met =>
    intro other also
    rw [resolve_circle named notUp link met]
  -- There is a link that nothing is known of, so the depth is not used up.
  | case7 start known name more named notUp next target link fresh =>
    intro other also
    have fewer := unmet_opened link fresh
    omega
  | case8 start known name more named notUp next target link fresh k r finished inner _ outer =>
    intro other also
    have fewer := unmet_opened link fresh
    have grows : Grows ((next, none) :: known) r.known := resolve_grows
    have fewest := unmet_closed link fresh grows r.reached
    obtain ⟨j, rfl⟩ : ∃ j, other = j + 1 := ⟨other - 1, by omega⟩
    have first := inner (by omega) j (by omega)
    have second := outer (by omega) j (by omega)
    rw [resolve_along named notUp link fresh first.symm, if_pos finished, second]
  | case9 start known name more named notUp next target link fresh k r stuck inner =>
    intro other also
    have fewer := unmet_opened link fresh
    obtain ⟨j, rfl⟩ : ∃ j, other = j + 1 := ⟨other - 1, by omega⟩
    have first := inner (by omega) j (by omega)
    rw [resolve_along named notUp link fresh first.symm, if_neg stuck]

/-! ## Real paths -/

/-- The real path of a path is the same on all disks with the same links on its way. -/
theorem realNames_congr {p : Path} (cwd : c.cwd = d.cwd)
    (same : ∀ l, Crosses d (d.origin p) (Path.components p) l → d.link? l = c.link? l) :
    d.realNames p = c.realNames p := by
  have origin : c.origin p = d.origin p := by
    rw [Disk.origin, Disk.origin, cwd]
  have depth : ∀ b : Disk, ∀ more, b.resolve (2 * b.linkCount) (Path.isAbsolute p, b.origin p)
      (Path.components p) [] = b.resolve (2 * b.linkCount + more) (Path.isAbsolute p, b.origin p)
        (Path.components p) [] := fun b more =>
    resolve_depth (Nat.le_of_eq (unmet_nil b)) _ (by rw [unmet_nil]; omega)
  unfold realNames
  dsimp only
  rw [depth d (2 * c.linkCount), depth c (2 * d.linkCount), Nat.add_comm (2 * c.linkCount), origin,
    resolve_congr (sound_nil d) same]

end Arabize.Disk
