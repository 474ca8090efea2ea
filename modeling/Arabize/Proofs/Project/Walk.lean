import Arabize.Proofs.Disk.Linkless
import Arabize.Proofs.Project.Scan
import Arabize.Proofs.Text.Order

/-! # What a walk leaves out

A scan walks a tree and does not enter the directories that are excluded by their name, nor the
one of the program itself.  All that lies in them would be turned away by the check that each file
has to pass, so nothing is lost: a scan gives exactly the files of the whole tree that are of a
known kind and pass the check (`scan_exact`).

Each path that the walk comes to is the path of the root with names joined to it, and these names
are what its real path has behind that of the root.  So the directories that the walk would have to
enter for a file (`Open`) can be compared with what the check looks at.
-/

namespace Arabize.Project

open Disk (Passable Tree passable_append)
open Arabize.Path (IsName)

variable {d : Disk} {s : Search} {root tool p dir : Path} {excluded names : List Text}
  {name : Text} {loc : Location}

/-! ## Paths below a directory -/

/-- The path of what stands some names below a directory. -/
def pathBelow (dir : Path) (names : List Text) : Path := names.foldl Path.join dir

theorem pathBelow_concat (dir : Path) (names : List Text) (name : Text) :
    pathBelow dir (names ++ [name]) = Path.join (pathBelow dir names) name := by
  rw [pathBelow, List.foldl_append]
  rfl

theorem realNames_pathBelow (tree : Tree d) (absolute : Path.isAbsolute dir = true)
    (proper : ∀ name ∈ names, IsName name) :
    d.realNames (pathBelow dir names) = d.realNames dir ++ names := by
  induction names generalizing dir with
  | nil => exact (List.append_nil _).symm
  | cons name names ih =>
    obtain ⟨here, behind⟩ := List.forall_mem_cons.1 proper
    have onward := ih (Path.isAbsolute_join absolute name) behind
    rw [tree.realNames_join absolute here, List.append_assoc] at onward
    exact onward

theorem passable_join {q : Path} (first : Passable p) (second : Passable q) :
    Passable (Path.join p q) := by
  have both : Passable (p ++ q) := passable_append.2 ⟨first, second⟩
  have slashed : Passable (p ++ Path.slash :: q) :=
    passable_append.2 ⟨first, List.forall_mem_cons.2 ⟨by decide, second⟩⟩
  rw [Path.join]
  split
  · exact second
  · split
    · exact both
    · exact slashed

theorem passable_pathBelow (passable : Passable dir) (proper : ∀ name ∈ names, Passable name) :
    Passable (pathBelow dir names) := by
  induction names generalizing dir with
  | nil => exact passable
  | cons name names ih =>
    obtain ⟨here, behind⟩ := List.forall_mem_cons.1 proper
    exact ih (passable_join passable here) behind

/-! ## The files that a walk comes to -/

/-- A walk enters each directory on the way along some names, the last of which is that of a
    file. -/
def Open (d : Disk) (s : Search) : Path → List Text → Prop
  | _, [] => True
  | dir, name :: more => more ≠ [] →
    enters d s (Path.join dir name) name = true ∧ Open d s (Path.join dir name) more

/-- What a walk comes to under one name. -/
def filesUnder (d : Disk) (s : Search) (depth : Nat) (dir : Path) (loc : Location) (name : Text) :
    List Path :=
  match d.entry? (loc ++ [name]) with
  | some .directory =>
    if enters d s (Path.join dir name) name then
      filesBelow d s depth (Path.join dir name) (loc ++ [name])
    else []
  | some (.link _) => if d.isDirectory (Path.join dir name) then [] else [Path.join dir name]
  | some (.file _) => [Path.join dir name]
  | none => []

theorem filesBelow_succ (d : Disk) (s : Search) (depth : Nat) (dir : Path) (loc : Location) :
    filesBelow d s (depth + 1) dir loc = (d.namesIn loc).flatMap (filesUnder d s depth dir loc) :=
  rfl

/-- Under a name is the file of it, or there are the files of a directory that is entered. -/
theorem mem_filesUnder_iff (tree : Tree d) {depth : Nat} : p ∈ filesUnder d s depth dir loc name ↔
    (∃ bytes, d.entry? (loc ++ [name]) = some (.file bytes) ∧ p = Path.join dir name) ∨
      d.entry? (loc ++ [name]) = some .directory ∧
        enters d s (Path.join dir name) name = true ∧
        p ∈ filesBelow d s depth (Path.join dir name) (loc ++ [name]) := by
  unfold filesUnder
  cases there : d.entry? (loc ++ [name]) with
  | none => simp
  | some e =>
    cases e with
    | file bytes => simp
    | directory => simp
    | link target => exact absurd there (tree.entry?_ne_link _ target)

theorem mem_filesBelow_iff (tree : Tree d) {depth : Nat} : p ∈ filesBelow d s depth dir loc ↔
    ∃ names bytes, p = pathBelow dir names ∧ d.entry? (loc ++ names) = some (.file bytes) ∧
      names ≠ [] ∧ names.length ≤ depth ∧ Open d s dir names := by
  -- Each level of the walk is one name on the way, so the induction is on the levels left.
  induction depth generalizing dir loc with
  | zero =>
    refine iff_of_false List.not_mem_nil ?_
    rintro ⟨names, _, _, _, nonempty, short, _⟩
    exact nonempty (List.length_eq_zero_iff.1 (Nat.le_zero.1 short))
  | succ depth ih =>
    rw [filesBelow_succ, List.mem_flatMap]
    constructor
    · rintro ⟨name, _, under⟩
      rcases (mem_filesUnder_iff tree).1 under with ⟨bytes, file, rfl⟩ | ⟨_, entered, inside⟩
      · exact ⟨[name], bytes, rfl, file, List.cons_ne_nil _ _, Nat.succ_le_succ (Nat.zero_le _),
          fun more => absurd rfl more⟩
      · obtain ⟨names, bytes, rfl, file, _, short, onward⟩ := ih.1 inside
        rw [List.append_assoc] at file
        exact ⟨name :: names, bytes, rfl, file, List.cons_ne_nil _ _, Nat.succ_le_succ short,
          fun _ => ⟨entered, onward⟩⟩
    · rintro ⟨names, bytes, rfl, file, nonempty, short, onWay⟩
      obtain ⟨name, more, rfl⟩ := List.exists_cons_of_ne_nil nonempty
      rw [List.append_cons] at file
      refine ⟨name, Disk.mem_namesIn_iff.2 ?_, (mem_filesUnder_iff tree).2 ?_⟩
      · by_cases last : more = []
        · rw [last, List.append_nil] at file
          rw [file]
          rfl
        · rw [tree.directory_of_append file last]
          rfl
      · by_cases last : more = []
        · subst last
          rw [List.append_nil] at file
          exact .inl ⟨bytes, file, rfl⟩
        · obtain ⟨entered, onward⟩ := onWay last
          exact .inr ⟨tree.directory_of_append file last, entered,
            ih.2 ⟨more, bytes, rfl, file, last, Nat.le_of_succ_le_succ short, onward⟩⟩

/-- A walk comes to no path twice: the real path of each shows the way to it. -/
theorem nodup_filesBelow (tree : Tree d) (absolute : Path.isAbsolute dir = true)
    (here : d.realNames dir = loc) (depth : Nat) : (filesBelow d s depth dir loc).Nodup := by
  induction depth generalizing dir loc with
  | zero => exact List.nodup_nil
  | succ depth ih =>
    have named : ∀ name ∈ d.namesIn loc, IsName name := by
      intro name member
      obtain ⟨e, there⟩ := Option.isSome_iff_exists.1 (Disk.mem_namesIn_iff.1 member)
      exact (tree.names_of_present there name (by simp)).1
    -- Behind the real path of the directory stands the name that a path was found under.
    have way : ∀ name ∈ d.namesIn loc, ∀ p ∈ filesUnder d s depth dir loc name,
        ∃ more, d.realNames p = loc ++ name :: more := by
      intro name member p under
      have joined := tree.realNames_join absolute (named name member)
      rcases (mem_filesUnder_iff tree).1 under with ⟨bytes, file, rfl⟩ | ⟨_, _, inside⟩
      · exact ⟨[], by rw [joined, here]⟩
      · obtain ⟨names, bytes, rfl, file, _⟩ := (mem_filesBelow_iff tree).1 inside
        refine ⟨names, ?_⟩
        rw [realNames_pathBelow tree (Path.isAbsolute_join absolute name) fun n inside =>
          (tree.names_below file n inside).1, joined, here, List.append_assoc]
        rfl
    rw [filesBelow_succ, List.nodup_flatMap]
    refine ⟨fun name member => ?_, ?_⟩
    · unfold filesUnder
      split
      · split
        · refine ih (Path.isAbsolute_join absolute name) ?_
          rw [tree.realNames_join absolute (named name member), here]
        · exact List.nodup_nil
      · split
        · exact List.nodup_nil
        · exact List.nodup_singleton _
      · exact List.nodup_singleton _
      · exact List.nodup_nil
    · refine (tree.nodup_namesIn loc).pairwise_of_forall_ne fun a first b second differ => ?_
      intro p underA underB
      obtain ⟨_, wayA⟩ := way a first p underA
      obtain ⟨_, wayB⟩ := way b second p underB
      rw [wayA] at wayB
      exact differ (List.cons.inj (List.append_cancel_left wayB)).1

/-- A walk goes as deep as any location does. -/
theorem length_le_deepest {e : Entry} (there : d.entry? loc = some e) : loc.length ≤ deepest d := by
  have bound : ∀ (entries : List (Location × Entry)) (n : Nat),
      n ≤ entries.foldl (fun n e => max n e.1.length) n ∧
        ∀ e ∈ entries, e.1.length ≤ entries.foldl (fun n e => max n e.1.length) n := by
    intro entries
    induction entries with
    | nil => exact fun n => ⟨Nat.le_refl n, fun _ member => absurd member List.not_mem_nil⟩
    | cons first rest ih =>
      intro n
      obtain ⟨least, others⟩ := ih (max n first.1.length)
      refine ⟨Nat.le_trans (Nat.le_max_left _ _) least, fun e member => ?_⟩
      rcases List.mem_cons.1 member with rfl | inside
      · exact Nat.le_trans (Nat.le_max_right _ _) least
      · exact others e inside
  by_cases root : loc = []
  · subst root
    exact Nat.zero_le _
  · exact (bound d.entries 0).2 _ (Disk.mem_of_present there root)

/-! ## The files that are kept -/

theorem isWanted_eq_true_iff : isWanted d s p = .ok true ↔
    FileKind.ofPath p ≠ .unknown ∧ isExcluded d s.root s.tool s.excluded p = .ok false := by
  unfold isWanted
  split
  next unknown => simp [unknown]
  next known =>
    cases isExcluded d s.root s.tool s.excluded p with
    | error e => simp [Except.map]
    | ok answer => cases answer <;> simp [Except.map, known]

/-- Of paths that can be passed to the system the check can be made. -/
theorem isExcluded_of_passable (first : Passable root) (second : Passable tool)
    (passable : Passable p) (d : Disk) (excluded : List Text) :
    ∃ answer, isExcluded d root tool excluded p = .ok answer := by
  obtain ⟨inside, within⟩ := isWithin_of_passable passable first d
  obtain ⟨own, foreign⟩ := isWithin_of_passable passable second d
  unfold isExcluded
  simp only [within, foreign, bind, Except.bind, pure, Except.pure]
  cases inside with
  | false => exact ⟨_, rfl⟩
  | true => cases tool.isEmpty <;> cases own <;> exact ⟨_, rfl⟩

theorem isWanted_of_passable (first : Passable s.root) (second : Passable s.tool)
    (passable : Passable p) (d : Disk) : ∃ keep, isWanted d s p = .ok keep := by
  unfold isWanted
  split
  · exact ⟨false, rfl⟩
  · obtain ⟨answer, checked⟩ := isExcluded_of_passable first second passable d s.excluded
    exact ⟨!answer, by rw [checked]; rfl⟩

theorem wanted_of_clear {paths : List Path}
    (clear : ∀ p ∈ paths, ∃ keep, isWanted d s p = .ok keep) :
    ∃ found, wanted d s paths = .ok found ∧ found.Sublist paths ∧
      ∀ p, p ∈ found ↔ p ∈ paths ∧ isWanted d s p = .ok true := by
  induction paths with
  | nil => exact ⟨[], rfl, .slnil, by simp⟩
  | cons q rest ih =>
    obtain ⟨⟨keep, checked⟩, behind⟩ := List.forall_mem_cons.1 clear
    obtain ⟨found, given, sublist, content⟩ := ih behind
    -- The check of one path says whether it is put before what is found in the rest.
    refine ⟨if keep then q :: found else found, ?_, ?_, fun p => ?_⟩
    · simp only [wanted, checked, given, bind, Except.bind, pure, Except.pure]
    · cases keep with
      | true => exact sublist.cons_cons q
      | false => exact sublist.cons q
    · cases keep with
      | true =>
        simp only [if_true, List.mem_cons, content]
        constructor
        · rintro (rfl | ⟨inside, kept⟩)
          · exact ⟨.inl rfl, checked⟩
          · exact ⟨.inr inside, kept⟩
        · rintro ⟨rfl | inside, kept⟩
          · exact .inl rfl
          · exact .inr ⟨inside, kept⟩
      | false =>
        simp only [Bool.false_eq_true, if_false, List.mem_cons, content]
        constructor
        · rintro ⟨inside, kept⟩
          exact ⟨.inr inside, kept⟩
        · rintro ⟨rfl | inside, kept⟩
          · rw [checked] at kept
            cases kept
          · exact ⟨inside, kept⟩

/-! ## Nothing is lost -/

theorem between_of_names {below : List Text} (whole : d.realNames p = d.realNames root ++ below) :
    between d root p = below.dropLast := by
  rw [between, whole, List.drop_left]

/-- A walk enters each directory on the way to a file that passes the check. -/
theorem enters_of_included (tree : Tree d) (absolute : Path.isAbsolute s.root = true)
    {before after : List Text} (nonempty : after ≠ [])
    (proper : ∀ n ∈ before ++ name :: after, IsName n)
    (included : isExcluded d s.root s.tool s.excluded
      (pathBelow s.root (before ++ name :: after)) = .ok false) :
    enters d s (pathBelow s.root (before ++ [name])) name = true := by
  obtain ⟨inside, foreign, listed⟩ := isExcluded_eq_false_iff.1 included
  have below := ((isWithin_eq_ok_iff.1 inside).2.1 rfl).below
  have whole := realNames_pathBelow tree absolute proper
  have part : d.realNames (pathBelow s.root (before ++ [name])) =
      d.realNames s.root ++ (before ++ [name]) :=
    realNames_pathBelow tree absolute fun n member => proper n (by
      rw [List.append_cons]
      exact List.mem_append_left _ member)
  have notListed : name ∉ s.excluded := by
    intro member
    have onWay : name ∈ between d s.root (pathBelow s.root (before ++ name :: after)) := by
      rw [between_of_names whole, List.dropLast_append_of_ne_nil (List.cons_ne_nil _ _)]
      refine List.mem_append_right _ ?_
      cases after with
      | nil => exact absurd rfl nonempty
      | cons n after => exact List.mem_cons_self
    rw [(isSetAside_iff below).2 (.inl ⟨name, onWay, member⟩)] at listed
    cases listed
  have apart : s.tool = [] ∨
      d.realPath (pathBelow s.root (before ++ [name])) ≠ d.realPath s.tool := by
    refine foreign.imp id fun outside same => ?_
    have names := ofLocation_injective (Disk.isName_of_mem_realNames d _)
      (Disk.isName_of_mem_realNames d _) same
    -- The file lies below this directory, which is the program's own.
    have encloses : Encloses d s.tool (pathBelow s.root (before ++ name :: after)) := by
      refine .inr ⟨by rw [← names, part]; simp, ?_⟩
      rw [Below, ← names, part, whole]
      exact ⟨after, by simp⟩
    cases (isWithin_eq_ok_iff.1 outside).2.2 encloses
  rw [enters]
  rcases apart with toolless | differ
  · simp [notListed, toolless]
  · simp [notListed, differ]

theorem open_of_included (tree : Tree d) (absolute : Path.isAbsolute s.root = true)
    (before : List Text) {after : List Text} (proper : ∀ n ∈ before ++ after, IsName n)
    (included : isExcluded d s.root s.tool s.excluded
      (pathBelow s.root (before ++ after)) = .ok false) :
    Open d s (pathBelow s.root before) after := by
  induction after generalizing before with
  | nil => trivial
  | cons name after ih =>
    intro more
    rw [← pathBelow_concat]
    refine ⟨enters_of_included tree absolute more proper included, ih (before ++ [name]) ?_ ?_⟩
    · rwa [← List.append_cons]
    · rwa [← List.append_cons]

/-! ## What a scan gives -/

theorem isExcluded_congr_root {other : Path} (same : d.realNames root = d.realNames other)
    (first : Passable root) (second : Passable other) (tool : Path) (excluded : List Text)
    (p : Path) : isExcluded d root tool excluded p = isExcluded d other tool excluded p := by
  have within : isWithin d root p = isWithin d other p := by
    unfold isWithin
    rw [realPathOf_of_passable first, realPathOf_of_passable second, same]
  unfold isExcluded
  rw [within, isSetAside, isSetAside, same]

/-- The files that a scan has to give: all below the root that are of a known kind and pass the
    check, each by its absolute path. -/
def Lists (d : Disk) (s : Search) (loc : Location) (p : Path) : Prop :=
  ∃ names bytes, p = pathBelow (Path.absolute d.cwd s.root) names ∧
    d.entry? (loc ++ names) = some (.file bytes) ∧ FileKind.ofPath p ≠ .unknown ∧
    isExcluded d s.root s.tool s.excluded p = .ok false

theorem scan_lists (tree : Tree d) (rooted : Passable s.root) (own : Passable s.tool)
    (there : d.locate .target (Path.absolute d.cwd s.root) = .ok (.there loc .directory)) :
    ∃ found, scan d s = .ok (found, scanEntry (Path.absolute d.cwd s.root) found) ∧
      found.Pairwise (· < ·) ∧ ∀ p, p ∈ found ↔ Lists d s loc p := by
  let t : Search := { s with root := Path.absolute d.cwd s.root }
  have absolute : Path.isAbsolute t.root = true := tree.isAbsolute_absolute s.root
  have here : d.realNames t.root = loc := Disk.realNames_of_locate tree.grounded there
  have passable : Passable t.root := (Disk.locate_eq_ok_iff.1 there).1.1
  have check : ∀ p, isExcluded d t.root t.tool t.excluded p =
      isExcluded d s.root s.tool s.excluded p := fun p =>
    isExcluded_congr_root (tree.realNames_absolute s.root) passable rooted s.tool s.excluded p
  have root : d.entry? loc = some .directory := (tree.stands_of_locate there).1
  -- The check can be made of all that the walk comes to, so the walk does not fail.
  have clear : ∀ p ∈ filesBelow d t (deepest d + 1) t.root loc,
      ∃ keep, isWanted d t p = .ok keep := by
    intro p member
    obtain ⟨names, bytes, rfl, file, _⟩ := (mem_filesBelow_iff tree).1 member
    exact isWanted_of_passable passable own
      (passable_pathBelow passable fun n inside => (tree.names_below file n inside).2) d
  obtain ⟨found, given, sublist, content⟩ := wanted_of_clear clear
  refine ⟨Text.sort found, ?_, Text.pairwise_sort
    (sublist.nodup (nodup_filesBelow tree absolute here _)), fun p => ?_⟩
  · have listed : files d t = .ok (Text.sort found) := by
      simp only [files, show d.locate .target t.root = _ from there, given]
    unfold scan
    change (do
      let found ← files d t
      return (found, scanEntry t.root found)) = _
    rw [listed]
    rfl
  · rw [Text.mem_sort, content, mem_filesBelow_iff tree, isWanted_eq_true_iff, check]
    constructor
    · rintro ⟨⟨names, bytes, rfl, file, _⟩, known, included⟩
      exact ⟨names, bytes, rfl, file, known, included⟩
    · rintro ⟨names, bytes, rfl, file, known, included⟩
      have short : names.length ≤ deepest d + 1 := by
        have deep := length_le_deepest file
        rw [List.length_append] at deep
        omega
      have proper : ∀ n ∈ names, IsName n := fun n inside => (tree.names_below file n inside).1
      refine ⟨⟨names, bytes, rfl, file, Disk.ne_nil_of_file root file, short, ?_⟩, known, included⟩
      exact open_of_included (s := t) tree absolute [] proper ((check _).trans included)

/-- In a tree without links a scan gives, in strictly increasing order, the absolute paths of all
    files below its root that are of a known kind and that the check with the same root, the same
    directory of the program and the same excluded names does not exclude.  An empty path of that
    directory stands for none.  So no file is lost in the directories that are not entered, and
    none is given twice. -/
theorem scan_exact (tree : Tree d) (rooted : Passable s.root) (own : Passable s.tool)
    (there : d.locate .target (Path.absolute d.cwd s.root) = .ok (.there loc .directory)) :
    ∃ found entry, scan d s = .ok (found, entry) ∧ found.Pairwise (· < ·) ∧
      ∀ p, p ∈ found ↔ ∃ names bytes,
        p = names.foldl Path.join (Path.absolute d.cwd s.root) ∧
        d.entry? (loc ++ names) = some (.file bytes) ∧ FileKind.ofPath p ≠ .unknown ∧
        isExcluded d s.root s.tool s.excluded p = .ok false := by
  obtain ⟨found, given, sorted, content⟩ := scan_lists tree rooted own there
  exact ⟨found, _, given, sorted, content⟩

theorem tree_moduleSite : Tree moduleSite where
  rooted := by decide
  home := by decide
  unique := by decide
  named := by decide
  inside := by decide
  linkless := by decide

/-- A scan of a project with the program in it gives the file beside the program's directory, and
    not the one inside it. -/
theorem scan_exact_moduleSite :
    (Tree moduleSite ∧ Passable openSearch.root ∧ Passable openSearch.tool ∧
      moduleSite.locate .target (Path.absolute moduleSite.cwd openSearch.root) =
        .ok (.there [Text.ofString "site"] .directory)) ∧
    ∃ found entry, scan moduleSite openSearch = .ok (found, entry) ∧
      Text.ofString "/site/dist/home.json" ∈ found ∧
      Text.ofString "/site/tool/page.json" ∉ found := by
  have rooted : Passable openSearch.root := by decide
  have own : Passable openSearch.tool := by decide
  have there : moduleSite.locate .target (Path.absolute moduleSite.cwd openSearch.root) =
      .ok (.there [Text.ofString "site"] .directory) := by cbv
  obtain ⟨found, entry, given, _, exactly⟩ := scan_exact tree_moduleSite rooted own there
  refine ⟨⟨tree_moduleSite, rooted, own, there⟩, found, entry, given, ?_, ?_⟩
  · refine (exactly _).2 ⟨[Text.ofString "dist", Text.ofString "home.json"], [0x31], by cbv,
      by decide, ?_, by cbv⟩
    have kind : FileKind.ofPath (Text.ofString "/site/dist/home.json") = .document .json := by
      decide
    rw [kind]
    exact FileKind.noConfusion
  · intro member
    obtain ⟨_, _, _, _, _, included⟩ := (exactly _).1 member
    have turnedAway : isExcluded moduleSite openSearch.root openSearch.tool openSearch.excluded
        (Text.ofString "/site/tool/page.json") = .ok true := by cbv
    rw [turnedAway] at included
    cases included

end Arabize.Project
