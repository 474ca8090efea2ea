import Arabize.Proofs.Batch.Originals
import Arabize.Proofs.Batch.Silence
import Arabize.Proofs.Disk.TreeSteps
import Arabize.Proofs.Project.Renditions
import Mathlib.Data.List.Sort

/-! # A run does not show in a scan

A run over a tree without links leaves a tree without links (`remains_run`), one change of the disk
after the other: each directory that is made, each file that is written, and the hand-off file that
is taken away.

The files that may be other ones then are renditions and the two files of words.  A scan gives no
rendition, and as long as the files of words lie outside the project, or in the program's own
directory, none of them either.  So what a scan gives before a run it gives after it
(`renditions_unseen`).
-/

namespace Arabize

open Disk (Names Passable Remains SameAt Tree)
open Project (Encloses)
open Arabize.Path (IsName)

/-! ## What remains of a tree -/

namespace Store

variable {d : Disk}

theorem remains_write (tree : Tree d) (p : Path) (m : Mapping Json) :
    Remains d (write p m d).2 := by
  have first := Disk.remains_makeDirectories tree (directoryOf p)
  rcases directories : Disk.makeDirectories (directoryOf p) d with ⟨e | _, made⟩ <;>
    rw [directories] at first
  · rw [write, bind_of_error directories]
    exact first
  · rw [write, bind_of_ok directories]
    exact first.trans (Disk.remains_writePieces first.tree p _)

theorem remains_deleteHandOff (tree : Tree d) (p : Path) : Remains d (deleteHandOff p d).2 := by
  have removed := Disk.remains_remove tree p
  unfold deleteHandOff
  split
  next done =>
    rw [done] at removed
    exact removed
  · exact removed

end Store

namespace Project

variable {d : Disk}

theorem remains_write (tree : Tree d) (root p : Path) (content : Text) :
    Remains d (write root p content d).2 := by
  rcases passed : checkTarget root p d with ⟨e | _, same⟩
  · obtain rfl : same = d := by rw [← checkTarget_disk root p d, passed]
    rw [write_eq, bind_of_error passed]
    exact .refl tree
  · obtain rfl : same = d := by rw [← checkTarget_disk root p d, passed]
    rw [write_eq, bind_of_ok passed, place]
    have first := Disk.remains_makeDirectories tree (Path.directory (Path.absolute same.cwd p))
    rcases directories : Disk.makeDirectories (Path.directory (Path.absolute same.cwd p)) same with
      ⟨e | _, made⟩ <;> rw [directories] at first
    · have failed : onDisk (Disk.makeDirectories (Path.directory (Path.absolute same.cwd p))) same =
          (.error (.access e), made) := by
        simp only [onDisk, directories]
      rw [bind_of_error failed]
      exact first
    · have done : onDisk (Disk.makeDirectories (Path.directory (Path.absolute same.cwd p))) same =
          (.ok (), made) := by
        simp only [onDisk, directories]
      rw [bind_of_ok done]
      have second := Disk.remains_writePieces first.tree p [content]
      refine first.trans ?_
      unfold onDisk Disk.writeText
      rcases written : Disk.writePieces p [content] made with ⟨e | _, left⟩ <;>
        rw [written] at second <;> exact second

end Project

namespace Batch

variable {σ : Type} {s : Settings} {mirror : Option Mirror} {words : Vocabulary} {p q : Path}
  {paths : List Path} {b turn : Bench} {l : Location} {a : Assistant σ} {session : Session σ}

theorem remains_leftBehind {d : Disk} (tree : Tree d) (words : Missing.Words) (h : Path) :
    Remains d (leftBehind words h d) := by
  have saved := Store.remains_write tree h
    (Mapping.ofPairs ((Text.sort words).map fun w => (w, .str [])))
  exact saved.trans (Store.remains_deleteHandOff saved.tree h)

theorem remains_prepare [Script.Parser] [Lexicon.Bundle] (tree : Tree session.disk) (s : Settings)
    (a : Assistant σ)
    (paths : List Path) : Remains session.disk (prepare s a paths session).2.disk := by
  rcases prepare_disk a session paths with same | ⟨h, words, _, same | ⟨file, m, _, same⟩⟩
  · rw [same]
    exact .refl tree
  · rw [same]
    exact remains_leftBehind tree words h
  · rw [same]
    have left := remains_leftBehind tree words h
    exact left.trans (Store.remains_write left.tree file m)

/-- A turn leaves the disk as it is, or as the writing of a rendition leaves it. -/
theorem outcome_disk [Script.Parser] (s : Settings) (mirror : Option Mirror) (words : Vocabulary)
    (p : Path) (b : Bench) : (outcome s mirror words p b).2.disk = b.disk ∨
      ∃ content, (outcome s mirror words p b).2.disk =
        (Project.write s.projectRoot (Path.rendition p) content b.disk).2 := by
  have settled : ∀ t run, (settle s p t ⟨b.disk, run⟩).2.disk = b.disk ∨
      ∃ content, (settle s p t ⟨b.disk, run⟩).2.disk =
        (Project.write s.projectRoot (Path.rendition p) content b.disk).2 := by
    intro t run
    unfold settle
    split
    · exact .inl rfl
    next content _ =>
      refine .inr ⟨content, ?_⟩
      dsimp only
      split <;> next written => rw [written]
  have rendered : (render s mirror words p b).2.disk = b.disk ∨
      ∃ content, (render s mirror words p b).2.disk =
        (Project.write s.projectRoot (Path.rendition p) content b.disk).2 := by
    rw [render_eq]
    split
    · exact .inl rfl
    · split
      · exact .inl rfl
      · exact settled _ _
  unfold outcome
  rcases done : render s mirror words p b with ⟨e | o, next⟩ <;> rw [done] at rendered
  · dsimp only
    split <;> exact rendered
  · exact rendered

theorem remains_outcome [Script.Parser] (tree : Tree b.disk) (s : Settings) (mirror : Option Mirror)
    (words : Vocabulary) (p : Path) : Remains b.disk (outcome s mirror words p b).2.disk := by
  rcases outcome_disk s mirror words p b with same | ⟨content, same⟩
  · rw [same]
    exact .refl tree
  · rw [same]
    exact Project.remains_write tree _ _ content

theorem remains_outcomes [Script.Parser] (tree : Tree b.disk) (s : Settings)
    (mirror : Option Mirror) (words : Vocabulary) (paths : List Path) :
    Remains b.disk (outcomes s mirror words paths b).2.disk := by
  induction paths generalizing b with
  | nil => exact .refl tree
  | cons p rest ih =>
    have here := remains_outcome tree s mirror words p
    rw [outcomes_cons_disk]
    rcases first : outcome s mirror words p b with ⟨e | o, next⟩ <;> rw [first] at here
    · exact here
    · exact here.trans (ih here.tree)

/-- A run leaves a tree a tree. -/
theorem remains_run [Script.Parser] [Lexicon.Bundle] (tree : Tree session.disk) (s : Settings)
    (mirror : Option Mirror) (a : Assistant σ) (paths : List Path) :
    Remains session.disk (run s mirror a paths session).2.disk := by
  have prepared := remains_prepare tree s a paths
  rw [run_eq]
  rcases done : prepare s a paths session with ⟨e | preparation, ready⟩ <;> rw [done] at prepared
  · rw [bind_of_error done]
    exact prepared
  · rw [bind_of_ok done, afterwards_disk]
    exact prepared.trans (remains_outcomes (b := bench paths ready) prepared.tree s mirror _ _)

end Batch

/-! ## Real paths in a tree -/

theorem Disk.Tree.getLast?_realNames {d : Disk} {p : Path} (tree : Tree d)
    (named : IsName (Path.baseName p)) : (d.realNames p).getLast? = some (Path.baseName p) := by
  obtain ⟨init, whole⟩ := Path.components_baseName p
  rw [tree.realNames_eq, whole, Path.normalComponents_concat named, List.getLast?_concat]

theorem Disk.Tree.realNames_of_names {d : Disk} {p : Path} {l : Location} (tree : Tree d)
    (names : Names d p l) : d.realNames p = l := by
  obtain ⟨k, follows⟩ := names
  have proper := follows.isName (tree.grounded.origin p) (Disk.slashless_components p)
  rw [Disk.realNames_of_follows follows, Path.normalComponents_of_names proper]
  rfl

/-! ## Scans of what remains -/

namespace Project

variable {d c : Disk} {s : Search} {root p q : Path} {loc l : Location}

theorem encloses_congr (same : d.realNames p = d.realNames q) :
    Encloses d root p ↔ Encloses d root q := by
  rw [Encloses, Encloses, Below, Below, same]

theorem getLast?_realNames_pathBelow {dir : Path} {names : List Text} (tree : Tree d)
    (absolute : Path.isAbsolute dir = true) (proper : ∀ name ∈ names, IsName name)
    (nonempty : names ≠ []) :
    (d.realNames (pathBelow dir names)).getLast? = some (Path.baseName (pathBelow dir names)) := by
  rw [realNames_pathBelow tree absolute proper]
  obtain ⟨init, last, rfl⟩ := (List.eq_nil_or_concat' names).resolve_left nonempty
  rw [pathBelow_concat, Path.baseName_join (proper last (by simp)), ← List.append_assoc,
    List.getLast?_concat]

/-- A scan gives what it gave before if the files are the same wherever the check lets a file
    through by its own name. -/
theorem scan_of_remains (tree : Tree d) (remains : Remains d c) (rooted : Passable s.root)
    (own : Passable s.tool)
    (there : d.locate .target (Path.absolute d.cwd s.root) = .ok (.there loc .directory))
    (same : ∀ p, isExcluded d s.root s.tool s.excluded p = .ok false →
      (d.realNames p).getLast? = some (Path.baseName p) → SameAt d c (d.realNames p)) :
    scan c s = scan d s := by
  have cwd := remains.keeps.cwd
  have links : ∀ k, c.link? k = d.link? k := fun k =>
    (remains.tree.link? k).trans (tree.link? k).symm
  have still : c.locate .target (Path.absolute c.cwd s.root) = .ok (.there loc .directory) := by
    obtain ⟨walkable, leads⟩ := Disk.locate_eq_ok_iff.1 there
    rw [cwd]
    refine Disk.locate_eq_ok_iff.2 ⟨walkable, ?_⟩
    rw [Disk.origin_congr cwd]
    exact leads.directory_of_keeps remains.keeps
  have directory : d.entry? loc = some .directory := (tree.stands_of_locate there).1
  have here := Disk.realNames_of_locate tree.grounded there
  -- A file on either disk that passes the check is one on both.
  have both : ∀ names, (∀ name ∈ names, IsName name) → names ≠ [] →
      isExcluded d s.root s.tool s.excluded
        (pathBelow (Path.absolute d.cwd s.root) names) = .ok false →
      ∀ bytes, c.entry? (loc ++ names) = some (.file bytes) ↔
        d.entry? (loc ++ names) = some (.file bytes) := by
    intro names proper nonempty included
    have absolute := tree.isAbsolute_absolute s.root
    have real := realNames_pathBelow tree absolute proper
    rw [here, Disk.Spot.location] at real
    rw [← real]
    exact same _ included (getLast?_realNames_pathBelow tree absolute proper nonempty)
  have lists : ∀ p, Lists c s loc p ↔ Lists d s loc p := by
    intro p
    simp only [Lists, cwd, isExcluded_links cwd links]
    constructor
    · rintro ⟨names, bytes, rfl, file, known, included⟩
      have proper := fun name inside => (remains.tree.names_below file name inside).1
      have nonempty := Disk.ne_nil_of_file (remains.keeps.directory directory) file
      exact ⟨names, bytes, rfl, (both names proper nonempty included bytes).1 file, known, included⟩
    · rintro ⟨names, bytes, rfl, file, known, included⟩
      have proper := fun name inside => (tree.names_below file name inside).1
      have nonempty := Disk.ne_nil_of_file directory file
      exact ⟨names, bytes, rfl, (both names proper nonempty included bytes).2 file, known, included⟩
  obtain ⟨found, given, increasing, content⟩ := scan_lists tree rooted own there
  obtain ⟨again, later, sorted, holds⟩ := scan_lists remains.tree rooted own still
  have equal : again = found := sorted.eq_of_mem_iff increasing fun p => by
    rw [holds, content, lists]
  rw [given, later, equal, cwd]

end Project

namespace Batch

variable {σ : Type} {s : Settings} {mirror : Option Mirror} {p q : Path} {paths : List Path}
  {l : Location} {a : Assistant σ} {session : Session σ}

/-- What a rendition is opened at in a run over a tree has the name of a rendition. -/
theorem OpenedInRun.named [Script.Parser] [Lexicon.Bundle]
    (opened : OpenedInRun s mirror a paths session q l)
    (tree : Tree session.disk) : l.getLast? = some (Path.baseName (Path.rendition q)) ∧
      Path.isRendition (Path.rendition q) = true := by
  obtain ⟨words, turn, ⟨preparation, ready, done, rfl, before, behind, _, os, rendered⟩, writes⟩ :=
    opened
  have named := writes.isRendition
  obtain ⟨content, made, _, opens⟩ := writes
  have prepared := remains_prepare tree s a paths
  rw [done] at prepared
  have turned := remains_outcomes (b := bench paths ready) prepared.tree s mirror
    preparation.vocabulary before
  rw [rendered] at turned
  refine ⟨?_, named⟩
  rw [opens.location turned.tree.grounded]
  exact turned.tree.getLast?_realNames (Path.isName_of_isRendition named)

/-- A run over any paths leaves a scan as it was, as long as the files of words lie outside the
    project or in the program's own directory. -/
theorem scan_of_run [Script.Parser] [Lexicon.Bundle] {search : Project.Search} {loc : Location}
    (tree : Tree session.disk) (rooted : Passable search.root) (own : Passable search.tool)
    (there : session.disk.locate .target (Path.absolute session.disk.cwd search.root) =
      .ok (.there loc .directory))
    (stores : ∀ h, s.handOffFile = .str h ∨ s.lexiconFile = .str h →
      ¬ Encloses session.disk search.root h ∨
        search.tool ≠ [] ∧ Encloses session.disk search.tool h) :
    Project.scan (run s mirror a paths session).2.disk search =
      Project.scan session.disk search := by
  refine Project.scan_of_remains tree (remains_run tree s mirror a paths) rooted own there
    fun p included last => ?_
  obtain ⟨inside, foreign, listed⟩ := Project.isExcluded_eq_false_iff.1 included
  have within : Encloses session.disk search.root p :=
    (Project.isWithin_eq_ok_iff.1 inside).2.1 rfl
  -- Neither file of words is named where the file is.
  have apart : ∀ h, s.handOffFile = .str h ∨ s.lexiconFile = .str h →
      ¬ Names session.disk h (session.disk.realNames p) := by
    intro h given names
    have same := tree.realNames_of_names names
    rcases stores h given with outside | ⟨tooled, enclosed⟩
    · exact outside ((Project.encloses_congr same).2 within)
    · rcases foreign with toolless | outside
      · exact tooled toolless
      · cases (Project.isWithin_eq_ok_iff.1 outside).2.2 ((Project.encloses_congr same).1 enclosed)
  have prepared := remains_prepare tree s a paths
  refine (run_same (fun h given => apart h (.inl given))
    (fun file given names => apart file (.inr given) ?_) fun q opened => ?_).1
  · exact names.of_link? prepared.keeps.cwd.symm fun k =>
      (tree.link? k).trans (prepared.tree.link? k).symm
  · obtain ⟨named, rendition⟩ := opened.named tree
    rw [last, Option.some.injEq] at named
    rw [Path.isRendition, ← named] at rendition
    rw [Project.isSetAside, Path.isRendition, rendition, Bool.or_true] at listed
    cases listed

theorem located_of_scan {d : Disk} {search : Project.Search} {found : List Path}
    {entry : LogEntry} (given : Project.scan d search = .ok (found, entry)) :
    ∃ loc, d.locate .target (Path.absolute d.cwd search.root) = .ok (.there loc .directory) := by
  unfold Project.scan at given
  cases listed : Project.files d { search with root := Path.absolute d.cwd search.root } with
  | error e =>
    simp only [listed] at given
    cases given
  | ok paths =>
    unfold Project.files at listed
    split at listed
    next loc there => exact ⟨loc, there⟩
    · cases listed

/-- Renditions are a space of their own that is never read back.  The rendition of a file of a known
    kind stands beside the file, is of the same kind, is not the file itself and is one of no other
    file; it has the name of a rendition, so it is rejected whatever the project and the program's
    own directory are, and no scan gives it.

    So over a tree without links a run does not change what a scan gives, whatever paths it is given
    and however it ends.  The files of words must lie outside the project or in the program's own
    directory. -/
theorem renditions_unseen [Script.Parser] [Lexicon.Bundle] :
    (∀ p, FileKind.ofPath p ≠ .unknown →
      Path.directory (Path.rendition p) = Path.directory p ∧
      FileKind.ofPath (Path.rendition p) = FileKind.ofPath p ∧
      Path.rendition p ≠ p ∧ Path.isRendition (Path.rendition p) = true ∧
      (∀ d root tool,
        Project.read d root tool (Path.rendition p) = .error (.excluded (Path.rendition p)) ∨
        (∃ e, Project.read d root tool (Path.rendition p) = .error (.access e) ∧
          e.isRefusal = false) ∧
          ¬ (Passable (Path.rendition p) ∧ Passable root ∧ Passable tool)) ∧
      (∀ d search found entry, Project.scan d search = .ok (found, entry) →
        Path.rendition p ∉ found) ∧
      ∀ q, FileKind.ofPath q ≠ .unknown → Path.rendition p = Path.rendition q → p = q) ∧
    ∀ (s : Settings) (mirror : Option Mirror) (a : Assistant σ) (session : Session σ)
      (search : Project.Search), Tree session.disk → Passable search.root → Passable search.tool →
      (∀ h, s.handOffFile = .str h ∨ s.lexiconFile = .str h →
        ¬ Encloses session.disk search.root h ∨
          search.tool ≠ [] ∧ Encloses session.disk search.tool h) →
      ∀ found entry, Project.scan session.disk search = .ok (found, entry) → ∀ paths,
        Project.scan (run s mirror a paths session).2.disk search = .ok (found, entry) := by
  constructor
  · intro p known
    refine ⟨(Path.rendition_parts (Path.extension_ne_nil known)).1, Path.ofPath_rendition known,
      Path.rendition_ne p, Path.isRendition_rendition known, Project.read_rendition known,
      fun d search found entry given => Project.not_mem_scan_rendition known given,
      fun q also same => Path.rendition_injective known also same⟩
  · intro s mirror a session search tree rooted own stores found entry given paths
    obtain ⟨loc, there⟩ := located_of_scan given
    rw [scan_of_run tree rooted own there stores, given]

theorem tree_kiwiSite : Tree kiwiSite where
  rooted := by decide
  home := by decide
  unique := by decide
  named := by decide
  inside := by decide
  linkless := by decide

section

open scoped Installed

/-- A run whose assistant is out of reach has handed a word over and has rendered a file, and the
    scan gives the file and nothing else than before. -/
theorem renditions_unseen_kiwiSite : ∃ found entry,
    Project.scan kiwiSite (Settings.default "/site/tool").search = .ok (found, entry) ∧
    Text.ofString "/site/home.json" ∈ found ∧
    Path.rendition (Text.ofString "/site/home.json") ∉ found ∧
    Project.scan (run (Settings.default "/site/tool") none offline found
      ⟨kiwiSite, [], ()⟩).2.disk (Settings.default "/site/tool").search = .ok (found, entry) := by
  have root : Path.absolute kiwiSite.cwd (Settings.default "/site/tool").search.root =
      Text.ofString "/site" := by cbv
  have there : kiwiSite.locate .target
      (Path.absolute kiwiSite.cwd (Settings.default "/site/tool").search.root) =
        .ok (.there [Text.ofString "site"] .directory) := by
    rw [root]
    cbv
  have rooted : Passable (Settings.default "/site/tool").search.root := by decide
  have own : Passable (Settings.default "/site/tool").search.tool := by decide
  have known : FileKind.ofPath (Text.ofString "/site/home.json") ≠ .unknown := by
    rw [show FileKind.ofPath (Text.ofString "/site/home.json") = _ from kind_kiwiSite]
    exact FileKind.noConfusion
  obtain ⟨found, given, _, lists⟩ := Project.scan_lists tree_kiwiSite rooted own there
  obtain ⟨renditions, runs⟩ := @renditions_unseen Unit _ _
  obtain ⟨_, _, _, _, _, unseen, _⟩ := renditions _ known
  have stores : ∀ h, (Settings.default "/site/tool").handOffFile = .str h ∨
      (Settings.default "/site/tool").lexiconFile = .str h →
        ¬ Encloses kiwiSite (Settings.default "/site/tool").search.root h ∨
          (Settings.default "/site/tool").search.tool ≠ [] ∧
            Encloses kiwiSite (Settings.default "/site/tool").search.tool h := by
    have handOff : Project.isWithin kiwiSite (Settings.default "/site/tool").search.tool
        "/site/tool/missing_words.json" = .ok true := by cbv
    have lexicon : Project.isWithin kiwiSite (Settings.default "/site/tool").search.tool
        "/site/tool/cached_words.json" = .ok true := by cbv
    rintro h (path | path) <;> cases path
    · exact .inr ⟨by decide, (Project.isWithin_eq_ok_iff.1 handOff).2.1 rfl⟩
    · exact .inr ⟨by decide, (Project.isWithin_eq_ok_iff.1 lexicon).2.1 rfl⟩
  refine ⟨found, _, given, (lists _).2 ?_, unseen _ _ _ _ given,
    runs _ none offline ⟨kiwiSite, [], ()⟩ _ tree_kiwiSite rooted own stores _ _ given found⟩
  exact ⟨[Text.ofString "home.json"], _, by rw [root]; cbv, rfl, known, by cbv⟩

end

end Batch

end Arabize
