import Arabize.Disk.Path

/-! # File trees

A disk is a list of entries by their location, the list of names on the way from the
root.  An entry is a file with its bytes, a directory, or a symbolic link; the root is
always a directory.

`find` walks a path as an operating system does and says what is there, what is not, or
why the walk cannot be finished.  `realPath` resolves links as far as it can and never
fails: what does not exist is kept as it is written, and in a circle of links the walk
ends where the circle closes.
-/

namespace Arabize

/-- The names on the way from the root. -/
abbrev Location := List Text

inductive Entry
  | file (bytes : Bytes)
  | directory
  | link (target : Path)
  deriving DecidableEq

/-- A file tree and the directory that relative paths count from. -/
structure Disk where
  cwd : Path
  entries : List (Location × Entry)

namespace Disk

/-! ## Entries -/

/-- The entry of a location in a list of entries. -/
def entryIn? (loc : Location) : List (Location × Entry) → Option Entry
  | [] => none
  | (l, e) :: rest => if l = loc then some e else entryIn? loc rest

def entry? (d : Disk) (loc : Location) : Option Entry :=
  if loc = [] then some .directory else entryIn? loc d.entries

theorem mem_of_entryIn? {loc : Location} {e : Entry} {entries : List (Location × Entry)}
    (found : entryIn? loc entries = some e) : (loc, e) ∈ entries := by
  induction entries with
  | nil => cases found
  | cons first rest ih =>
    rw [entryIn?] at found
    split at found
    next here =>
      subst here
      cases found
      exact .head _
    · exact .tail _ (ih found)

/-- Writes an entry into a list: in place, or at its end. -/
def putIn (loc : Location) (e : Entry) : List (Location × Entry) → List (Location × Entry)
  | [] => [(loc, e)]
  | (l, f) :: rest => if l = loc then (l, e) :: rest else (l, f) :: putIn loc e rest

def put (d : Disk) (loc : Location) (e : Entry) : Disk :=
  { d with entries := putIn loc e d.entries }

def erase (d : Disk) (loc : Location) : Disk :=
  { d with entries := d.entries.filter fun e => e.1 ≠ loc }

/-- The names of the entries directly in a directory. -/
def namesIn (d : Disk) (loc : Location) : List Text :=
  d.entries.filterMap fun e => if e.1.dropLast = loc ∧ e.1 ≠ [] then e.1.getLast? else none

/-- The target of the link at a location. -/
def link? (d : Disk) (loc : Location) : Option Path :=
  match d.entry? loc with
  | some (.link target) => some target
  | _ => none

/-! ## Walking a path -/

/-- Why the system refuses to do something with a path. -/
inductive Refusal
  | notFound
  | exists
  | notDirectory
  | isDirectory
  | nameTooLong
  | tooManyLinks
  deriving DecidableEq, Repr

/-- The number that the system has for a refusal. -/
def Refusal.number : Refusal → Nat
  | .notFound => 2
  | .exists => 17
  | .notDirectory => 20
  | .isDirectory => 21
  | .nameTooLong => 36
  | .tooManyLinks => 40

/-- The words that the system has for a refusal. -/
def Refusal.text : Refusal → Text
  | .notFound => "No such file or directory"
  | .exists => "File exists"
  | .notDirectory => "Not a directory"
  | .isDirectory => "Is a directory"
  | .nameTooLong => "File name too long"
  | .tooManyLinks => "Too many levels of symbolic links"

inductive Spot
  | there (loc : Location) (e : Entry)
  | free (loc : Location)
  deriving DecidableEq

inductive Aim
  /-- What the path leads to: a link at its end is followed. -/
  | target
  /-- The entry of that name, be it a link. -/
  | entry
  /-- A file to be made: its name may have no slash behind it. -/
  | creation
  /-- The entry of that name, to be taken away: a slash behind a link is at fault. -/
  | removal
  deriving DecidableEq, Repr

def maxLinks : Nat := 40

def maxName : Nat := 255

/-- Walks from a directory along components, with so many links still to be followed. -/
def walk (d : Disk) (aim : Aim) (links : Nat) (loc : Location) (rest : List Text) :
    Except Refusal Spot :=
  match rest with
  | [] => .ok (.there loc .directory)
  | c :: more =>
    if c = [] ∨ c = Path.here then walk d aim links loc more
    else if c = Path.up then walk d aim links loc.dropLast more
    -- A file is not made behind a slash, not even where a link leads on.
    else if aim = .creation ∧ more ≠ [] ∧ more.all List.isEmpty then .error .isDirectory
    else if maxName < Path.size c then .error .nameTooLong
    else
      let next := loc ++ [c]
      match d.entry? next with
      -- Slashes behind a free name are passed over.
      | none => if more.all List.isEmpty then .ok (.free next) else .error .notFound
      | some .directory => walk d aim links next more
      | some (.file bytes) =>
        if more = [] then .ok (.there next (.file bytes)) else .error .notDirectory
      | some (.link target) =>
        -- A link at the end stands for itself if it is the entry that is asked for.
        if more = [] ∧ (aim = .entry ∨ aim = .removal) then .ok (.there next (.link target))
        else if aim = .removal ∧ more.all List.isEmpty then .error .notDirectory
        else
          match links with
          | 0 => .error .tooManyLinks
          | k + 1 =>
            -- The way goes on along the target, from where the link stands.
            walk d aim k (if Path.isAbsolute target then [] else loc)
              (Path.components target ++ more)
termination_by (links, rest.length)

def origin (d : Disk) (p : Path) : Location := if Path.isAbsolute p then [] else Path.names d.cwd

def maxPath : Nat := 4095

def find (d : Disk) (aim : Aim) (p : Path) : Except Refusal Spot :=
  if p = [] then .error .notFound
  else if maxPath < Path.size p then .error .nameTooLong
  else d.walk aim maxLinks (d.origin p) (Path.components p)

def isDirectory (d : Disk) (p : Path) : Bool :=
  match d.find .target p with
  | .ok (.there _ .directory) => true
  | _ => false

def hasPath (d : Disk) (p : Path) : Bool :=
  match d.find .target p with
  | .ok (.there _ _) => true
  | _ => false

/-! ## Real paths -/

/-- A directory as a resolution has reached it: whether the way there started from the root
    and not from the current directory, and its location. -/
abbrev Reached := Bool × Location

/-- What is known of links while a path is being resolved: where a link leads, or nothing
    as long as its own target is still being resolved.  A link that is reached both from the
    root and from the current directory counts as two. -/
abbrev Known := List (Reached × Option Reached)

def known? (link : Reached) : Known → Option (Option Reached)
  | [] => none
  | (l, r) :: rest => if l = link then some r else known? link rest

/-- The end of a resolution: the names reached, whether it could be finished, and what has
    become known of links. -/
structure Resolution where
  /-- What was reached; names behind the point of a circle are as they were written. -/
  reached : Reached
  finished : Bool
  known : Known

/-- Resolves links from a directory along components; at most so many links stand inside
    one another. -/
def resolve (d : Disk) (depth : Nat) (start : Reached) (rest : List Text) (known : Known) :
    Resolution :=
  match rest with
  | [] => ⟨start, true, known⟩
  | c :: more =>
    if c = [] ∨ c = Path.here then resolve d depth start more known
    else if c = Path.up then resolve d depth (start.1, start.2.dropLast) more known
    else
      let next : Reached := (start.1, start.2 ++ [c])
      match d.link? next.2 with
      | none => resolve d depth next more known
      | some target =>
        match known? next known with
        | some (some reached) => resolve d depth reached more known
        -- The link is met in its own target: the circle closes here.
        | some none => ⟨(next.1, next.2 ++ more), false, known⟩
        | none =>
          match depth with
          | 0 => ⟨(next.1, next.2 ++ more), false, known⟩
          | k + 1 =>
            -- The target is resolved with the link marked as open.
            let r := resolve d k (if Path.isAbsolute target then (true, []) else start)
              (Path.components target) ((next, none) :: known)
            if r.finished then
              resolve d k r.reached more ((next, some r.reached) :: r.known)
            else ⟨(r.reached.1, r.reached.2 ++ more), false, r.known⟩
termination_by (depth, rest.length)

/-- How many entries of a disk are links. -/
def linkCount (d : Disk) : Nat :=
  (d.entries.filter fun e => match e.2 with
    | .link _ => true
    | _ => false).length

/-- The names of the real path of a path. -/
def realNames (d : Disk) (p : Path) : List Text :=
  let start : Reached := (Path.isAbsolute p, d.origin p)
  let r := d.resolve (2 * d.linkCount) start (Path.components p) []
  Path.normalComponents true [] r.reached.2

/-- The absolute path of where a path leads, all links resolved that can be. -/
def realPath (d : Disk) (p : Path) : Path := Path.ofLocation (d.realNames p)

end Disk

end Arabize
