import Arabize.Disk.Tree

/-! # What became of a disk

The entries by which one disk differs from another: those that are new or hold something
else, and those that are gone.  At every other location the two disks are the same, so who
takes over these entries has the second disk from the first.
-/

namespace Arabize.Disk

/-- The entries of the second disk that the first one lacks, or has otherwise. -/
def changed (before after : Disk) : List (Location × Entry) :=
  after.entries.filter fun e => before.entry? e.1 ≠ some e.2

/-- The locations that only the first disk has an entry at. -/
def gone (before after : Disk) : List Location :=
  (before.entries.map Prod.fst).filter fun loc => (after.entry? loc).isNone

variable {before after : Disk} {l : Location} {e : Entry}

/-- Every entry but the root, which no disk lists, is among the entries of its disk. -/
theorem mem_entries {d : Disk} (named : l ≠ []) (found : d.entry? l = some e) :
    (l, e) ∈ d.entries := by
  unfold entry? at found
  rw [if_neg named] at found
  exact mem_of_entryIn? found

theorem mem_changed (now : after.entry? l = some e) (other : before.entry? l ≠ some e) :
    (l, e) ∈ changed before after := by
  have named : l ≠ [] := by
    rintro rfl
    exact other now
  exact List.mem_filter.2 ⟨mem_entries named now, decide_eq_true other⟩

theorem mem_gone (was : before.entry? l = some e) (now : after.entry? l = none) :
    l ∈ gone before after := by
  have named : l ≠ [] := by
    rintro rfl
    cases now
  exact List.mem_filter.2
    ⟨List.mem_map_of_mem (f := Prod.fst) (mem_entries named was), by rw [now]; rfl⟩

/-- What is neither changed nor gone is as it was. -/
theorem entry?_eq_of_untouched (unchanged : ∀ e, (l, e) ∉ changed before after)
    (left : l ∉ gone before after) : after.entry? l = before.entry? l := by
  cases now : after.entry? l with
  | some e =>
    by_cases other : before.entry? l = some e
    · exact other.symm
    · exact (unchanged e (mem_changed now other)).elim
  | none =>
    cases was : before.entry? l with
    | some e => exact (left (mem_gone was now)).elim
    | none => rfl

end Arabize.Disk
