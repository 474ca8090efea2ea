import Arabize.Disk.Tree

/-! # Entries after a change

An entry that is written or taken away changes what stands at its own location and nothing
else.  The root is no entry: it is a directory whatever is written.
-/

namespace Arabize.Disk


theorem entryIn?_putIn (loc l : Location) (e : Entry) (entries : List (Location × Entry)) :
    entryIn? l (putIn loc e entries) = if l = loc then some e else entryIn? l entries := by
  induction entries with
  | nil => simp only [putIn, entryIn?, eq_comm]
  | cons first rest ih =>
    obtain ⟨k, f⟩ := first
    by_cases here : k = loc
    · subst here
      simp only [putIn, if_true, entryIn?, eq_comm]
      split <;> rfl
    · simp only [putIn, if_neg here, entryIn?, ih]
      by_cases found : k = l
      · subst found
        simp only [if_true, if_neg here]
      · simp only [if_neg found]

theorem entryIn?_filter_ne (loc l : Location) (entries : List (Location × Entry)) :
    entryIn? l (entries.filter fun e => e.1 ≠ loc) =
      if l = loc then none else entryIn? l entries := by
  induction entries with
  | nil => simp only [List.filter_nil, entryIn?, ite_self]
  | cons first rest ih =>
    obtain ⟨k, f⟩ := first
    by_cases here : k = loc
    · subst here
      rw [List.filter_cons_of_neg (by simp), ih]
      by_cases found : l = k
      · simp only [if_pos found]
      · simp only [if_neg found, entryIn?, if_neg (Ne.symm found)]
    · rw [List.filter_cons_of_pos (by simpa using here)]
      simp only [entryIn?, ih]
      by_cases found : k = l
      · subst found
        simp only [if_true, if_neg here]
      · simp only [if_neg found]

@[simp] theorem entry?_nil (d : Disk) : d.entry? [] = some .directory := rfl

@[simp] theorem cwd_put (d : Disk) (loc : Location) (e : Entry) : (d.put loc e).cwd = d.cwd := rfl

@[simp] theorem cwd_erase (d : Disk) (loc : Location) : (d.erase loc).cwd = d.cwd := rfl

theorem entry?_put (d : Disk) {loc : Location} (named : loc ≠ []) (e : Entry) (l : Location) :
    Disk.entry? (d.put loc e) l = if l = loc then some e else d.entry? l := by
  unfold entry? put
  rw [entryIn?_putIn]
  by_cases root : l = []
  · subst root
    rw [if_pos rfl, if_pos rfl, if_neg (Ne.symm named)]
  · simp only [if_neg root]

theorem entry?_put_self (d : Disk) {loc : Location} (named : loc ≠ []) (e : Entry) :
    Disk.entry? (d.put loc e) loc = some e := by
  rw [entry?_put d named, if_pos rfl]

theorem entry?_put_of_ne (d : Disk) {loc l : Location} (other : l ≠ loc) (e : Entry) :
    Disk.entry? (d.put loc e) l = d.entry? l := by
  unfold entry? put
  rw [entryIn?_putIn, if_neg other]

theorem entry?_erase (d : Disk) {loc : Location} (named : loc ≠ []) (l : Location) :
    Disk.entry? (d.erase loc) l = if l = loc then none else d.entry? l := by
  unfold entry? erase
  rw [entryIn?_filter_ne]
  by_cases root : l = []
  · subst root
    rw [if_pos rfl, if_pos rfl, if_neg (Ne.symm named)]
  · simp only [if_neg root]

theorem putIn_putIn (loc : Location) (e f : Entry) (entries : List (Location × Entry)) :
    putIn loc e (putIn loc f entries) = putIn loc e entries := by
  induction entries with
  | nil => simp only [putIn, if_true]
  | cons first rest ih =>
    obtain ⟨k, g⟩ := first
    by_cases here : k = loc
    · simp only [putIn, if_pos here]
    · simp only [putIn, if_neg here, ih]

/-- What is written twice is as it was written last. -/
theorem put_put (d : Disk) (loc : Location) (e f : Entry) :
    (d.put loc f).put loc e = d.put loc e := by
  simp only [put, putIn_putIn]

theorem link?_eq_some_iff {d : Disk} {loc : Location} {target : Path} :
    d.link? loc = some target ↔ d.entry? loc = some (.link target) := by
  unfold link?
  split
  next same => rw [same]; simp
  next other => simpa using other target

theorem link?_congr {d c : Disk} {loc : Location} (same : d.entry? loc = c.entry? loc) :
    d.link? loc = c.link? loc := by
  unfold link?
  rw [same]

end Arabize.Disk
