import Arabize.Proofs.Disk.Removal
import Arabize.Proofs.Lexicon.Stored
import Arabize.Proofs.Text.Order

/-! # What a hand-off file names

A hand-off file that was saved names the words that it was saved for, in increasing order
(`loadHandOff_of_saved`); one that was deleted is gone, unless the system refuses to remove it
(`deleteHandOff_gone`).
-/

namespace Arabize.Store

open Disk (Gone)
open Utf8 (Encodable)

variable {words : List Text} {p : Path} {d c : Disk}

/-- A file of words that can be written names words that can be encoded. -/
theorem encodable_of_write {m : Mapping Json} (textual : Json.Textual m)
    (encodable : Encodable (Json.write (.obj m))) : ∀ key ∈ Mapping.keys m, Encodable key := by
  intro key member
  obtain ⟨kv, isField, rfl⟩ := List.mem_map.1 member
  by_contra stuck
  obtain ⟨piece, inside, broken⟩ := (Json.pieces_iff textual).2 ⟨kv, isField, .inl stuck⟩
  refine broken (encodable.of_subset ?_)
  rw [← Json.pieces_flatten]
  exact fun c here => List.mem_flatten.2 ⟨piece, inside, here⟩

/-- A hand-off file that was saved gives the words that it was saved for, in order, and all of
    them can be encoded. -/
theorem loadHandOff_of_saved (nodup : words.Nodup)
    (saved : saveHandOff words p d = (.ok (), c)) :
    loadHandOff c p = .ok (Text.sort words) ∧ ∀ w ∈ words, Encodable w := by
  let named : Mapping Json := (Text.sort words).map fun w => (w, .str [])
  have keys : Mapping.keys named = Text.sort words := by
    rw [Mapping.keys, List.map_map]
    exact List.map_id _
  have different : (Mapping.keys named).Nodup := by
    rw [keys]
    exact (Text.sort_perm words).nodup_iff.2 nodup
  have textual : Json.Textual named := by
    intro kv member
    obtain ⟨w, _, rfl⟩ := List.mem_map.1 member
    exact ⟨[], rfl⟩
  rw [saveHandOff, Mapping.ofPairs_of_nodup different] at saved
  obtain ⟨made, l, _, lands, encodable, rfl⟩ := write_eq_ok saved
  have now := Disk.entry?_put_self made (Disk.ne_nil_of_writable lands.writable)
    (.file (Utf8.encodeLoose (Json.write (.obj named))))
  have fields := readFields_of_readBytes .handOff textual different encodable
    (lands.readBytes (lands.keeps_put _) now)
  refine ⟨by rw [loadHandOff, fields, ← keys], fun w member => ?_⟩
  refine encodable_of_write textual encodable w ?_
  rwa [keys, Text.mem_sort]

/-- Once a hand-off file was deleted there is nothing at its path, unless the system refuses to
    remove what is there. -/
theorem deleteHandOff_gone (p : Path) (d : Disk) :
    Gone (deleteHandOff p d).2 p ∨ ∃ why, (deleteHandOff p d).1 = .error (.refused why p) := by
  unfold deleteHandOff Disk.remove
  rcases found : d.locate .removal p with e | ⟨k, _ | _ | _⟩ | k
  case ok.there.file bytes => exact .inl (Disk.gone_of_remove (e := .file bytes) nofun found)
  case ok.there.link target => exact .inl (Disk.gone_of_remove (e := .link target) nofun found)
  case ok.there.directory => exact .inr ⟨_, rfl⟩
  case ok.free => exact .inl (Disk.gone_of_absent (by simp [found]) (by simp [found]))
  case error =>
    cases e with
    | refused why q =>
      obtain rfl := Disk.path_of_locate found
      by_cases absent : why = .notFound
      · subst absent
        refine .inl (Disk.gone_of_absent (by simp [found]) fun why other => ?_)
        simp [found, Ne.symm other]
      · refine .inr ⟨why, ?_⟩
        split
        next same =>
          cases same
          exact absurd rfl absent
        · rfl
    -- A path that cannot be passed to the system leads to nothing either.
    | _ => exact .inl (Disk.gone_of_absent (by simp [found]) (by simp [found]))

end Arabize.Store
