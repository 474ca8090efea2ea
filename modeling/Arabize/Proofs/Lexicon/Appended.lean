import Arabize.Proofs.Json.Beginnings
import Arabize.Proofs.Json.Written
import Arabize.Proofs.Lexicon.Frame
import Arabize.Proofs.Lexicon.Stored

/-! # Words that are added

New words are laid over those of a store, and all of them are written.  A store that is not opened
for this stays as it is, and one that is written whole gives all the words when it is loaded again.
There is a third way to end (`append_outcomes`): the store is emptied before its words are encoded,
so one word without an encoding, be it old or new, leaves a beginning of the object behind.  No
proper beginning of an object is a document, and the words that were stored before are lost.
-/

namespace Arabize

open Utf8 (Encodable encodable_append)

namespace Disk

/-- What is written of pieces, one of which has no encoding, is less than all of them. -/
theorem encodePieces_of_some {pieces : List Text} {e : Utf8.EncodeError}
    (stopped : (encodePieces pieces).2 = some e) :
    ∃ t, t <+: pieces.flatten ∧ t ≠ pieces.flatten ∧ Encodable t ∧
      (encodePieces pieces).1 = Utf8.encodeLoose t := by
  induction pieces with
  | nil => cases stopped
  | cons piece rest ih =>
    simp only [encodePieces] at stopped ⊢
    cases encoded : Utf8.encode piece with
    | error f =>
      refine ⟨[], List.nil_prefix, fun same => ?_, Utf8.encodable_nil, rfl⟩
      obtain ⟨rfl, _⟩ := List.append_eq_nil_iff.1 same.symm
      cases encoded
    | ok bytes =>
      rw [encoded] at stopped
      obtain ⟨encodable, rfl⟩ := Utf8.encode_eq_ok_iff.1 encoded
      obtain ⟨t, cut, proper, more, same⟩ := ih stopped
      refine ⟨piece ++ t, (List.prefix_append_right_inj piece).2 cut,
        fun all => proper (List.append_cancel_left all), encodable_append.2 ⟨encodable, more⟩, ?_⟩
      rw [Utf8.encodeLoose_append, ← same]

/-- No file has changed, nor what is read by a path. -/
structure Untouched (p : Path) (d c : Disk) : Prop where
  file : ∀ l, SameAt d c l
  read : ∀ bytes, c.readBytes p = .ok bytes ↔ d.readBytes p = .ok bytes

end Disk

namespace Store

open Disk (Adds Lands Untouched)

variable {p : Path} {d c : Disk} {m : Mapping Json} {t : Text}

/-! ## Stores that are opened -/

/-- A store that can be read is opened for writing. -/
theorem opens_of_read {bytes : Bytes} (found : d.readBytes p = .ok bytes) : Opens p d := by
  obtain ⟨directory, l, lands⟩ := opens_of_readBytes found
  exact ⟨d, Disk.makeDirectories_of_isDirectory directory, l, _, lands.createFile⟩

/-- A store that is not opened stays as it is. -/
theorem write_of_not_opens (closed : ¬ Opens p d) (m : Mapping Json) :
    ∃ e, (write p m d).1 = .error e ∧ Untouched p d (write p m d).2 := by
  -- Nothing was read by the path before, so it is enough that nothing is read by it now.
  have unread : ∀ bytes, d.readBytes p ≠ .ok bytes := fun bytes found =>
    closed (opens_of_read found)
  have adds := Disk.makeDirectories_adds (directoryOf p) d
  rcases directories : Disk.makeDirectories (directoryOf p) d with ⟨e | _, made⟩
  · rw [directories] at adds
    rw [write, bind_of_error directories]
    refine ⟨e, rfl, adds.sameAt, fun bytes => iff_of_false (fun found => ?_) (unread bytes)⟩
    have absent := Disk.makeDirectories_of_error (congrArg Prod.fst directories)
    rw [directories, (opens_of_readBytes found).1] at absent
    cases absent
  · rw [directories] at adds
    rw [write, bind_of_ok directories]
    rcases Disk.writePieces_cases p (Json.pieces m) made with ⟨e, _, failed⟩ | ⟨l, lands, _⟩
    · rw [failed]
      refine ⟨e, rfl, adds.sameAt, fun bytes => iff_of_false (fun found => ?_) (unread bytes)⟩
      obtain ⟨_, l, lands⟩ := opens_of_readBytes found
      exact closed ⟨made, directories, l, _, lands.createFile⟩
    · exact absurd ⟨made, directories, l, _, lands.createFile⟩ closed

/-- A store that is opened holds what could be encoded of its words, from the first one on. -/
theorem write_of_opens (opens : Opens p d) (m : Mapping Json) :
    (write p m d).1 = (match (Disk.encodePieces (Json.pieces m)).2 with
      | some e => .error (.unencodable e)
      | none => .ok ()) ∧
    (write p m d).2.readBytes p = .ok (Disk.encodePieces (Json.pieces m)).1 := by
  obtain ⟨made, directories, l, after, opened⟩ := opens
  rw [write, bind_of_ok directories]
  rcases Disk.writePieces_cases p (Json.pieces m) made with ⟨e, failed, _⟩ | ⟨k, lands, done⟩
  · rw [failed] at opened
    cases opened
  · rw [done]
    refine ⟨rfl, lands.readBytes (lands.keeps_put _) ?_⟩
    exact Disk.entry?_put_self made (Disk.ne_nil_of_writable lands.writable) _

/-! ## Stores that are cut short -/

/-- A store that holds only a beginning of its object gives no words. -/
theorem load_of_cut (textual : Json.Textual m) (cut : t <+: Json.write (.obj m))
    (proper : t ≠ Json.write (.obj m)) (encodable : Encodable t)
    (bytes : d.readBytes p = .ok (Utf8.encodeLoose t)) : (load d p).1 = [] := by
  obtain ⟨flaw, line, column, offset, broken⟩ :=
    Json.read_cut Json.closed_string (Json.enclosed_write textual) cut proper
  have text : d.readText p = .ok t := by
    simp only [Disk.readText, bytes, Utf8.decode_encodeLoose encodable]
    rw [Text.normalizeBreaks_of_not_mem fun inside =>
      Json.not_mem_write textual (cut.subset inside)]
  simp only [load, readFields, text, broken]

/-- The pieces of words cannot be encoded exactly if one of the words cannot. -/
theorem encodePieces_words_iff (words : Lexicon) :
    (∃ e, (Disk.encodePieces (Json.pieces (Json.textValues words))).2 = some e) ↔
      ∃ kv ∈ words, ¬ Encodable kv.1 ∨ ¬ Encodable kv.2 := by
  rw [Disk.encodePieces_error_iff, Json.pieces_iff (Json.textual_textValues words)]
  simp [Json.textValues, Json.Unencodable]

/-- How it ends, and on which disk, when a store is to hold these words. -/
inductive Ending (p : Path) (d : Disk) (stored : Lexicon) :
    Except AccessError (Mapping Json) → Disk → Prop
  | untouched {e : AccessError} {c : Disk} : ¬ Opens p d → Untouched p d c →
      Ending p d stored (.error e) c
  | kept {c : Disk} : Opens p d → (∀ kv ∈ stored, Encodable kv.1 ∧ Encodable kv.2) →
      load c p = (stored, []) → Ending p d stored (.ok (Json.textValues stored)) c
  /-- What was there before is gone. -/
  | lost {e : Utf8.EncodeError} {c : Disk} {t : Text} : Opens p d →
      (∃ kv ∈ stored, ¬ Encodable kv.1 ∨ ¬ Encodable kv.2) →
      t <+: Json.write (Json.ofTexts stored) → t ≠ Json.write (Json.ofTexts stored) →
      c.readBytes p = .ok (Utf8.encodeLoose t) → (load c p).1 = [] →
      Ending p d stored (.error (.unencodable e)) c

theorem append_eq (p : Path) (new : Lexicon) (desk : Desk) :
    let all := Json.textValues ((load desk.disk p).1.update new)
    (append p (Json.textValues new) desk).1 = (write p all desk.disk).1.map (fun _ => all) ∧
      (append p (Json.textValues new) desk).2.disk = (write p all desk.disk).2 := by
  dsimp only
  rw [Json.textValues_update]
  unfold append
  dsimp only
  rcases write p ((Json.textValues (load desk.disk p).1).update (Json.textValues new)) desk.disk
    with ⟨e | _, after⟩ <;> exact ⟨rfl, rfl⟩

/-- New words are added to those of a store and all of them are loaded again, or the store stays
    as it is, unless a word has no encoding: then the words that were stored are lost. -/
theorem append_outcomes (p : Path) (new : Lexicon) (desk : Desk) :
    Ending p desk.disk ((load desk.disk p).1.update new) (append p (Json.textValues new) desk).1
      (append p (Json.textValues new) desk).2.disk := by
  obtain ⟨answer, disk⟩ := append_eq p new desk
  rw [answer, disk]
  have nodup := Mapping.nodup_keys_update (nodup_keys_load desk.disk p) new
  generalize (load desk.disk p).1.update new = stored at nodup
  by_cases opens : Opens p desk.disk
  · obtain ⟨result, bytes⟩ := write_of_opens opens (Json.textValues stored)
    cases stopped : (Disk.encodePieces (Json.pieces (Json.textValues stored))).2 with
    | none =>
      obtain ⟨whole, same⟩ := Disk.encodePieces_of_none stopped
      rw [Json.pieces_flatten] at whole same
      rw [result, stopped]
      refine .kept opens (fun kv member => ?_) (load_of_readBytes nodup whole (same ▸ bytes))
      by_contra broken
      obtain ⟨e, fails⟩ :=
        (encodePieces_words_iff stored).2 ⟨kv, member, not_and_or.1 broken⟩
      rw [stopped] at fails
      cases fails
    | some e =>
      obtain ⟨t, cut, proper, encodable, same⟩ := Disk.encodePieces_of_some stopped
      rw [Json.pieces_flatten] at cut proper
      rw [same] at bytes
      rw [result, stopped]
      exact .lost opens ((encodePieces_words_iff stored).1 ⟨e, stopped⟩) cut proper bytes
        (load_of_cut (Json.textual_textValues stored) cut proper encodable bytes)
  · obtain ⟨e, result, untouched⟩ := write_of_not_opens opens (Json.textValues stored)
    rw [result]
    exact .untouched opens untouched

end Store

end Arabize
