import Arabize.Proofs.Disk.Alike
import Arabize.Proofs.Json.RoundTrip
import Arabize.Proofs.Lexicon.Store
import Arabize.Proofs.Text.Utf8

/-! # Words that were stored

A file of words is read as it was written (`load_of_written`): its text has no line breaks but
line feeds, is decoded as it was encoded, and is parsed as the object that it was laid out for.
So what was stored is what a later run starts from, as long as the file is not touched.

A file that the system refuses to write could not be read either (`load_of_refused`).  So the
words that are stored afterwards are those from before, overridden by new ones.
-/

namespace Arabize

open Utf8 (Encodable encodable_append)

/-! ## Line breaks -/

namespace Text

/-- A text without a carriage return has its line breaks as they are. -/
theorem normalizeBreaks_of_not_mem {t : Text} (free : CodePoint.ofChar '\r' ∉ t) :
    t.normalizeBreaks = t := by
  unfold normalizeBreaks
  induction t with
  | nil => rfl
  | cons c t ih =>
    rw [List.mem_cons, not_or] at free
    rw [normalizeBreaksFrom, if_neg (Ne.symm free.1), ih free.2]
    simp

theorem not_mem_hexFixed (k n : Nat) : CodePoint.ofChar '\r' ∉ hexFixed k n := by
  have digits : ∀ n < 16, CodePoint.ofChar '\r' ≠ digit n := by decide
  induction k generalizing n with
  | zero => simp [hexFixed]
  | succ k ih =>
    rw [hexFixed, List.mem_append, not_or]
    exact ⟨ih _, by simpa using digits _ (Nat.mod_lt n (by decide))⟩

end Text

namespace Json

theorem not_mem_writeChar (c : CodePoint) : CodePoint.ofChar '\r' ∉ writeChar c := by
  unfold writeChar
  cases escaped : shortEscape? c with
  | some e =>
    have letter : CodePoint.ofChar '\r' ≠ e := by
      unfold shortEscape? at escaped
      repeat' split at escaped
      all_goals
        cases escaped
        try decide
    have slash : CodePoint.ofChar '\r' ≠ CodePoint.ofChar '\\' := by decide
    simp [letter, slash]
  | none =>
    dsimp only
    split
    · have parts : CodePoint.ofChar '\r' ≠ CodePoint.ofChar '\\' ∧
          CodePoint.ofChar '\r' ≠ CodePoint.ofChar 'u' := by decide
      simp [unicodeEscape, parts, Text.not_mem_hexFixed]
    · rw [List.mem_singleton]
      rintro rfl
      revert escaped
      decide

theorem not_mem_writeText (t : Text) : CodePoint.ofChar '\r' ∉ writeText t := by
  have quotes : CodePoint.ofChar '\r' ∉ quoteMark := by decide
  simp [writeText, quotes, not_mem_writeChar]

theorem not_mem_fieldPieces {kv : Text × Json} (text : ∃ t, kv.2 = .str t) :
    ∀ piece ∈ fieldPieces kv, CodePoint.ofChar '\r' ∉ piece := by
  obtain ⟨key, value⟩ := kv
  obtain ⟨t, rfl⟩ := text
  have mark : CodePoint.ofChar '\r' ∉ keyMark := by decide
  have line : CodePoint.ofChar '\r' ∉ newline 1 := by decide
  simp [fieldPieces, writeAt, not_mem_writeText, mark, line]

theorem not_mem_morePieces {m : Mapping Json} (textual : Textual m) :
    ∀ piece ∈ morePieces m, CodePoint.ofChar '\r' ∉ piece := by
  induction m with
  | nil => exact nofun
  | cons kv rest ih =>
    obtain ⟨here, behind⟩ := List.forall_mem_cons.1 textual
    simp only [morePieces, List.mem_append, List.mem_cons, or_imp, forall_and, forall_eq]
    exact ⟨⟨by decide, not_mem_fieldPieces here⟩, ih behind⟩

theorem not_mem_pieces {m : Mapping Json} (textual : Textual m) :
    ∀ piece ∈ pieces m, CodePoint.ofChar '\r' ∉ piece := by
  cases m with
  | nil =>
    simp only [pieces, List.mem_singleton, forall_eq]
    decide
  | cons kv rest =>
    obtain ⟨here, behind⟩ := List.forall_mem_cons.1 textual
    simp only [pieces, List.mem_append, List.mem_cons, or_imp, forall_and, forall_eq,
      List.not_mem_nil]
    exact ⟨⟨⟨by decide, not_mem_fieldPieces here⟩, not_mem_morePieces behind⟩, by decide,
      by decide, fun _ => False.elim⟩

theorem not_mem_write {m : Mapping Json} (textual : Textual m) :
    CodePoint.ofChar '\r' ∉ write (.obj m) := by
  rw [← pieces_flatten, List.mem_flatten]
  rintro ⟨piece, member, inside⟩
  exact not_mem_pieces textual piece member inside

/-! ## Objects of texts -/

theorem read_write_textual {m : Mapping Json} (textual : Textual m)
    (nodup : (Mapping.keys m).Nodup) : read (write (.obj m)) = .ok (.obj m) := by
  refine read_write fun part member => ?_
  rcases List.mem_cons.1 member with rfl | inner
  · exact nodup
  · obtain ⟨kv, isField, within⟩ := mem_partsFields.1 inner
    obtain ⟨t, same⟩ := textual kv isField
    rw [same] at within
    rw [List.mem_singleton.1 within]
    trivial

@[simp] theorem textFields_textValues (m : Mapping Text) : textFields (textValues m) = m := by
  induction m with
  | nil => rfl
  | cons kv rest ih =>
    change (kv.1, kv.2) :: textFields (textValues rest) = _
    rw [ih]

/-- A mapping of texts is one that values were made of. -/
theorem textual_iff {m : Mapping Json} : Textual m ↔ m = textValues (textFields m) := by
  constructor
  · intro textual
    induction m with
    | nil => rfl
    | cons kv rest ih =>
      obtain ⟨⟨t, same⟩, behind⟩ := List.forall_mem_cons.1 textual
      obtain ⟨key, value⟩ := kv
      cases same
      change _ = (key, Json.str t) :: textValues (textFields rest)
      rw [← ih behind]
  · intro same
    rw [same]
    exact textual_textValues _

theorem textValues_insert (m : Mapping Text) (key t : Text) :
    textValues (m.insert key t) = (textValues m).insert key (.str t) := by
  induction m with
  | nil => rfl
  | cons kv rest ih =>
    obtain ⟨k, v⟩ := kv
    simp only [Mapping.insert, textValues, List.map_cons] at ih ⊢
    split
    · rfl
    · rw [List.map_cons, ih]

theorem textValues_update (m new : Mapping Text) :
    textValues (m.update new) = (textValues m).update (textValues new) := by
  induction new generalizing m with
  | nil => rfl
  | cons kv rest ih =>
    change textValues ((m.insert kv.1 kv.2).update rest) =
      ((textValues m).insert kv.1 (.str kv.2)).update (textValues rest)
    rw [ih, textValues_insert]

theorem keys_textValues (m : Mapping Text) : Mapping.keys (textValues m) = Mapping.keys m := by
  simp [Mapping.keys, textValues]

theorem keys_textFields_sublist (m : Mapping Json) :
    (Mapping.keys (textFields m)).Sublist (Mapping.keys m) := by
  induction m with
  | nil => exact .slnil
  | cons kv rest ih =>
    obtain ⟨key, value⟩ := kv
    cases value with
    | str t => exact ih.cons_cons key
    | _ => exact ih.cons key

end Json

/-! ## Files of words -/

namespace Disk

/-- What was written whole is encoded as a whole. -/
theorem encodePieces_of_none {pieces : List Text} (whole : (encodePieces pieces).2 = none) :
    Encodable pieces.flatten ∧ (encodePieces pieces).1 = Utf8.encodeLoose pieces.flatten := by
  induction pieces with
  | nil => exact ⟨Utf8.encodable_nil, rfl⟩
  | cons t rest ih =>
    simp only [encodePieces] at whole ⊢
    cases encoded : Utf8.encode t with
    | error e =>
      rw [encoded] at whole
      cases whole
    | ok bytes =>
      rw [encoded] at whole
      obtain ⟨encodable, rfl⟩ := Utf8.encode_eq_ok_iff.1 encoded
      obtain ⟨more, same⟩ := ih whole
      rw [List.flatten_cons, Utf8.encodeLoose_append, encodable_append]
      exact ⟨⟨encodable, more⟩, by rw [← same]⟩

end Disk

namespace Store

open Disk (Lands)

variable {p : Path} {d c : Disk} {m : Mapping Json}

/-- The words of a store have different keys. -/
theorem nodup_keys_load (d : Disk) (p : Path) : (Mapping.keys (load d p).1).Nodup := by
  unfold load
  cases found : readFields d .lexicon p with
  | error e => exact .nil
  | ok fields =>
    have nodup : (Mapping.keys fields).Nodup := by
      unfold readFields at found
      split at found
      · cases found
      · split at found
        · cases found
        next t fs parsed =>
          cases found
          exact Json.read_regular parsed _ List.mem_cons_self fun x => by simp
        · cases found
    exact nodup.sublist (Json.keys_textFields_sublist fields)

/-- What is left on the disk when a file of words was written. -/
theorem write_eq_ok (written : write p m d = (.ok (), c)) :
    ∃ made l, Disk.makeDirectories (directoryOf p) d = (.ok (), made) ∧ Lands made p l ∧
      Encodable (Json.write (.obj m)) ∧
        c = made.put l (.file (Utf8.encodeLoose (Json.write (.obj m)))) := by
  rw [write] at written
  obtain ⟨_, made, directories, written⟩ := bind_eq_ok.1 written
  rcases Disk.writePieces_cases p (Json.pieces m) made with ⟨e, _, failed⟩ | ⟨l, lands, done⟩
  · rw [failed] at written
    cases written
  · rw [done] at written
    cases whole : (Disk.encodePieces (Json.pieces m)).2 with
    | some e =>
      rw [whole] at written
      cases written
    | none =>
      obtain ⟨encodable, bytes⟩ := Disk.encodePieces_of_none whole
      rw [Json.pieces_flatten] at encodable bytes
      rw [whole, bytes] at written
      cases written
      exact ⟨made, l, directories, lands, encodable, rfl⟩

/-- The directories that are made for a file of words are all that is added then. -/
theorem adds_of_directories {made : Disk}
    (directories : Disk.makeDirectories (directoryOf p) d = (.ok (), made)) : Disk.Adds d made := by
  have adds := Disk.makeDirectories_adds (directoryOf p) d
  rwa [directories] at adds

/-- A file that holds an object of texts as it is written gives this object. -/
theorem readFields_of_readBytes (kind : StoreKind) (textual : Json.Textual m)
    (nodup : (Mapping.keys m).Nodup) (encodable : Encodable (Json.write (.obj m)))
    (bytes : d.readBytes p = .ok (Utf8.encodeLoose (Json.write (.obj m)))) :
    readFields d kind p = .ok m := by
  have text : d.readText p = .ok (Json.write (.obj m)) := by
    simp only [Disk.readText, bytes, Utf8.decode_encodeLoose encodable]
    rw [Text.normalizeBreaks_of_not_mem (Json.not_mem_write textual)]
  simp only [readFields, text, Json.read_write_textual textual nodup]

/-- A file that holds words as they are written gives these words. -/
theorem load_of_readBytes {m : Mapping Text} (nodup : (Mapping.keys m).Nodup)
    (encodable : Encodable (Json.write (.obj (Json.textValues m))))
    (bytes : d.readBytes p = .ok (Utf8.encodeLoose (Json.write (.obj (Json.textValues m))))) :
    load d p = (m, []) := by
  have fields : readFields d .lexicon p = .ok (Json.textValues m) :=
    readFields_of_readBytes .lexicon (Json.textual_textValues m)
      (by rwa [Json.keys_textValues]) encodable bytes
  simp only [load, fields, Json.textFields_textValues]

/-- A file of words that was written gives these words on every later disk that still has it. -/
theorem load_of_written {b : Disk} {m : Mapping Text} (nodup : (Mapping.keys m).Nodup)
    (written : write p (Json.textValues m) d = (.ok (), c)) (alike : Disk.Alike c b)
    (same : ∀ l, Lands b p l → b.entry? l = c.entry? l) : load b p = (m, []) := by
  obtain ⟨made, l, _, lands, encodable, rfl⟩ := write_eq_ok written
  have opened : Disk.Alike made b := (Disk.Alike.put made lands.writable _).trans alike
  have now := (same l (opened.lands_iff.2 lands)).trans
    (Disk.entry?_put_self made (Disk.ne_nil_of_writable lands.writable) _)
  exact load_of_readBytes nodup encodable (lands.readBytes opened.keeps now)

/-! ## Files of words that could not be written -/

theorem load_of_unreadable (unreadable : ∀ bytes, d.readBytes p ≠ .ok bytes) :
    (load d p).1 = [] := by
  unfold load readFields Disk.readText
  cases found : d.readBytes p with
  | error e => rfl
  | ok bytes => exact absurd found (unreadable bytes)

/-- A file that can be read is in a directory that is there, and can be written. -/
theorem opens_of_readBytes {bytes : Bytes} (found : d.readBytes p = .ok bytes) :
    d.isDirectory (directoryOf p) = true ∧ ∃ l, Lands d p l := by
  obtain ⟨l, there⟩ := Disk.readBytes_eq_ok_iff.1 found
  refine ⟨?_, l, Disk.lands_of_locate there⟩
  unfold directoryOf
  split
  · exact Disk.isDirectory_here d
  next some => exact Disk.isDirectory_directory there some

/-- The system refuses to make a directory, or to open the file once they are made. -/
theorem write_of_refused {e : AccessError} (refused : write p m d = (.error e, c))
    (refusal : e.isRefusal = true) :
    Disk.makeDirectories (directoryOf p) d = (.error e, c) ∨
      Disk.makeDirectories (directoryOf p) d = (.ok (), c) ∧ ∀ l, ¬ Lands c p l := by
  rcases directories : Disk.makeDirectories (directoryOf p) d with ⟨f | _, made⟩
  · rw [write, bind_of_error directories] at refused
    cases refused
    exact .inl rfl
  · rw [write, bind_of_ok directories] at refused
    rcases Disk.writePieces_cases p (Json.pieces m) made with ⟨f, closed, failed⟩ | ⟨l, _, done⟩
    · rw [failed] at refused
      cases refused
      refine .inr ⟨rfl, fun l lands => ?_⟩
      rw [lands.createFile] at closed
      cases closed
    -- A text without an encoding is no reason of the system.
    · rw [done] at refused
      cases unencodable : (Disk.encodePieces (Json.pieces m)).2 <;> rw [unencodable] at refused <;>
        cases refused
      cases refusal

/-- Where the system has refused to write a file of words, none was read before, nor is after. -/
theorem load_of_refused {e : AccessError} (refused : write p m d = (.error e, c))
    (refusal : e.isRefusal = true) : (load d p).1 = [] ∧ (load c p).1 = [] := by
  have cases := write_of_refused refused refusal
  constructor
  · refine load_of_unreadable fun bytes found => ?_
    obtain ⟨directory, l, lands⟩ := opens_of_readBytes found
    rw [Disk.makeDirectories_of_isDirectory directory] at cases
    rcases cases with failed | ⟨same, closed⟩
    · cases failed
    · cases same
      exact closed l lands
  · refine load_of_unreadable fun bytes found => ?_
    obtain ⟨directory, l, lands⟩ := opens_of_readBytes found
    rcases cases with failed | ⟨_, closed⟩
    · have absent := Disk.makeDirectories_of_error (congrArg Prod.fst failed)
      rw [failed, directory] at absent
      cases absent
    · exact closed l lands

/-! ## Words that override others -/

/-- When words are stored and given as well, they override what there was before, and nothing
    else changes. -/
theorem find?_vocabulary [Lexicon.Bundle] {translations : Mapping Json}
    (textual : Json.Textual translations)
    (others : ∀ t ∉ Mapping.keys (Json.textFields translations),
      (load c p).1.find? t = (load d p).1.find? t) (t : Text) :
    (vocabulary c p translations).1.lexicon.find? t =
      ((lexicon d p).1.update (Json.textFields translations)).find? t := by
  simp only [vocabulary, lexicon, Vocabulary.ofTiers, Vocabulary.straysIn_textual textual,
    Lexicon.merge, List.foldl_append, List.foldl_cons, List.foldl_nil, Option.getD_some]
  have all : ∀ words : Lexicon,
      (words.filter fun kv => !Mapping.has ([] : Mapping Json) kv.1) = words := by
    simp [Mapping.has]
  rw [all]
  refine Mapping.find?_update_congr fun absent => ?_
  rw [Mapping.find?_update (nodup_keys_load c p), Mapping.find?_update (nodup_keys_load d p),
    others t absent]

/-- Words that are stored already need not be given once more. -/
theorem vocabulary_of_stored [Lexicon.Bundle] {translations : Mapping Json}
    (textual : Json.Textual translations)
    (nodup : (Mapping.keys translations).Nodup) {old : Lexicon}
    (distinct : (Mapping.keys old).Nodup)
    (stored : (load d p).1 = old.update (Json.textFields translations)) :
    (vocabulary d p translations).1 = ⟨(lexicon d p).1, []⟩ := by
  have keys : (Mapping.keys (Json.textFields translations)).Nodup :=
    nodup.sublist (Json.keys_textFields_sublist _)
  have known : ∀ base : Lexicon,
      (base.update (load d p).1).update (Json.textFields translations) =
        base.update (load d p).1 := by
    intro base
    rw [stored]
    refine Mapping.update_of_find? fun kv member => ?_
    refine Mapping.find?_update_of_mem (Mapping.nodup_keys_update distinct _) ?_
    exact Mapping.mem_of_find? (Mapping.find?_update_of_mem keys member)
  simp only [vocabulary, lexicon, Vocabulary.ofTiers, Vocabulary.straysIn_textual textual,
    Lexicon.merge, List.foldl_append, List.foldl_cons, List.foldl_nil, Option.getD_some, known]
  simp [Mapping.has]

end Store

end Arabize
