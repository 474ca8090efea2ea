import Arabize.Proofs.Disk.Removal
import Arabize.Settings.Variables

/-! # Settings files that are no JSON document

A settings file whose text is no JSON document is reported and leaves the settings as they are
without a settings file (`load_of_null`).  Two kinds of bytes are not passed over in this way:
those that are no text, and those with an integer that has too many digits.  They end the
loading (`load_malformed`).

Without a settings file nothing but the file of variables can go wrong, so what is loaded with
and without the settings file is the same as long as that is another file.  Who loads it is left
open; all that counts is that it reads no other file.
-/

namespace Arabize

/-! ## The file of variables -/

namespace Variables

variable {d c : Disk} {environment : Mapping Text} {p : Path} {l : Location} {bytes : Bytes}

/-- What a loader promises: nothing counts but the file that its path leads to, if there is one. -/
def Loader.ReadsOnlyItsFile [Loader] : Prop :=
  ∀ (d c : Disk) (environment : Mapping Text) (p : Path), d.cwd = c.cwd →
    (∀ l bytes, d.locate .target p = .ok (.there l (.file bytes)) ↔
      c.locate .target p = .ok (.there l (.file bytes))) →
    load d environment p = load c environment p

/-- A file that is away, and that the path of a file of variables does not lead to, is not missed
    by a loader. -/
theorem Loader.ReadsOnlyItsFile.erase [Loader] (reads : Loader.ReadsOnlyItsFile)
    (present : d.entry? l = some (.file bytes)) (named : l ≠ [])
    (apart : ∀ e, d.locate .target p ≠ .ok (.there l e)) :
    Loader.load (d.erase l) environment p = Loader.load d environment p := by
  refine reads _ _ _ _ (Disk.cwd_erase d l) fun k more => ?_
  by_cases here : k = l
  · subst here
    refine iff_of_false (fun found => ?_) (apart _)
    -- On the disk without the file nothing is found where the file was.
    have still := (Disk.locate_eq_ok_iff.1 found).2.entry_file
    rw [Disk.entry?_erase d named, if_pos rfl] at still
    cases still
  · exact Disk.locate_file_erase_iff present named here

theorem extendByFile_of_file (found : d.locate .target p = .ok (.there l (.file bytes))) :
    extendByFile d environment p =
      match Utf8.decode bytes with
      | .error e => .error (.access (.undecodable e))
      | .ok t => (extend environment t.normalizeBreaks).mapError .variable := by
  have read : d.readBytes p = .ok bytes := Disk.readBytes_eq_ok_iff.2 ⟨l, found⟩
  simp only [extendByFile, found, Disk.readText, read]
  cases Utf8.decode bytes <;> rfl

theorem extendByFile_of_not_file
    (missing : ∀ l bytes, d.locate .target p ≠ .ok (.there l (.file bytes))) :
    extendByFile d environment p = .ok environment := by
  unfold extendByFile
  split
  next l bytes found => exact absurd found (missing l bytes)
  next => rfl

end Variables

/-- The loader of this library keeps that promise. -/
theorem Installed.readsOnlyItsFile : @Variables.Loader.ReadsOnlyItsFile Installed.loader := by
  intro d c environment p _ same
  change Variables.extendByFile d environment p = Variables.extendByFile c environment p
  by_cases found : ∃ l bytes, d.locate .target p = .ok (.there l (.file bytes))
  · obtain ⟨l, bytes, found⟩ := found
    rw [Variables.extendByFile_of_file found,
      Variables.extendByFile_of_file ((same l bytes).1 found)]
  · have missing := fun l bytes there => found ⟨l, bytes, there⟩
    rw [Variables.extendByFile_of_not_file missing,
      Variables.extendByFile_of_not_file fun l bytes there =>
        missing l bytes ((same l bytes).2 there)]

namespace Settings

variable {d : Disk} {environment : Mapping Text} {toolRoot given project p : Path}
  {l : Location} {bytes : Bytes} {log : Log}

/-! ## Bytes of a settings file -/

/-- Bytes that are no JSON document in UTF-8. -/
def Malformed (bytes : Bytes) : Prop :=
  ∀ t j, Utf8.decode bytes = .ok t → Json.read t.normalizeBreaks ≠ .ok j

/-- Bytes that are a text in which reading meets no numeral of too many digits. -/
def Legible (bytes : Bytes) : Prop :=
  ∃ t, Utf8.decode bytes = .ok t ∧ ∀ n, Json.read t.normalizeBreaks ≠ .error (.numeralTooLong n)

theorem readFile_of_missing (missing : d.readBytes p = .error (.refused .notFound p)) :
    readFile d p = .ok (.null, []) := by
  simp only [readFile, Disk.readText, missing]

/-- Malformed bytes are reported, if they are a text. -/
theorem readFile_of_legible (read : d.readBytes p = .ok bytes) (malformed : Malformed bytes)
    (legible : Legible bytes) : ∃ log, readFile d p = .ok (.null, log) := by
  obtain ⟨t, decoded, short⟩ := legible
  simp only [readFile, Disk.readText, read, decoded]
  cases outcome : Json.read t.normalizeBreaks with
  | ok j => exact absurd outcome (malformed t j decoded)
  | error e =>
    cases e with
    | numeralTooLong n => exact absurd outcome (short n)
    | malformed flaw line column offset => exact ⟨_, rfl⟩

theorem readFile_of_not_legible (read : d.readBytes p = .ok bytes) (illegible : ¬ Legible bytes) :
    (∃ e, readFile d p = .error (.access (.undecodable e))) ∨
      ∃ n, readFile d p = .error (.json (.numeralTooLong n)) := by
  simp only [readFile, Disk.readText, read]
  cases decoded : Utf8.decode bytes with
  | error e => exact .inl ⟨e, rfl⟩
  | ok t =>
    dsimp only
    cases outcome : Json.read t.normalizeBreaks with
    | ok j => exact absurd ⟨t, decoded, by simp [outcome]⟩ illegible
    | error e =>
      cases e with
      | numeralTooLong n => exact .inr ⟨n, rfl⟩
      | malformed flaw line column offset => exact absurd ⟨t, decoded, by simp [outcome]⟩ illegible

/-! ## Loading without a settings file -/

/-- The settings of a program that reads none from a file. -/
def unconfigured (cwd toolRoot project : Path) (environment : Mapping Text) : Settings :=
  { (default toolRoot).withKeys environment with
    projectRoot :=
      Path.absolute cwd (if project = [] then (default toolRoot).projectRoot else project)
    toolRoot := Path.absolute cwd toolRoot }

@[simp] theorem toolRoot_default (toolRoot : Path) : (default toolRoot).toolRoot = toolRoot := rfl

@[simp] theorem override_nil (s : Settings) : s.override [] = s := rfl

@[simp] theorem toolRoot_withKeys (s : Settings) (environment : Mapping Text) :
    (s.withKeys environment).toolRoot = s.toolRoot := by
  unfold withKeys
  dsimp only
  split <;> rfl

@[simp] theorem projectRoot_withKeys (s : Settings) (environment : Mapping Text) :
    (s.withKeys environment).projectRoot = s.projectRoot := by
  unfold withKeys
  dsimp only
  split <;> rfl

/-- Nothing from a settings file: the defaults, with keys and the project from elsewhere. -/
theorem load_of_null [Variables.Loader]
    (nothing : readFile d (filePath toolRoot given) = .ok (.null, log)) :
    load d environment toolRoot given project =
      ((Variables.Loader.load d environment (Path.join toolRoot variablesFileName)).map
        (unconfigured d.cwd toolRoot project), log) := by
  unfold load
  simp only [nothing, Json.fields?, Option.getD_none, override_nil]
  -- No field overrides anything, so only the project is left to be chosen.
  cases Variables.Loader.load d environment (Path.join toolRoot variablesFileName) with
  | error e => rfl
  | ok more =>
    by_cases unnamed : project = []
    · simp [unnamed, rootIn, withRoots, unconfigured, Except.map, bind, Except.bind, Mapping.find?]
    · simp [unnamed, withRoots, unconfigured, Except.map, bind, Except.bind]

/-! ## Loading -/

/-- With a loader that keeps what it promises, a malformed settings file leaves the settings as
    they are without it, as long as its bytes are a text and hold no numeral of too many digits;
    else nothing is loaded. -/
theorem load_malformed [Variables.Loader] (reads : Variables.Loader.ReadsOnlyItsFile)
    (found : d.locate .target (filePath toolRoot given) = .ok (.there l (.file bytes)))
    (apart : ∀ e, d.locate .target (Path.join toolRoot variablesFileName) ≠ .ok (.there l e))
    (malformed : Malformed bytes) :
    (d.erase l).readBytes (filePath toolRoot given) =
      .error (.refused .notFound (filePath toolRoot given)) ∧
    (load (d.erase l) environment toolRoot given project).1 =
      (Variables.Loader.load d environment (Path.join toolRoot variablesFileName)).map
        (unconfigured d.cwd toolRoot project) ∧
    (Legible bytes → (load d environment toolRoot given project).1 =
      (load (d.erase l) environment toolRoot given project).1) ∧
    (¬ Legible bytes →
      (∃ e, (load d environment toolRoot given project).1 =
        .error (.access (.undecodable e))) ∨
      ∃ n, (load d environment toolRoot given project).1 =
        .error (.json (.numeralTooLong n))) := by
  have named := Disk.ne_nil_of_locate (by simp) found
  have present := (Disk.locate_eq_ok_iff.1 found).2.entry_file
  have read : d.readBytes (filePath toolRoot given) = .ok bytes :=
    Disk.readBytes_eq_ok_iff.2 ⟨l, found⟩
  have missing := Disk.readBytes_erase found
  have without : (load (d.erase l) environment toolRoot given project).1 =
      (Variables.Loader.load d environment (Path.join toolRoot variablesFileName)).map
        (unconfigured d.cwd toolRoot project) := by
    rw [load_of_null (readFile_of_missing missing), reads.erase present named apart,
      Disk.cwd_erase]
  refine ⟨missing, without, fun legible => ?_, fun illegible => ?_⟩
  · obtain ⟨log, nothing⟩ := readFile_of_legible read malformed legible
    rw [without, load_of_null nothing]
  · rcases readFile_of_not_legible read illegible with ⟨e, failed⟩ | ⟨n, failed⟩
    · exact .inl ⟨e, by simp only [load, failed]⟩
    · exact .inr ⟨n, by simp only [load, failed]⟩

/-- A disk with a settings file of a byte that begins no code point. -/
def straySite : Disk := ⟨"/", [(["s"], .file [0xFF])]⟩

theorem locate_straySite :
    straySite.locate .target (filePath "/" "/s") = .ok (.there ["s"] (.file [0xFF])) := by
  have walkable : Disk.Walkable (filePath "/" "/s") := by decide
  have names : Path.components (filePath "/" "/s") = [[], "s"] := by decide
  have named : Disk.Named .target "s" [] := by decide
  refine Disk.locate_eq_ok_iff.2 ⟨walkable, ?_⟩
  rw [names]
  exact .skip (.inl rfl) (.file named (by decide))

theorem locate_variables_straySite :
    straySite.locate .target (Path.join "/" variablesFileName) = .ok (.free [".env"]) := by
  have walkable : Disk.Walkable (Path.join "/" variablesFileName) := by decide
  have names : Path.components (Path.join "/" variablesFileName) = [[], ".env"] := by decide
  have named : Disk.Named .target ".env" [] := by decide
  refine Disk.locate_eq_ok_iff.2 ⟨walkable, ?_⟩
  rw [names]
  exact .skip (.inl rfl) (.free named (by decide) rfl)

open scoped Installed

/-- Without the settings file this program has its defaults; with it there are none. -/
theorem load_malformed_undecodable :
    straySite.locate .target (filePath "/" "/s") = .ok (.there ["s"] (.file [0xFF])) ∧
    (∀ e, straySite.locate .target (Path.join "/" variablesFileName) ≠ .ok (.there ["s"] e)) ∧
    Malformed [0xFF] ∧ ¬ Legible [0xFF] ∧
    (load (straySite.erase ["s"]) [] "/" "/s" []).1 = .ok (unconfigured "/" "/" [] []) ∧
    ((∃ e, (load straySite [] "/" "/s" []).1 = .error (.access (.undecodable e))) ∨
      ∃ n, (load straySite [] "/" "/s" []).1 = .error (.json (.numeralTooLong n))) := by
  have apart : ∀ e, straySite.locate .target (Path.join "/" variablesFileName) ≠
      .ok (.there ["s"] e) := by
    intro e there
    rw [locate_variables_straySite] at there
    cases there
  have undecoded : ∀ t, Utf8.decode [0xFF] ≠ .ok t := by
    have failed : (Utf8.decode [0xFF]).isOk = false := by decide
    intro t decoded
    rw [decoded] at failed
    cases failed
  have malformed : Malformed [0xFF] := fun t _ decoded => absurd decoded (undecoded t)
  have illegible : ¬ Legible [0xFF] := by
    rintro ⟨t, decoded, _⟩
    exact undecoded t decoded
  have unextended : Variables.Loader.load straySite [] (Path.join "/" variablesFileName) = .ok [] :=
    Variables.extendByFile_of_not_file fun l bytes there => by
      simp [locate_variables_straySite] at there
  obtain ⟨_, without, _, failed⟩ := @load_malformed straySite [] "/" "/s" [] ["s"] [0xFF] _
    Installed.readsOnlyItsFile locate_straySite apart malformed
  rw [unextended] at without
  exact ⟨locate_straySite, apart, malformed, illegible, without, failed illegible⟩

end Settings

end Arabize
