import CowLang.Proofs.ConfigObject
/-!
# Configurations written and read back

The text of a configuration is an object without blanks that gives every setting, so all settings are replaced
when it is read.  What the text cannot say is the part of the time limit below a millisecond and beyond 64
bits; all else is kept, so reading gives the configuration that was written, or complains of its defect.

Main statements: `isObject_text` (the text is an object), `ofText_text` (what is read from it) and
`ofText_text_iff` (when a configuration survives).
-/

namespace CowLang

open Json

namespace Config

/-! ## The configuration that a text describes -/

/-- A time limit as a text gives it, in whole milliseconds of 64 bits. -/
def writtenTimeout (timeout : Duration) : Duration :=
  .ofMilliseconds (timeout.milliseconds % (Number.maxWord + 1))

theorem milliseconds_writtenTimeout (timeout : Duration) :
    (writtenTimeout timeout).milliseconds = timeout.milliseconds % (Number.maxWord + 1) :=
  Duration.milliseconds_ofMilliseconds _

theorem writtenTimeout_of_le {timeout : Duration} (h : timeout.milliseconds ≤ Number.maxWord) :
    writtenTimeout timeout = .ofMilliseconds timeout.milliseconds := by
  rw [writtenTimeout, Nat.mod_eq_of_lt (Nat.lt_succ_of_le h)]

/-- A time limit is left as it was when it has whole milliseconds of 64 bits. -/
theorem writtenTimeout_eq_self_iff {timeout : Duration} :
    writtenTimeout timeout = timeout ↔
      ∃ n, n ≤ Number.maxWord ∧ timeout = .ofMilliseconds n := by
  constructor
  · intro h
    exact ⟨_, Nat.le_of_lt_succ (Nat.mod_lt timeout.milliseconds (Nat.succ_pos _)), h.symm⟩
  · rintro ⟨n, hn, rfl⟩
    rw [← Duration.milliseconds_ofMilliseconds n] at hn
    rw [writtenTimeout_of_le hn, Duration.milliseconds_ofMilliseconds]

/-- What is left of a configuration in its text. -/
def written (config : Config) : Config :=
  { config with timeout := config.timeout.map writtenTimeout }

theorem defect?_written (config : Config) : config.written.defect? = config.defect? := rfl

/-- A configuration is left as it was when its time limit has whole milliseconds of 64 bits. -/
theorem written_eq_self_iff {config : Config} :
    config.written = config ↔
      ∀ timeout, config.timeout = some timeout →
        ∃ n, n ≤ Number.maxWord ∧ timeout = .ofMilliseconds n := by
  have hself : config.written = config ↔ config.timeout.map writtenTimeout = config.timeout := by
    constructor
    · exact congrArg Config.timeout
    · intro h
      rw [written, h]
  rw [hself]
  cases config.timeout with
  | none => simp
  | some timeout => simpa using writtenTimeout_eq_self_iff

/-- What is left of a configuration is written in the same way. -/
theorem text_written (config : Config) : config.written.text = config.text := by
  have hsetting (key : Key) : config.written.settingText key = config.settingText key := by
    cases key with
    | timeout =>
        rw [settingText, settingText, written, Option.map_map]
        congr 2
        funext timeout
        rw [Function.comp_apply, milliseconds_writtenTimeout, Nat.mod_mod]
    | _ => rfl
  simp only [text, hsetting]

/-- What is left of a configuration in its text can be written without loss. -/
theorem fits_written {config : Config} (htape : config.tapeLen ≤ Number.maxWord)
    (hsteps : ∀ limit, config.maxSteps = some limit → limit ≤ Number.maxWord) (key : Key) :
    config.written.Fits key := by
  cases key with
  | tapeLen => exact htape
  | maxSteps => exact hsteps
  | timeout =>
      intro timeout htimeout
      obtain ⟨t, -, rfl⟩ := Option.map_eq_some_iff.1 htimeout
      exact ⟨_, Nat.le_of_lt_succ (Nat.mod_lt t.milliseconds (Nat.succ_pos _)), rfl⟩
  | pointerPolicy | underflowPolicy | overflowPolicy | registerMode => trivial

/-! ## Whole texts -/

/-- A member, as it is written. -/
theorem isMember_text (config : Config) (key : Key) :
    IsMember config [key] (choiceText key ++ ":" ++ config.settingText key).toList := by
  have hmember := @IsMember.setting config key _ _ _ .nil .nil .nil
  simpa [choiceText] using hmember

/-- Several members are written with commas between them. -/
theorem isMembers_text (config : Config) (key : Key) (keys : List Key) :
    IsMembers config (key :: keys) (String.intercalate "," ((key :: keys).map fun k =>
      choiceText k ++ ":" ++ config.settingText k)).toList := by
  induction keys generalizing key with
  | nil =>
      rw [List.map_singleton, String.intercalate_singleton]
      exact .last (isMember_text config key)
  | cons next keys ih =>
      have hmore := IsMembers.more (isMember_text config key) .nil (ih next)
      rw [List.map_cons, List.map_cons, String.intercalate_cons_cons]
      simpa using hmore

/-- The text of a configuration is an object that gives every setting. -/
theorem isObject_text (config : Config) : IsObject config Choice.all config.text.toList := by
  obtain ⟨key, keys, hall⟩ : ∃ key keys, (Choice.all : List Key) = key :: keys := ⟨_, _, rfl⟩
  have hobject := IsObject.members .nil .nil (isMembers_text config key keys) .nil
  have hopen : "\x7b".toList = ['\x7b'] := rfl
  have hclose : "\x7d".toList = ['\x7d'] := rfl
  rw [List.nil_append, List.nil_append] at hobject
  rw [text, String.toList_append, String.toList_append, List.append_assoc, hopen, hclose, hall]
  exact hobject

/-- All settings are in the text, so nothing is left of the usual configuration. -/
theorem override_all (usual config : Config) : usual.override config Choice.all = config := rfl

/-- A configuration is read back from its text up to what the text leaves of it, unless it has a defect. -/
theorem ofText_text {config : Config} (htape : config.tapeLen ≤ Number.maxWord)
    (hsteps : ∀ limit, config.maxSteps = some limit → limit ≤ Number.maxWord) :
    ofText config.text =
      match config.defect? with
      | some defect => .error (.defect defect)
      | none => .ok config.written := by
  have hread := ofText_eq_of_isObject (fun key _ => fits_written htape hsteps key) (by decide)
    (isObject_text config.written)
  rw [override_all, defect?_written, text_written] at hread
  exact hread

theorem validate_eq_ok_iff {config : Config} : config.validate = .ok config ↔ config.defect? = none := by
  rw [validate]
  cases config.defect? <;> simp

theorem validate_eq_error_iff {config : Config} {defect : Defect} :
    config.validate = .error defect ↔ config.defect? = some defect := by
  rw [validate]
  cases config.defect? <;> simp

/-- A configuration whose numbers have 64 bits is read back from its text exactly when it has no defect and
its time limit, if there is one, is a whole number of milliseconds of 64 bits.  A defect is complained of as
it would be without the text.  A time limit below the bound is cut down to whole milliseconds, and what comes
out is written in the same way. -/
theorem ofText_text_iff (config : Config) (htape : config.tapeLen ≤ Number.maxWord)
    (hsteps : ∀ limit, config.maxSteps = some limit → limit ≤ Number.maxWord) :
    (ofText config.text = .ok config ↔
      config.validate = .ok config ∧ ∀ timeout, config.timeout = some timeout →
        ∃ n, n ≤ Number.maxWord ∧ timeout = .ofMilliseconds n) ∧
    (∀ defect, config.validate = .error defect → ofText config.text = .error (.defect defect)) ∧
    ∀ timeout, config.validate = .ok config → config.timeout = some timeout →
      timeout.milliseconds ≤ Number.maxWord →
        ofText config.text =
          .ok { config with timeout := some (.ofMilliseconds timeout.milliseconds) } ∧
        { config with timeout := some (.ofMilliseconds timeout.milliseconds) }.text = config.text := by
  have hread := ofText_text htape hsteps
  refine ⟨?_, fun defect hdefect => ?_, fun timeout hvalid htimeout hle => ?_⟩
  · rw [hread, validate_eq_ok_iff, ← written_eq_self_iff]
    cases config.defect? <;> simp
  · rw [hread, validate_eq_error_iff.1 hdefect]
  · have hwritten : config.written =
        { config with timeout := some (.ofMilliseconds timeout.milliseconds) } := by
      rw [written, htimeout, Option.map_some, writtenTimeout_of_le hle]
    constructor
    · rw [hread, validate_eq_ok_iff.1 hvalid, hwritten]
    · rw [← hwritten, text_written]

/-- The permissive configuration survives.  Half a millisecond does not, and a budget of no steps is a defect
with and without the text. -/
theorem ofText_text_iff_half_millisecond :
    let config : Config := { tapeLen := 2, maxSteps := none, timeout := some (.ofMicroseconds 1500) }
    let exhausted : Config := { maxSteps := some 0 }
    ofText permissive.text = .ok permissive ∧ ofText config.text ≠ .ok config ∧
      ofText config.text = .ok { config with timeout := some (.ofMilliseconds 1) } ∧
      ofText exhausted.text = .error (.defect .noBudget) := by
  intro config exhausted
  obtain ⟨hsurvives, -, hcut⟩ := ofText_text_iff config (by decide) (fun _ h => by cases h)
  refine ⟨?_, fun h => ?_, (hcut (.ofMicroseconds 1500) rfl rfl (by decide)).1, ?_⟩
  · refine (ofText_text_iff permissive (by decide) ?_).1.2 ⟨rfl, fun _ h => by cases h⟩
    rintro limit ⟨⟩
    decide
  · obtain ⟨n, -, hn⟩ := (hsurvives.1 h).2 _ rfl
    have hlength : 1500 * 1000 = n * 1000000 := congrArg Duration.nanoseconds hn
    omega
  · refine (ofText_text_iff exhausted (by decide) ?_).2.1 .noBudget rfl
    rintro limit ⟨⟩
    decide

end Config

end CowLang
