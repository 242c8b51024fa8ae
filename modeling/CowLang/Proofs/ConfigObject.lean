import CowLang.CommandLine.Plan
import CowLang.Config.Text
import CowLang.Proofs.JsonGrammar
import Mathlib.Data.Bool.AllAny
/-!
# Configurations read from objects

An object gives some settings under their keys, in any order and among members with other keys, whose values
may be of any kind and depth.  Each reader takes back what is written under its key, so the settings that are
collected are those of the given keys, and the configuration is the usual one with these settings replaced.

Main statements: `readSetting_settingText` (one key), `readSettings_object` (a whole object) and
`ofText_object` (the configuration or its defect).
-/

namespace CowLang

open Json

/-! ## Choices -/

/-- The names of a type tell its values apart, and they can stand between quotes as they are. -/
class LawfulChoice (α : Type) [Choice α] : Prop where
  ofName?_name : ∀ value : α, Choice.ofName? (Choice.name value) = some value
  isPlain_name : ∀ value : α, ∀ c ∈ (Choice.name value).toList, IsPlain c

instance : LawfulChoice PointerPolicy where
  ofName?_name value := by cases value <;> decide
  isPlain_name value := List.all_iff_forall_prop.1 (by cases value <;> decide)

instance : LawfulChoice UnderflowPolicy where
  ofName?_name value := by cases value <;> decide
  isPlain_name value := List.all_iff_forall_prop.1 (by cases value <;> decide)

instance : LawfulChoice OverflowPolicy where
  ofName?_name value := by cases value <;> decide
  isPlain_name value := List.all_iff_forall_prop.1 (by cases value <;> decide)

instance : LawfulChoice RegisterMode where
  ofName?_name value := by cases value <;> decide
  isPlain_name value := List.all_iff_forall_prop.1 (by cases value <;> decide)

namespace Config

instance : LawfulChoice Key where
  ofName?_name value := by cases value <;> decide
  isPlain_name value := List.all_iff_forall_prop.1 (by cases value <;> decide)

theorem ofText_choiceText {α : Type} [Choice α] (value : α) :
    Symbol.ofText (choiceText value) =
      .char '"' :: (Symbol.ofText (Choice.name value) ++ [.char '"']) := by
  rw [choiceText, Symbol.ofText_append, Symbol.ofText_append]
  rfl

theorem choose_name {α : Type} [Choice α] [LawfulChoice α] (value : α) (rest : List Symbol) :
    choose (Choice.name value) rest = .ok value := by
  rw [choose, LawfulChoice.ofName?_name]

theorem readChoice_choiceText {α : Type} [Choice α] [LawfulChoice α] (value : α)
    (rest : List Symbol) :
    readChoice (Symbol.ofText (choiceText value) ++ rest) = .ok (value, rest) := by
  rw [ofText_choiceText, List.cons_append, List.append_assoc, List.singleton_append, readChoice,
    skipBlanks_cons_of_not_isBlank rfl]
  simp only [readString_plain (LawfulChoice.isPlain_name value), bind, Except.bind, choose_name]
  rfl

/-! ## Single settings -/

/-- A setting can be written without loss: its number, if it has one, has 64 bits, and a time limit is a whole
number of milliseconds. -/
def Fits (config : Config) : Key → Prop
  | .tapeLen => config.tapeLen ≤ Number.maxWord
  | .maxSteps => ∀ limit, config.maxSteps = some limit → limit ≤ Number.maxWord
  | .timeout => ∀ timeout, config.timeout = some timeout →
      ∃ n, n ≤ Number.maxWord ∧ timeout = .ofMilliseconds n
  | .pointerPolicy | .underflowPolicy | .overflowPolicy | .registerMode => True

/-- The settings with one more that is taken from a configuration. -/
def Settings.give (config : Config) (s : Settings) : Key → Settings
  | .tapeLen => { s with tapeLen := some config.tapeLen }
  | .pointerPolicy => { s with pointerPolicy := some config.pointerPolicy }
  | .underflowPolicy => { s with underflowPolicy := some config.underflowPolicy }
  | .overflowPolicy => { s with overflowPolicy := some config.overflowPolicy }
  | .registerMode => { s with registerMode := some config.registerMode }
  | .maxSteps => { s with maxSteps := some config.maxSteps }
  | .timeout => { s with timeout := some config.timeout }

theorem Settings.has_give (config : Config) (s : Settings) (key key' : Key) :
    (s.give config key).has key' = (s.has key' || key == key') := by
  cases key <;> cases key' <;> simp [give, has]

theorem Settings.has_foldl_give (config : Config) (key : Key) (keys : List Key) (s : Settings) :
    (keys.foldl (Settings.give config) s).has key = (s.has key || keys.contains key) := by
  induction keys generalizing s with
  | nil => rw [List.foldl_nil, List.contains_nil, Bool.or_false]
  | cons k keys ih =>
      rw [List.foldl_cons, ih, has_give, List.contains_cons, Bool.or_assoc, BEq.comm]

theorem ofText_repr (n : Nat) : Symbol.ofText (Nat.repr n) = decimal n := by
  rw [Symbol.ofText, Nat.toList_repr, decimal]

theorem readWord?_numberText (wanted : String) {n : Option Nat} {rest : List Symbol}
    (hrest : EndsNumber rest) (h : ∀ k, n = some k → k ≤ Number.maxWord) :
    readWord? wanted (Symbol.ofText (numberText n) ++ rest) = .ok (n, rest) := by
  cases n with
  | none => exact readWord?_null wanted rest
  | some n =>
      rw [numberText, ofText_repr]
      exact readWord?_decimal wanted hrest (h n rfl)

/-- The milliseconds that are written for a time limit that fits are its length. -/
theorem exists_milliseconds {config : Config} (h : config.Fits .timeout) :
    ∃ length : Option Nat, (∀ k, length = some k → k ≤ Number.maxWord) ∧
      config.settingText .timeout = numberText length ∧
      length.map Duration.ofMilliseconds = config.timeout := by
  cases htimeout : config.timeout with
  | none => exact ⟨none, nofun, by rw [settingText, htimeout, Option.map_none], rfl⟩
  | some timeout =>
      obtain ⟨n, hn, rfl⟩ := h timeout htimeout
      refine ⟨some n, fun k hk => Option.some.inj hk ▸ hn, ?_, rfl⟩
      rw [settingText, htimeout, Option.map_some, Duration.milliseconds_ofMilliseconds,
        Nat.mod_eq_of_lt (Nat.lt_succ_of_le hn)]

/-- The value of a setting is read back. -/
theorem readSetting_settingText {config : Config} {key : Key} (h : config.Fits key) (s : Settings)
    {rest : List Symbol} (hrest : EndsNumber rest) :
    readSetting s key (Symbol.ofText (config.settingText key) ++ rest) =
      .ok (s.give config key, rest) := by
  cases key with
  | tapeLen =>
      simp only [readSetting, settingText, numberText, ofText_repr, readWord_decimal "usize" hrest h]
      rfl
  | pointerPolicy | underflowPolicy | overflowPolicy | registerMode =>
      simp only [readSetting, settingText, readChoice_choiceText]
      rfl
  | maxSteps =>
      simp only [readSetting, settingText, readWord?_numberText "u64" hrest h]
      rfl
  | timeout =>
      obtain ⟨length, hle, htext, hlength⟩ := exists_milliseconds h
      simp only [readSetting, htext, readWord?_numberText "u64" hrest hle, bind, Except.bind, hlength]
      rfl

/-! ## Objects -/

/-- A member of an object: a setting with its value, or a key that names no setting with a value of any kind.
The keys are those of the settings that are given. -/
inductive IsMember (values : Config) : List Key → List Char → Prop
  | setting (key : Key) {a b c : List Char} (ha : IsBlanks a) (hb : IsBlanks b) (hc : IsBlanks c) :
      IsMember values [key] ('"' :: ((Choice.name key).toList ++ '"' ::
        (a ++ ':' :: (b ++ ((values.settingText key).toList ++ c)))))
  | other {name : String} {a text : List Char} (hplain : ∀ c ∈ name.toList, IsPlain c)
      (hname : (Choice.ofName? name : Option Key) = none) (ha : IsBlanks a) (htext : Derives .element text) :
      IsMember values [] ('"' :: (name.toList ++ '"' :: (a ++ ':' :: text)))

/-- Members with commas between them. -/
inductive IsMembers (values : Config) : List Key → List Char → Prop
  | last {keys : List Key} {text : List Char} (htext : IsMember values keys text) :
      IsMembers values keys text
  | more {keys keys' : List Key} {text blanks texts : List Char} (htext : IsMember values keys text)
      (hblanks : IsBlanks blanks) (htexts : IsMembers values keys' texts) :
      IsMembers values (keys ++ keys') (text ++ ',' :: (blanks ++ texts))

/-- A text that is an object with blanks around it. -/
inductive IsObject (values : Config) : List Key → List Char → Prop
  | empty {before inside after : List Char} (hbefore : IsBlanks before) (hinside : IsBlanks inside)
      (hafter : IsBlanks after) : IsObject values [] (before ++ '\x7b' :: (inside ++ '\x7d' :: after))
  | members {keys : List Key} {before inside text after : List Char} (hbefore : IsBlanks before)
      (hinside : IsBlanks inside) (htext : IsMembers values keys text) (hafter : IsBlanks after) :
      IsObject values keys (before ++ '\x7b' :: (inside ++ (text ++ '\x7d' :: after)))

theorem readSetting_skipBlanks (s : Settings) (key : Key) (text : List Symbol) :
    readSetting s key (skipBlanks text) = readSetting s key text := by
  cases key <;> simp only [readSetting, readWord, readWord?, readChoice, skipBlanks_skipBlanks]

/-- A member has a name without escapes, and from after the name it adds what it gives to the settings. -/
theorem readMember_member {values : Config} {keys : List Key} {text : List Char}
    (h : ∀ key ∈ keys, values.Fits key) (htext : IsMember values keys text) :
    ∃ (name : String) (tail : List Char), text = '"' :: (name.toList ++ '"' :: tail) ∧
      (∀ c ∈ name.toList, IsPlain c) ∧
      ∀ s rest, (∀ key ∈ keys, s.has key = false) → EndsNumber rest →
        ∃ left, readMember s name (tail.map .char ++ rest) =
            .ok (keys.foldl (Settings.give values) s, left) ∧
          skipBlanks left = skipBlanks rest := by
  cases htext with
  | @setting key a b c ha hb hc =>
      refine ⟨_, _, rfl, LawfulChoice.isPlain_name key, fun s rest hnew hrest => ?_⟩
      refine ⟨c.map .char ++ rest, ?_, skipBlanks_append hc rest⟩
      simp only [List.map_append, List.map_cons, List.append_assoc, List.cons_append, readMember,
        LawfulChoice.ofName?_name, hnew key List.mem_cons_self, skipColon_append ha, bind, Except.bind]
      rw [← readSetting_skipBlanks, skipBlanks_append hb, readSetting_skipBlanks]
      exact readSetting_settingText (h key List.mem_cons_self) s (hrest.append hc)
  | @other name a text hplain hname ha htext =>
      refine ⟨_, _, rfl, hplain, fun s rest hnew hrest => ?_⟩
      obtain ⟨left, hleft, hblanks⟩ := skipValue_element htext hrest
      refine ⟨left, ?_, hblanks⟩
      simp only [List.map_append, List.map_cons, List.append_assoc, List.cons_append, readMember, hname,
        skipColon_append ha, bind, Except.bind, hleft]
      rfl

theorem readMembers_last {name : String} {s s' : Settings} {tail left rest : List Symbol} (fuel : Nat)
    (hplain : ∀ c ∈ name.toList, IsPlain c) (h : readMember s name tail = .ok (s', left))
    (hleft : skipBlanks left = .char '\x7d' :: rest) :
    readMembers (fuel + 1) s (Symbol.ofText name ++ .char '"' :: tail) = .ok (s', rest) := by
  simp only [readMembers, readString_plain hplain, bind, Except.bind, h, hleft]
  rfl

theorem readMembers_more {name : String} {s s' : Settings} {tail left rest rest' : List Symbol} (fuel : Nat)
    (hplain : ∀ c ∈ name.toList, IsPlain c) (h : readMember s name tail = .ok (s', left))
    (hleft : skipBlanks left = .char ',' :: rest) (hrest : skipBlanks rest = .char '"' :: rest') :
    readMembers (fuel + 1) s (Symbol.ofText name ++ .char '"' :: tail) = readMembers fuel s' rest' := by
  simp only [readMembers, readString_plain hplain, bind, Except.bind, h, hleft, hrest]

/-- Members are read one after another, up to the end of the object. -/
theorem readMembers_members {values : Config} {keys : List Key} {text : List Char}
    (h : ∀ key ∈ keys, values.Fits key) (htext : IsMembers values keys text) :
    ∃ tail, text = '"' :: tail ∧ ∀ fuel s rest, tail.length < fuel → keys.Nodup →
      (∀ key ∈ keys, s.has key = false) →
        readMembers fuel s (tail.map .char ++ .char '\x7d' :: rest) =
          .ok (keys.foldl (Settings.give values) s, rest) := by
  induction htext with
  | last htext =>
      obtain ⟨name, tail, rfl, hplain, hmember⟩ := readMember_member h htext
      refine ⟨_, rfl, fun fuel s rest hfuel _ hnew => ?_⟩
      obtain ⟨left, hleft, hblanks⟩ := hmember s (.char '\x7d' :: rest) hnew (endsNumber_cons (by decide) _)
      obtain _ | fuel := fuel
      · cases hfuel
      · rw [List.map_append, List.append_assoc, List.map_cons, List.cons_append]
        exact readMembers_last fuel hplain hleft hblanks
  | @more keys keys' text blanks texts htext hblanks _ ih =>
      obtain ⟨h, h'⟩ := List.forall_mem_append.1 h
      obtain ⟨name, tail, rfl, hplain, hmember⟩ := readMember_member h htext
      obtain ⟨tails, rfl, hmembers⟩ := ih h'
      refine ⟨name.toList ++ '"' :: (tail ++ ',' :: (blanks ++ '"' :: tails)), ?_,
        fun fuel s rest hfuel hkeys hnew => ?_⟩
      · rw [List.cons_append, List.append_assoc, List.cons_append]
      obtain ⟨-, hkeys', hdisjoint⟩ := List.nodup_append.1 hkeys
      obtain ⟨hnew, hnew'⟩ := List.forall_mem_append.1 hnew
      obtain ⟨left, hleft, hleft'⟩ := hmember s
        (.char ',' :: (blanks.map .char ++ .char '"' :: (tails.map .char ++ .char '\x7d' :: rest))) hnew
        (endsNumber_cons (by decide) _)
      obtain _ | fuel := fuel
      · cases hfuel
      · simp only [List.map_append, List.map_cons, List.append_assoc, List.cons_append]
        rw [List.foldl_append, ← Symbol.ofText, readMembers_more fuel hplain hleft hleft']
        · simp only [List.length_append, List.length_cons] at hfuel
          refine hmembers fuel _ rest (by omega) hkeys' fun key hkey => ?_
          have hkey' : key ∉ keys := fun hmem => hdisjoint key hmem key hkey rfl
          rw [Settings.has_foldl_give, hnew' key hkey, Bool.false_or, List.contains_eq_mem,
            decide_eq_false hkey']
        · rw [skipBlanks_append hblanks, skipBlanks_cons_of_not_isBlank rfl]

theorem readSettings_of_readObject {before : List Char} {text rest : List Symbol} {s : Settings}
    (hbefore : IsBlanks before) (h : readObject text = .ok (s, rest)) (hrest : skipBlanks rest = []) :
    readSettings (before.map .char ++ .char '\x7b' :: text) = .ok s := by
  simp only [readSettings, skipBlanks_append hbefore, skipBlanks_cons_of_not_isBlank (s := .char '\x7b') rfl,
    h, bind, Except.bind, hrest]
  rfl

/-- The settings that a whole object gives are read from it. -/
theorem readSettings_object {values : Config} {keys : List Key} {text : List Char}
    (h : ∀ key ∈ keys, values.Fits key) (hkeys : keys.Nodup) (htext : IsObject values keys text) :
    readSettings (text.map .char) = .ok (keys.foldl (Settings.give values) {}) := by
  have hafter {after : List Char} (hafter : IsBlanks after) : skipBlanks (after.map .char) = [] := by
    rw [← List.append_nil (after.map _), skipBlanks_append hafter]
    rfl
  cases htext with
  | @empty before inside after hbefore hinside hend =>
      rw [List.map_append, List.map_cons, List.map_append, List.map_cons]
      refine readSettings_of_readObject hbefore ?_ (hafter hend)
      rw [readObject, skipBlanks_append hinside, skipBlanks_cons_of_not_isBlank rfl]
      rfl
  | @members _ before inside text after hbefore hinside htext hend =>
      obtain ⟨tail, rfl, hmembers⟩ := readMembers_members h htext
      rw [List.map_append, List.map_cons, List.map_append, List.map_append, List.map_cons, List.map_cons,
        List.cons_append]
      refine readSettings_of_readObject hbefore ?_ (hafter hend)
      rw [readObject, skipBlanks_append hinside, skipBlanks_cons_of_not_isBlank rfl]
      refine hmembers _ {} _ ?_ hkeys fun key _ => by cases key <;> rfl
      rw [List.length_append, List.length_map]
      omega

/-! ## The configuration -/

/-- A configuration whose settings under some keys are replaced by those of another one. -/
def override (usual values : Config) (keys : List Key) : Config where
  tapeLen := if .tapeLen ∈ keys then values.tapeLen else usual.tapeLen
  pointerPolicy := if .pointerPolicy ∈ keys then values.pointerPolicy else usual.pointerPolicy
  underflowPolicy := if .underflowPolicy ∈ keys then values.underflowPolicy else usual.underflowPolicy
  overflowPolicy := if .overflowPolicy ∈ keys then values.overflowPolicy else usual.overflowPolicy
  registerMode := if .registerMode ∈ keys then values.registerMode else usual.registerMode
  maxSteps := if .maxSteps ∈ keys then values.maxSteps else usual.maxSteps
  timeout := if .timeout ∈ keys then values.timeout else usual.timeout

/-- The defaults of the settings make up the usual configuration. -/
theorem toConfig_empty : ({} : Settings).toConfig = standard := rfl

theorem toConfig_give (values : Config) (s : Settings) (key : Key) :
    (s.give values key).toConfig = s.toConfig.override values [key] := by
  cases key <;> rfl

theorem override_override (usual values : Config) (key : Key) (keys : List Key) :
    (usual.override values [key]).override values keys = usual.override values (key :: keys) := by
  cases key <;> simp [override]

theorem toConfig_foldl_give (values : Config) (keys : List Key) (s : Settings) :
    (keys.foldl (Settings.give values) s).toConfig = s.toConfig.override values keys := by
  induction keys generalizing s with
  | nil => rfl
  | cons key keys ih => rw [List.foldl_cons, ih, toConfig_give, override_override]

/-- Settings give the configuration that they describe, or its defect. -/
theorem ofSettings_eq (settings : Settings) :
    ofSettings settings =
      match settings.toConfig.defect? with
      | some defect => .error (.defect defect)
      | none => .ok settings.toConfig := by
  rw [ofSettings, validate]
  cases settings.toConfig.defect? <;> rfl

/-- An object gives the configuration with its settings in place of the usual ones, or its defect. -/
theorem ofText_eq_of_isObject {values : Config} {keys : List Key} {text : String}
    (h : ∀ key ∈ keys, values.Fits key) (hkeys : keys.Nodup) (htext : IsObject values keys text.toList) :
    ofText text =
      match (standard.override values keys).defect? with
      | some defect => .error (.defect defect)
      | none => .ok (standard.override values keys) := by
  rw [ofText, Symbol.ofText, readSettings_object h hkeys htext]
  dsimp only
  rw [ofSettings_eq, toConfig_foldl_give, toConfig_empty]

/-- A file with an object gives what the object gives. -/
theorem ofBytes_toUTF8_of_isObject {values : Config} {keys : List Key} {text : String}
    (h : ∀ key ∈ keys, values.Fits key) (hkeys : keys.Nodup) (htext : IsObject values keys text.toList) :
    ofBytes text.toUTF8 = ofText text := by
  rw [ofBytes, ofText, Symbol.ofBytes_toUTF8, Symbol.ofText, readSettings_object h hkeys htext]

/-- Overriding looks at the keys as a set. -/
theorem override_perm (usual values : Config) {keys keys' : List Key} (h : keys'.Perm keys) :
    usual.override values keys' = usual.override values keys := by
  simp only [override, h.mem_iff]

theorem defect?_eq_none_iff {config : Config} :
    config.defect? = none ↔ config.tapeLen ≠ 0 ∧ config.maxSteps ≠ some 0 := by
  rw [defect?]
  by_cases htape : config.tapeLen = 0
  · simp [htape]
  · by_cases hsteps : config.maxSteps = some 0
    · simp [htape, hsteps]
    · simp [htape, hsteps]

/-- The settings that an object gives, each at most once and in whatever order, replace those of the usual
configuration, whatever other members and blanks there are.  The result is this configuration, unless it has a
defect, of which the tape is looked at first.  A file with the same text gives the same result. -/
theorem ofText_object (values : Config) (keys : List Key) (text : String)
    (hfits : ∀ key ∈ keys, values.Fits key) (hkeys : keys.Nodup) (htext : IsObject values keys text.toList) :
    let config := standard.override values keys
    (ofText text = .ok config ↔ config.tapeLen ≠ 0 ∧ config.maxSteps ≠ some 0) ∧
    (config.tapeLen = 0 → ofText text = .error (.defect .noTape)) ∧
    (config.tapeLen ≠ 0 → config.maxSteps = some 0 → ofText text = .error (.defect .noBudget)) ∧
    (∀ keys' text', keys'.Perm keys → IsObject values keys' text'.toList → ofText text' = ofText text) ∧
    ∀ files path, files path = .contents text.toUTF8 →
      CommandLine.loadConfig files (some path) = (ofText text).mapError CowLang.Error.config := by
  intro config
  have hread := ofText_eq_of_isObject hfits hkeys htext
  refine ⟨?_, fun htape => ?_, fun htape hsteps => ?_, fun keys' text' hperm htext' => ?_,
    fun files path hfile => ?_⟩
  · rw [← defect?_eq_none_iff, hread]
    cases config.defect? <;> simp [config]
  · rw [hread, defect?, if_pos htape]
  · rw [hread, defect?, if_neg htape, if_pos hsteps]
  · have hfits' : ∀ key ∈ keys', values.Fits key := fun key hkey => hfits key (hperm.mem_iff.1 hkey)
    rw [hread, ofText_eq_of_isObject hfits' (hperm.nodup_iff.2 hkeys) htext',
      override_perm standard values hperm]
  · rw [CommandLine.loadConfig, hfile]
    dsimp only
    rw [ofBytes_toUTF8_of_isObject hfits hkeys htext]
    cases ofText text <;> rfl

/-- The keys that an unknown member holds are not those of the object, and the order of the object's own does not
matter. -/
theorem ofText_object_nested :
    let values : Config := { tapeLen := 8, maxSteps := none }
    let text := "\x7b\"note\":[[],\x7b\"tape_len\":0\x7d],\n\"max_steps\" : null,\"tape_len\":8\x7d"
    let other := " \x7b\"tape_len\":8 ,\"max_steps\":null\x7d"
    IsObject values [.maxSteps, .tapeLen] text.toList ∧ IsObject values [.tapeLen, .maxSteps] other.toList ∧
      (∀ key ∈ [Key.maxSteps, Key.tapeLen], values.Fits key) ∧ [Key.maxSteps, Key.tapeLen].Nodup ∧
      ofText text = .ok values ∧ ofText other = .ok values ∧
      CommandLine.loadConfig (fun _ => .contents text.toUTF8) (some "config.json") = .ok values := by
  intro values text other
  have hspace : IsBlanks [' '] := by decide
  have hline : IsBlanks ['\n'] := by decide
  have hzero : Derives .element ['0'] :=
    .element .nil (.number (.parts (show [] ∈ [[], ['-']] by decide) .zero .none .none)) .nil
  have hkey : IsBody "tape_len".toList := isBody_of_isPlain (List.all_iff_forall_prop.1 (by decide))
  have hlist : Derives .element ['[', ']'] := .element .nil (.emptyArray .nil) .nil
  have hobject : Derives .element _ :=
    .element .nil (.object (.lastMember (.member .nil hkey .nil hzero))) .nil
  have hvalue : Derives .element _ := .element .nil (.array (.moreElements hlist (.lastElement hobject))) .nil
  have hnote : IsMember values [] _ :=
    .other (show ∀ c ∈ "note".toList, IsPlain c from List.all_iff_forall_prop.1 (by decide)) (by decide)
      .nil hvalue
  have hsteps : values.settingText .maxSteps = "null" := rfl
  have htape : values.settingText .tapeLen = "8" := by decide
  have htext : IsObject values [.maxSteps, .tapeLen] text.toList := by
    simpa [text, Choice.name, hsteps, htape] using
      IsObject.members .nil .nil (.more hnote hline (.more (.setting .maxSteps hspace hspace .nil) .nil
        (.last (.setting .tapeLen .nil .nil .nil)))) .nil
  have hother : IsObject values [.tapeLen, .maxSteps] other.toList := by
    have hlast : IsMembers values _ _ := .last (.setting .maxSteps .nil .nil .nil)
    simpa [other, Choice.name, hsteps, htape] using
      IsObject.members hspace .nil (.more (.setting .tapeLen .nil .nil hspace) .nil hlast) .nil
  have hfits : ∀ key ∈ [Key.maxSteps, Key.tapeLen], values.Fits key := by
    simp [Fits, values, Number.maxWord]
  obtain ⟨hread, -, -, horder, hfile⟩ := ofText_object values [.maxSteps, .tapeLen] text hfits (by decide) htext
  have hok : ofText text = .ok values := hread.2 (by decide)
  refine ⟨htext, hother, hfits, by decide, hok, ?_, ?_⟩
  · rw [horder [.tapeLen, .maxSteps] other (by decide) hother, hok]
  · rw [hfile _ _ rfl, hok]
    rfl

end Config

end CowLang
