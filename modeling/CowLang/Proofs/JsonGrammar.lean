import CowLang.Proofs.Literals
import Mathlib.Data.List.DropRight
/-!
# Well-formed JSON is passed over

The grammar of JSON says which texts are strings, numbers and values of any depth.  It is one family of
phrases, so an induction on a derivation meets arrays, objects and what they hold together.  A reader that
passes over a phrase leaves what follows it; only blanks behind a value may be left as well, since those are
passed over by whoever goes on.

Main statements: `skipString_body`, `Number.skip_append` and `skipValue_element`.
-/

namespace CowLang.Json

/-! ## The grammar -/

/-- A text of blanks. -/
def IsBlanks (text : List Char) : Prop :=
  ∀ c ∈ text, c ∈ [' ', '\n', '\t', '\r']

instance (text : List Char) : Decidable (IsBlanks text) :=
  List.decidableBAll _ text

/-- A digit in base sixteen. -/
def IsHexDigit (c : Char) : Prop :=
  ('0' ≤ c ∧ c ≤ '9') ∨ ('a' ≤ c ∧ c ≤ 'f') ∨ ('A' ≤ c ∧ c ≤ 'F')

/-- What stands between the quotes of a string. -/
inductive IsBody : List Char → Prop
  | nil : IsBody []
  | plain {c : Char} {text : List Char} (hc : IsPlain c) (htext : IsBody text) : IsBody (c :: text)
  | escape {c : Char} {text : List Char} (hc : c ∈ ['"', '\\', '/', 'b', 'f', 'n', 'r', 't'])
      (htext : IsBody text) : IsBody ('\\' :: c :: text)
  | unicode {a b c d : Char} {text : List Char} (ha : IsHexDigit a) (hb : IsHexDigit b)
      (hc : IsHexDigit c) (hd : IsHexDigit d) (htext : IsBody text) :
      IsBody ('\\' :: 'u' :: a :: b :: c :: d :: text)

/-- At least one digit. -/
def IsDigits (text : List Char) : Prop :=
  text ≠ [] ∧ ∀ c ∈ text, c.isDigit = true

/-- A whole number without a sign.  No other digit follows a zero at its head. -/
inductive IsWhole : List Char → Prop
  | zero : IsWhole ['0']
  | positive {c : Char} {text : List Char} (hc : c.isDigit = true) (hne : c ≠ '0')
      (htext : ∀ d ∈ text, d.isDigit = true) : IsWhole (c :: text)

/-- The decimal places of a number, if it has any. -/
inductive IsFraction : List Char → Prop
  | none : IsFraction []
  | places {text : List Char} (htext : IsDigits text) : IsFraction ('.' :: text)

/-- The exponent of a number, if it has one. -/
inductive IsExponent : List Char → Prop
  | none : IsExponent []
  | power {e : Char} {sign text : List Char} (he : e ∈ ['e', 'E']) (hsign : sign ∈ [[], ['+'], ['-']])
      (htext : IsDigits text) : IsExponent (e :: (sign ++ text))

/-- A number. -/
inductive IsNumber : List Char → Prop
  | parts {sign whole fraction exponent : List Char} (hsign : sign ∈ [[], ['-']])
      (hwhole : IsWhole whole) (hfraction : IsFraction fraction) (hexponent : IsExponent exponent) :
      IsNumber (sign ++ (whole ++ (fraction ++ exponent)))

/-- The phrases of the grammar that hold one another. -/
inductive Phrase where
  /-- A value without blanks around it. -/
  | value
  /-- A value with blanks around it. -/
  | element
  /-- Elements with commas between them. -/
  | elements
  /-- A key and an element. -/
  | member
  /-- Members with commas between them. -/
  | members

/-- A text is a phrase of the grammar. -/
inductive Derives : Phrase → List Char → Prop
  | null : Derives .value ['n', 'u', 'l', 'l']
  | yes : Derives .value ['t', 'r', 'u', 'e']
  | no : Derives .value ['f', 'a', 'l', 's', 'e']
  | number {text : List Char} (htext : IsNumber text) : Derives .value text
  | string {text : List Char} (htext : IsBody text) : Derives .value ('"' :: (text ++ ['"']))
  | emptyArray {blanks : List Char} (hblanks : IsBlanks blanks) : Derives .value ('[' :: (blanks ++ [']']))
  | array {text : List Char} (htext : Derives .elements text) : Derives .value ('[' :: (text ++ [']']))
  | emptyObject {blanks : List Char} (hblanks : IsBlanks blanks) :
      Derives .value ('\x7b' :: (blanks ++ ['\x7d']))
  | object {text : List Char} (htext : Derives .members text) :
      Derives .value ('\x7b' :: (text ++ ['\x7d']))
  | element {before text after : List Char} (hbefore : IsBlanks before) (htext : Derives .value text)
      (hafter : IsBlanks after) : Derives .element (before ++ (text ++ after))
  | lastElement {text : List Char} (htext : Derives .element text) : Derives .elements text
  | moreElements {text texts : List Char} (htext : Derives .element text)
      (htexts : Derives .elements texts) : Derives .elements (text ++ ',' :: texts)
  | member {before key after text : List Char} (hbefore : IsBlanks before) (hkey : IsBody key)
      (hafter : IsBlanks after) (htext : Derives .element text) :
      Derives .member (before ++ '"' :: (key ++ '"' :: (after ++ ':' :: text)))
  | lastMember {text : List Char} (htext : Derives .member text) : Derives .members text
  | moreMembers {text texts : List Char} (htext : Derives .member text)
      (htexts : Derives .members texts) : Derives .members (text ++ ',' :: texts)

/-! ## Blanks -/

theorem IsBlanks.nil : IsBlanks [] := nofun

theorem isBlank_of_mem {c : Char} (h : c ∈ [' ', '\n', '\t', '\r']) : (Symbol.char c).isBlank = true := by
  simp only [List.mem_cons, List.not_mem_nil, or_false] at h
  rcases h with rfl | rfl | rfl | rfl <;> rfl

theorem skipBlanks_append {blanks : List Char} (h : IsBlanks blanks) (rest : List Symbol) :
    skipBlanks (blanks.map .char ++ rest) = skipBlanks rest := by
  refine List.dropWhile_append_of_pos fun s hs => ?_
  obtain ⟨c, hc, rfl⟩ := List.mem_map.1 hs
  exact isBlank_of_mem (h c hc)

theorem skipBlanks_skipBlanks (text : List Symbol) : skipBlanks (skipBlanks text) = skipBlanks text :=
  List.dropWhile_idempotent Symbol.isBlank text

/-- Neither blanks nor the signs that stand behind values go on with a number. -/
theorem endsNumber_cons {c : Char} (h : c ∈ [' ', '\n', '\t', '\r'] ++ [',', ']', '\x7d'])
    (rest : List Symbol) : EndsNumber (.char c :: rest) := by
  simp only [List.cons_append, List.nil_append, List.mem_cons, List.not_mem_nil, or_false] at h
  rcases h with rfl | rfl | rfl | rfl | rfl | rfl | rfl <;> exact ⟨rfl, by decide, by decide, by decide⟩

theorem EndsNumber.append {blanks : List Char} {rest : List Symbol} (h : IsBlanks blanks)
    (hrest : EndsNumber rest) : EndsNumber (blanks.map .char ++ rest) := by
  cases blanks with
  | nil => exact hrest
  | cons c blanks => exact endsNumber_cons (List.mem_append_left _ (h c List.mem_cons_self)) _

/-! ## Strings -/

/-- A text without quotes, backslashes and controls stands for itself. -/
theorem isBody_of_isPlain {text : List Char} (h : ∀ c ∈ text, IsPlain c) : IsBody text := by
  induction text with
  | nil => exact .nil
  | cons c text ih =>
      obtain ⟨hc, htext⟩ := List.forall_mem_cons.1 h
      exact .plain hc (ih htext)

theorem skipString_cons {c : Char} (h : IsPlain c) (rest : List Symbol) :
    skipString (.char c :: rest) = skipString rest := by
  obtain ⟨hquote, hescape, hcontrol⟩ := h
  rw [skipString]
  · rw [if_neg (Nat.not_lt.2 hcontrol)]
  · exact hquote
  all_goals
    intros
    exact hescape ‹_›

theorem exists_hexDigit?_eq {c : Char} (h : IsHexDigit c) : ∃ n, (Symbol.char c).hexDigit? = some n := by
  rw [Symbol.hexDigit?]
  split
  · exact ⟨_, rfl⟩
  · split
    · exact ⟨_, rfl⟩
    · split
      · exact ⟨_, rfl⟩
      · next h0 ha hA =>
          rcases h with h | h | h
          · exact absurd h h0
          · exact absurd h ha
          · exact absurd h hA

/-- A string is passed over up to its closing quote. -/
theorem skipString_body {body : List Char} (h : IsBody body) (rest : List Symbol) :
    skipString (body.map .char ++ .char '"' :: rest) = .ok rest := by
  induction h with
  | nil => rw [List.map_nil, List.nil_append, skipString]
  | plain hc _ ih => rw [List.map_cons, List.cons_append, skipString_cons hc, ih]
  | @escape c text hc _ ih =>
      simp only [List.mem_cons, List.not_mem_nil, or_false] at hc
      rw [List.map_cons, List.map_cons, List.cons_append, List.cons_append, ← ih]
      rcases hc with rfl | rfl | rfl | rfl | rfl | rfl | rfl | rfl <;> rfl
  | @unicode a b c d text ha hb hc hd _ ih =>
      obtain ⟨a', ha⟩ := exists_hexDigit?_eq ha
      obtain ⟨b', hb⟩ := exists_hexDigit?_eq hb
      obtain ⟨c', hc⟩ := exists_hexDigit?_eq hc
      obtain ⟨d', hd⟩ := exists_hexDigit?_eq hd
      simp only [List.map_cons, List.cons_append]
      rw [skipString, hexNumber?, ha, hb, hc, hd]
      exact ih

/-! ## Numbers -/

namespace Number

/-- The digits of a whole number are split off.  There is at least one, and a zero at the head is the only
one. -/
theorem splitDigits_whole {whole : List Char} {rest : List Symbol} (h : IsWhole whole)
    (hrest : splitDigits rest = ([], rest)) :
    ∃ digits, splitDigits (whole.map .char ++ rest) = (digits, rest) ∧ digits ≠ [] ∧
      ∀ d ds, digits ≠ 0 :: d :: ds := by
  cases h with
  | zero =>
      have hdigits : ∀ c ∈ ['0'], c.isDigit = true := List.forall_mem_singleton.2 rfl
      exact ⟨_, splitDigits_append hdigits hrest, nofun, nofun⟩
  | @positive c text hc hne htext =>
      refine ⟨_, splitDigits_append (List.forall_mem_cons.2 ⟨hc, htext⟩) hrest, nofun, fun d ds heq => ?_⟩
      exact hne (eq_zero_of_digitValue_eq_zero hc (List.cons.inj heq).1)

/-- The digits of an exponent are passed over, with or without a sign. -/
theorem skipPower_append {sign text : List Char} {rest : List Symbol} (hsign : sign ∈ [[], ['+'], ['-']])
    (h : IsDigits text) (hrest : EndsNumber rest) :
    skip.skipPower ((sign ++ text).map .char ++ rest) = .ok rest := by
  obtain ⟨hne, hdigits⟩ := h
  have hsplit := splitDigits_append hdigits hrest.splitDigits_eq
  obtain ⟨c, text, rfl⟩ := List.exists_cons_of_ne_nil hne
  have hc := hdigits c List.mem_cons_self
  simp only [List.mem_cons, List.not_mem_nil, or_false] at hsign
  rcases hsign with rfl | rfl | rfl
  · rw [List.nil_append, skip.skipPower, hsplit]
    · rfl
    · exact fun _ heq => ne_of_isDigit hc rfl (Symbol.char.inj (List.cons.inj heq).1)
    · exact fun _ heq => ne_of_isDigit hc rfl (Symbol.char.inj (List.cons.inj heq).1)
  · rw [List.singleton_append, List.map_cons, List.cons_append, skip.skipPower, hsplit]
    rfl
  · rw [List.singleton_append, List.map_cons, List.cons_append, skip.skipPower, hsplit]
    rfl

theorem skipExponent_append {exponent : List Char} {rest : List Symbol} (h : IsExponent exponent)
    (hrest : EndsNumber rest) : skip.skipExponent (exponent.map .char ++ rest) = .ok rest := by
  cases h with
  | none =>
      cases rest with
      | nil => rfl
      | cons s rest =>
          obtain ⟨-, -, hsmall, hlarge⟩ := hrest
          rw [List.map_nil, List.nil_append, skip.skipExponent]
          · exact fun _ heq => hsmall (List.cons.inj heq).1
          · exact fun _ heq => hlarge (List.cons.inj heq).1
  | @power e sign text he hsign htext =>
      simp only [List.mem_cons, List.not_mem_nil, or_false] at he
      rcases he with rfl | rfl
      · exact skipPower_append hsign htext hrest
      · exact skipPower_append hsign htext hrest

/-- Neither a digit nor a point begins an exponent. -/
theorem exponent_head {exponent : List Char} {rest : List Symbol} (h : IsExponent exponent)
    (hrest : EndsNumber rest) :
    splitDigits (exponent.map .char ++ rest) = ([], exponent.map .char ++ rest) ∧
      ∀ text, exponent.map .char ++ rest ≠ .char '.' :: text := by
  cases h with
  | none =>
      refine ⟨hrest.splitDigits_eq, fun text => ?_⟩
      rintro rfl
      exact hrest.2.1 rfl
  | @power e sign text he hsign htext =>
      simp only [List.mem_cons, List.not_mem_nil, or_false] at he
      rcases he with rfl | rfl <;> exact ⟨rfl, fun text => by simp⟩

theorem ne_minus_of_isWhole {whole : List Char} (h : IsWhole whole) (tail rest : List Symbol) :
    whole.map .char ++ tail ≠ .char '-' :: rest := by
  cases h with
  | zero => nofun
  | positive hc hne htext => exact fun heq => ne_of_isDigit hc rfl (Symbol.char.inj (List.cons.inj heq).1)

/-- The digits before and after the point are passed over. -/
theorem skip_places {whole fraction : List Char} {tail : List Symbol} (hwhole : IsWhole whole)
    (hfraction : IsFraction fraction) (htail : splitDigits tail = ([], tail))
    (hpoint : ∀ rest, tail ≠ .char '.' :: rest) :
    skip (whole.map .char ++ (fraction.map .char ++ tail)) = skip.skipExponent tail := by
  cases hfraction with
  | none =>
      obtain ⟨digits, hdigits, hnil, hzero⟩ := splitDigits_whole hwhole htail
      rw [List.map_nil, List.nil_append, skip, hdigits]
      · split
        · next heq => exact absurd (Prod.mk.inj heq).1 hnil
        · next heq => exact absurd (Prod.mk.inj heq).1 (hzero _ _)
        · next heq => exact absurd (Prod.mk.inj heq).2 (hpoint _)
        · next heq => rw [(Prod.mk.inj heq).2]
      · exact ne_minus_of_isWhole hwhole _
  | @places text htext =>
      have hplaces := splitDigits_append htext.2 htail
      have hpoint' : splitDigits (.char '.' :: (text.map .char ++ tail)) =
          ([], .char '.' :: (text.map .char ++ tail)) := rfl
      obtain ⟨digits, hdigits, hnil, hzero⟩ := splitDigits_whole hwhole hpoint'
      rw [List.map_cons, List.cons_append, skip, hdigits]
      · split
        · next heq => exact absurd (Prod.mk.inj heq).1 hnil
        · next heq => exact absurd (Prod.mk.inj heq).1 (hzero _ _)
        · next heq =>
            rw [← (List.cons.inj (Prod.mk.inj heq).2).2, hplaces]
            split
            · next heq' => exact absurd (List.map_eq_nil_iff.1 (Prod.mk.inj heq').1) htext.1
            · next heq' => rw [(Prod.mk.inj heq').2]
        · next hno heq => exact absurd (Prod.mk.inj heq).2.symm (hno _)
      · exact ne_minus_of_isWhole hwhole _

/-- A number is passed over when nothing follows that goes on with it. -/
theorem skip_append {text : List Char} {rest : List Symbol} (h : IsNumber text) (hrest : EndsNumber rest) :
    skip (text.map .char ++ rest) = .ok rest := by
  obtain ⟨hsign, hwhole, hfraction, hexponent⟩ := h
  obtain ⟨htail, hpoint⟩ := exponent_head hexponent hrest
  have hplaces := skip_places hwhole hfraction htail hpoint
  rw [skipExponent_append hexponent hrest] at hplaces
  simp only [List.mem_cons, List.not_mem_nil, or_false] at hsign
  simp only [List.map_append, List.append_assoc]
  rcases hsign with rfl | rfl
  · exact hplaces
  · rw [List.map_singleton, List.singleton_append, ← hplaces, skip, skip]
    exact ne_minus_of_isWhole hwhole _

end Number

/-! ## Values -/

theorem skipValueWith_skipBlanks (fuel : Nat) (text : List Symbol) :
    skipValueWith fuel (skipBlanks text) = skipValueWith fuel text := by
  cases fuel with
  | zero => rw [skipValueWith, skipValueWith]
  | succ fuel => rw [skipValueWith, skipValueWith, skipBlanks_skipBlanks]

theorem skipElements_skipBlanks (fuel : Nat) (text : List Symbol) :
    skipElements fuel (skipBlanks text) = skipElements fuel text := by
  cases fuel with
  | zero => rw [skipElements, skipElements]
  | succ fuel => rw [skipElements, skipElements, skipValueWith_skipBlanks]

theorem skipMembers_skipBlanks (fuel : Nat) (text : List Symbol) :
    skipMembers fuel (skipBlanks text) = skipMembers fuel text := by
  cases fuel with
  | zero => rw [skipMembers, skipMembers]
  | succ fuel => rw [skipMembers, skipMembers, skipKey, skipKey, skipBlanks_skipBlanks]

/-- A value is at the head of elements that are passed over. -/
theorem exists_skipValueWith_eq_ok {fuel : Nat} {text rest : List Symbol}
    (h : skipElements fuel text = .ok rest) : ∃ fuel left, skipValueWith (fuel + 1) text = .ok left := by
  obtain _ | fuel := fuel
  · cases h
  · cases hvalue : skipValueWith fuel text with
    | error e =>
        rw [skipElements, hvalue] at h
        cases h
    | ok left =>
        obtain _ | fuel := fuel
        · cases hvalue
        · exact ⟨fuel, left, hvalue⟩

/-- A key is at the head of members that are passed over. -/
theorem exists_skipKey_eq_ok {fuel : Nat} {text rest : List Symbol}
    (h : skipMembers fuel text = .ok rest) : ∃ left, skipKey text = .ok left := by
  obtain _ | fuel := fuel
  · cases h
  · cases hkey : skipKey text with
    | error e =>
        rw [skipMembers, hkey] at h
        cases h
    | ok left => exact ⟨left, rfl⟩

/-- An array is passed over if its elements are, since they begin with a value. -/
theorem skipValueWith_array {fuel : Nat} {text rest : List Symbol} (h : skipElements fuel text = .ok rest) :
    skipValueWith (fuel + 1) (.char '[' :: text) = .ok rest := by
  rw [← skipElements_skipBlanks] at h
  obtain ⟨fuel', left, hvalue⟩ := exists_skipValueWith_eq_ok h
  simp only [skipValueWith, skipBlanks_cons_of_not_isBlank (s := .char '[') rfl]
  split
  · next heq => rw [heq] at hvalue; cases hvalue
  · next heq => rw [heq] at hvalue; cases hvalue
  · exact h

/-- An object is passed over if its members are, since they begin with a key. -/
theorem skipValueWith_object {fuel : Nat} {text rest : List Symbol} (h : skipMembers fuel text = .ok rest) :
    skipValueWith (fuel + 1) (.char '\x7b' :: text) = .ok rest := by
  rw [← skipMembers_skipBlanks] at h
  obtain ⟨left, hkey⟩ := exists_skipKey_eq_ok h
  simp only [skipValueWith, skipBlanks_cons_of_not_isBlank (s := .char '\x7b') rfl]
  split
  · next heq => rw [heq] at hkey; cases hkey
  · next heq => rw [heq] at hkey; cases hkey
  · exact h

theorem skipValueWith_emptyArray (fuel : Nat) {blanks : List Char} (h : IsBlanks blanks) (rest : List Symbol) :
    skipValueWith (fuel + 1) (.char '[' :: (blanks.map .char ++ .char ']' :: rest)) = .ok rest := by
  simp only [skipValueWith, skipBlanks_cons_of_not_isBlank (s := .char '[') rfl, skipBlanks_append h,
    skipBlanks_cons_of_not_isBlank (s := .char ']') rfl]

theorem skipValueWith_emptyObject (fuel : Nat) {blanks : List Char} (h : IsBlanks blanks)
    (rest : List Symbol) :
    skipValueWith (fuel + 1) (.char '\x7b' :: (blanks.map .char ++ .char '\x7d' :: rest)) = .ok rest := by
  simp only [skipValueWith, skipBlanks_cons_of_not_isBlank (s := .char '\x7b') rfl, skipBlanks_append h,
    skipBlanks_cons_of_not_isBlank (s := .char '\x7d') rfl]

/-- A number is passed over as a value. -/
theorem skipValueWith_number {fuel : Nat} {c : Char} {text : List Symbol} (h : c = '-' ∨ c.isDigit = true) :
    skipValueWith (fuel + 1) (.char c :: text) = Number.skip (.char c :: text) := by
  have hne (d : Char) (hminus : d ≠ '-') (hd : d.isDigit = false) : c ≠ d := by
    rintro rfl
    exact h.elim hminus fun hc => ne_of_isDigit hc hd rfl
  have hblank : (Symbol.char c).isBlank = false := by
    rcases h with rfl | h
    · rfl
    · exact isBlank_of_isDigit h
  have hnumber : (Symbol.char c = .char '-' || (Symbol.char c).digit?.isSome) = true := by
    rcases h with rfl | h
    · rfl
    · rw [digit?_of_isDigit h, Option.isSome_some, Bool.or_true]
  rw [skipValueWith, skipBlanks_cons_of_not_isBlank hblank]
  split
  case h_1 heq => cases heq
  case h_8 heq =>
      obtain ⟨rfl, rfl⟩ := List.cons.inj heq
      rw [if_pos hnumber]
  all_goals exact absurd (Symbol.char.inj (List.cons.inj ‹_›).1) (hne _ (by decide) rfl)

/-- What is left of elements after the first is passed over. -/
theorem skipElements_last {fuel : Nat} {text left rest : List Symbol} (h : skipValueWith fuel text = .ok left)
    (hleft : skipBlanks left = .char ']' :: rest) : skipElements (fuel + 1) text = .ok rest := by
  simp only [skipElements, h, bind, Except.bind, hleft]

theorem skipElements_more {fuel : Nat} {text left rest : List Symbol} (h : skipValueWith fuel text = .ok left)
    (hleft : skipBlanks left = .char ',' :: rest) :
    skipElements (fuel + 1) text = skipElements fuel rest := by
  simp only [skipElements, h, bind, Except.bind, hleft]

theorem skipMembers_last {fuel : Nat} {text value left rest : List Symbol} (hkey : skipKey text = .ok value)
    (h : skipValueWith fuel value = .ok left) (hleft : skipBlanks left = .char '\x7d' :: rest) :
    skipMembers (fuel + 1) text = .ok rest := by
  simp only [skipMembers, hkey, h, bind, Except.bind, hleft]

theorem skipMembers_more {fuel : Nat} {text value left rest : List Symbol} (hkey : skipKey text = .ok value)
    (h : skipValueWith fuel value = .ok left) (hleft : skipBlanks left = .char ',' :: rest) :
    skipMembers (fuel + 1) text = skipMembers fuel rest := by
  simp only [skipMembers, hkey, h, bind, Except.bind, hleft]

theorem skipColon_append {blanks : List Char} (h : IsBlanks blanks) (rest : List Symbol) :
    skipColon (blanks.map .char ++ .char ':' :: rest) = .ok rest := by
  simp only [skipColon, skipBlanks_append h, skipBlanks_cons_of_not_isBlank (s := .char ':') rfl]

/-- A key is passed over together with its colon. -/
theorem skipKey_append {before key after : List Char} (hbefore : IsBlanks before) (hkey : IsBody key)
    (hafter : IsBlanks after) (rest : List Symbol) :
    skipKey (before.map .char ++ .char '"' :: (key.map .char ++ .char '"' ::
      (after.map .char ++ .char ':' :: rest))) = .ok rest := by
  simp only [skipKey, skipBlanks_append hbefore, skipBlanks_cons_of_not_isBlank (s := .char '"') rfl,
    skipString_body hkey, bind, Except.bind, skipColon_append hafter]

/-- What it means to pass over a phrase, with fuel for every character of it. -/
def Passed : Phrase → List Char → Prop
  | .value, text | .element, text => ∀ fuel rest, text.length ≤ fuel → EndsNumber rest →
      ∃ left, skipValueWith fuel (text.map .char ++ rest) = .ok left ∧ skipBlanks left = skipBlanks rest
  | .elements, text => ∀ fuel rest, text.length < fuel →
      skipElements fuel (text.map .char ++ .char ']' :: rest) = .ok rest
  | .member, text => ∀ fuel rest, text.length ≤ fuel → EndsNumber rest →
      ∃ value left, skipKey (text.map .char ++ rest) = .ok value ∧ skipValueWith fuel value = .ok left ∧
        skipBlanks left = skipBlanks rest
  | .members, text => ∀ fuel rest, text.length < fuel →
      skipMembers fuel (text.map .char ++ .char '\x7d' :: rest) = .ok rest

/-- A value is passed over if one more than the fuel for what follows its first character is enough. -/
theorem passed_value {c : Char} {text : List Char}
    (h : ∀ fuel rest, text.length ≤ fuel → EndsNumber rest →
      skipValueWith (fuel + 1) (.char c :: (text.map .char ++ rest)) = .ok rest) :
    Passed .value (c :: text) := by
  intro fuel rest hfuel hrest
  obtain _ | fuel := fuel
  · cases hfuel
  · exact ⟨rest, h fuel rest (Nat.le_of_succ_le_succ hfuel) hrest, rfl⟩

theorem passed_number {text : List Char} (h : IsNumber text) : Passed .value text := by
  have hhead : ∃ c tail, text = c :: tail ∧ (c = '-' ∨ c.isDigit = true) := by
    obtain ⟨hsign, hwhole, -, -⟩ := h
    simp only [List.mem_cons, List.not_mem_nil, or_false] at hsign
    rcases hsign with rfl | rfl
    · cases hwhole with
      | zero => exact ⟨_, _, rfl, .inr rfl⟩
      | positive hc => exact ⟨_, _, rfl, .inr hc⟩
    · exact ⟨_, _, rfl, .inl rfl⟩
  obtain ⟨c, tail, rfl, hc⟩ := hhead
  refine passed_value fun fuel rest _ hrest => ?_
  rw [skipValueWith_number hc]
  exact Number.skip_append h hrest

theorem passed_element {before text after : List Char} (hbefore : IsBlanks before)
    (h : Passed .value text) (hafter : IsBlanks after) : Passed .element (before ++ (text ++ after)) := by
  intro fuel rest hfuel hrest
  rw [List.length_append, List.length_append] at hfuel
  obtain ⟨left, hleft, hblanks⟩ := h fuel _ (by omega) (hrest.append hafter)
  refine ⟨left, ?_, by rw [hblanks, skipBlanks_append hafter]⟩
  rw [List.map_append, List.map_append, List.append_assoc, List.append_assoc, ← skipValueWith_skipBlanks,
    skipBlanks_append hbefore, skipValueWith_skipBlanks, hleft]

theorem passed_member {before key after text : List Char} (hbefore : IsBlanks before) (hkey : IsBody key)
    (hafter : IsBlanks after) (h : Passed .element text) :
    Passed .member (before ++ '"' :: (key ++ '"' :: (after ++ ':' :: text))) := by
  intro fuel rest hfuel hrest
  simp only [List.length_append, List.length_cons] at hfuel
  obtain ⟨left, hleft, hblanks⟩ := h fuel rest (by omega) hrest
  refine ⟨_, left, ?_, hleft, hblanks⟩
  simp only [List.map_append, List.map_cons, List.append_assoc, List.cons_append,
    skipKey_append hbefore hkey hafter]

theorem passed_moreElements {text texts : List Char} (h : Passed .element text)
    (htexts : Passed .elements texts) : Passed .elements (text ++ ',' :: texts) := by
  intro fuel rest hfuel
  rw [List.length_append, List.length_cons] at hfuel
  obtain _ | fuel := fuel
  · cases hfuel
  · obtain ⟨left, hleft, hblanks⟩ :=
      h fuel (.char ',' :: (texts.map .char ++ .char ']' :: rest)) (by omega) (endsNumber_cons (by decide) _)
    rw [List.map_append, List.append_assoc, List.map_cons, List.cons_append, skipElements_more hleft hblanks]
    exact htexts fuel rest (by omega)

theorem passed_moreMembers {text texts : List Char} (h : Passed .member text)
    (htexts : Passed .members texts) : Passed .members (text ++ ',' :: texts) := by
  intro fuel rest hfuel
  rw [List.length_append, List.length_cons] at hfuel
  obtain _ | fuel := fuel
  · cases hfuel
  · obtain ⟨value, left, hkey, hleft, hblanks⟩ :=
      h fuel (.char ',' :: (texts.map .char ++ .char '\x7d' :: rest)) (by omega)
        (endsNumber_cons (by decide) _)
    rw [List.map_append, List.append_assoc, List.map_cons, List.cons_append,
      skipMembers_more hkey hleft hblanks]
    exact htexts fuel rest (by omega)

/-- Every phrase is passed over.  The induction is on how the grammar derives it. -/
theorem Derives.passed {phrase : Phrase} {text : List Char} (h : Derives phrase text) :
    Passed phrase text := by
  induction h with
  | null | yes | no => exact passed_value fun _ _ _ _ => rfl
  | number htext => exact passed_number htext
  | string htext =>
      refine passed_value fun fuel rest _ _ => ?_
      rw [List.map_append, List.append_assoc]
      exact skipString_body htext rest
  | emptyArray hblanks =>
      refine passed_value fun fuel rest _ _ => ?_
      rw [List.map_append, List.append_assoc]
      exact skipValueWith_emptyArray fuel hblanks rest
  | array _ ih =>
      refine passed_value fun fuel rest hfuel _ => ?_
      rw [List.length_append] at hfuel
      rw [List.map_append, List.append_assoc]
      exact skipValueWith_array (ih fuel rest hfuel)
  | emptyObject hblanks =>
      refine passed_value fun fuel rest _ _ => ?_
      rw [List.map_append, List.append_assoc]
      exact skipValueWith_emptyObject fuel hblanks rest
  | object _ ih =>
      refine passed_value fun fuel rest hfuel _ => ?_
      rw [List.length_append] at hfuel
      rw [List.map_append, List.append_assoc]
      exact skipValueWith_object (ih fuel rest hfuel)
  | element hbefore _ hafter ih => exact passed_element hbefore ih hafter
  | lastElement _ ih =>
      intro fuel rest hfuel
      obtain _ | fuel := fuel
      · cases hfuel
      · obtain ⟨left, hleft, hblanks⟩ :=
          ih fuel (.char ']' :: rest) (Nat.le_of_lt_succ hfuel) (endsNumber_cons (by decide) _)
        exact skipElements_last hleft hblanks
  | moreElements _ _ ih ihtexts => exact passed_moreElements ih ihtexts
  | member hbefore hkey hafter _ ih => exact passed_member hbefore hkey hafter ih
  | lastMember _ ih =>
      intro fuel rest hfuel
      obtain _ | fuel := fuel
      · cases hfuel
      · obtain ⟨value, left, hkey, hleft, hblanks⟩ :=
          ih fuel (.char '\x7d' :: rest) (Nat.le_of_lt_succ hfuel) (endsNumber_cons (by decide) _)
        exact skipMembers_last hkey hleft hblanks
  | moreMembers _ _ ih ihtexts => exact passed_moreMembers ih ihtexts

/-- A value of any depth, with or without blanks around it, is passed over. -/
theorem skipValue_element {text : List Char} (h : Derives .element text) {rest : List Symbol}
    (hrest : EndsNumber rest) :
    ∃ left, skipValue (text.map .char ++ rest) = .ok left ∧ skipBlanks left = skipBlanks rest := by
  refine h.passed _ rest ?_ hrest
  rw [List.length_append, List.length_map]
  omega

end CowLang.Json
