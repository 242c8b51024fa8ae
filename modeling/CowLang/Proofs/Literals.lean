import CowLang.Json.Value
import Mathlib.Data.List.Basic
/-!
# Reading plain values back

Numbers are written in decimal without leading zeros, and names between quotes without escapes.  What is
written in this way is read back by the readers for JSON, whatever comes after it; only a number must be
followed by something that cannot go on with it.

Main statements: `Number.read_decimal` (numbers of 64 bits), `readWord?_decimal` and `readWord?_null` (numbers
that may be missing) and `readString_plain` (names).
-/

namespace CowLang.Json

/-! ## Symbols of a text -/

@[simp]
theorem Symbol.ofText_append (s t : String) : ofText (s ++ t) = ofText s ++ ofText t := by
  rw [ofText, String.toList_append, List.map_append, ofText, ofText]

/-- A text is found again in its bytes. -/
theorem Symbol.ofBytes_toUTF8 (text : String) : ofBytes text.toUTF8 = ofText text := by
  have hvalid : text.toUTF8.IsValidUTF8 := text.isValidUTF8
  rw [ofBytes, String.fromUTF8?, dif_pos hvalid]
  rfl

theorem skipBlanks_cons_of_not_isBlank {s : Symbol} (h : s.isBlank = false) (rest : List Symbol) :
    skipBlanks (s :: rest) = s :: rest := by
  rw [skipBlanks, List.dropWhile_cons_of_neg (by rw [h]; exact Bool.false_ne_true)]

/-! ## Numbers -/

/-- The decimal digits of a number, without leading zeros. -/
def decimal (n : Nat) : List Symbol :=
  (Nat.toDigits 10 n).map .char

/-- What a digit counts. -/
def digitValue (c : Char) : Nat := c.toNat - '0'.toNat

theorem ne_of_isDigit {c d : Char} (hc : c.isDigit = true) (hd : d.isDigit = false) : c ≠ d := by
  rintro rfl
  rw [hc] at hd
  cases hd

theorem isBlank_of_isDigit {c : Char} (h : c.isDigit = true) : (Symbol.char c).isBlank = false := by
  have hne (d : Char) (hd : d.isDigit = false) : decide (c = d) = false :=
    decide_eq_false (ne_of_isDigit h hd)
  simp only [Symbol.isBlank, hne ' ' rfl, hne '\n' rfl, hne '\t' rfl, hne '\r' rfl, Bool.or_false]

theorem digit?_of_isDigit {c : Char} (h : c.isDigit = true) :
    (Symbol.char c).digit? = some (digitValue c) := by
  have hrange : '0' ≤ c ∧ c ≤ '9' := by
    simpa [Char.isDigit, Char.le_def] using h
  rw [Symbol.digit?, if_pos hrange, digitValue]

/-- What comes next does not go on with a number. -/
def EndsNumber : List Symbol → Prop
  | [] => True
  | s :: _ => s.digit? = none ∧ s ≠ .char '.' ∧ s ≠ .char 'e' ∧ s ≠ .char 'E'

theorem EndsNumber.splitDigits_eq {rest : List Symbol} (h : EndsNumber rest) :
    splitDigits rest = ([], rest) := by
  cases rest with
  | nil => rfl
  | cons s rest => rw [splitDigits, h.1]

/-- Digits are split off up to where they end. -/
theorem splitDigits_append {digits : List Char} {rest : List Symbol}
    (hdigits : ∀ c ∈ digits, c.isDigit = true) (hrest : splitDigits rest = ([], rest)) :
    splitDigits (digits.map Symbol.char ++ rest) = (digits.map digitValue, rest) := by
  induction digits with
  | nil => exact hrest
  | cons c digits ih =>
      obtain ⟨hc, hdigits⟩ := List.forall_mem_cons.1 hdigits
      rw [List.map_cons, List.cons_append, splitDigits, digit?_of_isDigit hc]
      dsimp only
      rw [ih hdigits, List.map_cons]

theorem isDigit_of_mem_toDigits {n : Nat} {c : Char} (h : c ∈ Nat.toDigits 10 n) :
    c.isDigit = true :=
  Nat.isDigit_of_mem_toDigits (by decide) (by decide) h

/-- The first digit of a number is not zero, unless the number is. -/
theorem head?_toDigits_ne {n : Nat} (h : 0 < n) : (Nat.toDigits 10 n).head? ≠ some '0' := by
  induction n using Nat.strongRecOn with
  | ind n ih =>
      rcases Nat.lt_or_ge n 10 with hlt | hge
      · have hsingle : ∀ d < 10, 0 < d → [Nat.digitChar d].head? ≠ some '0' := by decide
        rw [Nat.toDigits_of_lt_base hlt]
        exact hsingle n hlt h
      · rw [Nat.toDigits_of_base_le (by decide) hge,
          List.head?_append_of_ne_nil _ Nat.toDigits_ne_nil]
        exact ih (n / 10) (by omega) (by omega)

theorem eq_zero_of_digitValue_eq_zero {c : Char} (h : c.isDigit = true) (hzero : digitValue c = 0) :
    c = '0' := by
  have hrange : 48 ≤ c.toNat ∧ c.toNat ≤ 57 := by
    simpa [Char.isDigit, UInt32.le_iff_toNat_le] using h
  have hvalue : c.toNat - 48 = 0 := hzero
  exact Char.toNat_inj.1 (show c.toNat = 48 by omega)

/-- A number has a first digit, and only zero has the digit zero there. -/
theorem exists_toDigits_eq_cons (n : Nat) :
    ∃ c cs, Nat.toDigits 10 n = c :: cs ∧ c.isDigit = true ∧ (digitValue c = 0 → cs = []) := by
  cases hdigits : Nat.toDigits 10 n with
  | nil => exact absurd hdigits Nat.toDigits_ne_nil
  | cons c cs =>
      have hc : c.isDigit = true := isDigit_of_mem_toDigits (hdigits ▸ List.mem_cons_self)
      refine ⟨c, cs, rfl, hc, fun hzero => ?_⟩
      rcases Nat.eq_zero_or_pos n with rfl | hpos
      · exact (List.cons.inj hdigits).2.symm
      · have hhead := head?_toDigits_ne hpos
        rw [hdigits, eq_zero_of_digitValue_eq_zero hc hzero] at hhead
        exact absurd rfl hhead

namespace Number

/-- The number that digits denote, after others that denote `value`. -/
def ofDigits (value : Nat) (digits : List Nat) : Nat :=
  digits.foldl (fun n d => n * 10 + d) value

theorem le_ofDigits (value : Nat) (digits : List Nat) : value ≤ ofDigits value digits := by
  induction digits generalizing value with
  | nil => exact Nat.le_refl value
  | cons d digits ih => exact Nat.le_trans (by omega) (ih (value * 10 + d))

theorem ofDigits_toDigits (n : Nat) : ofDigits 0 ((Nat.toDigits 10 n).map digitValue) = n := by
  have hvalue := Nat.ofDigitChars_ten_toDigits (n := n)
  rw [Nat.ofDigitChars] at hvalue
  rw [ofDigits, List.foldl_map]
  simpa only [Nat.mul_comm 10, digitValue] using hvalue

/-- Digits are collected as long as the number stays within the bound. -/
theorem collect_eq {bound : Nat} {digits : List Nat} {value : Nat} (h : ofDigits value digits ≤ bound) :
    collect bound value digits = (ofDigits value digits, 0) := by
  induction digits generalizing value with
  | nil => rfl
  | cons d digits ih =>
      have hstep : ofDigits value (d :: digits) = ofDigits (value * 10 + d) digits := rfl
      rw [hstep] at h ⊢
      rw [collect, if_pos (Nat.le_trans (le_ofDigits _ _) h), ih h]

/-- Nothing that belongs to the number follows its digits. -/
theorem readTail_of_endsNumber {digits : List Nat} {rest : List Symbol} (hrest : EndsNumber rest)
    (h : ofDigits 0 digits ≤ maxWord) :
    readTail false digits rest = .ok (.natural (ofDigits 0 digits), rest) := by
  rw [readTail, collect_eq h]
  cases rest with
  | nil => rfl
  | cons s rest =>
      obtain ⟨-, hpoint, hsmall, hlarge⟩ := hrest
      dsimp only
      split
      · next heq => exact absurd (List.cons.inj heq).1 hpoint
      · next heq => exact absurd (List.cons.inj heq).1 hsmall
      · next heq => exact absurd (List.cons.inj heq).1 hlarge
      · rfl

/-- A number of 64 bits is read back. -/
theorem read_decimal {n : Nat} {rest : List Symbol} (hrest : EndsNumber rest) (h : n ≤ maxWord) :
    read (decimal n ++ rest) = .ok (.natural n, rest) := by
  have hsplit := splitDigits_append (fun _ => isDigit_of_mem_toDigits (n := n)) hrest.splitDigits_eq
  have htail := readTail_of_endsNumber hrest ((ofDigits_toDigits n).symm ▸ h)
  rw [ofDigits_toDigits] at htail
  obtain ⟨c, cs, hdigits, hc, hzero⟩ := exists_toDigits_eq_cons n
  rw [decimal]
  rw [hdigits] at hsplit htail ⊢
  rw [List.map_cons, List.cons_append] at hsplit ⊢
  rw [read, readUnsigned, hsplit]
  · rw [List.map_cons] at htail ⊢
    cases hfirst : digitValue c with
    | zero =>
        rw [hfirst, hzero hfirst] at htail
        rw [hzero hfirst]
        exact htail
    | succ d =>
        rw [hfirst] at htail
        exact htail
  · intro _ heq
    exact ne_of_isDigit hc rfl (Symbol.char.inj (List.cons.inj heq).1)

end Number

/-- A wanted number is read. -/
theorem readWord_decimal (wanted : String) {n : Nat} {rest : List Symbol} (hrest : EndsNumber rest)
    (h : n ≤ Number.maxWord) : readWord wanted (decimal n ++ rest) = .ok (n, rest) := by
  have hread := Number.read_decimal hrest h
  obtain ⟨c, cs, hdigits, hc, -⟩ := exists_toDigits_eq_cons n
  rw [decimal, hdigits, List.map_cons, List.cons_append] at hread ⊢
  have hdigit : (Symbol.char c).digit?.isSome = true := by
    rw [digit?_of_isDigit hc]
    rfl
  rw [readWord, skipBlanks_cons_of_not_isBlank (isBlank_of_isDigit hc)]
  simp only [hdigit, Bool.or_true, if_true, hread]

/-- A wanted number that may be missing is read. -/
theorem readWord?_decimal (wanted : String) {n : Nat} {rest : List Symbol} (hrest : EndsNumber rest)
    (h : n ≤ Number.maxWord) : readWord? wanted (decimal n ++ rest) = .ok (some n, rest) := by
  have hread := readWord_decimal wanted hrest h
  obtain ⟨c, cs, hdigits, hc, -⟩ := exists_toDigits_eq_cons n
  rw [decimal, hdigits, List.map_cons, List.cons_append] at hread ⊢
  rw [readWord?, skipBlanks_cons_of_not_isBlank (isBlank_of_isDigit hc)]
  split
  · next heq => exact absurd (Symbol.char.inj (List.cons.inj heq).1) (ne_of_isDigit hc rfl)
  · rw [hread]

theorem readWord?_null (wanted : String) (rest : List Symbol) :
    readWord? wanted (Symbol.ofText "null" ++ rest) = .ok (none, rest) := rfl

/-! ## Names -/

/-- A character that can stand between quotes as it is. -/
def IsPlain (c : Char) : Prop :=
  c ≠ '"' ∧ c ≠ '\\' ∧ 0x20 ≤ c.toNat

instance (c : Char) : Decidable (IsPlain c) :=
  inferInstanceAs (Decidable (_ ∧ _ ∧ _))

/-- A character that stands for itself is added to those found. -/
theorem readSymbols_cons {c : Char} (h : IsPlain c) (found rest : List Symbol) :
    readSymbols found (.char c :: rest) = readSymbols (.char c :: found) rest := by
  obtain ⟨hquote, hescape, hcontrol⟩ := h
  rw [readSymbols]
  · rw [if_neg (Nat.not_lt.2 hcontrol)]
  · exact hquote
  -- All other cases of the reader begin with a backslash.
  all_goals
    intros
    exact hescape ‹_›

theorem readSymbols_plain {chars : List Char} (h : ∀ c ∈ chars, IsPlain c)
    (found rest : List Symbol) :
    readSymbols found (chars.map .char ++ .char '"' :: rest) =
      .ok (found.reverse ++ chars.map .char, rest) := by
  induction chars generalizing found with
  | nil => rw [List.map_nil, List.append_nil, List.nil_append, readSymbols]
  | cons c chars ih =>
      obtain ⟨hc, hchars⟩ := List.forall_mem_cons.1 h
      rw [List.map_cons, List.cons_append, readSymbols_cons hc, ih hchars, List.reverse_cons,
        List.append_assoc, List.singleton_append]

theorem chars?_map_char (chars : List Char) : chars? (chars.map .char) = some chars := by
  induction chars with
  | nil => rfl
  | cons c chars ih => rw [List.map_cons, chars?, ih, Option.map_some]

/-- A plain name is read up to the closing quote. -/
theorem readString_plain {name : String} (h : ∀ c ∈ name.toList, IsPlain c) (rest : List Symbol) :
    readString (Symbol.ofText name ++ .char '"' :: rest) = .ok (name, rest) := by
  rw [readString, Symbol.ofText, readSymbols_plain h, List.reverse_nil, List.nil_append]
  simp only [chars?_map_char, String.ofList_toList]

end CowLang.Json
