import CowLang.Scan
import Mathlib.Data.List.Infix
/-!
# Spellings among the bytes of a source

Spans count bytes, and a source is read character by character.  This file relates the two: a
spelling stands at a byte offset exactly when the characters after that offset begin with it, and
no spelling begins in the middle of a character.

Main statements: `spelledAt_iff` (an occurrence at a boundary is read there),
`not_spelledAt_inside` (there is none between boundaries) and `advanceAll_start` (a place tells the
bytes, newlines and characters before it).
-/

namespace CowLang

/-- The bytes of a text in UTF-8. -/
def utf8 (text : List Char) : List UInt8 :=
  text.flatMap String.utf8EncodeChar

@[simp]
theorem utf8_nil : utf8 [] = [] := rfl

@[simp]
theorem utf8_cons (c : Char) (text : List Char) :
    utf8 (c :: text) = String.utf8EncodeChar c ++ utf8 text := rfl

@[simp]
theorem utf8_append (s t : List Char) : utf8 (s ++ t) = utf8 s ++ utf8 t := by
  simp [utf8]

theorem toList_data_toUTF8 (source : String) : source.toUTF8.data.toList = utf8 source.toList := by
  rw [String.toUTF8_eq_toByteArray, ← String.utf8Encode_toList, List.utf8Encode,
    List.data_toByteArray, utf8]

/-- The first character can be told from the bytes. -/
theorem utf8EncodeChar_append_inj {c d : Char} {s t : List UInt8}
    (h : String.utf8EncodeChar c ++ s = String.utf8EncodeChar d ++ t) : c = d ∧ s = t := by
  have hdecode (e : Char) (u : List UInt8) :
      ByteArray.utf8DecodeChar? (String.utf8EncodeChar e ++ u).toByteArray 0 = some e := by
    rw [List.toByteArray_append, ByteArray.utf8DecodeChar?_utf8EncodeChar_append]
  have hcd : some c = some d := by rw [← hdecode c s, h, hdecode]
  cases hcd
  exact ⟨rfl, List.append_cancel_left h⟩

/-- A text whose bytes begin with those of another begins with the other. -/
theorem exists_eq_append_of_utf8_eq {word text : List Char} {tail : List UInt8}
    (h : utf8 text = utf8 word ++ tail) : ∃ rest, text = word ++ rest := by
  induction word generalizing text with
  | nil => exact ⟨text, rfl⟩
  | cons c word ih =>
      cases text with
      | nil =>
          have hlength := congrArg List.length h
          have hpos := c.utf8Size_pos
          simp at hlength
          omega
      | cons d text =>
          rw [utf8_cons, utf8_cons, List.append_assoc] at h
          obtain ⟨rfl, htail⟩ := utf8EncodeChar_append_inj h
          obtain ⟨rest, rfl⟩ := ih htail
          exact ⟨rest, rfl⟩

/-- The first byte of a character is not found inside a character. -/
theorem utf8EncodeChar_getElem_ne {c d : Char} {i : Nat} (hi : 0 < i)
    (hlt : i < (String.utf8EncodeChar c).length) (hd : 0 < (String.utf8EncodeChar d).length) :
    (String.utf8EncodeChar c)[i] ≠ (String.utf8EncodeChar d)[0] := by
  intro h
  have hfirst : (String.utf8EncodeChar d)[0].IsUTF8FirstByte :=
    UInt8.isUTF8FirstByte_getElem_utf8EncodeChar.2 rfl
  rw [← h, UInt8.isUTF8FirstByte_getElem_utf8EncodeChar] at hfirst
  omega

/-! ## Occurrences -/

/-- The three bytes from `offset` on spell the instruction. -/
def SpelledAt (source : String) (offset : Nat) (i : Instruction) : Prop :=
  source.toUTF8.extract offset (offset + 3) = i.spelling.toUTF8

theorem length_utf8_chars (i : Instruction) : (utf8 i.chars).length = 3 := by
  cases i <;> decide

theorem spelling_injective : Function.Injective Instruction.spelling := by
  intro i j h
  have hchars : i.chars = j.chars := String.ofList_injective h
  have hleading := Instruction.leading?_chars_append i []
  rw [hchars, Instruction.leading?_chars_append] at hleading
  simpa using hleading.symm

theorem spelledAt_iff_utf8 {source : String} {offset : Nat} {i : Instruction} :
    SpelledAt source offset i ↔
      ((utf8 source.toList).drop offset).take 3 = utf8 i.chars := by
  have hspelling : i.spelling.toUTF8.data.toList = utf8 i.chars := by
    rw [toList_data_toUTF8, Instruction.spelling, String.toList_ofList]
  rw [SpelledAt, ← hspelling, ← toList_data_toUTF8, ByteArray.ext_iff, ByteArray.data_extract,
    ← Array.toList_inj, Array.toList_extract, List.extract_eq_take_drop, Nat.add_sub_cancel_left]

/-- An occurrence lies inside the source. -/
theorem SpelledAt.le_length {source : String} {offset : Nat} {i : Instruction}
    (h : SpelledAt source offset i) : offset + 3 ≤ (utf8 source.toList).length := by
  have hlength := congrArg List.length (spelledAt_iff_utf8.1 h)
  rw [length_utf8_chars, List.length_take, List.length_drop] at hlength
  omega

/-- Between two characters a spelling stands exactly when it comes next. -/
theorem spelledAt_iff {source : String} {before text : List Char} {i : Instruction}
    (hsource : source.toList = before ++ text) :
    SpelledAt source (utf8 before).length i ↔ ∃ rest, text = i.chars ++ rest := by
  rw [spelledAt_iff_utf8, hsource, utf8_append, List.drop_left]
  constructor
  · intro h
    have hsplit : utf8 text = utf8 i.chars ++ (utf8 text).drop 3 := by
      rw [← h, List.take_append_drop]
    exact exists_eq_append_of_utf8_eq hsplit
  · rintro ⟨rest, rfl⟩
    rw [utf8_append, ← length_utf8_chars i, List.take_left]

/-- No spelling begins inside a character. -/
theorem not_spelledAt_inside {source : String} {before text : List Char} {c : Char} {offset : Nat}
    (hsource : source.toList = before ++ c :: text) (hafter : (utf8 before).length < offset)
    (hbefore : offset < (utf8 before).length + c.utf8Size) (i : Instruction) :
    ¬ SpelledAt source offset i := by
  obtain ⟨k, rfl⟩ := Nat.exists_eq_add_of_lt hafter
  have hk : k + 1 < (String.utf8EncodeChar c).length := by
    rw [String.length_utf8EncodeChar]
    omega
  obtain ⟨d, rest, hchars⟩ : ∃ d rest, i.chars = d :: rest := ⟨_, _, rfl⟩
  have hd : 0 < (String.utf8EncodeChar d).length := by
    rw [String.length_utf8EncodeChar]
    exact d.utf8Size_pos
  rw [spelledAt_iff_utf8, hsource, utf8_append, Nat.add_assoc, List.drop_append, hchars]
  intro h
  have hfirst := congrArg (fun bytes => bytes[0]?) h
  have hdrop : (utf8 before).length + (k + 1) - (utf8 before).length = k + 1 := by omega
  rw [List.drop_eq_nil_of_le (by omega), List.nil_append, hdrop, utf8_cons, utf8_cons] at hfirst
  simp only [List.getElem?_take_of_lt (show 0 < 3 by omega), List.getElem?_drop, Nat.add_zero,
    List.getElem?_append_left hk, List.getElem?_append_left hd, List.getElem?_eq_getElem hk,
    List.getElem?_eq_getElem hd, Option.some.injEq] at hfirst
  exact utf8EncodeChar_getElem_ne (Nat.succ_pos k) hk hd hfirst

/-! ## Places -/

/-- The characters that begin before a byte offset. -/
def charsBefore : List Char → Nat → List Char
  | [], _ => []
  | c :: rest, offset => if offset = 0 then [] else c :: charsBefore rest (offset - c.utf8Size)

theorem charsBefore_append (before text : List Char) :
    charsBefore (before ++ text) (utf8 before).length = before := by
  induction before with
  | nil => cases text <;> rfl
  | cons c before ih =>
      have hpos := c.utf8Size_pos
      have hlength : (utf8 (c :: before)).length = c.utf8Size + (utf8 before).length := by simp
      rw [List.cons_append, charsBefore, hlength, if_neg (by omega), Nat.add_sub_cancel_left, ih]

/-- The characters since the last newline. -/
def lastLine (text : List Char) : List Char :=
  (text.reverse.takeWhile (· ≠ '\n')).reverse

theorem lastLine_append_newline (text : List Char) : lastLine (text ++ ['\n']) = [] := by
  simp [lastLine]

theorem lastLine_append_of_ne {c : Char} (h : c ≠ '\n') (text : List Char) :
    lastLine (text ++ [c]) = lastLine text ++ [c] := by
  simp [lastLine, h]

/-- The place after a text has the bytes, the newlines and the characters of the last line counted. -/
theorem advanceAll_start (before : List Char) :
    Position.start.advanceAll before =
      ⟨(utf8 before).length, 1 + before.count '\n', 1 + (lastLine before).length⟩ := by
  induction before using List.reverseRecOn with
  | nil => rfl
  | append_singleton before c ih =>
      have hadvance : Position.start.advanceAll (before ++ [c]) =
          (Position.start.advanceAll before).advance c := by
        rw [Position.advanceAll_append]
        rfl
      have hsize : (utf8 (before ++ [c])).length = (utf8 before).length + c.utf8Size := by simp
      rw [hadvance, ih, Position.advance, hsize, List.count_append]
      by_cases hc : c = '\n'
      · rw [if_pos hc, hc, lastLine_append_newline, List.count_singleton_self, Nat.add_assoc]
        rfl
      · rw [if_neg hc, lastLine_append_of_ne hc, List.count_singleton, beq_false_of_ne hc,
          List.length_append, List.length_singleton, Nat.add_assoc]
        rfl

end CowLang
