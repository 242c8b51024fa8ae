import CowLang.Machine
/-!
# The values of the input

A program does not see the characters of its input but their values, the code points modulo 256, and it
sees zeros once the input is exhausted.  The cursor goes on with every character and stays at the end, so
after any number of reads it is the smaller one of that number and the length of the input.

Main statements: `Machine.read_eq` and `Machine.read_eq_of_reads` (what reading stores, by the cursor and by
the number of reads so far).
-/

namespace CowLang

/-- The value of a cell into which a character is read. -/
def cellValue (c : Char) : Nat := c.toNat % 256

theorem cellValue_lt (c : Char) : cellValue c < 256 :=
  Nat.mod_lt _ (by decide)

/-- A byte is written as the character with that code point. -/
theorem cellChar_of_lt {value : Nat} (h : value < 256) : cellChar value = Char.ofNat value := by
  have hvalid : value.isValidChar := Or.inl (Nat.lt_trans h (by decide))
  rw [cellChar, if_pos hvalid]

theorem toNat_ofNat_byte {byte : Nat} (h : byte < 256) : (Char.ofNat byte).toNat = byte := by
  have hvalid : byte.isValidChar := Or.inl (Nat.lt_trans h (by decide))
  rw [Char.ofNat, dif_pos hvalid]
  rfl

namespace Machine

variable {m : Machine}

/-- The values of the characters that are still to be read when `cursor` of them have been. -/
def unread (m : Machine) (cursor : Nat) : List Nat :=
  (m.input.toList.drop cursor).map cellValue

/-- The next value, which is zero at the end of the input. -/
def nextValue (m : Machine) (cursor : Nat) : Nat :=
  (m.unread cursor).headD 0

theorem nextValue_lt (m : Machine) (cursor : Nat) : m.nextValue cursor < 256 := by
  rw [nextValue, unread]
  cases m.input.toList.drop cursor with
  | nil => decide
  | cons c cs => exact cellValue_lt c

/-- Where the cursor stands after the next character has been read. -/
def nextCursor (m : Machine) (cursor : Nat) : Nat :=
  min (cursor + 1) m.input.size

theorem unread_nextCursor (m : Machine) (cursor : Nat) :
    m.unread (m.nextCursor cursor) = (m.unread cursor).tail := by
  rw [unread, unread, nextCursor, ← List.map_tail, List.tail_drop]
  congr 1
  rcases Nat.le_total (cursor + 1) m.input.size with h | h
  · rw [Nat.min_eq_left h]
  · rw [Nat.min_eq_right h, ← Array.length_toList, List.drop_length,
      List.drop_eq_nil_of_le (by simpa using h)]

/-- `oom` stores the next value and moves the cursor on. -/
theorem read_eq (h : m.cursor ≤ m.input.size) :
    m.read = { m.setCurrent (m.nextValue m.cursor) with cursor := m.nextCursor m.cursor } := by
  rw [read, nextValue, nextCursor, unread]
  cases hc : m.input[m.cursor]? with
  | none =>
      have hsize : m.input.size = m.cursor := Nat.le_antisymm (Array.getElem?_eq_none_iff.1 hc) h
      rw [List.drop_eq_nil_of_le (by simp [hsize]), hsize, Nat.min_eq_right (Nat.le_succ _)]
      rfl
  | some c =>
      obtain ⟨hlt, rfl⟩ := Array.getElem?_eq_some_iff.1 hc
      rw [List.drop_eq_getElem_cons (by simpa using hlt), Nat.min_eq_left hlt]
      rfl

end Machine

/-! ## The whole input -/

/-- The value of the character at an index of the input, and zero where the input is exhausted. -/
def inputValue (input : String) (index : Nat) : Nat :=
  (input.toList.map cellValue).getD index 0

theorem inputValue_of_length_le {input : String} {index : Nat} (h : input.length ≤ index) :
    inputValue input index = 0 := by
  have hlength : (input.toList.map cellValue).length ≤ index := by
    rwa [List.length_map, String.length_toList]
  rw [inputValue, List.getD_eq_getElem?_getD, List.getElem?_eq_none hlength, Option.getD_none]

/-- Characters whose values are zero add nothing at the end, where the input reads as zero anyway. -/
theorem inputValue_append {input suffix : String} (h : ∀ c ∈ suffix.toList, cellValue c = 0)
    (index : Nat) : inputValue (input ++ suffix) index = inputValue input index := by
  rw [inputValue, inputValue, String.toList_append, List.map_append, List.getD_eq_getElem?_getD,
    List.getD_eq_getElem?_getD]
  rcases Nat.lt_or_ge index (input.toList.map cellValue).length with hlt | hge
  · rw [List.getElem?_append_left hlt]
  · rw [List.getElem?_append_right hge, List.getElem?_map, List.getElem?_eq_none hge]
    cases hc : suffix.toList[index - (input.toList.map cellValue).length]? with
    | none => rfl
    | some c => exact h c (List.mem_of_getElem? hc)

/-- A character can be replaced by one with the same value. -/
theorem inputValue_replace {before after : List Char} {c c' : Char}
    (h : cellValue c = cellValue c') (index : Nat) :
    inputValue (String.ofList (before ++ c :: after)) index =
      inputValue (String.ofList (before ++ c' :: after)) index := by
  rw [inputValue, inputValue, String.toList_ofList, String.toList_ofList, List.map_append,
    List.map_append, List.map_cons, List.map_cons, h]

namespace Machine

variable {m : Machine} {input : String} {reads : Nat}

theorem nextValue_eq_inputValue (hinput : m.input = input.toList.toArray) (cursor : Nat) :
    m.nextValue cursor = inputValue input cursor := by
  rw [nextValue, unread, hinput, inputValue, List.map_drop, List.headD_eq_head?_getD,
    List.head?_drop, List.getD_eq_getElem?_getD]

/-- After `reads` reads, the next one stores the value of the character at that index. -/
theorem read_eq_of_reads (hinput : m.input = input.toList.toArray)
    (hcursor : m.cursor = min reads input.length) :
    m.read = { m.setCurrent (inputValue input reads) with
      cursor := min (reads + 1) input.length } := by
  have hsize : m.input.size = input.length := by
    rw [hinput, List.size_toArray, String.length_toList]
  have hvalue : m.nextValue m.cursor = inputValue input reads := by
    rw [nextValue_eq_inputValue hinput, hcursor]
    rcases Nat.le_total reads input.length with h | h
    · rw [Nat.min_eq_left h]
    · rw [Nat.min_eq_right h, inputValue_of_length_le (Nat.le_refl _), inputValue_of_length_le h]
  have hnext : m.nextCursor m.cursor = min (reads + 1) input.length := by
    rw [nextCursor]
    omega
  rw [read_eq (by omega), hvalue, hnext]

end Machine

end CowLang
