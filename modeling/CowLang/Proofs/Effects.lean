import CowLang.Proofs.Steps
/-!
# What an instruction can do

Twelve instructions under their policies do one of seven things to the machine.  An `Effect` is one of
these, together with what is known about the numbers in it: a pointer that is moved stays on the tape if it
was there, and a cell takes no larger value than the configuration allows if it held none before.

What every step keeps follows from the seven cases, without another look at the instructions.

Main statements: `effect_act` (there are no other cases), `Effect.steps_eq` and `Effect.follows` (what they
leave as it was).
-/

namespace CowLang

/-- The largest value that a cell can have. -/
def Config.largestCell (config : Config) : Nat :=
  match config.overflowPolicy with
  | .wrap => Machine.maxByte
  | .unbounded => Machine.maxCell

theorem Config.maxByte_le_largestCell (config : Config) : Machine.maxByte ≤ config.largestCell := by
  rw [largestCell]
  split <;> decide

theorem Config.largestCell_le_maxCell (config : Config) : config.largestCell ≤ Machine.maxCell := by
  rw [largestCell]
  split <;> decide

namespace Machine

variable {config : Config} {m m' : Machine} {token : Nat} {i : Instruction}

/-- What an instruction can do to a machine. -/
inductive Effect (config : Config) (m : Machine) : Machine → Prop where
  | stay : Effect config m m
  | move {pointer : Nat} (bound : m.pointer < m.tapeLen → pointer < m.tapeLen) :
      Effect config m (m.setPointer pointer)
  | store {value : Nat} (bound : m.current ≤ config.largestCell → value ≤ config.largestCell) :
      Effect config m (m.setCurrent value)
  /-- A character is read. -/
  | take {value : Nat} (bound : value ≤ config.largestCell) (unread : m.cursor < m.input.size) :
      Effect config m { m.setCurrent value with cursor := m.cursor + 1 }
  | write : Effect config m m.write
  /-- The register takes the value of the current cell. -/
  | copy (enabled : config.registerMode = .transfer) :
      Effect config m { m with register := some m.current }
  /-- The current cell takes the value of the register. -/
  | paste {value : Nat} (full : m.register = some value) :
      Effect config m { m.setCurrent value with register := none }

theorem effect_read (m : Machine) : Effect config m m.read := by
  rw [read]
  cases hc : m.input[m.cursor]? with
  | none => exact .store fun _ => Nat.zero_le _
  | some c =>
      obtain ⟨hlt, -⟩ := Array.getElem?_eq_some_iff.1 hc
      have hbyte : c.toNat % 256 ≤ maxByte := Nat.le_of_lt_succ (Nat.mod_lt _ (by decide))
      exact .take (hbyte.trans config.maxByte_le_largestCell) hlt

theorem effect_transfer (h : config.registerMode = .transfer) (m : Machine) :
    Effect config m m.transfer := by
  rw [transfer]
  cases hr : m.register with
  | none => exact .copy h
  | some value => exact .paste hr

/-- An instruction that does not fail does one of the seven things. -/
theorem effect_act (h : m.act config token i = .ok m') : Effect config m m' := by
  cases i with
  | pointerRight =>
      simp only [act, moveRight] at h
      split at h
      · next hright =>
          cases h
          exact .move fun _ => hright
      · split at h <;> cases h
        -- The tape has a first cell, because the pointer is at one.
        exact .move Nat.zero_lt_of_lt
  | pointerLeft =>
      simp only [act, moveLeft] at h
      split at h
      · cases h
        exact .move fun hlt => Nat.lt_of_le_of_lt (Nat.sub_le _ _) hlt
      · split at h <;> cases h
        exact .move fun hlt => Nat.sub_lt (Nat.zero_lt_of_lt hlt) Nat.one_pos
  | increment =>
      simp only [act, increment] at h
      split at h
      · next hpolicy =>
          have hlargest : config.largestCell = maxByte := by rw [Config.largestCell, hpolicy]
          split at h <;> cases h
          · exact .store fun _ => Nat.zero_le _
          · exact .store fun _ => by omega
      · next hpolicy =>
          have hlargest : config.largestCell = maxCell := by rw [Config.largestCell, hpolicy]
          split at h <;> cases h
          exact .store fun _ => by omega
  | decrement =>
      simp only [act, decrement] at h
      split at h
      · cases h
        exact .store fun hle => (Nat.sub_le _ _).trans hle
      · split at h <;> cases h
        exact .store fun _ => config.maxByte_le_largestCell
  | reset =>
      cases h
      exact .store fun _ => Nat.zero_le _
  | register =>
      simp only [act] at h
      split at h <;> cases h
      · exact .stay
      · next hmode => exact effect_transfer hmode m
  | conditionalIo =>
      simp only [act, Except.ok.injEq] at h
      rw [← h]
      split
      · exact effect_read m
      · exact .write
  | input =>
      cases h
      exact effect_read m
  | output =>
      cases h
      exact .write
  | exec | loopOpen | loopClose =>
      cases h
      exact .stay

/-! ## What the effects leave as it was -/

/-- No instruction counts itself. -/
theorem Effect.steps_eq (h : Effect config m m') : m'.steps = m.steps := by
  cases h <;> rfl

/-- What a single counted step may change: the current cell, one more character of output, and a cursor
that goes on by one. -/
structure Follows (m m' : Machine) : Prop where
  tapeLen_eq : m'.tapeLen = m.tapeLen
  cell_eq : ∀ index, index ≠ m.pointer → m'.tape[index]? = m.tape[index]?
  output_eq : m'.output = m.output ∨ ∃ c, m'.output = m.output.push c
  cursor_eq : m'.cursor = m.cursor ∨ m'.cursor = m.cursor + 1
  steps_eq : m'.steps = m.steps + 1

theorem getElem?_setCurrent_of_ne {value index : Nat} (h : index ≠ m.pointer) :
    (m.setCurrent value).tape[index]? = m.tape[index]? :=
  Array.getElem?_setIfInBounds_ne h.symm

theorem Effect.follows (h : Effect config m m') : m.Follows m'.tick := by
  cases h with
  | stay | move | copy => exact ⟨rfl, fun _ _ => rfl, .inl rfl, .inl rfl, rfl⟩
  | write => exact ⟨rfl, fun _ _ => rfl, .inr ⟨_, rfl⟩, .inl rfl, rfl⟩
  | @store value | @paste value =>
      exact ⟨tapeLen_setCurrent m value, fun _ => getElem?_setCurrent_of_ne, .inl rfl, .inl rfl, rfl⟩
  | @take value =>
      exact ⟨tapeLen_setCurrent m value, fun _ => getElem?_setCurrent_of_ne, .inl rfl, .inr rfl, rfl⟩

end Machine

end CowLang
