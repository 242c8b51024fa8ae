import CowLang.Proofs.InputValues
import CowLang.Proofs.Structured
import Mathlib.Algebra.Ring.Nat
/-!
# Adding up the input

The checksum and the colour program contain the same piece of code: it reads two characters into two
neighbouring cells, and then adds the second cell to the first and reads the next character into the
second for as long as that is not zero.  Bytes wrap around, so what the first cell holds in the end
is a sum modulo 256.

While it runs, only these two cells, the pointer, the cursor and the step counter change; a machine
with given values of them is a `tally` of the machine from which the code started.

Main statements: `Structured.addLoop` (the inner loop moves one cell onto the other),
`Structured.sumLoop` (the outer loop goes on to the first zero) and `Structured.adder` (the whole
piece, with its exact number of steps).
-/

namespace CowLang

namespace Machine

variable {m : Machine} {config : Config} {token : Nat} {i : Instruction}

/-! ## Adding up what is read -/

/-- The values up to the next zero, or to the end of the input. -/
def addends (m : Machine) (cursor : Nat) : List Nat :=
  (m.unread cursor).takeWhile (· ≠ 0)

/-- The next value is an addend unless it is zero, and the others come after it. -/
theorem addends_eq (m : Machine) (cursor : Nat) :
    m.addends cursor = if m.nextValue cursor = 0 then [] else
      m.nextValue cursor :: m.addends (m.nextCursor cursor) := by
  rw [addends, addends, unread_nextCursor, nextValue]
  cases m.unread cursor with
  | nil => rfl
  | cons v vs =>
      rw [List.headD_cons, List.tail_cons, List.takeWhile_cons]
      by_cases hzero : v = 0
      · simp only [hzero, ne_eq, not_true_eq_false, decide_false, Bool.false_eq_true, if_false, if_true]
      · simp only [hzero, ne_eq, not_false_eq_true, decide_true, if_true, if_false]

theorem addends_eq_nil_iff {cursor : Nat} : m.addends cursor = [] ↔ m.nextValue cursor = 0 := by
  rw [addends_eq]
  split <;> simp_all

theorem addends_eq_cons_iff {cursor v : Nat} {values : List Nat} :
    m.addends cursor = v :: values ↔
      m.nextValue cursor = v ∧ v ≠ 0 ∧ m.addends (m.nextCursor cursor) = values := by
  rw [addends_eq]
  split
  · next hzero =>
      constructor
      · intro h
        cases h
      · rintro ⟨hv, hne, -⟩
        exact absurd (hv.symm.trans hzero) hne
  · next hne =>
      rw [List.cons.injEq]
      constructor
      · rintro ⟨rfl, htail⟩
        exact ⟨rfl, hne, htail⟩
      · rintro ⟨hv, -, htail⟩
        exact ⟨hv, htail⟩

/-! ## Single instructions -/

theorem act_right (h : m.pointer + 1 < m.tapeLen) :
    m.act config token .pointerRight = .ok (m.setPointer (m.pointer + 1)) := by
  simp only [act, moveRight, if_pos h]

theorem act_right_of_strict (hstrict : config.pointerPolicy = .strict)
    (h : ¬ m.pointer + 1 < m.tapeLen) :
    m.act config token .pointerRight = .error (.pointerOverflow token m.tapeLen) := by
  simp only [act, moveRight, if_neg h, hstrict]

theorem act_left (h : 0 < m.pointer) :
    m.act config token .pointerLeft = .ok (m.setPointer (m.pointer - 1)) := by
  simp only [act, moveLeft, if_pos h]

/-- Within its budget, an instruction acts and is counted. -/
theorem perform_of_allowed (h : config.exhausted? m.steps = none) :
    m.perform config token i = (m.act config token i).map tick := by
  rw [perform, h]

/-- Without a budget, every instruction does. -/
theorem perform_of_unlimited (hmax : config.maxSteps = none) :
    m.perform config token i = (m.act config token i).map tick :=
  perform_of_allowed (by rw [Config.exhausted?, hmax])

theorem perform_right (hmax : config.maxSteps = none) (h : m.pointer + 1 < m.tapeLen) :
    m.perform config token .pointerRight = .ok (m.setPointer (m.pointer + 1)).tick := by
  rw [perform_of_unlimited hmax, act_right h, Except.map]

theorem perform_left (hmax : config.maxSteps = none) (h : 0 < m.pointer) :
    m.perform config token .pointerLeft = .ok (m.setPointer (m.pointer - 1)).tick := by
  rw [perform_of_unlimited hmax, act_left h, Except.map]

/-! ## Two cells that change -/

/-- The machine `m` with `sum` in cell `j`, `next` in the cell after it, and the pointer, the cursor and
the step counter as given. -/
def tally (m : Machine) (j sum next pointer cursor steps : Nat) : Machine :=
  { m with
    tape := (m.tape.setIfInBounds j sum).setIfInBounds (j + 1) next
    pointer := pointer
    cursor := cursor
    steps := steps }

section Tally

variable {j sum next pointer cursor steps : Nat}

theorem tapeLen_tally : (m.tally j sum next pointer cursor steps).tapeLen = m.tapeLen := by
  simp [tally, tapeLen]

theorem current_tally_sum (hj : j + 1 < m.tapeLen) :
    (m.tally j sum next j cursor steps).current = sum := by
  have hsize : j < m.tape.size := Nat.lt_of_succ_lt hj
  simp [tally, current, Array.getD_eq_getD_getElem?, hsize]

theorem current_tally_next (hj : j + 1 < m.tapeLen) :
    (m.tally j sum next (j + 1) cursor steps).current = next := by
  have hsize : j + 1 < m.tape.size := hj
  simp [tally, current, Array.getD_eq_getD_getElem?, hsize]

theorem setCurrent_tally_sum (value : Nat) :
    (m.tally j sum next j cursor steps).setCurrent value = m.tally j value next j cursor steps := by
  simp only [tally, setCurrent, Machine.mk.injEq, and_true]
  rw [Array.setIfInBounds_comm _ _ (Nat.succ_ne_self j), Array.setIfInBounds_setIfInBounds]

theorem setCurrent_tally_next (value : Nat) :
    (m.tally j sum next (j + 1) cursor steps).setCurrent value =
      m.tally j sum value (j + 1) cursor steps := by
  simp only [tally, setCurrent, Array.setIfInBounds_setIfInBounds]

/-- Storing the value that a cell has changes nothing. -/
theorem setIfInBounds_getD (tape : Array Nat) (index : Nat) :
    tape.setIfInBounds index (tape.getD index 0) = tape := by
  ext k hk hk'
  · exact Array.size_setIfInBounds
  · rw [Array.getElem_setIfInBounds]
    split
    · next hindex =>
        subst hindex
        exact (Array.getElem_eq_getD 0).symm
    · rfl

theorem setIfInBounds_zero {tape : Array Nat} {index : Nat} (h : tape.getD index 0 = 0) :
    tape.setIfInBounds index 0 = tape := by
  have hstored := setIfInBounds_getD tape index
  rwa [h] at hstored

/-- A machine whose two cells are zero is a tally of itself. -/
theorem tally_self (hsum : m.tape.getD j 0 = 0) (hnext : m.tape.getD (j + 1) 0 = 0) :
    m.tally j 0 0 m.pointer m.cursor m.steps = m := by
  rw [tally, setIfInBounds_zero hsum, setIfInBounds_zero hnext]

/-! ## Single steps on them -/

theorem perform_tally_right (hmax : config.maxSteps = none) (hpointer : pointer + 1 < m.tapeLen) :
    (m.tally j sum next pointer cursor steps).perform config token .pointerRight =
      .ok (m.tally j sum next (pointer + 1) cursor (steps + 1)) := by
  have hright : pointer + 1 < (m.tally j sum next pointer cursor steps).tapeLen := by
    rw [tapeLen_tally]
    exact hpointer
  rw [perform_right hmax hright]
  rfl

theorem perform_tally_left (hmax : config.maxSteps = none) :
    (m.tally j sum next (pointer + 1) cursor steps).perform config token .pointerLeft =
      .ok (m.tally j sum next pointer cursor (steps + 1)) := by
  rw [perform_left hmax (Nat.succ_pos pointer)]
  rfl

/-- The sum is counted up modulo 256. -/
theorem perform_tally_increment (hmax : config.maxSteps = none)
    (hover : config.overflowPolicy = .wrap) (hj : j + 1 < m.tapeLen) (hsum : sum < 256) :
    (m.tally j sum next j cursor steps).perform config token .increment =
      .ok (m.tally j ((sum + 1) % 256) next j cursor (steps + 1)) := by
  rw [perform_of_unlimited hmax, act, hover]
  simp only [increment, current_tally_sum hj, setCurrent_tally_sum, maxByte]
  by_cases hfull : 255 ≤ sum
  · rw [if_pos hfull, show (sum + 1) % 256 = 0 by omega]
    rfl
  · rw [if_neg hfull, show (sum + 1) % 256 = sum + 1 by omega]
    rfl

theorem perform_tally_decrement (hmax : config.maxSteps = none) (hj : j + 1 < m.tapeLen) :
    (m.tally j sum (next + 1) (j + 1) cursor steps).perform config token .decrement =
      .ok (m.tally j sum next (j + 1) cursor (steps + 1)) := by
  rw [perform_of_unlimited hmax, act]
  simp only [decrement, current_tally_next hj, if_pos (Nat.succ_pos next), setCurrent_tally_next]
  rfl

theorem perform_tally_loop (hmax : config.maxSteps = none) (hi : i.isLoop = true) :
    (m.tally j sum next pointer cursor steps).perform config token i =
      .ok (m.tally j sum next pointer cursor (steps + 1)) := by
  rw [perform_of_unlimited hmax]
  cases i <;> first | rfl | cases hi

theorem perform_tally_input_sum (hmax : config.maxSteps = none) (hcursor : cursor ≤ m.input.size) :
    (m.tally j sum next j cursor steps).perform config token .input =
      .ok (m.tally j (m.nextValue cursor) next j (m.nextCursor cursor) (steps + 1)) := by
  rw [perform_of_unlimited hmax, act, read_eq hcursor, setCurrent_tally_sum]
  rfl

theorem perform_tally_input_next (hmax : config.maxSteps = none) (hcursor : cursor ≤ m.input.size) :
    (m.tally j sum next (j + 1) cursor steps).perform config token .input =
      .ok (m.tally j sum (m.nextValue cursor) (j + 1) (m.nextCursor cursor) (steps + 1)) := by
  rw [perform_of_unlimited hmax, act, read_eq hcursor, setCurrent_tally_next]
  rfl

theorem perform_tally_output (hmax : config.maxSteps = none) (hj : j + 1 < m.tapeLen) :
    (m.tally j sum next j cursor steps).perform config token .output =
      .ok { m.tally j sum next j cursor (steps + 1) with
        output := m.output.push (cellChar sum) } := by
  rw [perform_of_unlimited hmax, act, write, current_tally_sum hj]
  rfl

end Tally

end Machine

/-! ## The loops -/

namespace Block

/-- `mOo`, and what comes after it. -/
def left (rest : Block) : Block := .simple .pointerLeft rfl rest

/-- `moO`, and what comes after it. -/
def right (rest : Block) : Block := .simple .pointerRight rfl rest

/-- `oom`, and what comes after it. -/
def read (rest : Block) : Block := .simple .input rfl rest

/-- `OOM`, and what comes after it. -/
def write (rest : Block) : Block := .simple .output rfl rest

/-- `MOo mOo MoO moO`: takes one from the current cell and adds it to the cell before. -/
def addBody : Block :=
  .simple .decrement rfl (.left (.simple .increment rfl (.right .done)))

/-- `MOO MOo mOo MoO moO moo oom`: adds the current cell to the one before and reads a character. -/
def sumBody : Block :=
  .loop addBody (.read .done)

/-- The whole piece of code, and what comes after it: it reads a character into each of the two cells
to the right, adds up, and prints the sum. -/
def adder (rest : Block) : Block :=
  .right (.read (.right (.read (.loop sumBody (.left (.write rest))))))

end Block

/-- The number of steps that it takes to add up values and to read the next value after each. -/
def addingSteps (values : List Nat) : Nat :=
  (values.map fun v => 5 * v + 3).sum

theorem addingSteps_cons (v : Nat) (values : List Nat) :
    addingSteps (v :: values) = 5 * v + 3 + addingSteps values := by
  rw [addingSteps, List.map_cons, List.sum_cons, addingSteps]

/-- The machine after the sum of the unread values up to the next zero has been stored in cell `j` and
printed.  The first value is an addend even when it is zero. -/
def Machine.summed (m : Machine) (j : Nat) : Machine :=
  let addends := m.addends (m.nextCursor m.cursor)
  let sum := (m.nextValue m.cursor + addends.sum) % 256
  { m with
    tape := m.tape.setIfInBounds j sum
    pointer := j
    cursor := min (m.cursor + addends.length + 2) m.input.size
    output := m.output.push (cellChar sum)
    steps := m.steps + (7 + addingSteps addends) }

/-- It is a tally whose second cell is zero again. -/
theorem Machine.summed_eq {m : Machine} {j cursor steps : Nat}
    (hnext : m.tape.getD (j + 1) 0 = 0) (hcursor : cursor = (m.summed j).cursor)
    (hsteps : steps = (m.summed j).steps) :
    m.summed j =
      { m.tally j ((m.nextValue m.cursor + (m.addends (m.nextCursor m.cursor)).sum) % 256) 0 j
          cursor steps with
        output := (m.summed j).output } := by
  subst hcursor hsteps
  simp only [summed, tally]
  rw [Array.setIfInBounds_comm _ _ (Nat.succ_ne_self j).symm, setIfInBounds_zero hnext]

namespace Structured

open Block Machine

variable {config : Config} {m : Machine} {j sum next cursor steps start : Nat} {rest : Block}
  {result : Except Fault Machine}
  (hmax : config.maxSteps = none) (hover : config.overflowPolicy = .wrap) (hj : j + 1 < m.tapeLen)

include hmax hover hj

/-- One pass moves one from the second cell to the sum. -/
theorem addPass (hsum : sum < 256) :
    Structured config start (.before addBody) (m.tally j sum (next + 1) (j + 1) cursor steps)
      (.ok (m.tally j ((sum + 1) % 256) next (j + 1) cursor (steps + 4))) := by
  refine .simple (perform_tally_decrement hmax hj) ?_
  refine .simple (perform_tally_left hmax) ?_
  refine .simple (perform_tally_increment hmax hover hj hsum) ?_
  refine .simple (perform_tally_right hmax hj) ?_
  exact .done

/-- The inner loop adds the second cell to the sum, in five steps for each unit. -/
theorem addLoop (hsum : sum < 256)
    (run : Structured config (addBody.stop (start + 1) + 1) (.before rest)
      (m.tally j ((sum + (next + 1)) % 256) 0 (j + 1) cursor (steps + 5 * (next + 1))) result) :
    Structured config start (.inside addBody rest)
      (m.tally j sum (next + 1) (j + 1) cursor steps) result := by
  induction next generalizing sum steps with
  | zero =>
      refine .leave (addPass hmax hover hj hsum) (perform_tally_loop hmax rfl) ?_ run
      exact current_tally_next hj
  | succ next ih =>
      refine .again (addPass hmax hover hj hsum) (perform_tally_loop hmax rfl) ?_ ?_
      · rw [current_tally_next hj]
        exact Nat.succ_ne_zero next
      · refine ih (Nat.mod_lt _ (by decide)) ?_
        rw [Nat.mod_add_mod, show sum + 1 + (next + 1) = sum + (next + 1 + 1) by omega,
          show steps + 4 + 1 + 5 * (next + 1) = steps + 5 * (next + 1 + 1) by omega]
        exact run

/-- One pass of the outer loop adds a value to the sum and reads the next one. -/
theorem sumPass (hsum : sum < 256) (hnext : next ≠ 0) (hcursor : cursor ≤ m.input.size) :
    Structured config start (.before sumBody) (m.tally j sum next (j + 1) cursor steps)
      (.ok (m.tally j ((sum + next) % 256) (m.nextValue cursor) (j + 1) (m.nextCursor cursor)
        (steps + (5 * next + 2)))) := by
  obtain ⟨next, rfl⟩ := Nat.exists_eq_succ_of_ne_zero hnext
  refine .enter (perform_tally_loop hmax rfl) ?_ ?_
  · rw [current_tally_next hj]
    exact hnext
  · refine addLoop hmax hover hj hsum ?_
    refine .simple (perform_tally_input_next hmax hcursor) ?_
    rw [show steps + 1 + 5 * (next + 1) + 1 = steps + (5 * next.succ + 2) by omega]
    exact .done

/-- Once it is entered, the outer loop adds the second cell and all values up to the next zero. -/
theorem sumInside (hsum : sum < 256) (hnext : next ≠ 0) (hcursor : cursor ≤ m.input.size)
    (run : Structured config (sumBody.stop (start + 1) + 1) (.before rest)
      (m.tally j ((sum + (next :: m.addends cursor).sum) % 256) 0 (j + 1)
        (min (cursor + (next :: m.addends cursor).length) m.input.size)
        (steps + addingSteps (next :: m.addends cursor))) result) :
    Structured config start (.inside sumBody rest)
      (m.tally j sum next (j + 1) cursor steps) result := by
  generalize hvalues : m.addends cursor = values at run
  induction values generalizing sum next cursor steps with
  | nil =>
      -- The value that this pass reads is zero, so the loop is left.
      have hzero := addends_eq_nil_iff.1 hvalues
      refine .leave (sumPass hmax hover hj hsum hnext hcursor) (perform_tally_loop hmax rfl) ?_ ?_
      · rw [current_tally_next hj, hzero]
      · rw [hzero, show steps + (5 * next + 2) + 1 = steps + (5 * next + 3) by omega]
        simpa only [nextCursor, addingSteps, List.map_cons, List.map_nil, List.sum_cons,
          List.sum_nil, List.length_cons, List.length_nil, Nat.zero_add, Nat.add_zero] using run
  | cons v values ih =>
      -- The value that this pass reads is the one that the next pass adds.
      obtain ⟨rfl, hne, htail⟩ := addends_eq_cons_iff.1 hvalues
      refine .again (sumPass hmax hover hj hsum hnext hcursor) (perform_tally_loop hmax rfl) ?_ ?_
      · rw [current_tally_next hj]
        exact hne
      · refine ih (Nat.mod_lt _ (by decide)) hne (Nat.min_le_right _ _) htail ?_
        have hcount : min (m.nextCursor cursor + (m.nextValue cursor :: values).length)
            m.input.size = min (cursor + (next :: m.nextValue cursor :: values).length)
              m.input.size := by
          have hlength : (next :: m.nextValue cursor :: values).length =
              (m.nextValue cursor :: values).length + 1 := rfl
          rw [nextCursor, hlength]
          omega
        have hsteps : steps + (5 * next + 2) + 1 + addingSteps (m.nextValue cursor :: values) =
            steps + addingSteps (next :: m.nextValue cursor :: values) := by
          rw [addingSteps_cons next]
          omega
        rw [Nat.mod_add_mod, Nat.add_assoc, ← List.sum_cons, hcount, hsteps]
        exact run

/-- The outer loop adds the second cell and all values up to the next zero, if the second cell is not
zero itself. -/
theorem sumLoop {values : List Nat} (hsum : sum < 256) (hcursor : cursor ≤ m.input.size)
    (hvalues : values = if next = 0 then [] else next :: m.addends cursor)
    (run : Structured config (sumBody.stop (start + 1) + 1) (.before rest)
      (m.tally j ((sum + values.sum) % 256) 0 (j + 1) (min (cursor + values.length) m.input.size)
        (steps + (1 + addingSteps values))) result) :
    Structured config start (.before (.loop sumBody rest))
      (m.tally j sum next (j + 1) cursor steps) result := by
  by_cases hzero : next = 0
  · rw [if_pos hzero] at hvalues
    subst hvalues hzero
    simp only [List.sum_nil, List.length_nil, Nat.add_zero, Nat.mod_eq_of_lt hsum,
      Nat.min_eq_left hcursor] at run
    exact .skip (perform_tally_loop hmax rfl) (current_tally_next hj) run
  · rw [if_neg hzero] at hvalues
    subst hvalues
    refine .enter (perform_tally_loop hmax rfl) ?_ ?_
    · rw [current_tally_next hj]
      exact hzero
    · refine sumInside hmax hover hj hsum hzero hcursor ?_
      rw [Nat.add_assoc]
      exact run

/-- The whole piece of code.  The rest of the program finds a machine on which nothing but the sum, the
pointer, the cursor, the output and the step counter has changed. -/
theorem adder (hsum : m.tape.getD j 0 = 0) (hnext : m.tape.getD (j + 1) 0 = 0)
    (hpointer : m.pointer + 1 = j) (hcursor : m.cursor ≤ m.input.size)
    (run : Structured config (start + 15) (.before rest) (m.summed j) result) :
    Structured config start (.before (Block.adder rest)) m result := by
  have hbound (cursor : Nat) : m.nextCursor cursor ≤ m.input.size := Nat.min_le_right _ _
  rw [← tally_self hsum hnext]
  refine .simple (perform_tally_right hmax (by omega)) ?_
  rw [hpointer]
  refine .simple (perform_tally_input_sum hmax hcursor) ?_
  refine .simple (perform_tally_right hmax hj) ?_
  refine .simple (perform_tally_input_next hmax (hbound m.cursor)) ?_
  refine sumLoop hmax hover hj (m.nextValue_lt m.cursor) (hbound (m.nextCursor m.cursor))
    (m.addends_eq (m.nextCursor m.cursor)) ?_
  refine .simple (perform_tally_left hmax) ?_
  refine .simple (perform_tally_output hmax hj) ?_
  have hread : min (m.nextCursor (m.nextCursor m.cursor) +
      (m.addends (m.nextCursor m.cursor)).length) m.input.size = (m.summed j).cursor := by
    simp only [summed, nextCursor]
    omega
  have hcount : m.steps + 1 + 1 + 1 + 1 + (1 + addingSteps (m.addends (m.nextCursor m.cursor))) +
      1 + 1 = (m.summed j).steps := by
    simp only [summed]
    omega
  rw [summed_eq hnext hread hcount] at run
  exact run

end Structured

end CowLang
