import CowLang.Bundled
import CowLang.Proofs.Adder
import CowLang.Proofs.Budget
/-!
# Printing the input backwards

The bundled program stores the values of the input in the cells behind the first one, up to a zero or to the
end of the input, and then goes back and prints each of them.  The first cell stays zero, which ends the way
back.  So the tape must have two cells more than there are values: the first one, and one for the zero that
ends the reading.

Main statements: `Structured.fillInside` and `Structured.fillOverflow` (the first loop, where the tape is long
enough and where it is not), `Structured.echoInside` (the second loop) and
`Reverse.runs_to_final_or_overflows` (all runs).
-/

namespace CowLang

/-- A step budget, if there is one, allows for so many steps. -/
def Config.Allows (config : Config) (count : Nat) : Prop :=
  ∀ steps, steps < count → config.exhausted? steps = none

namespace Machine

variable {m : Machine} {config : Config} {token : Nat} {i : Instruction}

/-! ## A tape with values behind its first cell -/

/-- A tape on which zero is followed by some values, and these by zeros only. -/
def filled (tapeLen : Nat) (values : List Nat) : Array Nat :=
  (0 :: (values ++ List.replicate (tapeLen - 1 - values.length) 0)).toArray

section Filled

variable {tapeLen : Nat} {values : List Nat}

theorem filled_nil (h : 1 ≤ tapeLen) : filled tapeLen [] = Array.replicate tapeLen 0 := by
  rw [filled, List.nil_append, List.length_nil, Nat.sub_zero, ← List.replicate_succ,
    Nat.sub_add_cancel h, List.toArray_replicate]

theorem size_filled (h : values.length < tapeLen) : (filled tapeLen values).size = tapeLen := by
  rw [filled, List.size_toArray, List.length_cons, List.length_append, List.length_replicate]
  omega

theorem getD_filled_zero : (filled tapeLen values).getD 0 0 = 0 := rfl

theorem getD_filled_succ (index : Nat) :
    (filled tapeLen values).getD (index + 1) 0 = values.getD index 0 := by
  rw [filled, Array.getD_eq_getD_getElem?, List.getElem?_toArray, List.getElem?_cons_succ,
    List.getElem?_append, List.getD_eq_getElem?_getD]
  split
  · rfl
  · next hge =>
      rw [List.getElem?_replicate, List.getElem?_eq_none (Nat.le_of_not_lt hge)]
      split <;> rfl

theorem getD_filled_length : (filled tapeLen values).getD (values.length + 1) 0 = 0 := by
  rw [getD_filled_succ, List.getD_eq_getElem?_getD, List.getElem?_eq_none (Nat.le_refl _),
    Option.getD_none]

/-- One more value is stored behind the others. -/
theorem setIfInBounds_filled (value : Nat) (h : values.length + 1 < tapeLen) :
    (filled tapeLen values).setIfInBounds (values.length + 1) value =
      filled tapeLen (values ++ [value]) := by
  have hzeros : tapeLen - 1 - values.length = tapeLen - 1 - (values ++ [value]).length + 1 := by
    rw [List.length_append, List.length_singleton]
    omega
  rw [filled, List.setIfInBounds_toArray, List.set_cons_succ,
    List.set_append_right _ _ (Nat.le_refl _), Nat.sub_self, hzeros, List.replicate_succ,
    List.set_cons_zero, filled, List.append_assoc, List.singleton_append]

/-- Behind the values there are zeros anyway. -/
theorem filled_append_zero (h : values.length + 1 < tapeLen) :
    filled tapeLen (values ++ [0]) = filled tapeLen values := by
  rw [← setIfInBounds_filled 0 h, setIfInBounds_zero getD_filled_length]

end Filled

/-- The machine `m` with values on its tape, and the pointer, the cursor, the output and the step counter as
given. -/
def holding (m : Machine) (values : List Nat) (pointer cursor : Nat) (output : String)
    (steps : Nat) : Machine :=
  { m with
    tape := filled m.tapeLen values
    pointer := pointer
    cursor := cursor
    output := output
    steps := steps }

section Holding

variable {values : List Nat} {pointer cursor steps : Nat} {output : String}

theorem tapeLen_holding (h : values.length < m.tapeLen) :
    (m.holding values pointer cursor output steps).tapeLen = m.tapeLen :=
  size_filled h

theorem current_holding_zero : (m.holding values 0 cursor output steps).current = 0 :=
  getD_filled_zero

theorem current_holding_succ :
    (m.holding values (pointer + 1) cursor output steps).current = values.getD pointer 0 :=
  getD_filled_succ pointer

theorem current_holding_length :
    (m.holding values (values.length + 1) cursor output steps).current = 0 :=
  getD_filled_length

theorem current_holding_append (before after : List Nat) (value : Nat) :
    (m.holding (before ++ value :: after) (before.length + 1) cursor output steps).current =
      value := by
  rw [current_holding_succ, List.getD_eq_getElem?_getD, List.getElem?_append_right (Nat.le_refl _),
    Nat.sub_self, List.getElem?_cons_zero, Option.getD_some]

theorem setCurrent_holding_length (value : Nat) (h : values.length + 1 < m.tapeLen) :
    (m.holding values (values.length + 1) cursor output steps).setCurrent value =
      m.holding (values ++ [value]) (values.length + 1) cursor output steps := by
  simp only [holding, setCurrent, setIfInBounds_filled value h]

theorem holding_append_zero (h : values.length + 1 < m.tapeLen) :
    m.holding (values ++ [0]) pointer cursor output steps =
      m.holding values pointer cursor output steps := by
  rw [holding, filled_append_zero h, holding]

/-! ## Single steps on it -/

variable (hbudget : config.exhausted? steps = none)

include hbudget

theorem perform_holding_right (hvalues : values.length < m.tapeLen)
    (h : pointer + 1 < m.tapeLen) :
    (m.holding values pointer cursor output steps).perform config token .pointerRight =
      .ok (m.holding values (pointer + 1) cursor output (steps + 1)) := by
  have hright : (m.holding values pointer cursor output steps).pointer + 1 <
      (m.holding values pointer cursor output steps).tapeLen :=
    (tapeLen_holding hvalues).symm ▸ h
  rw [perform_of_allowed hbudget, act_right hright]
  rfl

/-- At the last cell there is no way to the right. -/
theorem perform_holding_overflow (hstrict : config.pointerPolicy = .strict)
    (hvalues : values.length < m.tapeLen) (h : m.tapeLen ≤ pointer + 1) :
    (m.holding values pointer cursor output steps).perform config token .pointerRight =
      .error (.pointerOverflow token m.tapeLen) := by
  have hright : ¬ (m.holding values pointer cursor output steps).pointer + 1 <
      (m.holding values pointer cursor output steps).tapeLen :=
    (tapeLen_holding hvalues).symm ▸ Nat.not_lt.2 h
  rw [perform_of_allowed hbudget, act_right_of_strict hstrict hright, tapeLen_holding hvalues]
  rfl

theorem perform_holding_left :
    (m.holding values (pointer + 1) cursor output steps).perform config token .pointerLeft =
      .ok (m.holding values pointer cursor output (steps + 1)) := by
  have hleft : 0 < (m.holding values (pointer + 1) cursor output steps).pointer :=
    Nat.succ_pos pointer
  rw [perform_of_allowed hbudget, act_left hleft]
  rfl

/-- The next value is stored behind the others. -/
theorem perform_holding_input (hroom : values.length + 1 < m.tapeLen)
    (hcursor : cursor ≤ m.input.size) :
    (m.holding values (values.length + 1) cursor output steps).perform config token .input =
      .ok (m.holding (values ++ [m.nextValue cursor]) (values.length + 1) (m.nextCursor cursor) output
        (steps + 1)) := by
  rw [perform_of_allowed hbudget, act, read_eq hcursor, setCurrent_holding_length _ hroom]
  rfl

theorem perform_holding_output (value : Nat) (hvalue : value < 256)
    (hcurrent : (m.holding values pointer cursor output steps).current = value) :
    (m.holding values pointer cursor output steps).perform config token .output =
      .ok (m.holding values pointer cursor (output.push (Char.ofNat value)) (steps + 1)) := by
  rw [perform_of_allowed hbudget, act, write, hcurrent, cellChar_of_lt hvalue]
  rfl

theorem perform_holding_loop (hi : i.isLoop = true) :
    (m.holding values pointer cursor output steps).perform config token i =
      .ok (m.holding values pointer cursor output (steps + 1)) := by
  rw [perform_of_allowed hbudget]
  cases i <;> first | rfl | cases hi

end Holding

end Machine

/-! ## The loops -/

namespace Block

/-- `moO oom`: reads a character into the next cell. -/
def fillBody : Block :=
  .right (.read .done)

/-- `OOM mOo`: prints the current cell and goes to the one before. -/
def echoBody : Block :=
  .write (.left .done)

end Block

namespace Structured

open Block Machine

variable {config : Config} {m : Machine} {values later : List Nat} {cursor start bound : Nat}
  {output : String} {rest : Block} {result : Except Fault Machine}
  (hbudget : config.Allows bound)

include hbudget

/-- One pass stores one more value. -/
theorem fillPass (start steps : Nat) (output : String) (hroom : values.length + 1 < m.tapeLen)
    (hcursor : cursor ≤ m.input.size) (hsteps : steps + 2 ≤ bound) :
    Structured config start (.before fillBody) (m.holding values values.length cursor output steps)
      (.ok (m.holding (values ++ [m.nextValue cursor]) (values.length + 1) (m.nextCursor cursor) output
        (steps + 2))) := by
  refine .simple (perform_holding_right (hbudget _ (by omega)) (Nat.lt_of_succ_lt hroom) hroom) ?_
  exact .simple (perform_holding_input (hbudget _ (by omega)) hroom hcursor) .done

/-- Once it is entered, the first loop stores all values up to the next zero, if the tape is long enough. -/
theorem fillInside (hlater : m.addends cursor = later)
    (hroom : values.length + later.length + 1 < m.tapeLen) (hcursor : cursor ≤ m.input.size)
    (hsteps : 3 * (values.length + later.length + 1) ≤ bound)
    (run : Structured config (fillBody.stop (start + 1) + 1) (.before rest)
      (m.holding (values ++ later) (values.length + later.length + 1)
        (min (cursor + later.length + 1) m.input.size) output
        (3 * (values.length + later.length + 1))) result) :
    Structured config start (.inside fillBody rest)
      (m.holding values values.length cursor output (3 * values.length)) result := by
  induction later generalizing values cursor with
  | nil =>
      have hpass := fillPass hbudget (start + 1) (3 * values.length) output hroom hcursor (by omega)
      rw [addends_eq_nil_iff.1 hlater, holding_append_zero hroom] at hpass
      refine .leave hpass (perform_holding_loop (hbudget _ (by omega)) rfl) current_holding_length ?_
      rw [List.append_nil] at run
      exact run
  | cons v later ih =>
      obtain ⟨hnext, hv, hlater⟩ := addends_eq_cons_iff.1 hlater
      rw [List.length_cons] at hroom hsteps run
      have hvalues : values.length + 1 < m.tapeLen := by omega
      have hpass := fillPass hbudget (start + 1) (3 * values.length) output hvalues hcursor (by omega)
      rw [hnext] at hpass
      refine .again hpass (perform_holding_loop (hbudget _ (by omega)) rfl) ?_ ?_
      · rw [current_holding_append]
        exact hv
      · -- What is stored now is one of the values for the rest of the loop.
        have hlength : (values ++ [v]).length = values.length + 1 := List.length_append
        have hcount : values.length + 1 + later.length = values.length + (later.length + 1) := by
          omega
        have hcursor' : min (m.nextCursor cursor + later.length + 1) m.input.size =
            min (cursor + (later.length + 1) + 1) m.input.size := by
          rw [nextCursor]
          omega
        have hrest := @ih (values ++ [v]) (m.nextCursor cursor) hlater
        rw [hlength, hcount, hcursor', List.append_assoc, List.singleton_append] at hrest
        exact hrest hroom (Nat.min_le_right _ _) hsteps run

/-- If the tape is too short, the first loop comes to its last cell and fails there. -/
theorem fillOverflow (hstrict : config.pointerPolicy = .strict) (hlater : m.addends cursor = later)
    (hvalues : values.length < m.tapeLen)
    (hshort : m.tapeLen < values.length + later.length + 2) (hcursor : cursor ≤ m.input.size)
    (hsteps : 3 * m.tapeLen ≤ bound) :
    Structured config start (.inside fillBody rest)
      (m.holding values values.length cursor output (3 * values.length))
      (.error (.pointerOverflow (start + 1) m.tapeLen)) := by
  induction later generalizing values cursor with
  | nil =>
      rw [List.length_nil] at hshort
      exact .bodyFault (.simpleFault (perform_holding_overflow (hbudget _ (by omega)) hstrict hvalues
        (by omega)))
  | cons v later ih =>
      obtain ⟨hnext, hv, hlater⟩ := addends_eq_cons_iff.1 hlater
      rw [List.length_cons] at hshort
      rcases Nat.lt_or_ge (values.length + 1) m.tapeLen with hroom | hlast
      · have hpass := fillPass hbudget (start + 1) (3 * values.length) output hroom hcursor (by omega)
        rw [hnext] at hpass
        refine .again hpass (perform_holding_loop (hbudget _ (by omega)) rfl) ?_ ?_
        · rw [current_holding_append]
          exact hv
        · have hlength : (values ++ [v]).length = values.length + 1 := List.length_append
          have hrest := @ih (values ++ [v]) (m.nextCursor cursor) hlater
          rw [hlength] at hrest
          exact hrest hroom (by omega) (Nat.min_le_right _ _)
      · exact .bodyFault (.simpleFault (perform_holding_overflow (hbudget _ (by omega)) hstrict hvalues
          hlast))

/-- The `MOO` of the first loop looks at the first value. -/
theorem performOpen (hsteps : 3 ≤ bound) (value : Nat) :
    (m.holding [value] 1 cursor output 2).perform config start .loopOpen =
      .ok (m.holding [value] 1 cursor output 3) :=
  perform_holding_loop (hbudget 2 hsteps) rfl

/-- The first loop, from after the first value has been stored, if the tape is long enough. -/
theorem fillLoop (hlater : m.addends cursor = later) (hroom : later.length + 1 < m.tapeLen)
    (hsteps : 3 * (later.length + 1) ≤ bound)
    (run : Structured config (fillBody.stop (start + 1) + 1) (.before rest)
      (m.holding later (later.length + 1) (min (cursor + later.length + 1) m.input.size) output
        (3 * (later.length + 1))) result) :
    Structured config start (.before (.loop fillBody rest))
      (m.holding [m.nextValue cursor] 1 (m.nextCursor cursor) output 2) result := by
  cases later with
  | nil =>
      have hzero := addends_eq_nil_iff.1 hlater
      refine .skip (performOpen hbudget (by omega) _) ?_ ?_
      · rw [hzero]
        exact current_holding_append [] [] 0
      · have hnil : m.holding ([] ++ [0]) 1 (m.nextCursor cursor) output 3 =
            m.holding [] 1 (m.nextCursor cursor) output 3 := holding_append_zero hroom
        rw [List.nil_append] at hnil
        rw [hzero, hnil]
        exact run
  | cons v later =>
      obtain ⟨rfl, hv, hlater⟩ := addends_eq_cons_iff.1 hlater
      rw [List.length_cons] at hroom hsteps
      refine .enter (performOpen hbudget (by omega) _) ?_ ?_
      · exact (current_holding_append [] [] _).symm ▸ hv
      · refine fillInside hbudget hlater ?_ (Nat.min_le_right _ _) ?_ ?_
        · rw [List.length_singleton]
          omega
        · rw [List.length_singleton]
          omega
        · have hcursor : min (m.nextCursor cursor + later.length + 1) m.input.size =
              min (cursor + (later.length + 1) + 1) m.input.size := by
            rw [nextCursor]
            omega
          rw [List.length_singleton, hcursor, Nat.add_comm 1]
          exact run

/-- The first loop, from after the first value has been stored, if the tape is too short. -/
theorem fillLoopOverflow (hstrict : config.pointerPolicy = .strict)
    (hlater : m.addends cursor = later) (htape : 1 < m.tapeLen)
    (hshort : m.tapeLen < later.length + 2) (hsteps : 3 * m.tapeLen ≤ bound) :
    Structured config start (.before (.loop fillBody rest))
      (m.holding [m.nextValue cursor] 1 (m.nextCursor cursor) output 2)
      (.error (.pointerOverflow (start + 1) m.tapeLen)) := by
  cases later with
  | nil =>
      rw [List.length_nil] at hshort
      omega
  | cons v later =>
      obtain ⟨rfl, hv, hlater⟩ := addends_eq_cons_iff.1 hlater
      rw [List.length_cons] at hshort
      refine .enter (performOpen hbudget (by omega) _) ?_ ?_
      · exact (current_holding_append [] [] _).symm ▸ hv
      · refine fillOverflow hbudget hstrict hlater htape ?_ (Nat.min_le_right _ _) hsteps
        rw [List.length_singleton]
        omega

/-- One pass prints the last of some values and goes on to the one before. -/
theorem echoPass {steps : Nat} {before after : List Nat} {v : Nat} (hv : v < 256)
    (hsteps : steps + 2 ≤ bound) :
    Structured config start (.before echoBody)
      (m.holding (before ++ v :: after) (before.length + 1) cursor output steps)
      (.ok (m.holding (before ++ v :: after) before.length cursor (output.push (Char.ofNat v))
        (steps + 2))) := by
  refine .simple (perform_holding_output (hbudget _ (by omega)) v hv
    (current_holding_append before after v)) ?_
  exact .simple (perform_holding_left (hbudget _ (by omega))) .done

/-- Once it is entered, the second loop prints the values from there on back to the first. -/
theorem echoInside {steps : Nat} {before after : List Nat} {v : Nat}
    (hbytes : ∀ u ∈ before ++ [v], u < 256) (hnonzero : ∀ u ∈ before, u ≠ 0)
    (hsteps : steps + 3 * (before.length + 1) ≤ bound) :
    Structured config start (.inside echoBody .done)
      (m.holding (before ++ v :: after) (before.length + 1) cursor output steps)
      (.ok (m.holding (before ++ v :: after) 0 cursor
        (output ++ String.ofList ((before ++ [v]).reverse.map Char.ofNat))
        (steps + 3 * (before.length + 1)))) := by
  induction before using List.reverseRecOn generalizing v after output steps with
  | nil =>
      have houtput : output ++ String.ofList (([] ++ [v]).reverse.map Char.ofNat) =
          output.push (Char.ofNat v) := by
        rw [String.push_eq_append]
        rfl
      rw [houtput]
      exact .leave (echoPass hbudget (hbytes v List.mem_cons_self) (by omega))
        (perform_holding_loop (hbudget _ (by omega)) rfl) current_holding_zero .done
  | append_singleton before u ih =>
      have hlength : (before ++ [u]).length = before.length + 1 := List.length_append
      have hvalues : before ++ [u] ++ v :: after = before ++ u :: (v :: after) := by
        rw [List.append_assoc, List.singleton_append]
      have houtput : output ++ String.ofList ((before ++ [u] ++ [v]).reverse.map Char.ofNat) =
          output.push (Char.ofNat v) ++ String.ofList ((before ++ [u]).reverse.map Char.ofNat) := by
        rw [List.reverse_append, List.reverse_singleton, List.singleton_append, List.map_cons,
          String.ofList_cons, String.push_eq_append, String.append_assoc]
      have hcount : steps + 3 * (before.length + 1 + 1) = steps + 2 + 1 + 3 * (before.length + 1) := by
        omega
      refine .again (echoPass hbudget (hbytes v (List.mem_append_right _ List.mem_cons_self)) (by omega))
        (perform_holding_loop (hbudget _ (by omega)) rfl) ?_ ?_
      · rw [hlength, hvalues, current_holding_append]
        exact hnonzero u (List.mem_append_right _ List.mem_cons_self)
      · rw [hlength] at hsteps ⊢
        rw [hvalues, houtput, hcount]
        exact ih (fun w hw => hbytes w (List.mem_append_left _ hw))
          (fun w hw => hnonzero w (List.mem_append_left _ hw)) (by omega)

/-- The second loop prints all values, the last one first. -/
theorem echoLoop {steps : Nat} (hbytes : ∀ u ∈ values, u < 256) (hnonzero : ∀ u ∈ values, u ≠ 0)
    (hsteps : steps + 1 + 3 * values.length ≤ bound) :
    Structured config start (.before (.loop echoBody .done))
      (m.holding values values.length cursor output steps)
      (.ok (m.holding values 0 cursor (output ++ String.ofList (values.reverse.map Char.ofNat))
        (steps + 1 + 3 * values.length))) := by
  have hopen : (m.holding values values.length cursor output steps).perform config start .loopOpen =
      .ok (m.holding values values.length cursor output (steps + 1)) :=
    perform_holding_loop (hbudget steps (by omega)) rfl
  rcases List.eq_nil_or_concat' values with rfl | ⟨before, v, rfl⟩
  · refine .skip hopen current_holding_zero ?_
    rw [List.reverse_nil, List.map_nil, String.ofList_nil, String.append_empty]
    exact .done
  · have hlength : (before ++ [v]).length = before.length + 1 := List.length_append
    rw [hlength] at hsteps hopen ⊢
    refine .enter hopen ?_ ?_
    · rw [current_holding_append]
      exact hnonzero v (List.mem_append_right _ List.mem_cons_self)
    · exact echoInside hbudget hbytes (fun u hu => hnonzero u (List.mem_append_left _ hu)) hsteps

end Structured

namespace Reverse

/-- The program as a tree. -/
def block : Block :=
  .right (.read (.loop .fillBody (.left (.loop .echoBody .done))))

theorem flatten_block : block.flatten = (Program.ofSource Bundled.reverse.source).instructions := by
  rw [Bundled.source, Bundled.reverseSource, Program.ofSource_ofList]
  decide +kernel

/-- The values that are printed: those of the characters before the first that is zero. -/
def values (input : String) : List Nat :=
  (input.toList.map cellValue).takeWhile (· ≠ 0)

/-- The machine at the end, if the tape is long enough. -/
def final (tapeLen : Nat) (input : String) : Machine where
  tape := (0 :: (values input ++ List.replicate (tapeLen - 1 - (values input).length) 0)).toArray
  pointer := 0
  input := input.toList.toArray
  cursor := min input.length ((values input).length + 1)
  output := String.ofList ((values input).reverse.map Char.ofNat)
  register := none
  steps := 5 + 6 * (values input).length

theorem lt_of_mem_values {input : String} : ∀ v ∈ values input, v < 256 := by
  intro v hv
  obtain ⟨c, -, rfl⟩ := List.mem_map.1 ((List.takeWhile_prefix _).subset hv)
  exact cellValue_lt c

theorem ne_zero_of_mem_values {input : String} : ∀ v ∈ values input, v ≠ 0 := by
  have hall := List.all_takeWhile (p := (· ≠ 0)) (l := input.toList.map cellValue)
  intro v hv
  simpa using List.all_eq_true.1 hall v hv

section Start

variable {config : Config} {input : String} {bound : Nat} {result : Except Fault Machine}

theorem addends_start (tapeLen : Nat) :
    (Machine.start tapeLen input).addends 0 = values input := rfl

/-- A fresh machine holds no values. -/
theorem start_eq_holding (tapeLen : Nat) :
    Machine.start tapeLen input = (Machine.start tapeLen input).holding [] 0 0 "" 0 := by
  have htape : (Machine.start tapeLen input).tape =
      Machine.filled (Machine.start tapeLen input).tapeLen [] := by
    rw [Machine.tapeLen_start, Machine.filled_nil (Nat.le_max_right _ _)]
    rfl
  rw [Machine.holding, ← htape]
  rfl

/-- The first two steps store the first value. -/
theorem structured_of_loop {tapeLen : Nat} (hbudget : config.Allows bound) (hbound : 2 ≤ bound)
    (htape : 2 ≤ tapeLen)
    (run : Structured config 2 (.before (.loop .fillBody (.left (.loop .echoBody .done))))
      ((Machine.start tapeLen input).holding [(Machine.start tapeLen input).nextValue 0] 1
        ((Machine.start tapeLen input).nextCursor 0) "" 2) result) :
    Structured config 0 (.before block) (.start tapeLen input) result := by
  have hroom : 0 + 1 < (Machine.start tapeLen input).tapeLen := by
    rw [Machine.tapeLen_start_of_pos (by omega)]
    exact htape
  rw [start_eq_holding]
  refine .simple (Machine.perform_holding_right (hbudget _ (by omega)) (Nat.zero_lt_of_lt hroom) hroom) ?_
  exact .simple (Machine.perform_holding_input (hbudget _ (by omega)) hroom (Nat.zero_le _)) run

/-- If the tape is long enough, the program prints the values backwards. -/
theorem structured_final {tapeLen : Nat} (hbudget : config.Allows bound)
    (hsteps : 5 + 6 * (values input).length ≤ bound) (htape : (values input).length + 2 ≤ tapeLen) :
    Structured config 0 (.before block) (.start tapeLen input) (.ok (final tapeLen input)) := by
  have hlen : (Machine.start tapeLen input).tapeLen = tapeLen :=
    Machine.tapeLen_start_of_pos (by omega) input
  have hfinal : final tapeLen input = (Machine.start tapeLen input).holding (values input) 0
      (min (0 + (values input).length + 1) (Machine.start tapeLen input).input.size)
      ("" ++ String.ofList ((values input).reverse.map Char.ofNat))
      (3 * ((values input).length + 1) + 1 + 1 + 3 * (values input).length) := by
    have hsize : (Machine.start tapeLen input).input.size = input.length := by
      rw [Machine.start, List.size_toArray, String.length_toList]
    rw [Machine.holding, hlen, hsize, String.empty_append, Nat.zero_add, Nat.min_comm]
    simp only [final, Machine.filled, Machine.start, Machine.mk.injEq, true_and]
    omega
  refine structured_of_loop hbudget (by omega) (by omega) ?_
  refine Structured.fillLoop hbudget (addends_start tapeLen) (hlen.symm ▸ htape) (by omega) ?_
  refine .simple (Machine.perform_holding_left (hbudget _ (by omega))) ?_
  rw [hfinal]
  exact Structured.echoLoop hbudget lt_of_mem_values ne_zero_of_mem_values (by omega)

/-- If it is too short, the pointer would leave it behind the last value that fits. -/
theorem structured_overflow {tapeLen : Nat} (hbudget : config.Allows bound)
    (hsteps : 3 * tapeLen ≤ bound) (hstrict : config.pointerPolicy = .strict) (htape : 2 ≤ tapeLen)
    (hshort : tapeLen < (values input).length + 2) :
    Structured config 0 (.before block) (.start tapeLen input)
      (.error (.pointerOverflow 3 tapeLen)) := by
  have hlen : (Machine.start tapeLen input).tapeLen = tapeLen :=
    Machine.tapeLen_start_of_pos (by omega) input
  have hfault : Except.error (Fault.pointerOverflow 3 tapeLen) =
      (.error (.pointerOverflow 3 (Machine.start tapeLen input).tapeLen) : Except Fault Machine) := by
    rw [hlen]
  rw [hfault]
  exact structured_of_loop hbudget (by omega) htape (Structured.fillLoopOverflow hbudget hstrict
    (addends_start tapeLen) (by omega) (by omega) (by omega))

end Start

/-- A run without a budget allows any number of steps, and the usual budget allows for all that the program
does on a tape of the usual length. -/
theorem allows_of_unlimited_or_standard {config : Config} {count : Nat}
    (h : config.maxSteps = none ∨ config = .standard) (hcount : count ≤ 5 + 6 * config.tapeLen) :
    config.Allows count := by
  intro steps hsteps
  rcases h with hmax | rfl
  · rw [Config.exhausted?, hmax]
  · have hlen : Config.standard.tapeLen = 30000 := rfl
    have hlimit : steps < 10000000 := by omega
    exact Config.exhausted?_of_lt rfl hlimit

/-- The program can be run, and every run of it without a timeout and without a budget, or under the usual
configuration, ends as the input says.  If there are two cells more than values, the values are printed
backwards, whatever the policies are; otherwise, unless the pointer wraps around, it leaves the tape at the
`moO` of the first loop. -/
theorem runs_to_final_or_overflows :
    ∃ x, Executable.ofSource Bundled.reverse.source = .ok x ∧
      ∀ (config : Config) (clock : Clock) (input : String),
        config.maxSteps = none ∨ config = .standard → config.timeout = none → 2 ≤ config.tapeLen →
          ((values input).length + 2 ≤ config.tapeLen →
            ∀ result, x.EndsFrom config clock (Executable.initial config input) result ↔
              result = .ok (final config.tapeLen input)) ∧
          (config.tapeLen < (values input).length + 2 → config.pointerPolicy = .strict →
            ∀ result, x.EndsFrom config clock (Executable.initial config input) result ↔
              result = .error (.pointerOverflow 3 config.tapeLen)) := by
  obtain ⟨x, hx⟩ := Executable.exists_ofProgram_eq_ok flatten_block
  refine ⟨x, hx, fun config clock input hmax htimeout htape => ⟨fun hroom => ?_, fun hshort hstrict => ?_⟩⟩
  · have hbudget : config.Allows (5 + 6 * (values input).length) :=
      allows_of_unlimited_or_standard hmax (by omega)
    have hends : x.EndsFrom config clock (Executable.initial config input)
        (.ok (final config.tapeLen input)) :=
      (Executable.endsFrom_iff hx flatten_block htimeout).2 (structured_final hbudget le_rfl hroom)
    exact fun result => hends.iff_eq
  · have hbudget : config.Allows (3 * config.tapeLen) :=
      allows_of_unlimited_or_standard hmax (by omega)
    have hends : x.EndsFrom config clock (Executable.initial config input)
        (.error (.pointerOverflow 3 config.tapeLen)) :=
      (Executable.endsFrom_iff hx flatten_block htimeout).2
        (structured_overflow hbudget le_rfl hstrict htape hshort)
    exact fun result => hends.iff_eq

/-- The values of `AB` are printed from four cells on, also under the usual configuration, and a zero with more
text after it changes nothing.  On three cells there is no room for the zero. -/
theorem runs_to_final_or_overflows_on_letters :
    ∃ x, Executable.ofSource Bundled.reverse.source = .ok x ∧
      x.EndsFrom { tapeLen := 4, maxSteps := none } (fun _ => 0)
        (Executable.initial { tapeLen := 4, maxSteps := none } "AB\x00C")
        (.ok ⟨#[0, 65, 66, 0], 0, #['A', 'B', '\x00', 'C'], 3, "BA", none, 17⟩) ∧
      x.EndsFrom { tapeLen := 3, maxSteps := none } (fun _ => 0)
        (Executable.initial { tapeLen := 3, maxSteps := none } "AB\x00C")
        (.error (.pointerOverflow 3 3)) ∧
      x.EndsFrom .standard (fun _ => 0) (Executable.initial .standard "AB\x00C")
        (.ok (final 30000 "AB\x00C")) := by
  obtain ⟨x, hx, hruns⟩ := runs_to_final_or_overflows
  have hvalues : values "AB\x00C" = [65, 66] := by decide +kernel
  have hfinal : final 4 "AB\x00C" =
      ⟨#[0, 65, 66, 0], 0, #['A', 'B', '\x00', 'C'], 3, "BA", none, 17⟩ := by
    decide +kernel
  refine ⟨x, hx, ?_, ?_, ?_⟩
  · refine ((hruns _ _ _ (.inl rfl) rfl (by decide)).1 ?_ _).2 (congrArg Except.ok hfinal.symm)
    rw [hvalues]
    decide
  · refine ((hruns _ _ _ (.inl rfl) rfl (by decide)).2 ?_ rfl _).2 rfl
    rw [hvalues]
    decide
  · refine ((hruns _ _ _ (.inr rfl) rfl (by decide)).1 ?_ _).2 rfl
    rw [hvalues]
    decide

end Reverse

end CowLang
