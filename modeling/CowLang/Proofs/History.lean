import CowLang.Proofs.Bounds
import CowLang.Proofs.Reads
/-!
# What the history of a run says

The states in which the steps of a run were made are its history.  The machine keeps no record of them, and
still they say what it has: how many of them read says where the cursor stands, the cells in those that wrote
are the output, and the last of those that used the register says what is in it, if their number is odd.

An instruction has at most one of these uses.  So each of the three accounts needs one step lemma, in which one
use is looked at and the others change nothing, and then holds of every run by induction on its length.

Main statements: `Machine.use_act` (the uses of an instruction), `exists_reached_of_filter_trace` (the states of a
history are reached one after another), `reads_and_writes_of_reached` (input and output) and
`register_of_reached` (the register).
-/

namespace CowLang

/-! ## What an instruction is used for -/

namespace Machine

variable {config : Config} {m m' : Machine} {token : Nat} {i : Instruction}

/-- Whether the instruction writes. -/
def writesOn (m : Machine) : Instruction → Bool
  | .output => true
  | .conditionalIo => m.current ≠ 0
  | _ => false

/-- What an instruction does, by what it is used for.  Where it neither reads nor writes nor uses the register,
it changes nothing but the cells and the pointer. -/
inductive Use (config : Config) (m : Machine) (i : Instruction) : Machine → Prop where
  | read (reads : m.readsOn i = true) : Use config m i m.read
  | write (writes : m.writesOn i = true) : Use config m i m.write
  | transfer (enabled : config.registerMode = .transfer) (uses : i = .register) :
      Use config m i m.transfer
  | compute (tape : Array Nat) (pointer : Nat) (reads : m.readsOn i = false)
      (writes : m.writesOn i = false) (uses : config.registerMode = .transfer → i ≠ .register) :
      Use config m i { m with tape, pointer }

theorem writesOn_of_readsOn (h : m.readsOn i = true) : m.writesOn i = false := by
  cases i with
  | conditionalIo => simpa [readsOn, writesOn] using h
  | output => cases h
  | _ => rfl

theorem readsOn_of_writesOn (h : m.writesOn i = true) : m.readsOn i = false := by
  cases hread : m.readsOn i with
  | false => rfl
  | true =>
      rw [writesOn_of_readsOn hread] at h
      cases h

/-- An instruction that does not fail has one of the uses. -/
theorem use_act (h : m.act config token i = .ok m') : Use config m i m' := by
  have compute (tape : Array Nat) (pointer : Nat) (hread : m.readsOn i = false)
      (hwrite : m.writesOn i = false) (hregister : i ≠ .register)
      (heq : m' = { m with tape, pointer }) : Use config m i m' :=
    heq ▸ .compute tape pointer hread hwrite fun _ => hregister
  cases i with
  | pointerRight =>
      simp only [act, moveRight] at h
      split at h
      · exact compute _ _ rfl rfl (by decide) (Except.ok.inj h).symm
      · split at h
        · cases h
        · exact compute _ _ rfl rfl (by decide) (Except.ok.inj h).symm
  | pointerLeft =>
      simp only [act, moveLeft] at h
      split at h
      · exact compute _ _ rfl rfl (by decide) (Except.ok.inj h).symm
      · split at h
        · cases h
        · exact compute _ _ rfl rfl (by decide) (Except.ok.inj h).symm
  | increment =>
      simp only [act, increment] at h
      split at h <;> split at h
      · exact compute _ _ rfl rfl (by decide) (Except.ok.inj h).symm
      · exact compute _ _ rfl rfl (by decide) (Except.ok.inj h).symm
      · cases h
      · exact compute _ _ rfl rfl (by decide) (Except.ok.inj h).symm
  | decrement =>
      simp only [act, decrement] at h
      split at h
      · exact compute _ _ rfl rfl (by decide) (Except.ok.inj h).symm
      · split at h
        · cases h
        · exact compute _ _ rfl rfl (by decide) (Except.ok.inj h).symm
  | reset => exact compute _ _ rfl rfl (by decide) (Except.ok.inj h).symm
  | exec | loopOpen | loopClose => exact compute _ _ rfl rfl (by decide) (Except.ok.inj h).symm
  | input =>
      cases h
      exact .read rfl
  | output =>
      cases h
      exact .write rfl
  | conditionalIo =>
      cases h
      split
      · next hzero => exact .read (decide_eq_true hzero)
      · next hnonzero => exact .write (decide_eq_true hnonzero)
  | register =>
      simp only [act] at h
      split at h
      · next hinert =>
          cases h
          refine .compute m.tape m.pointer rfl rfl fun henabled => ?_
          rw [hinert] at henabled
          cases henabled
      · next henabled =>
          cases h
          exact .transfer henabled rfl

theorem getElem?_setCurrent_pointer {value : Nat} (h : m.pointer < m.tapeLen) :
    (m.setCurrent value).tape[m.pointer]? = some value :=
  Array.getElem?_setIfInBounds_self_of_lt h

theorem output_read (m : Machine) : m.read.output = m.output := by
  unfold read
  split <;> rfl

theorem register_read (m : Machine) : m.read.register = m.register := by
  unfold read
  split <;> rfl

theorem transfer_of_register_eq_none (h : m.register = none) :
    m.transfer = { m with register := some m.current } := by
  unfold transfer
  rw [h]

theorem transfer_of_register_eq_some {value : Nat} (h : m.register = some value) :
    m.transfer = { m.setCurrent value with register := none } := by
  unfold transfer
  rw [h]

/-- Using the register changes nothing but the register and the cells. -/
theorem exists_transfer_eq (m : Machine) :
    ∃ tape register, m.transfer = { m with tape, register } := by
  unfold transfer
  split <;> exact ⟨_, _, rfl⟩

end Machine

/-! ## Histories -/

namespace Executable

variable {x : Executable} {config : Config} {clock : Clock} {input : String} {init s s' : State}
  {history : List State}

/-- The use that a step makes of its instruction. -/
theorem use_of_next (h : x.next config clock s = .running s') :
    ∃ i m, x.program.instruction? s.token = some i ∧ Machine.Use config s.machine i m ∧
      s'.machine = m.tick := by
  obtain ⟨i, m, hi, -, hact, -, hmachine⟩ := next_eq_running_iff.1 h
  exact ⟨i, m, hi, Machine.use_act hact, hmachine⟩

/-- What holds at first, and is handed on by a step that has been added to the history, holds after every
run. -/
theorem holds_of_history {P : List State → State → Prop} (hinit : P [] init)
    (hstep : ∀ history s s', P history s → x.next config clock s = .running s' →
      P (history ++ [s]) s') {count : Nat} (h : x.advance config clock count init = .running s) :
    P (x.trace config clock count init) s := by
  induction count generalizing s with
  | zero =>
      cases h
      exact hinit
  | succ count ih =>
      obtain ⟨s₁, hrun, hlast⟩ := exists_running_of_advance_add h
      rw [advance_succ_eq_resume] at hlast
      obtain ⟨s₂, hnext, hend⟩ := exists_running_of_resume hlast
      cases hend
      rw [trace_concat hrun hnext]
      exact hstep _ _ _ (ih hrun) hnext

/-- The state at an index among those of a kind is reached by the run, after as many others of that kind, and the
run goes on from it. -/
theorem exists_reached_of_filter_trace {kind : State → Bool} {count index : Nat}
    (h : ((x.trace config clock count init).filter kind)[index]? = some s) :
    ∃ k, x.advance config clock k init = .running s ∧
      (x.trace config clock k init).filter kind =
        ((x.trace config clock count init).filter kind).take index ∧
      kind s = true ∧ ∃ s', x.next config clock s = .running s' := by
  induction count generalizing init index with
  | zero => cases h
  | succ count ih =>
      cases hnext : x.next config clock init with
      | running s₁ =>
          have hlater {rest : Nat}
              (h : ((x.trace config clock count s₁).filter kind)[rest]? = some s) :
              ∃ k, x.advance config clock (k + 1) init = .running s ∧
                x.trace config clock (k + 1) init = init :: x.trace config clock k s₁ ∧
                (x.trace config clock k s₁).filter kind =
                  ((x.trace config clock count s₁).filter kind).take rest ∧
                kind s = true ∧ ∃ s', x.next config clock s = .running s' := by
            obtain ⟨k, hrun, htake, hkind, hgoes⟩ := ih h
            refine ⟨k, ?_, trace_succ_of_running hnext, htake, hkind, hgoes⟩
            rw [advance_succ_eq_resume, hnext, resume, hrun]
          rw [trace_succ_of_running hnext] at h ⊢
          by_cases hkind : kind init = true
          · rw [List.filter_cons_of_pos hkind] at h ⊢
            cases index with
            | zero =>
                cases h
                exact ⟨0, rfl, rfl, hkind, s₁, hnext⟩
            | succ index =>
                obtain ⟨k, hrun, htrace, htake, hrest⟩ := hlater h
                refine ⟨k + 1, hrun, ?_, hrest⟩
                rw [htrace, List.filter_cons_of_pos hkind, htake, List.take_succ_cons]
          · rw [List.filter_cons_of_neg hkind] at h ⊢
            obtain ⟨k, hrun, htrace, htake, hrest⟩ := hlater h
            refine ⟨k + 1, hrun, ?_, hrest⟩
            rw [htrace, List.filter_cons_of_neg hkind, htake]
      | finished m =>
          rw [trace_succ_of_ends (.ok m) hnext] at h
          cases h
      | failed fault =>
          rw [trace_succ_of_ends (.error fault) hnext] at h
          cases h

/-! ## Input and output -/

/-- Whether the next instruction writes. -/
def writesAt (x : Executable) (s : State) : Bool :=
  match x.program.instruction? s.token with
  | some i => s.machine.writesOn i
  | none => false

/-- A step that reads stores what it reads. -/
theorem machine_of_readsAt (hnext : x.next config clock s = .running s')
    (hread : x.readsAt s = true) : s'.machine = s.machine.read.tick := by
  obtain ⟨i, m, hi, -, hact, -, hmachine⟩ := next_eq_running_iff.1 hnext
  have hreads : s.machine.readsOn i = true := by rwa [readsAt, hi] at hread
  rw [(Machine.act_of_readsOn hreads).1] at hact
  cases hact
  exact hmachine

/-- The states of a history in which a character was read, or was wanted at the end of the input. -/
def reads (x : Executable) (history : List State) : List State :=
  history.filter x.readsAt

/-- The values of the current cell that were written, in order. -/
def written (x : Executable) (history : List State) : List Nat :=
  (history.filter x.writesAt).map fun s => s.machine.current

theorem length_reads_concat (x : Executable) (history : List State) (s : State) :
    (x.reads (history ++ [s])).length = (x.reads history).length + (x.readsAt s).toNat := by
  rw [reads, reads, List.filter_append, List.filter_singleton, List.length_append]
  cases x.readsAt s <;> rfl

theorem written_concat (x : Executable) (history : List State) (s : State) :
    x.written (history ++ [s]) =
      x.written history ++ if x.writesAt s = true then [s.machine.current] else [] := by
  rw [written, written, List.filter_append, List.filter_singleton, List.map_append]
  cases x.writesAt s <;> rfl

/-- The machine has its input, and the cursor is where the reads of the history have moved it. -/
def CursorAccords (x : Executable) (input : String) (history : List State) (s : State) : Prop :=
  s.machine.input = input.toList.toArray ∧
    s.machine.cursor = min (x.reads history).length input.length

/-- The output is what was written in the history. -/
def OutputAccords (x : Executable) (history : List State) (s : State) : Prop :=
  s.machine.output.toList = (x.written history).map cellChar

theorem CursorAccords.next (h : x.CursorAccords input history s)
    (hnext : x.next config clock s = .running s') : x.CursorAccords input (history ++ [s]) s' := by
  obtain ⟨i, m, hi, huse, hmachine⟩ := use_of_next hnext
  obtain ⟨hinput, hcursor⟩ := h
  have hread : x.readsAt s = s.machine.readsOn i := by rw [readsAt, hi]
  rw [CursorAccords, length_reads_concat, hread, hmachine]
  cases huse with
  | read reads =>
      rw [reads, Machine.read_eq_of_reads hinput hcursor]
      exact ⟨hinput, rfl⟩
  | write writes =>
      rw [Machine.readsOn_of_writesOn writes]
      exact ⟨hinput, hcursor⟩
  | transfer enabled uses =>
      obtain ⟨tape, register, htransfer⟩ := s.machine.exists_transfer_eq
      rw [htransfer, uses]
      exact ⟨hinput, hcursor⟩
  | compute tape pointer reads writes uses =>
      rw [reads]
      exact ⟨hinput, hcursor⟩

theorem OutputAccords.next (h : x.OutputAccords history s)
    (hnext : x.next config clock s = .running s') : x.OutputAccords (history ++ [s]) s' := by
  obtain ⟨i, m, hi, huse, hmachine⟩ := use_of_next hnext
  have hwrite : x.writesAt s = s.machine.writesOn i := by rw [writesAt, hi]
  rw [OutputAccords] at h ⊢
  rw [written_concat, hwrite, List.map_append, ← h, hmachine]
  have hkeeps (hwrites : s.machine.writesOn i = false) (hsame : m.output = s.machine.output) :
      m.tick.output.toList = s.machine.output.toList ++
        (if s.machine.writesOn i = true then [s.machine.current] else []).map cellChar := by
    rw [hwrites, ← hsame]
    exact (List.append_nil _).symm
  cases huse with
  | read reads =>
      exact hkeeps (Machine.writesOn_of_readsOn reads) (Machine.output_read s.machine)
  | write writes =>
      rw [if_pos writes]
      exact String.toList_push _
  | transfer enabled uses =>
      obtain ⟨tape, register, htransfer⟩ := s.machine.exists_transfer_eq
      exact hkeeps (uses ▸ rfl) (htransfer ▸ rfl)
  | compute tape pointer reads writes uses => exact hkeeps writes rfl

theorem cursorAccords_of_advance {count : Nat}
    (h : x.advance config clock count (initial config input) = .running s) :
    x.CursorAccords input (x.trace config clock count (initial config input)) s :=
  holds_of_history (P := x.CursorAccords input) ⟨rfl, (Nat.zero_min _).symm⟩
    (fun _ _ _ => CursorAccords.next) h

theorem outputAccords_of_advance {count : Nat}
    (h : x.advance config clock count (initial config input) = .running s) :
    x.OutputAccords (x.trace config clock count (initial config input)) s :=
  have hstart : x.OutputAccords [] (initial config input) := rfl
  holds_of_history (P := x.OutputAccords) hstart (fun _ _ _ => OutputAccords.next) h

/-- A read finds the cursor where the reads before it have moved it, and stores the value at its own index. -/
theorem exists_next_of_reads {count i : Nat}
    (h : (x.reads (x.trace config clock count (initial config input)))[i]? = some s) :
    ∃ s', x.next config clock s = .running s' ∧ s'.machine.pointer = s.machine.pointer ∧
      s'.machine.tape[s.machine.pointer]? = some (inputValue input i) := by
  obtain ⟨k, hrun, htake, hkind, s', hnext⟩ := exists_reached_of_filter_trace h
  obtain ⟨hinput, hcursor⟩ := cursorAccords_of_advance hrun
  -- So many reads were made before.
  have hlength : (x.reads (x.trace config clock k (initial config input))).length = i := by
    rw [reads, htake]
    exact List.length_take_of_le (List.getElem?_eq_some_iff.1 h).1.le
  rw [hlength] at hcursor
  have hmachine := machine_of_readsAt hnext hkind
  rw [Machine.read_eq_of_reads hinput hcursor] at hmachine
  refine ⟨s', hnext, hmachine ▸ rfl, ?_⟩
  rw [hmachine]
  exact Machine.getElem?_setCurrent_pointer (inBounds_of_advance hrun).pointer_lt

/-- While cells are bytes, only bytes are written. -/
theorem lt_of_mem_written {count : Nat} (hwrap : config.overflowPolicy = .wrap) {value : Nat}
    (h : value ∈ x.written (x.trace config clock count (initial config input))) : value < 256 := by
  obtain ⟨s, hmem, rfl⟩ := List.mem_map.1 h
  obtain ⟨index, hindex⟩ := List.mem_iff_getElem?.1 hmem
  obtain ⟨k, hrun, -⟩ := exists_reached_of_filter_trace hindex
  have hle : s.machine.current ≤ config.largestCell := (inBounds_of_advance hrun).current_le
  rw [Config.largestCell, hwrap] at hle
  exact Nat.lt_succ_of_le hle

/-- While cells are bytes, the written values are the code points of the output. -/
theorem toNat_output_of_wrap {count : Nat} (hwrap : config.overflowPolicy = .wrap)
    (h : x.advance config clock count (initial config input) = .running s) :
    s.machine.output.toList.map Char.toNat =
      x.written (x.trace config clock count (initial config input)) := by
  have hbyte : ∀ value ∈ x.written (x.trace config clock count (initial config input)),
      (cellChar value).toNat = value := fun value hvalue => by
    have hlt := lt_of_mem_written hwrap hvalue
    rw [cellChar_of_lt hlt, toNat_ofNat_byte hlt]
  rw [outputAccords_of_advance h, List.map_map]
  exact (List.map_congr_left hbyte).trans (List.map_id _)

/-- In the state that a run reaches after `count` steps, nothing of the input or the output has been lost,
repeated or exchanged: the read at index `i` among those made so far has stored the value of the character at
index `i`, or zero behind the end, in the cell under the pointer; the cursor tells how many characters have been
read; and the output shows the written values in order.  While cells are bytes, these values are the code points of
the output, and no character stands in for another one.  Where the run ends, this is what it ends with. -/
theorem reads_and_writes_of_reached (x : Executable) (config : Config) (clock : Clock)
    (input : String) (count : Nat) (s : State)
    (h : x.advance config clock count (initial config input) = .running s) :
    let history := x.trace config clock count (initial config input)
    (∀ i s₀, (x.reads history)[i]? = some s₀ →
      ∃ s₁, x.next config clock s₀ = .running s₁ ∧
        s₁.machine.pointer = s₀.machine.pointer ∧
        s₁.machine.tape[s₀.machine.pointer]? = some (inputValue input i)) ∧
    s.machine.cursor = min (x.reads history).length input.length ∧
    s.machine.output.toList = (x.written history).map cellChar ∧
    (config.overflowPolicy = .wrap →
      s.machine.output.toList.map Char.toNat = x.written history ∧
        ∀ c ∈ s.machine.output.toList, c.toNat < 256 ∧ c ≠ '\uFFFD') ∧
    ∀ m, x.next config clock s = .finished m → m = s.machine := by
  intro history
  refine ⟨fun i s₀ => exists_next_of_reads, (cursorAccords_of_advance h).2, outputAccords_of_advance h,
    fun hwrap => ?_, fun m hend => (next_eq_finished_iff.1 hend).2.symm⟩
  have hsame := toNat_output_of_wrap hwrap h
  refine ⟨hsame, fun c hc => ?_⟩
  have hlt : c.toNat < 256 := lt_of_mem_written hwrap (hsame ▸ List.mem_map_of_mem hc)
  refine ⟨hlt, ?_⟩
  rintro rfl
  exact absurd hlt (by decide)

/-- `Moo Moo oom OOM` on `A` reads the letter, writes it, reads zero behind the end and writes that. -/
theorem reads_and_writes_of_reached_conditional :
    let x : Executable := ⟨.ofInstructions [.conditionalIo, .conditionalIo, .input, .output],
      ⟨#[none, none, none, none], 0⟩⟩
    let config : Config := { tapeLen := 1 }
    let s : State := ⟨4, ⟨#[0], 0, #['A'], 1, "A\x00", none, 4⟩⟩
    x.advance config (fun _ => 0) 4 (initial config "A") = .running s ∧
      x.written (x.trace config (fun _ => 0) 4 (initial config "A")) = [65, 0] ∧
      s.machine.cursor = min 2 1 ∧ s.machine.output.toList.map Char.toNat = [65, 0] := by
  intro x config s
  have hrun : x.advance config (fun _ => 0) 4 (initial config "A") = .running s := by decide +kernel
  have hwritten : x.written (x.trace config (fun _ => 0) 4 (initial config "A")) = [65, 0] := by
    decide +kernel
  have hreads : (x.reads (x.trace config (fun _ => 0) 4 (initial config "A"))).length = 2 := by
    decide +kernel
  obtain ⟨-, hcursor, -, hbytes, -⟩ :=
    reads_and_writes_of_reached x config (fun _ => 0) "A" 4 s hrun
  rw [hreads] at hcursor
  exact ⟨hrun, hwritten, hcursor, (hbytes rfl).1.trans hwritten⟩

/-! ## The register -/

/-- Whether the next instruction is `MMM`. -/
def usesRegister (x : Executable) (s : State) : Bool :=
  x.program.instruction? s.token = some .register

/-- The states of a history in which `MMM` was executed. -/
def registerUses (x : Executable) (history : List State) : List State :=
  history.filter x.usesRegister

/-- What the register holds after uses of it: the value of the current cell in the last of them, if their number is
odd, and nothing otherwise. -/
def held (uses : List State) : Option Nat :=
  if uses.length % 2 = 1 then uses.getLast?.map fun s => s.machine.current else none

/-- The register holds what its uses in the history have left there. -/
def RegisterAccords (x : Executable) (history : List State) (s : State) : Prop :=
  s.machine.register = held (x.registerUses history)

theorem held_eq_some_iff {uses : List State} {value : Nat} :
    held uses = some value ↔
      uses.length % 2 = 1 ∧ uses.getLast?.map (fun s => s.machine.current) = some value := by
  rw [held]
  split
  · next hodd => exact (and_iff_right hodd).symm
  · next heven => simp [heven]

theorem held_eq_none_iff {uses : List State} : held uses = none ↔ uses.length % 2 = 0 := by
  rw [held]
  split
  · next hodd =>
      -- An odd number of uses has a last one.
      have hne : uses ≠ [] := by
        rintro rfl
        cases hodd
      rw [List.getLast?_eq_getLast_of_ne_nil hne]
      simp [hodd]
  · next heven => simp only [true_iff]; omega

/-- One more use fills an empty register and empties a full one. -/
theorem held_concat (uses : List State) (s : State) :
    held (uses ++ [s]) = if held uses = none then some s.machine.current else none := by
  have hlength : (uses ++ [s]).length = uses.length + 1 := List.length_append
  by_cases heven : uses.length % 2 = 0
  · rw [if_pos (held_eq_none_iff.2 heven), held, if_pos (by omega), List.getLast?_concat]
    rfl
  · rw [if_neg (mt held_eq_none_iff.1 heven), held, if_neg (by omega)]

/-- No other instruction changes the register. -/
theorem register_of_not_usesRegister (hnext : x.next config clock s = .running s')
    (huse : x.usesRegister s = false) : s'.machine.register = s.machine.register := by
  obtain ⟨i, m, hi, hdoes, hmachine⟩ := use_of_next hnext
  rw [hmachine]
  cases hdoes with
  | read reads => exact Machine.register_read s.machine
  | write writes => rfl
  | transfer enabled uses =>
      rw [usesRegister, hi, uses] at huse
      cases huse
  | compute tape pointer reads writes uses => rfl

section Transfer

variable (htransfer : config.registerMode = .transfer)

include htransfer

theorem machine_of_usesRegister (hnext : x.next config clock s = .running s')
    (huse : x.usesRegister s = true) : s'.machine = s.machine.transfer.tick := by
  obtain ⟨i, m, hi, -, hact, -, hmachine⟩ := next_eq_running_iff.1 hnext
  rw [usesRegister, hi, decide_eq_true_iff, Option.some.injEq] at huse
  rw [huse, Machine.act, htransfer] at hact
  cases hact
  exact hmachine

theorem RegisterAccords.next (h : x.RegisterAccords history s)
    (hnext : x.next config clock s = .running s') : x.RegisterAccords (history ++ [s]) s' := by
  rw [RegisterAccords] at h ⊢
  rw [registerUses, List.filter_append, List.filter_singleton, ← registerUses]
  cases huse : x.usesRegister s with
  | false =>
      rw [register_of_not_usesRegister hnext huse, h]
      exact congrArg held (List.append_nil _).symm
  | true =>
      rw [machine_of_usesRegister htransfer hnext huse]
      refine Eq.trans ?_ (held_concat _ s).symm
      rw [← h]
      cases hregister : s.machine.register with
      | none =>
          rw [Machine.transfer_of_register_eq_none hregister]
          rfl
      | some value =>
          rw [Machine.transfer_of_register_eq_some hregister]
          rfl

theorem registerAccords_of_advance {count : Nat}
    (h : x.advance config clock count (initial config input) = .running s) :
    x.RegisterAccords (x.trace config clock count (initial config input)) s :=
  have hstart : x.RegisterAccords [] (initial config input) := rfl
  holds_of_history (P := x.RegisterAccords) hstart (fun _ _ _ h => h.next htransfer) h

/-- A use of the register finds there what the uses before it have left. -/
theorem exists_next_of_registerUses {count k : Nat}
    (h : (x.registerUses (x.trace config clock count (initial config input)))[k]? = some s) :
    s.machine.register =
        held ((x.registerUses (x.trace config clock count (initial config input))).take k) ∧
      s.machine.pointer < s.machine.tapeLen ∧
      ∃ s', x.next config clock s = .running s' ∧ s'.machine = s.machine.transfer.tick := by
  obtain ⟨n, hrun, htake, hkind, s', hnext⟩ := exists_reached_of_filter_trace h
  have haccords := registerAccords_of_advance htransfer hrun
  rw [RegisterAccords, registerUses, htake] at haccords
  exact ⟨haccords, (inBounds_of_advance hrun).pointer_lt, s', hnext,
    machine_of_usesRegister htransfer hnext hkind⟩

/-- After an even number of uses, the register is filled. -/
theorem exists_next_copy {count k : Nat}
    (h : (x.registerUses (x.trace config clock count (initial config input)))[2 * k]? = some s) :
    ∃ s', x.next config clock s = .running s' ∧ s'.machine.tape = s.machine.tape ∧
      s'.machine.register = some s.machine.current := by
  obtain ⟨hheld, -, s', hnext, hmachine⟩ := exists_next_of_registerUses htransfer h
  have hempty : s.machine.register = none := by
    rw [hheld, held_eq_none_iff, List.length_take_of_le (List.getElem?_eq_some_iff.1 h).1.le]
    omega
  rw [Machine.transfer_of_register_eq_none hempty] at hmachine
  exact ⟨s', hnext, hmachine ▸ rfl, hmachine ▸ rfl⟩

/-- After an odd number of uses, the register is emptied into the current cell. -/
theorem exists_next_paste {count k : Nat} {before : State}
    (hbefore : (x.registerUses (x.trace config clock count (initial config input)))[2 * k]? = some before)
    (h : (x.registerUses (x.trace config clock count (initial config input)))[2 * k + 1]? = some s) :
    ∃ s', x.next config clock s = .running s' ∧ s'.machine.pointer = s.machine.pointer ∧
      s'.machine.tape[s.machine.pointer]? = some before.machine.current ∧ s'.machine.register = none := by
  obtain ⟨hheld, hpointer, s', hnext, hmachine⟩ := exists_next_of_registerUses htransfer h
  have hfull : s.machine.register = some before.machine.current := by
    rw [hheld, held_eq_some_iff, List.length_take_of_le (List.getElem?_eq_some_iff.1 h).1.le,
      List.take_add_one, hbefore]
    refine ⟨by omega, ?_⟩
    rw [Option.toList_some, List.getLast?_concat]
    rfl
  rw [Machine.transfer_of_register_eq_some hfull] at hmachine
  refine ⟨s', hnext, hmachine ▸ rfl, ?_, hmachine ▸ rfl⟩
  rw [hmachine]
  exact Machine.getElem?_setCurrent_pointer hpointer

end Transfer

/-- While the register is enabled, `MMM` copies and pastes in turn.  Of its uses in the run so far, numbered from
zero, each even one leaves the tape as it is and puts the value of the current cell into the register; each odd one
puts the value from the use just before it into the current cell and empties the register.  So the register is full
exactly when the number of uses is odd, and then with the value of the current cell in the last one, and no other
instruction changes it.  Where the run ends, it leaves the machine as it is. -/
theorem register_of_reached (x : Executable) (config : Config) (clock : Clock) (input : String)
    (count : Nat) (s : State) (htransfer : config.registerMode = .transfer)
    (h : x.advance config clock count (initial config input) = .running s) :
    let uses := x.registerUses (x.trace config clock count (initial config input))
    (∀ k s₀, uses[2 * k]? = some s₀ →
      ∃ s₁, x.next config clock s₀ = .running s₁ ∧ s₁.machine.tape = s₀.machine.tape ∧
        s₁.machine.register = some s₀.machine.current) ∧
    (∀ k s₀ s₁, uses[2 * k]? = some s₀ → uses[2 * k + 1]? = some s₁ →
      ∃ s₂, x.next config clock s₁ = .running s₂ ∧
        s₂.machine.pointer = s₁.machine.pointer ∧
        s₂.machine.tape[s₁.machine.pointer]? = some s₀.machine.current ∧
        s₂.machine.register = none) ∧
    (∀ value, s.machine.register = some value ↔
      uses.length % 2 = 1 ∧ uses.getLast?.map (fun s => s.machine.current) = some value) ∧
    (∀ s', x.next config clock s = .running s' → x.program.instruction? s.token ≠ some .register →
      s'.machine.register = s.machine.register) ∧
    ∀ m, x.next config clock s = .finished m → m = s.machine := by
  intro uses
  refine ⟨fun k s₀ => exists_next_copy htransfer, fun k s₀ s₁ => exists_next_paste htransfer, fun value => ?_,
    fun s' hnext hother => register_of_not_usesRegister hnext (decide_eq_false hother),
    fun m hend => (next_eq_finished_iff.1 hend).2.symm⟩
  rw [registerAccords_of_advance htransfer h, held_eq_some_iff]

/-- `MMM moO MoO MMM MMM` copies a zero, which is not the same as nothing, pastes it over a one, and copies it
again. -/
theorem register_of_reached_zero :
    let x : Executable := ⟨.ofInstructions [.register, .pointerRight, .increment, .register, .register],
      ⟨#[none, none, none, none, none], 0⟩⟩
    let config : Config := { tapeLen := 2, registerMode := .transfer }
    let before : State := ⟨3, ⟨#[0, 1], 1, #[], 0, "", some 0, 3⟩⟩
    let s : State := ⟨5, ⟨#[0, 0], 1, #[], 0, "", some 0, 5⟩⟩
    config.registerMode = .transfer ∧
      x.advance config (fun _ => 0) 5 (initial config "") = .running s ∧
      (∃ after, x.next config (fun _ => 0) before = .running after ∧
        after.machine.tape[1]? = some 0 ∧ after.machine.register = none) ∧
      s.machine.register = some 0 := by
  intro x config before s
  have hrun : x.advance config (fun _ => 0) 5 (initial config "") = .running s := rfl
  have huses : x.registerUses (x.trace config (fun _ => 0) 5 (initial config "")) =
      [initial config "", before, ⟨4, ⟨#[0, 0], 1, #[], 0, "", none, 4⟩⟩] := rfl
  obtain ⟨-, hpaste, hheld, -, -⟩ := register_of_reached x config (fun _ => 0) "" 5 s rfl hrun
  rw [huses] at hpaste hheld
  obtain ⟨after, hnext, -, hcell, hempty⟩ := hpaste 0 _ _ rfl rfl
  exact ⟨rfl, hrun, ⟨after, hnext, hcell, hempty⟩, (hheld 0).2 ⟨by simp, rfl⟩⟩

end Executable

end CowLang
