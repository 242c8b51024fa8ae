import CowLang.Proofs.Pairing
import CowLang.Proofs.Steps
/-!
# Structured runs

A run follows a token index that jumps.  A structured run follows the tree instead: simple
instructions act one after another, and a loop repeats its body.  There are no jumps and no loop
table in it; token indices are carried along only because faults mention them.

`MOO` is executed once, when the loop is reached, and `moo` after each pass through the body, so a
loop that is entered is not left and reached again: a structured run knows places before a block
and places inside of a loop.

Main statements: `Structured.reaches` (what a structured run comes to, the run comes to),
`followed_of_advance` (a run that ends has followed the tree) and
`endsFrom_iff_structured` (both together, for whole programs).
-/

namespace CowLang

/-! ## Structured runs -/

namespace Block

/-- The index after the last token of a block whose first token has index `start`. -/
def stop (start : Nat) : Block → Nat
  | done => start
  | simple _ _ rest => rest.stop (start + 1)
  | loop body rest => rest.stop (body.stop (start + 1) + 1)

theorem stop_eq (b : Block) (start : Nat) : b.stop start = start + b.size := by
  induction b generalizing start with
  | done => rfl
  | simple i plain rest ih =>
      rw [stop, ih, size]
      omega
  | loop body rest ihBody ihRest =>
      rw [stop, ihRest, ihBody, size]
      omega

end Block

/-- A place in a nested program. -/
inductive Place where
  /-- A block comes next. -/
  | before (b : Block)
  /-- A pass through the body of a loop comes next, then the `moo` of the loop; `rest` comes after the
  loop. -/
  | inside (body rest : Block)

/-- The structured run from a place ends with a result.  The block or loop at the place has its first
token at index `start`. -/
inductive Structured (config : Config) : Nat → Place → Machine → Except Fault Machine → Prop where
  | done {start : Nat} {m : Machine} : Structured config start (.before .done) m (.ok m)
  | simple {start : Nat} {m m' : Machine} {i : Instruction} {plain : i.isLoop = false}
      {rest : Block} {result : Except Fault Machine}
      (step : m.perform config start i = .ok m')
      (run : Structured config (start + 1) (.before rest) m' result) :
      Structured config start (.before (.simple i plain rest)) m result
  | simpleFault {start : Nat} {m : Machine} {i : Instruction} {plain : i.isLoop = false}
      {rest : Block} {fault : Fault}
      (step : m.perform config start i = .error fault) :
      Structured config start (.before (.simple i plain rest)) m (.error fault)
  /-- A loop on a zero cell costs one step and is skipped. -/
  | skip {start : Nat} {m m' : Machine} {body rest : Block} {result : Except Fault Machine}
      (step : m.perform config start .loopOpen = .ok m') (zero : m.current = 0)
      (run : Structured config (body.stop (start + 1) + 1) (.before rest) m' result) :
      Structured config start (.before (.loop body rest)) m result
  /-- A loop on another cell costs one step and is entered. -/
  | enter {start : Nat} {m m' : Machine} {body rest : Block} {result : Except Fault Machine}
      (step : m.perform config start .loopOpen = .ok m') (nonzero : m.current ≠ 0)
      (run : Structured config start (.inside body rest) m' result) :
      Structured config start (.before (.loop body rest)) m result
  | openFault {start : Nat} {m : Machine} {body rest : Block} {fault : Fault}
      (step : m.perform config start .loopOpen = .error fault) :
      Structured config start (.before (.loop body rest)) m (.error fault)
  /-- When the cell is zero at `moo`, that costs one step and the loop is left. -/
  | leave {start : Nat} {m m' m'' : Machine} {body rest : Block} {result : Except Fault Machine}
      (pass : Structured config (start + 1) (.before body) m (.ok m'))
      (step : m'.perform config (body.stop (start + 1)) .loopClose = .ok m'')
      (zero : m'.current = 0)
      (run : Structured config (body.stop (start + 1) + 1) (.before rest) m'' result) :
      Structured config start (.inside body rest) m result
  /-- When it is another, that costs one step and a further pass begins. -/
  | again {start : Nat} {m m' m'' : Machine} {body rest : Block} {result : Except Fault Machine}
      (pass : Structured config (start + 1) (.before body) m (.ok m'))
      (step : m'.perform config (body.stop (start + 1)) .loopClose = .ok m'')
      (nonzero : m'.current ≠ 0)
      (run : Structured config start (.inside body rest) m'' result) :
      Structured config start (.inside body rest) m result
  | closeFault {start : Nat} {m m' : Machine} {body rest : Block} {fault : Fault}
      (pass : Structured config (start + 1) (.before body) m (.ok m'))
      (step : m'.perform config (body.stop (start + 1)) .loopClose = .error fault) :
      Structured config start (.inside body rest) m (.error fault)
  | bodyFault {start : Nat} {m : Machine} {body rest : Block} {fault : Fault}
      (pass : Structured config (start + 1) (.before body) m (.error fault)) :
      Structured config start (.inside body rest) m (.error fault)

/-! ## Code in place -/

namespace Executable

variable {x : Executable}

/-- The tokens of a block, and the ends of its loops as partners, stand in the program from index
`start` on. -/
def LoadedAt (x : Executable) (start : Nat) : Block → Prop
  | .done => True
  | .simple i _ rest => x.program.instruction? start = some i ∧ x.LoadedAt (start + 1) rest
  | .loop body rest =>
    x.program.instruction? start = some .loopOpen ∧
    x.loops.target? start = some (body.stop (start + 1)) ∧
    x.LoadedAt (start + 1) body ∧
    x.program.instruction? (body.stop (start + 1)) = some .loopClose ∧
    x.loops.target? (body.stop (start + 1)) = some start ∧
    x.LoadedAt (body.stop (start + 1) + 1) rest

/-- A block that stands in a program written out of a tree is in place there: its loops are loops of the
tree. -/
theorem loadedAt_of_drop {whole b : Block} {start : Nat} {after : List Instruction}
    (hprogram : x.program.instructions = whole.flatten) (hloops : x.loops = whole.loopTable)
    (h : whole.flatten.drop start = b.flatten ++ after) : x.LoadedAt start b := by
  -- What stands at an index begins there, and what comes after it stands behind.
  have hat {start : Nat} {i : Instruction} {is : List Instruction}
      (h : whole.flatten.drop start = i :: is) : x.program.instruction? start = some i := by
    rw [Program.instruction?_eq_getElem?, hprogram, ← Nat.add_zero start, ← List.getElem?_drop, h,
      List.getElem?_cons_zero]
  have hbehind {start : Nat} (is : List Instruction) {is' : List Instruction}
      (h : whole.flatten.drop start = is ++ is') : whole.flatten.drop (start + is.length) = is' := by
    rw [← List.drop_drop, h, List.drop_left]
  induction b generalizing start after with
  | done => trivial
  | simple i plain rest ih => exact ⟨hat h, ih (hbehind [i] h)⟩
  | loop body rest ihBody ihRest =>
      rw [Block.flatten, List.cons_append, List.append_assoc, List.cons_append] at h
      have hinside := hbehind [.loopOpen] h
      have hclose := hbehind _ hinside
      have hrest := hbehind [.loopClose] hclose
      obtain ⟨c, hc⟩ := Block.exists_loopAt_of_open (b := whole) (i := start) (by
        rw [← hprogram, ← Program.instruction?_eq_getElem?]
        exact hat h)
      -- The loop of the tree that begins here has the same body.
      obtain rfl : c = body := by
        obtain ⟨before, after', hlength, hflat⟩ := hc.flatten_eq
        rw [hflat, ← hlength, List.drop_left] at h
        exact (Block.flatten_append_inj (Block.ends_loopClose _) (Block.ends_loopClose _)
          (List.cons.inj h).2).1
      obtain ⟨hfirst, hlast⟩ := hc.partner?_eq (Nat.zero_add start).symm rfl
      have hstop : c.stop (start + 1) = start + c.size + 1 := by
        rw [Block.stop_eq]
        omega
      have hindex : start + [Instruction.loopOpen].length + c.flatten.length = start + c.size + 1 := by
        rw [List.length_singleton, Block.length_flatten]
        omega
      rw [hindex] at hclose hrest
      rw [LoadedAt, hstop, hloops, Block.target?_loopTable, Block.target?_loopTable]
      exact ⟨hat h, hfirst, ihBody hinside, hat hclose, hlast, ihRest hrest⟩

end Executable

namespace Place

/-- The index of the next token at a place. -/
def entry (start : Nat) : Place → Nat
  | before _ => start
  | inside _ _ => start + 1

/-- The index after the last token that belongs to a place. -/
def exit (start : Nat) : Place → Nat
  | before b => b.stop start
  | inside body rest => (Block.loop body rest).stop start

/-- The block or loop of a place stands in the program from index `start` on. -/
def LoadedAt (x : Executable) (start : Nat) : Place → Prop
  | before b => x.LoadedAt start b
  | inside body rest => x.LoadedAt start (.loop body rest)

end Place

/-! ## The run follows the tree -/

section Refinement

variable {x : Executable} {config : Config} {clock : Clock}

/-- What a structured run comes to, the run comes to: the index after the place with the same
machine, or the same fault. -/
theorem Structured.reaches (htimeout : config.timeout = none) {start : Nat} {place : Place}
    {m : Machine} {result : Except Fault Machine}
    (h : Structured config start place m result) (hloaded : place.LoadedAt x start) :
    x.Reaches config clock ⟨place.entry start, m⟩ (.after (place.exit start) result) := by
  induction h with
  | done => exact .refl _
  | @simple start m m' i plain rest result step run ih =>
      obtain ⟨hi, hrest⟩ := hloaded
      have hnext := Executable.next_simple clock htimeout hi plain m
      rw [step] at hnext
      exact (Executable.Reaches.of_next _ hnext).trans (ih hrest)
  | @simpleFault start m i plain rest fault step =>
      have hnext := Executable.next_simple clock htimeout hloaded.1 plain m
      rw [step] at hnext
      exact .of_next _ hnext
  | @skip start m m' body rest result step zero run ih =>
      obtain ⟨hopen, htarget, -, -, -, hrest⟩ := hloaded
      have hnext := Executable.next_loopOpen clock htimeout hopen htarget m
      rw [step, if_pos zero] at hnext
      exact (Executable.Reaches.of_next _ hnext).trans (ih hrest)
  | @enter start m m' body rest result step nonzero run ih =>
      obtain ⟨hopen, htarget, -⟩ := id hloaded
      have hnext := Executable.next_loopOpen clock htimeout hopen htarget m
      rw [step, if_neg nonzero] at hnext
      exact (Executable.Reaches.of_next _ hnext).trans (ih hloaded)
  | @openFault start m body rest fault step =>
      obtain ⟨hopen, htarget, -⟩ := hloaded
      have hnext := Executable.next_loopOpen clock htimeout hopen htarget m
      rw [step] at hnext
      exact .of_next _ hnext
  | @leave start m m' m'' body rest result pass step zero run ihPass ihRun =>
      obtain ⟨-, -, hbody, hclose, htarget, hrest⟩ := hloaded
      have hnext := Executable.next_loopClose clock htimeout hclose htarget m'
      rw [step, if_pos zero] at hnext
      exact (ihPass hbody).trans ((Executable.Reaches.of_next _ hnext).trans (ihRun hrest))
  | @again start m m' m'' body rest result pass step nonzero run ihPass ihRun =>
      obtain ⟨-, -, hbody, hclose, htarget, -⟩ := id hloaded
      have hnext := Executable.next_loopClose clock htimeout hclose htarget m'
      rw [step, if_neg nonzero] at hnext
      exact (ihPass hbody).trans ((Executable.Reaches.of_next _ hnext).trans (ihRun hloaded))
  | @closeFault start m m' body rest fault pass step ihPass =>
      obtain ⟨-, -, hbody, hclose, htarget, -⟩ := hloaded
      have hnext := Executable.next_loopClose clock htimeout hclose htarget m'
      rw [step] at hnext
      exact (ihPass hbody).trans (.of_next _ hnext)
  | @bodyFault start m body rest fault pass ihPass => exact ihPass hloaded.2.2.1

/-- A run of `count` steps that comes to `p` from a place has followed the tree: the structured run from
there ends with a result, and after it the run still makes the steps that are left. -/
def Followed (x : Executable) (config : Config) (clock : Clock) (p : Progress) (count start : Nat)
    (place : Place) (m : Machine) : Prop :=
  ∃ result k, k ≤ count ∧ Structured config start place m result ∧
    x.resume config clock k (.after (place.exit start) result) = p

section Followed

variable {p : Progress} {count : Nat} (htimeout : config.timeout = none) (hend : ∀ s, p ≠ .running s)
  (ih : ∀ k, k < count → ∀ (start : Nat) (place : Place) (m : Machine), place.LoadedAt x start →
    x.advance config clock k ⟨place.entry start, m⟩ = p → Followed x config clock p k start place m)

include htimeout hend ih

/-- A block takes a step unless it is empty, so the steps after it are fewer. -/
theorem followed_before {start : Nat} (b : Block) {m : Machine} (hloaded : x.LoadedAt start b)
    (hrun : x.advance config clock count ⟨start, m⟩ = p) :
    Followed x config clock p count start (.before b) m := by
  cases b with
  | done => exact ⟨.ok m, count, le_rfl, .done, hrun⟩
  | simple i plain rest =>
      obtain ⟨hi, hrest⟩ := hloaded
      obtain ⟨k, hk, hresume⟩ := Executable.exists_resume_of_next hrun hend
        (Executable.next_simple clock htimeout hi plain m)
      cases hstep : m.perform config start i with
      | error fault =>
          rw [hstep] at hresume
          exact ⟨.error fault, k, hk.le, .simpleFault hstep, hresume⟩
      | ok m' =>
          rw [hstep] at hresume
          obtain ⟨result, j, hj, hrest, hexit⟩ := ih k hk _ (.before rest) m' hrest hresume
          exact ⟨result, j, by omega, .simple hstep hrest, hexit⟩
  | loop body rest =>
      obtain ⟨hopen, htarget, -, -, -, hrest⟩ := id hloaded
      obtain ⟨k, hk, hresume⟩ := Executable.exists_resume_of_next hrun hend
        (Executable.next_loopOpen clock htimeout hopen htarget m)
      cases hstep : m.perform config start .loopOpen with
      | error fault =>
          rw [hstep] at hresume
          exact ⟨.error fault, k, hk.le, .openFault hstep, hresume⟩
      | ok m' =>
          rw [hstep] at hresume
          by_cases hzero : m.current = 0
          · rw [if_pos hzero] at hresume
            obtain ⟨result, j, hj, hrest, hexit⟩ := ih k hk _ (.before rest) m' hrest hresume
            exact ⟨result, j, by omega, .skip hstep hzero hrest, hexit⟩
          · rw [if_neg hzero] at hresume
            obtain ⟨result, j, hj, hinside, hexit⟩ :=
              ih k hk start (.inside body rest) m' hloaded hresume
            exact ⟨result, j, by omega, .enter hstep hzero hinside, hexit⟩

/-- The body of a loop may take no step, but the `moo` after it takes one. -/
theorem followed_inside {start : Nat} {body rest : Block} {m : Machine}
    (hloaded : x.LoadedAt start (.loop body rest))
    (hrun : x.advance config clock count ⟨start + 1, m⟩ = p) :
    Followed x config clock p count start (.inside body rest) m := by
  obtain ⟨-, -, hbody, hclose, htarget, hrest⟩ := id hloaded
  obtain ⟨result, k, hk, hpass, hresume⟩ := followed_before htimeout hend ih body hbody hrun
  cases result with
  | error fault => exact ⟨.error fault, k, hk, .bodyFault hpass, hresume⟩
  | ok m' =>
      obtain ⟨j, hj, hresume⟩ := Executable.exists_resume_of_next hresume hend
        (Executable.next_loopClose clock htimeout hclose htarget m')
      have hjc : j < count := Nat.lt_of_lt_of_le hj hk
      cases hstep : m'.perform config (body.stop (start + 1)) .loopClose with
      | error fault =>
          rw [hstep] at hresume
          exact ⟨.error fault, j, hjc.le, .closeFault hpass hstep, hresume⟩
      | ok m'' =>
          rw [hstep] at hresume
          by_cases hzero : m'.current = 0
          · rw [if_pos hzero] at hresume
            obtain ⟨result, i, hi, hrest, hexit⟩ := ih j hjc _ (.before rest) m'' hrest hresume
            exact ⟨result, i, by omega, .leave hpass hstep hzero hrest, hexit⟩
          · rw [if_neg hzero] at hresume
            obtain ⟨result, i, hi, hinside, hexit⟩ :=
              ih j hjc start (.inside body rest) m'' hloaded hresume
            exact ⟨result, i, by omega, .again hpass hstep hzero hinside, hexit⟩

end Followed

/-- A run that ends has followed the tree. -/
theorem followed_of_advance (htimeout : config.timeout = none) {p : Progress}
    (hend : ∀ s, p ≠ .running s) (count start : Nat) (place : Place) (m : Machine)
    (hloaded : place.LoadedAt x start)
    (hrun : x.advance config clock count ⟨place.entry start, m⟩ = p) :
    Followed x config clock p count start place m := by
  -- A further pass through a loop is no smaller than the pass before, so the induction is on the steps.
  induction count using Nat.strong_induction_on generalizing start place m with
  | _ count ih =>
      cases place with
      | before b => exact followed_before htimeout hend ih b hloaded hrun
      | inside body rest => exact followed_inside htimeout hend ih hloaded hrun

end Refinement

/-! ## Whole programs -/

namespace Executable

variable {x : Executable} {config : Config} {clock : Clock}

theorem ofProgram_eq_ok_iff {p : Program} :
    ofProgram p = .ok x ↔ x.program = p ∧ LoopTable.ofProgram p = .ok x.loops := by
  rw [ofProgram]
  constructor
  · intro h
    cases htable : LoopTable.ofProgram p with
    | error e => simp [htable] at h
    | ok loops =>
        simp only [htable, Except.ok.injEq] at h
        rw [← h]
        exact ⟨rfl, rfl⟩
  · rintro ⟨rfl, h⟩
    rw [h]

/-- A program that is written out of a tree is made ready to run with the table of the tree. -/
theorem ofProgram_of_flatten_eq {p : Program} {b : Block} (hb : b.flatten = p.instructions) :
    ofProgram p = .ok ⟨p, b.loopTable⟩ :=
  ofProgram_eq_ok_iff.2 ⟨rfl, LoopTable.ofProgram_of_flatten_eq hb⟩

theorem exists_ofProgram_eq_ok {p : Program} {b : Block} (hb : b.flatten = p.instructions) :
    ∃ x, ofProgram p = .ok x :=
  ⟨_, ofProgram_of_flatten_eq hb⟩

/-- A program that is ready to run has the code of its tree in place. -/
theorem loadedAt_zero {p : Program} {b : Block} (hx : ofProgram p = .ok x)
    (hb : b.flatten = p.instructions) : x.LoadedAt 0 b := by
  obtain ⟨rfl, hloops⟩ := ofProgram_eq_ok_iff.1 hx
  rw [LoopTable.ofProgram_of_flatten_eq hb, Except.ok.injEq] at hloops
  exact loadedAt_of_drop hb.symm hloops.symm (List.append_nil b.flatten).symm

/-- Past the last token the run has ended. -/
theorem next_stop {p : Program} {b : Block} (hx : ofProgram p = .ok x)
    (hb : b.flatten = p.instructions) (m : Machine) :
    x.next config clock ⟨b.stop 0, m⟩ = .finished m := by
  obtain ⟨rfl, -⟩ := ofProgram_eq_ok_iff.1 hx
  have hnone : x.program.instruction? (b.stop 0) = none := by
    rw [Program.instruction?_eq_getElem?, ← hb, List.getElem?_eq_none_iff, Block.length_flatten,
      Block.stop_eq, Nat.zero_add]
  simp only [next, hnone]

/-- Without a timeout, the runs of a program end with the results of the structured runs of its tree. -/
theorem endsFrom_iff {p : Program} {b : Block} (hx : ofProgram p = .ok x)
    (hb : b.flatten = p.instructions) (htimeout : config.timeout = none) {m : Machine}
    {result : Except Fault Machine} :
    x.EndsFrom config clock ⟨0, m⟩ result ↔ Structured config 0 (.before b) m result := by
  have hloaded : Place.LoadedAt x 0 (.before b) := loadedAt_zero hx hb
  rw [endsFrom_iff_reaches]
  constructor
  · rintro ⟨n, hn⟩
    obtain ⟨result', k, -, hstruct, hresume⟩ := followed_of_advance htimeout
      (Progress.ofResult_ne_running result) n 0 (.before b) m hloaded hn
    cases result' with
    | error fault =>
        have hresult : Progress.ofResult (.error fault) = .ofResult result := hresume
        exact Progress.ofResult_injective hresult ▸ hstruct
    | ok m' =>
        -- The structured run has passed the last token, so the only step left ends the run.
        obtain ⟨j, -, hfinished⟩ := exists_resume_of_next hresume
          (Progress.ofResult_ne_running result) (next_stop hx hb m')
        have hresult : Progress.ofResult (.ok m') = .ofResult result := hfinished
        exact Progress.ofResult_injective hresult ▸ hstruct
  · intro h
    have hreaches : x.Reaches config clock ⟨0, m⟩ (.after (b.stop 0) result) :=
      h.reaches htimeout hloaded
    cases result with
    | error fault => exact hreaches
    | ok m' => exact hreaches.trans (.of_next _ (next_stop hx hb m'))

/-- A program that is ready to run is written out of one tree, and without a timeout its runs end with
exactly the results of the structured runs of that tree, whatever machine they start with. -/
theorem endsFrom_iff_structured (p : Program) (x : Executable) (hx : ofProgram p = .ok x) :
    (∃! b : Block, b.flatten = p.instructions) ∧
      ∀ b : Block, b.flatten = p.instructions →
        ∀ (config : Config) (clock : Clock), config.timeout = none →
          ∀ (m : Machine) (result : Except Fault Machine),
            x.EndsFrom config clock ⟨0, m⟩ result ↔ Structured config 0 (.before b) m result := by
  constructor
  · obtain ⟨-, hloops⟩ := ofProgram_eq_ok_iff.1 hx
    obtain ⟨b, hb, -⟩ := LoopTable.ofProgram_eq_ok_iff.1 hloops
    exact ⟨b, hb, fun c hc => Block.flatten_injective (hc.trans hb.symm)⟩
  · intro b hb config clock htimeout m result
    exact endsFrom_iff hx hb htimeout

/-- On a zero cell, `MoO MOO MOo MOo moo` fails at its second `MOo`, deep inside the loop: the tree is one
increment and one loop. -/
theorem endsFrom_iff_structured_underflow :
    ofProgram (.ofInstructions [.increment, .loopOpen, .decrement, .decrement, .loopClose]) =
      .ok ⟨.ofInstructions [.increment, .loopOpen, .decrement, .decrement, .loopClose],
        ⟨#[none, some 4, none, none, some 1], 1⟩⟩ ∧
    Structured .standard 0
      (.before (.simple .increment rfl
        (.loop (.simple .decrement rfl (.simple .decrement rfl .done)) .done)))
      (.start 1 "") (.error (.cellUnderflow 3 0)) :=
  ⟨rfl, ((endsFrom_iff_structured
    (.ofInstructions [.increment, .loopOpen, .decrement, .decrement, .loopClose]) _ rfl).2
    _ rfl .standard (fun _ => 0) rfl _ _).1 ⟨4, by decide⟩⟩

end Executable

end CowLang
