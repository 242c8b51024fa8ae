import CowLang.Proofs.Bounds
import CowLang.Proofs.Renumbering
import CowLang.Proofs.Structured
/-!
# One program after another

The tokens of two balanced programs after each other are again a balanced program.  Its loops are those of
the first program and, behind them, those of the second, so a run of it is a run of the first program and,
if that succeeds, a run of the second one on the machine that the first has left.

Main statements: `target?_loopTable_append_of_lt` and `target?_loopTable_append_add` (the table of both
programs), `agreesAt_append_left` and `agreesAt_append_right` (what each program finds in the whole) and
`endsFrom_append_iff` (how a run of both ends).
-/

namespace CowLang

/-! ## The tokens of both programs -/

instance : Append Program where
  append p q := ⟨p.tokens ++ q.tokens⟩

namespace Program

variable {p q : Program}

@[simp]
theorem instructions_append : (p ++ q).instructions = p.instructions ++ q.instructions := by
  have htokens : (p ++ q).tokens = p.tokens ++ q.tokens := rfl
  simp [instructions, htokens]

theorem instruction?_append_of_lt {token : Nat} (h : token < p.size) :
    (p ++ q).instruction? token = p.instruction? token := by
  rw [instruction?_eq_getElem?, instruction?_eq_getElem?, instructions_append,
    List.getElem?_append_left (by rwa [length_instructions])]

theorem instruction?_append_add (token : Nat) :
    (p ++ q).instruction? (p.size + token) = q.instruction? token := by
  rw [instruction?_eq_getElem?, instruction?_eq_getElem?, instructions_append,
    ← length_instructions, List.getElem?_append_right (Nat.le_add_right _ _),
    Nat.add_sub_cancel_left]

end Program

/-! ## The table of both programs -/

namespace Block

variable {b c : Block} {k : Nat}

theorem target?_loopTable_append_of_lt (h : k < b.size) :
    (b.append c).loopTable.target? k = b.loopTable.target? k := by
  have hother : c.partner? (0 + b.size) k = none := partner?_eq_none_of_outside (by omega)
  rw [target?_loopTable, target?_loopTable, partner?_append, hother, Option.or_none]

theorem target?_loopTable_append_add :
    (b.append c).loopTable.target? (b.size + k) = (c.loopTable.target? k).map (b.size + ·) := by
  have hother : b.partner? 0 (b.size + k) = none := partner?_eq_none_of_outside (by omega)
  rw [target?_loopTable, target?_loopTable, partner?_append, hother, Option.none_or,
    Nat.zero_add, ← partner?_add, Nat.add_zero]

end Block

/-! ## Runs of both programs -/

namespace Executable

section Append

variable {p q : Program} {b c : Block} (hb : b.flatten = p.instructions) {config : Config}
  {clock : Clock}

include hb

/-- The first program finds itself at the beginning of the whole. -/
theorem agreesAt_append_left {token : Nat} (h : token < p.size) :
    AgreesAt id ⟨p, b.loopTable⟩ ⟨p ++ q, (b.append c).loopTable⟩ token where
  instruction?_eq := Program.instruction?_append_of_lt h
  after_eq := rfl
  target?_eq := by
    rw [← Program.length_instructions, ← hb, Block.length_flatten] at h
    rw [Option.map_id]
    exact Block.target?_loopTable_append_of_lt h
  after_target_eq := fun _ _ => rfl

/-- The second program finds itself behind the first one. -/
theorem agreesAt_append_right (token : Nat) :
    AgreesAt (p.size + ·) ⟨q, c.loopTable⟩ ⟨p ++ q, (b.append c).loopTable⟩ token where
  instruction?_eq := Program.instruction?_append_add token
  after_eq := rfl
  target?_eq := by
    rw [← Program.length_instructions, ← hb, Block.length_flatten]
    exact Block.target?_loopTable_append_add
  after_target_eq := fun _ _ => rfl

/-- As long as the first program has not succeeded, the run of both is its run. -/
theorem advance_append_left {n : Nat} {s : State} {progress : Progress}
    (h : advance ⟨p, b.loopTable⟩ config clock n s = progress)
    (hgoing : ∀ m, progress ≠ .finished m) :
    advance ⟨p ++ q, (b.append c).loopTable⟩ config clock n s = progress := by
  have hinside (k : Nat) (hk : k < n) (s' : State)
      (hrun : advance ⟨p, b.loopTable⟩ config clock k s = .running s') : s'.token < p.size := by
    have hnext (m : Machine) : next ⟨p, b.loopTable⟩ config clock s' ≠ .finished m := by
      intro hend
      obtain ⟨rest, rfl⟩ : ∃ rest, n = k + (rest + 1) := ⟨n - k - 1, by omega⟩
      refine hgoing m ?_
      rw [← h, advance_add_eq_resume, hrun, resume, advance_succ_eq_resume, hend]
      rfl
    obtain ⟨i, hi⟩ := exists_instruction hnext
    exact lt_size_of_instruction? hi
  have hsame : advance ⟨p ++ q, (b.append c).loopTable⟩ config clock n (s.renumber id) =
      (advance ⟨p, b.loopTable⟩ config clock n s).renumber id :=
    advance_renumber fun k hk s' hrun => agreesAt_append_left hb (hinside k hk s' hrun)
  rwa [State.renumber_id, Progress.renumber_id, h] at hsame

/-- Where the first program succeeds, the run of both has come to the second one. -/
theorem reaches_append_of_ok {m m' : Machine}
    (h : EndsFrom ⟨p, b.loopTable⟩ config clock ⟨0, m⟩ (.ok m')) :
    Reaches ⟨p ++ q, (b.append c).loopTable⟩ config clock ⟨0, m⟩ (.running ⟨p.size, m'⟩) := by
  obtain ⟨n, s, hrun, hend⟩ := endsFrom_iff_exists_endsAfter.1 h
  obtain ⟨hnone, rfl⟩ := next_eq_finished_iff.1 hend
  have hloops : LoopTable.ofProgram p = .ok b.loopTable := LoopTable.ofProgram_of_flatten_eq hb
  have hle : s.token ≤ p.size := token_le_size_of_advance hloops (Nat.zero_le p.size) hrun
  have hge : p.size ≤ s.token := by
    rwa [Program.instruction?_eq_getElem?, List.getElem?_eq_none_iff,
      Program.length_instructions] at hnone
  refine ⟨n, ?_⟩
  rw [← Nat.le_antisymm hle hge]
  exact advance_append_left hb hrun nofun

/-- Behind the first program, the second one runs as by itself. -/
theorem endsFrom_append_right {m : Machine} {result : Except Fault Machine} :
    EndsFrom ⟨p ++ q, (b.append c).loopTable⟩ config clock ⟨p.size, m⟩ result ↔
      ∃ result', EndsFrom ⟨q, c.loopTable⟩ config clock ⟨0, m⟩ result' ∧
        result = result'.mapError (Fault.renumber (p.size + ·)) :=
  endsFrom_renumber_iff (s := ⟨0, m⟩) (agreesAt_append_right hb)

end Append

/-- Balanced programs can be put after each other.  The whole has the loops of both, and it fails as the first
program fails, goes on with the second one if the first succeeds, and never ends if the first does not.  In
what the second program makes of it, token numbers begin behind the first; steps are counted on. -/
theorem endsFrom_append_iff (p q : Program) (hp : Balanced p.instructions)
    (hq : Balanced q.instructions) :
    Balanced (p ++ q).instructions ∧
    ∃ x y z, ofProgram p = .ok x ∧ ofProgram q = .ok y ∧ ofProgram (p ++ q) = .ok z ∧
      (∀ k, k < p.size → z.loops.target? k = x.loops.target? k) ∧
      (∀ k, z.loops.target? (p.size + k) = (y.loops.target? k).map (p.size + ·)) ∧
      ∀ (config : Config) (clock : Clock) (input : String),
        (∀ fault, x.EndsFrom config clock (initial config input) (.error fault) →
          ∀ result, z.EndsFrom config clock (initial config input) result ↔
            result = .error fault) ∧
        (∀ m, x.EndsFrom config clock (initial config input) (.ok m) →
          ∀ result, z.EndsFrom config clock (initial config input) result ↔
            ∃ result', y.EndsFrom config clock ⟨0, m⟩ result' ∧
              result = result'.mapError (Fault.renumber (p.size + ·))) ∧
        ((∀ result, ¬ x.EndsFrom config clock (initial config input) result) →
          ∀ result, ¬ z.EndsFrom config clock (initial config input) result) := by
  obtain ⟨b, hb⟩ := Block.balanced_iff_exists_flatten.1 hp
  obtain ⟨c, hc⟩ := Block.balanced_iff_exists_flatten.1 hq
  have hboth : (b.append c).flatten = (p ++ q).instructions := by
    rw [Block.flatten_append, hb, hc, Program.instructions_append]
  refine ⟨hboth ▸ Block.balanced_flatten _, _, _, _, ofProgram_of_flatten_eq hb,
    ofProgram_of_flatten_eq hc, ofProgram_of_flatten_eq hboth, fun k hk => ?_,
    fun k => (agreesAt_append_right hb k).target?_eq, fun config clock input => ⟨?_, ?_, ?_⟩⟩
  · have hsame := (agreesAt_append_left (q := q) (c := c) hb hk).target?_eq
    rwa [Option.map_id] at hsame
  · rintro fault ⟨n, hn⟩ result
    have hfails : EndsFrom ⟨p ++ q, (b.append c).loopTable⟩ config clock (initial config input)
        (.error fault) := ⟨n, advance_append_left hb hn nofun⟩
    exact hfails.iff_eq
  · intro m hm result
    have hseam : Reaches ⟨p ++ q, (b.append c).loopTable⟩ config clock (initial config input)
        (.running ⟨p.size, m⟩) := reaches_append_of_ok hb hm
    rw [hseam.endsFrom_iff, endsFrom_append_right hb]
  · intro hendless result hresult
    obtain ⟨n, hn⟩ := endsFrom_iff_reaches.1 hresult
    obtain ⟨s, hrun⟩ := exists_running_of_endless hendless n
    rw [advance_append_left hb hrun nofun] at hn
    exact Progress.ofResult_ne_running result s hn.symm

/-- `MoO MOO MOo moo` leaves a zero cell, so `MOO moo MOo` after it fails at its last token, which is the
seventh of all. -/
theorem endsFrom_append_iff_underflow :
    let p := Program.ofInstructions [.increment, .loopOpen, .decrement, .loopClose]
    let q := Program.ofInstructions [.loopOpen, .loopClose, .decrement]
    let config : Config := { tapeLen := 1 }
    Balanced p.instructions ∧ Balanced q.instructions ∧ ∃ z, ofProgram (p ++ q) = .ok z ∧
      z.EndsFrom config (fun _ => 0) (initial config "") (.error (.cellUnderflow 6 0)) := by
  intro p q config
  have hp : Balanced p.instructions := Block.balanced_flatten
    (.simple .increment rfl (.loop (.simple .decrement rfl .done) .done))
  have hq : Balanced q.instructions := Block.balanced_flatten
    (.loop .done (.simple .decrement rfl .done))
  obtain ⟨-, x, y, z, hx, hy, hz, -, -, hruns⟩ := endsFrom_append_iff p q hp hq
  have hx' : ofProgram p = .ok ⟨p, ⟨#[none, some 3, none, some 1], 1⟩⟩ := rfl
  have hy' : ofProgram q = .ok ⟨q, ⟨#[some 1, some 0, none], 1⟩⟩ := rfl
  cases hx'.symm.trans hx
  cases hy'.symm.trans hy
  have hfirst : EndsFrom ⟨p, ⟨#[none, some 3, none, some 1], 1⟩⟩ config (fun _ => 0)
      (initial config "") (.ok ⟨#[0], 0, #[], 0, "", none, 4⟩) := ⟨5, rfl⟩
  have hsecond : EndsFrom ⟨q, ⟨#[some 1, some 0, none], 1⟩⟩ config (fun _ => 0)
      ⟨0, ⟨#[0], 0, #[], 0, "", none, 4⟩⟩ (.error (.cellUnderflow 2 0)) := ⟨5, rfl⟩
  exact ⟨hp, hq, z, hz, ((hruns config (fun _ => 0) "").2.1 _ hfirst _).2 ⟨_, hsecond, rfl⟩⟩

end Executable

end CowLang
