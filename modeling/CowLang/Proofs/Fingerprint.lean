import CowLang.Fingerprint
import CowLang.Proofs.Checksum
import Mathlib.Algebra.BigOperators.Group.Finset.Basic
/-!
# The colour of a card

A card is given the colour of the text that its title and its description make together.  The checksum
of a text always ends, long before the bound on its steps, and prints one character below 256.  So every
card has a fingerprint of its own, and the default one is never needed; the hue is the sum itself, and the
last of the six faces is never seen.

Main statements: `Checksum.exists_sum_eq` (the sum, written out), `Fingerprint.ofText_eq` (every text has a
fingerprint) and `Fingerprint.ofCard_determined_by_text` (what the colour of a card is).
-/

namespace CowLang

/-! ## The sum of the values up to a zero -/

namespace Checksum

/-- A list of values up to the first zero, or to its end, by index. -/
theorem exists_sum_takeWhile_eq (values : List Nat) :
    ∃ k, (∀ i, i < k → values.getD i 0 ≠ 0) ∧ values.getD k 0 = 0 ∧
      (values.takeWhile (· ≠ 0)).sum = ∑ i ∈ Finset.range k, values.getD i 0 := by
  induction values with
  | nil => exact ⟨0, by simp, rfl, rfl⟩
  | cons v values ih =>
      obtain ⟨k, hnonzero, hzero, hsum⟩ := ih
      by_cases hv : v = 0
      · exact ⟨0, by simp, hv, by simp [hv]⟩
      · refine ⟨k + 1, fun i hi => ?_, hzero, ?_⟩
        · cases i with
          | zero => exact hv
          | succ i => exact hnonzero i (Nat.lt_of_succ_lt_succ hi)
        · rw [List.takeWhile_cons_of_pos (by simpa using hv), List.sum_cons, hsum,
            Finset.sum_range_succ', Nat.add_comm]
          rfl

/-- The sum takes in the first value and the non-zero ones that come directly after it. -/
theorem exists_sum_eq (input : String) :
    ∃ k, (∀ i, 1 ≤ i → i ≤ k → inputValue input i ≠ 0) ∧ inputValue input (k + 1) = 0 ∧
      sum input = (∑ i ∈ Finset.range (k + 1), inputValue input i) % 256 := by
  have htail (i : Nat) : (input.toList.map cellValue).tail.getD i 0 = inputValue input (i + 1) := by
    rw [inputValue]
    cases input.toList.map cellValue <;> rfl
  have hhead : (input.toList.map cellValue).headD 0 = inputValue input 0 := by
    rw [inputValue]
    cases input.toList.map cellValue <;> rfl
  obtain ⟨k, hnonzero, hzero, hsum⟩ :=
    exists_sum_takeWhile_eq (input.toList.map cellValue).tail
  simp only [htail] at hnonzero hzero hsum
  refine ⟨k, fun i hone hi => ?_, hzero, ?_⟩
  · obtain ⟨i, rfl⟩ := Nat.exists_eq_add_of_le' hone
    exact hnonzero i hi
  · rw [sum, addends, hhead, hsum, Finset.sum_range_succ', Nat.add_comm]

/-- The sum of a single byte is that byte. -/
theorem sum_singleton {byte : Nat} (h : byte < 256) :
    sum (String.singleton (Char.ofNat byte)) = byte := by
  have hvalue : cellValue (Char.ofNat byte) = byte := by
    rw [cellValue, toNat_ofNat_byte h, Nat.mod_eq_of_lt h]
  rw [sum, addends, String.toList_singleton]
  simp [hvalue, Nat.mod_eq_of_lt h]

/-- Without a budget and a timeout, the program ends with the sum printed. -/
theorem endsFrom_final {x : Executable} {config : Config} {clock : Clock} {input : String}
    (hx : Executable.ofSource Bundled.checksum.source = .ok x) (hmax : config.maxSteps = none)
    (hover : config.overflowPolicy = .wrap) (hlen : 3 ≤ config.tapeLen)
    (htimeout : config.timeout = none) :
    x.EndsFrom config clock (Executable.initial config input)
      (.ok (final config.tapeLen input)) :=
  (Executable.endsFrom_iff hx flatten_block htimeout).2 (structured hmax hover hlen)

/-- Adding up a byte takes at most 1278 steps. -/
theorem addingSteps_le {values : List Nat} (h : ∀ v ∈ values, v < 256) :
    addingSteps values ≤ 1278 * values.length := by
  induction values with
  | nil => exact Nat.le_refl 0
  | cons v values ih =>
      have hv : v < 256 := h v List.mem_cons_self
      have hrest := ih fun u hu => h u (List.mem_cons_of_mem v hu)
      rw [addingSteps_cons, List.length_cons]
      omega

theorem addends_lt {input : String} : ∀ v ∈ addends input, v < 256 := by
  intro v hv
  have hmem : v ∈ input.toList.map cellValue :=
    List.mem_of_mem_tail ((List.takeWhile_prefix _).subset hv)
  obtain ⟨c, -, rfl⟩ := List.mem_map.1 hmem
  exact cellValue_lt c

theorem length_addends_le (input : String) : (addends input).length ≤ input.length := by
  have htake : (addends input).length ≤ (input.toList.map cellValue).tail.length :=
    (List.takeWhile_prefix _).length_le
  rw [List.length_tail, List.length_map, String.length_toList] at htake
  omega

end Checksum

/-! ## Fingerprints -/

namespace Fingerprint

/-- The tape is long enough for the checksum. -/
theorem three_le_tapeLen : 3 ≤ config.tapeLen := by
  show 3 ≤ 30000
  omega

/-- The bound on the steps is never reached. -/
theorem steps_lt_checksumSteps (text : String) : Checksum.steps text < checksumSteps text := by
  have hsteps : Checksum.steps text = 8 + addingSteps (Checksum.addends text) := rfl
  have hadding := Checksum.addingSteps_le (@Checksum.addends_lt text)
  have hlength := Checksum.length_addends_le text
  rw [hsteps, checksumSteps]
  omega

theorem checksum_eq_ok {text : String} {x : Executable} {m : Machine}
    (hx : Executable.ofSource Bundled.checksum.source = .ok x)
    (hrun : x.advance config (fun _ => 0) (checksumSteps text) (Executable.initial config text) =
      .finished m) : checksum text = .ok m.output := by
  -- Unfolded together with its argument, the definition would be checked by reading the source.
  conv => lhs; fun; delta checksum
  rw [hx]
  dsimp only
  rw [hrun]

theorem checksum_eq (text : String) :
    checksum text = .ok (String.singleton (Char.ofNat (Checksum.sum text))) := by
  obtain ⟨x, hx⟩ := Executable.exists_ofProgram_eq_ok Checksum.flatten_block
  have hends : x.EndsFrom config (fun _ => 0) (Executable.initial config text)
      (.ok (Checksum.final config.tapeLen text)) :=
    Checksum.endsFrom_final hx rfl rfl three_le_tapeLen rfl
  have hrun := Executable.advance_eq_finished hends
    (Nat.lt_of_lt_of_le (steps_lt_checksumSteps text) (Nat.le_add_left _ _))
  rw [checksum_eq_ok hx hrun]
  rfl

theorem ofOutput?_singleton {byte : Nat} (h : byte < 256) :
    ofOutput? (String.singleton (Char.ofNat byte)) = some (ofCodePoint byte) := by
  rw [ofOutput?, String.toList_singleton]
  simp only [toNat_ofNat_byte h]

/-- Every text has a fingerprint. -/
theorem ofText_eq (text : String) : ofText text = .ok (some (ofCodePoint (Checksum.sum text))) := by
  rw [ofText, checksum_eq, Except.map, ofOutput?_singleton (Checksum.sum_lt text)]

/-- The default fingerprint is never needed. -/
theorem ofCard_eq (title description : String) :
    ofCard title description = ofCodePoint (Checksum.sum (title ++ description)) := by
  conv => lhs; fun; fun; delta ofCard
  rw [ofText_eq]

example : ofCard "Buy" " milk" = ⟨253, 253, 4⟩ := by
  rw [ofCard_eq]
  decide +kernel

section Byte

variable {byte : Nat} (h : byte < 256)

include h

/-- A byte is an angle of less than the full circle. -/
theorem hue_ofCodePoint : (ofCodePoint byte).hue = byte :=
  Nat.mod_eq_of_lt (h.trans (by decide))

theorem face_ofCodePoint : (ofCodePoint byte).face = byte / 60 := by
  show byte % 360 / 60 = byte / 60
  rw [Nat.mod_eq_of_lt (h.trans (by decide))]

end Byte

theorem shades_eq :
    " " ++ toString saturation ++ "% " ++ toString lightness ++ "%)" = " 90% 85%)" := by
  decide

theorem css_eq_append (f : Fingerprint) :
    f.css = "hsl(" ++ toString f.hue ++
      (" " ++ toString saturation ++ "% " ++ toString lightness ++ "%)") := by
  simp only [css, String.append_assoc, toString]

/-- All colours are equally saturated and equally light. -/
theorem css_eq (f : Fingerprint) : f.css = "hsl(" ++ toString f.hue ++ " 90% 85%)" := by
  rw [css_eq_append, shades_eq]

/-- The checksum runs under a configuration that can be used, and ends on every text.  The colour of a card
is that of its title and description taken together: the sum of the first value and of the non-zero values
directly after it is the hue, in one of the first five faces.  Every byte is the colour of some card. -/
theorem ofCard_determined_by_text :
    config.validate = .ok config ∧
    ∃ x, Executable.ofSource Bundled.checksum.source = .ok x ∧
      (∀ title description : String,
        ∃ k, (∀ i, 1 ≤ i → i ≤ k → inputValue (title ++ description) i ≠ 0) ∧
          inputValue (title ++ description) (k + 1) = 0 ∧
          ∃ fp : Fingerprint,
            (∀ clock, ∃ m,
              x.EndsFrom config clock (Executable.initial config (title ++ description)) (.ok m) ∧
                ofOutput? m.output = some fp) ∧
            ofText (title ++ description) = .ok (some fp) ∧ ofCard title description = fp ∧
            fp.byte = (∑ i ∈ Finset.range (k + 1), inputValue (title ++ description) i) % 256 ∧
            fp.hue = fp.byte ∧ fp.face = fp.byte / 60 ∧ fp.face ≤ 4 ∧
            fp.css = "hsl(" ++ toString fp.byte ++ " 90% 85%)") ∧
      ∀ byte : Fin 256, ∃ title description : String, (ofCard title description).byte = byte := by
  obtain ⟨x, hx⟩ := Executable.exists_ofProgram_eq_ok Checksum.flatten_block
  refine ⟨rfl, x, hx, fun title description => ?_, fun byte => ?_⟩
  · have hbyte := Checksum.sum_lt (title ++ description)
    obtain ⟨k, hnonzero, hzero, hsum⟩ := Checksum.exists_sum_eq (title ++ description)
    refine ⟨k, hnonzero, hzero, ofCodePoint (Checksum.sum (title ++ description)), fun clock => ?_,
      ofText_eq _, ofCard_eq title description, hsum, hue_ofCodePoint hbyte,
      face_ofCodePoint hbyte, ?_, ?_⟩
    · exact ⟨_, Checksum.endsFrom_final hx rfl rfl three_le_tapeLen rfl, ofOutput?_singleton hbyte⟩
    · rw [face_ofCodePoint hbyte]
      omega
    · rw [css_eq, hue_ofCodePoint hbyte]
      rfl
  · refine ⟨String.singleton (Char.ofNat byte), "", ?_⟩
    rw [ofCard_eq, String.append_empty, Checksum.sum_singleton byte.isLt]
    rfl

end Fingerprint

end CowLang
