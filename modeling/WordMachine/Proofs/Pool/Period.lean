import Mathlib.Data.List.Prime
import Mathlib.Data.Nat.Bitwise
import Mathlib.Dynamics.PeriodicPts.Lemmas
import Mathlib.Tactic.NormNum.Prime
import WordMachine.Pool

/-!
# The period of the page ids

A step of the generator is linear over single bits: what it makes of a state is the sum
without carry of what it makes of the bits that are set (`step_xor`). A linear map is given by
its columns, and a map that is taken many times by columns that are squared again and again,
so that a point far ahead on the orbit of a state can be computed (`BitMap.jump_eq`).

The orbit of the state one closes after `orbitLength` steps, and after no fewer: not after
`orbitLength / p` for any prime factor `p` (`minimalPeriod_one`). There are as many states
other than zero, so every one of them stands on that orbit, and each is reached from each
other (`exists_iterate_eq`).
-/

namespace WordMachine

namespace BitMap

/-- Adds up the columns of the bits that are set, the lowest bit first. -/
def apply : (columns : List Nat) → Nat → Nat
  | [], _ => 0
  | column :: columns, value => (value % 2 * column) ^^^ apply columns (value / 2)

/-- The columns of a map that is taken twice. -/
def square (columns : List Nat) : List Nat := columns.map (apply columns)

/-- The columns of a function on numbers of so many bits. -/
def ofFunction (function : Nat → Nat) (bits : Nat) : List Nat :=
  (List.range bits).map fun index => function (2 ^ index)

/-- Takes a map as often as each goal says, starting with the number the goal gives. -/
def jump : (bits : Nat) → (columns : List Nat) → (goals : List (Nat × Nat)) → List Nat
  | 0, _, goals => goals.map Prod.snd
  | bits + 1, columns, goals =>
    jump bits (square columns) (goals.map fun goal =>
      (goal.1 / 2, if goal.1 % 2 = 1 then apply columns goal.2 else goal.2))

variable {columns others : List Nat}

@[simp] theorem apply_zero : apply columns 0 = 0 := by
  induction columns with
  | nil => rfl
  | cons column columns ih => simp [apply, ih]

theorem apply_xor (first second : Nat) :
    apply columns (first ^^^ second) = apply columns first ^^^ apply columns second := by
  induction columns generalizing first second with
  | nil => simp [apply]
  | cons column columns ih =>
      have lowest : (first ^^^ second) % 2 * column =
          (first % 2 * column) ^^^ (second % 2 * column) := by
        rw [← Nat.pow_one 2, Nat.xor_mod_two_pow, Nat.pow_one]
        rcases Nat.mod_two_eq_zero_or_one first with even | odd
        · simp [even]
        · rcases Nat.mod_two_eq_zero_or_one second with evenToo | oddToo
          · simp [evenToo]
          · simp [odd, oddToo]
      rw [apply, apply, apply, lowest, Nat.xor_div_two, ih]
      ac_rfl

theorem apply_mod_two_mul (value column : Nat) :
    apply columns (value % 2 * column) = value % 2 * apply columns column := by
  rcases Nat.mod_two_eq_zero_or_one value with even | odd
  · rw [even, Nat.zero_mul, Nat.zero_mul, apply_zero]
  · rw [odd, Nat.one_mul, Nat.one_mul]

theorem apply_map (value : Nat) :
    apply (columns.map (apply others)) value = apply others (apply columns value) := by
  induction columns generalizing value with
  | nil => simp [apply]
  | cons column columns ih =>
      rw [List.map_cons, apply, apply, ih, apply_xor, apply_mod_two_mul]

theorem apply_square : apply (square columns) = (apply columns)^[2] := by
  funext value
  exact apply_map value

theorem jump_eq {bits : Nat} {goals : List (Nat × Nat)}
    (small : ∀ goal ∈ goals, goal.1 < 2 ^ bits) :
    jump bits columns goals = goals.map fun goal => (apply columns)^[goal.1] goal.2 := by
  induction bits generalizing columns goals with
  | zero =>
      rw [jump]
      apply List.map_congr_left
      intro goal member
      rw [Nat.lt_one_iff.mp (small goal member)]
      rfl
  | succ bits ih =>
      rw [jump, ih, List.map_map]
      · apply List.map_congr_left
        intro goal _
        have halves := Nat.div_add_mod goal.1 2
        rw [Function.comp_apply, apply_square, ← Function.iterate_mul]
        rcases Nat.mod_two_eq_zero_or_one goal.1 with even | odd
        · rw [even, Nat.add_zero] at halves
          rw [if_neg (by rw [even]; exact Nat.zero_ne_one), halves]
        · rw [odd] at halves
          rw [if_pos odd, ← Function.iterate_succ_apply, Nat.succ_eq_add_one, halves]
      · intro goal member
        obtain ⟨old, oldMember, rfl⟩ := List.mem_map.mp member
        exact Nat.div_lt_of_lt_mul (Nat.pow_succ' ▸ small old oldMember)

theorem two_mul_xor (first second : Nat) :
    2 * (first ^^^ second) = 2 * first ^^^ 2 * second := by
  have shifted := Nat.shiftLeft_xor_distrib (i := 1) (a := first) (b := second)
  simpa [Nat.shiftLeft_eq, Nat.mul_comm] using shifted

/-- The columns of a function that adds up bit by bit stand for it. -/
theorem apply_ofFunction {function : Nat → Nat} {bits value : Nat}
    (additive : ∀ first second, function (first ^^^ second) = function first ^^^ function second)
    (fits : value < 2 ^ bits) : apply (ofFunction function bits) value = function value := by
  have zero : function 0 = 0 := by simpa using additive 0 0
  induction bits generalizing function value with
  | zero => rw [Nat.lt_one_iff.mp fits, apply_zero, zero]
  | succ bits ih =>
      have columns : ofFunction function (bits + 1) =
          function 1 :: ofFunction (fun rest => function (2 * rest)) bits := by
        simp [ofFunction, List.range_succ_eq_map, Nat.pow_succ', Function.comp_def]
      have parts : value % 2 ^^^ 2 * (value / 2) = value := by
        apply Nat.eq_of_testBit_eq
        intro index
        cases index with
        | zero => simp
        | succ index => simp [Nat.testBit_succ, Nat.xor_div_two]
      have lowest : value % 2 * function 1 = function (value % 2) := by
        rcases Nat.mod_two_eq_zero_or_one value with even | odd
        · rw [even, Nat.zero_mul, zero]
        · rw [odd, Nat.one_mul]
      rw [columns, apply, ih, lowest, ← additive, parts]
      · intro first second
        rw [two_mul_xor, additive]
      · exact Nat.div_lt_of_lt_mul (Nat.pow_succ' ▸ fits)
      · exact zero

end BitMap

namespace PageIds

/-- The state as a number. -/
def number (ids : PageIds) : Nat := ids.state.toNat

theorem number_injective : Function.Injective number := by
  intro first second same
  exact congrArg PageIds.mk (UInt32.toNat_inj.mp same)

theorem xor_shiftLeft_xor (first second places : UInt32) :
    (first ^^^ second) ^^^ ((first ^^^ second) <<< places) =
      (first ^^^ (first <<< places)) ^^^ (second ^^^ (second <<< places)) := by
  rw [UInt32.shiftLeft_xor]
  ac_rfl

theorem xor_shiftRight_xor (first second places : UInt32) :
    (first ^^^ second) ^^^ ((first ^^^ second) >>> places) =
      (first ^^^ (first >>> places)) ^^^ (second ^^^ (second >>> places)) := by
  rw [UInt32.shiftRight_xor]
  ac_rfl

/-- A state adds up bit by bit in a step. -/
theorem step_xor (first second : UInt32) :
    (step ⟨first ^^^ second⟩).state = (step ⟨first⟩).state ^^^ (step ⟨second⟩).state := by
  simp only [step, xor_shiftLeft_xor, xor_shiftRight_xor]

/-- What a step makes of every single bit. -/
def columns : List Nat := BitMap.ofFunction (fun value => (step ⟨.ofNat value⟩).number) 32

theorem apply_columns (ids : PageIds) : BitMap.apply columns ids.number = ids.step.number := by
  rw [columns, BitMap.apply_ofFunction]
  · rw [show (⟨.ofNat ids.number⟩ : PageIds) = ids by rw [number, UInt32.ofNat_toNat]]
  · intro first second
    rw [number, number, number, ← UInt32.toNat_xor, ← step_xor, UInt32.ofNat_xor]
  · exact ids.state.toNat_lt

theorem apply_columns_iterate (count : Nat) (ids : PageIds) :
    (BitMap.apply columns)^[count] ids.number = (step^[count] ids).number :=
  have follows : Function.Semiconj number step (BitMap.apply columns) :=
    fun ids => (apply_columns ids).symm
  (follows.iterate_right count ids).symm

/-- The number of states other than zero. -/
def orbitLength : Nat := period - 1

/-- The prime factors of `orbitLength`. -/
def orbitFactors : List Nat := [3, 5, 17, 257, 65537]

theorem prod_orbitFactors : orbitFactors.prod = orbitLength := rfl

theorem prime_of_mem_orbitFactors {factor : Nat} (member : factor ∈ orbitFactors) :
    factor.Prime := by
  simp only [orbitFactors, List.mem_cons, List.not_mem_nil, or_false] at member
  rcases member with rfl | rfl | rfl | rfl | rfl <;> norm_num

/-- Where the orbit of the state one is looked at: where it is to close, and where it would
have closed if it were shorter. -/
def checkpoints : List (Nat × Nat) :=
  (orbitLength, 1) :: orbitFactors.map fun factor => (orbitLength / factor, 1)

theorem jump_checkpoints : BitMap.jump 32 columns checkpoints =
    [1, 3335786257, 299503798, 914354430, 4155664621, 1691782510] := by
  decide +kernel

/-- The orbit of the state one closes, and not at a divisor of its length. -/
theorem one_returns :
    (step^[orbitLength] ⟨1⟩ = ⟨1⟩) ∧
      ∀ factor ∈ orbitFactors, step^[orbitLength / factor] ⟨1⟩ ≠ ⟨1⟩ := by
  have small : ∀ goal ∈ checkpoints, goal.1 < 2 ^ 32 := by decide
  have jumps := (BitMap.jump_eq small).symm.trans jump_checkpoints
  rw [checkpoints, List.map_cons, List.map_map, List.cons.injEq] at jumps
  obtain ⟨closes, others⟩ := jumps
  constructor
  · apply number_injective
    rw [← apply_columns_iterate]
    exact closes
  · intro factor member returned
    have here : (1 : Nat) ∈ [3335786257, 299503798, 914354430, 4155664621, 1691782510] := by
      rw [← others]
      refine List.mem_map.mpr ⟨factor, member, ?_⟩
      rw [Function.comp_apply]
      exact (apply_columns_iterate _ ⟨1⟩).trans (congrArg number returned)
    simp at here

theorem minimalPeriod_one : Function.minimalPeriod step ⟨1⟩ = orbitLength := by
  obtain ⟨returns, early⟩ := one_returns
  have divides : Function.minimalPeriod step ⟨1⟩ ∣ orbitLength :=
    Function.IsPeriodicPt.minimalPeriod_dvd returns
  obtain ⟨count, whole⟩ := divides
  by_contra shorter
  have several : count ≠ 1 := by
    rintro rfl
    exact shorter (by rw [whole, Nat.mul_one])
  obtain ⟨factor, prime, rest, rfl⟩ := Nat.exists_prime_and_dvd several
  have member : factor ∈ orbitFactors := by
    apply mem_list_primes_of_dvd_prod prime.prime
    · exact fun other member => (prime_of_mem_orbitFactors member).prime
    · rw [prod_orbitFactors, whole]
      exact dvd_mul_of_dvd_right (dvd_mul_right factor rest) _
  have multiple : orbitLength / factor = Function.minimalPeriod step ⟨1⟩ * rest := by
    rw [whole, Nat.mul_left_comm, Nat.mul_div_cancel_left _ prime.pos]
  apply early factor member
  rw [multiple]
  exact (Function.isPeriodicPt_minimalPeriod step ⟨1⟩).mul_const rest

theorem iterate_one_ne_zero (count : Nat) : (step^[count] ⟨1⟩).state ≠ 0 := by
  intro zero
  have periodic : (⟨1⟩ : PageIds) ∈ Function.periodicPts step :=
    ⟨orbitLength, by decide, one_returns.1⟩
  have same := Function.minimalPeriod_apply_iterate periodic count
  have fixed : Function.minimalPeriod step (⟨0⟩ : PageIds) = 1 :=
    Function.minimalPeriod_eq_one_iff_isFixedPt.mpr rfl
  rw [show step^[count] ⟨1⟩ = ⟨0⟩ from congrArg PageIds.mk zero, fixed, minimalPeriod_one] at same
  exact absurd same (by decide)

/-- Every state other than zero stands on the orbit of the state one: there is no more room
on it. -/
theorem exists_iterate_one {ids : PageIds} (nonzero : ids.state ≠ 0) :
    ∃ count < orbitLength, step^[count] ⟨1⟩ = ids := by
  have positive {other : PageIds} (nonzero : other.state ≠ 0) :
      other.number ∈ Finset.Ico 1 period := by
    rw [Finset.mem_Ico]
    refine ⟨Nat.pos_of_ne_zero ?_, other.state.toNat_lt⟩
    intro zero
    exact nonzero (UInt32.toNat_inj.mp zero)
  have inside : Set.MapsTo (fun count => (step^[count] ⟨1⟩).number)
      (Finset.range orbitLength : Set Nat) (Finset.Ico 1 period : Set Nat) :=
    fun count _ => positive (iterate_one_ne_zero count)
  have distinct : Set.InjOn (fun count => (step^[count] ⟨1⟩).number)
      (Finset.range orbitLength : Set Nat) := by
    intro first firstBound second secondBound same
    rw [Finset.coe_range, ← minimalPeriod_one] at firstBound secondBound
    exact Function.iterate_injOn_Iio_minimalPeriod firstBound secondBound (number_injective same)
  have room : (Finset.Ico 1 period).card ≤ (Finset.range orbitLength).card := by
    rw [Nat.card_Ico, Finset.card_range, orbitLength]
  obtain ⟨count, bound, same⟩ :=
    Finset.surjOn_of_injOn_of_card_le _ inside distinct room (positive nonzero)
  rw [Finset.coe_range] at bound
  exact ⟨count, bound, number_injective same⟩

theorem iterate_ne_zero {ids : PageIds} (nonzero : ids.state ≠ 0) (count : Nat) :
    (step^[count] ids).state ≠ 0 := by
  obtain ⟨before, -, rfl⟩ := exists_iterate_one nonzero
  rw [← Function.iterate_add_apply]
  exact iterate_one_ne_zero (count + before)

/-- Every state other than zero is reached from every other, and from itself. -/
theorem exists_iterate_eq {ids target : PageIds} (nonzero : ids.state ≠ 0)
    (targetNonzero : target.state ≠ 0) :
    ∃ count, 0 < count ∧ count ≤ orbitLength ∧ step^[count] ids = target := by
  obtain ⟨start, startBound, rfl⟩ := exists_iterate_one nonzero
  obtain ⟨stop, stopBound, rfl⟩ := exists_iterate_one targetNonzero
  by_cases later : start < stop
  · refine ⟨stop - start, by omega, by omega, ?_⟩
    rw [← Function.iterate_add_apply, Nat.sub_add_cancel (Nat.le_of_lt later)]
  · refine ⟨stop + orbitLength - start, by omega, by omega, ?_⟩
    rw [← Function.iterate_add_apply, Nat.sub_add_cancel (by omega), Function.iterate_add_apply,
      one_returns.1]

end PageIds

end WordMachine
