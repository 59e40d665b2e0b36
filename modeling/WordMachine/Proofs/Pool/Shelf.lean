import Mathlib.Algebra.BigOperators.Group.Finset.Piecewise
import WordMachine.Proofs.Pool.Search
import WordMachine.Proofs.Store

/-!
# A pool is a finite map of stores

What can be seen of a pool is its capacity, whether it is volatile, and the store that is found
under each page id: a `Shelf`. What a call may do is said about shelves (`Shelf.Step`), where
chunks have neither an order nor a generator of ids. A pool does nothing else, as long as no two
of its chunks have one id and its generator moves (`Pool.Sound`), and every call keeps it so
(`Pool.Call.perform_refines`). So the pool that any calls make of a new one is a shelf that
the same calls, with the same answers, make of the empty one (`Pool.Sound.runs_of_calls`).
-/

namespace WordMachine

/-- What is seen of a pool: the stores found under page ids. -/
structure Shelf where
  capacity : Nat
  isVolatile : Bool
  stores : PageId → Option Store

namespace Shelf

open Pool (Call Answer Refusal)

/-- A shelf with nothing on it. -/
def empty (capacity : Nat) (isVolatile : Bool) : Shelf := ⟨capacity, isVolatile, fun _ => none⟩

/-- The bytes of a store that may be there. -/
def held (store? : Option Store) : Nat := (store?.map Store.size).getD 0

@[simp] theorem held_none : held none = 0 := rfl

@[simp] theorem held_some (store : Store) : held (some store) = store.size := rfl

/-- The bytes of all stores together. -/
def used (shelf : Shelf) : Nat := ∑ id, held (shelf.stores id)

def free (shelf : Shelf) : Nat := shelf.capacity - shelf.used

/-- Puts something else under one id, or nothing. -/
def place (shelf : Shelf) (id : PageId) (store? : Option Store) : Shelf :=
  { shelf with stores := Function.update shelf.stores id store? }

/-- Leaves zero bytes in every store, if the shelf is volatile. -/
def cycle (shelf : Shelf) : Shelf :=
  { shelf with
    stores := fun id => (shelf.stores id).map fun store =>
      if shelf.isVolatile then .zeros store.size else store }

/-- What a call may do to a shelf, and what comes of it. -/
inductive Step : Shelf → Call → Except Refusal Answer → Shelf → Prop where
  | granted {shelf : Shelf} {size : Nat} {id : PageId} :
      size ≤ shelf.free → shelf.stores id = none →
      Step shelf (.allocate size) (.ok (.granted id)) (shelf.place id (some (.zeros size)))
  | scarce {shelf : Shelf} {size : Nat} : shelf.free < size →
      Step shelf (.allocate size) (.error (.insufficientCapacity size shelf.free)) shelf
  | exhausted {shelf : Shelf} {size : Nat} :
      size ≤ shelf.free → (∀ id, shelf.stores id ≠ none) →
      Step shelf (.allocate size) (.error .pageIdsExhausted) shelf
  | released {shelf : Shelf} {id : PageId} {store : Store} : shelf.stores id = some store →
      Step shelf (.release id) (.ok .done) (shelf.place id none)
  | cycled {shelf : Shelf} : Step shelf .powerCycle (.ok .done) shelf.cycle
  | operated {shelf : Shelf} {id : PageId} {operation : Store.Operation} {store changed : Store}
      {reading : Store.Reading} :
      shelf.stores id = some store → operation.perform store = .ok reading changed →
      Step shelf (.operate id operation) (.ok (.operated reading))
        (shelf.place id (some changed))
  | faulted {shelf : Shelf} {id : PageId} {operation : Store.Operation} {store : Store}
      {fault : OutOfBounds} :
      shelf.stores id = some store → operation.perform store = .error fault store →
      Step shelf (.operate id operation) (.ok (.faulted fault)) shelf
  | unknown {shelf : Shelf} {made : Call} {id : PageId} :
      made.subject? = some id → shelf.stores id = none →
      Step shelf made (.error (.unknownChunk id)) shelf

/-- What one call after the other may do to a shelf, and what comes of them. -/
inductive Runs : Shelf → List Call → List (Except Refusal Answer) → Shelf → Prop where
  | none {shelf : Shelf} : Runs shelf [] [] shelf
  | step {shelf next final : Shelf} {made : Call} {answer : Except Refusal Answer}
      {calls : List Call} {answers : List (Except Refusal Answer)} :
      Step shelf made answer next → Runs next calls answers final →
      Runs shelf (made :: calls) (answer :: answers) final

variable {shelf next : Shelf} {made : Call} {answer : Except Refusal Answer}

theorem sum_update (bytes : PageId → Nat) (id : PageId) (size : Nat) :
    ∑ other, Function.update bytes id size other + bytes id = ∑ other, bytes other + size := by
  rw [Finset.sum_update_of_mem (Finset.mem_univ id),
    ← Finset.add_sum_erase Finset.univ bytes (Finset.mem_univ id), Finset.sdiff_singleton_eq_erase]
  omega

/-- What is put in place of something is what is used more. -/
theorem used_place (id : PageId) (store? : Option Store) :
    (shelf.place id store?).used + held (shelf.stores id) = shelf.used + held store? := by
  have placed : (shelf.place id store?).used =
      ∑ other, Function.update (held ∘ shelf.stores) id (held store?) other := by
    rw [← Function.comp_update]
    rfl
  rw [placed]
  exact sum_update (held ∘ shelf.stores) id (held store?)

theorem used_cycle : shelf.cycle.used = shelf.used := by
  apply Finset.sum_congr rfl
  intro id _
  rw [cycle, held, held, Option.map_map]
  congr 2
  funext store
  rw [Function.comp_apply]
  split
  · exact Store.size_zeros store.size
  · rfl

@[simp] theorem used_empty (capacity : Nat) (isVolatile : Bool) :
    (empty capacity isVolatile).used = 0 :=
  Finset.sum_eq_zero fun _ _ => rfl

/-- No step uses more than there is. -/
theorem Step.within (step : Step shelf made answer next) (within : shelf.used ≤ shelf.capacity) :
    next.used ≤ next.capacity := by
  cases step with
  | @granted size id room fresh =>
      have used := shelf.used_place id (some (.zeros size))
      rw [fresh, held_none, held_some, Store.size_zeros] at used
      rw [free] at room
      change _ ≤ shelf.capacity
      omega
  | scarce | exhausted | faulted | unknown => exact within
  | @released id store found =>
      have used := shelf.used_place id none
      rw [held_none] at used
      change _ ≤ shelf.capacity
      omega
  | cycled => exact used_cycle.trans_le within
  | @operated id operation store changed reading found performed =>
      have used := shelf.used_place id (some changed)
      rw [found, held_some, held_some, (operation.perform_contained store).of_ok performed] at used
      change _ ≤ shelf.capacity
      omega

theorem Step.setup_eq (step : Step shelf made answer next) :
    next.capacity = shelf.capacity ∧ next.isVolatile = shelf.isVolatile := by
  cases step <;> exact ⟨rfl, rfl⟩

theorem Runs.setup_eq {calls : List Call} {answers : List (Except Refusal Answer)}
    (runs : Runs shelf calls answers next) :
    next.capacity = shelf.capacity ∧ next.isVolatile = shelf.isVolatile := by
  induction runs with
  | none => exact ⟨rfl, rfl⟩
  | step step _ ih =>
      exact ⟨ih.1.trans step.setup_eq.1, ih.2.trans step.setup_eq.2⟩

theorem Runs.within {calls : List Call} {answers : List (Except Refusal Answer)}
    (runs : Runs shelf calls answers next) (within : shelf.used ≤ shelf.capacity) :
    next.used ≤ next.capacity := by
  induction runs with
  | none => exact within
  | step step _ ih => exact ih (step.within within)

/-- What is found under an id stays there unless a call is about it, or cuts the power. -/
theorem Step.frame (step : Step shelf made answer next) {id : PageId} {store : Store}
    (found : shelf.stores id = some store) (elsewhere : made.subject? ≠ some id)
    (powered : made ≠ .powerCycle) : next.stores id = some store := by
  cases step with
  | @granted size other room fresh =>
      have different : id ≠ other := by
        rintro rfl
        cases found.symm.trans fresh
      exact (Function.update_of_ne different _ _).trans found
  | scarce | exhausted | faulted | unknown => exact found
  | released | operated =>
      have different : id ≠ _ := fun same => elsewhere (congrArg some same.symm)
      exact (Function.update_of_ne different _ _).trans found
  | cycled => exact absurd rfl powered

end Shelf

namespace Pool

variable {pool : Pool}

/-- What is seen of a pool. -/
def shelf (pool : Pool) : Shelf := ⟨pool.capacity, pool.isVolatile, pool.store?⟩

/-- Whether no two chunks have one id, and the generator of ids moves. -/
structure Sound (pool : Pool) : Prop where
  distinct : pool.liveIds.Nodup
  moves : pool.ids.state ≠ 0

theorem sum_lookup {chunks : List Chunk} (distinct : (chunks.map Chunk.id).Nodup) :
    (chunks.map fun chunk => chunk.store.size).sum =
      ∑ id, Shelf.held (Chunk.lookup chunks id) := by
  induction chunks with
  | nil => exact (Finset.sum_eq_zero fun _ _ => rfl).symm
  | cons chunk chunks ih =>
      rw [List.map_cons, List.nodup_cons] at distinct
      have fresh := Chunk.lookup_eq_none_iff.mpr distinct.1
      have added : (fun id => Shelf.held (Chunk.lookup (chunk :: chunks) id)) =
          Function.update (fun id => Shelf.held (Chunk.lookup chunks id)) chunk.id
            chunk.store.size := by
        funext id
        rw [Chunk.lookup_cons, Function.update_apply]
        by_cases same : chunk.id = id
        · rw [if_pos same, if_pos same.symm, Shelf.held_some]
        · rw [if_neg same, if_neg (Ne.symm same)]
      have whole := Shelf.sum_update (fun id => Shelf.held (Chunk.lookup chunks id)) chunk.id
        chunk.store.size
      rw [fresh, Shelf.held_none, Nat.add_zero] at whole
      rw [List.map_cons, List.sum_cons, ih distinct.2, added, whole, Nat.add_comm]

/-- The sum over the row of chunks is the sum over the ids. -/
theorem used_eq (distinct : pool.liveIds.Nodup) : pool.used = pool.shelf.used := by
  have sum : pool.used = (pool.chunks.toList.map fun chunk => chunk.store.size).sum := by
    rw [used, ← Array.foldr_toList, List.sum_eq_foldr, List.foldr_map]
  rw [sum, sum_lookup distinct]
  apply Finset.sum_congr rfl
  intro id _
  rw [← store?_eq_lookup]
  rfl

theorem free_eq (distinct : pool.liveIds.Nodup) : pool.free = pool.shelf.free := by
  rw [free, used_eq distinct]
  rfl

theorem shelf_eq_place {final : Pool} {id : PageId} {store? : Option Store} {chunks : Array Chunk}
    {ids : PageIds} (same : final = { pool with chunks, ids })
    (stores : final.store? = Function.update pool.store? id store?) :
    final.shelf = pool.shelf.place id store? := by
  rw [shelf, stores, same]
  rfl

theorem shelf_powerCycle : pool.powerCycle.shelf = pool.shelf.cycle := by
  obtain ⟨chunks, same⟩ := pool.exists_powerCycle_eq
  have stores : pool.powerCycle.store? = pool.shelf.cycle.stores :=
    funext fun _ => store?_powerCycle
  rw [shelf, stores, same]
  rfl

theorem nodup_push {id : PageId} {store : Store} {ids : PageIds} (fresh : id ∉ pool.liveIds)
    (distinct : pool.liveIds.Nodup) :
    (liveIds { pool with chunks := pool.chunks.push ⟨id, store⟩, ids }).Nodup := by
  rw [liveIds, Array.toList_push, List.map_append, List.map_singleton, ← List.concat_eq_append]
  exact List.Nodup.concat fresh distinct

/-- A pool with as many chunks as there are ids has a chunk for each. -/
theorem store?_ne_none_of_exhausted (distinct : pool.liveIds.Nodup)
    (exhausted : pageIdCount ≤ pool.chunkCount) (id : PageId) : pool.store? id ≠ none := by
  intro missing
  have left : id ∉ pool.liveIds.toFinset :=
    mt List.mem_toFinset.mp (store?_eq_none_iff.mp missing)
  have fewer := Finset.card_lt_univ_of_notMem left
  rw [List.toFinset_card_of_nodup distinct, length_liveIds, card_pageId] at fewer
  exact absurd exhausted (Nat.not_le_of_lt fewer)

/-- A call does to a pool what it may do to a shelf, and leaves the ids distinct; a call that is
turned down leaves the pool as it was. -/
theorem Call.perform_refines (sound : pool.Sound) (made : Call) :
    Ends made.perform pool
      (fun answer final => Shelf.Step pool.shelf made (.ok answer) final.shelf ∧
        final.liveIds.Nodup)
      (fun refusal final => final = pool ∧
        Shelf.Step pool.shelf made (.error refusal) pool.shelf) := by
  cases made with
  | allocate size =>
      rw [perform, ends_map]
      apply (grant_ends size).mono
      · rintro id _ ⟨room, -, ids, found, rfl⟩
        have fresh := notMem_liveIds_of_search found
        refine ⟨?_, nodup_push fresh sound.distinct⟩
        rw [shelf_eq_place rfl (store?_push fresh)]
        exact .granted (room.trans_eq (free_eq sound.distinct)) (store?_eq_none_iff.mpr fresh)
      · rintro refusal final ⟨same, ⟨scarce, rfl⟩ | ⟨room, rfl, unfound⟩⟩
        · rw [free_eq sound.distinct] at scarce ⊢
          exact ⟨same, .scarce scarce⟩
        · have exhausted : pageIdCount ≤ pool.chunkCount := by
            by_contra few
            obtain ⟨_, _, _, found⟩ := exists_draws sound.moves (Nat.lt_of_not_le few)
            cases found.symm.trans (unfound (Nat.lt_of_not_le few))
          exact ⟨same, .exhausted (room.trans_eq (free_eq sound.distinct))
            (store?_ne_none_of_exhausted sound.distinct exhausted)⟩
  | release id =>
      rw [perform, ends_map]
      apply (reclaim_ends id).mono
      · rintro _ final ⟨⟨chunks, same⟩, live, removed⟩
        obtain ⟨distinct, stores⟩ := removed sound.distinct
        obtain ⟨store, found⟩ := Option.isSome_iff_exists.mp live
        refine ⟨?_, distinct⟩
        rw [shelf_eq_place same stores]
        exact .released found
      · rintro _ _ ⟨rfl, missing, rfl⟩
        exact ⟨rfl, .unknown rfl missing⟩
  | powerCycle =>
      rw [perform, ends_map, ends_modify, shelf_powerCycle, liveIds_powerCycle]
      exact ⟨.cycled, sound.distinct⟩
  | operate id operation =>
      rw [perform, ends_map]
      apply (onChunk_ends id operation.perform).mono
      · rintro _ _ ⟨store, changed, found, rfl, performed⟩
        obtain ⟨chunks, same⟩ := pool.exists_replace_eq id changed
        refine ⟨?_, by rw [liveIds_replace]; exact sound.distinct⟩
        rw [shelf_eq_place same (store?_replace found changed)]
        rcases performed with ⟨reading, performed, rfl⟩ | ⟨fault, failed, rfl⟩
        · exact .operated found performed
        · obtain rfl := (operation.perform_contained store).of_error failed
          have unchanged : pool.shelf.place id (some changed) = pool.shelf := by
            have stores : Function.update pool.store? id (some changed) = pool.store? := by
              rw [← found, Function.update_eq_self]
            rw [Shelf.place, shelf, stores]
          rw [unchanged]
          exact .faulted found failed
      · rintro _ _ ⟨rfl, missing, rfl⟩
        exact ⟨rfl, .unknown rfl missing⟩

theorem call_of_error {made : Call} {refusal : Refusal}
    (refused : (pool.call made).1 = .error refusal) : (pool.call made).2 = pool := by
  have ends : Ends made.perform pool _ _ := made.perform_ends
  rw [call] at refused ⊢
  cases outcome : made.perform pool with
  | ok answer final =>
      rw [outcome] at refused
      cases refused
  | error cause final => exact ends.of_error outcome

theorem Sound.call_steps (sound : pool.Sound) (made : Call) :
    Shelf.Step pool.shelf made (pool.call made).1 (pool.call made).2.shelf := by
  have ends : Ends made.perform pool _ _ := made.perform_refines sound
  rw [call]
  cases outcome : made.perform pool with
  | ok answer final => exact (ends.of_ok outcome).1
  | error refusal final =>
      obtain ⟨rfl, step⟩ := ends.of_error outcome
      exact step

theorem Sound.call (sound : pool.Sound) (made : Call) : (pool.call made).2.Sound := by
  have refines : Ends made.perform pool _ _ := made.perform_refines sound
  have draws : Ends made.perform pool _ _ := made.perform_ends
  rw [Pool.call]
  cases outcome : made.perform pool with
  | ok answer final =>
      obtain ⟨chunks, count, same⟩ := draws.of_ok outcome
      refine ⟨(refines.of_ok outcome).2, ?_⟩
      rw [same]
      exact PageIds.iterate_ne_zero sound.moves count
  | error refusal final =>
      rw [draws.of_error outcome]
      exact sound

theorem sound_ofSeed (capacity : Nat) (isVolatile : Bool) (seed : UInt32) :
    (ofSeed capacity isVolatile seed).Sound :=
  ⟨List.nodup_nil, PageIds.ofSeed_ne_zero seed⟩

/-- Whatever calls do to a pool, they may do to a shelf. -/
theorem Sound.runs_of_calls (sound : pool.Sound) (calls : List Call) :
    Shelf.Runs pool.shelf calls (answers calls pool) (after calls pool).shelf ∧
      (after calls pool).Sound := by
  induction calls generalizing pool with
  | nil => exact ⟨.none, sound⟩
  | cons made calls ih =>
      obtain ⟨runs, soundAfter⟩ := ih (sound.call made)
      exact ⟨.step (sound.call_steps made) runs, soundAfter⟩

/-- As long as an id is left, memory is handed out exactly if there is room for it. -/
theorem Sound.grants_iff (sound : pool.Sound) (few : pool.chunkCount < pageIdCount) (size : Nat) :
    (∃ id, (pool.call (.allocate size)).1 = .ok (.granted id)) ↔ size ≤ pool.free := by
  have step := sound.call_steps (.allocate size)
  rw [free_eq sound.distinct]
  generalize (pool.call (.allocate size)).2.shelf = next at step
  generalize (pool.call (.allocate size)).1 = answer at step ⊢
  cases step with
  | granted room fresh => exact iff_of_true ⟨_, rfl⟩ room
  | scarce scarce =>
      refine iff_of_false ?_ (Nat.not_le_of_lt scarce)
      rintro ⟨id, ⟨⟩⟩
  | exhausted room live =>
      obtain ⟨id, dead⟩ := exists_notMem_liveIds few
      exact absurd (store?_eq_none_iff.mpr dead) (live id)
  | unknown subject => cases subject

/-- A pool is a finite map of stores that share a capacity. After any calls of a new pool no two
chunks have one id, and the bytes of the chunks add up to what is used, which is no more than the
capacity. Any further call then changes the map as it may (`Shelf.Step`) and leaves alone what it
is not about; a call that is turned down leaves the pool as it was, with the generator of ids. -/
theorem pool_refines_shelf (capacity : Nat) (isVolatile : Bool) (seed : UInt32)
    (calls : List Call) :
    let fresh := ofSeed capacity isVolatile seed
    let pool := after calls fresh
    Shelf.Runs (.empty capacity isVolatile) calls (answers calls fresh) pool.shelf ∧
    pool.liveIds.Nodup ∧
    pool.used = ∑ id, Shelf.held (pool.store? id) ∧
    pool.used ≤ capacity ∧ pool.used + pool.free = capacity ∧
    (pool.chunkCount < pageIdCount → ∀ size,
      (∃ id, (pool.call (.allocate size)).1 = .ok (.granted id)) ↔
        size ≤ capacity - pool.used) ∧
    (∀ made, Shelf.Step pool.shelf made (pool.call made).1 (pool.call made).2.shelf) ∧
    (∀ made refusal, (pool.call made).1 = .error refusal → (pool.call made).2 = pool) ∧
    (isVolatile = false → pool.powerCycle = pool) ∧
    ∀ made id store, pool.store? id = some store → made.subject? ≠ some id →
      made ≠ .powerCycle → (pool.call made).2.store? id = some store := by
  intro fresh pool
  obtain ⟨runs, sound⟩ := (sound_ofSeed capacity isVolatile seed).runs_of_calls calls
  have sameCapacity : pool.capacity = capacity := runs.setup_eq.1
  have sameVolatility : pool.isVolatile = isVolatile := runs.setup_eq.2
  have sum : pool.used = pool.shelf.used := used_eq sound.distinct
  have empty : (Shelf.empty capacity isVolatile).used ≤ capacity := by
    rw [Shelf.used_empty]
    exact Nat.zero_le capacity
  have within : pool.used ≤ capacity := by
    rw [sum, ← sameCapacity]
    exact runs.within empty
  have left : pool.free = capacity - pool.used := by
    rw [free, sameCapacity]
  refine ⟨runs, sound.distinct, sum, within, ?_, ?_, sound.call_steps, ?_, ?_, ?_⟩
  · rw [left]
    exact Nat.add_sub_of_le within
  · intro few size
    rw [← left]
    exact sound.grants_iff few size
  · exact fun made refusal refused => call_of_error refused
  · intro durable
    rw [powerCycle, sameVolatility, durable]
    rfl
  · intro made id store found elsewhere powered
    exact (sound.call_steps made).frame found elsewhere powered

namespace TwoChunks

/-- Takes two chunks and writes to the first. -/
def calls : List Call := [.allocate 4, .allocate 6, .operate 173 (.writeWord 0xABCD)]

theorem room : (after calls (.ofSeed 16 false 42)).chunkCount < pageIdCount := by decide +kernel

theorem used : (after calls (.ofSeed 16 false 42)).used = 10 := by decide +kernel

theorem refused : ((after calls (.ofSeed 16 false 42)).call (.allocate 7)).1 =
    .error (.insufficientCapacity 7 6) := by
  decide +kernel

theorem written :
    (after calls (.ofSeed 16 false 42)).store? 173 = some ⟨#[0xCD, 0xAB, 0, 0], 2⟩ := by
  decide +kernel

end TwoChunks

/-- With ten of sixteen bytes used there is room for six more and not for seven, and what was
written to one chunk stays there when another is taken back. -/
theorem two_chunks_share_a_pool :
    let pool := after TwoChunks.calls (.ofSeed 16 false 42)
    (∃ id, (pool.call (.allocate 6)).1 = .ok (.granted id)) ∧
    (¬ ∃ id, (pool.call (.allocate 7)).1 = .ok (.granted id)) ∧
    (pool.call (.allocate 7)).2 = pool ∧ pool.powerCycle = pool ∧
    (pool.call (.release 43274)).2.store? 173 = some ⟨#[0xCD, 0xAB, 0, 0], 2⟩ := by
  intro pool
  obtain ⟨-, -, -, -, -, grants, -, refused, durable, frame⟩ :=
    pool_refines_shelf 16 false 42 TwoChunks.calls
  have sizes := grants TwoChunks.room
  rw [TwoChunks.used] at sizes
  exact ⟨(sizes 6).mpr (by decide), fun granted => absurd ((sizes 7).mp granted) (by decide),
    refused _ _ TwoChunks.refused, durable rfl,
    frame (.release 43274) 173 _ TwoChunks.written (by decide) (by decide)⟩

end Pool

end WordMachine
