import Mathlib.Data.FinEnum
import WordMachine.Pool
import WordMachine.Proofs.Execution.Cycles
import WordMachine.Proofs.Pool
import WordMachine.Proofs.Pool.Period

/-!
# The search for a page id ends

Ids are drawn until one is not in use, however often that may be (`PageIds.Draws`). Every id
is offered again within one orbit of the generator (`PageIds.exists_offered`), so the draws
stop as long as one id is left (`PageIds.exists_draws`), and the limit that a search is given
is never what stops it (`PageIds.search_of_draws`). The generator of a pool never comes to the
state that stands still (`Pool.Reached.ids_ne_zero`).
-/

namespace WordMachine

namespace PageIds

variable {inUse : PageId → Bool} {ids final : PageIds} {count limit : Nat}

/-- Draws ids until one is not in use, with no limit on the number of draws. -/
inductive Draws (inUse : PageId → Bool) : (start : PageIds) → (count : Nat) →
    (final : PageIds) → Prop where
  | last {ids : PageIds} : inUse ids.step.offered = false → Draws inUse ids 1 ids.step
  | again {ids final : PageIds} {count : Nat} : inUse ids.step.offered = true →
      Draws inUse ids.step count final → Draws inUse ids (count + 1) final

/-- A search that may draw often enough stops where the draws stop. -/
theorem search_of_draws (draws : Draws inUse ids count final) (within : count ≤ limit) :
    search inUse limit ids = some (final.offered, final) := by
  induction draws generalizing limit with
  | last free =>
      obtain ⟨limit, rfl⟩ := Nat.exists_eq_add_of_le' within
      rw [search, if_neg (by rw [free]; exact Bool.false_ne_true)]
  | again taken _ ih =>
      obtain ⟨limit, rfl⟩ := Nat.exists_eq_add_of_le' (Nat.le_of_add_left_le within)
      rw [search, if_pos taken]
      exact ih (Nat.le_of_succ_le_succ within)

theorem draws_of_search {id : PageId} (found : search inUse limit ids = some (id, final)) :
    ∃ count, Draws inUse ids count final := by
  induction limit generalizing ids with
  | zero => cases found
  | succ limit ih =>
      rw [search] at found
      split at found
      next taken =>
        obtain ⟨count, draws⟩ := ih found
        exact ⟨count + 1, .again taken draws⟩
      next free =>
        cases found
        exact ⟨1, .last (Bool.not_eq_true _ ▸ free)⟩

/-- The draws stop no later than at an id that is not in use. -/
theorem exists_draws (positive : 0 < count) (free : inUse (step^[count] ids).offered = false) :
    ∃ sooner ≤ count, ∃ final, Draws inUse ids sooner final := by
  induction count generalizing ids with
  | zero => cases positive
  | succ count ih =>
      cases taken : inUse ids.step.offered with
      | false => exact ⟨1, by omega, ids.step, .last taken⟩
      | true =>
          have further : 0 < count := by
            apply Nat.pos_of_ne_zero
            rintro rfl
            rw [Function.iterate_one, taken] at free
            cases free
          obtain ⟨sooner, within, final, draws⟩ := ih further free
          exact ⟨sooner + 1, by omega, final, .again taken draws⟩

theorem Draws.eq_iterate (draws : Draws inUse ids count final) : final = step^[count] ids := by
  induction draws with
  | last => rfl
  | again _ _ ih => exact ih

/-- A state that offers an id. -/
def offering (id : PageId) : PageIds := ⟨.ofNat (id.toNat * 0x10000 + 1)⟩

theorem number_offering (id : PageId) : (offering id).number = id.toNat * 0x10000 + 1 := by
  have bound := id.toNat_lt
  rw [number, offering, UInt32.toNat_ofNat']
  omega

theorem offered_offering (id : PageId) : (offering id).offered = id := by
  have same := number_offering id
  have bound := id.toNat_lt
  apply UInt16.toNat_inj.mp
  rw [number] at same
  rw [offered, UInt32.toNat_toUInt16, UInt32.toNat_shiftRight, same]
  change (id.toNat * 0x10000 + 1) >>> 16 % 2 ^ 16 = id.toNat
  rw [Nat.shiftRight_eq_div_pow]
  omega

theorem offering_ne_zero (id : PageId) : (offering id).state ≠ 0 := by
  intro zero
  have same := number_offering id
  rw [number, zero, UInt32.toNat_zero] at same
  exact Nat.succ_ne_zero _ same.symm

/-- Every id is offered again within one orbit. -/
theorem exists_offered (nonzero : ids.state ≠ 0) (id : PageId) :
    ∃ count, 0 < count ∧ count ≤ orbitLength ∧ (step^[count] ids).offered = id := by
  obtain ⟨count, positive, within, same⟩ := exists_iterate_eq nonzero (offering_ne_zero id)
  exact ⟨count, positive, within, by rw [same, offered_offering]⟩

theorem ofSeed_ne_zero (seed : UInt32) : (ofSeed seed).state ≠ 0 := by
  rw [ofSeed]
  split
  next => decide
  next nonzero => exact nonzero

end PageIds

namespace Pool

variable {pool final : Pool}

theorem card_pageId : Fintype.card PageId = pageIdCount := by
  rw [← FinEnum.card_eq_fintypeCard]
  rfl

/-- Fewer ids than there are leave one out. -/
theorem exists_notMem {live : Finset PageId} (few : live.card < pageIdCount) :
    ∃ id, id ∉ live := by
  by_contra none
  have all : live = Finset.univ :=
    Finset.eq_univ_iff_forall.mpr fun id => by_contra fun left => none ⟨id, left⟩
  rw [all, Finset.card_univ, card_pageId] at few
  exact Nat.lt_irrefl _ few

theorem exists_notMem_liveIds (few : pool.chunkCount < pageIdCount) :
    ∃ id, id ∉ pool.liveIds := by
  have fewLive : pool.liveIds.toFinset.card < pageIdCount :=
    Nat.lt_of_le_of_lt (List.toFinset_card_le _) (by rwa [length_liveIds])
  obtain ⟨id, dead⟩ := exists_notMem fewLive
  exact ⟨id, fun live => dead (List.mem_toFinset.mpr live)⟩

/-- A call changes the chunks, and draws from the generator or leaves it alone. -/
theorem Call.perform_ends (call : Call) :
    Ends call.perform pool
      (fun _ final => ∃ chunks draws,
        final = { pool with chunks, ids := PageIds.step^[draws] pool.ids })
      (fun _ final => final = pool) := by
  cases call with
  | allocate size =>
      rw [perform, ends_map]
      apply (grant_ends size).mono
      · rintro id _ ⟨-, -, ids, found, rfl⟩
        obtain ⟨count, draws⟩ := PageIds.draws_of_search found
        exact ⟨_, count, by rw [draws.eq_iterate]⟩
      · exact fun _ _ refused => refused.1
  | release id =>
      rw [perform, ends_map]
      apply (reclaim_ends id).mono
      · rintro _ _ ⟨⟨chunks, rfl⟩, -⟩
        exact ⟨chunks, 0, rfl⟩
      · exact fun _ _ refused => refused.2.2
  | powerCycle =>
      rw [perform, ends_map, ends_modify]
      obtain ⟨chunks, same⟩ := pool.exists_powerCycle_eq
      exact ⟨chunks, 0, same⟩
  | operate id operation =>
      rw [perform, ends_map]
      apply (onChunk_ends id operation.perform).mono
      · rintro _ _ ⟨store, changed, -, rfl, -⟩
        obtain ⟨chunks, same⟩ := pool.exists_replace_eq id changed
        exact ⟨chunks, 0, same⟩
      · exact fun _ _ refused => refused.2.2

/-- The pools there can be. -/
inductive Reached : Pool → Prop where
  | new (capacity : Nat) (isVolatile : Bool) (seed : UInt32) :
      Reached (.ofSeed capacity isVolatile seed)
  | called {pool : Pool} (reached : Reached pool) (made : Call) : Reached (pool.call made).2
  | ran {pool : Pool} {machine : Machine} {image : Image} {patience : Nat} {run : Run}
      (reached : Reached pool) (ran : machine.run patience image pool = some run) :
      Reached run.pool

/-- The generator of a pool never stands still. -/
theorem Reached.ids_ne_zero (reached : pool.Reached) : pool.ids.state ≠ 0 := by
  induction reached with
  | new _ _ seed => exact PageIds.ofSeed_ne_zero seed
  | @called pool _ made ih =>
      have ends : Ends made.perform pool _ _ := made.perform_ends
      rw [call]
      cases outcome : made.perform pool with
      | ok answer final =>
          obtain ⟨chunks, draws, rfl⟩ := ends.of_ok outcome
          exact PageIds.iterate_ne_zero ih draws
      | error refusal final =>
          rw [ends.of_error outcome]
          exact ih
  | ran _ ran ih =>
      rcases Machine.run_refuses_or_concludes ran with ⟨fault, rfl, -⟩ |
        ⟨header, segment, granted, outcome, final, -, allocated, rfl, -⟩
      · exact ih
      · obtain ⟨-, -, ids, found, rfl⟩ := (grant_ends _).of_ok (allocate_eq_ok_iff.mp allocated)
        obtain ⟨count, draws⟩ := PageIds.draws_of_search found
        obtain ⟨chunks, same⟩ := exists_replace_eq _ segment final.data
        rw [Machine.conclude, same, draws.eq_iterate]
        exact PageIds.iterate_ne_zero ih count

/-- Draws from a generator that moves stop as long as there are fewer chunks than ids, and a
search finds what they stop at. -/
theorem exists_draws (moves : pool.ids.state ≠ 0) (few : pool.chunkCount < pageIdCount) :
    ∃ count final, PageIds.Draws pool.isLive pool.ids count final ∧
      PageIds.search pool.isLive PageIds.period pool.ids = some (final.offered, final) := by
  obtain ⟨id, dead⟩ := exists_notMem_liveIds few
  obtain ⟨count, positive, within, offered⟩ := PageIds.exists_offered moves id
  rw [← isLive_iff, Bool.not_eq_true, ← offered] at dead
  obtain ⟨sooner, before, final, draws⟩ := PageIds.exists_draws positive dead
  have limit : sooner ≤ PageIds.period :=
    Nat.le_trans before (Nat.le_trans within (Nat.sub_le _ _))
  exact ⟨sooner, final, draws, PageIds.search_of_draws draws limit⟩

/-- Memory is handed out if there is room for it and an id for it. -/
theorem allocate_of_room {size : Nat} {id : PageId} {ids : PageIds} (room : size ≤ pool.free)
    (few : pool.chunkCount < pageIdCount)
    (found : PageIds.search pool.isLive PageIds.period pool.ids = some (id, ids)) :
    pool.allocate size =
      .ok (id, { pool with chunks := pool.chunks.push ⟨id, .zeros size⟩, ids }) := by
  have ends : Ends (grant size) pool _ _ := grant_ends size
  rw [allocate_eq_ok_iff]
  cases outcome : grant size pool with
  | ok id later =>
      obtain ⟨-, -, ids, foundHere, rfl⟩ := ends.of_ok outcome
      cases found.symm.trans foundHere
      rfl
  | error refusal later =>
      rcases (ends.of_error outcome).2 with ⟨scarce, -⟩ | ⟨-, -, unfound⟩
      · exact absurd room (Nat.not_le_of_lt scarce)
      · cases found.symm.trans (unfound few)

/-- The search for a page id ends. From every state that the generator comes to, every id
outside of a set that leaves one out is drawn after finitely many draws; so a request for memory
that is not turned down at once gets the id at which the draws stop, in every pool there can
be. -/
theorem page_id_search_ends :
    (∀ (seed : UInt32) (draws : Nat) (live : Finset PageId), live.card < pageIdCount →
      ∃ further, 0 < further ∧
        (PageIds.step^[draws + further] (.ofSeed seed)).offered ∉ live) ∧
    ∀ (pool : Pool), pool.Reached → ∀ size,
      (pool.free < size ∧ pool.allocate size = .error (.insufficientCapacity size pool.free)) ∨
      (size ≤ pool.free ∧ pageIdCount ≤ pool.chunkCount ∧
        pool.allocate size = .error .pageIdsExhausted) ∨
      (size ≤ pool.free ∧ pool.chunkCount < pageIdCount ∧
        ∃ count final, PageIds.Draws pool.isLive pool.ids count final ∧
          pool.allocate size = .ok (final.offered,
            { pool with
              chunks := pool.chunks.push ⟨final.offered, .zeros size⟩
              ids := final })) := by
  constructor
  · intro seed draws live few
    obtain ⟨id, left⟩ := exists_notMem few
    obtain ⟨further, positive, -, offered⟩ := PageIds.exists_offered
      (PageIds.iterate_ne_zero (PageIds.ofSeed_ne_zero seed) draws) id
    refine ⟨further, positive, ?_⟩
    rw [Nat.add_comm, Function.iterate_add_apply, offered]
    exact left
  · intro pool reached size
    by_cases scarce : pool.free < size
    · exact .inl ⟨scarce, allocate_of_scarce scarce⟩
    · have room : size ≤ pool.free := Nat.le_of_not_lt scarce
      by_cases exhausted : pageIdCount ≤ pool.chunkCount
      · exact .inr (.inl ⟨room, exhausted, allocate_of_exhausted room exhausted⟩)
      · have few : pool.chunkCount < pageIdCount := Nat.lt_of_not_le exhausted
        obtain ⟨count, final, draws, found⟩ := exists_draws reached.ids_ne_zero few
        exact .inr (.inr ⟨room, few, count, final, draws, allocate_of_room room few found⟩)

namespace Collision

/-- A pool whose generator offers the id of the only chunk once more. -/
def crowded : Pool := ((Pool.ofSeed 8 true 54776).call (.allocate 4)).2

theorem reached : crowded.Reached := .called (.new 8 true 54776) _

theorem offers_again : crowded.isLive crowded.ids.step.offered = true := by
  decide +kernel

theorem grants_another : (crowded.allocate 4).toOption.map Prod.fst = some 0x7D9D := by
  decide +kernel

end Collision

/-- After a collision another id is drawn and handed out. -/
theorem collision_is_passed :
    (∃ further, 0 < further ∧
      (PageIds.step^[3 + further] (.ofSeed 0)).offered ∉ ({0, 1} : Finset PageId)) ∧
    Collision.crowded.isLive Collision.crowded.ids.step.offered = true ∧
    ∃ count final, PageIds.Draws Collision.crowded.isLive Collision.crowded.ids count final ∧
      final.offered = 0x7D9D := by
  obtain ⟨search, requests⟩ := page_id_search_ends
  refine ⟨search 0 3 {0, 1} (by decide), Collision.offers_again, ?_⟩
  rcases requests Collision.crowded Collision.reached 4 with
    ⟨scarce, -⟩ | ⟨-, exhausted, -⟩ | ⟨-, -, count, final, draws, granted⟩
  · exact absurd scarce (by decide +kernel)
  · exact absurd exhausted (by decide +kernel)
  · have another := Collision.grants_another
    rw [granted] at another
    exact ⟨count, final, draws, Option.some.inj another⟩

end Pool

end WordMachine
