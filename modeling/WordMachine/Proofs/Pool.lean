import Mathlib.Data.List.Induction
import Mathlib.Data.List.Nodup
import Mathlib.Logic.Function.Basic
import WordMachine.Pool
import WordMachine.Proofs.Outcome

/-!
# Chunks of a pool

A pool is seen through the stores that are found under page ids. A request changes what
is found under one id at most: a chunk that is handed out is found under an id under which
nothing was found before (`store?_push`), a chunk that is given contents is found with them
(`store?_replace`), and one that is taken back is not found any more
(`store?_swapRemove`). A request for memory that is turned down changes nothing
(`grant_ends`).
-/

namespace WordMachine

namespace Chunk

/-- The contents of the first chunk with an id. -/
def lookup (chunks : List Chunk) (id : PageId) : Option Store :=
  (chunks.find? fun chunk => chunk.id == id).map Chunk.store

variable {chunks others : List Chunk} {chunk : Chunk} {id : PageId}

@[simp] theorem lookup_nil : lookup [] id = none := rfl

theorem lookup_cons :
    lookup (chunk :: chunks) id = if chunk.id = id then some chunk.store else lookup chunks id := by
  rw [lookup, List.find?_cons]
  split
  next same => rw [if_pos (beq_iff_eq.mp same)]; rfl
  next other => rw [if_neg (beq_eq_false_iff_ne.mp other)]; rfl

theorem lookup_append :
    lookup (chunks ++ others) id = (lookup chunks id).or (lookup others id) := by
  simp [lookup, Option.map_or]

theorem lookup_eq_none_iff : lookup chunks id = none ↔ id ∉ chunks.map Chunk.id := by
  simp [lookup]

/-- The order of chunks with different ids does not matter. -/
theorem lookup_of_perm (perm : chunks.Perm others) (nodup : (chunks.map Chunk.id).Nodup) :
    lookup chunks id = lookup others id := by
  induction perm with
  | nil => rfl
  | cons chunk _ ih =>
      rw [lookup_cons, lookup_cons, ih (List.nodup_cons.mp nodup).2]
  | swap first second rest =>
      have different : first.id ≠ second.id := by
        intro same
        simp [same] at nodup
      simp only [lookup_cons]
      split
      next here => rw [if_neg (by rw [← here]; exact different)]
      next => rfl
  | trans first _ ihFirst ihSecond =>
      exact (ihFirst nodup).trans (ihSecond ((first.map Chunk.id).nodup_iff.mp nodup))

/-- Contents that change without a look at the id are found changed. -/
theorem lookup_map (change : Store → Store) :
    lookup (chunks.map fun chunk => { chunk with store := change chunk.store }) id =
      (lookup chunks id).map change := by
  induction chunks with
  | nil => rfl
  | cons chunk chunks ih =>
      rw [List.map_cons, lookup_cons, lookup_cons, ih]
      split
      · rfl
      · rfl

/-- Removing a chunk by putting the last one into its place changes the order only. -/
theorem swapRemove_perm {row : Array Chunk} {before after : List Chunk}
    (split : row.toList = before ++ chunk :: after) :
    (Pool.swapRemove row before.length).toList.Perm (before ++ after) := by
  cases after using List.reverseRecOn with
  | nil =>
      have last : row.back? = some chunk := by
        rw [← Array.getLast?_toList, split, List.getLast?_concat]
      have removed : (Pool.swapRemove row before.length).toList = before := by
        rw [Pool.swapRemove, last]
        simp [split]
      rw [removed, List.append_nil]
  | append_singleton init moved =>
      rw [← List.cons_append, ← List.append_assoc] at split
      have last : row.back? = some moved := by
        rw [← Array.getLast?_toList, split, List.getLast?_concat]
      have removed : (Pool.swapRemove row before.length).toList = before ++ moved :: init := by
        rw [Pool.swapRemove, last, Array.toList_pop, Array.toList_setIfInBounds, split,
          List.append_assoc, List.set_append_right _ _ (Nat.le_refl _), Nat.sub_self,
          List.cons_append, List.set_cons_zero, ← List.cons_append, ← List.append_assoc,
          List.dropLast_concat]
      rw [removed]
      exact (List.perm_append_singleton moved init).symm.append_left before

end Chunk

/-- Draws stop at an id that is not in use. -/
theorem PageIds.not_inUse_of_search {inUse : PageId → Bool} {draws : Nat} {ids later : PageIds}
    {id : PageId} (found : search inUse draws ids = some (id, later)) : inUse id = false := by
  induction draws generalizing ids with
  | zero => cases found
  | succ draws ih =>
      rw [search] at found
      split at found
      next => exact ih found
      next free =>
        cases found
        exact Bool.not_eq_true _ ▸ free

namespace Pool

variable {pool granted : Pool} {id : PageId} {size : Nat}

/-- The ids of the live chunks, in the order in which the chunks stand. -/
def liveIds (pool : Pool) : List PageId := pool.chunks.toList.map Chunk.id

@[simp] theorem length_liveIds : pool.liveIds.length = pool.chunkCount := by
  simp [liveIds, chunkCount]

theorem isLive_iff : pool.isLive id ↔ id ∈ pool.liveIds := by
  rw [isLive, liveIds, ← Array.any_toList, List.any_eq_true, List.mem_map]
  simp only [beq_iff_eq]

theorem store?_eq_lookup : pool.store? id = Chunk.lookup pool.chunks.toList id := by
  rw [store?, Chunk.lookup, Array.find?_toList]

theorem store?_eq_none_iff : pool.store? id = none ↔ id ∉ pool.liveIds := by
  rw [store?_eq_lookup, Chunk.lookup_eq_none_iff, liveIds]

/-- The chunk that an id means stands behind chunks with other ids. -/
theorem split_of_store? {store : Store} (found : pool.store? id = some store) :
    ∃ before after, pool.chunks.toList = before ++ ⟨id, store⟩ :: after ∧
      Chunk.lookup before id = none ∧ pool.position? id = some before.length := by
  rw [store?_eq_lookup, Chunk.lookup, Option.map_eq_some_iff] at found
  obtain ⟨chunk, found, rfl⟩ := found
  obtain ⟨here, before, after, split, elsewhere⟩ := List.find?_eq_some_iff_append.mp found
  obtain rfl := beq_iff_eq.mp here
  have others : ∀ other ∈ before, (other.id == chunk.id) = false := by simpa using elsewhere
  refine ⟨before, after, split, ?_, ?_⟩
  · simpa [Chunk.lookup] using others
  · rw [position?, ← pool.chunks.toArray_toList, List.findIdx?_toArray, split,
      List.findIdx?_append, List.findIdx?_eq_none_iff.mpr others, List.findIdx?_cons, if_pos here]
    simp

theorem position?_of_store?_eq_none (missing : pool.store? id = none) :
    pool.position? id = none := by
  rw [position?, Array.findIdx?_eq_none_iff]
  intro chunk member
  rw [store?_eq_none_iff, liveIds, List.mem_map] at missing
  exact beq_eq_false_iff_ne.mpr fun same => missing ⟨chunk, Array.mem_toList_iff.mpr member, same⟩

/-- A chunk at the end of the row is found if no other has its id. -/
theorem store?_push {ids : PageIds} {store : Store} (fresh : id ∉ pool.liveIds) :
    store? { pool with chunks := pool.chunks.push ⟨id, store⟩, ids } =
      Function.update pool.store? id (some store) := by
  funext other
  rw [store?_eq_lookup, Array.toList_push, Chunk.lookup_append, ← store?_eq_lookup,
    Chunk.lookup_cons, Chunk.lookup_nil, Function.update_apply]
  by_cases same : other = id
  · rw [same, store?_eq_none_iff.mpr fresh]
    simp
  · rw [if_neg (Ne.symm same), if_neg same, Option.or_none]

/-- Contents that are given to a live chunk take the place of the old ones. -/
theorem chunks_replace {before after : List Chunk} {old : Store} (store : Store)
    (split : pool.chunks.toList = before ++ ⟨id, old⟩ :: after)
    (position : pool.position? id = some before.length) :
    (pool.replace id store).chunks.toList = before ++ ⟨id, store⟩ :: after := by
  rw [replace, position, Array.toList_modify, split,
    List.modify_eq_take_cons_drop (by simp)]
  simp

/-- A live chunk is found with the contents it is given. -/
theorem store?_replace {old : Store} (live : pool.store? id = some old) (store : Store) :
    (pool.replace id store).store? = Function.update pool.store? id (some store) := by
  obtain ⟨before, after, split, elsewhere, position⟩ := split_of_store? live
  funext other
  rw [Function.update_apply, store?_eq_lookup, store?_eq_lookup,
    chunks_replace store split position, split, Chunk.lookup_append, Chunk.lookup_append,
    Chunk.lookup_cons, Chunk.lookup_cons]
  by_cases same : other = id
  · rw [same, elsewhere]
    simp
  · rw [if_neg (Ne.symm same), if_neg (Ne.symm same), if_neg same]

theorem replace_of_store?_eq_none (missing : pool.store? id = none) (store : Store) :
    pool.replace id store = pool := by
  rw [replace, position?_of_store?_eq_none missing]

@[simp] theorem liveIds_replace (store : Store) :
    (pool.replace id store).liveIds = pool.liveIds := by
  cases live : pool.store? id with
  | none => rw [replace_of_store?_eq_none live]
  | some old =>
      obtain ⟨before, after, split, -, position⟩ := split_of_store? live
      rw [liveIds, liveIds, chunks_replace store split position, split]
      simp

theorem exists_replace_eq (pool : Pool) (id : PageId) (store : Store) :
    ∃ chunks, pool.replace id store = { pool with chunks } := by
  rw [replace]
  split
  · exact ⟨_, rfl⟩
  · exact ⟨_, rfl⟩

theorem exists_powerCycle_eq (pool : Pool) :
    ∃ chunks, pool.powerCycle = { pool with chunks } := by
  rw [powerCycle]
  split
  · exact ⟨_, rfl⟩
  · exact ⟨_, rfl⟩

/-- A power cycle leaves zero bytes of the same number in a volatile pool. -/
theorem store?_powerCycle :
    pool.powerCycle.store? id =
      (pool.store? id).map fun store => if pool.isVolatile then .zeros store.size else store := by
  rw [powerCycle]
  split
  · rw [store?_eq_lookup, store?_eq_lookup, Array.toList_map]
    exact Chunk.lookup_map fun store => .zeros store.size
  · rw [Option.map_id']

@[simp] theorem liveIds_powerCycle : pool.powerCycle.liveIds = pool.liveIds := by
  rw [powerCycle]
  split
  · simp [liveIds]
  · rfl

/-- What a search finds is the id of no chunk. -/
theorem notMem_liveIds_of_search {draws : Nat} {ids later : PageIds}
    (found : PageIds.search pool.isLive draws ids = some (id, later)) : id ∉ pool.liveIds := by
  rw [← isLive_iff, PageIds.not_inUse_of_search found]
  exact Bool.false_ne_true

/-- What drawing an id does to a pool. -/
theorem drawId_ends :
    Ends drawId pool
      (fun id final => ∃ ids, PageIds.search pool.isLive PageIds.period pool.ids = some (id, ids) ∧
        final = { pool with ids })
      (fun refusal final => refusal = .pageIdsExhausted ∧ final = pool ∧
        PageIds.search pool.isLive PageIds.period pool.ids = none) := by
  rw [Ends, drawId]
  cases PageIds.search pool.isLive PageIds.period pool.ids with
  | none => exact ⟨rfl, rfl, rfl⟩
  | some answer => exact ⟨answer.2, rfl, rfl⟩

/-- What a request for memory does. One that is turned down changes nothing. -/
theorem grant_ends (size : Nat) :
    Ends (grant size) pool
      (fun id final => size ≤ pool.free ∧ pool.chunkCount < pageIdCount ∧
        ∃ ids, PageIds.search pool.isLive PageIds.period pool.ids = some (id, ids) ∧
          final = { pool with chunks := pool.chunks.push ⟨id, .zeros size⟩, ids })
      (fun refusal final => final = pool ∧
        (pool.free < size ∧ refusal = .insufficientCapacity size pool.free ∨
          size ≤ pool.free ∧ refusal = .pageIdsExhausted ∧
            (pool.chunkCount < pageIdCount →
              PageIds.search pool.isLive PageIds.period pool.ids = none))) := by
  rw [grant, ends_bind, ends_get, ends_ite]
  split
  next scarce => exact ⟨rfl, .inl ⟨scarce, rfl⟩⟩
  next enough =>
    rw [ends_ite]
    split
    next exhausted =>
      exact ⟨rfl, .inr ⟨Nat.le_of_not_lt enough, rfl, fun more => absurd more (by omega)⟩⟩
    next more =>
      rw [ends_bind]
      apply drawId_ends.mono
      · rintro id _ ⟨ids, found, rfl⟩
        exact ⟨Nat.le_of_not_lt enough, Nat.lt_of_not_le more, ids, found, rfl⟩
      · rintro _ _ ⟨rfl, rfl, none⟩
        exact ⟨rfl, .inr ⟨Nat.le_of_not_lt enough, rfl, fun _ => none⟩⟩

/-- What giving a chunk back does. Only where no two chunks have one id is nothing found under
the id afterwards. -/
theorem reclaim_ends (id : PageId) :
    Ends (reclaim id) pool
      (fun _ final => (∃ chunks, final = { pool with chunks }) ∧ (pool.store? id).isSome ∧
        (pool.liveIds.Nodup →
          final.liveIds.Nodup ∧ final.store? = Function.update pool.store? id none))
      (fun refusal final => refusal = .unknownChunk id ∧ pool.store? id = none ∧ final = pool) := by
  rw [reclaim, ends_bind, ends_get]
  cases live : pool.store? id with
  | none =>
      rw [position?_of_store?_eq_none live]
      exact ⟨rfl, rfl, rfl⟩
  | some store =>
      obtain ⟨before, after, split, elsewhere, position⟩ := split_of_store? live
      rw [position]
      have perm := Chunk.swapRemove_perm split
      have spelled : pool.liveIds = before.map Chunk.id ++ id :: after.map Chunk.id := by
        simp [liveIds, split]
      refine ⟨⟨_, rfl⟩, rfl, fun distinct => ?_⟩
      rw [spelled, List.nodup_middle, List.nodup_cons, ← List.map_append] at distinct
      constructor
      · exact (perm.map Chunk.id).nodup_iff.mpr distinct.2
      · funext other
        rw [store?_eq_lookup, ← Chunk.lookup_of_perm perm.symm distinct.2, Function.update_apply]
        by_cases same : other = id
        · rw [if_pos same, same, Chunk.lookup_eq_none_iff]
          exact distinct.1
        · rw [if_neg same, store?_eq_lookup, split, Chunk.lookup_append, Chunk.lookup_append,
            Chunk.lookup_cons, if_neg (Ne.symm same)]

/-- What an operation on a chunk does to the pool, whether the operation fails or not. -/
theorem onChunk_ends {α : Type} (id : PageId) (access : Access α) :
    Ends (onChunk id access) pool
      (fun outcome final => ∃ store changed, pool.store? id = some store ∧
        final = pool.replace id changed ∧
        ((∃ value, access store = .ok value changed ∧ outcome = .ok value) ∨
          ∃ fault, access store = .error fault changed ∧ outcome = .error fault))
      (fun refusal final => refusal = .unknownChunk id ∧ pool.store? id = none ∧ final = pool) := by
  rw [Ends, onChunk]
  cases live : pool.store? id with
  | none => exact ⟨rfl, rfl, rfl⟩
  | some store =>
      simp only
      cases outcome : access store with
      | ok value changed => exact ⟨store, changed, rfl, rfl, .inl ⟨value, outcome, rfl⟩⟩
      | error fault changed => exact ⟨store, changed, rfl, rfl, .inr ⟨fault, outcome, rfl⟩⟩

theorem allocate_eq_ok_iff :
    pool.allocate size = .ok (id, granted) ↔ grant size pool = .ok id granted := by
  rw [allocate]
  cases grant size pool with
  | ok id pool => simp
  | error refusal pool => simp

theorem exists_of_allocate_isOk (ok : (pool.allocate size).isOk) :
    ∃ id granted, pool.allocate size = .ok (id, granted) := by
  cases allocated : pool.allocate size with
  | error refusal =>
      rw [allocated] at ok
      cases ok
  | ok answer => exact ⟨answer.1, answer.2, rfl⟩

theorem grant_of_refused {refusal : Refusal} (refused : pool.allocate size = .error refusal) :
    grant size pool = .error refusal pool := by
  have ends : Ends (grant size) pool _ _ := grant_ends size
  cases outcome : grant size pool with
  | ok id final =>
      rw [allocate, outcome] at refused
      cases refused
  | error cause final =>
      rw [allocate, outcome] at refused
      cases refused
      rw [(ends.of_error outcome).1]

theorem allocate_of_scarce (scarce : pool.free < size) :
    pool.allocate size = .error (.insufficientCapacity size pool.free) := by
  rw [allocate, grant, get_bind, if_pos scarce]
  rfl

theorem allocate_of_exhausted (room : size ≤ pool.free)
    (exhausted : pageIdCount ≤ pool.chunkCount) :
    pool.allocate size = .error .pageIdsExhausted := by
  rw [allocate, grant, get_bind, if_neg (Nat.not_lt_of_le room), if_pos exhausted]
  rfl

/-- A chunk that is handed out is the last one, and holds zero bytes. -/
theorem allocate_of_ok (allocated : pool.allocate size = .ok (id, granted)) :
    id ∉ pool.liveIds ∧
      ∃ ids, granted = { pool with chunks := pool.chunks.push ⟨id, .zeros size⟩, ids } := by
  obtain ⟨-, -, ids, found, same⟩ :=
    (grant_ends size).of_ok (allocate_eq_ok_iff.mp allocated)
  exact ⟨notMem_liveIds_of_search found, ids, same⟩

/-- A chunk that was handed out is found with the contents it is given. -/
theorem store?_replace_of_allocate (allocated : pool.allocate size = .ok (id, granted))
    (store : Store) : (granted.replace id store).store? id = some store := by
  obtain ⟨fresh, ids, same⟩ := allocate_of_ok allocated
  have handedOut : granted.store? id = some (.zeros size) := by
    rw [same, store?_push fresh, Function.update_self]
  rw [store?_replace handedOut, Function.update_self]

end Pool

end WordMachine
