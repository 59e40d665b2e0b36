import WordMachine.Store

/-!
# Memory pools

A pool hands out chunks of memory up to a fixed capacity. Each chunk is a store of
its own, found under a page id that no other live chunk has. A volatile pool
forgets the contents of its chunks when the power is cycled.

Chunks stand in a row, and the first one with an id is the one that is meant. A chunk
that is taken back leaves its place to the last one. Requests change the pool they are
made to; `allocate` and `release` give what comes of them as values.

Page ids have sixteen bits and are drawn from a shift-register generator on thirty-two bits of
state. Everything that can be asked of a pool and of its chunks is data as well (`Pool.Call`), and
`Pool.after` and `Pool.answers` say what becomes of a pool that is asked many things one after the
other.
-/

namespace WordMachine

/-! ## Page ids -/

/-- Names a chunk of memory. -/
abbrev PageId := UInt16

/-- The state of the generator that page ids are drawn from. -/
structure PageIds where
  state : UInt32
  deriving DecidableEq, Repr

namespace PageIds

/-- Zero is a fixed point of the generator, so a fixed state stands in for it. -/
def ofSeed (seed : UInt32) : PageIds := ⟨if seed = 0 then 0x9E3779B9 else seed⟩

/-- One step of the shift register. -/
def step (ids : PageIds) : PageIds :=
  let first := ids.state ^^^ (ids.state <<< 13)
  let second := first ^^^ (first >>> 17)
  ⟨second ^^^ (second <<< 5)⟩

/-- The id that a state offers: its high half. -/
def offered (ids : PageIds) : PageId := (ids.state >>> 16).toUInt16

/-- Draws ids, `draws` of them at most, until one is not in use. -/
def search (inUse : PageId → Bool) : (draws : Nat) → PageIds → Option (PageId × PageIds)
  | 0, _ => none
  | draws + 1, ids =>
    let next := ids.step
    if inUse next.offered then search inUse draws next else some (next.offered, next)

/-- As many draws as the generator has states: after them it repeats itself. -/
def period : Nat := UInt32.size

end PageIds

/-! ## Chunks -/

/-- A piece of memory and the id it is found under. -/
structure Chunk where
  id : PageId
  store : Store
  deriving DecidableEq, Repr

/-- A fixed capacity from which chunks are drawn. -/
structure Pool where
  capacity : Nat
  isVolatile : Bool
  chunks : Array Chunk
  ids : PageIds
  deriving DecidableEq, Repr

namespace Pool

/-- Why a pool turns a request down. -/
inductive Refusal where
  | insufficientCapacity (requested free : Nat)
  | pageIdsExhausted
  | unknownChunk (id : PageId)
  deriving DecidableEq, Repr

/-- The text shown to the user. -/
def Refusal.message : Refusal → String
  | .insufficientCapacity requested free =>
      s!"requested {requested} bytes but only {free} are free"
  | .pageIdsExhausted => "every page id is in use"
  | .unknownChunk id => s!"no live chunk with id ChunkId({id.toNat})"

/-- A request to a pool, which may be turned down. The pool it ends in is part of the
answer in either case. -/
abbrev Request := EStateM Refusal Pool

/-- A pool without chunks. -/
def ofSeed (capacity : Nat) (isVolatile : Bool) (seed : UInt32) : Pool :=
  ⟨capacity, isVolatile, #[], PageIds.ofSeed seed⟩

/-- How many chunks can be told apart. -/
def pageIdCount : Nat := 0x10000

/-- The bytes held by live chunks. -/
def used (pool : Pool) : Nat := pool.chunks.foldr (fun chunk total => chunk.store.size + total) 0

/-- The bytes that can still be handed out. -/
def free (pool : Pool) : Nat := pool.capacity - pool.used

def chunkCount (pool : Pool) : Nat := pool.chunks.size

/-- Whether a live chunk has the id. -/
def isLive (pool : Pool) (id : PageId) : Bool := pool.chunks.any fun chunk => chunk.id == id

/-- Where the chunk with the id stands. -/
def position? (pool : Pool) (id : PageId) : Option Nat :=
  pool.chunks.findIdx? fun chunk => chunk.id == id

/-- The contents of a live chunk. -/
def store? (pool : Pool) (id : PageId) : Option Store :=
  (pool.chunks.find? fun chunk => chunk.id == id).map Chunk.store

/-- The contents of a chunk, which must be live. -/
def store (pool : Pool) (id : PageId) : Except Refusal Store :=
  match pool.store? id with
  | some store => .ok store
  | none => .error (.unknownChunk id)

/-- Gives a live chunk new contents. -/
def replace (pool : Pool) (id : PageId) (store : Store) : Pool :=
  match pool.position? id with
  | some index =>
    { pool with chunks := pool.chunks.modify index fun chunk => { chunk with store } }
  | none => pool

/-- Draws ids until one is not in use. -/
def drawId : Request PageId := fun pool =>
  match PageIds.search pool.isLive PageIds.period pool.ids with
  | some (id, ids) => .ok id { pool with ids }
  | none => .error .pageIdsExhausted pool

/-- Hands out `size` zero bytes under an id that was not in use. That there are as many bytes as
the capacity says is taken for granted. -/
def grant (size : Nat) : Request PageId := do
  let pool ← get
  if pool.free < size then
    throw (.insufficientCapacity size pool.free)
  else if pageIdCount ≤ pool.chunkCount then
    throw .pageIdsExhausted
  else
    let id ← drawId
    modify fun pool => { pool with chunks := pool.chunks.push ⟨id, .zeros size⟩ }
    return id

/-- Removes a chunk and puts the last one into its place. -/
def swapRemove (chunks : Array Chunk) (index : Nat) : Array Chunk :=
  match chunks.back? with
  | some last => (chunks.setIfInBounds index last).pop
  | none => chunks

/-- Takes a chunk back. -/
def reclaim (id : PageId) : Request Unit := do
  let pool ← get
  match pool.position? id with
  | none => throw (.unknownChunk id)
  | some index => set { pool with chunks := swapRemove pool.chunks index }

/-- Runs a store operation on one chunk. A failing operation, too, decides what
the chunk holds afterwards. -/
def onChunk {α : Type} (id : PageId) (access : Access α) : Request (Except OutOfBounds α) :=
  fun pool =>
    match pool.store? id with
    | none => .error (.unknownChunk id) pool
    | some store =>
      match access store with
      | .ok value store => .ok (.ok value) (pool.replace id store)
      | .error fault store => .ok (.error fault) (pool.replace id store)

/-- Cuts the power for a moment: a volatile pool is left with zero bytes in every
chunk and every cursor at the start. -/
def powerCycle (pool : Pool) : Pool :=
  if pool.isVolatile then
    { pool with
      chunks := pool.chunks.map fun chunk =>
        { chunk with store := { Store.fill 0 chunk.store with cursor := 0 } } }
  else
    pool

/-- What comes of a request for memory: the id of the chunk and the pool that has it. -/
def allocate (pool : Pool) (size : Nat) : Except Refusal (PageId × Pool) :=
  match grant size pool with
  | .ok id pool => .ok (id, pool)
  | .error refusal _ => .error refusal

/-- What comes of giving a chunk back: the pool without it. -/
def release (pool : Pool) (id : PageId) : Except Refusal Pool :=
  match reclaim id pool with
  | .ok () pool => .ok pool
  | .error refusal _ => .error refusal

/-! ## Calls -/

/-- What can be asked of a pool. -/
inductive Call where
  | allocate (size : Nat)
  | release (id : PageId)
  | powerCycle
  | operate (id : PageId) (operation : Store.Operation)
  deriving DecidableEq, Repr

/-- What comes of a call that is not turned down. -/
inductive Answer where
  | granted (id : PageId)
  | done
  | operated (reading : Store.Reading)
  | faulted (fault : OutOfBounds)
  deriving DecidableEq, Repr

/-- What comes of an operation on a chunk. -/
def Answer.ofOutcome : Except OutOfBounds Store.Reading → Answer
  | .ok reading => operated reading
  | .error fault => faulted fault

/-- The id of the chunk that a call is about. -/
def Call.subject? : Call → Option PageId
  | release id | operate id _ => some id
  | allocate _ | powerCycle => none

/-- Makes a call. -/
def Call.perform : Call → Request Answer
  | allocate size => .granted <$> grant size
  | release id => (fun _ => .done) <$> reclaim id
  | powerCycle => (fun _ => .done) <$> (modify Pool.powerCycle : Request Unit)
  | operate id operation => .ofOutcome <$> onChunk id operation.perform

/-- What comes of a call, turned down or not, and the pool after it. -/
def call (call : Call) (pool : Pool) : Except Refusal Answer × Pool :=
  match call.perform pool with
  | .ok answer pool => (.ok answer, pool)
  | .error refusal pool => (.error refusal, pool)

/-- The pool after one call after the other. -/
def after : List Call → Pool → Pool
  | [], pool => pool
  | made :: calls, pool => after calls (pool.call made).2

/-- What comes of one call after the other. -/
def answers : List Call → Pool → List (Except Refusal Answer)
  | [], _ => []
  | made :: calls, pool => (pool.call made).1 :: answers calls (pool.call made).2

end Pool

end WordMachine
