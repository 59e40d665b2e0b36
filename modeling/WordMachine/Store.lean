import WordMachine.Word

/-!
# Byte stores

A store is a fixed number of bytes with one cursor. Code, data and stack of a
program live in stores: the cursor of the code is the program counter, the cursor
of the data segment is the stack pointer.

Access through the cursor moves it behind the bytes touched, access at an address
leaves it alone. Every access checks that all its bytes lie inside the store; one
that does not fails and changes nothing. Addresses are natural numbers, so no sum
of an address and a width can wrap around.

Everything that can be asked of a store is data as well (`Store.Operation`), so that it can be
said what holds after any sequence of operations.
-/

namespace WordMachine

/-- A store's bytes and the position of its cursor. -/
structure Store where
  bytes : Array UInt8
  cursor : Nat
  deriving DecidableEq, Repr, Inhabited

/-- An access whose bytes do not all lie inside the store. Moving the cursor
counts as an access of width zero. -/
structure OutOfBounds where
  address : Nat
  width : Nat
  size : Nat
  deriving DecidableEq, Repr

/-- The text shown to the user. -/
def OutOfBounds.message (fault : OutOfBounds) : String :=
  s!"access of {fault.width} bytes at {fault.address} is outside a store of {fault.size} bytes"

/-- An operation on a store that may fail. The store it ends in is part of the
answer in either case. -/
abbrev Access := EStateM OutOfBounds Store

namespace Store

/-- A store of `size` zero bytes. -/
def zeros (size : Nat) : Store := ⟨Array.replicate size 0, 0⟩

/-- A store that holds the given bytes. -/
def ofBytes (bytes : Array UInt8) : Store := ⟨bytes, 0⟩

def size (store : Store) : Nat := store.bytes.size

def isEmpty (store : Store) : Bool := store.bytes.isEmpty

/-- The bytes as a list. -/
def toList (store : Store) : List UInt8 := store.bytes.toList

/-- Whether the `width` bytes from `address` on lie inside the store. -/
def Holds (store : Store) (address width : Nat) : Prop := address + width ≤ store.size

instance (store : Store) (address width : Nat) : Decidable (store.Holds address width) :=
  inferInstanceAs (Decidable (_ ≤ _))

/-- The number spelled by the `width` bytes at `address`. -/
def load (store : Store) (width address : Nat) : Except OutOfBounds Nat :=
  if store.Holds address width then
    .ok (LittleEndian.decode (store.bytes.extract address (address + width)).toList)
  else
    .error ⟨address, width, store.size⟩

/-- The byte at an address. -/
def byteAt (store : Store) (address : Nat) : Except OutOfBounds UInt8 :=
  UInt8.ofNat <$> store.load 1 address

/-- The word at an address. -/
def wordAt (store : Store) (address : Nat) : Except OutOfBounds Word :=
  UInt16.ofNat <$> store.load 2 address

/-- Puts `new` over the bytes from `address` on; what would fall behind the end
is dropped. -/
def overwrite (bytes : Array UInt8) : (address : Nat) → (new : List UInt8) → Array UInt8
  | _, [] => bytes
  | address, byte :: rest => overwrite (bytes.setIfInBounds address byte) (address + 1) rest

/-- Moves the cursor. The end of the store is the last position allowed. -/
def seek (position : Nat) : Access Unit := fun store =>
  if position ≤ store.size then
    .ok () { store with cursor := position }
  else
    .error ⟨position, 0, store.size⟩ store

/-- Writes the `width` low bytes of `value` at an address. -/
def save (width address value : Nat) : Access Unit := fun store =>
  if store.Holds address width then
    .ok () { store with bytes := overwrite store.bytes address (LittleEndian.encode width value) }
  else
    .error ⟨address, width, store.size⟩ store

/-- Moves the cursor forward. -/
def advance (width : Nat) : Access Unit :=
  modify fun store => { store with cursor := store.cursor + width }

/-- Reads `width` bytes at the cursor. -/
def read (width : Nat) : Access Nat := do
  let store ← get
  let value ← MonadExcept.ofExcept (store.load width store.cursor)
  advance width
  return value

/-- Writes `width` bytes at the cursor. -/
def write (width value : Nat) : Access Unit := do
  let store ← get
  save width store.cursor value
  advance width

def readByte : Access UInt8 := UInt8.ofNat <$> read 1

def readWord : Access Word := UInt16.ofNat <$> read 2

def readDword : Access UInt32 := UInt32.ofNat <$> read 4

def readQword : Access UInt64 := UInt64.ofNat <$> read 8

def writeByte (value : UInt8) : Access Unit := write 1 value.toNat

def writeWord (value : Word) : Access Unit := write 2 value.toNat

def writeDword (value : UInt32) : Access Unit := write 4 value.toNat

def writeQword (value : UInt64) : Access Unit := write 8 value.toNat

def setByteAt (address : Nat) (value : UInt8) : Access Unit := save 1 address value.toNat

def setWordAt (address : Nat) (value : Word) : Access Unit := save 2 address value.toNat

/-- Sets every byte to one value. -/
def fill (value : UInt8) (store : Store) : Store :=
  { store with bytes := Array.replicate store.size value }

/-! ## Operations -/

/-- What can be asked of a store. -/
inductive Operation where
  | seek (position : Nat)
  | fill (value : UInt8)
  | readByte
  | readWord
  | readDword
  | readQword
  | writeByte (value : UInt8)
  | writeWord (value : Word)
  | writeDword (value : UInt32)
  | writeQword (value : UInt64)
  | byteAt (address : Nat)
  | wordAt (address : Nat)
  | setByteAt (address : Nat) (value : UInt8)
  | setWordAt (address : Nat) (value : Word)
  deriving DecidableEq, Repr

/-- What an operation that does not fail gives back. -/
inductive Reading where
  | nothing
  | byte (value : UInt8)
  | word (value : Word)
  | dword (value : UInt32)
  | qword (value : UInt64)
  deriving DecidableEq, Repr

/-- Looks at a store without changing it. -/
def look {α : Type} (at? : Store → Except OutOfBounds α) : Access α := do
  let store ← get
  MonadExcept.ofExcept (at? store)

namespace Operation

/-- Does what is asked. -/
def perform : Operation → Access Reading
  | seek position => (fun _ => .nothing) <$> Store.seek position
  | fill value => (fun _ => .nothing) <$> (modify (Store.fill value) : Access Unit)
  | readByte => .byte <$> Store.readByte
  | readWord => .word <$> Store.readWord
  | readDword => .dword <$> Store.readDword
  | readQword => .qword <$> Store.readQword
  | writeByte value => (fun _ => .nothing) <$> Store.writeByte value
  | writeWord value => (fun _ => .nothing) <$> Store.writeWord value
  | writeDword value => (fun _ => .nothing) <$> Store.writeDword value
  | writeQword value => (fun _ => .nothing) <$> Store.writeQword value
  | byteAt address => .byte <$> look fun store => store.byteAt address
  | wordAt address => .word <$> look fun store => store.wordAt address
  | setByteAt address value => (fun _ => .nothing) <$> Store.setByteAt address value
  | setWordAt address value => (fun _ => .nothing) <$> Store.setWordAt address value

end Operation

end Store

end WordMachine
