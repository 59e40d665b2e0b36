import Mathlib.Algebra.GroupWithZero.Nat
import WordMachine.Store

/-!
# Numbers and stores as lists of bytes

`LittleEndian.encode` and `LittleEndian.decode` are inverse to each other: `decode_encode` on values
that fit the width, `encode_decode` on every list of bytes.

What the operations of a store do to its list of bytes: `load_of_holds` and
`save_of_holds` for access at an address, `read_of_holds` and `write_of_holds` for
access through the cursor, and the same with `of_not_holds` for access that does
not lie inside. `slice_overwrite` says that what was written is read back.
-/

namespace WordMachine

namespace LittleEndian

theorem decode_lt (bytes : List UInt8) : decode bytes < 256 ^ bytes.length := by
  induction bytes with
  | nil => simp [decode]
  | cons byte rest ih =>
      have bound := byte.toNat_lt
      simp only [decode, List.length_cons, Nat.pow_succ]
      omega

/-- Encoding keeps the value modulo the width. -/
theorem decode_encode_mod (width value : Nat) :
    decode (encode width value) = value % 256 ^ width := by
  induction width generalizing value with
  | zero => simp [encode, decode, Nat.mod_one]
  | succ width ih =>
      simp only [encode, decode, ih, UInt8.toNat_ofNat', Nat.pow_succ, Nat.mul_comm (256 ^ width)]
      exact (Nat.mod_mul ..).symm

theorem decode_encode {width value : Nat} (fits : value < 256 ^ width) :
    decode (encode width value) = value := by
  rw [decode_encode_mod, Nat.mod_eq_of_lt fits]

theorem encode_decode (bytes : List UInt8) : encode bytes.length (decode bytes) = bytes := by
  induction bytes with
  | nil => rfl
  | cons byte rest ih =>
      have bound := byte.toNat_lt
      have high : (byte.toNat + 256 * decode rest) / 256 = decode rest := by omega
      have low : UInt8.ofNat (byte.toNat + 256 * decode rest) = byte := by
        apply UInt8.toNat_inj.mp
        simp only [UInt8.toNat_ofNat']
        omega
      simp only [List.length_cons, decode, encode, high, ih, low]

theorem encode_zero (width : Nat) : encode width 0 = List.replicate width 0 := by
  induction width with
  | zero => rfl
  | succ width ih =>
      rw [encode, Nat.zero_div, ih]
      rfl

end LittleEndian

namespace Store

@[simp] theorem length_toList (store : Store) : store.toList.length = store.size := by
  simp [toList, size]

@[simp] theorem toList_zeros (size : Nat) : (zeros size).toList = List.replicate size 0 := by
  simp [toList, zeros]

@[simp] theorem size_zeros (size : Nat) : (zeros size).size = size := by
  simp [Store.size, zeros]

@[simp] theorem size_overwrite (bytes : Array UInt8) (address : Nat) (new : List UInt8) :
    (overwrite bytes address new).size = bytes.size := by
  induction new generalizing bytes address with
  | nil => rfl
  | cons byte rest ih => simp [overwrite, ih]

/-- Overwriting with one piece behind the other is overwriting with both. -/
theorem overwrite_append (bytes : Array UInt8) (address : Nat) (front back : List UInt8) :
    overwrite bytes address (front ++ back) =
      overwrite (overwrite bytes address front) (address + front.length) back := by
  induction front generalizing bytes address with
  | nil => rfl
  | cons byte rest ih =>
      rw [List.cons_append, overwrite, ih, overwrite, List.length_cons, Nat.add_assoc,
        Nat.add_comm 1]

/-- Overwriting inside an array puts the new bytes between what stood before and
behind them. -/
theorem toList_overwrite (bytes : Array UInt8) (address : Nat) (new : List UInt8)
    (inside : address + new.length ≤ bytes.size) :
    (overwrite bytes address new).toList =
      bytes.toList.take address ++ new ++ bytes.toList.drop (address + new.length) := by
  induction new generalizing bytes address with
  | nil => simp [overwrite]
  | cons byte rest ih =>
      rw [List.length_cons] at inside
      have bound : address < bytes.toList.length := by
        rw [Array.length_toList]
        omega
      have before : (bytes.toList.set address byte).take (address + 1) =
          bytes.toList.take address ++ [byte] := by
        have length : (bytes.toList.take address).length = address :=
          List.length_take_of_le (Nat.le_of_lt bound)
        rw [List.set_eq_take_append_cons_drop, if_pos bound, List.take_append, length,
          Nat.add_sub_cancel_left, List.take_of_length_le (by omega)]
        rfl
      have behind : (bytes.toList.set address byte).drop (address + 1 + rest.length) =
          bytes.toList.drop (address + (rest.length + 1)) := by
        rw [List.drop_set_of_lt (by omega)]
        congr 1
        omega
      rw [overwrite, ih _ _ (by rw [Array.size_setIfInBounds]; omega),
        Array.toList_setIfInBounds, before, behind]
      simp

/-- Overwriting the front leaves what is behind it. -/
theorem toList_overwrite_front {bytes : Array UInt8} {new : List UInt8}
    (inside : new.length ≤ bytes.size) :
    (overwrite bytes 0 new).toList = new ++ bytes.toList.drop new.length := by
  rw [← Nat.zero_add new.length] at inside
  rw [toList_overwrite _ _ _ inside, List.take_zero, List.nil_append, Nat.zero_add]

/-- The bytes put somewhere are found there. -/
theorem getElem?_overwrite_of_inside {bytes : Array UInt8} {address place : Nat}
    {new : List UInt8} (fits : address + new.length ≤ bytes.size) (above : address ≤ place)
    (below : place < address + new.length) :
    (overwrite bytes address new)[place]? = new[place - address]? := by
  have length : (bytes.toList.take address).length = address := by
    rw [List.length_take, Array.length_toList]
    omega
  rw [← Array.getElem?_toList, toList_overwrite bytes address new fits, List.append_assoc,
    List.getElem?_append_right (by omega), length, List.getElem?_append_left (by omega)]

/-- Bytes put over as many others leave what stands in front and behind. -/
theorem toList_overwrite_between {bytes : Array UInt8} {front old new rest : List UInt8}
    (split : bytes.toList = front ++ (old ++ rest)) (sameLength : new.length = old.length) :
    (overwrite bytes front.length new).toList = front ++ (new ++ rest) := by
  have inside : front.length + new.length ≤ bytes.size := by
    rw [← Array.length_toList, split, List.length_append, List.length_append, sameLength]
    omega
  have behind : (front ++ (old ++ rest)).drop (front.length + old.length) = rest := by
    rw [← List.drop_drop, List.drop_left, List.drop_left]
  rw [toList_overwrite _ _ _ inside, split, sameLength, behind, List.take_left,
    List.append_assoc]

/-- The `width` bytes at an address. -/
def slice (store : Store) (width address : Nat) : List UInt8 :=
  (store.toList.drop address).take width

theorem length_slice {store : Store} {width address : Nat} (inside : store.Holds address width) :
    (store.slice width address).length = width := by
  simp only [Holds] at inside
  simp only [slice, List.length_take, List.length_drop, length_toList]
  omega

/-- Slices are the same where the bytes are. -/
theorem slice_congr {store other : Store} {width address : Nat}
    (same : ∀ place, address ≤ place → place < address + width →
      store.bytes[place]? = other.bytes[place]?) :
    store.slice width address = other.slice width address := by
  apply List.ext_getElem?
  intro index
  simp only [slice, toList, List.getElem?_take, List.getElem?_drop, Array.getElem?_toList]
  split
  next within => exact same (address + index) (Nat.le_add_right _ _) (Nat.add_lt_add_left within _)
  next => rfl

theorem slice_add {store : Store} {address first second : Nat} :
    store.slice (first + second) address =
      store.slice first address ++ store.slice second (address + first) := by
  rw [slice, slice, slice, List.take_add, List.drop_drop]

theorem load_of_holds {store : Store} {width address : Nat} (inside : store.Holds address width) :
    store.load width address = .ok (LittleEndian.decode (store.slice width address)) := by
  have bytes : (store.bytes.extract address (address + width)).toList =
      store.slice width address := by
    simp [slice, toList]
  rw [load, if_pos inside, bytes]

theorem load_of_not_holds {store : Store} {width address : Nat}
    (outside : ¬ store.Holds address width) :
    store.load width address = .error ⟨address, width, store.size⟩ :=
  if_neg outside

theorem save_of_holds {store : Store} {width address : Nat} (value : Nat)
    (inside : store.Holds address width) :
    save width address value store =
      .ok () ⟨overwrite store.bytes address (LittleEndian.encode width value), store.cursor⟩ :=
  if_pos inside

theorem save_of_not_holds {store : Store} {width address : Nat} (value : Nat)
    (outside : ¬ store.Holds address width) :
    save width address value store = .error ⟨address, width, store.size⟩ store :=
  if_neg outside

theorem seek_of_le {store : Store} {position : Nat} (inside : position ≤ store.size) :
    seek position store = .ok () { store with cursor := position } :=
  if_pos inside

theorem seek_of_not_le {store : Store} {position : Nat} (outside : ¬ position ≤ store.size) :
    seek position store = .error ⟨position, 0, store.size⟩ store :=
  if_neg outside

theorem read_of_holds {store : Store} {width : Nat} (inside : store.Holds store.cursor width) :
    read width store =
      .ok (LittleEndian.decode (store.slice width store.cursor))
        { store with cursor := store.cursor + width } := by
  change (do
    let value ← MonadExcept.ofExcept (store.load width store.cursor)
    advance width
    return value : Access Nat) store = _
  rw [load_of_holds inside]
  rfl

theorem read_of_not_holds {store : Store} {width : Nat}
    (outside : ¬ store.Holds store.cursor width) :
    read width store = .error ⟨store.cursor, width, store.size⟩ store := by
  change (do
    let value ← MonadExcept.ofExcept (store.load width store.cursor)
    advance width
    return value : Access Nat) store = _
  rw [load_of_not_holds outside]
  rfl

theorem write_of_holds {store : Store} {width : Nat} (value : Nat)
    (inside : store.Holds store.cursor width) :
    write width value store =
      .ok () ⟨overwrite store.bytes store.cursor (LittleEndian.encode width value),
        store.cursor + width⟩ := by
  change (do
    save width store.cursor value
    advance width : Access Unit) store = _
  simp only [bind, EStateM.bind, save_of_holds value inside]
  rfl

theorem write_of_not_holds {store : Store} {width : Nat} (value : Nat)
    (outside : ¬ store.Holds store.cursor width) :
    write width value store = .error ⟨store.cursor, width, store.size⟩ store := by
  change (do
    save width store.cursor value
    advance width : Access Unit) store = _
  simp only [bind, EStateM.bind, save_of_not_holds value outside]

/-- The bytes put somewhere are the bytes found there. -/
theorem slice_overwrite (store : Store) (address : Nat) (new : List UInt8)
    (inside : store.Holds address new.length) :
    slice ⟨overwrite store.bytes address new, store.cursor⟩ new.length address = new := by
  have bound : address + new.length ≤ store.bytes.size := inside
  have before : (store.bytes.toList.take address).length = address := by
    rw [List.length_take, Array.length_toList]
    omega
  simp only [slice, toList, toList_overwrite _ _ _ bound, List.append_assoc]
  rw [List.drop_append, before]
  simp [List.drop_eq_nil_of_le (Nat.le_of_eq before)]

end Store

end WordMachine
