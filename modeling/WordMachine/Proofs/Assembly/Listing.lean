import WordMachine.Assembly.Declarations
import WordMachine.Proofs.Decoding

/-!
# Listings

A listing is what a source says, read in one walk over its lines: the labels and the
instructions in order, the operands of an instruction already read, but a label
operand still the label's name. The address of a label is where the code in front of
its declaration ends, so a listing determines the code of its source without a table
of labels and without patching: in `Listing.program` every operand has its address.
-/

namespace WordMachine.Assembly

/-- Tokens are the same if they are written alike. -/
instance : LawfulBEq Token := inferInstanceAs (LawfulBEq (List Char))

/-- The statement that a text spells, unless it has too many tokens. -/
def Statement.ofText? (text : List Char) : Option Statement :=
  (Line.tokens? text).map Statement.ofTokens

namespace Source

/-- The statement on a line, if the line is text and has not too many tokens. -/
def statement? (line : List UInt8) : Option Statement :=
  (Line.text? line).bind Statement.ofText?

/-- Whether every line has a statement. -/
def Legible (source : Source) : Prop := ∀ line ∈ source.lines, (statement? line).isSome

/-- The statements of a source, in the order of its lines. -/
def statements (source : Source) : List Statement := source.lines.filterMap statement?

/-- Whether both readings of a source find the same text. -/
def Steady (source : Source) : Prop :=
  (source.revised.getD source.content).drop source.position =
    source.content.drop source.position

theorem steady_ofString (text : String) : (ofString text).Steady := rfl

end Source

namespace Statement

/-- The label that a statement declares. -/
def declaredLabel? : Statement → Option Token
  | .label name _ => some name
  | _ => none

/-- The globals that a statement declares. -/
def declaredGlobals : Statement → List (Token × VariableType)
  | .globals type names => names.map fun name => (name, type)
  | _ => []

/-- The value that a statement gives to the setting of a name. -/
def setting? (setting : String) : Statement → Option UInt64
  | .pragma [name, value] => if name.spells setting then Numeral.size? value else none
  | _ => none

end Statement

/-- The value of a setting after all statements: the last one given, or the default. -/
def finalSetting (setting : String) (default : UInt64) (statements : List Statement) : UInt64 :=
  (statements.filterMap (Statement.setting? setting)).getLast?.getD default

/-- What names stand for that are known on every line. -/
structure Scope where
  labels : List Token
  /-- Every global with its data address. -/
  globals : List (Token × Word)

namespace Scope

/-- Globals one behind the other, the first one at `address`. -/
def layout : (address : Nat) → List (Token × VariableType) → List (Token × Word)
  | _, [] => []
  | address, (name, type) :: rest =>
    (name, UInt16.ofNat address) :: layout (address + type.size) rest

/-- What the declarations among the statements make of names. -/
def ofStatements (statements : List Statement) : Scope where
  labels := statements.filterMap Statement.declaredLabel?
  globals := layout Declarations.firstAddress.toNat (statements.flatMap Statement.declaredGlobals)

end Scope

/-- An operand as it is written: a label by name, any other as it is encoded. -/
inductive Term where
  | label (name : Token)
  | plain (argument : Argument)
  deriving DecidableEq, Repr

namespace Term

def mode : Term → Mode
  | .label _ => .label
  | .plain argument => argument.mode

/-- The operand once labels have addresses. -/
def resolve (address : Token → Word) : Term → Argument
  | .label name => ⟨.label, address name⟩
  | .plain argument => argument

@[simp] theorem mode_resolve (term : Term) (address : Token → Word) :
    (term.resolve address).mode = term.mode := by
  cases term <;> rfl

end Term

/-- An instruction as it is written. -/
structure Symbolic where
  opcode : Opcode
  dst : Term
  src : Term
  trailing : Option UInt8
  deriving DecidableEq, Repr

namespace Symbolic

/-- The instruction once labels have addresses. -/
def resolve (address : Token → Word) (symbolic : Symbolic) : Instruction where
  opcode := symbolic.opcode
  dst := symbolic.dst.resolve address
  src := symbolic.src.resolve address
  trailing := symbolic.trailing

/-- The length of the encoding, which no address changes. -/
def size (symbolic : Symbolic) : Nat := (symbolic.resolve fun _ => 0).size

theorem size_pos (symbolic : Symbolic) : 0 < symbolic.size :=
  Instruction.size_pos _

theorem size_resolve (symbolic : Symbolic) (address : Token → Word) :
    (symbolic.resolve address).size = symbolic.size := by
  simp only [size, Instruction.size, Instruction.encode, Instruction.encodeOperands, resolve]
  by_cases bare : symbolic.opcode.shape = .bare
  · simp [bare]
  · simp [bare]

end Symbolic

/-- One entry of a listing. -/
inductive Item where
  | label (name : Token)
  | code (symbolic : Symbolic)
  deriving DecidableEq, Repr

namespace Item

/-- The number of bytes an entry takes up. -/
def size : Item → Nat
  | .label _ => 0
  | .code symbolic => symbolic.size

/-- The name of a label. -/
def label? : Item → Option Token
  | .label name => some name
  | .code _ => none

/-- The instruction of an entry once labels have addresses. -/
def instruction? (address : Token → Word) : Item → Option Instruction
  | .label _ => none
  | .code symbolic => some (symbolic.resolve address)

end Item

/-- Labels and instructions in order, and the locals declared among them. -/
structure Listing where
  items : List Item
  /-- Every local with its offset from the frame base. -/
  locals : List (Token × Word)
  /-- The offset of the next local. -/
  frameSize : Nat

namespace Listing

def empty : Listing := ⟨[], [], 0⟩

/-- The number of bytes of all entries. -/
def size (items : List Item) : Nat := (items.map Item.size).sum

/-- The address of a label: where the entries in front of its declaration end. -/
def address (listing : Listing) (name : Token) : Nat :=
  Header.length + size (listing.items.takeWhile fun item => item ≠ .label name)

/-- The instructions once labels have addresses. -/
def programWith (address : Token → Word) (listing : Listing) : Program :=
  listing.items.filterMap (Item.instruction? address)

/-- The instructions, with the address of every label in its place. -/
def program (listing : Listing) : Program :=
  listing.programWith fun name => UInt16.ofNat (listing.address name)

/-- The names of the labels, in order. -/
def labelNames (listing : Listing) : List Token := listing.items.filterMap Item.label?

/-- The address of a label, if it is declared in the listing. -/
def placed? (listing : Listing) (name : Token) : Option Word :=
  if name ∈ listing.labelNames then some (UInt16.ofNat (listing.address name)) else none

/-- An address in brackets: a register that holds it, or a number. -/
def bracketed? (inner : List Char) : Option Argument :=
  if inner.getLast? = some ']' then
    let token := inner.dropLast
    match Name.register? token with
    | some number => some ⟨.registerPointer, number.toUInt16⟩
    | none =>
      if token.head?.any Char.isDigit then
        (Numeral.word? token).map fun address => ⟨.pointer, address⟩
      else
        none
  else
    none

/-- What a name means: a label, else a global, else a local declared before. -/
def named? (scope : Scope) (listing : Listing) (name : Token) : Option Term :=
  if name ∈ scope.labels then
    some (.label name)
  else
    match scope.globals.lookup name with
    | some address => some (.plain ⟨.global, address⟩)
    | none => (listing.locals.lookup name).map fun offset => .plain ⟨.frame, offset⟩

/-- What a token means as an operand. -/
def operand? (scope : Scope) (listing : Listing) (token : Token) : Option Term :=
  match token with
  | '[' :: inner => (bracketed? inner).map .plain
  | _ =>
    if token.head?.any fun char => char.isDigit || char == '-' then
      (Numeral.word? token).map fun value => .plain ⟨.number, value⟩
    else
      match Name.register? token with
      | some number => some (.plain ⟨.register, number.toUInt16⟩)
      | none => listing.named? scope token

/-- What a token means as a destination: an operand, but no number. -/
def destination? (scope : Scope) (listing : Listing) (token : Token) : Option Term :=
  (listing.operand? scope token).filter fun term => term.mode ≠ .number

/-- The operand an instruction does not have. -/
def absent : Term := .plain .absent

/-- The instruction that an opcode and its operands spell, source before
destination. -/
def instruction? (scope : Scope) (listing : Listing) (opcode : Opcode)
    (operands : List Token) : Option Symbolic := do
  match opcode.shape, operands with
  | .bare, [] => return ⟨opcode, absent, absent, none⟩
  | .dst, [dst] => return ⟨opcode, ← listing.destination? scope dst, absent, none⟩
  | .srcSized, [src] => return ⟨opcode, absent, ← listing.operand? scope src, some 2⟩
  | .srcDst, [src, dst] =>
    return ⟨opcode, ← listing.destination? scope dst, ← listing.operand? scope src, none⟩
  | .srcDstRemainder, [src, dst, remainder] =>
    return ⟨opcode, ← listing.destination? scope dst, ← listing.operand? scope src,
      some (← Name.register? remainder)⟩
  | _, _ => none

/-- The push of a zero that makes room for a local. -/
def pushZero (type : VariableType) : Symbolic where
  opcode := .push
  dst := absent
  src := .plain ⟨.number, 0⟩
  trailing := some (UInt8.ofNat type.size)

def addItem (listing : Listing) (item : Item) : Listing :=
  { listing with items := listing.items ++ [item] }

def addInstruction (scope : Scope) (listing : Listing) (mnemonic : Token)
    (operands : List Token) : Option Listing := do
  let opcode ← Opcode.ofMnemonic? mnemonic.lowerCase
  let symbolic ← listing.instruction? scope opcode operands
  return listing.addItem (.code symbolic)

/-- Gives a local the next offset and pushes a zero for it. -/
def addLocal (listing : Listing) (name : Token) (type : VariableType) : Listing where
  items := listing.items ++ [.code (pushZero type)]
  locals := listing.locals ++ [(name, UInt16.ofNat listing.frameSize)]
  frameSize := listing.frameSize + type.size

/-- Adds what a statement contributes to the code. -/
def add (scope : Scope) (listing : Listing) : Statement → Option Listing
  | .blank | .pragma _ | .globals _ _ => some listing
  | .label name [] => some (listing.addItem (.label name))
  | .label name (mnemonic :: operands) =>
    (listing.addItem (.label name)).addInstruction scope mnemonic operands
  | .localVariable [keyword, name] =>
    (VariableType.ofKeyword? keyword).map (listing.addLocal name)
  | .localVariable _ => none
  | .instruction mnemonic operands => listing.addInstruction scope mnemonic operands

/-- The listing of statements whose names have a meaning on every line. -/
def ofStatements? (statements : List Statement) : Option Listing :=
  statements.foldlM (add (.ofStatements statements)) empty

/-! ## Addresses -/

section

variable {listing : Listing} {name : Token}

theorem mem_labelNames_iff : name ∈ listing.labelNames ↔ Item.label name ∈ listing.items := by
  rw [labelNames, List.mem_filterMap]
  constructor
  · intro member
    rcases member with ⟨item, member, named⟩
    cases item with
    | label other =>
        cases named
        exact member
    | code symbolic => cases named
  · intro member
    exact ⟨.label name, member, rfl⟩

@[simp] theorem size_cons (item : Item) (rest : List Item) :
    size (item :: rest) = item.size + size rest := by
  simp [size]

@[simp] theorem size_append (front back : List Item) :
    size (front ++ back) = size front + size back := by
  simp [size]

/-- A label stands where the entries in front of its first declaration end. -/
theorem address_of_split {front back : List Item}
    (split : listing.items = front ++ .label name :: back) (first : Item.label name ∉ front) :
    listing.address name = Header.length + size front := by
  have others : ∀ item ∈ front, decide (item ≠ .label name) = true := by
    intro item member
    rw [decide_eq_true_eq]
    intro same
    cases same
    exact first member
  rw [address, split, List.takeWhile_append_of_pos others]
  simp

/-- An entry added behind a label does not move it. -/
theorem address_of_items_append {longer : Listing} {more : List Item}
    (extended : longer.items = listing.items ++ more) (member : name ∈ listing.labelNames) :
    longer.address name = listing.address name := by
  obtain ⟨front, back, split, first⟩ :=
    List.eq_append_cons_of_mem (mem_labelNames_iff.mp member)
  have longerSplit : longer.items = front ++ .label name :: (back ++ more) := by
    rw [extended, split, List.append_assoc]
    rfl
  rw [address_of_split split first, address_of_split longerSplit first]

/-- A new label stands at the end. -/
theorem address_addItem_label (fresh : name ∉ listing.labelNames) :
    (listing.addItem (.label name)).address name = Header.length + size listing.items :=
  address_of_split rfl fun member => fresh (mem_labelNames_iff.mpr member)

@[simp] theorem labelNames_addItem_label :
    (listing.addItem (.label name)).labelNames = listing.labelNames ++ [name] := by
  simp [labelNames, addItem, Item.label?]

@[simp] theorem labelNames_addItem_code {symbolic : Symbolic} :
    (listing.addItem (.code symbolic)).labelNames = listing.labelNames := by
  simp [labelNames, addItem, Item.label?]

theorem placed?_addItem_code {symbolic : Symbolic} :
    (listing.addItem (.code symbolic)).placed? = listing.placed? := by
  funext name
  rw [placed?, placed?, labelNames_addItem_code]
  by_cases member : name ∈ listing.labelNames
  · rw [if_pos member, if_pos member, address_of_items_append rfl member]
  · rw [if_neg member, if_neg member]

/-- Declaring a label places it at the end and leaves all others in their places. -/
theorem placed?_addItem_label (fresh : name ∉ listing.labelNames) (other : Token) :
    (listing.addItem (.label name)).placed? other =
      if other = name then some (UInt16.ofNat (Header.length + size listing.items))
      else listing.placed? other := by
  simp only [placed?, labelNames_addItem_label, List.mem_append, List.mem_singleton]
  by_cases same : other = name
  · subst same
    rw [if_pos (Or.inr rfl), if_pos rfl, address_addItem_label fresh]
  · rw [if_neg same]
    by_cases member : other ∈ listing.labelNames
    · rw [if_pos (Or.inl member), if_pos member, address_of_items_append rfl member]
    · rw [if_neg member, if_neg (not_or.mpr ⟨member, same⟩)]

/-! ## Code -/

@[simp] theorem programWith_addItem_label (address : Token → Word) :
    (listing.addItem (.label name)).programWith address = listing.programWith address := by
  simp [programWith, addItem, Item.instruction?]

@[simp] theorem programWith_addItem_code (address : Token → Word) (symbolic : Symbolic) :
    (listing.addItem (.code symbolic)).programWith address =
      listing.programWith address ++ [symbolic.resolve address] := by
  simp [programWith, addItem, Item.instruction?]

/-- Addresses do not change the length of code. -/
theorem size_filterMap_instruction? (address : Token → Word) (items : List Item) :
    Program.size (items.filterMap (Item.instruction? address)) = size items := by
  induction items with
  | nil => rfl
  | cons item rest ih =>
      rw [size_cons, List.filterMap_cons]
      cases item with
      | label name => simpa [Item.instruction?, Item.size] using ih
      | code symbolic => simpa [Item.instruction?, Item.size, Symbolic.size_resolve] using ih

theorem size_programWith (address : Token → Word) :
    (listing.programWith address).size = size listing.items :=
  size_filterMap_instruction? address listing.items

/-! ## Labels and instructions -/

/-- A label stands where an instruction begins, or where the program ends. -/
theorem address_mem_starts (member : name ∈ listing.labelNames) :
    listing.address name ∈ listing.program.starts Header.length ∨
      listing.address name = Header.length + listing.program.size := by
  obtain ⟨front, back, split, first⟩ :=
    List.eq_append_cons_of_mem (mem_labelNames_iff.mp member)
  rw [address_of_split split first, program, Program.mem_starts_iff, programWith]
  generalize (fun name => UInt16.ofNat (listing.address name)) = address
  rw [split, List.filterMap_append, List.filterMap_cons]
  cases behind : back.filterMap (Item.instruction? address) with
  | nil =>
      right
      simp [Item.instruction?, size_filterMap_instruction?]
  | cons instruction rest =>
      left
      refine ⟨front.filterMap (Item.instruction? address), instruction, rest, ?_, ?_⟩
      · simp [Item.instruction?]
      · rw [size_filterMap_instruction?]

/-- Labels behind some entries have addresses behind these entries, in the order of
their declarations. -/
theorem addresses_behind {front rest : List Item} (split : listing.items = front ++ rest)
    (nodup : listing.labelNames.Nodup) :
    ((rest.filterMap Item.label?).Pairwise fun first second =>
        listing.address first ≤ listing.address second) ∧
      ∀ name ∈ rest.filterMap Item.label?, Header.length + size front ≤ listing.address name := by
  induction rest generalizing front with
  | nil => exact ⟨.nil, fun name member => (List.not_mem_nil member).elim⟩
  | cons item rest ih =>
      have moved : listing.items = front ++ [item] ++ rest := by
        rw [split, List.append_assoc]
        rfl
      obtain ⟨sorted, bounds⟩ := ih moved
      rw [size_append] at bounds
      cases item with
      | code symbolic =>
          refine ⟨sorted, ?_⟩
          intro name member
          have bound := bounds name member
          omega
      | label name =>
          have first : Item.label name ∉ front := by
            intro earlier
            rw [labelNames, split, List.filterMap_append, List.filterMap_cons] at nodup
            have twice : name ∈ front.filterMap Item.label? :=
              List.mem_filterMap.mpr ⟨_, earlier, rfl⟩
            exact (List.nodup_append.mp nodup).2.2 name twice name List.mem_cons_self rfl
          have here := address_of_split split first
          have behind : ∀ other ∈ rest.filterMap Item.label?,
              listing.address name ≤ listing.address other := by
            intro other member
            have bound := bounds other member
            omega
          constructor
          · exact List.pairwise_cons.mpr ⟨behind, sorted⟩
          · intro other member
            rcases List.mem_cons.mp member with rfl | later
            · exact Nat.le_of_eq here.symm
            · exact Nat.le_trans (Nat.le_of_eq here.symm) (behind other later)

/-- Labels declared one behind the other have addresses in this order. -/
theorem addresses_sorted (nodup : listing.labelNames.Nodup) :
    listing.labelNames.Pairwise fun first second =>
      listing.address first ≤ listing.address second :=
  (addresses_behind (List.nil_append _).symm nodup).1

end

end Listing

end WordMachine.Assembly
