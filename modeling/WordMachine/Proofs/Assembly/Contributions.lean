import Mathlib.Data.List.Induction
import WordMachine.Proofs.Assembly.Encoding
import WordMachine.Proofs.Assembly.Texts

/-!
# What statements contribute

A listing is built statement by statement, and every statement adds what it says and no more: a
label, an instruction, a local (`adds_of_add`). So the instruction that a statement makes has as
many instructions in front of it as there are earlier statements that make code
(`codes_of_split`), its operands are read with the names that are known on its line
(`operands_of_instruction?`), and the locals lie one behind the other (`tracks_of_foldlM`).
-/

namespace WordMachine.Assembly

namespace Statement

/-- Whether a statement makes an instruction: one that is written in it, or the push for a
local. -/
def makesCode : Statement → Bool
  | .label _ rest => !rest.isEmpty
  | .localVariable _ | .instruction _ _ => true
  | .blank | .pragma _ | .globals _ _ => false

/-- The operands that are written in a statement. -/
def operands : Statement → List Token
  | .label _ rest => rest.tail
  | .instruction _ operands => operands
  | .blank | .pragma _ | .localVariable _ | .globals _ _ => []

/-- The local that a statement declares. -/
def declaredLocal? : Statement → Option (Token × VariableType)
  | .localVariable [keyword, name] =>
    (VariableType.ofKeyword? keyword).map fun type => (name, type)
  | _ => none

theorem makesCode_of_operands {statement : Statement} {name : Token}
    (used : name ∈ statement.operands) : statement.makesCode = true := by
  cases statement with
  | label label rest =>
      cases rest with
      | nil => cases used
      | cons mnemonic operands => rfl
  | instruction mnemonic operands => rfl
  | localVariable arguments => rfl
  | blank => cases used
  | pragma arguments => cases used
  | globals type names => cases used

/-- Whether a statement has a push or a pop written in it. -/
def usesStack : Statement → Bool
  | .label _ (mnemonic :: _) | .instruction mnemonic _ =>
    (Opcode.ofMnemonic? mnemonic.lowerCase).any Opcode.usesStack
  | .label _ [] | .blank | .pragma _ | .localVariable _ | .globals _ _ => false

/-- The numbers of the lines whose statements make code. -/
def codeLines (statements : List Statement) : List LineNumber :=
  (statements.zipIdx 1).filterMap fun (statement, line) =>
    if statement.makesCode then some (.nth line) else none

theorem codeLines_append (statements : List Statement) (statement : Statement) :
    codeLines (statements ++ [statement]) =
      codeLines statements ++
        if statement.makesCode then [.nth (statements.length + 1)] else [] := by
  rw [codeLines, codeLines, List.zipIdx_append, List.filterMap_append, Nat.add_comm 1]
  cases code : statement.makesCode <;> simp [code]

theorem length_codeLines (statements : List Statement) :
    (codeLines statements).length = statements.countP makesCode := by
  induction statements using List.reverseRecOn with
  | nil => rfl
  | append_singleton statements statement ih =>
      rw [codeLines_append, List.length_append, ih, List.countP_append]
      cases code : statement.makesCode <;> simp [code]

/-- A statement that makes code has its line where its instruction stands among the
instructions. -/
theorem headD_drop_codeLines {before after : List Statement} {statement : Statement}
    (code : statement.makesCode = true) (last : LineNumber) :
    ((codeLines (before ++ statement :: after)).drop (before.countP makesCode)).headD last =
      .nth (before.length + 1) := by
  rw [codeLines, List.zipIdx_append, List.filterMap_append, ← codeLines, ← length_codeLines,
    List.drop_left, List.zipIdx_cons, List.filterMap_cons]
  simp only [code, if_true, List.headD_cons, Nat.add_comm 1]

/-- Every instruction has the statement that makes it. -/
theorem exists_split {statements : List Statement} {index : Nat}
    (inside : index < statements.countP makesCode) :
    ∃ before statement after, statements = before ++ statement :: after ∧
      statement.makesCode = true ∧ before.countP makesCode = index := by
  induction statements generalizing index with
  | nil => cases inside
  | cons first rest ih =>
      by_cases code : first.makesCode = true
      · cases index with
        | zero => exact ⟨[], first, rest, rfl, code, rfl⟩
        | succ index =>
            rw [List.countP_cons_of_pos code] at inside
            obtain ⟨before, statement, after, rfl, itsCode, place⟩ :=
              ih (Nat.lt_of_succ_lt_succ inside)
            exact ⟨first :: before, statement, after, rfl, itsCode, by
              rw [List.countP_cons_of_pos code, place]⟩
      · rw [List.countP_cons_of_neg code] at inside
        obtain ⟨before, statement, after, rfl, itsCode, place⟩ := ih inside
        exact ⟨first :: before, statement, after, rfl, itsCode, by
          rw [List.countP_cons_of_neg code, place]⟩

end Statement

/-- The instruction of an entry, as it is written. -/
def Item.code? : Item → Option Symbolic
  | .label _ => none
  | .code symbolic => some symbolic

namespace Listing

variable {scope : Scope} {listing longer : Listing} {statement : Statement}
  {statements : List Statement}

/-- The instructions of a listing, as they are written. -/
def codes (listing : Listing) : List Symbolic := listing.items.filterMap Item.code?

theorem mem_codes_iff {symbolic : Symbolic} :
    symbolic ∈ listing.codes ↔ Item.code symbolic ∈ listing.items := by
  rw [codes, List.mem_filterMap]
  constructor
  · intro member
    rcases member with ⟨item, member, same⟩
    cases item with
    | label name => cases same
    | code other =>
        cases same
        exact member
  · intro member
    exact ⟨.code symbolic, member, rfl⟩

theorem filterMap_instruction? (address : Token → Word) (items : List Item) :
    items.filterMap (Item.instruction? address) =
      (items.filterMap Item.code?).map (Symbolic.resolve address) := by
  rw [List.map_filterMap]
  apply List.filterMap_congr
  intro item _
  cases item <;> rfl

theorem programWith_eq (address : Token → Word) :
    listing.programWith address = listing.codes.map (Symbolic.resolve address) :=
  filterMap_instruction? address listing.items

/-- The instruction that a statement makes behind a listing. -/
def emitted? (scope : Scope) (listing : Listing) : Statement → Option Symbolic
  | .label _ (mnemonic :: operands) | .instruction mnemonic operands => do
    let opcode ← Opcode.ofMnemonic? mnemonic.lowerCase
    listing.instruction? scope opcode operands
  | .localVariable arguments =>
    (Statement.localVariable arguments).declaredLocal?.map fun slot => pushZero slot.2
  | .label _ [] | .blank | .pragma _ | .globals _ _ => none

/-- What a statement adds to a listing. -/
structure Adds (scope : Scope) (listing : Listing) (statement : Statement) (longer : Listing) :
    Prop where
  items : longer.items =
    listing.items ++ ((statement.declaredLabel?.map Item.label).toList ++
      ((listing.emitted? scope statement).map Item.code).toList)
  emits : (listing.emitted? scope statement).isSome = statement.makesCode
  locals : longer.locals =
    listing.locals ++
      (statement.declaredLocal?.map fun slot => (slot.1, UInt16.ofNat listing.frameSize)).toList
  frameSize : longer.frameSize =
    listing.frameSize + (statement.declaredLocal?.toList.map fun slot => slot.2.size).sum

/-- A written instruction is added behind an entry that leaves the locals as they are. -/
theorem addInstruction_eq_some {mnemonic : Token} {operands : List Token}
    (added : listing.addInstruction scope mnemonic operands = some longer) :
    ∃ symbolic, listing.emitted? scope (.instruction mnemonic operands) = some symbolic ∧
      longer = listing.addItem (.code symbolic) := by
  rcases Option.bind_eq_some_iff.mp added with ⟨opcode, known, later⟩
  rcases Option.bind_eq_some_iff.mp later with ⟨symbolic, spelled, same⟩
  cases same
  refine ⟨symbolic, ?_, rfl⟩
  rw [emitted?, known]
  exact spelled

theorem add_localVariable_eq_some {arguments : List Token}
    (added : listing.add scope (.localVariable arguments) = some longer) :
    ∃ keyword name type, arguments = [keyword, name] ∧
      VariableType.ofKeyword? keyword = some type ∧ longer = listing.addLocal name type := by
  rcases arguments with _ | ⟨keyword, _ | ⟨name, _ | ⟨more, rest⟩⟩⟩
  · cases added
  · cases added
  · rcases Option.map_eq_some_iff.mp added with ⟨type, known, rfl⟩
    exact ⟨keyword, name, type, rfl, known, rfl⟩
  · cases added

theorem adds_of_add (added : listing.add scope statement = some longer) :
    Adds scope listing statement longer := by
  cases statement with
  | blank =>
      cases added
      exact ⟨(List.append_nil _).symm, rfl, (List.append_nil _).symm, rfl⟩
  | pragma arguments =>
      cases added
      exact ⟨(List.append_nil _).symm, rfl, (List.append_nil _).symm, rfl⟩
  | globals type names =>
      cases added
      exact ⟨(List.append_nil _).symm, rfl, (List.append_nil _).symm, rfl⟩
  | localVariable arguments =>
      obtain ⟨keyword, name, type, rfl, known, rfl⟩ := add_localVariable_eq_some added
      have declared : (Statement.localVariable [keyword, name]).declaredLocal? =
          some (name, type) := by
        rw [Statement.declaredLocal?, known]
        rfl
      have emitted : listing.emitted? scope (.localVariable [keyword, name]) =
          some (pushZero type) := by
        rw [emitted?, declared]
        rfl
      refine ⟨?_, ?_, ?_, ?_⟩
      · rw [emitted]
        rfl
      · rw [emitted]
        rfl
      · rw [declared]
        rfl
      · rw [declared]
        rfl
  | instruction mnemonic operands =>
      obtain ⟨symbolic, emitted, rfl⟩ := addInstruction_eq_some added
      refine ⟨?_, ?_, (List.append_nil _).symm, rfl⟩
      · rw [emitted]
        rfl
      · rw [emitted]
        rfl
  | label name rest =>
      cases rest with
      | nil =>
          cases added
          exact ⟨rfl, rfl, (List.append_nil _).symm, rfl⟩
      | cons mnemonic operands =>
          obtain ⟨symbolic, emitted, rfl⟩ := addInstruction_eq_some added
          have sameHere : listing.emitted? scope (.label name (mnemonic :: operands)) =
              some symbolic := emitted
          refine ⟨?_, ?_, (List.append_nil _).symm, rfl⟩
          · rw [sameHere, addItem, addItem, List.append_assoc]
            rfl
          · rw [sameHere]
            rfl

theorem Adds.labelNames (adds : Adds scope listing statement longer) :
    longer.labelNames = listing.labelNames ++ statement.declaredLabel?.toList := by
  rw [Listing.labelNames, adds.items, List.filterMap_append, List.filterMap_append]
  cases statement.declaredLabel? <;> cases listing.emitted? scope statement <;> rfl

theorem Adds.codes (adds : Adds scope listing statement longer) :
    longer.codes = listing.codes ++ (listing.emitted? scope statement).toList := by
  rw [Listing.codes, adds.items, List.filterMap_append, List.filterMap_append]
  cases statement.declaredLabel? <;> cases listing.emitted? scope statement <;> rfl

/-! ## Statement after statement -/

theorem last_of_foldlM
    (built : (statements ++ [statement]).foldlM (add scope) empty = some listing) :
    ∃ earlier : Listing, statements.foldlM (add scope) empty = some earlier ∧
      earlier.add scope statement = some listing := by
  rw [List.foldlM_append] at built
  rcases Option.bind_eq_some_iff.mp built with ⟨earlier, builtEarlier, later⟩
  rcases Option.bind_eq_some_iff.mp later with ⟨longer, added, same⟩
  cases same
  exact ⟨earlier, builtEarlier, added⟩

/-- What a listing has of the statements that it is built of. -/
structure Tracks (statements : List Statement) (listing : Listing) : Prop where
  labelNames : listing.labelNames = statements.filterMap Statement.declaredLabel?
  codes : listing.codes.length = statements.countP Statement.makesCode
  locals : listing.locals = Scope.layout 0 (statements.filterMap Statement.declaredLocal?)
  frameSize : listing.frameSize =
    ((statements.filterMap Statement.declaredLocal?).map fun slot => slot.2.size).sum

theorem tracks_of_foldlM (built : statements.foldlM (add scope) empty = some listing) :
    Tracks statements listing := by
  induction statements using List.reverseRecOn generalizing listing with
  | nil =>
      cases built
      exact ⟨rfl, rfl, rfl, rfl⟩
  | append_singleton statements statement ih =>
      obtain ⟨earlier, builtEarlier, added⟩ := last_of_foldlM built
      have tracks := ih builtEarlier
      have adds := adds_of_add added
      constructor
      · rw [adds.labelNames, tracks.labelNames, List.filterMap_append]
        cases declared : statement.declaredLabel? <;> simp [declared]
      · rw [adds.codes, List.length_append, tracks.codes, List.countP_append,
          List.countP_singleton, ← adds.emits]
        cases earlier.emitted? scope statement <;> rfl
      · rw [adds.locals, tracks.locals, tracks.frameSize, List.filterMap_append]
        cases declared : statement.declaredLocal? with
        | none => simp [declared]
        | some slot =>
            rcases slot with ⟨name, type⟩
            simp [declared, Scope.layout_append]
      · rw [adds.frameSize, tracks.frameSize, List.filterMap_append, List.map_append,
          List.sum_append]
        cases declared : statement.declaredLocal? <;> simp [declared]

/-- A listing keeps what it has while statements are added. -/
theorem prefix_of_foldlM {later : Listing}
    (built : statements.foldlM (add scope) listing = some later) :
    listing.items <+: later.items ∧ listing.locals <+: later.locals := by
  induction statements generalizing listing with
  | nil =>
      cases built
      exact ⟨List.prefix_rfl, List.prefix_rfl⟩
  | cons statement rest ih =>
      rcases Option.bind_eq_some_iff.mp built with ⟨next, added, builtRest⟩
      have adds := adds_of_add added
      obtain ⟨items, locals⟩ := ih builtRest
      constructor
      · refine List.IsPrefix.trans ?_ items
        rw [adds.items]
        exact List.prefix_append _ _
      · refine List.IsPrefix.trans ?_ locals
        rw [adds.locals]
        exact List.prefix_append _ _

/-- The instruction that a statement among others makes, and what is in front of it: a listing of
the statements in front, and in the whole listing their instructions. -/
theorem code_of_split {before after : List Statement}
    (built : (before ++ statement :: after).foldlM (add scope) empty = some listing)
    (code : statement.makesCode = true) :
    ∃ earlier symbolic front rest, before.foldlM (add scope) empty = some earlier ∧
      earlier.emitted? scope statement = some symbolic ∧
      earlier.locals <+: listing.locals ∧
      listing.items = front ++ .code symbolic :: rest ∧
      front.filterMap Item.code? = earlier.codes := by
  rw [List.foldlM_append] at built
  rcases Option.bind_eq_some_iff.mp built with ⟨earlier, builtEarlier, later⟩
  rcases Option.bind_eq_some_iff.mp later with ⟨longer, added, builtRest⟩
  have adds := adds_of_add added
  have emits := adds.emits
  rw [code] at emits
  obtain ⟨symbolic, emitted⟩ := Option.isSome_iff_exists.mp emits
  obtain ⟨⟨rest, items⟩, locals⟩ := prefix_of_foldlM builtRest
  refine ⟨earlier, symbolic, earlier.items ++ (statement.declaredLabel?.map Item.label).toList,
    rest, builtEarlier, emitted, ?_, ?_, ?_⟩
  · refine List.IsPrefix.trans ?_ locals
    rw [adds.locals]
    exact List.prefix_append _ _
  · rw [← items, adds.items, emitted]
    simp
  · rw [List.filterMap_append]
    cases statement.declaredLabel? <;> exact List.append_nil _

/-- The instruction that a statement makes has its place behind those of the statements in front
of it. -/
theorem codes_of_split {before after : List Statement}
    (built : (before ++ statement :: after).foldlM (add scope) empty = some listing)
    (code : statement.makesCode = true) :
    ∃ earlier symbolic, before.foldlM (add scope) empty = some earlier ∧
      earlier.emitted? scope statement = some symbolic ∧
      earlier.locals <+: listing.locals ∧
      listing.codes[before.countP Statement.makesCode]? = some symbolic := by
  obtain ⟨earlier, symbolic, front, rest, builtEarlier, emitted, locals, items, inFront⟩ :=
    code_of_split built code
  refine ⟨earlier, symbolic, builtEarlier, emitted, locals, ?_⟩
  rw [codes, items, List.filterMap_append, inFront, ← (tracks_of_foldlM builtEarlier).codes,
    List.getElem?_append_right (Nat.le_refl _), Nat.sub_self]
  rfl

/-- A program is split at the instruction that a statement makes, behind the program of the
statements in front. -/
theorem programWith_of_split {before after : List Statement} (address : Token → Word)
    (built : (before ++ statement :: after).foldlM (add scope) empty = some listing)
    (code : statement.makesCode = true) :
    ∃ earlier symbolic back, before.foldlM (add scope) empty = some earlier ∧
      earlier.emitted? scope statement = some symbolic ∧
      listing.programWith address =
        earlier.programWith address ++ symbolic.resolve address :: back := by
  obtain ⟨earlier, symbolic, front, rest, builtEarlier, emitted, -, items, inFront⟩ :=
    code_of_split built code
  refine ⟨earlier, symbolic, (rest.filterMap Item.code?).map (Symbolic.resolve address),
    builtEarlier, emitted, ?_⟩
  rw [programWith_eq, programWith_eq, codes, items, List.filterMap_append, inFront,
    List.map_append]
  rfl

/-- Every instruction of a listing is made by one of the statements. -/
theorem mem_codes_of_foldlM (built : statements.foldlM (add scope) empty = some listing)
    {symbolic : Symbolic} (member : symbolic ∈ listing.codes) :
    ∃ statement ∈ statements, ∃ earlier : Listing,
      earlier.emitted? scope statement = some symbolic := by
  induction statements using List.reverseRecOn generalizing listing with
  | nil =>
      cases built
      cases member
  | append_singleton statements statement ih =>
      obtain ⟨earlier, builtEarlier, added⟩ := last_of_foldlM built
      rw [(adds_of_add added).codes, List.mem_append, Option.mem_toList] at member
      rcases member with old | here
      · obtain ⟨other, otherMember, known⟩ := ih builtEarlier old
        exact ⟨other, List.mem_append_left _ otherMember, known⟩
      · exact ⟨statement, List.mem_append_right _ (List.mem_singleton_self _), earlier, here⟩

end Listing

/-! ## Operands -/

namespace Term

/-- Whether an operand is written as a name. -/
def isNamed (term : Term) : Bool :=
  match term.mode with
  | .label | .global | .frame => true
  | .absent | .register | .pointer | .number | .registerPointer => false

end Term

/-- Both operands of an instruction, as they are written. -/
def Symbolic.terms (symbolic : Symbolic) : List Term := [symbolic.dst, symbolic.src]

namespace Listing

variable {scope : Scope} {listing : Listing} {symbolic : Symbolic} {term : Term}

theorem bracketed?_isNamed {inner : List Char} {argument : Argument}
    (read : bracketed? inner = some argument) : (Term.plain argument).isNamed = false := by
  unfold bracketed? at read
  split at read
  next =>
    simp only at read
    split at read
    next number _ =>
      cases read
      rfl
    next =>
      split at read
      next =>
        rcases Option.map_eq_some_iff.mp read with ⟨address, -, rfl⟩
        rfl
      next => cases read
  next => cases read

/-- What is written as a name is looked up as one. -/
theorem named?_of_operand? {token : Token} (read : listing.operand? scope token = some term)
    (named : term.isNamed = true) : listing.named? scope token = some term := by
  unfold operand? at read
  split at read
  next inner =>
    rcases Option.map_eq_some_iff.mp read with ⟨argument, known, rfl⟩
    rw [bracketed?_isNamed known] at named
    cases named
  next =>
    split at read
    next =>
      rcases Option.map_eq_some_iff.mp read with ⟨value, -, rfl⟩
      cases named
    next =>
      split at read
      next =>
        cases read
        cases named
      next => exact read

/-- A good name is no register and is looked up as a name. -/
theorem operand?_of_isName (scope : Scope) (listing : Listing) {name : Token}
    (good : Declarations.isName name = true) :
    Name.register? name = none ∧ listing.operand? scope name = listing.named? scope name := by
  rw [Declarations.isName, Bool.and_eq_true, Name.isIdentifier, Bool.and_eq_true,
    Bool.and_eq_true, Name.isWord, Bool.and_eq_true] at good
  obtain ⟨⟨⟨⟨letter, -⟩, -⟩, noRegister⟩, -⟩ := good
  have unread : Name.register? name = none := by
    rw [Name.register?, if_neg]
    intro isRegister
    rw [isRegister] at noRegister
    cases noRegister
  refine ⟨unread, ?_⟩
  cases name with
  | nil => cases letter
  | cons first rest =>
      have isLetter : first.isAlpha = true := letter
      have noBracket : ∀ inner, first :: rest ≠ '[' :: inner := by
        intro inner same
        rw [(List.cons.inj same).1] at isLetter
        revert isLetter
        decide
      have noNumber : ((first :: rest).head?.any fun char => char.isDigit || char == '-') =
          false := by
        have noSign : (first == '-') = false := by
          rw [beq_eq_false_iff_ne]
          rintro rfl
          revert isLetter
          decide
        simp only [List.head?_cons, Option.any_some, isDigit_of_isAlpha isLetter, noSign]
        rfl
      rw [operand?, unread, noNumber]
      · rfl
      · exact noBracket

/-- What an instruction has of the operands it is spelled with: a named operand is one of them,
and every one of them is an operand, unless it is the remainder register. -/
structure SpelledWith (scope : Scope) (listing : Listing) (operands : List Token)
    (symbolic : Symbolic) : Prop where
  written : ∀ term ∈ symbolic.terms, term.isNamed = true →
    ∃ token ∈ operands, listing.operand? scope token = some term
  read : ∀ token ∈ operands, Name.register? token = none →
    ∃ term ∈ symbolic.terms, listing.operand? scope token = some term

theorem operand?_of_destination? {token : Token}
    (read : listing.destination? scope token = some term) :
    listing.operand? scope token = some term :=
  (Option.filter_eq_some_iff.mp read).1

theorem spelledWith_of_instruction? {opcode : Opcode} {operands : List Token}
    (spelled : listing.instruction? scope opcode operands = some symbolic) :
    SpelledWith scope listing operands symbolic := by
  unfold instruction? at spelled
  split at spelled
  next =>
    cases spelled
    constructor
    · simp [Symbolic.terms, absent, Term.isNamed, Term.mode, Argument.absent]
    · simp
  next dst _ =>
    rcases Option.bind_eq_some_iff.mp spelled with ⟨dstTerm, dstRead, same⟩
    cases same
    have dstRead := operand?_of_destination? dstRead
    constructor
    · simp [Symbolic.terms, absent, Term.isNamed, Term.mode, Argument.absent, dstRead]
    · simp [Symbolic.terms, dstRead]
  next src _ =>
    rcases Option.bind_eq_some_iff.mp spelled with ⟨srcTerm, srcRead, same⟩
    cases same
    constructor
    · simp [Symbolic.terms, absent, Term.isNamed, Term.mode, Argument.absent, srcRead]
    · simp [Symbolic.terms, srcRead]
  next src dst _ =>
    rcases Option.bind_eq_some_iff.mp spelled with ⟨dstTerm, dstRead, later⟩
    rcases Option.bind_eq_some_iff.mp later with ⟨srcTerm, srcRead, same⟩
    cases same
    have dstRead := operand?_of_destination? dstRead
    constructor
    · simp [Symbolic.terms, dstRead, srcRead]
    · simp [Symbolic.terms, dstRead, srcRead]
  next src dst remainder _ =>
    rcases Option.bind_eq_some_iff.mp spelled with ⟨dstTerm, dstRead, later⟩
    rcases Option.bind_eq_some_iff.mp later with ⟨srcTerm, srcRead, last⟩
    rcases Option.bind_eq_some_iff.mp last with ⟨register, known, same⟩
    cases same
    have dstRead := operand?_of_destination? dstRead
    constructor
    · simp [Symbolic.terms, dstRead, srcRead]
    · simp [Symbolic.terms, dstRead, srcRead, known]
  next => cases spelled

theorem spelledWith_of_emitted? {statement : Statement}
    (emitted : listing.emitted? scope statement = some symbolic) :
    SpelledWith scope listing statement.operands symbolic := by
  unfold emitted? at emitted
  split at emitted
  next mnemonic operands =>
    rcases Option.bind_eq_some_iff.mp emitted with ⟨opcode, -, spelled⟩
    exact spelledWith_of_instruction? spelled
  next mnemonic operands =>
    rcases Option.bind_eq_some_iff.mp emitted with ⟨opcode, -, spelled⟩
    exact spelledWith_of_instruction? spelled
  next arguments =>
    rcases Option.map_eq_some_iff.mp emitted with ⟨slot, -, rfl⟩
    constructor
    · simp [Symbolic.terms, pushZero, absent, Term.isNamed, Term.mode, Argument.absent]
    · simp [Statement.operands]
  all_goals cases emitted

/-- A named operand stands for a name among the operands of its statement. -/
theorem named_of_emitted? {statement : Statement}
    (emitted : listing.emitted? scope statement = some symbolic) (member : term ∈ symbolic.terms)
    (named : term.isNamed = true) :
    ∃ name ∈ statement.operands, listing.named? scope name = some term := by
  obtain ⟨name, written, read⟩ := (spelledWith_of_emitted? emitted).written term member named
  exact ⟨name, written, named?_of_operand? read named⟩

/-- The same of an operand that is no label, by what it is encoded as. -/
theorem plain_of_emitted? {statement : Statement} {address : Token → Word} {argument : Argument}
    (emitted : listing.emitted? scope statement = some symbolic) (member : term ∈ symbolic.terms)
    (same : argument = term.resolve address) (noLabel : argument.mode ≠ .label)
    (named : (Term.plain argument).isNamed = true) :
    ∃ name ∈ statement.operands,
      listing.named? scope name = some (.plain ⟨argument.mode, argument.value⟩) := by
  cases term with
  | label name =>
      rw [same] at noLabel
      exact absurd rfl noLabel
  | plain written =>
      rw [show argument = written from same] at named ⊢
      exact named_of_emitted? emitted member named

theorem label_of_named? {name other : Token}
    (read : listing.named? scope name = some (.label other)) :
    other = name ∧ name ∈ scope.labels := by
  unfold named? at read
  split at read
  next known =>
    cases read
    exact ⟨rfl, known⟩
  next =>
    split at read
    next => cases read
    next =>
      rcases Option.map_eq_some_iff.mp read with ⟨offset, -, same⟩
      cases same

theorem global_of_named? {name : Token} {address : Word}
    (read : listing.named? scope name = some (.plain ⟨.global, address⟩)) :
    (name, address) ∈ scope.globals := by
  unfold named? at read
  split at read
  next => cases read
  next =>
    split at read
    next found =>
      cases read
      obtain ⟨front, back, split, -⟩ := List.lookup_eq_some_iff.mp found
      rw [split]
      exact List.mem_append_right _ List.mem_cons_self
    next =>
      rcases Option.map_eq_some_iff.mp read with ⟨offset, -, same⟩
      cases same

theorem local_of_named? {name : Token} {offset : Word}
    (read : listing.named? scope name = some (.plain ⟨.frame, offset⟩)) :
    (name, offset) ∈ listing.locals := by
  unfold named? at read
  split at read
  next => cases read
  next =>
    split at read
    next => cases read
    next =>
      rcases Option.map_eq_some_iff.mp read with ⟨found, known, same⟩
      cases same
      obtain ⟨front, back, split, -⟩ := List.lookup_eq_some_iff.mp known
      rw [split]
      exact List.mem_append_right _ List.mem_cons_self

/-- A label operand is a label that is known, among the operands of its statement. -/
theorem label_of_emitted? {statement : Statement} {name : Token}
    (emitted : listing.emitted? scope statement = some symbolic)
    (member : .label name ∈ symbolic.terms) :
    name ∈ statement.operands ∧ name ∈ scope.labels := by
  obtain ⟨token, written, read⟩ := named_of_emitted? emitted member rfl
  obtain ⟨rfl, known⟩ := label_of_named? read
  exact ⟨written, known⟩

/-- A label that is known and among the operands of a statement is an operand of its
instruction. -/
theorem label_mem_terms {statement : Statement} {name : Token}
    (emitted : listing.emitted? scope statement = some symbolic)
    (good : Declarations.isName name = true) (known : name ∈ scope.labels)
    (written : name ∈ statement.operands) : .label name ∈ symbolic.terms := by
  obtain ⟨noRegister, asName⟩ := operand?_of_isName scope listing good
  obtain ⟨term, member, read⟩ :=
    (spelledWith_of_emitted? emitted).read name written noRegister
  rw [asName, named?, if_pos known] at read
  cases read
  exact member

end Listing

end WordMachine.Assembly
