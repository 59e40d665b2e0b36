import WordMachine.Assembly.Draft
import WordMachine.Proofs.Assembly.Operands

/-!
# Linking puts addresses into place

In front of linking the code has a position where a label operand stands, behind it the
label's address, and nothing else has changed. Since addresses and positions are of one
width, the walk over the instructions sees the same boundaries that the encoding had
(`instruction_links` for one instruction, `instructions_link` for all of them).
-/

namespace WordMachine

namespace Assembly

namespace Linking

variable {scope : Scope} {labels : Array Label} {address : Token → Word}

/-- Whether the table has the address of the label that an operand names, if it names one. -/
def Settled (scope : Scope) (labels : Array Label) (address : Token → Word) : Term → Prop
  | .label name => labels[(scope.index name).toNat]?.bind Label.address = some (address name)
  | .plain _ => True

/-- Whether an operand names a label that has no address in the table. -/
def Stranded (scope : Scope) (labels : Array Label) : Term → Prop
  | .label name => labels[(scope.index name).toNat]?.bind Label.address = none
  | .plain _ => False

/-- Resolving an operand puts the field of the resolved operand into its place. -/
theorem resolve_links (line : LineNumber) (fetched : Fetched) {term : Term}
    (sound : term.Sound scope)
    (settled : Settled scope labels address term) {store : Store} {front rest : List UInt8}
    (bytes : store.toList = front ++ ((term.resolve scope.index).encode ++ rest)) :
    ∃ final, resolve labels line fetched ⟨term.resolve scope.index, front.length⟩ store =
        .ok () final ∧
      final.toList = front ++ ((term.resolve address).encode ++ rest) ∧
      final.cursor = store.cursor := by
  cases term with
  | plain argument =>
      refine ⟨store, ?_, bytes, rfl⟩
      have other : ((Term.plain argument).resolve scope.index).mode ≠ .label := sound.1
      simp only [resolve, if_neg other]
      rfl
  | label name =>
      have known : labelAddress? labels ⟨(Term.label name).resolve scope.index, front.length⟩ =
          some (address name) := settled
      have inside : store.Holds front.length 2 := by
        rw [Store.Holds, ← Store.length_toList, bytes, List.length_append, List.length_append,
          Argument.length_encode]
        exact Nat.add_le_add_left (Nat.le_add_right 2 _) _
      have saved := Store.save_of_holds (address name).toNat inside
      refine ⟨⟨Store.overwrite store.bytes front.length
        (LittleEndian.encode 2 (address name).toNat), store.cursor⟩, ?_, ?_, rfl⟩
      · have isLabel : ((Term.label name).resolve scope.index).mode = .label := rfl
        simp only [resolve, if_pos isLabel, known, Store.setWordAt, EStateM.adaptExcept, saved]
      · apply Store.toList_overwrite_between bytes
        rw [LittleEndian.length_encode, Argument.length_encode]
        rfl

/-- The same for an operand that the shape may lack. -/
theorem resolveIf_links (line : LineNumber) (fetched : Fetched) {carried : Bool} {term : Term}
    (sound : if carried then term.Sound scope else term = Listing.absent)
    (settled : Settled scope labels address term) {store : Store} {front rest : List UInt8}
    (bytes : store.toList = front ++ ((term.resolve scope.index).encode ++ rest)) :
    ∃ final,
      (if carried then some (⟨term.resolve scope.index, front.length⟩ : Operand)
        else none).toList.forM (resolve labels line fetched) store = .ok () final ∧
      final.toList = front ++ ((term.resolve address).encode ++ rest) ∧
      final.cursor = store.cursor := by
  cases carried with
  | true =>
      obtain ⟨final, outcome, finalBytes, cursor⟩ :=
        resolve_links line fetched sound settled bytes
      exact ⟨final, bind_of_ok outcome, finalBytes, cursor⟩
  | false =>
      have absent : term = Listing.absent := sound
      subst absent
      exact ⟨store, rfl, bytes, rfl⟩

theorem forM_append_of_ok {ε σ α : Type} {step : α → EStateM ε σ PUnit} {first second : List α}
    {start middle final : σ} (front : first.forM step start = .ok ⟨⟩ middle)
    (back : second.forM step middle = .ok ⟨⟩ final) :
    (first ++ second).forM step start = .ok ⟨⟩ final := by
  rw [List.forM_eq_forM, List.forM_append]
  exact (bind_of_ok front).trans back

/-- The fields of both operands stand behind the opcode and the mode byte. -/
theorem encode_resolve (address : Token → Word) {symbolic : Symbolic}
    (operands : symbolic.opcode.shape ≠ .bare) :
    (symbolic.resolve address).encode =
      [symbolic.opcode.toByte, Mode.pack symbolic.dst.mode symbolic.src.mode] ++
        ((symbolic.dst.resolve address).encode ++
          ((symbolic.src.resolve address).encode ++ symbolic.trailing.toList)) := by
  have sameShape : (symbolic.resolve address).opcode.shape ≠ .bare := operands
  rw [Instruction.encode, Instruction.encodeOperands, if_neg sameShape]
  simp [Symbolic.resolve]

theorem encode_resolve_of_bare (address : Token → Word) {symbolic : Symbolic}
    (bare : symbolic.opcode.shape = .bare) :
    (symbolic.resolve address).encode = [symbolic.opcode.toByte] := by
  have sameShape : (symbolic.resolve address).opcode.shape = .bare := bare
  rw [Instruction.encode, Instruction.encodeOperands, if_pos sameShape]
  rfl

/-- Where an instruction stands, the field of its destination stands behind two bytes. -/
theorem fields_of_encode {symbolic : Symbolic} (operands : symbolic.opcode.shape ≠ .bare)
    {store : Store} {front rest : List UInt8}
    (bytes : store.toList = front ++ ((symbolic.resolve scope.index).encode ++ rest)) :
    store.toList =
      (front ++ [symbolic.opcode.toByte, Mode.pack symbolic.dst.mode symbolic.src.mode]) ++
        ((symbolic.dst.resolve scope.index).encode ++
          ((symbolic.src.resolve scope.index).encode ++
            (symbolic.trailing.toList ++ rest))) := by
  rw [bytes, encode_resolve _ operands]
  simp

/-- Resolving the operands of an instruction changes their fields, one after the other. -/
theorem operands_link (line : LineNumber) {symbolic : Symbolic} (sound : symbolic.Sound scope)
    (settled : Settled scope labels address symbolic.dst ∧
      Settled scope labels address symbolic.src)
    (operands : symbolic.opcode.shape ≠ .bare) {fetched : Fetched} {store : Store}
    {front rest : List UInt8}
    (located : fetched = (symbolic.resolve scope.index).locate front.length)
    (bytes : store.toList = front ++ ((symbolic.resolve scope.index).encode ++ rest)) :
    ∃ final, (fetched.dst.toList ++ fetched.src.toList).forM (resolve labels line fetched) store =
        .ok () final ∧
      final.toList = front ++ ((symbolic.resolve address).encode ++ rest) ∧
      final.cursor = store.cursor := by
  obtain ⟨middle, dstLinked, middleBytes, middleCursor⟩ :=
    resolveIf_links line fetched sound.dst_sound settled.1 (fields_of_encode operands bytes)
  have srcBytes : middle.toList =
      (front ++ [symbolic.opcode.toByte, Mode.pack symbolic.dst.mode symbolic.src.mode] ++
        (symbolic.dst.resolve address).encode) ++
        ((symbolic.src.resolve scope.index).encode ++ (symbolic.trailing.toList ++ rest)) := by
    rw [middleBytes, List.append_assoc _ (symbolic.dst.resolve address).encode]
  obtain ⟨final, srcLinked, finalBytes, finalCursor⟩ :=
    resolveIf_links line fetched sound.src settled.2 srcBytes
  refine ⟨final, ?_, ?_, finalCursor.trans middleCursor⟩
  · rw [List.length_append] at dstLinked
    rw [List.length_append, List.length_append, Argument.length_encode,
      Term.mode_resolve] at srcLinked
    subst located
    apply forM_append_of_ok dstLinked
    simpa [Instruction.locate, Symbolic.resolve] using srcLinked
  · rw [finalBytes, encode_resolve _ operands]
    simp

/-- Linking fetches the instruction as it was emitted. -/
theorem fetch_links (line : LineNumber) {symbolic : Symbolic} (sound : symbolic.Sound scope)
    {store : Store} {front rest : List UInt8}
    (bytes : store.toList = front ++ ((symbolic.resolve scope.index).encode ++ rest))
    (cursor : store.cursor = front.length) :
    (Fetch.instruction.adaptExcept fun fault => (⟨some line, .undecodable fault⟩ : Error)) store =
      .ok ((symbolic.resolve scope.index).locate front.length) (store.skip symbolic.size) := by
  have ahead : store.Ahead (symbolic.resolve scope.index).encode := by
    rw [Store.Ahead, bytes, cursor, List.drop_left]
    exact List.prefix_append _ _
  have fetch := Fetch.instruction_of_ahead (sound.wellFormed scope.index) ahead
  rw [cursor, Symbolic.size_resolve] at fetch
  simp only [EStateM.adaptExcept, fetch]

/-- Linking one instruction puts the resolved instruction into its place. -/
theorem instruction_links (line : LineNumber) {symbolic : Symbolic} (sound : symbolic.Sound scope)
    (settled : Settled scope labels address symbolic.dst ∧
      Settled scope labels address symbolic.src)
    {store : Store} {front rest : List UInt8}
    (bytes : store.toList = front ++ ((symbolic.resolve scope.index).encode ++ rest))
    (cursor : store.cursor = front.length) :
    ∃ final, Linking.instruction labels line store = .ok () final ∧
      final.toList = front ++ ((symbolic.resolve address).encode ++ rest) ∧
      final.cursor = front.length + symbolic.size := by
  have onward : (store.skip symbolic.size).cursor = front.length + symbolic.size := by
    rw [Store.cursor_skip, cursor]
  rw [Linking.instruction, bind_of_ok (fetch_links line sound bytes cursor)]
  by_cases bare : symbolic.opcode.shape = .bare
  · refine ⟨store.skip symbolic.size, ?_, ?_, onward⟩
    · simp only [Instruction.locate, Symbolic.resolve, bare, Shape.hasDst, Shape.hasSrc]
      rfl
    · rw [encode_resolve_of_bare _ bare] at bytes ⊢
      exact bytes
  · obtain ⟨final, linked, finalBytes, same⟩ :=
      operands_link line sound settled bare rfl ((Store.toList_skip store _).trans bytes)
    exact ⟨final, linked, finalBytes, same.trans onward⟩

/-- Where code stands ahead, there is an instruction to link. -/
theorem instructions_of_code (lastLine : LineNumber) (count : Nat) (lines : List LineNumber)
    {symbolic : Symbolic}
    {store : Store} {front rest : List UInt8}
    (bytes : store.toList = front ++ ((symbolic.resolve scope.index).encode ++ rest))
    (cursor : store.cursor = front.length) :
    instructions labels lastLine (count + 1) lines store =
      (do
        Linking.instruction labels (lines.headD lastLine)
        instructions labels lastLine count lines.tail) store := by
  have positive := symbolic.size_pos
  have more : store.cursor < store.size := by
    rw [cursor, ← Store.length_toList, bytes, List.length_append, List.length_append,
      ← Instruction.size, Symbolic.size_resolve]
    omega
  rw [instructions, get_bind, if_pos more]

/-- Linking all instructions puts the program with addresses into the place of the one
with positions. -/
theorem instructions_link (lastLine : LineNumber) (count : Nat) (lines : List LineNumber)
    {items : List Item}
    (sound : ∀ symbolic, Item.code symbolic ∈ items → symbolic.Sound scope)
    (settled : ∀ symbolic, Item.code symbolic ∈ items →
      Settled scope labels address symbolic.dst ∧ Settled scope labels address symbolic.src)
    {store : Store} {front : List UInt8}
    (bytes : store.toList =
      front ++ Program.encode (items.filterMap (Item.instruction? scope.index)))
    (cursor : store.cursor = front.length) (enough : Listing.size items ≤ count) :
    ∃ final, instructions labels lastLine count lines store = .ok () final ∧
      final.toList = front ++ Program.encode (items.filterMap (Item.instruction? address)) ∧
      final.cursor = front.length + Listing.size items := by
  induction items generalizing store front count lines with
  | nil =>
      have atEnd : store.cursor = store.size := by
        rw [cursor, ← Store.length_toList, bytes, List.length_append]
        rfl
      refine ⟨store, ?_, bytes, cursor⟩
      cases count with
      | zero => rfl
      | succ count =>
          rw [instructions, get_bind, if_neg (by omega)]
          rfl
  | cons item rest ih =>
      have restSound : ∀ symbolic, Item.code symbolic ∈ rest → symbolic.Sound scope :=
        fun symbolic member => sound symbolic (List.mem_cons_of_mem _ member)
      have restSettled : ∀ symbolic, Item.code symbolic ∈ rest →
          Settled scope labels address symbolic.dst ∧ Settled scope labels address symbolic.src :=
        fun symbolic member => settled symbolic (List.mem_cons_of_mem _ member)
      cases item with
      | label name =>
          rw [List.filterMap_cons] at bytes ⊢
          rw [Listing.size_cons, Item.size, Nat.zero_add] at enough ⊢
          exact ih count lines restSound restSettled bytes cursor enough
      | code symbolic =>
          rw [List.filterMap_cons] at bytes ⊢
          rw [Listing.size_cons, Item.size] at enough ⊢
          simp only [Item.instruction?, Program.encode_cons] at bytes ⊢
          have positive := symbolic.size_pos
          obtain ⟨middle, linked, middleBytes, middleCursor⟩ := instruction_links
            (lines.headD lastLine) (sound symbolic List.mem_cons_self)
            (settled symbolic List.mem_cons_self) bytes cursor
          rw [← List.append_assoc] at middleBytes
          have length : (front ++ (symbolic.resolve address).encode).length =
              front.length + symbolic.size := by
            rw [List.length_append, ← Instruction.size, Symbolic.size_resolve]
          cases count with
          | zero => omega
          | succ count =>
              obtain ⟨final, restLinked, finalBytes, finalCursor⟩ := ih count lines.tail restSound
                restSettled middleBytes (middleCursor.trans length.symm) (by omega)
              refine ⟨final, ?_, ?_, ?_⟩
              · rw [instructions_of_code _ _ _ bytes cursor, bind_of_ok linked]
                exact restLinked
              · rw [finalBytes, List.append_assoc]
              · rw [finalCursor, length, Nat.add_assoc]

/-! ## Labels without an address -/

theorem resolve_strands (line : LineNumber) (fetched : Fetched) {term : Term}
    (stranded : Stranded scope labels term) (offset : Nat) (store : Store) :
    resolve labels line fetched ⟨term.resolve scope.index, offset⟩ store =
      .error ⟨some line, .unresolvedLabel⟩ store := by
  cases term with
  | plain argument => exact stranded.elim
  | label name =>
      have isLabel : ((Term.label name).resolve scope.index).mode = .label := rfl
      have unknown : labelAddress? labels ⟨(Term.label name).resolve scope.index, offset⟩ = none :=
        stranded
      simp only [resolve, if_pos isLabel, unknown]
      rfl

theorem resolveIf_strands (line : LineNumber) (fetched : Fetched) {carried : Bool} {term : Term}
    (sound : if carried then term.Sound scope else term = Listing.absent)
    (stranded : Stranded scope labels term) (offset : Nat) (store : Store) :
    (if carried then some (⟨term.resolve scope.index, offset⟩ : Operand)
      else none).toList.forM (resolve labels line fetched) store =
        .error ⟨some line, .unresolvedLabel⟩ store := by
  cases carried with
  | true => exact bind_of_error (resolve_strands line fetched stranded offset store)
  | false =>
      have absent : term = Listing.absent := sound
      rw [absent] at stranded
      exact stranded.elim

/-- Whether resolving the operands of an instruction, the destination first, comes to one that
names a label without an address. -/
def Strands (scope : Scope) (labels : Array Label) (address : Token → Word)
    (symbolic : Symbolic) : Prop :=
  Stranded scope labels symbolic.dst ∨
    Settled scope labels address symbolic.dst ∧ Stranded scope labels symbolic.src

/-- An instruction of which an operand names a label without an address is not linked, and the
error has its line. -/
theorem instruction_strands (line : LineNumber) {symbolic : Symbolic} (sound : symbolic.Sound scope)
    (strands : Strands scope labels address symbolic) {store : Store} {front rest : List UInt8}
    (bytes : store.toList = front ++ ((symbolic.resolve scope.index).encode ++ rest))
    (cursor : store.cursor = front.length) :
    ∃ final, Linking.instruction labels line store =
      .error ⟨some line, .unresolvedLabel⟩ final := by
  rw [Linking.instruction, bind_of_ok (fetch_links line sound bytes cursor), List.forM_eq_forM,
    List.forM_append]
  rcases strands with dst | ⟨dst, src⟩
  · exact ⟨_, bind_of_error (resolveIf_strands line _ sound.dst_sound dst _ _)⟩
  · have operands : symbolic.opcode.shape ≠ .bare := by
      intro bare
      have absent := sound.src
      rw [bare] at absent
      rw [show symbolic.src = Listing.absent from absent] at src
      exact src
    obtain ⟨middle, dstLinked, -⟩ :=
      resolveIf_links line ((symbolic.resolve scope.index).locate front.length) sound.dst_sound dst
        ((Store.toList_skip store symbolic.size).trans (fields_of_encode operands bytes))
    rw [List.length_append] at dstLinked
    exact ⟨_, (bind_of_ok dstLinked).trans (resolveIf_strands line _ sound.src src _ _)⟩

/-- Linking ends at the first instruction of which an operand names a label without an address,
with the line that stands in the row of lines where the instruction stands in the code. -/
theorem instructions_strand (lastLine : LineNumber) (count : Nat) (lines : List LineNumber)
    {before after : List Item}
    {symbolic : Symbolic}
    (sound : ∀ other, Item.code other ∈ before ++ .code symbolic :: after → other.Sound scope)
    (settled : ∀ other, Item.code other ∈ before →
      Settled scope labels address other.dst ∧ Settled scope labels address other.src)
    (strands : Strands scope labels address symbolic) {store : Store} {front : List UInt8}
    (bytes : store.toList = front ++
      Program.encode ((before ++ .code symbolic :: after).filterMap
        (Item.instruction? scope.index)))
    (cursor : store.cursor = front.length)
    (enough : Listing.size (before ++ .code symbolic :: after) ≤ count) :
    ∃ final, instructions labels lastLine count lines store =
      .error ⟨some ((lines.drop (before.filterMap (Item.instruction? scope.index)).length).headD
        lastLine), .unresolvedLabel⟩ final := by
  induction before generalizing store front count lines with
  | nil =>
      have here := sound symbolic List.mem_cons_self
      simp only [List.nil_append, List.filterMap_cons, Item.instruction?, Program.encode_cons]
        at bytes
      obtain ⟨final, failed⟩ :=
        instruction_strands (lines.headD lastLine) here strands bytes cursor
      have positive := symbolic.size_pos
      rw [List.nil_append, Listing.size_cons, Item.size] at enough
      cases count with
      | zero => omega
      | succ count =>
          refine ⟨final, ?_⟩
          rw [instructions_of_code _ _ _ bytes cursor, bind_of_error failed]
          rfl
  | cons item rest ih =>
      have restSound : ∀ other, Item.code other ∈ rest ++ .code symbolic :: after →
          other.Sound scope :=
        fun other member => sound other (List.mem_cons_of_mem _ member)
      have restSettled : ∀ other, Item.code other ∈ rest →
          Settled scope labels address other.dst ∧ Settled scope labels address other.src :=
        fun other member => settled other (List.mem_cons_of_mem _ member)
      rw [List.cons_append, List.filterMap_cons] at bytes
      rw [List.cons_append, Listing.size_cons] at enough
      rw [List.filterMap_cons]
      cases item with
      | label name =>
          rw [Item.size, Nat.zero_add] at enough
          exact ih count lines restSound restSettled bytes cursor enough
      | code other =>
          rw [Item.size] at enough
          simp only [Item.instruction?, Program.encode_cons] at bytes ⊢
          have positive := other.size_pos
          obtain ⟨middle, linked, middleBytes, middleCursor⟩ := instruction_links
            (lines.headD lastLine) (sound other List.mem_cons_self)
            (settled other List.mem_cons_self) bytes cursor
          rw [← List.append_assoc] at middleBytes
          have length : (front ++ (other.resolve address).encode).length =
              front.length + other.size := by
            rw [List.length_append, ← Instruction.size, Symbolic.size_resolve]
          cases count with
          | zero => omega
          | succ count =>
              obtain ⟨final, failed⟩ := ih count lines.tail restSound restSettled middleBytes
                (middleCursor.trans length.symm) (by omega)
              refine ⟨final, ?_⟩
              rw [instructions_of_code _ _ _ bytes cursor, bind_of_ok linked, failed,
                List.drop_tail, List.length_cons]

end Linking

end Assembly

end WordMachine
