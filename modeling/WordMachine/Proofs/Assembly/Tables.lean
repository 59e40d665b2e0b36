import Mathlib.Data.List.Nodup
import WordMachine.Proofs.Assembly.Listing

/-!
# Tables of declarations

The first reading of a source only ever adds to its tables. No name is in a table
twice, and globals lie one behind the other from the first address on
(`tidy_ofTexts`). Tables found up to a line are the beginning of the tables found in
the end (`extends_foldl_addLine`), and once no address is left no global is added.
-/

namespace WordMachine.Assembly

theorem findLabel?_eq_idxOf? (labels : Array Label) (name : Token) :
    findLabel? labels name = (labels.toList.map Label.name).idxOf? name := by
  cases labels
  simp [findLabel?, List.idxOf?, Function.comp_def]

theorem findGlobal?_eq_idxOf? (globals : Array Global) (name : Token) :
    findGlobal? globals name = (globals.toList.map Global.name).idxOf? name := by
  cases globals
  simp [findGlobal?, List.idxOf?, Function.comp_def]

theorem mem_of_idxOf? {names : List Token} {name : Token} {index : Nat}
    (found : names.idxOf? name = some index) : name ∈ names :=
  List.isSome_idxOf?.mp (Option.isSome_of_eq_some found)

/-- In a list without repeated keys, changing the entry at a key's position changes
exactly the entry with that key. -/
theorem modify_eq_map_of_idxOf? {α κ : Type} [BEq κ] [LawfulBEq κ] [DecidableEq κ]
    {entries : List α} {key : α → κ} {wanted : κ} {index : Nat} (change : α → α)
    (nodup : (entries.map key).Nodup)
    (found : (entries.map key).idxOf? wanted = some index) :
    entries.modify index change =
      entries.map fun entry => if key entry = wanted then change entry else entry := by
  obtain ⟨inside, here, -⟩ := List.idxOf?_eq_some_iff.mp found
  apply List.ext_getElem
  · simp
  intro place placeInside _
  rw [List.length_modify] at placeInside
  have keyInside : place < (entries.map key).length := by
    rwa [List.length_map]
  have keyHere : (entries.map key)[place] = key entries[place] := List.getElem_map key
  have keys : key entries[place] = wanted ↔ index = place := by
    rw [← keyHere, ← here, nodup.getElem_inj_iff, eq_comm]
  rw [List.getElem_modify, List.getElem_map]
  simp only [keys]

theorem nodup_append_singleton {α : Type} {entries : List α} {entry : α}
    (nodup : entries.Nodup) (fresh : entry ∉ entries) : (entries ++ [entry]).Nodup := by
  rw [List.nodup_append_comm]
  exact List.nodup_cons.mpr ⟨fresh, nodup⟩

namespace Declarations

/-- The names of the labels, in the order of the table. -/
def labelNames (declarations : Declarations) : List Token :=
  declarations.labels.toList.map Label.name

/-- The names of the globals, in the order of the table. -/
def globalNames (declarations : Declarations) : List Token :=
  declarations.globals.toList.map Global.name

/-- The names with the types of the globals, in the order of the table. -/
def globalTypes (declarations : Declarations) : List (Token × VariableType) :=
  declarations.globals.toList.map fun global => (global.name, global.type)

/-- What the tables make of names. -/
def scope (declarations : Declarations) : Scope where
  labels := declarations.labelNames
  globals := declarations.globals.toList.map fun global => (global.name, global.address)

/-- What lines of text declare. -/
def ofTexts (texts : List (List Char)) : Declarations := texts.foldl addLine empty

/-! ## What is added -/

/-- The declarations with one more label, on the current line. -/
def pushLabel (declarations : Declarations) (name : Token) : Declarations :=
  { declarations with labels := declarations.labels.push ⟨name, declarations.line, none⟩ }

/-- The declarations with one more global at an address. -/
def pushGlobal (declarations : Declarations) (name : Token) (address : Word)
    (type : VariableType) : Declarations :=
  { declarations with
    globals := declarations.globals.push ⟨name, address, type, false⟩
    nextAddress := addressAfter? address type.size }

@[simp] theorem labelNames_pushLabel (declarations : Declarations) (name : Token) :
    (declarations.pushLabel name).labelNames = declarations.labelNames ++ [name] := by
  simp [labelNames, pushLabel]

@[simp] theorem globalNames_pushGlobal (declarations : Declarations) (name : Token)
    (address : Word) (type : VariableType) :
    (declarations.pushGlobal name address type).globalNames =
      declarations.globalNames ++ [name] := by
  simp [globalNames, pushGlobal]

@[simp] theorem globalTypes_pushGlobal (declarations : Declarations) (name : Token)
    (address : Word) (type : VariableType) :
    (declarations.pushGlobal name address type).globalTypes =
      declarations.globalTypes ++ [(name, type)] := by
  simp [globalTypes, pushGlobal]

@[simp] theorem scope_globals_pushGlobal (declarations : Declarations) (name : Token)
    (address : Word) (type : VariableType) :
    (declarations.pushGlobal name address type).scope.globals =
      declarations.scope.globals ++ [(name, address)] := by
  simp [scope, pushGlobal]

theorem addLabel_of_fresh {declarations : Declarations} {name : Token} (good : isName name)
    (fresh : name ∉ declarations.labelNames) :
    declarations.addLabel name = declarations.pushLabel name := by
  have unknown : findLabel? declarations.labels name = none := by
    rw [findLabel?_eq_idxOf?]
    exact List.idxOf?_eq_none_iff.mpr fresh
  rw [addLabel, good, unknown]
  rfl

theorem addLabel_of_not_fresh {declarations : Declarations} {name : Token}
    (old : ¬ (isName name = true ∧ name ∉ declarations.labelNames)) :
    declarations.addLabel name = declarations := by
  rw [addLabel, if_neg]
  intro accepted
  rw [Bool.and_eq_true, findLabel?_eq_idxOf?, Option.isNone_iff_eq_none,
    List.idxOf?_eq_none_iff] at accepted
  exact old accepted

theorem addGlobal_of_fresh {declarations : Declarations} {name : Token} {type : VariableType}
    {address : Word} (good : isName name) (fresh : name ∉ declarations.globalNames)
    (next : declarations.nextAddress = some address) :
    addGlobal type declarations name = declarations.pushGlobal name address type := by
  have unknown : findGlobal? declarations.globals name = none := by
    rw [findGlobal?_eq_idxOf?]
    exact List.idxOf?_eq_none_iff.mpr fresh
  rw [addGlobal, good, unknown, next]
  rfl

theorem addGlobal_of_not_fresh {declarations : Declarations} {name : Token}
    {type : VariableType}
    (old : ¬ (isName name = true ∧ name ∉ declarations.globalNames ∧
      declarations.nextAddress.isSome)) :
    addGlobal type declarations name = declarations := by
  rw [addGlobal]
  split
  next accepted =>
    rw [Bool.and_eq_true, findGlobal?_eq_idxOf?, Option.isNone_iff_eq_none,
      List.idxOf?_eq_none_iff] at accepted
    cases next : declarations.nextAddress with
    | none => rfl
    | some address =>
        exact absurd ⟨accepted.1, accepted.2, by rw [next]; rfl⟩ old
  next => rfl

/-! ## Tables only grow -/

/-- `later` has everything of `earlier` in its place, and no further global if there
was no address left. -/
structure Extends (earlier later : Declarations) : Prop where
  labels : earlier.labels.toList <+: later.labels.toList
  globals : earlier.globals.toList <+: later.globals.toList
  exhausted : earlier.nextAddress = none →
    later.globals = earlier.globals ∧ later.nextAddress = none

theorem Extends.refl (declarations : Declarations) : Extends declarations declarations :=
  ⟨List.prefix_rfl, List.prefix_rfl, fun none => ⟨rfl, none⟩⟩

theorem Extends.trans {first second third : Declarations} (front : Extends first second)
    (back : Extends second third) : Extends first third where
  labels := front.labels.trans back.labels
  globals := front.globals.trans back.globals
  exhausted := by
    intro none
    obtain ⟨same, stillNone⟩ := front.exhausted none
    rw [← same]
    exact back.exhausted stillNone

theorem extends_addLabel (declarations : Declarations) (name : Token) :
    Extends declarations (declarations.addLabel name) := by
  by_cases fresh : isName name = true ∧ name ∉ declarations.labelNames
  · rw [addLabel_of_fresh fresh.1 fresh.2]
    exact ⟨by simp [pushLabel], List.prefix_rfl, fun none => ⟨rfl, none⟩⟩
  · rw [addLabel_of_not_fresh fresh]
    exact .refl declarations

theorem extends_addGlobal (type : VariableType) (declarations : Declarations) (name : Token) :
    Extends declarations (addGlobal type declarations name) := by
  by_cases fresh : isName name = true ∧ name ∉ declarations.globalNames ∧
    declarations.nextAddress.isSome
  · rcases fresh with ⟨good, new, some⟩
    obtain ⟨address, next⟩ := Option.isSome_iff_exists.mp some
    rw [addGlobal_of_fresh good new next]
    refine ⟨List.prefix_rfl, by simp [pushGlobal], fun none => ?_⟩
    rw [next] at none
    cases none
  · rw [addGlobal_of_not_fresh fresh]
    exact .refl declarations

theorem extends_foldl {α : Type} {add : Declarations → α → Declarations}
    (grows : ∀ declarations entry, Extends declarations (add declarations entry))
    (entries : List α) (declarations : Declarations) :
    Extends declarations (entries.foldl add declarations) := by
  induction entries generalizing declarations with
  | nil => exact .refl declarations
  | cons entry rest ih => exact (grows declarations entry).trans (ih _)

theorem extends_addStatement (declarations : Declarations) (statement : Statement) :
    Extends declarations (declarations.addStatement statement) := by
  cases statement with
  | label name rest => exact extends_addLabel declarations name
  | globals type names => exact extends_foldl (extends_addGlobal type) names declarations
  | blank => exact .refl declarations
  | pragma => exact .refl declarations
  | localVariable => exact .refl declarations
  | instruction => exact .refl declarations

/-- The declarations with the number of the next line. -/
def nextLine (declarations : Declarations) : Declarations :=
  { declarations with line := declarations.line + 1 }

theorem addLine_eq (declarations : Declarations) (text : List Char) :
    declarations.addLine text =
      match Statement.ofText? text with
      | none => declarations.nextLine
      | some statement => declarations.nextLine.addStatement statement := by
  rw [addLine, Statement.ofText?]
  cases Line.tokens? text <;> rfl

theorem extends_addLine (declarations : Declarations) (text : List Char) :
    Extends declarations (declarations.addLine text) := by
  have sameTables : Extends declarations declarations.nextLine :=
    ⟨List.prefix_rfl, List.prefix_rfl, fun none => ⟨rfl, none⟩⟩
  rw [addLine_eq]
  split
  · exact sameTables
  · exact sameTables.trans (extends_addStatement _ _)

theorem extends_foldl_addLine (declarations : Declarations) (texts : List (List Char)) :
    Extends declarations (texts.foldl addLine declarations) :=
  extends_foldl extends_addLine texts declarations

theorem line_foldl_addGlobal (type : VariableType) (names : List Token)
    (declarations : Declarations) :
    (names.foldl (addGlobal type) declarations).line = declarations.line ∧
      (names.foldl (addGlobal type) declarations).labels = declarations.labels := by
  induction names generalizing declarations with
  | nil => exact ⟨rfl, rfl⟩
  | cons name rest ih =>
      have first : (addGlobal type declarations name).line = declarations.line ∧
          (addGlobal type declarations name).labels = declarations.labels := by
        rw [addGlobal]
        split
        · split
          · exact ⟨rfl, rfl⟩
          · exact ⟨rfl, rfl⟩
        · exact ⟨rfl, rfl⟩
      rw [List.foldl_cons]
      exact ⟨(ih _).1.trans first.1, (ih _).2.trans first.2⟩

end Declarations

/-- Whether ranges, each by its start and its length, lie one behind the other from `start`
on. -/
def Contiguous : (start : Nat) → List (Nat × Nat) → Prop
  | _, [] => True
  | start, (place, length) :: rest => place = start ∧ Contiguous (start + length) rest

/-- A range begins behind the lengths of those in front of it. -/
theorem Contiguous.place_eq {start index place length : Nat} {ranges : List (Nat × Nat)}
    (contiguous : Contiguous start ranges) (entry : ranges[index]? = some (place, length)) :
    place = start + ((ranges.take index).map Prod.snd).sum := by
  induction ranges generalizing start index with
  | nil => cases entry
  | cons first rest ih =>
      rcases first with ⟨firstPlace, firstLength⟩
      cases index with
      | zero =>
          cases entry
          exact contiguous.1
      | succ index =>
          rw [List.take_succ_cons, List.map_cons, List.sum_cons, ← Nat.add_assoc]
          exact ih contiguous.2 entry

theorem Contiguous.append {start place : Nat} {ranges : List (Nat × Nat)}
    (contiguous : Contiguous start ranges) (behind : place = start + (ranges.map Prod.snd).sum)
    (length : Nat) : Contiguous start (ranges ++ [(place, length)]) := by
  induction ranges generalizing start with
  | nil => exact ⟨behind, trivial⟩
  | cons first rest ih =>
      rcases first with ⟨firstPlace, firstLength⟩
      refine ⟨contiguous.1, ih contiguous.2 ?_⟩
      rw [behind, List.map_cons, List.sum_cons, Nat.add_assoc]

namespace Declarations

/-! ## Tables are tidy -/

/-- The data address behind all globals. -/
def endOfGlobals (declarations : Declarations) : Nat :=
  firstAddress.toNat + (declarations.globalTypes.map fun global => global.2.size).sum

/-- Names are good and told apart, globals lie one behind the other, and nothing is known yet
of what the second reading finds. -/
structure Tidy (declarations : Declarations) : Prop where
  labelNames : declarations.labelNames.Nodup
  goodLabels : ∀ name ∈ declarations.labelNames, isName name = true
  globalNames : declarations.globalNames.Nodup
  layout : declarations.scope.globals =
    Scope.layout firstAddress.toNat declarations.globalTypes
  contiguous : Contiguous firstAddress.toNat
    (declarations.globals.toList.map fun global => (global.address.toNat, global.type.size))
  next : ∀ address, declarations.nextAddress = some address →
    address.toNat = declarations.endOfGlobals
  below : ∀ global ∈ declarations.globals.toList,
    global.endAddress ≤ declarations.endOfGlobals
  apart : declarations.globals.toList.Pairwise fun first second =>
    first.endAddress ≤ second.address.toNat
  unplaced : ∀ label ∈ declarations.labels.toList, label.address = none
  undeclared : ∀ global ∈ declarations.globals.toList, global.declared = false

theorem tidy_empty : Tidy empty where
  labelNames := .nil
  goodLabels := by
    intro name member
    cases member
  globalNames := .nil
  layout := rfl
  contiguous := trivial
  next := by
    intro address next
    cases next
    rfl
  below := by
    intro global member
    cases member
  apart := .nil
  unplaced := by
    intro label member
    cases member
  undeclared := by
    intro global member
    cases member

theorem tidy_addLabel {declarations : Declarations} (tidy : Tidy declarations) (name : Token) :
    Tidy (declarations.addLabel name) := by
  by_cases fresh : isName name = true ∧ name ∉ declarations.labelNames
  · rcases fresh with ⟨good, new⟩
    rw [addLabel_of_fresh good new]
    refine { tidy with labelNames := ?_, goodLabels := ?_, unplaced := ?_ }
    · rw [labelNames_pushLabel]
      exact nodup_append_singleton tidy.labelNames new
    · intro other member
      rw [labelNames_pushLabel, List.mem_append, List.mem_singleton] at member
      rcases member with old | rfl
      · exact tidy.goodLabels other old
      · exact good
    · intro label member
      rw [pushLabel, Array.toList_push, List.mem_append, List.mem_singleton] at member
      rcases member with old | rfl
      · exact tidy.unplaced label old
      · rfl
  · rw [addLabel_of_not_fresh fresh]
    exact tidy

end Declarations

theorem Scope.layout_append (address : Nat) (front : List (Token × VariableType))
    (name : Token) (type : VariableType) :
    layout address (front ++ [(name, type)]) =
      layout address front ++
        [(name, UInt16.ofNat (address + (front.map fun global => global.2.size).sum))] := by
  induction front generalizing address with
  | nil => rfl
  | cons first rest ih =>
      simp only [List.cons_append, layout, ih, List.map_cons, List.sum_cons, Nat.add_assoc]

namespace Declarations

theorem tidy_addGlobal {declarations : Declarations} (tidy : Tidy declarations)
    (type : VariableType) (name : Token) : Tidy (addGlobal type declarations name) := by
  by_cases fresh : isName name = true ∧ name ∉ declarations.globalNames ∧
    declarations.nextAddress.isSome
  · rcases fresh with ⟨good, new, some⟩
    obtain ⟨address, next⟩ := Option.isSome_iff_exists.mp some
    rw [addGlobal_of_fresh good new next]
    have place := tidy.next address next
    have later : (declarations.pushGlobal name address type).endOfGlobals =
        address.toNat + type.size := by
      rw [endOfGlobals, globalTypes_pushGlobal, place, endOfGlobals]
      simp [Nat.add_assoc]
    refine
      { tidy with
        globalNames := ?_
        layout := ?_
        contiguous := ?_
        next := ?_
        below := ?_
        apart := ?_
        undeclared := ?_ }
    · rw [globalNames_pushGlobal]
      exact nodup_append_singleton tidy.globalNames new
    · rw [scope_globals_pushGlobal, globalTypes_pushGlobal, Scope.layout_append, tidy.layout,
        ← endOfGlobals, ← place, UInt16.ofNat_toNat]
    · rw [pushGlobal, Array.toList_push, List.map_append]
      refine tidy.contiguous.append ?_ _
      rw [place, endOfGlobals, globalTypes, List.map_map, List.map_map]
      rfl
    · intro behind fits
      rw [later]
      simp only [pushGlobal, addressAfter?] at fits
      split at fits
      next bound =>
        cases fits
        exact UInt16.toNat_ofNat_of_lt bound
      next => cases fits
    · intro global member
      rw [later]
      rw [pushGlobal, Array.toList_push, List.mem_append, List.mem_singleton] at member
      rcases member with old | rfl
      · have bound := tidy.below global old
        omega
      · exact Nat.le_refl _
    · rw [pushGlobal, Array.toList_push]
      refine List.pairwise_append.mpr ⟨tidy.apart, List.pairwise_singleton _ _, ?_⟩
      intro global member other last
      rw [List.mem_singleton.mp last, place]
      exact tidy.below global member
    · intro global member
      rw [pushGlobal, Array.toList_push, List.mem_append, List.mem_singleton] at member
      rcases member with old | rfl
      · exact tidy.undeclared global old
      · rfl
  · rw [addGlobal_of_not_fresh fresh]
    exact tidy

theorem tidy_foldl {α : Type} {add : Declarations → α → Declarations}
    (keeps : ∀ declarations entry, Tidy declarations → Tidy (add declarations entry))
    (entries : List α) (declarations : Declarations) (tidy : Tidy declarations) :
    Tidy (entries.foldl add declarations) := by
  induction entries generalizing declarations with
  | nil => exact tidy
  | cons entry rest ih => exact ih _ (keeps declarations entry tidy)

theorem tidy_addStatement {declarations : Declarations} (tidy : Tidy declarations)
    (statement : Statement) : Tidy (declarations.addStatement statement) := by
  cases statement with
  | label name rest => exact tidy_addLabel tidy name
  | globals type names =>
      exact tidy_foldl (fun _ name tidy => tidy_addGlobal tidy type name) names _ tidy
  | blank => exact tidy
  | pragma => exact tidy
  | localVariable => exact tidy
  | instruction => exact tidy

theorem tidy_addLine {declarations : Declarations} (tidy : Tidy declarations)
    (text : List Char) : Tidy (declarations.addLine text) := by
  have tidyNext : Tidy declarations.nextLine := { tidy with }
  rw [addLine_eq]
  split
  · exact tidyNext
  · exact tidy_addStatement tidyNext _

theorem tidy_ofTexts (texts : List (List Char)) : Tidy (ofTexts texts) :=
  tidy_foldl (fun _ text tidy => tidy_addLine tidy text) texts empty tidy_empty

end Declarations

end WordMachine.Assembly
