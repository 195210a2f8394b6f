import ClassFormat.Listing
import ClassFormat.Proofs.Attribute.Reading
import ClassFormat.Proofs.Class.FirstCode
import ClassFormat.Proofs.Instruction.Prefixes
import ClassFormat.Proofs.Pool.Describing
import Mathlib.Data.List.Forall2
import Mathlib.Tactic.IntervalCases

namespace ClassFormat

namespace Instruction

/-- Decoding looks nothing up in a pool. -/
theorem cause_ne_unresolved {code : Bytes} {failure : Failure} (h : decode code = .error failure)
    (u : Unresolved) : failure.cause ≠ .unresolved u := by
  by_cases hlt : code.length ≤ 0xffffffff
  · obtain ⟨done, xs, d, inner, d', -, -, -, hd, hread, rfl⟩ := decode_error hlt h
    obtain ⟨opcode, operands, hrest⟩ := List.exists_cons_of_ne_nil hd
    obtain ⟨-, hunreadable⟩ := read_error hrest hread
    change inner.cause ≠ .unresolved u
    intro hcause
    cases hkind : kindOf opcode with
    | none =>
      have hunknown := hunreadable.unknown.2 hkind
      rw [hcause] at hunknown
      cases hunknown
    | some kind =>
      -- what is wrong with operands is a flaw of theirs, or that bytes are missing
      rcases hunreadable.known hkind with ⟨flaw, hflaw, -⟩ | ⟨⟨_, _, _, hshort⟩, -⟩
      · rw [hcause] at hflaw
        cases hflaw
      · rw [hcause] at hshort
        cases hshort
  · rw [decode, if_neg (by omega)] at h
    cases h
    intro hcause
    cases hcause

theorem Stream.kindOf_isSome {offset : Nat} {afterWide : Bool} {code : Bytes}
    {xs : List Instruction} (h : Stream Decoded offset afterWide code xs) :
    ∀ x ∈ xs, (kindOf x.opcode).isSome := by
  induction xs generalizing offset afterWide code with
  | nil => simp
  | cons x xs ih =>
    obtain ⟨first, rest, -, ⟨-, ⟨kind, hkind, -⟩, -⟩, hrest⟩ := h
    rw [List.forall_mem_cons, hkind]
    exact ⟨rfl, ih hrest⟩

theorem exists_mnemonic {opcode : UInt8} (h : (kindOf opcode).isSome) :
    ∃ mnemonic, mnemonicOf opcode = some mnemonic := by
  obtain ⟨range, hrange, hopcode⟩ := List.find?_isSome.1 (by simpa [kindOf] using h)
  -- every range of known opcodes ends inside the table of mnemonics
  have hlast : ∀ range ∈ opcodeRanges, range.last.toNat < mnemonics.size := by decide +kernel
  have hle : opcode.toNat ≤ range.last.toNat := by
    simp only [OpcodeRange.contains, Bool.and_eq_true, decide_eq_true_eq] at hopcode
    exact UInt8.le_iff_toNat_le.1 hopcode.2
  exact ⟨_, Array.getElem?_eq_getElem (Nat.lt_of_le_of_lt hle (hlast range hrange))⟩

end Instruction

/-- The first `Code` attribute of a member does not decode. -/
def Member.FailsToDecode (member : Member) (failure : Failure) : Prop :=
  ∃ i info code, FirstCode member.attributes i info code ∧
    Instruction.decode code.code = .error failure

theorem Member.FailsToDecode.cause_ne {member : Member} {failure : Failure}
    (h : member.FailsToDecode failure) (u : Unresolved) : failure.cause ≠ .unresolved u := by
  obtain ⟨i, info, code, -, herror⟩ := h
  exact Instruction.cause_ne_unresolved herror u

namespace Listing

open Pool

/-- What the kinds of entries are called. -/
inductive Called : Entry.Kind → String → Prop
  | utf8 : Called .utf8 "Utf8"
  | integer : Called .integer "Integer"
  | float : Called .float "Float"
  | long : Called .long "Long"
  | double : Called .double "Double"
  | classRef : Called .classRef "Class"
  | stringRef : Called .stringRef "String"
  | field : Called (.memberRef .field) "Fieldref"
  | method : Called (.memberRef .method) "Methodref"
  | interfaceMethod : Called (.memberRef .interfaceMethod) "InterfaceMethodref"
  | nameAndType : Called .nameAndType "NameAndType"
  | methodHandle : Called .methodHandle "MethodHandle"
  | methodType : Called .methodType "MethodType"
  | constant : Called (.dynamic .constant) "Dynamic"
  | call : Called (.dynamic .call) "InvokeDynamic"
  | moduleRef : Called .moduleRef "Module"
  | packageRef : Called .packageRef "Package"

/-- Why an index does not resolve. There are no words for handles that refer to each other without
end. -/
inductive ReasonText : Unresolved.Reason → String → Prop
  | zero : ReasonText .zero "index zero is never a valid entry"
  | upperHalf : ReasonText .upperHalf "upper half of a `Long` or `Double` entry"
  | outOfRange (slots : Nat) :
    ReasonText (.outOfRange slots) ("out of range, the pool has " ++ toString slots ++ " slots")
  | wrongKind (expected : String) {got : Entry.Kind} {word : String} (h : Called got word) :
    ReasonText (.wrongKind expected got)
      ("expected a `" ++ expected ++ "` entry, got `" ++ word ++ "`")

/-- A text, or in angle brackets the index that does not resolve to one, and why. -/
inductive Shown : Except Unresolved String → String → Prop
  | text (text : String) : Shown (.ok text) text
  | placeholder (index : UInt16) {reason : Unresolved.Reason} {words : String}
      (h : ReasonText reason words) : Shown (.error ⟨index, reason⟩)
      ("<unresolved constant pool index " ++ toString index ++ ": " ++ words ++ ">")

def flagText (flags : UInt16) : String :=
  "0x" ++ String.ofList ([4096, 256, 16, 1].map fun place =>
    Nat.digitChar (flags.toNat / place % 16))

def targetText (offset : UInt32) (deltas : List Int) : String :=
  ", ".intercalate (deltas.map fun delta => toString (offset.toNat + delta : Int))

/-- What stands behind the mnemonic of an instruction at `offset`. -/
inductive OperandText (offset : UInt32) : Operands → String → Prop
  | none : OperandText offset .none ""
  | immediateByte (value : UInt8) :
    OperandText offset (.immediateByte value) (" " ++ toString value)
  | immediateShort (value : UInt16) :
    OperandText offset (.immediateShort value) (" " ++ toString value)
  | increment (index : UInt8) (constant : Int8) :
    OperandText offset (.increment index constant)
      (" " ++ toString index ++ " " ++ toString constant.toInt)
  | wideIncrement (index : UInt16) (constant : Int16) :
    OperandText offset (.wideIncrement index constant)
      (" " ++ toString index ++ " " ++ toString constant.toInt)
  | invokeInterface (index : UInt16) (count : UInt8) :
    OperandText offset (.invokeInterface index count)
      (" #" ++ toString index ++ " " ++ toString count)
  | invokeDynamic (index : UInt16) :
    OperandText offset (.invokeDynamic index) (" #" ++ toString index)
  | multiNewArray (index : UInt16) (dimensions : UInt8) :
    OperandText offset (.multiNewArray index dimensions)
      (" #" ++ toString index ++ " " ++ toString dimensions)
  | branch (delta : Int16) :
    OperandText offset (.branch delta) (" -> " ++ targetText offset [delta.toInt])
  | wideBranch (delta : Int32) :
    OperandText offset (.wideBranch delta) (" -> " ++ targetText offset [delta.toInt])
  | tableSwitch (default low high : Int32) (offsets : List Int32) :
    OperandText offset (.tableSwitch default low high offsets)
      (" -> " ++ targetText offset (default.toInt :: offsets.map Int32.toInt))
  | lookupSwitch (default : Int32) (pairs : List (Int32 × Int32)) :
    OperandText offset (.lookupSwitch default pairs)
      (" -> " ++ targetText offset (default.toInt :: pairs.map fun pair => pair.2.toInt))

/-- What a listing has a line for. Attributes stand further in, the deeper they are. -/
inductive Part where
  | heading
  | superClass
  | interface (index : UInt16)
  | poolHeading
  | entry (index : UInt16) (entry : Entry)
  | member (table : MemberTable) (member : Member)
  | attributeAt (indent : Nat) (info : AttributeInfo)
  | code (code : Code)
  | instruction (x : Instruction)
  | handler (handler : ExceptionHandler)

inductive LineOf (c : ClassFile) : Part → String → Prop
  | heading {name : String} (h : Shown (c.pool.className c.thisClass) name) :
    LineOf c .heading ("class " ++ name ++ " (version " ++ toString c.majorVersion ++ "." ++
      toString c.minorVersion ++ ", flags " ++ flagText c.accessFlags ++ ")")
  | superClass {name : String} (h : Shown (c.pool.className c.superClass) name) :
    LineOf c .superClass ("  extends " ++ name)
  | interface {index : UInt16} {name : String} (h : Shown (c.pool.className index) name) :
    LineOf c (.interface index) ("  implements " ++ name)
  | poolHeading : LineOf c .poolHeading ("constant pool, count " ++ toString c.pool.count ++ ":")
  | entry {index : UInt16} {entry : Entry} {word description : String}
      (hword : Called entry.kind word) (h : Shown (entry.describe c.pool) description) :
    LineOf c (.entry index entry) ("  #" ++ toString index ++ " = " ++ word ++ " " ++ description)
  | field {field : Member} {name descriptor : String}
      (hname : Shown (c.pool.utf8 field.nameIndex) name)
      (hdescriptor : Shown (c.pool.utf8 field.descriptorIndex) descriptor) :
    LineOf c (.member .fields field)
      ("field " ++ name ++ descriptor ++ " (flags " ++ flagText field.accessFlags ++ ")")
  | method {method : Member} {name descriptor : String}
      (hname : Shown (c.pool.utf8 method.nameIndex) name)
      (hdescriptor : Shown (c.pool.utf8 method.descriptorIndex) descriptor) :
    LineOf c (.member .methods method)
      ("method " ++ name ++ descriptor ++ " (flags " ++ flagText method.accessFlags ++ ")")
  | known {indent : Nat} {info : AttributeInfo} {name : String} (h : info.data.name? = some name) :
    LineOf c (.attributeAt indent info) (String.ofList (List.replicate indent ' ') ++
      "attribute " ++ name ++ ", " ++ toString info.declaredLength ++ " bytes")
  | unknown {indent : Nat} {info : AttributeInfo} {body : Bytes} {name : String}
      (hbody : info.data = .unknown body) (h : Shown (c.pool.utf8 info.nameIndex) name) :
    LineOf c (.attributeAt indent info) (String.ofList (List.replicate indent ' ') ++
      "attribute " ++ name ++ " (unknown)" ++ ", " ++ toString info.declaredLength ++ " bytes")
  | code {code : Code} :
    LineOf c (.code code) ("    code: max_stack = " ++ toString code.maxStack ++
      ", max_locals = " ++ toString code.maxLocals)
  | instruction {x : Instruction} {blanks : Nat} {mnemonic operands : String}
      (hblanks : blanks + (toString x.offset.toNat).length = max 5 (toString x.offset.toNat).length)
      (hmnemonic : Instruction.mnemonicOf x.opcode = some mnemonic)
      (h : OperandText x.offset x.operands operands) :
    LineOf c (.instruction x) ("    " ++ String.ofList (List.replicate blanks ' ') ++
      toString x.offset.toNat ++ ": " ++ mnemonic ++ operands)
  | catchAny {startPc endPc handlerPc : UInt16} :
    LineOf c (.handler ⟨startPc, endPc, handlerPc, 0⟩) ("    catch any in " ++ toString startPc ++
      ".." ++ toString endPc ++ " at " ++ toString handlerPc)
  | catchClass {startPc endPc handlerPc catchType : UInt16} {name : String} (hne : catchType ≠ 0)
      (h : Shown (c.pool.className catchType) name) :
    LineOf c (.handler ⟨startPc, endPc, handlerPc, catchType⟩) ("    catch " ++ name ++ " in " ++
      toString startPc ++ ".." ++ toString endPc ++ " at " ++ toString handlerPc)

def memberParts (table : MemberTable) (member : Member) : List Part :=
  .member table member :: member.attributes.map (.attributeAt 2)

/-- The parts of a method: with code, its first `Code` attribute is taken apart. -/
inductive MethodParts (withCode : Bool) (method : Member) : List Part → Prop
  | plain (h : withCode = true → ∀ i info code, ¬ FirstCode method.attributes i info code) :
    MethodParts withCode method (memberParts .methods method)
  | code {i : Nat} {info : AttributeInfo} {code : Code} {xs : List Instruction}
      (hwith : withCode = true) (hcode : FirstCode method.attributes i info code)
      (h : Instruction.decode code.code = .ok xs) :
    MethodParts withCode method (memberParts .methods method ++ (.code code ::
      xs.map .instruction ++ code.handlers.map .handler ++ code.attributes.map (.attributeAt 4)))

/-- The parts of a class in their order, with these live entries and parts of methods. -/
def parts (c : ClassFile) (entries : List (UInt16 × Entry)) (bodies : List (List Part)) :
    List Part :=
  .heading :: (if c.superClass = 0 then [] else [.superClass]) ++ c.interfaces.map .interface ++
  .poolHeading :: entries.map (fun e => .entry e.1 e.2) ++
  c.fields.flatMap (memberParts .fields) ++ bodies.flatten ++ c.attributes.map (.attributeAt 0)

theorem failure_andThen (first second : Listing) :
    (first.andThen second).failure = first.failure.or second.failure := by
  unfold andThen
  cases h : first.failure with
  | none => rfl
  | some failure => exact h

theorem items_andThen {first : Listing} (h : first.failure = none) (second : Listing) :
    (first.andThen second).items = first.items ++ second.items := by
  unfold andThen
  rw [h]

theorem failure_foldr (listings : List Listing) (tail : Listing) :
    (listings.foldr andThen tail).failure = (listings.findSome? (·.failure)).or tail.failure := by
  induction listings with
  | nil => rfl
  | cons first listings ih =>
    rw [List.foldr_cons, failure_andThen, ih, List.findSome?_cons]
    cases first.failure <;> rfl

theorem items_foldr {listings : List Listing} {tail : Listing}
    (h : ∀ listing ∈ listings, listing.failure = none) :
    (listings.foldr andThen tail).items = listings.flatMap (·.items) ++ tail.items := by
  induction listings with
  | nil => rfl
  | cons first listings ih =>
    rw [List.forall_mem_cons] at h
    rw [List.foldr_cons, items_andThen h.1, ih h.2, List.flatMap_cons, List.append_assoc]

theorem failure_ofMethod_eq_some (pool : Pool) {method : Member} {failure : Failure} :
    (ofMethod pool true method).failure = some failure ↔ method.FailsToDecode failure := by
  have hcode : method.FailsToDecode failure ↔
      ∃ code, method.code? = some code ∧ code.instructions = .error failure := by
    simp only [Member.FailsToDecode, Member.code?_eq_some, Code.instructions]
    exact ⟨fun ⟨i, info, code, hfirst, h⟩ => ⟨code, ⟨i, info, hfirst⟩, h⟩,
      fun ⟨code, ⟨i, info, hfirst⟩, h⟩ => ⟨i, info, code, hfirst, h⟩⟩
  rw [hcode]
  unfold ofMethod
  cases method.code? with
  | none => simp
  | some code =>
    rw [failure_andThen, Option.none_or, ofCode]
    cases h : code.instructions <;> simp [h]

theorem failure_ofClass (c : ClassFile) (withCode : Bool) :
    (ofClass c withCode).failure =
      c.methods.findSome? fun method => (ofMethod c.pool withCode method).failure := by
  rw [ofClass, failure_andThen, Option.none_or, failure_foldr, Option.or_none, List.findSome?_map]
  rfl

theorem failure_ofClass_false (c : ClassFile) : (ofClass c false).failure = none := by
  rw [failure_ofClass, List.findSome?_eq_none_iff]
  exact fun _ _ => rfl

theorem failure_ofClass_eq_some {c : ClassFile} {failure : Failure} :
    (ofClass c true).failure = some failure ↔ ∃ before method after,
      c.methods = before ++ method :: after ∧ method.FailsToDecode failure ∧
      ∀ other ∈ before, ∀ failure', ¬ other.FailsToDecode failure' := by
  simp only [failure_ofClass, List.findSome?_eq_some_iff, ← failure_ofMethod_eq_some c.pool,
    ← Option.eq_none_iff_forall_ne_some]

theorem called_name (kind : Entry.Kind) : Called kind kind.name := by
  cases kind with
  | memberRef kind => cases kind <;> constructor
  | dynamic kind => cases kind <;> constructor
  | _ => constructor

theorem reasonText_message {reason : Unresolved.Reason} (h : reason ≠ .endless) :
    ReasonText reason reason.message := by
  cases reason with
  | zero => exact .zero
  | upperHalf => exact .upperHalf
  | outOfRange slots => exact .outOfRange slots
  | wrongKind expected got => exact .wrongKind expected (called_name got)
  | endless => exact absurd rfl h

theorem orPlaceholder_error (index : UInt16) (reason : Unresolved.Reason) :
    orPlaceholder (.error ⟨index, reason⟩) =
      "<unresolved constant pool index " ++ toString index ++ ": " ++ reason.message ++ ">" := by
  -- the same text, put together the other way round
  have hjoined (index words : String) :
      "<" ++ ("unresolved constant pool index " ++ index ++ ": " ++ words) ++ ">" =
        "<unresolved constant pool index " ++ index ++ ": " ++ words ++ ">" := by
    rw [← String.toList_inj]
    simp
  exact hjoined (toString index) reason.message

theorem shown_orPlaceholder {result : Except Unresolved String} (h : Settled result) :
    Shown result (orPlaceholder result) := by
  cases result with
  | ok text => exact .text text
  | error u =>
    rw [orPlaceholder_error]
    exact .placeholder u.index (reasonText_message (h u rfl))

theorem replicate_append_toDigits (width n : Nat) :
    List.replicate (width + 2 - (Nat.toDigits 16 n).length) '0' ++ Nat.toDigits 16 n =
      List.replicate (width + 1 - (Nat.toDigits 16 (n / 16)).length) '0' ++
        Nat.toDigits 16 (n / 16) ++ [(n % 16).digitChar] := by
  -- one digit, or the last one behind those of the quotient
  by_cases h : n < 16
  · have hzero : n / 16 = 0 := by omega
    have hself : n % 16 = n := by omega
    rw [hzero, hself, Nat.toDigits_of_lt_base h, Nat.toDigits_zero]
    exact congrArg (· ++ [n.digitChar]) List.replicate_succ'
  · have hwidth (length : Nat) : width + 2 - (length + 1) = width + 1 - length := by omega
    rw [Nat.toDigits_of_base_le (by omega) (by omega : 16 ≤ n), List.length_append,
      List.length_singleton, hwidth, List.append_assoc]

theorem hex_four (flags : UInt16) : Text.hex 4 flags.toNat = flagText flags := by
  have hlt : flags.toNat / 16 / 16 / 16 < 16 := by
    have := flags.toNat_lt
    omega
  -- three times a digit is split off; what is left is below 16
  have hdigits := replicate_append_toDigits 2 flags.toNat
  rw [replicate_append_toDigits 1, replicate_append_toDigits 0, Nat.toDigits_of_lt_base hlt]
    at hdigits
  rw [Text.hex, Text.hexDigits, Text.padLeft, String.length_ofList, ← String.ofList_append, hdigits]
  simp only [Nat.div_div_eq_div_mul] at hlt ⊢
  simp [flagText, Nat.mod_eq_of_lt hlt]

theorem commas_targets (offset : UInt32) (deltas : List Int) :
    Text.commas ((deltas.map ((offset.toNat : Int) + ·)).map toString) =
      targetText offset deltas := by
  rw [List.map_map]
  rfl

theorem operandText_spelled (x : Instruction) :
    OperandText x.offset x.operands (operandText x) := by
  unfold operandText Instruction.branchTargets
  simp only [commas_targets]
  obtain ⟨offset, opcode, operands⟩ := x
  cases operands with
  | none => exact .none
  | immediateByte value => exact .immediateByte value
  | immediateShort value => exact .immediateShort value
  | increment index constant => exact .increment index constant
  | wideIncrement index constant => exact .wideIncrement index constant
  | invokeInterface index count => exact .invokeInterface index count
  | invokeDynamic index => exact .invokeDynamic index
  | multiNewArray index dimensions => exact .multiNewArray index dimensions
  | branch delta => exact .branch delta
  | wideBranch delta => exact .wideBranch delta
  | tableSwitch default low high offsets => exact .tableSwitch default low high offsets
  | lookupSwitch default pairs =>
    -- matches are not written, only where they lead
    have hdeltas : (default :: pairs.map (·.2)).map Int32.toInt =
        default.toInt :: pairs.map fun pair => pair.2.toInt := by
      rw [List.map_cons, List.map_map]
      rfl
    simp only [Instruction.jumps, hdeltas]
    exact .lookupSwitch default pairs

theorem forall₂_map_map {α β γ : Type} {R : β → γ → Prop} {f : α → β} {g : α → γ} {as : List α}
    (h : ∀ a ∈ as, R (f a) (g a)) : List.Forall₂ R (as.map f) (as.map g) := by
  rw [List.forall₂_map_left_iff, List.forall₂_map_right_iff, List.forall₂_same]
  exact h

section

variable (c : ClassFile)

def Listed (parts : List Part) (items : List Item) : Prop :=
  List.Forall₂ (fun part item => LineOf c part item.text) parts items

variable {c}

theorem Listed.append {parts parts' : List Part} {items items' : List Item}
    (h : Listed c parts items) (h' : Listed c parts' items') :
    Listed c (parts ++ parts') (items ++ items') :=
  List.rel_append h h'

theorem shown_className (index : UInt16) :
    Shown (c.pool.className index) (orPlaceholder (c.pool.className index)) :=
  shown_orPlaceholder (Settled.className c.pool index)

theorem shown_utf8 (index : UInt16) :
    Shown (c.pool.utf8 index) (orPlaceholder (c.pool.utf8 index)) :=
  shown_orPlaceholder (Settled.utf8 c.pool index)

theorem toString_string (text : String) : toString text = text := rfl

theorem lineOf_attribute (indent : Nat) (info : AttributeInfo) :
    LineOf c (.attributeAt indent info) (attributeItem c.pool indent info).text := by
  unfold attributeItem
  cases hname : info.data.name? with
  | some name =>
    have hline : LineOf c (.attributeAt indent info) _ := .known hname
    unfold Item.text
    simpa only [toString_string, String.append_assoc, Bool.false_eq_true, if_false,
      String.empty_append] using hline
  | none =>
    obtain ⟨body, hbody⟩ := Attribute.kind?_eq_none.1 (Option.map_eq_none_iff.1 hname)
    have hline : LineOf c (.attributeAt indent info) _ := .unknown hbody (shown_utf8 _)
    unfold Item.text
    simpa only [toString_string, String.append_assoc, if_true] using hline

theorem lineOf_member (table : MemberTable) (member : Member) :
    LineOf c (.member table member) (Item.member table (orPlaceholder (member.name c.pool))
      (orPlaceholder (member.descriptor c.pool)) member.accessFlags).text := by
  unfold Item.text
  simp only [hex_four]
  cases table with
  | fields => exact .field (shown_utf8 _) (shown_utf8 _)
  | methods => exact .method (shown_utf8 _) (shown_utf8 _)

theorem lineOf_handler (handler : ExceptionHandler) :
    LineOf c (.handler handler) (handlerItem c.pool handler).text := by
  obtain ⟨startPc, endPc, handlerPc, catchType⟩ := handler
  unfold handlerItem
  by_cases hzero : catchType = 0
  · subst hzero
    have hline : LineOf c (.handler ⟨startPc, endPc, handlerPc, 0⟩) _ := .catchAny
    -- the line is one literal here, and three in what is written
    have hany : "    catch any in " = "    catch " ++ "any" ++ " in " := by decide +kernel
    unfold Item.text
    simpa only [hany, toString_string, String.append_assoc, if_true] using hline
  · have hline : LineOf c (.handler ⟨startPc, endPc, handlerPc, catchType⟩) _ :=
      .catchClass hzero (shown_className catchType)
    unfold Item.text
    simpa only [toString_string, String.append_assoc, if_neg hzero] using hline

theorem lineOf_instruction {x : Instruction} (h : (Instruction.kindOf x.opcode).isSome) :
    LineOf c (.instruction x) (Item.instruction x).text := by
  obtain ⟨mnemonic, hmnemonic⟩ := Instruction.exists_mnemonic h
  -- a longer offset is written without blanks
  have hblanks : 5 - (toString x.offset.toNat).length + (toString x.offset.toNat).length =
      max 5 (toString x.offset.toNat).length := by omega
  have hline : LineOf c (.instruction x) _ :=
    .instruction hblanks hmnemonic (operandText_spelled x)
  unfold Item.text
  simpa only [Instruction.mnemonic, hmnemonic, Option.getD_some, Text.flushRight,
    Text.padLeft, String.append_assoc] using hline

theorem lineOf_heading : LineOf c .heading (Item.heading (orPlaceholder c.thisClassName)
    c.majorVersion c.minorVersion c.accessFlags).text := by
  unfold Item.text ClassFile.thisClassName
  simpa only [hex_four, toString_string, String.append_assoc] using
    LineOf.heading (shown_className c.thisClass)

theorem lineOf_poolHeading : LineOf c .poolHeading (Item.poolHeading c.pool.count).text := by
  unfold Item.text
  simpa only [toString_string, String.append_assoc] using LineOf.poolHeading

theorem lineOf_entry {index : UInt16} {entry : Entry} (h : Settled (entry.describe c.pool)) :
    LineOf c (.entry index entry) (entryItem c.pool (index, entry)).text := by
  unfold entryItem Item.text
  simpa only [toString_string, String.append_assoc] using
    LineOf.entry (called_name entry.kind) (shown_orPlaceholder h)

theorem lineOf_code (code : Code) :
    LineOf c (.code code) (Item.code code.maxStack code.maxLocals).text := by
  unfold Item.text
  simpa only [toString_string, String.append_assoc] using LineOf.code

theorem listed_attributes (indent : Nat) (infos : List AttributeInfo) :
    Listed c (infos.map (.attributeAt indent)) (attributeItems c.pool indent infos) :=
  forall₂_map_map fun info _ => lineOf_attribute indent info

theorem listed_member (table : MemberTable) (member : Member) :
    Listed c (memberParts table member) (memberItems c.pool table member) :=
  .cons (lineOf_member table member) (listed_attributes 2 member.attributes)

theorem listed_members (table : MemberTable) (members : List Member) :
    Listed c (members.flatMap (memberParts table))
      (members.flatMap (memberItems c.pool table)) := by
  rw [List.flatMap_def, List.flatMap_def]
  exact List.rel_flatten (forall₂_map_map fun member _ => listed_member table member)

theorem listed_superClass :
    Listed c (if c.superClass = 0 then [] else [.superClass])
      (match c.superClassName with
        | .ok (some name) => [.superClass name]
        | .ok none => []
        | .error u => [.superClass (orPlaceholder (.error u))]) := by
  unfold ClassFile.superClassName
  split_ifs
  · exact .nil
  · have hline : LineOf c .superClass
        ("  extends " ++ orPlaceholder (c.pool.className c.superClass)) :=
      .superClass (shown_className c.superClass)
    cases hname : c.pool.className c.superClass with
    | ok name | error u =>
      rw [hname] at hline
      exact .cons hline .nil

theorem listed_head (hdescribe : ∀ e ∈ c.pool.entries, Settled (e.2.describe c.pool)) :
    Listed c (.heading :: (if c.superClass = 0 then [] else [.superClass]) ++
      c.interfaces.map .interface ++ .poolHeading :: c.pool.entries.map fun e => .entry e.1 e.2)
      (headItems c) := by
  have hinterfaces : Listed c (c.interfaces.map .interface)
      (c.interfaces.map fun i => .interface (orPlaceholder (c.pool.className i))) :=
    forall₂_map_map fun index _ => .interface (shown_className index)
  have hentries : Listed c (c.pool.entries.map fun e => .entry e.1 e.2)
      (c.pool.entries.map (entryItem c.pool)) :=
    forall₂_map_map fun e he => lineOf_entry (hdescribe e he)
  have hsuper : Listed c _ _ := .cons lineOf_heading listed_superClass
  exact (hsuper.append hinterfaces).append (.cons lineOf_poolHeading hentries)

theorem listed_ofCode {code : Code} {xs : List Instruction}
    (h : Instruction.decode code.code = .ok xs) :
    Listed c (.code code :: xs.map .instruction ++ code.handlers.map .handler ++
      code.attributes.map (.attributeAt 4)) (ofCode c.pool code).items := by
  obtain ⟨-, hstream⟩ := Instruction.decode_eq_ok.1 h
  have hinstructions : Listed c (xs.map .instruction) (xs.map .instruction) :=
    forall₂_map_map fun x hx => lineOf_instruction (hstream.kindOf_isSome x hx)
  have hhandlers : Listed c (code.handlers.map .handler) (code.handlers.map (handlerItem c.pool)) :=
    forall₂_map_map fun handler _ => lineOf_handler handler
  have hcode : Listed c _ _ := .cons (lineOf_code code) hinstructions
  unfold ofCode Code.instructions
  rw [h]
  exact (hcode.append hhandlers).append (listed_attributes 4 code.attributes)

theorem exists_methodParts {withCode : Bool} {method : Member}
    (h : (ofMethod c.pool withCode method).failure = none) :
    ∃ body, MethodParts withCode method body ∧
      Listed c body (ofMethod c.pool withCode method).items := by
  have hmember := listed_member (c := c) .methods method
  unfold ofMethod at h ⊢
  cases withCode with
  | false => exact ⟨_, .plain (by simp), hmember⟩
  | true =>
    -- without a `Code` attribute the listing with code is the one without
    cases hcode : method.code? with
    | none =>
      refine ⟨_, .plain fun _ i info code hfirst => ?_, hmember⟩
      rw [Member.code?_eq_some.2 ⟨i, info, hfirst⟩] at hcode
      cases hcode
    | some code =>
      obtain ⟨i, info, hfirst⟩ := Member.exists_firstCode hcode
      simp only [hcode, failure_andThen, Option.none_or] at h
      cases hdecode : Instruction.decode code.code with
      | error failure => simp [ofCode, Code.instructions, hdecode] at h
      | ok xs =>
        refine ⟨_, .code rfl hfirst hdecode, ?_⟩
        rw [items_andThen rfl]
        exact hmember.append (listed_ofCode hdecode)

theorem exists_bodies {withCode : Bool} {methods : List Member}
    (h : ∀ method ∈ methods, (ofMethod c.pool withCode method).failure = none) :
    ∃ bodies, List.Forall₂ (MethodParts withCode) methods bodies ∧
      Listed c bodies.flatten
        (methods.flatMap fun method => (ofMethod c.pool withCode method).items) := by
  induction methods with
  | nil => exact ⟨[], .nil, .nil⟩
  | cons method methods ih =>
    rw [List.forall_mem_cons] at h
    obtain ⟨body, hbody, hitems⟩ := exists_methodParts h.1
    obtain ⟨bodies, hbodies, hrest⟩ := ih h.2
    refine ⟨body :: bodies, .cons hbody hbodies, ?_⟩
    rw [List.flatten_cons, List.flatMap_cons]
    exact hitems.append hrest

theorem exists_parts {withCode : Bool} (h : (ofClass c withCode).failure = none)
    (hdescribe : ∀ e ∈ c.pool.entries, Settled (e.2.describe c.pool)) :
    ∃ bodies, List.Forall₂ (MethodParts withCode) c.methods bodies ∧
      Listed c (parts c c.pool.entries bodies) (ofClass c withCode).items := by
  have hmethods : ∀ method ∈ c.methods, (ofMethod c.pool withCode method).failure = none := by
    rwa [failure_ofClass, List.findSome?_eq_none_iff] at h
  obtain ⟨bodies, hbodies, hitems⟩ := exists_bodies hmethods
  refine ⟨bodies, hbodies, ?_⟩
  -- no listing of a method failed, so that all of them are there in full
  rw [ofClass, items_andThen rfl, items_foldr (by simpa using hmethods), List.flatMap_map, parts,
    List.append_assoc _ bodies.flatten]
  exact ((listed_head hdescribe).append (listed_members .fields c.fields)).append
    (hitems.append (listed_attributes 0 c.attributes))

end

/-- While no method handles form a cycle, a listing ends early only for code: without code it never
does, and with code at the first method whose code does not decode, with the failure to decode it.
The text of a listing that does not end early has a line for each part of the class, in their order;
the pool entries among them are just the live ones, with increasing indices. -/
theorem ofClass_of_acyclic {c : ClassFile} (hpool : c.pool.Reachable) (hacyclic : c.pool.Acyclic) :
    (ofClass c false).failure = none ∧
    ((ofClass c true).failure.isSome ↔
      ∃ method ∈ c.methods, ∃ failure, method.FailsToDecode failure) ∧
    (∀ failure, (ofClass c true).failure = some failure ↔ ∃ before method after,
      c.methods = before ++ method :: after ∧ method.FailsToDecode failure ∧
      ∀ other ∈ before, ∀ failure', ¬ other.FailsToDecode failure') ∧
    ∀ withCode,
      (∀ failure u, (ofClass c withCode).failure = some failure → failure.cause ≠ .unresolved u) ∧
      ((ofClass c withCode).failure = none → ∃ entries bodies lines,
        (ofClass c withCode).text = String.join (lines.map (· ++ "\n")) ∧
        (entries.map (·.1)).Pairwise (· < ·) ∧
        (∀ index entry, (index, entry) ∈ entries ↔ c.pool.get index = .ok entry) ∧
        List.Forall₂ (MethodParts withCode) c.methods bodies ∧
        List.Forall₂ (LineOf c) (parts c entries bodies) lines) := by
  refine ⟨failure_ofClass_false c, ?_, fun failure => failure_ofClass_eq_some,
    fun withCode => ⟨?_, ?_⟩⟩
  · rw [failure_ofClass, List.isSome_findSome?, List.any_eq_true]
    simp only [Option.isSome_iff_exists, failure_ofMethod_eq_some]
  · intro failure u h
    cases withCode with
    | false =>
      rw [failure_ofClass_false] at h
      cases h
    | true =>
      obtain ⟨before, method, after, -, hfails, -⟩ := failure_ofClass_eq_some.1 h
      exact hfails.cause_ne u
  · intro h
    -- the only unresolved index without words is the one of a cycle
    have hdescribe : ∀ e ∈ c.pool.entries, Settled (e.2.describe c.pool) := by
      intro e he
      have hsettled := hacyclic.settled_describe hpool e.1
      rw [Pool.describe, (mem_entries hpool.size_le).1 he] at hsettled
      exact hsettled
    obtain ⟨bodies, hbodies, hitems⟩ := exists_parts h hdescribe
    refine ⟨c.pool.entries, bodies, (ofClass c withCode).items.map Item.text, ?_,
      pairwise_entries hpool.size_le, fun index entry => mem_entries hpool.size_le, hbodies,
      (List.forall₂_map_right_iff (f := Item.text)).2 hitems⟩
    rw [text, List.map_map]
    rfl

/-- Indices of a number, of its upper half, of no entry and behind the pool; of two methods, the
second has code that ends inside an instruction. -/
def danglingClass : ClassFile where
  pool := afterAll [.utf8 "m", .long 7, .verbatim (.methodHandle 6 1),
    .verbatim (.methodHandle 5 4), .verbatim (.classRef 9)] empty
  thisClass := 3
  superClass := 6
  interfaces := [0, 2]
  fields := [⟨0, 9, 1, [⟨3, 0, .unknown []⟩]⟩]
  methods := [⟨0, 1, 2, [⟨1, 13, .code ⟨0, 0, [0xb1], [], []⟩⟩]⟩,
    ⟨0, 3, 0, [⟨1, 14, .code ⟨0, 0, [0xa7, 0], [], []⟩⟩]⟩]

/-- How the class is listed without code. -/
def danglingLines : List String := [
  "class <unresolved constant pool index 3: upper half of a `Long` or `Double` entry> " ++
    "(version 52.0, flags 0x0000)",
  "  extends <unresolved constant pool index 9: out of range, the pool has 7 slots>",
  "  implements <unresolved constant pool index 0: index zero is never a valid entry>",
  "  implements <unresolved constant pool index 2: expected a `Class` entry, got `Long`>",
  "constant pool, count 7:",
  "  #1 = Utf8 m",
  "  #2 = Long 7L",
  "  #4 = MethodHandle REF_invokeStatic m",
  "  #5 = MethodHandle REF_invokeVirtual REF_invokeStatic m",
  "  #6 = Class <unresolved constant pool index 9: out of range, the pool has 7 slots>",
  "field <unresolved constant pool index 9: out of range, the pool has 7 slots>m (flags 0x0000)",
  "  attribute <unresolved constant pool index 3: upper half of a `Long` or `Double` entry> " ++
    "(unknown), 0 bytes",
  "method m<unresolved constant pool index 2: expected a `Utf8` entry, got `Long`> (flags 0x0000)",
  "  attribute Code, 13 bytes",
  "method <unresolved constant pool index 3: upper half of a `Long` or `Double` entry>" ++
    "<unresolved constant pool index 0: index zero is never a valid entry> (flags 0x0000)",
  "  attribute Code, 14 bytes"]

theorem ofClass_of_acyclic_danglingClass :
    danglingClass.pool.Reachable ∧ danglingClass.pool.Acyclic ∧
    (ofClass danglingClass false).failure = none ∧
    (ofClass danglingClass true).failure =
      some ⟨[.bytecodeOffset 0], .truncatedInput 1 2 1⟩ ∧
    (ofClass danglingClass false).text = String.join (danglingLines.map (· ++ "\n")) ∧
    ∃ entries bodies lines,
      (ofClass danglingClass false).text = String.join (lines.map (· ++ "\n")) ∧
      (entries.map (·.1)).Pairwise (· < ·) ∧
      (∀ index entry, (index, entry) ∈ entries ↔ danglingClass.pool.get index = .ok entry) ∧
      List.Forall₂ (MethodParts false) danglingClass.methods bodies ∧
      List.Forall₂ (LineOf danglingClass) (parts danglingClass entries bodies) lines := by
  have hslots : danglingClass.pool.slots = #[none, some (.utf8 [0x6d] "m"), some (.long 7), none,
      some (.methodHandle 6 1), some (.methodHandle 5 4), some (.classRef 9)] := by
    decide +kernel
  have hpool : danglingClass.pool.Reachable := .add (.verbatim (.classRef 9))
    (.add (.verbatim (.methodHandle 5 4)) (.add (.verbatim (.methodHandle 6 1))
      (.add (.long 7) (.add (.utf8 "m") .empty))))
  have hacyclic : danglingClass.pool.Acyclic := by
    apply acyclic_of_backward
    intro index kind target hget
    -- each of the seven slots holds a handle to a smaller index, or none
    have hlt := toNat_lt_size hget
    rw [get_eq_ok, hslots] at hget
    rw [hslots] at hlt
    rw [UInt16.lt_iff_toNat_lt]
    generalize index.toNat = i at hget hlt ⊢
    change i < 7 at hlt
    interval_cases i <;> cases hget <;> decide
  have hreturn : Instruction.decode [0xb1] = .ok [⟨0, 0xb1, .none⟩] := rfl
  have hshort : Instruction.decode [0xa7, 0] =
      .error ⟨[.bytecodeOffset 0], .truncatedInput 1 2 1⟩ := rfl
  obtain ⟨hplain, -, hfirst, hall⟩ := ofClass_of_acyclic hpool hacyclic
  obtain ⟨-, hlines⟩ := hall false
  have htext :
      (ofClass danglingClass false).text = String.join (danglingLines.map (· ++ "\n")) := by
    have hmap : (ofClass danglingClass false).items.map Item.text = danglingLines := by
      decide +kernel
    rw [← hmap, List.map_map]
    rfl
  refine ⟨hpool, hacyclic, hplain, ?_, htext, hlines hplain⟩
  refine (hfirst _).2 ⟨[_], _, [], rfl, ⟨0, _, _, ⟨rfl, rfl, by simp⟩, hshort⟩, ?_⟩
  -- the code of the first method does decode
  rintro other hother failure ⟨i, info, code, hcode, herror⟩
  rw [List.mem_singleton.1 hother] at hcode
  cases Member.code?_eq_some.2 ⟨i, info, hcode⟩
  cases hreturn.symm.trans herror

end Listing

end ClassFormat
