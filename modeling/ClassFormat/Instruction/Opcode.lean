namespace ClassFormat.Instruction

/-- The layout of the operands that follow an opcode. Two of them grow after a `wide`. -/
inductive Kind where
  | noOperand
  | immediateByte
  | immediateShort
  | branch
  | wideBranch
  | increment
  | tableSwitch
  | lookupSwitch
  | invokeInterface
  | invokeDynamic
  | multiNewArray
  deriving DecidableEq, Repr

def Kind.name : Kind → String
  | .noOperand => "NoOperand"
  | .immediateByte => "ImmediateByte"
  | .immediateShort => "ImmediateShort"
  | .branch => "Branch"
  | .wideBranch => "WideBranch"
  | .increment => "Increment"
  | .tableSwitch => "TableSwitch"
  | .lookupSwitch => "LookupSwitch"
  | .invokeInterface => "InvokeInterface"
  | .invokeDynamic => "InvokeDynamic"
  | .multiNewArray => "MultiNewArray"

structure OpcodeRange where
  first : UInt8
  last : UInt8
  kind : Kind

def OpcodeRange.contains (range : OpcodeRange) (opcode : UInt8) : Bool :=
  range.first ≤ opcode && opcode ≤ range.last

def opcodeRanges : List OpcodeRange := [
  ⟨0x00, 0x0f, .noOperand⟩,
  ⟨0x10, 0x10, .immediateByte⟩,
  ⟨0x11, 0x11, .immediateShort⟩,
  ⟨0x12, 0x12, .immediateByte⟩,
  ⟨0x13, 0x14, .immediateShort⟩,
  ⟨0x15, 0x19, .immediateByte⟩,
  ⟨0x1a, 0x35, .noOperand⟩,
  ⟨0x36, 0x3a, .immediateByte⟩,
  ⟨0x3b, 0x83, .noOperand⟩,
  ⟨0x84, 0x84, .increment⟩,
  ⟨0x85, 0x98, .noOperand⟩,
  ⟨0x99, 0xa8, .branch⟩,
  ⟨0xa9, 0xa9, .immediateByte⟩,
  ⟨0xaa, 0xaa, .tableSwitch⟩,
  ⟨0xab, 0xab, .lookupSwitch⟩,
  ⟨0xac, 0xb1, .noOperand⟩,
  ⟨0xb2, 0xb8, .immediateShort⟩,
  ⟨0xb9, 0xb9, .invokeInterface⟩,
  ⟨0xba, 0xba, .invokeDynamic⟩,
  ⟨0xbb, 0xbb, .immediateShort⟩,
  ⟨0xbc, 0xbc, .immediateByte⟩,
  ⟨0xbd, 0xbd, .immediateShort⟩,
  ⟨0xbe, 0xbf, .noOperand⟩,
  ⟨0xc0, 0xc1, .immediateShort⟩,
  ⟨0xc2, 0xc4, .noOperand⟩,
  ⟨0xc5, 0xc5, .multiNewArray⟩,
  ⟨0xc6, 0xc7, .branch⟩,
  ⟨0xc8, 0xc9, .wideBranch⟩]

/-- The operand layout of an opcode; the rest may not appear in a class file. -/
def kindOf (opcode : UInt8) : Option Kind :=
  (opcodeRanges.find? (·.contains opcode)).map (·.kind)

def wide : UInt8 := 0xc4

def mnemonics : Array String := #[
  "nop", "aconst_null", "iconst_m1", "iconst_0", "iconst_1", "iconst_2", "iconst_3", "iconst_4",
  "iconst_5", "lconst_0", "lconst_1", "fconst_0", "fconst_1", "fconst_2", "dconst_0", "dconst_1",
  "bipush", "sipush", "ldc", "ldc_w", "ldc2_w", "iload", "lload", "fload", "dload", "aload",
  "iload_0", "iload_1", "iload_2", "iload_3", "lload_0", "lload_1", "lload_2", "lload_3", "fload_0",
  "fload_1", "fload_2", "fload_3", "dload_0", "dload_1", "dload_2", "dload_3", "aload_0", "aload_1",
  "aload_2", "aload_3", "iaload", "laload", "faload", "daload", "aaload", "baload", "caload",
  "saload", "istore", "lstore", "fstore", "dstore", "astore", "istore_0", "istore_1", "istore_2",
  "istore_3", "lstore_0", "lstore_1", "lstore_2", "lstore_3", "fstore_0", "fstore_1", "fstore_2",
  "fstore_3", "dstore_0", "dstore_1", "dstore_2", "dstore_3", "astore_0", "astore_1", "astore_2",
  "astore_3", "iastore", "lastore", "fastore", "dastore", "aastore", "bastore", "castore",
  "sastore", "pop", "pop2", "dup", "dup_x1", "dup_x2", "dup2", "dup2_x1", "dup2_x2", "swap", "iadd",
  "ladd", "fadd", "dadd", "isub", "lsub", "fsub", "dsub", "imul", "lmul", "fmul", "dmul", "idiv",
  "ldiv", "fdiv", "ddiv", "irem", "lrem", "frem", "drem", "ineg", "lneg", "fneg", "dneg", "ishl",
  "lshl", "ishr", "lshr", "iushr", "lushr", "iand", "land", "ior", "lor", "ixor", "lxor", "iinc",
  "i2l", "i2f", "i2d", "l2i", "l2f", "l2d", "f2i", "f2l", "f2d", "d2i", "d2l", "d2f", "i2b", "i2c",
  "i2s", "lcmp", "fcmpl", "fcmpg", "dcmpl", "dcmpg", "ifeq", "ifne", "iflt", "ifge", "ifgt", "ifle",
  "if_icmpeq", "if_icmpne", "if_icmplt", "if_icmpge", "if_icmpgt", "if_icmple", "if_acmpeq",
  "if_acmpne", "goto", "jsr", "ret", "tableswitch", "lookupswitch", "ireturn", "lreturn", "freturn",
  "dreturn", "areturn", "return", "getstatic", "putstatic", "getfield", "putfield", "invokevirtual",
  "invokespecial", "invokestatic", "invokeinterface", "invokedynamic", "new", "newarray",
  "anewarray", "arraylength", "athrow", "checkcast", "instanceof", "monitorenter", "monitorexit",
  "wide", "multianewarray", "ifnull", "ifnonnull", "goto_w", "jsr_w"]

def mnemonicOf (opcode : UInt8) : Option String := mnemonics[opcode.toNat]?

end ClassFormat.Instruction
