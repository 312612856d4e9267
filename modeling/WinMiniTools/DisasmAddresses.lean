import WinMiniTools.AddressForms
import WinMiniTools.MhookCode

/-!
The addressing part of the disassembler under `mhook-lib` (`disasm_x86.c`).
`SetModRM32`, `SetModRM16` and `SetSIB` fill in what the operand is that the ModRM
byte and the bytes behind it encode, and `ApplyDisplacement` computes where an
operand lies that is relative to the instruction pointer. An assertion that fails
is `none`.
-/
namespace WinMiniTools.DisasmAddresses
open WinMiniTools.Words WinMiniTools.AddressForms
open WinMiniTools.MhookCode (treatment skipBody stops MHOOKS_MAX_RIPS)

/-! ### Instructions -/

inductive ArchitectureType where
  | x86
  | x86_16
  | x64
  deriving DecidableEq

inductive Segment where
  | es
  | cs
  | ss
  | ds
  | fs
  | gs
  deriving DecidableEq

structure ModRM where
  mod : BitVec 2
  reg : BitVec 3
  rm : BitVec 3
  deriving DecidableEq

structure Sib where
  scale : BitVec 2
  index : BitVec 3
  base : BitVec 3

structure Rex where
  w : BitVec 1
  r : BitVec 1
  x : BitVec 1
  b : BitVec 1

structure RexModRM where
  reg : BitVec 4
  rm : BitVec 4

structure RexSib where
  index : BitVec 4
  base : BitVec 4

def setSibFields (src : Byte) : Sib where
  scale := scaleOf src
  index := indexOf src
  base := baseOf src

def setRexModRM (rex : Rex) (modrm : ModRM) : RexModRM where
  rm := rex.b ++ modrm.rm
  reg := rex.r ++ modrm.reg

def setRexSib (rex : Rex) (sib : Sib) : RexSib where
  index := rex.x ++ sib.index
  base := rex.b ++ sib.base

/-- `SET_REX`. -/
def rexOf (rex_b : Byte) : Rex where
  w := rex_b.extractLsb' 3 1
  r := rex_b.extractLsb' 2 1
  x := rex_b.extractLsb' 1 1
  b := rex_b.extractLsb' 0 1

/-- What is used of an `X86_INSTRUCTION`. `OperandFlags` has an entry for each operand, and
    `SrcOpIndex` and `DstOpIndex` are as long as their counts say. -/
structure X86Instruction where
  operandFlags : List (BitVec 32)
  sib_b : Byte
  modrm : ModRM
  sib : Sib
  rex_b : Byte
  rex : Rex
  rexModRM : RexModRM
  rexSib : RexSib
  segment : Segment
  srcOpIndex : List Nat
  dstOpIndex : List Nat
  baseRegister : Nat
  indexRegister : Nat
  scale : Nat
  hasSegmentOverridePrefix : Bool
  hasDstAddressing : Bool
  hasSrcAddressing : Bool
  hasBaseRegister : Bool
  hasIndexRegister : Bool
  hasFullDisplacement : Bool
  dstAddressIndex : Nat
  srcAddressIndex : Nat
  operandSize : Nat
  addressSize : Nat
  relative : Bool
  hasSelector : Bool
  displacement : Int

/-- What is used of an `INSTRUCTION`; its address is a number, and its bytes are given apart. -/
structure Instruction where
  archType : ArchitectureType
  virtualAddressDelta : BitVec 64
  groups : BitVec 32
  isStrcmp : Bool
  address : BitVec 64
  length : Nat
  x86 : X86Instruction
  anomalyOccurred : Bool

/-- What is used of an `INSTRUCTION_OPERAND`. -/
structure Operand where
  flags : BitVec 32
  length : Nat
  targetAddress : BitVec 64
  register : Nat

def ITYPE_STACK : BitVec 32 := 0x800

def OP_REG : BitVec 32 := 0x80
def OP_SIGNED : BitVec 32 := 0x100
def OP_SRC : BitVec 32 := 0x2000
def OP_DST : BitVec 32 := 0x4000
def OP_ADDRESS : BitVec 32 := 0x10000
def OP_GLOBAL : BitVec 32 := 0x80000
def OP_IPREL : BitVec 32 := 0x200000

def X86_AMODE_MASK : BitVec 32 := 0x00ff0000
def X86_OPTYPE_MASK : BitVec 32 := 0xff0000ff
def AMODE_I : BitVec 32 := 0x00060000
def OPTYPE_1 : BitVec 32 := 0x02
def OPTYPE_b : BitVec 32 := 0x02000000
def OPTYPE_v : BitVec 32 := 0x07000000
def OPTYPE_w : BitVec 32 := 0x08000000
def OPTYPE_z : BitVec 32 := 0x12000000

def X86_REG_IP : Nat := 0x09
def X86_REG_EIP : Nat := 0x0a
def AMD64_REG_RIP : Nat := 0x0b
def X86_8BIT_OFFSET : Nat := 0x70
def X86_16BIT_OFFSET : Nat := 0x80
def X86_32BIT_OFFSET : Nat := 0x90
def AMD64_8BIT_OFFSET : Nat := 0xa0
def AMD64_64BIT_OFFSET : Nat := 0xd0
def AMD64_DIFF : Nat := AMD64_8BIT_OFFSET - X86_8BIT_OFFSET
def X86_REG_BX : Nat := X86_16BIT_OFFSET + 3
def X86_REG_BP : Nat := X86_16BIT_OFFSET + 5
def X86_REG_SI : Nat := X86_16BIT_OFFSET + 6
def X86_REG_DI : Nat := X86_16BIT_OFFSET + 7
def X86_REG_EBP : Nat := X86_32BIT_OFFSET + 5
def AMD64_REG_RBP : Nat := AMD64_64BIT_OFFSET + 5
def AMD64_REG_R13 : Nat := AMD64_64BIT_OFFSET + 13
def REG_ESP : Nat := 4
def REG_EBP : Nat := 5
def REG_BP : Nat := 5

def VALID_ADDRESS_MIN : Nat := 0x10000
/-- The build decides: one for Win64 disassembles x64 only, and one for Win32 the rest. -/
def VALID_ADDRESS_MAX : ArchitectureType → Nat
  | .x64 => 0x7ffeffffffffffff
  | .x86 | .x86_16 => 0x7ffeffff

/-- The bits of a `ULONG_PTR`. -/
def pointerBits : ArchitectureType → Nat
  | .x64 => 64
  | .x86 | .x86_16 => 32

def isValidAddress (arch : ArchitectureType) (a : Int) : Bool :=
  let x := (BitVec.ofInt (pointerBits arch) a).toNat
  VALID_ADDRESS_MIN ≤ x ∧ x < VALID_ADDRESS_MAX arch + 1

def Operand.has (o : Operand) (flag : BitVec 32) : Bool := o.flags &&& flag ≠ 0#32
def Operand.add (o : Operand) (flags : BitVec 32) : Operand := { o with flags := o.flags ||| flags }

/-! ### Fields -/

def setSegment (i : Instruction) (segment : Segment) : Instruction := { i with x86 := { i.x86 with segment := segment } }

def setDisplacement (i : Instruction) (displacement : Int) : Instruction :=
  { i with x86 := { i.x86 with displacement := displacement } }

def setFull (i : Instruction) (full : Bool) : Instruction :=
  { i with x86 := { i.x86 with hasFullDisplacement := full } }

def setBase (i : Instruction) (register : Nat) : Instruction :=
  { i with x86 := { i.x86 with baseRegister := register, hasBaseRegister := true } }

def setIndex (i : Instruction) (register : Nat) : Instruction :=
  { i with x86 := { i.x86 with indexRegister := register, hasIndexRegister := true } }

def setRelative (i : Instruction) : Instruction := { i with x86 := { i.x86 with relative := true } }

def setScale (i : Instruction) (scale : Nat) : Instruction := { i with x86 := { i.x86 with scale := scale } }

/-- The SIB byte, with its fields and their extensions. -/
def setSibByte (i : Instruction) (src : Byte) : Instruction :=
  { i with
    x86 := { i.x86 with
      sib_b := src
      sib := setSibFields src
      rexSib := setRexSib i.x86.rex (setSibFields src) } }

def setAnomaly (i : Instruction) (anomaly : Bool) : Instruction := { i with anomalyOccurred := anomaly }

def Operand.setRegister (o : Operand) (register : Nat) : Operand := { o with register := register }
def Operand.setTarget (o : Operand) (target : BitVec 64) : Operand := { o with targetAddress := target }

/-! ### Macros -/

/-- `INSTR_INC`, for the length. -/
def instrInc (i : Instruction) (size : Nat) : Instruction := { i with length := i.length + size }

/-- `SANITY_CHECK_SEGMENT_OVERRIDE`. -/
def sanityCheckSegmentOverride (i : Instruction) : Instruction :=
  setAnomaly i (i.anomalyOccurred || i.x86.hasSegmentOverridePrefix)

/-- Windows has a flat address space. -/
def getAbsoluteAddressFromSegment (_ : Segment) (offset : BitVec 32) : BitVec 64 := offset.setWidth 64

/-- `X86_SET_TARGET`. -/
def x86SetTarget (i : Instruction) (o : Operand) : Instruction × Operand :=
  if i.x86.hasSelector then (setAnomaly i true, o)
  else
    match i.x86.segment with
    | .cs | .ds | .ss | .es => (i, o.setTarget (BitVec.ofInt 64 i.x86.displacement))
    | .fs | .gs =>
      (i, o.setTarget (getAbsoluteAddressFromSegment i.x86.segment (BitVec.ofInt 32 i.x86.displacement)))

/-- `X86_SET_SEG`. -/
def x86SetSeg (i : Instruction) (reg : Nat) : Option Instruction :=
  if i.x86.hasSegmentOverridePrefix = false ∧ (reg = REG_EBP ∨ reg = REG_ESP) then
    if i.x86.hasSelector then none else some (setSegment i .ss)
  else some i

/-- What `X86_SET_ADDR` notes of a destination and of a source. -/
def noteAddress (i : Instruction) (o : Operand) (operandIndex : Nat) : Instruction :=
  { i with
    x86 := { i.x86 with
      hasDstAddressing := if o.has OP_DST then true else i.x86.hasDstAddressing
      dstOpIndex := if o.has OP_DST then i.x86.dstOpIndex ++ [operandIndex] else i.x86.dstOpIndex
      dstAddressIndex := if o.has OP_DST then operandIndex else i.x86.dstAddressIndex
      hasSrcAddressing := if o.has OP_SRC then true else i.x86.hasSrcAddressing
      srcOpIndex := if o.has OP_SRC then i.x86.srcOpIndex ++ [operandIndex] else i.x86.srcOpIndex
      srcAddressIndex := if o.has OP_SRC then operandIndex else i.x86.srcAddressIndex } }

/-- `X86_SET_ADDR`. -/
def x86SetAddr (i : Instruction) (o : Operand) (operandIndex : Nat) : Option Instruction :=
  if o.has OP_DST ∧ i.x86.hasDstAddressing then none
  else if o.has OP_SRC ∧ i.isStrcmp = false ∧ i.x86.hasSrcAddressing then none
  else some (noteAddress i o operandIndex)

/-- What `X86_SET_REG` notes. -/
def noteRegister (i : Instruction) (o : Operand) (operandIndex reg : Nat) : Instruction :=
  { i with
    groups := if o.has OP_DST ∧ 1 < o.length ∧ reg = REG_ESP then i.groups ||| ITYPE_STACK else i.groups
    x86 := { i.x86 with
      dstOpIndex := if o.has OP_DST then i.x86.dstOpIndex ++ [operandIndex] else i.x86.dstOpIndex
      srcOpIndex := if o.has OP_SRC then i.x86.srcOpIndex ++ [operandIndex] else i.x86.srcOpIndex } }

/-- `X86_SET_REG`. -/
def x86SetReg (i : Instruction) (o : Operand) (operandIndex reg : Nat) : Option Instruction :=
  if o.has OP_DST ∧ ¬ operandIndex < 2 then none else some (noteRegister i o operandIndex reg)

/-- `CHECK_AMD64_REG`. -/
def checkAmd64Reg (i : Instruction) (register : Nat) : Nat :=
  if i.archType = .x64 then register + AMD64_DIFF else register

/-! ### The ModRM byte -/

/-- The instruction, the operand, and the address behind what has been read; `none` where an
    assertion fails. -/
abbrev Result := Option (Instruction × Operand × Nat)

/-- `ApplyDisplacement`, with `SUPPORT_WRAPAROUND`. -/
def applyDisplacement (address : BitVec 64) (i : Instruction) : Option (BitVec 64) :=
  let virtualAddress := address + i.virtualAddressDelta
  match i.x86.operandSize with
  | 8 =>
    let preAddr := virtualAddress
    let postAddr := preAddr + BitVec.ofInt 64 i.x86.displacement
    some (address + (postAddr - preAddr))
  | 4 =>
    -- The difference of two `U32` is a `U32`.
    let preAddr := virtualAddress.setWidth 32
    let postAddr := preAddr + BitVec.ofInt 32 i.x86.displacement
    some (address + (postAddr - preAddr).setWidth 64)
  | 2 =>
    -- The difference of two `U16` is an `int`.
    let preAddr := virtualAddress.setWidth 16
    let postAddr := preAddr + BitVec.ofInt 16 i.x86.displacement
    some (address + BitVec.ofInt 64 (postAddr.toNat - preAddr.toNat))
  | _ => none

/-- A displacement that may be an address, behind a register. -/
def markGlobal (i : Instruction) (o : Operand) : Instruction × Operand :=
  if isValidAddress i.archType i.x86.displacement then (setFull i true, o.add OP_GLOBAL) else (i, o)

/-- A displacement that may be an address, and is all there is. -/
def markTarget (i : Instruction) (o : Operand) : Instruction × Operand :=
  if isValidAddress i.archType i.x86.displacement then
    let (i, o) := x86SetTarget i o
    (setFull i true, o.add OP_GLOBAL)
  else (i, o)

/-- The registers of 16-bit addressing, and whether `X86_SET_SEG(REG_BP)` is among the
    statements of the case. -/
def registers16 (rm : BitVec 3) : Nat × Option Nat × Bool :=
  match rm.toNat with
  | 0 => (X86_REG_BX, some X86_REG_SI, false)
  | 1 => (X86_REG_BX, some X86_REG_DI, false)
  | 2 => (X86_REG_BP, some X86_REG_SI, true)
  | 3 => (X86_REG_BP, some X86_REG_DI, true)
  | 4 => (X86_REG_SI, none, false)
  | 5 => (X86_REG_DI, none, false)
  | 6 => (X86_REG_BP, none, false)
  | _ => (X86_REG_BX, none, false)

/-- `SetModRM16`; the address is that behind the ModRM byte. -/
def setModRM16 (code : Memory) (i : Instruction) (a : Nat) (o : Operand) (operandIndex : Nat) : Result :=
  let modrm := i.x86.modrm
  if i.x86.rex_b ≠ 0 then none
  else if modrm.mod = 3 then do
    let register ←
      match o.length with
      | 4 => some (X86_32BIT_OFFSET + modrm.rm.toNat)
      | 2 => some (X86_16BIT_OFFSET + modrm.rm.toNat)
      | 1 => some (X86_8BIT_OFFSET + modrm.rm.toNat)
      | _ => none
    some (i, (o.setRegister register).add OP_REG, a)
  else if modrm.mod = 0 ∧ modrm.rm = 6 then do
    let (i, o) := markTarget (setDisplacement i (load16 code a).toInt) o
    let i ← x86SetAddr i o operandIndex
    some (instrInc i 2, o.add OP_ADDRESS, a + 2)
  else do
    let (i, o, a) :=
      if modrm.mod = 1 then (instrInc (setDisplacement i (code a).toInt) 1, o, a + 1)
      else if modrm.mod = 2 then
        let (i, o) := markGlobal (setDisplacement i (load16 code a).toInt) o
        (instrInc i 2, o, a + 2)
      else (i, o, a)
    let (base, index, seg) := registers16 modrm.rm
    let i := setBase i base
    let i := index.elim i (setIndex i)
    let i ← if seg then x86SetSeg i REG_BP else some i
    let o := o.add (OP_ADDRESS ||| OP_REG)
    let i ← x86SetAddr i o operandIndex
    some (i, o, a)

/-- The registers of the size of an address, as a base and as an index. -/
def baseOfSize (i : Instruction) (n : BitVec 4) : Option Nat :=
  match i.x86.addressSize with
  | 8 => some (AMD64_64BIT_OFFSET + n.toNat)
  | 4 => some (checkAmd64Reg i (X86_32BIT_OFFSET + n.toNat))
  | _ => none

def indexOfSize (i : Instruction) (n : BitVec 4) : Option Nat :=
  match i.x86.addressSize with
  | 8 => some (AMD64_64BIT_OFFSET + n.toNat)
  | 4 => some (X86_32BIT_OFFSET + n.toNat)
  | _ => none

/-- The base that `SetSIB` takes for the number 5 behind a displacement. -/
def sibBase5 (i : Instruction) : Option (Instruction × Nat) :=
  if i.x86.rexSib.base = 5 then do
    let register ←
      match i.x86.addressSize with
      | 8 => some AMD64_REG_RBP
      | 4 => some X86_REG_EBP
      | _ => none
    let i ← x86SetSeg i REG_EBP
    some (i, register)
  else some (i, AMD64_REG_R13)

/-- The base in `SetSIB`, and a displacement that stands behind a base of 5. -/
def readBase (code : Memory) (i : Instruction) (a : Nat) (o : Operand) : Result :=
  if i.x86.sib.base = 5 then
    if i.x86.modrm.mod = 0 then
      let (i, o) := markTarget (setDisplacement i (load32 code a).toInt) o
      some (instrInc i 4, o, a + 4)
    else if i.x86.modrm.mod = 1 then do
      let (i, register) ← sibBase5 (setDisplacement i (code a).toInt)
      some (instrInc (setBase i register) 1, (o.setRegister register).add OP_REG, a + 1)
    else if i.x86.modrm.mod = 2 then do
      let (i, register) ← sibBase5 (setDisplacement i (load32 code a).toInt)
      let (i, o) := markGlobal i (o.setRegister register)
      some (instrInc (setBase i register) 4, o.add OP_REG, a + 4)
    else some (i, o, a)
  else do
    let register ← baseOfSize i i.x86.rexSib.base
    let i ← x86SetSeg (setBase i register) i.x86.rexSib.base.toNat
    some (i, (o.setRegister register).add OP_REG, a)

/-- The index in `SetSIB`. -/
def readIndex (i : Instruction) (a : Nat) (o : Operand) : Result :=
  if i.x86.rexSib.index ≠ 4 then do
    let register ← indexOfSize i i.x86.rexSib.index
    some (setScale (setIndex i register) (2 ^ i.x86.sib.scale.toNat), o.setTarget 0, a)
  else some (i, o, a)

/-- `SetSIB`; the address is that of the SIB byte. -/
def setSib (code : Memory) (i : Instruction) (a : Nat) (o : Operand) (operandIndex : Nat) : Result := do
  let i := setSibByte i (code a)
  let o := o.add OP_ADDRESS
  let i ← x86SetAddr i o operandIndex
  let (i, o, a) ← readBase code (instrInc i 1) (a + 1) o
  readIndex i a o

/-- The bytes of an immediate operand of the given type. -/
def immediate (operandSize : Nat) (optype : BitVec 32) : Option Nat :=
  if optype = OPTYPE_v then some operandSize
  else if optype = OPTYPE_z then
    match operandSize with
    | 8 | 4 => some 4
    | 2 => some 2
    | _ => none
  else if optype = OPTYPE_b then some 1
  else if optype = OPTYPE_w then some 2
  else if optype = OPTYPE_1 then some 0
  else none

/-- The loop that finds the size of the immediate value among the later operands. -/
def immediateSize (operandSize : Nat) : List (BitVec 32) → Nat → Option Nat
  | [], size => some size
  | flags :: later, size =>
    if flags &&& X86_AMODE_MASK ≠ AMODE_I then immediateSize operandSize later size
    else if size ≠ 0 then none
    else (immediate operandSize (flags &&& X86_OPTYPE_MASK)).bind (immediateSize operandSize later)

/-- The register of an operand that is no address. -/
def modRMRegister (i : Instruction) (o : Operand) (rm : BitVec 4) : Option Nat :=
  match o.length with
  | 8 => some (AMD64_64BIT_OFFSET + rm.toNat)
  | 4 => some (checkAmd64Reg i (X86_32BIT_OFFSET + rm.toNat))
  | 2 => some (checkAmd64Reg i (X86_16BIT_OFFSET + rm.toNat))
  | 1 =>
    some (if i.x86.rex_b ≠ 0 then checkAmd64Reg i (X86_8BIT_OFFSET + rm.toNat) else X86_8BIT_OFFSET + rm.toNat)
  | _ => none

/-- The instruction pointer of the operand size. -/
def ipOfSize (i : Instruction) : Option Nat :=
  match i.x86.operandSize with
  | 8 => some AMD64_REG_RIP
  | 4 => some X86_REG_EIP
  | 2 => some X86_REG_IP
  | _ => none

/-- Where an address relative to the instruction pointer lies: behind the displacement there may
    be an immediate value. -/
def ipTarget (i : Instruction) (a operandIndex : Nat) : Option (BitVec 64) := do
  let size ← immediateSize i.x86.operandSize (i.x86.operandFlags.drop (operandIndex + 1)) 0
  applyDisplacement (i.address + BitVec.ofNat 64 a + BitVec.ofNat 64 size) i

/-- The instruction pointer is the base, in the code segment where no other is asked for. -/
def setIpBase (i : Instruction) (register : Nat) : Instruction :=
  let i := sanityCheckSegmentOverride (setRelative (setBase i register))
  setFull (setSegment i (if i.x86.hasSegmentOverridePrefix = false then .cs else i.x86.segment)) true

/-- An address relative to the instruction pointer, behind its displacement. -/
def setIpRelative (i : Instruction) (a : Nat) (o : Operand) (operandIndex : Nat) : Option (Instruction × Operand) := do
  let register ← ipOfSize i
  let i := setIpBase i register
  let o := (o.setRegister register).add (OP_IPREL ||| OP_SIGNED ||| OP_REG)
  let target ← ipTarget i a operandIndex
  some (i, o.setTarget target)

/-- The displacement behind the registers of an address. -/
def readDisplacement (code : Memory) (i : Instruction) (a : Nat) (o : Operand) (mod : BitVec 2) :
    Instruction × Operand × Nat :=
  if mod = 1 then (instrInc (setDisplacement i (code a).toInt) 1, o, a + 1)
  else if mod = 2 then
    let (i, o) := markGlobal (setDisplacement i (load32 code a).toInt) o
    (instrInc i 4, o, a + 4)
  else (i, o, a)

/-- `SetModRM32`; the address is that behind the ModRM byte. -/
def setModRM32 (code : Memory) (i : Instruction) (a : Nat) (o : Operand) (operandIndex : Nat) : Result :=
  let modrm := i.x86.modrm
  let rexModRM := i.x86.rexModRM
  if i.x86.addressSize = 2 then setModRM16 code i a o operandIndex
  else if modrm.mod = 3 then do
    let register ← modRMRegister i o rexModRM.rm
    let o := o.setRegister register
    let i ← x86SetReg i o operandIndex rexModRM.rm.toNat
    some (i, o.add OP_REG, a)
  else if modrm.mod = 0 ∧ modrm.rm = 5 then do
    let o := o.add OP_ADDRESS
    let i := instrInc (setDisplacement i (load32 code a).toInt) 4
    let a := a + 4
    let (i, o) ←
      if i.archType = .x64 then setIpRelative i a o operandIndex
      else some (markTarget i o)
    let i ← x86SetAddr i o operandIndex
    some (i, o, a)
  else if modrm.rm = 4 then do
    let (i, o, a) ← setSib code i a o operandIndex
    -- Behind a base of 5 the displacement is read already.
    some (if i.x86.sib.base ≠ 5 then readDisplacement code i a o modrm.mod else (i, o, a))
  else do
    let register ← baseOfSize i rexModRM.rm
    let i := setBase i register
    let o := (o.setRegister register).add (OP_ADDRESS ||| OP_REG)
    let i ← x86SetSeg i rexModRM.rm.toNat
    let i ← x86SetAddr i o operandIndex
    some (readDisplacement code i a o modrm.mod)

/-! ### What an operand is said to be -/

/-- A register of some bytes; the high halves of 16-bit registers; and the numbers that
    `X86_Registers` has no text for. -/
inductive Register where
  | ip (size : Nat)
  | general (size n : Nat)
  | high (n : Nat)
  | unnamed
  deriving DecidableEq

/-- What `X86_Registers` has at the number of a general register or an instruction pointer. -/
def registerNamed (register : Nat) : Register :=
  let n := register % 16
  match register / 16 with
  | 0 => if n = 9 then .ip 2 else if n = 10 then .ip 4 else if n = 11 then .ip 8 else .unnamed
  | 7 => if n < 4 then .general 1 n else if n < 8 then .high (n - 4) else .unnamed
  | 8 => if n < 8 then .general 2 n else .unnamed
  | 9 => if n < 8 then .general 4 n else .unnamed
  | 10 => .general 1 n
  | 11 => .general 2 n
  | 12 => .general 4 n
  | 13 => .general 8 n
  | _ => .unnamed

/-- A register, or an address with a base, an index with its scale, and a displacement. -/
inductive Described where
  | register (r : Register)
  | address (base : Option Register) (index : Option (Register × Nat)) (displacement : Int)
  deriving DecidableEq

/-- What the fields say. -/
def described (i : Instruction) (o : Operand) : Described :=
  if o.has OP_ADDRESS then
    .address (if i.x86.hasBaseRegister then some (registerNamed i.x86.baseRegister) else none)
      (if i.x86.hasIndexRegister then some (registerNamed i.x86.indexRegister, i.x86.scale) else none)
      i.x86.displacement
  else .register (registerNamed o.register)

/-- A register of the size of an address, and one that is scaled. -/
def addressing (i : Instruction) (n : BitVec 4) : Register := .general i.x86.addressSize n.toNat
def indexed (i : Instruction) (index : BitVec 4) (scale : BitVec 2) : Option (Register × Nat) :=
  if index = NO_INDEX then none else some (addressing i index, 2 ^ scale.toNat)

/-- What the processor takes a form for. Without a REX prefix the byte registers 4 to 7 are
    high halves. -/
def meaning (i : Instruction) (o : Operand) : Form → Described
  | .register rm =>
    .register (if o.length = 1 ∧ i.x86.rex_b = 0 ∧ 4 ≤ rm.toNat then .high (rm.toNat - 4) else .general o.length rm.toNat)
  | .flat d => .address (if i.archType = .x64 then some (.ip i.x86.addressSize) else none) none d.toInt
  | .based base d _ _ => .address (some (addressing i base)) none d.value
  | .scaled base d index scale _ => .address (some (addressing i base)) (indexed i index scale) d.value
  | .unbased d index scale => .address none (indexed i index scale) d.toInt

/-- The forms with a register that is not the one named: an instruction pointer of another size,
    and, in addresses of 32 bits, the upper registers behind a SIB byte that have no 32-bit number. -/
def misnamed (i : Instruction) : Form → Prop
  | .register _ | .based _ _ _ _ => False
  | .flat _ => i.archType = .x64 ∧ i.x86.operandSize ≠ i.x86.addressSize
  | .scaled base _ index _ _ => i.x86.addressSize = 4 ∧ (base = 13#4 ∨ 8 ≤ index.toNat)
  | .unbased _ index _ => i.x86.addressSize = 4 ∧ 8 ≤ index.toNat

/-- The extensions and fields of an instruction. -/
def fields (i : Instruction) : Fields where
  x := i.x86.rex.x
  b := i.x86.rex.b
  mode := i.x86.modrm.mod
  rm := i.x86.modrm.rm

/-- What the caller has seen to: the prefixes are read, and no operand is an address so far. -/
structure Ready (i : Instruction) (o : Operand) (operandIndex : Nat) : Prop where
  rexModRM : i.x86.rexModRM = setRexModRM i.x86.rex i.x86.modrm
  extensions : i.x86.rex_b = 0 → i.x86.rex.x = 0#1 ∧ i.x86.rex.b = 0#1
  extended : i.x86.rex_b ≠ 0 → i.archType = .x64
  addressSize : i.x86.addressSize = 4 ∨ i.x86.addressSize = 8 ∧ i.archType = .x64
  operandSize : i.x86.operandSize = 2 ∨ i.x86.operandSize = 4 ∨ i.x86.operandSize = 8
  selector : i.x86.hasSelector = false
  fresh : i.x86.hasDstAddressing = false ∧ i.x86.hasSrcAddressing = false
  base : i.x86.hasBaseRegister = false
  index : i.x86.hasIndexRegister = false
  displacement : i.x86.displacement = 0
  address : o.has OP_ADDRESS = false
  ipRel : o.has OP_IPREL = false ∧ i.x86.relative = false
  register : i.x86.modrm.mod = 3 → (o.length = 1 ∨ o.length = 2 ∨ o.length = 4 ∨ o.length = 8) ∧ operandIndex < 2
  immediates : ∃ size, immediateSize i.x86.operandSize (i.x86.operandFlags.drop (operandIndex + 1)) 0 = some size

/-! ### The macros -/

/-- What no function here changes. -/
structure Context where
  archType : ArchitectureType
  address : BitVec 64
  virtualAddressDelta : BitVec 64
  operandFlags : List (BitVec 32)
  modrm : ModRM
  hasSelector : Bool
  operandSize : Nat
  addressSize : Nat

def context (i : Instruction) : Context where
  archType := i.archType
  address := i.address
  virtualAddressDelta := i.virtualAddressDelta
  operandFlags := i.x86.operandFlags
  modrm := i.x86.modrm
  hasSelector := i.x86.hasSelector
  operandSize := i.x86.operandSize
  addressSize := i.x86.addressSize

/-- Whether an operand has been noted as an address already, as destination and as source. -/
def noted (i : Instruction) : Bool × Bool := (i.x86.hasDstAddressing, i.x86.hasSrcAddressing)

section
variable (i : Instruction)
@[simp] theorem noted_setSegment (segment : Segment) : noted (setSegment i segment) = noted i := rfl
@[simp] theorem noted_setDisplacement (d : Int) : noted (setDisplacement i d) = noted i := rfl
@[simp] theorem noted_setFull (full : Bool) : noted (setFull i full) = noted i := rfl
@[simp] theorem noted_setBase (register : Nat) : noted (setBase i register) = noted i := rfl
@[simp] theorem noted_setRelative : noted (setRelative i) = noted i := rfl
@[simp] theorem noted_setAnomaly (anomaly : Bool) : noted (setAnomaly i anomaly) = noted i := rfl
@[simp] theorem noted_setSibByte (src : Byte) : noted (setSibByte i src) = noted i := rfl
@[simp] theorem noted_instrInc (size : Nat) : noted (instrInc i size) = noted i := rfl
@[simp] theorem noted_sanityCheck : noted (sanityCheckSegmentOverride i) = noted i := rfl
@[simp] theorem noted_setIpBase (register : Nat) : noted (setIpBase i register) = noted i := by simp [setIpBase]
end

theorem x86SetAddr_fresh (i : Instruction) (o : Operand) (operandIndex : Nat) (fresh : noted i = (false, false)) :
    x86SetAddr i o operandIndex = some (noteAddress i o operandIndex) := by
  obtain ⟨destination, source⟩ := Prod.mk.inj fresh
  simp [x86SetAddr, destination, source]

theorem x86SetSeg_flat (i : Instruction) (reg : Nat) (selector : i.x86.hasSelector = false) :
    ∃ segment, x86SetSeg i reg = some (setSegment i segment) := by
  unfold x86SetSeg
  split_ifs with stack selected
  · rw [selector] at selected
    cases selected
  · exact ⟨_, rfl⟩
  · exact ⟨i.x86.segment, rfl⟩

theorem markGlobal_cases (i : Instruction) (o : Operand) :
    ∃ full flags, markGlobal i o = (setFull i full, o.add flags) ∧ flags &&& OP_IPREL = 0#32 := by
  unfold markGlobal
  split_ifs
  · exact ⟨true, OP_GLOBAL, rfl, by decide⟩
  · exact ⟨i.x86.hasFullDisplacement, 0, by simp [Operand.add, setFull], by decide⟩

theorem markTarget_cases (i : Instruction) (o : Operand) :
    ∃ anomaly full target flags, markTarget i o = (setFull (setAnomaly i anomaly) full, (o.setTarget target).add flags) ∧
      flags &&& OP_IPREL = 0#32 := by
  unfold markTarget x86SetTarget
  split_ifs
  · exact ⟨true, true, o.targetAddress, OP_GLOBAL, rfl, by decide⟩
  · cases i.x86.segment <;> exact ⟨i.anomalyOccurred, true, _, OP_GLOBAL, rfl, by decide⟩
  · exact ⟨i.anomalyOccurred, i.x86.hasFullDisplacement, o.targetAddress, 0,
      by simp [Operand.add, setFull, setAnomaly, Operand.setTarget], by decide⟩

@[simp] theorem has_add (o : Operand) (flags flag : BitVec 32) :
    (o.add flags).has flag = (o.has flag || decide (flags &&& flag ≠ 0#32)) := by
  have split : (o.flags ||| flags) &&& flag = 0#32 ↔ o.flags &&& flag = 0#32 ∧ flags &&& flag = 0#32 := by
    rw [BitVec.and_or_distrib_right]
    exact BitVec.or_eq_zero_iff
  by_cases own : o.flags &&& flag = 0#32 <;> by_cases added : flags &&& flag = 0#32 <;>
    simp [Operand.has, Operand.add, split, own, added]

@[simp] theorem has_setRegister (o : Operand) (register : Nat) (flag : BitVec 32) :
    (o.setRegister register).has flag = o.has flag := rfl
@[simp] theorem has_setTarget (o : Operand) (target : BitVec 64) (flag : BitVec 32) :
    (o.setTarget target).has flag = o.has flag := rfl

/-! ### Forms -/

/-- The registers of the size of an address. -/
def addressRegister (i : Instruction) (n : BitVec 4) : Nat :=
  if i.x86.addressSize = 8 then AMD64_64BIT_OFFSET + n.toNat else checkAmd64Reg i (X86_32BIT_OFFSET + n.toNat)

/-- The registers that the functions name for a base and an index behind a SIB byte. -/
def sibBase (i : Instruction) (n : BitVec 4) : Nat :=
  if n = 13#4 then AMD64_REG_R13
  else if n = 5#4 then if i.x86.addressSize = 8 then AMD64_REG_RBP else X86_REG_EBP
  else addressRegister i n
def sibIndex (i : Instruction) (n : BitVec 4) : Nat :=
  if i.x86.addressSize = 8 then AMD64_64BIT_OFFSET + n.toNat else X86_32BIT_OFFSET + n.toNat

/-- An address in the making: what is known of it after some bytes, and what the caller left. -/
structure Filled (i : Instruction) (relative : Bool × Bool) (n : Nat) (base : Option Nat) (index : Option (Nat × Nat)) (displacement : Int)
    (j : Instruction) (p : Operand) : Prop where
  length : j.length = i.length + n
  address : p.has OP_ADDRESS = true
  relative : (p.has OP_IPREL, j.x86.relative) = relative
  base : (if j.x86.hasBaseRegister then some j.x86.baseRegister else none) = base
  index : (if j.x86.hasIndexRegister then some (j.x86.indexRegister, j.x86.scale) else none) = index
  displacement : j.x86.displacement = displacement
  kept : context j = context i

namespace Filled
variable {i j : Instruction} {p : Operand} {relative : Bool × Bool} {n : Nat} {base : Option Nat} {index : Option (Nat × Nat)} {displacement : Int}

theorem start {o : Operand} {operandIndex : Nat} (ready : Ready i o operandIndex) (address : p.has OP_ADDRESS = true)
    (ipRel : p.has OP_IPREL = false) : Filled i (false, false) 0 none none 0 i p where
  length := rfl
  address := address
  relative := Prod.ext ipRel ready.ipRel.2
  base := by simp [ready.base]
  index := by simp [ready.index]
  displacement := ready.displacement
  kept := rfl

theorem archType (filled : Filled i relative n base index displacement j p) : j.archType = i.archType :=
  congrArg Context.archType filled.kept
theorem addressSize (filled : Filled i relative n base index displacement j p) : j.x86.addressSize = i.x86.addressSize :=
  congrArg Context.addressSize filled.kept
theorem modrm (filled : Filled i relative n base index displacement j p) : j.x86.modrm = i.x86.modrm :=
  congrArg Context.modrm filled.kept
theorem selector (filled : Filled i relative n base index displacement j p) : j.x86.hasSelector = i.x86.hasSelector :=
  congrArg Context.hasSelector filled.kept

theorem inc (filled : Filled i relative n base index displacement j p) (size : Nat) :
    Filled i relative (n + size) base index displacement (instrInc j size) p :=
  { filled with length := by rw [instrInc, filled.length, Nat.add_assoc] }

theorem setBase (filled : Filled i relative n base index displacement j p) (register : Nat) :
    Filled i relative n (some register) index displacement (setBase j register) p :=
  { filled with base := rfl }

theorem setIndex (filled : Filled i relative n base index displacement j p) (register scale : Nat) :
    Filled i relative n base (some (register, scale)) displacement (setScale (setIndex j register) scale) p :=
  { filled with index := rfl }

theorem setDisplacement (filled : Filled i relative n base index displacement j p) (d : Int) :
    Filled i relative n base index d (setDisplacement j d) p :=
  { filled with displacement := rfl }

theorem setFull (filled : Filled i relative n base index displacement j p) (full : Bool) :
    Filled i relative n base index displacement (setFull j full) p :=
  { filled with }

theorem setSegment (filled : Filled i relative n base index displacement j p) (segment : Segment) :
    Filled i relative n base index displacement (setSegment j segment) p :=
  { filled with }

theorem setAnomaly (filled : Filled i relative n base index displacement j p) (anomaly : Bool) :
    Filled i relative n base index displacement (setAnomaly j anomaly) p :=
  { filled with }

theorem sanityCheck (filled : Filled i relative n base index displacement j p) :
    Filled i relative n base index displacement (sanityCheckSegmentOverride j) p :=
  filled.setAnomaly _

theorem setRelative (filled : Filled i relative n base index displacement j p) :
    Filled i (relative.1, true) n base index displacement (setRelative j) p :=
  { filled with
    relative := by
      rw [← filled.relative]
      rfl }

theorem setIpBase (filled : Filled i relative n base index displacement j p) (register : Nat) :
    Filled i (relative.1, true) n (some register) index displacement (setIpBase j register) p :=
  ((filled.setBase register).setRelative.sanityCheck.setSegment _).setFull true

theorem noteAddress (filled : Filled i relative n base index displacement j p) (o : Operand) (operandIndex : Nat) :
    Filled i relative n base index displacement (noteAddress j o operandIndex) p :=
  { filled with }

theorem setRegister (filled : Filled i relative n base index displacement j p) (register : Nat) :
    Filled i relative n base index displacement j (p.setRegister register) :=
  { filled with }

theorem setTarget (filled : Filled i relative n base index displacement j p) (target : BitVec 64) :
    Filled i relative n base index displacement j (p.setTarget target) :=
  { filled with }

theorem add (filled : Filled i relative n base index displacement j p) {flags : BitVec 32}
    (apart : flags &&& OP_IPREL = 0#32) : Filled i relative n base index displacement j (p.add flags) :=
  { filled with
    address := by simp [filled.address]
    relative := by simp [← filled.relative, apart] }

theorem addIpRel (filled : Filled i relative n base index displacement j p) :
    Filled i (true, relative.2) n base index displacement j (p.add (OP_IPREL ||| OP_SIGNED ||| OP_REG)) :=
  { filled with
    address := by simp [filled.address]
    relative := by simp [← filled.relative, OP_IPREL, OP_SIGNED, OP_REG] }
end Filled

section
variable {code : Memory} {i j : Instruction} {a : Nat} {o p : Operand} {operandIndex n : Nat} {base : Option Nat}
  {index : Option (Nat × Nat)}

theorem noted_ready (ready : Ready i o operandIndex) : noted i = (false, false) := Prod.ext ready.fresh.1 ready.fresh.2

theorem wide (ready : Ready i o operandIndex) : i.x86.addressSize ≠ 2 := by
  rcases ready.addressSize with size | ⟨size, _⟩ <;> omega

theorem baseOfSize_eq (ready : Ready i o operandIndex) (archType : j.archType = i.archType)
    (addressSize : j.x86.addressSize = i.x86.addressSize) (n : BitVec 4) :
    baseOfSize j n = some (addressRegister i n) := by
  rcases ready.addressSize with size | ⟨size, _⟩ <;>
    simp [baseOfSize, addressRegister, checkAmd64Reg, archType, addressSize, size]

theorem indexOfSize_eq (ready : Ready i o operandIndex) (addressSize : j.x86.addressSize = i.x86.addressSize)
    (n : BitVec 4) : indexOfSize j n = some (sibIndex i n) := by
  rcases ready.addressSize with size | ⟨size, _⟩ <;> simp [indexOfSize, sibIndex, addressSize, size]

/-- The displacement is added to the registers. -/
theorem filled_read (filled : Filled i (false, false) n base index 0 j p) {mod : BitVec 2} {d : Displacement} (mode : d.mode = mod)
    (holds : Holds code (a + n) d.bytes) :
    ∃ i' o', readDisplacement code j (a + n) p mod = (i', o', a + (n + d.bytes.length)) ∧
      Filled i (false, false) (n + d.bytes.length) base index d.value i' o' := by
  subst mode
  cases d with
  | none => exact ⟨j, p, by simp [readDisplacement, Displacement.mode, Displacement.bytes], filled⟩
  | short d =>
    have first : code (a + n) = d := by simpa [Displacement.bytes] using holds
    refine ⟨_, _, ?_, (filled.setDisplacement d.toInt).inc 1⟩
    simp [readDisplacement, Displacement.mode, Displacement.bytes, first, Nat.add_assoc]
  | long d =>
    have word : load32 code (a + n) = d := holds_load32.mp holds
    obtain ⟨full, flags, marked, apart⟩ := markGlobal_cases (setDisplacement j d.toInt) p
    refine ⟨_, _, ?_, (((filled.setDisplacement d.toInt).setFull full).add apart).inc 4⟩
    simp [readDisplacement, Displacement.mode, Displacement.bytes, word, marked, Nat.add_assoc]

/-- A base, and nothing but a displacement behind it. -/
theorem based_filled (ready : Ready i o operandIndex) {base : BitVec 4} {d : Displacement} {plain : low base ≠ 4#3}
    {displaced : low base = 5#3 → d ≠ .none} (here : (encode (.based base d plain displaced)).At (fields i) code a) :
    ∃ i' o', setModRM32 code i a o operandIndex = some (i', o', a + d.bytes.length) ∧
      Filled i (false, false) d.bytes.length (some (addressRegister i base)) none d.value i' o' := by
  obtain ⟨_, b, sameMode, sameRm, tail⟩ := here
  have sameB : high base = i.x86.rex.b := b _ rfl
  change d.mode = i.x86.modrm.mod at sameMode
  change low base = i.x86.modrm.rm at sameRm
  change Holds code a d.bytes at tail
  have number : i.x86.rexModRM.rm = base := by rw [ready.rexModRM, setRexModRM, ← sameB, ← sameRm, high_low]
  have memory : i.x86.modrm.mod ≠ 3 := by
    rw [← sameMode]
    exact mode_memory d
  have flat : ¬ (i.x86.modrm.mod = 0 ∧ i.x86.modrm.rm = 5) := by
    rw [← sameMode, ← sameRm]
    exact mode_displaced displaced
  have extended : i.x86.modrm.rm ≠ 4 := by
    rw [← sameRm]
    exact plain
  have register := baseOfSize_eq ready rfl rfl base
  generalize addressRegister i base = r at register ⊢
  obtain ⟨segment, stack⟩ := x86SetSeg_flat (setBase i r) base.toNat ready.selector
  have noted := x86SetAddr_fresh (setSegment (setBase i r) segment) ((o.setRegister r).add (OP_ADDRESS ||| OP_REG))
    operandIndex (by simp [noted_ready ready])
  have address : ((o.setRegister r).add (OP_ADDRESS ||| OP_REG)).has OP_ADDRESS = true := by
    simp [OP_ADDRESS, OP_REG]
  have ipRel : ((o.setRegister r).add (OP_ADDRESS ||| OP_REG)).has OP_IPREL = false := by
    rw [has_add, has_setRegister, ready.ipRel.1]
    decide
  obtain ⟨i', o', read, filled⟩ := filled_read
    ((((Filled.start ready address ipRel).setBase r).setSegment segment).noteAddress
      ((o.setRegister r).add (OP_ADDRESS ||| OP_REG)) operandIndex) sameMode tail
  rw [Nat.zero_add] at read filled
  refine ⟨i', o', ?_, filled⟩
  rw [setModRM32]
  simp only [if_neg (wide ready), if_neg memory, if_neg flat, if_neg extended, number, register, Option.bind_eq_bind,
    Option.bind_some, stack, noted]
  rw [← read]
  rfl

/-! ### Scale, index and base -/

def sibIndexed (i : Instruction) (index : BitVec 4) (scale : BitVec 2) : Option (Nat × Nat) :=
  if index = NO_INDEX then none else some (sibIndex i index, 2 ^ scale.toNat)

theorem index_filled (ready : Ready i o operandIndex) {displacement : Int}
    (filled : Filled i (false, false) n base none displacement j p) :
    ∃ j' p', readIndex j a p = some (j', p', a) ∧
      Filled i (false, false) n base (sibIndexed i j.x86.rexSib.index j.x86.sib.scale) displacement j' p' ∧ j'.x86.sib = j.x86.sib := by
  by_cases present : j.x86.rexSib.index = 4
  · refine ⟨j, p, ?_, ?_, rfl⟩
    · rw [readIndex, if_neg (not_not.mpr present)]
    · rw [sibIndexed, if_pos (show _ = NO_INDEX from present)]
      exact filled
  · have made := (filled.setIndex (sibIndex i j.x86.rexSib.index) (2 ^ j.x86.sib.scale.toNat)).setTarget 0
    rw [sibIndexed, if_neg (show ¬ _ = NO_INDEX from present)]
    refine ⟨_, p.setTarget 0, ?_, made, rfl⟩
    rw [readIndex, if_pos present, indexOfSize_eq ready filled.addressSize]
    rfl

theorem sibBase5_eq (ready : Ready i o operandIndex) {displacement : Int} (filled : Filled i (false, false) n none none displacement j p)
    {base : BitVec 4} (same : j.x86.rexSib.base = base) (five : low base = 5#3) :
    ∃ segment, sibBase5 j = some (setSegment j segment, sibBase i base) := by
  have cases : ∀ b : BitVec 4, low b = 5#3 → b = 5#4 ∨ b = 13#4 := by decide
  rcases cases base five with rfl | rfl
  · obtain ⟨segment, stack⟩ := x86SetSeg_flat j REG_EBP (filled.selector.trans ready.selector)
    refine ⟨segment, ?_⟩
    rcases ready.addressSize with size | ⟨size, _⟩ <;> simp [sibBase5, same, filled.addressSize, size, stack, sibBase]
  · exact ⟨j.x86.segment, by simp [sibBase5, same, sibBase, setSegment]⟩

/-- A base of 5 behind a displacement. -/
theorem base5_filled (ready : Ready i o operandIndex) (filled : Filled i (false, false) 1 none none 0 j p) {base : BitVec 4}
    {d : Displacement} (same : j.x86.rexSib.base = base) (low5 : low base = 5#3) (sib : j.x86.sib.base = 5)
    (mode : d.mode = i.x86.modrm.mod) (displaced : d ≠ .none) (holds : Holds code (a + 1) d.bytes) :
    ∃ j' p', readBase code j (a + 1) p = some (j', p', a + (1 + d.bytes.length)) ∧
      Filled i (false, false) (1 + d.bytes.length) (some (sibBase i base)) none d.value j' p' ∧
      j'.x86.sib = j.x86.sib ∧ j'.x86.rexSib = j.x86.rexSib := by
  have register : OP_REG &&& OP_IPREL = 0#32 := by decide
  cases d with
  | none => exact absurd rfl displaced
  | short d =>
    have first : code (a + 1) = d := by simpa [Displacement.bytes] using holds
    have made := filled.setDisplacement d.toInt
    obtain ⟨segment, named⟩ := sibBase5_eq ready made same low5
    refine ⟨_, (p.setRegister (sibBase i base)).add OP_REG, ?_,
      (((made.setSegment segment).setBase (sibBase i base)).setRegister (sibBase i base) |>.add register).inc 1, rfl, rfl⟩
    rw [readBase, if_pos sib, filled.modrm, ← mode, first]
    simp [Displacement.mode, named, Displacement.bytes, Nat.add_assoc]
  | long d =>
    have word : load32 code (a + 1) = d := holds_load32.mp holds
    have made := filled.setDisplacement d.toInt
    obtain ⟨segment, named⟩ := sibBase5_eq ready made same low5
    obtain ⟨full, flags, marked, apart⟩ := markGlobal_cases (setSegment (setDisplacement j d.toInt) segment)
      (p.setRegister (sibBase i base))
    have based := ((made.setSegment segment).setFull full).setBase (sibBase i base)
    refine ⟨_, _, ?_, (((based.setRegister (sibBase i base)).add apart).add register).inc 4, rfl, rfl⟩
    rw [readBase, if_pos sib, filled.modrm, ← mode, word]
    simp [Displacement.mode, named, marked, Displacement.bytes, Nat.add_assoc]

/-- Any other base. -/
theorem base_filled (code : Memory) (a : Nat) (ready : Ready i o operandIndex) (filled : Filled i (false, false) 1 none none 0 j p) {base : BitVec 4}
    (same : j.x86.rexSib.base = base) (other : low base ≠ 5#3) (sib : j.x86.sib.base ≠ 5) :
    ∃ j' p', readBase code j (a + 1) p = some (j', p', a + 1) ∧ Filled i (false, false) 1 (some (sibBase i base)) none 0 j' p' ∧
      j'.x86.sib = j.x86.sib ∧ j'.x86.rexSib = j.x86.rexSib := by
  have named : sibBase i base = addressRegister i base := by
    have thirteen : base ≠ 13#4 := by
      rintro rfl
      exact other (by decide)
    have five : base ≠ 5#4 := by
      rintro rfl
      exact other (by decide)
    rw [sibBase, if_neg thirteen, if_neg five]
  have register := baseOfSize_eq ready filled.archType filled.addressSize base
  rw [← named] at register
  obtain ⟨segment, stack⟩ := x86SetSeg_flat (setBase j (sibBase i base)) base.toNat
    (filled.selector.trans ready.selector)
  refine ⟨_, (p.setRegister (sibBase i base)).add OP_REG, ?_,
    (((filled.setBase _).setSegment segment).setRegister (sibBase i base)).add (by decide), rfl, rfl⟩
  rw [readBase, if_neg sib, same, register]
  simp [stack]

/-- No base. -/
theorem noBase_filled (filled : Filled i (false, false) 1 none none 0 j p) {d : BitVec 32} (sib : j.x86.sib.base = 5)
    (mode : i.x86.modrm.mod = 0) (holds : Holds code (a + 1) (store32 d)) :
    ∃ j' p', readBase code j (a + 1) p = some (j', p', a + 5) ∧ Filled i (false, false) 5 none none d.toInt j' p' ∧
      j'.x86.sib = j.x86.sib ∧ j'.x86.rexSib = j.x86.rexSib := by
  have word : load32 code (a + 1) = d := holds_load32.mp holds
  obtain ⟨anomaly, full, target, flags, marked, apart⟩ := markTarget_cases (setDisplacement j d.toInt) p
  refine ⟨_, (p.setTarget target).add flags, ?_,
    (((((filled.setDisplacement d.toInt).setAnomaly anomaly).setFull full).setTarget target).add apart).inc 4,
    rfl, rfl⟩
  rw [readBase, if_pos sib, if_pos (filled.modrm ▸ mode), word, marked]

/-- The SIB byte is noted, and nothing of the address is known yet. -/
theorem sib_noted (ready : Ready i o operandIndex) {scale : BitVec 2} {index : BitVec 4} {base : BitVec 3}
    (x : high index = i.x86.rex.x) (byte : code a = scaleIndexBase scale (low index) base) :
    ∃ j p, setSib code i a o operandIndex =
        (do
          let (i, o, a) ← readBase code j (a + 1) p
          readIndex i a o) ∧
      Filled i (false, false) 1 none none 0 j p ∧ j.x86.sib = ⟨scale, low index, base⟩ ∧
      j.x86.rexSib = ⟨index, i.x86.rex.b ++ base⟩ := by
  have sib : setSibFields (code a) = ⟨scale, low index, base⟩ := by simp [setSibFields, byte]
  have rexSib : setRexSib i.x86.rex ⟨scale, low index, base⟩ = ⟨index, i.x86.rex.b ++ base⟩ := by
    simp [setRexSib, ← x]
  have address : (o.add OP_ADDRESS).has OP_ADDRESS = true := by simp [OP_ADDRESS]
  have ipRel : (o.add OP_ADDRESS).has OP_IPREL = false := by
    rw [has_add, ready.ipRel.1]
    decide
  have start : Filled i (false, false) 0 none none 0 (setSibByte i (code a)) (o.add OP_ADDRESS) :=
    { Filled.start ready address ipRel with }
  refine ⟨_, o.add OP_ADDRESS, ?_, (start.noteAddress (o.add OP_ADDRESS) operandIndex).inc 1, sib, ?_⟩
  · have fresh : noted (setSibByte i (code a)) = (false, false) := by simp [noted_ready ready]
    rw [setSib]
    simp only [x86SetAddr_fresh _ (o.add OP_ADDRESS) operandIndex fresh, Option.bind_eq_bind, Option.bind_some]
  · rw [← rexSib, ← sib]
    rfl

theorem scaled_filled (ready : Ready i o operandIndex) {base : BitVec 4} {d : Displacement} {index : BitVec 4}
    {scale : BitVec 2} {displaced : low base = 5#3 → d ≠ .none}
    (here : (encode (.scaled base d index scale displaced)).At (fields i) code a) :
    ∃ i' o', setModRM32 code i a o operandIndex = some (i', o', a + (1 + d.bytes.length)) ∧
      Filled i (false, false) (1 + d.bytes.length) (some (sibBase i base)) (sibIndexed i index scale) d.value i' o' := by
  obtain ⟨x, b, sameMode, sameRm, tail⟩ := here
  have sameX : high index = i.x86.rex.x := x _ rfl
  have sameB : high base = i.x86.rex.b := b _ rfl
  change d.mode = i.x86.modrm.mod at sameMode
  change 4#3 = i.x86.modrm.rm at sameRm
  obtain ⟨byte, tail⟩ := (holds_cons _ _ _ _).mp tail
  have memory : i.x86.modrm.mod ≠ 3 := by
    rw [← sameMode]
    exact mode_memory d
  have flat : ¬ (i.x86.modrm.mod = 0 ∧ i.x86.modrm.rm = 5) := by
    rw [← sameRm]
    exact fun both => absurd both.2 (by decide)
  obtain ⟨j, p, noted, filled, sib, rexSib⟩ := sib_noted ready sameX byte
  rw [← sameB, high_low] at rexSib
  have same : j.x86.rexSib.base = base := by rw [rexSib]
  have extended : i.x86.modrm.rm = 4 := sameRm.symm
  rw [setModRM32]
  simp only [if_neg (wide ready), if_neg memory, if_neg flat, if_pos extended, noted, Option.bind_eq_bind]
  by_cases five : low base = 5#3
  · have base5 : j.x86.sib.base = 5 := by
      rw [sib]
      exact five
    obtain ⟨k, q, read, filled, keptSib, keptRex⟩ :=
      base5_filled ready filled same five base5 sameMode (displaced five) tail
    obtain ⟨i', o', indexRead, filled, keptSib'⟩ := index_filled (a := a + (1 + d.bytes.length)) ready filled
    rw [keptSib, keptRex, sib, rexSib] at filled
    refine ⟨i', o', ?_, filled⟩
    simp [read, indexRead, keptSib', keptSib, base5]
  · have other : j.x86.sib.base ≠ 5 := by
      rw [sib]
      exact five
    obtain ⟨k, q, read, filled, keptSib, keptRex⟩ := base_filled code a ready filled same five other
    obtain ⟨l, r, indexRead, filled, keptSib'⟩ := index_filled (a := a + 1) ready filled
    rw [keptSib, keptRex, sib, rexSib] at filled
    obtain ⟨i', o', displaced, filled⟩ := filled_read filled sameMode tail
    refine ⟨i', o', ?_, filled⟩
    have still : l.x86.sib.base ≠ 5 := by
      rw [keptSib', keptSib]
      exact other
    simp only [read, indexRead, Option.bind_some, if_pos still, displaced]

theorem unbased_filled (ready : Ready i o operandIndex) {d : BitVec 32} {index : BitVec 4} {scale : BitVec 2}
    (here : (encode (.unbased d index scale)).At (fields i) code a) :
    ∃ i' o', setModRM32 code i a o operandIndex = some (i', o', a + 5) ∧
      Filled i (false, false) 5 none (sibIndexed i index scale) d.toInt i' o' := by
  obtain ⟨x, _, sameMode, sameRm, tail⟩ := here
  have sameX : high index = i.x86.rex.x := x _ rfl
  have mode : i.x86.modrm.mod = 0 := sameMode.symm
  have extended : i.x86.modrm.rm = 4 := sameRm.symm
  obtain ⟨byte, tail⟩ := (holds_cons _ _ _ _).mp tail
  obtain ⟨j, p, noted, filled, sib, rexSib⟩ := sib_noted ready sameX byte
  have base5 : j.x86.sib.base = 5 := by rw [sib]; rfl
  obtain ⟨k, q, read, filled, keptSib, keptRex⟩ := noBase_filled filled base5 mode tail
  obtain ⟨i', o', indexRead, filled, keptSib'⟩ := index_filled (a := a + 5) ready filled
  rw [keptSib, keptRex, sib, rexSib] at filled
  refine ⟨i', o', ?_, filled⟩
  rw [setModRM32]
  simp [wide ready, mode, extended, noted, read, indexRead, keptSib', keptSib, base5]

/-! ### No registers -/

/-- The name that the operand size gives the instruction pointer. -/
def ipRegister (i : Instruction) : Nat :=
  if i.x86.operandSize = 8 then AMD64_REG_RIP else if i.x86.operandSize = 4 then X86_REG_EIP else X86_REG_IP

theorem ipOfSize_eq (ready : Ready i o operandIndex) (operandSize : j.x86.operandSize = i.x86.operandSize) :
    ipOfSize j = some (ipRegister i) := by
  rcases ready.operandSize with size | size | size <;> simp [ipOfSize, ipRegister, operandSize, size]

/-- Where the address lies depends on what the caller left and on the displacement. -/
theorem ipTarget_congr (a operandIndex : Nat) (kept : context j = context i)
    (displacement : j.x86.displacement = i.x86.displacement) :
    ipTarget j a operandIndex = ipTarget i a operandIndex := by
  injection kept with _ address delta operandFlags _ _ operandSize _
  simp only [ipTarget, applyDisplacement, address, delta, operandFlags, operandSize, displacement]

theorem ipTarget_some (ready : Ready i o operandIndex) (d : Int) :
    ∃ target, ipTarget (setDisplacement i d) a operandIndex = some target := by
  obtain ⟨size, immediates⟩ := ready.immediates
  change immediateSize (setDisplacement i d).x86.operandSize
    ((setDisplacement i d).x86.operandFlags.drop (operandIndex + 1)) 0 = some size at immediates
  have operandSizes : (setDisplacement i d).x86.operandSize = 2 ∨ (setDisplacement i d).x86.operandSize = 4 ∨
      (setDisplacement i d).x86.operandSize = 8 := ready.operandSize
  rw [ipTarget, immediates]
  rcases operandSizes with operandSize | operandSize | operandSize <;> simp [applyDisplacement, operandSize]

theorem flat_fields {d : BitVec 32} (here : (encode (.flat d)).At (fields i) code a) :
    i.x86.modrm.mod ≠ 3 ∧ (i.x86.modrm.mod = 0 ∧ i.x86.modrm.rm = 5) ∧ load32 code a = d := by
  obtain ⟨_, _, sameMode, sameRm, tail⟩ := here
  have mode : i.x86.modrm.mod = 0 := sameMode.symm
  refine ⟨?_, ⟨mode, sameRm.symm⟩, holds_load32.mp tail⟩
  rw [mode]
  decide

theorem flat_start (ready : Ready i o operandIndex) (d : Int) :
    Filled i (false, false) 4 none none d (instrInc (setDisplacement i d) 4) (o.add OP_ADDRESS) := by
  have address : (o.add OP_ADDRESS).has OP_ADDRESS = true := by simp [OP_ADDRESS]
  have ipRel : (o.add OP_ADDRESS).has OP_IPREL = false := by
    rw [has_add, ready.ipRel.1]
    decide
  have made := ((Filled.start ready address ipRel).setDisplacement d).inc 4
  rwa [Nat.zero_add] at made

/-- The operand of an address relative to the instruction pointer. -/
def ipOperand (i : Instruction) (p : Operand) (target : BitVec 64) : Operand :=
  ((p.setRegister (ipRegister i)).add (OP_IPREL ||| OP_SIGNED ||| OP_REG)).setTarget target

theorem relative_filled (ready : Ready i o operandIndex) {d : Int} (filled : Filled i (false, false) n none none d j p) :
    ∃ i' target, setIpRelative j a p operandIndex = some (i', ipOperand i p target) ∧ noted i' = noted j ∧
      Filled i (true, true) n (some (ipRegister i)) none d i' (ipOperand i p target) ∧
      ipTarget (setDisplacement i d) a operandIndex = some target := by
  have based := filled.setIpBase (ipRegister i)
  obtain ⟨target, placed⟩ := ipTarget_some (a := a) ready d
  have same := ipTarget_congr (i := setDisplacement i d) a operandIndex based.kept based.displacement
  rw [placed] at same
  refine ⟨_, target, ?_, noted_setIpBase j _, (based.setRegister (ipRegister i)).addIpRel.setTarget target, placed⟩
  rw [setIpRelative, ipOfSize_eq ready (congrArg Context.operandSize filled.kept)]
  simp only [Option.bind_eq_bind, Option.bind_some, same, ipOperand]

/-- The forms that an operand of an x64 instruction is relative to the instruction pointer in. -/
theorem flat64_filled (ready : Ready i o operandIndex) (x64 : i.archType = .x64) {d : BitVec 32}
    (here : (encode (.flat d)).At (fields i) code a) :
    ∃ i' target, setModRM32 code i a o operandIndex = some (i', ipOperand i (o.add OP_ADDRESS) target, a + 4) ∧
      Filled i (true, true) 4 (some (ipRegister i)) none d.toInt i' (ipOperand i (o.add OP_ADDRESS) target) ∧
      ipTarget (setDisplacement i d.toInt) (a + 4) operandIndex = some target := by
  obtain ⟨memory, flat, word⟩ := flat_fields here
  have fresh : noted (instrInc (setDisplacement i d.toInt) 4) = (false, false) := by simp [noted_ready ready]
  obtain ⟨k, target, read, notedToo, filled, placed⟩ := relative_filled (a := a + 4) ready (flat_start ready d.toInt)
  refine ⟨_, target, ?_, filled.noteAddress (ipOperand i (o.add OP_ADDRESS) target) operandIndex, placed⟩
  rw [setModRM32]
  simp only [if_neg (wide ready), if_neg memory, if_pos flat, word]
  rw [(flat_start ready d.toInt).archType, if_pos x64]
  simp only [read, Option.bind_eq_bind, Option.bind_some,
    x86SetAddr_fresh k (ipOperand i (o.add OP_ADDRESS) target) operandIndex (notedToo.trans fresh)]

/-- In the other modes the displacement is all there is. -/
theorem flat_filled (ready : Ready i o operandIndex) (narrow : i.archType ≠ .x64) {d : BitVec 32}
    (here : (encode (.flat d)).At (fields i) code a) :
    ∃ i' o', setModRM32 code i a o operandIndex = some (i', o', a + 4) ∧
      Filled i (false, false) 4 none none d.toInt i' o' := by
  obtain ⟨memory, flat, word⟩ := flat_fields here
  have made := flat_start ready d.toInt
  have fresh : noted (instrInc (setDisplacement i d.toInt) 4) = (false, false) := by simp [noted_ready ready]
  rw [setModRM32]
  simp only [if_neg (wide ready), if_neg memory, if_pos flat, word]
  generalize instrInc (setDisplacement i d.toInt) 4 = j at made fresh ⊢
  rw [made.archType, if_neg narrow]
  obtain ⟨anomaly, full, target, flags, marked, apart⟩ := markTarget_cases j (o.add OP_ADDRESS)
  have filled := (((made.setAnomaly anomaly).setFull full).setTarget target).add apart
  have freshToo : noted (setFull (setAnomaly j anomaly) full) = (false, false) := by simp [fresh]
  refine ⟨_, _, ?_, filled.noteAddress (((o.add OP_ADDRESS).setTarget target).add flags) operandIndex⟩
  simp only [marked, Option.bind_eq_bind, Option.bind_some, x86SetAddr_fresh _ _ operandIndex freshToo]

/-! ### Names -/

theorem low_toNat {n : BitVec 4} (zero : high n = 0#1) : n.toNat < 8 := by
  revert n
  decide

/-- Only an AMD64 has the upper registers. -/
theorem lower (ready : Ready i o operandIndex) (narrow : i.archType ≠ .x64) {n : BitVec 4}
    (extension : high n = i.x86.rex.x ∨ high n = i.x86.rex.b) : n.toNat < 8 := by
  have noRex : i.x86.rex_b = 0 := by
    by_contra rex
    exact narrow (ready.extended rex)
  obtain ⟨x, b⟩ := ready.extensions noRex
  rcases extension with same | same
  · exact low_toNat (same.trans x)
  · exact low_toNat (same.trans b)

theorem named64 (n : BitVec 4) : registerNamed (AMD64_64BIT_OFFSET + n.toNat) = .general 8 n.toNat := by
  revert n
  decide

theorem named32 (n : BitVec 4) (archType : i.archType ≠ .x64 → n.toNat < 8) :
    registerNamed (checkAmd64Reg i (X86_32BIT_OFFSET + n.toNat)) = .general 4 n.toNat := by
  unfold checkAmd64Reg
  split_ifs with x64
  · clear archType
    revert n
    decide
  · have eight := archType x64
    clear archType
    revert n
    decide

theorem named16 (n : BitVec 4) (archType : i.archType ≠ .x64 → n.toNat < 8) :
    registerNamed (checkAmd64Reg i (X86_16BIT_OFFSET + n.toNat)) = .general 2 n.toNat := by
  unfold checkAmd64Reg
  split_ifs with x64
  · clear archType
    revert n
    decide
  · have eight := archType x64
    clear archType
    revert n
    decide

theorem named8 (n : BitVec 4) (x64 : i.archType = .x64) :
    registerNamed (checkAmd64Reg i (X86_8BIT_OFFSET + n.toNat)) = .general 1 n.toNat := by
  rw [checkAmd64Reg, if_pos x64]
  revert n
  decide

/-- Without a REX prefix. -/
theorem named8_half (n : BitVec 4) (lower : n.toNat < 8) :
    registerNamed (X86_8BIT_OFFSET + n.toNat) = if 4 ≤ n.toNat then .high (n.toNat - 4) else .general 1 n.toNat := by
  revert n
  decide

theorem named_addressRegister (ready : Ready i o operandIndex) {n : BitVec 4}
    (archType : i.archType ≠ .x64 → n.toNat < 8) : registerNamed (addressRegister i n) = addressing i n := by
  rcases ready.addressSize with size | ⟨size, _⟩
  · simp [addressRegister, addressing, size, named32 n archType]
  · simp [addressRegister, addressing, size, named64]

theorem named_sibIndex (ready : Ready i o operandIndex) (n : BitVec 4) :
    registerNamed (sibIndex i n) = addressing i n ↔ ¬ (i.x86.addressSize = 4 ∧ 8 ≤ n.toNat) := by
  rcases ready.addressSize with size | ⟨size, _⟩
  · simp only [sibIndex, addressing, size]
    revert n
    decide
  · simp [sibIndex, addressing, size, named64]

theorem named_sibBase (ready : Ready i o operandIndex) {n : BitVec 4} (archType : i.archType ≠ .x64 → n.toNat < 8) :
    registerNamed (sibBase i n) = addressing i n ↔ ¬ (i.x86.addressSize = 4 ∧ n = 13#4) := by
  unfold sibBase
  split_ifs with thirteen five size
  · subst thirteen
    rcases ready.addressSize with size | ⟨size, _⟩ <;> simp [addressing, size] <;> decide
  · subst five
    simp [addressing, size]
    decide
  · subst five
    have four : i.x86.addressSize = 4 := by
      rcases ready.addressSize with four | ⟨eight, _⟩
      · exact four
      · exact absurd eight size
    simp [addressing, four]
    decide
  · simp [named_addressRegister ready archType, thirteen]

theorem named_ipRegister (ready : Ready i o operandIndex) : registerNamed (ipRegister i) = .ip i.x86.operandSize := by
  rcases ready.operandSize with size | size | size <;> simp [ipRegister, size] <;> decide

/-- What the fields of an address say. -/
theorem Filled.described {relative : Bool × Bool} {displacement : Int}
    (filled : Filled i relative n base index displacement j p) :
    described j p =
      .address (base.map registerNamed) (index.map (fun v => (registerNamed v.1, v.2))) displacement := by
  rw [DisasmAddresses.described, if_pos filled.address, filled.displacement, ← filled.base, ← filled.index]
  congr 1
  · split_ifs <;> rfl
  · split_ifs <;> rfl

/-! ### What is decoded -/

theorem register_named (ready : Ready i o operandIndex) {rm : BitVec 4} (extension : high rm = i.x86.rex.b)
    (length : o.length = 1 ∨ o.length = 2 ∨ o.length = 4 ∨ o.length = 8) :
    ∃ register, modRMRegister i o rm = some register ∧
      .register (registerNamed register) = meaning i o (.register rm) := by
  have archType : i.archType ≠ .x64 → rm.toNat < 8 := fun narrow => lower ready narrow (.inr extension)
  rcases length with size | size | size | size
  · by_cases rex : i.x86.rex_b = 0
    · have eight : rm.toNat < 8 := low_toNat (extension.trans (ready.extensions rex).2)
      refine ⟨X86_8BIT_OFFSET + rm.toNat, by simp [modRMRegister, size, rex], ?_⟩
      rw [named8_half rm eight]
      simp [meaning, size, rex]
    · refine ⟨checkAmd64Reg i (X86_8BIT_OFFSET + rm.toNat), ?_, ?_⟩
      · simp only [modRMRegister, size, if_pos rex]
      · rw [named8 rm (ready.extended rex), meaning, if_neg (fun half => rex half.2.1), size]
  · refine ⟨checkAmd64Reg i (X86_16BIT_OFFSET + rm.toNat), by simp [modRMRegister, size], ?_⟩
    rw [named16 rm archType]
    simp [meaning, size]
  · refine ⟨checkAmd64Reg i (X86_32BIT_OFFSET + rm.toNat), by simp [modRMRegister, size], ?_⟩
    rw [named32 rm archType]
    simp [meaning, size]
  · refine ⟨AMD64_64BIT_OFFSET + rm.toNat, by simp [modRMRegister, size], ?_⟩
    rw [named64]
    simp [meaning, size]

/-- What is said of the operand, apart from names. -/
structure Decoded (code : Memory) (i : Instruction) (a : Nat) (o : Operand) (operandIndex : Nat) (form : Form)
    (i' : Instruction) (o' : Operand) : Prop where
  read : setModRM32 code i a o operandIndex = some (i', o', a + (encode form).tail.length)
  length : i'.length = i.length + (encode form).tail.length
  described : described i' o' = meaning i o form ↔ ¬ misnamed i form
  relative : (o'.has OP_IPREL = true ↔ i.archType = .x64 ∧ ∃ d, form = .flat d) ∧ i'.x86.relative = o'.has OP_IPREL

theorem register_decoded (ready : Ready i o operandIndex) {rm : BitVec 4}
    (here : (encode (.register rm)).At (fields i) code a) :
    ∃ i' o', Decoded code i a o operandIndex (.register rm) i' o' := by
  obtain ⟨_, b, sameMode, sameRm, _⟩ := here
  have sameB : high rm = i.x86.rex.b := b _ rfl
  have memory : i.x86.modrm.mod = 3 := sameMode.symm
  obtain ⟨length, early⟩ := ready.register memory
  have number : i.x86.rexModRM.rm = rm := by
    rw [ready.rexModRM, setRexModRM, ← sameB, ← (show low rm = i.x86.modrm.rm from sameRm), high_low]
  obtain ⟨register, named, same⟩ := register_named ready sameB length
  have quiet : ((o.setRegister register).add OP_REG).has OP_IPREL = false := by
    rw [has_add, has_setRegister, ready.ipRel.1]
    decide
  have noAddress : ((o.setRegister register).add OP_REG).has OP_ADDRESS = false := by
    rw [has_add, has_setRegister, ready.address]
    decide
  refine ⟨noteRegister i (o.setRegister register) operandIndex rm.toNat, (o.setRegister register).add OP_REG,
    ?_, rfl, ?_, ?_, ?_⟩
  · rw [setModRM32]
    simp [wide ready, memory, number, named, x86SetReg, early, encode]
  · rw [described, if_neg (by simp [noAddress])]
    exact iff_of_true same (fun wrong => wrong)
  · simp [quiet]
  · rw [quiet]
    exact ready.ipRel.2

theorem address_decoded {form : Form} {displacement : Int} {i' : Instruction}
    {o' : Operand} (read : setModRM32 code i a o operandIndex = some (i', o', a + (encode form).tail.length))
    (filled : Filled i (false, false) (encode form).tail.length base index displacement i' o')
    (other : i.archType = .x64 → ∀ d, form ≠ .flat d)
    (named : .address (base.map registerNamed) (index.map (fun v => (registerNamed v.1, v.2))) displacement =
      meaning i o form ↔ ¬ misnamed i form) : Decoded code i a o operandIndex form i' o' where
  read := read
  length := filled.length
  described := by rw [filled.described, named]
  relative := by
    obtain ⟨ipRel, relative⟩ := Prod.mk.inj filled.relative
    refine ⟨?_, by rw [ipRel, relative]⟩
    simp only [ipRel, Bool.false_eq_true, false_iff]
    rintro ⟨x64, d, flat⟩
    exact other x64 d flat

/-- The name of a scaled register decides whether the index is the one meant. -/
theorem indexed_iff (ready : Ready i o operandIndex) (index : BitVec 4) (scale : BitVec 2) :
    (sibIndexed i index scale).map (fun v => (registerNamed v.1, v.2)) = indexed i index scale ↔
      ¬ (i.x86.addressSize = 4 ∧ 8 ≤ index.toNat) := by
  unfold sibIndexed indexed
  split_ifs with none
  · subst none
    simp [NO_INDEX]
  · simp [named_sibIndex ready]

theorem decoded (ready : Ready i o operandIndex) (form : Form) (here : (encode form).At (fields i) code a) :
    ∃ i' o', Decoded code i a o operandIndex form i' o' := by
  cases form with
  | register rm => exact register_decoded ready here
  | flat d =>
    by_cases x64 : i.archType = .x64
    · obtain ⟨i', target, read, filled, _⟩ := flat64_filled ready x64 here
      obtain ⟨ipRel, relative⟩ := Prod.mk.inj filled.relative
      refine ⟨_, _, read, filled.length, ?_, ?_, ?_⟩
      · rw [filled.described]
        simp [meaning, misnamed, x64, named_ipRegister ready]
      · simp [ipRel, x64]
      · rw [ipRel, relative]
    · obtain ⟨i', o', read, filled⟩ := flat_filled ready x64 here
      exact ⟨i', o', address_decoded read filled (fun amd64 => absurd amd64 x64) (by simp [meaning, misnamed, x64])⟩
  | based base d plain displaced =>
    have extension : high base = i.x86.rex.b := here.b _ rfl
    obtain ⟨i', o', read, filled⟩ := based_filled ready here
    refine ⟨i', o', address_decoded read filled (fun _ _ flat => by cases flat) ?_⟩
    simp [meaning, misnamed, named_addressRegister ready (fun narrow => lower ready narrow (.inr extension))]
  | scaled base d index scale displaced =>
    have extension : high base = i.x86.rex.b := here.b _ rfl
    obtain ⟨i', o', read, filled⟩ := scaled_filled ready here
    have tail : (encode (.scaled base d index scale displaced)).tail.length = 1 + d.bytes.length := Nat.add_comm _ _
    refine ⟨i', o', address_decoded (tail ▸ read) (tail ▸ filled) (fun _ _ flat => by cases flat) ?_⟩
    have names := named_sibBase ready (fun narrow => lower ready narrow (.inr extension))
    have indices := indexed_iff ready index scale
    simp only [meaning, misnamed, Option.map_some, Described.address.injEq, Option.some.injEq, names, indices]
    tauto
  | unbased d index scale =>
    obtain ⟨i', o', read, filled⟩ := unbased_filled ready here
    refine ⟨i', o', address_decoded read filled (fun _ _ flat => by cases flat) ?_⟩
    simp only [meaning, misnamed, Option.map_none, Described.address.injEq, indexed_iff ready index scale]
    tauto

/-- Whatever bytes follow the ModRM byte, they and its fields are the encoding of one operand. It
    is read to its end, and what is said of it is what it means unless a register is misnamed. -/
theorem operand_decoded (code : Memory) (a : Nat) (ready : Ready i o operandIndex) :
    ∃ form i' o', (∀ other, (encode other).At (fields i) code a ↔ other = form) ∧
      setModRM32 code i a o operandIndex = some (i', o', a + (encode form).tail.length) ∧
      i'.length = i.length + (encode form).tail.length ∧ (described i' o' = meaning i o form ↔ ¬ misnamed i form) := by
  have unique : ∀ other, (encode other).At (fields i) code a ↔ other = decode (fields i) code a := by
    intro other
    rw [at_iff]
    exact eq_comm
  obtain ⟨i', o', decoded⟩ := decoded ready (decode (fields i) code a) ((unique _).mpr rfl)
  exact ⟨decode (fields i) code a, i', o', unique, decoded.read, decoded.length, decoded.described⟩

/-- The caller's part, for an x64 instruction whose second operand is read or first one written. -/
def sample (operandFlags : List (BitVec 32)) (rex_b : Byte) (modrm : ModRM) (operandSize addressSize length : Nat) :
    Instruction where
  archType := .x64
  virtualAddressDelta := 0
  groups := 0
  isStrcmp := false
  address := 0x7ff600001000
  length := length
  anomalyOccurred := false
  x86 :=
    { operandFlags := operandFlags
      sib_b := 0
      modrm := modrm
      sib := ⟨0, 0, 0⟩
      rex_b := rex_b
      rex := rexOf rex_b
      rexModRM := setRexModRM (rexOf rex_b) modrm
      rexSib := ⟨0, 0⟩
      segment := .ds
      srcOpIndex := []
      dstOpIndex := []
      baseRegister := 0
      indexRegister := 0
      scale := 0
      hasSegmentOverridePrefix := false
      hasDstAddressing := false
      hasSrcAddressing := false
      hasBaseRegister := false
      hasIndexRegister := false
      hasFullDisplacement := false
      dstAddressIndex := 0
      srcAddressIndex := 0
      operandSize := operandSize
      addressSize := addressSize
      relative := false
      hasSelector := false
      displacement := 0 }

def sampleOperand (flags : BitVec 32) (length : Nat) : Operand where
  flags := flags
  length := length
  targetAddress := 0
  register := 0

/-- A load with addresses of 32 bits whose index is an upper register. -/
def scaledCode : Memory := fun k => [0x67, 0x42, 0x8b, 0x44, 0x88, 0x08].getD k 0
def scaledLoad : Instruction := sample [0x07054000, 0x07042000] 0x42 ⟨1, 0, 4⟩ 4 4 4

theorem scaledLoad_ready : Ready scaledLoad (sampleOperand OP_SRC 4) 1 where
  rexModRM := rfl
  extensions := by decide
  extended _ := rfl
  addressSize := by decide
  operandSize := by decide
  selector := rfl
  fresh := by decide
  base := rfl
  index := rfl
  displacement := rfl
  address := by decide
  ipRel := by decide
  register := by decide
  immediates := ⟨0, by decide⟩

theorem operand_decoded_scaled :
    ∃ i' o', setModRM32 scaledCode scaledLoad 4 (sampleOperand OP_SRC 4) 1 = some (i', o', 6) ∧ i'.length = 6 ∧
      described i' o' ≠ .address (some (.general 4 0)) (some (.general 4 9, 4)) 8 := by
  obtain ⟨form, i', o', unique, read, length, said⟩ := operand_decoded scaledCode 4 scaledLoad_ready
  obtain rfl := (unique (.scaled 0 (.short 8) 9 2 (by decide))).mp ((at_iff _ _ _ _).mpr (by decide +kernel))
  exact ⟨i', o', read, length, fun same => said.mp same ⟨rfl, .inr (by decide)⟩⟩

/-! ### Addresses relative to the instruction pointer -/

/-- The 32 bits of a difference are not extended by their sign. -/
theorem zero_extended (d : BitVec 32) : d.setWidth 64 = BitVec.ofInt 64 d.toInt ↔ 0 ≤ d.toInt := by
  have bound := d.isLt
  rw [BitVec.toNat_eq, BitVec.toNat_ofInt, BitVec.toNat_setWidth, BitVec.toInt_eq_toNat_cond]
  split_ifs <;> omega

theorem ofInt_inj {x y : Int} (hx : -2 ^ 62 < x ∧ x < 2 ^ 62) (hy : -2 ^ 62 < y ∧ y < 2 ^ 62) :
    BitVec.ofInt 64 x = BitVec.ofInt 64 y ↔ x = y := by
  constructor
  · intro same
    have ints := congrArg BitVec.toInt same
    rwa [BitVec.toInt_ofInt, BitVec.toInt_ofInt, Int.bmod_eq_of_le (by omega) (by omega),
      Int.bmod_eq_of_le (by omega) (by omega)] at ints
  · rintro rfl
    rfl

/-- The 16 bits of an address stay within their segment. -/
theorem wrapped (address : BitVec 16) (d : BitVec 32) :
    BitVec.ofInt 64 ((address + BitVec.ofInt 16 d.toInt).toNat - address.toNat) = BitVec.ofInt 64 d.toInt ↔
      0 ≤ address.toNat + d.toInt ∧ address.toNat + d.toInt < 0x10000 := by
  have bound := address.isLt
  have high := d.toInt_lt
  have low := d.le_toInt
  have sum : (address + BitVec.ofInt 16 d.toInt).toNat = (address.toNat + d.toInt) % 0x10000 := by
    rw [BitVec.toNat_add, BitVec.toNat_ofInt]
    omega
  rw [sum, ofInt_inj (by omega) (by omega)]
  omega

/-- A displacement of 32 bits leads from an address to the one that the processor reads. -/
def Exact (i : Instruction) (address : BitVec 64) (d : BitVec 32) : Prop :=
  match i.x86.operandSize with
  | 8 => True
  | 4 => 0 ≤ d.toInt
  | _ =>
    let low := ((address + i.virtualAddressDelta).setWidth 16).toNat
    0 ≤ low + d.toInt ∧ low + d.toInt < 0x10000

theorem applyDisplacement_exact (ready : Ready i o operandIndex) {address target : BitVec 64} {d : BitVec 32}
    (applied : applyDisplacement address (setDisplacement i d.toInt) = some target) :
    target = address + BitVec.ofInt 64 d.toInt ↔ Exact i address d := by
  have cancel : ∀ {w : Nat} (x y : BitVec w), x + y - x = y := by
    intro w x y
    rw [BitVec.add_comm, BitVec.add_sub_cancel]
  rcases ready.operandSize with size | size | size
  · have two : (setDisplacement i d.toInt).x86.operandSize = 2 := size
    simp only [applyDisplacement, two, Option.some.injEq] at applied
    rw [← applied, BitVec.add_right_inj, Exact, size]
    exact wrapped ((address + i.virtualAddressDelta).setWidth 16) d
  · have four : (setDisplacement i d.toInt).x86.operandSize = 4 := size
    simp only [applyDisplacement, four, Option.some.injEq, cancel] at applied
    rw [← applied, BitVec.add_right_inj, Exact, size]
    have stored : BitVec.ofInt 32 (setDisplacement i d.toInt).x86.displacement = d := BitVec.ofInt_toInt
    rw [stored]
    exact zero_extended d
  · have eight : (setDisplacement i d.toInt).x86.operandSize = 8 := size
    simp only [applyDisplacement, eight, Option.some.injEq, cancel] at applied
    rw [← applied, Exact, size]
    exact iff_of_true rfl trivial

/-- The target of an address relative to the instruction pointer is counted from the end of the
    instruction, behind an immediate value. It is right for operands of 64 bits; those of 32
    bits are taken 4 GiB too high where the displacement is negative, and those of 16 bits stay
    within 64 KiB. -/
theorem target_exact_iff (code : Memory) (a : Nat) (ready : Ready i o operandIndex) (x64 : i.archType = .x64) {d : BitVec 32}
    (here : (encode (.flat d)).At (fields i) code a) :
    ∃ i' o' size, setModRM32 code i a o operandIndex = some (i', o', a + 4) ∧
      immediateSize i.x86.operandSize (i.x86.operandFlags.drop (operandIndex + 1)) 0 = some size ∧
      let behind := i.address + BitVec.ofNat 64 (a + 4) + BitVec.ofNat 64 size
      (o'.targetAddress = behind + BitVec.ofInt 64 d.toInt ↔ Exact i behind d) := by
  obtain ⟨i', target, read, _, placed⟩ := flat64_filled ready x64 here
  obtain ⟨size, immediates⟩ := ready.immediates
  refine ⟨i', _, size, read, immediates, ?_⟩
  have sizes : immediateSize (setDisplacement i d.toInt).x86.operandSize
      ((setDisplacement i d.toInt).x86.operandFlags.drop (operandIndex + 1)) 0 = some size := immediates
  rw [ipTarget, sizes] at placed
  exact applyDisplacement_exact ready placed

/-- A store of an immediate value 4 bytes before the displacement's end, with operands of 32 bits. -/
def storeCode : Memory := fun k => [0xc7, 0x05, 0xfc, 0xff, 0xff, 0xff, 0x01, 0x00, 0x00, 0x00].getD k 0
def ipStore : Instruction := sample [0x07044000, 0x12062000] 0 ⟨0, 0, 5⟩ 4 8 2

theorem ipStore_ready : Ready ipStore (sampleOperand OP_DST 4) 0 where
  rexModRM := rfl
  extensions := by decide
  extended := by decide
  addressSize := by decide
  operandSize := by decide
  selector := rfl
  fresh := by decide
  base := rfl
  index := rfl
  displacement := rfl
  address := by decide
  ipRel := by decide
  register := by decide
  immediates := ⟨4, by decide⟩

theorem target_exact_iff_store :
    ∃ i' o', setModRM32 storeCode ipStore 2 (sampleOperand OP_DST 4) 0 = some (i', o', 6) ∧
      o'.targetAddress ≠ 0x7ff600001006 := by
  obtain ⟨i', o', size, read, immediates, right⟩ := target_exact_iff storeCode 2 (d := 0xfffffffc) ipStore_ready rfl
    ((at_iff _ _ _ _).mpr (by decide +kernel))
  obtain rfl : 4 = size := Option.some.inj immediates
  have negative : ¬ 0 ≤ (0xfffffffc : BitVec 32).toInt := by decide
  exact ⟨i', o', read, fun same => negative (right.mp (same.trans (by decide)))⟩

/-! ### What `DisassembleAndSkip` makes of them -/

/-- What it looks at of an operand. -/
def seen (o : Operand) : MhookCode.Operand where
  ipRel := o.has OP_IPREL
  rip := o.register = AMD64_REG_RIP

/-- The instruction has the operand, and no other one is relative to the instruction pointer. -/
structure Has (pins : MhookCode.Instruction) (i' : Instruction) (o' : Operand) (operandIndex : Nat) : Prop where
  relative : pins.relative = i'.x86.relative
  operandSize : pins.operandSize = i'.x86.operandSize
  displacement : pins.displacement = i'.x86.displacement
  operand : pins.operands[operandIndex]? = some (seen o')
  others : ∀ k, k ≠ operandIndex → pins.ipRel k = false

theorem not_rip {pins : MhookCode.Instruction} {k : Nat} (other : pins.ipRel k = false) : pins.rip k = false := by
  rw [MhookCode.Instruction.ipRel] at other
  rw [MhookCode.Instruction.rip]
  cases there : pins.operands[k]? with
  | none => rfl
  | some operand =>
    rw [there] at other
    have quiet : operand.ipRel = false := other
    simp [quiet]

theorem not_supported {pins : MhookCode.Instruction} {k : Nat} (other : pins.ipRel k = false) :
    pins.supported k = false := by
  simp [MhookCode.Instruction.supported, not_rip other]

theorem treatment_plain {pins : MhookCode.Instruction} (none : ∀ k, pins.ipRel k = false) :
    treatment .x64 pins = .plain := by
  simp [treatment, not_supported (none _), none]

theorem treatment_relative {pins : MhookCode.Instruction} {k : Nat} (few : k < 3) (there : pins.ipRel k = true)
    (others : ∀ l, l ≠ k → pins.ipRel l = false) :
    treatment .x64 pins = if k < 2 ∧ pins.supported k then .processRip else .unsupported := by
  have cases : k = 0 ∨ k = 1 ∨ k = 2 := by omega
  rcases cases with rfl | rfl | rfl
  · simp [treatment, there, not_supported (others 1 (by omega))]
  · simp [treatment, there, others 0 (by omega), not_supported (others 0 (by omega))]
  · simp [treatment, there, others 0 (by omega), others 1 (by omega), not_supported (others 0 (by omega)),
      not_supported (others 1 (by omega))]

theorem has_ipRel {pins : MhookCode.Instruction} (has : Has pins j p operandIndex) :
    pins.ipRel operandIndex = p.has OP_IPREL := by
  simp [MhookCode.Instruction.ipRel, has.operand, seen]

theorem rip_iff (ready : Ready i o operandIndex) : ipRegister i = AMD64_REG_RIP ↔ i.x86.operandSize = 8 := by
  rcases ready.operandSize with size | size | size <;> simp [ipRegister, size] <;> decide

/-- Only operands of 64 bits are named relative to `rip`. -/
theorem supported_iff (ready : Ready i o operandIndex) {pins : MhookCode.Instruction} {target : BitVec 64} {displacement : Int}
    (filled : Filled i (true, true) n base index displacement j (ipOperand i p target))
    (has : Has pins j (ipOperand i p target) operandIndex) :
    operandIndex < 2 ∧ pins.supported operandIndex = true ↔
      i.x86.operandSize = 8 ∧ (pins.type = .mov ∨ pins.type = .lea) ∧ pins.operands.length = 2 := by
  obtain ⟨ipRel, relative⟩ := Prod.mk.inj filled.relative
  have operandSize : pins.operandSize = i.x86.operandSize :=
    has.operandSize.trans (congrArg Context.operandSize filled.kept)
  have rip : pins.rip operandIndex = decide (i.x86.operandSize = 8) := by
    have named : (ipOperand i p target).register = ipRegister i := rfl
    rw [MhookCode.Instruction.rip, has.operand, Option.any_some, seen, ipRel, Bool.true_and, named]
    exact decide_eq_decide.mpr (rip_iff ready)
  obtain ⟨inside, _⟩ := List.getElem?_eq_some_iff.mp has.operand
  simp only [MhookCode.Instruction.supported, rip, has.relative, relative, operandSize, Bool.and_true,
    Bool.and_eq_true, Bool.or_eq_true, beq_iff_eq, decide_eq_true_eq]
  constructor
  · rintro ⟨_, ⟨⟨type, size⟩, two⟩, _⟩
    exact ⟨size, type, two⟩
  · rintro ⟨size, type, two⟩
    exact ⟨by omega, ⟨⟨type, size⟩, two⟩, size⟩

/-- What `DisassembleAndSkip` does with an instruction that it does not stop at for its type, while there is room for
    its patch data: it moves it as it is exactly if the operand is not relative to the instruction pointer, and
    notes it exactly if the operand is, in a `mov` or `lea` of 64 bits with two operands. What it notes is the
    displacement encoded, and the target is the address that the processor reads. -/
theorem relocated_iff (code : Memory) (a : Nat) (ready : Ready i o operandIndex) (x64 : i.archType = .x64)
    (few : operandIndex < 3) (form : Form) (here : (encode form).At (fields i) code a) :
    ∃ i' o', setModRM32 code i a o operandIndex = some (i', o', a + (encode form).tail.length) ∧
      ∀ pins : MhookCode.Instruction, Has pins i' o' operandIndex → pins.type ∉ stops →
        ∀ getInstruction pFunction dwMinLen (t : MhookCode.Skipped),
          getInstruction (pFunction + BitVec.ofNat 64 t.dwRet) = some pins → t.dwRet < dwMinLen →
          t.pdata.rips.length < MHOOKS_MAX_RIPS →
          (skipBody .x64 getInstruction pFunction dwMinLen t =
              ([(t.dwRet, pins)], .inl { t with dwRet := t.dwRet + pins.length }) ↔ ∀ d, form ≠ .flat d) ∧
          ((∃ t' rip, skipBody .x64 getInstruction pFunction dwMinLen t = ([(t.dwRet, pins)], .inl t') ∧
              t'.pdata.rips = t.pdata.rips ++ [rip]) ↔
            (∃ d, form = .flat d) ∧ i.x86.operandSize = 8 ∧ (pins.type = .mov ∨ pins.type = .lea) ∧
              pins.operands.length = 2) ∧
          ∀ t' rip, skipBody .x64 getInstruction pFunction dwMinLen t = ([(t.dwRet, pins)], .inl t') →
            t'.pdata.rips = t.pdata.rips ++ [rip] →
            ∃ d size, form = .flat d ∧ rip.nDisplacement = d.toInt ∧
              immediateSize i.x86.operandSize (i.x86.operandFlags.drop (operandIndex + 1)) 0 = some size ∧
              o'.targetAddress =
                i.address + BitVec.ofNat 64 (a + 4) + BitVec.ofNat 64 size + BitVec.ofInt 64 d.toInt := by
  by_cases flat : ∃ d, form = .flat d
  · obtain ⟨d, rfl⟩ := flat
    obtain ⟨i', target, read, filled, placed⟩ := flat64_filled ready x64 here
    obtain ⟨size, immediates⟩ := ready.immediates
    have sizes : immediateSize (setDisplacement i d.toInt).x86.operandSize
        ((setDisplacement i d.toInt).x86.operandFlags.drop (operandIndex + 1)) 0 = some size := immediates
    rw [ipTarget, sizes] at placed
    refine ⟨i', _, read, fun pins has on getInstruction pFunction dwMinLen t decoded more room => ?_⟩
    have body := MhookCode.skipBody_on .x64 getInstruction pFunction dwMinLen decoded on more room
    rw [treatment_relative few ((has_ipRel has).trans (congrArg Prod.fst filled.relative)) has.others] at body
    have supported := supported_iff ready filled has
    by_cases changed : operandIndex < 2 ∧ pins.supported operandIndex = true
    · rw [if_pos changed] at body
      have wide := supported.mp changed
      rw [body]
      refine ⟨iff_of_false (fun same => ?_) (fun none => none d rfl),
        iff_of_true ⟨_, _, rfl, rfl⟩ ⟨⟨d, rfl⟩, wide⟩, ?_⟩
      · have kept := congrArg (fun s : MhookCode.Skipped => s.pdata.rips.length) (Sum.inl.inj (Prod.mk.inj same).2)
        simp [MhookCode.PatchData.addRip, MhookCode.PatchData.widen] at kept
      · rintro t' rip next listed
        obtain rfl := Sum.inl.inj (Prod.mk.inj next).2
        obtain rfl := List.singleton_inj.mp (List.append_cancel_left listed)
        refine ⟨d, size, rfl, has.displacement.trans filled.displacement, immediates, ?_⟩
        refine (applyDisplacement_exact ready placed).mpr ?_
        rw [Exact, wide.1]
        trivial
    · rw [if_neg changed] at body
      rw [body]
      refine ⟨iff_of_false (by simp) (fun none => none d rfl), iff_of_false (by simp) (fun right => ?_), by simp⟩
      exact changed (supported.mpr right.2)
  · obtain ⟨i', o', decoded⟩ := decoded ready form here
    refine ⟨i', o', decoded.read, fun pins has on getInstruction pFunction dwMinLen t given more room => ?_⟩
    have quiet : o'.has OP_IPREL = false := by
      rw [Bool.eq_false_iff]
      exact fun relative => flat (decoded.relative.1.mp relative).2
    have plain : treatment .x64 pins = .plain := by
      refine treatment_plain (fun k => ?_)
      by_cases same : k = operandIndex
      · rw [same, has_ipRel has, quiet]
      · exact has.others k same
    have body := MhookCode.skipBody_on .x64 getInstruction pFunction dwMinLen given on more room
    rw [plain] at body
    have kept : ∀ t' rip, skipBody .x64 getInstruction pFunction dwMinLen t = ([(t.dwRet, pins)], .inl t') →
        t'.pdata.rips ≠ t.pdata.rips ++ [rip] := by
      intro t' rip next
      rw [body] at next
      obtain rfl := Sum.inl.inj (Prod.mk.inj next).2
      simp
    refine ⟨iff_of_true body (fun d same => flat ⟨d, same⟩), iff_of_false ?_ (fun right => flat right.1), ?_⟩
    · rintro ⟨t', rip, next, listed⟩
      exact kept t' rip next listed
    · intro t' rip next listed
      exact absurd listed (kept t' rip next)

/-- A load of 64 bits. -/
def loadCode : Memory := fun k => [0x48, 0x8b, 0x05, 0x10, 0x00, 0x00, 0x00].getD k 0
def ipLoad : Instruction := sample [0x07054000, 0x07042000] 0x48 ⟨0, 0, 5⟩ 8 8 3

theorem ipLoad_ready : Ready ipLoad (sampleOperand OP_SRC 8) 1 where
  rexModRM := rfl
  extensions := by decide
  extended _ := rfl
  addressSize := by decide
  operandSize := by decide
  selector := rfl
  fresh := by decide
  base := rfl
  index := rfl
  displacement := rfl
  address := by decide
  ipRel := by decide
  register := by decide
  immediates := ⟨0, by decide⟩

/-- What `DisassembleAndSkip` looks at of a `mov` to a register. -/
def movPins (length : Nat) (positive : 0 < length) (bounded : length ≤ 15) (i' : Instruction) (o' : Operand) :
    MhookCode.Instruction where
  type := .mov
  length := length
  relative := i'.x86.relative
  operandSize := i'.x86.operandSize
  displacement := i'.x86.displacement
  operands := [⟨false, false⟩, seen o']
  positive := positive
  bounded := bounded

theorem movPins_has {length : Nat} (positive : 0 < length) (bounded : length ≤ 15) (i' : Instruction) (o' : Operand) :
    Has (movPins length positive bounded i' o') i' o' 1 := by
  refine ⟨rfl, rfl, rfl, rfl, fun k other => ?_⟩
  rcases k with _ | _ | k
  · rfl
  · exact absurd rfl other
  · rfl

theorem movPins_on {length : Nat} (positive : 0 < length) (bounded : length ≤ 15) (i' : Instruction) (o' : Operand) :
    (movPins length positive bounded i' o').type ∉ stops := by
  have type : (movPins length positive bounded i' o').type = .mov := rfl
  rw [type]
  decide

theorem relocated_iff_load :
    ∃ pins i' o' t' rip, setModRM32 loadCode ipLoad 3 (sampleOperand OP_SRC 8) 1 = some (i', o', 7) ∧
      skipBody .x64 (fun _ => some pins) 0 5 MhookCode.start = ([(0, pins)], .inl t') ∧ t'.pdata.rips = [rip] ∧
      rip.nDisplacement = 16 ∧ o'.targetAddress = 0x7ff600001017 := by
  obtain ⟨i', o', read, treated⟩ := relocated_iff loadCode 3 ipLoad_ready rfl (by decide) (.flat 16)
    ((at_iff _ _ _ _).mpr (by decide +kernel))
  obtain ⟨_, noted, reads⟩ := treated (movPins 7 (by decide) (by decide) i' o') (movPins_has _ _ i' o')
    (movPins_on _ _ i' o') (fun _ => some (movPins 7 (by decide) (by decide) i' o')) 0 5 MhookCode.start rfl (by decide)
    (by decide)
  obtain ⟨t', rip, next, listed⟩ := noted.mpr ⟨⟨16, rfl⟩, rfl, .inl rfl, rfl⟩
  obtain ⟨d, size, same, displacement, immediates, target⟩ := reads t' rip next listed
  obtain rfl : 0 = size := Option.some.inj immediates
  obtain rfl := Form.flat.inj same
  exact ⟨_, i', o', t', rip, read, next, listed, displacement.trans (by decide), target.trans (by decide)⟩

end

end WinMiniTools.DisasmAddresses
