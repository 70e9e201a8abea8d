import StackLang.Code.Instruction

/-!
# Emission of code

An emitter appends instructions under a current tag. A forward jump is emitted before its distance
is known; its label is kept and the distance is filled in once the target is the next address.
-/

namespace StackLang

/-- The address of a jump whose distance is still to be filled in. -/
structure JumpLabel where
  address : Nat
deriving DecidableEq, Repr

/-- Code under construction. -/
structure Emitter where
  /-- The instructions emitted so far. -/
  code : Bytecode := #[]
  /-- The tag that the next instructions get. -/
  tag : String := ""

namespace Emitter

/-- The address of the next instruction. -/
def offset (emitter : Emitter) : Nat :=
  emitter.code.size

/-- Tag the instructions that follow. -/
def setTag (emitter : Emitter) (tag : String) : Emitter :=
  { emitter with tag }

/-- Emit an opcode with an operand. -/
def emitWith (emitter : Emitter) (opcode : Opcode) (operand : Value) : Emitter :=
  { emitter with code := emitter.code.push ⟨opcode, operand, emitter.tag⟩ }

/-- Emit an opcode that needs no operand. -/
def emit (emitter : Emitter) (opcode : Opcode) : Emitter :=
  emitter.emitWith opcode .none

/-- Emit an opcode whose operand is the name of a variable, a field or a function. -/
def emitNamed (emitter : Emitter) (opcode : Opcode) (name : String) : Emitter :=
  emitter.emitWith opcode (.string name)

/-- Emit the load of a constant. -/
def emitConstant (emitter : Emitter) (value : Value) : Emitter :=
  emitter.emitWith .loadConst value

/-- The label of a jump that is emitted next. -/
def nextLabel (emitter : Emitter) : JumpLabel :=
  ⟨emitter.offset⟩

/-- Emit a jump whose distance is still unknown; its label is the emitter's `nextLabel` before. -/
def emitJump (emitter : Emitter) (opcode : Opcode) : Emitter :=
  emitter.emitWith opcode (.int 0)

/-- The distance from behind a jump to the next address. -/
def distance (emitter : Emitter) (label : JumpLabel) : Int64 :=
  Int64.ofNat (emitter.offset - (label.address + 1))

/-- Make a jump lead to the next address. -/
def patch (emitter : Emitter) (label : JumpLabel) : Emitter :=
  let target := Value.int (emitter.distance label)
  { emitter with
    code := emitter.code.modify label.address fun instruction =>
      { instruction with operand := target } }

@[simp] theorem offset_setTag (emitter : Emitter) (tag : String) :
    (emitter.setTag tag).offset = emitter.offset := rfl

@[simp] theorem offset_emitWith (emitter : Emitter) (opcode : Opcode) (operand : Value) :
    (emitter.emitWith opcode operand).offset = emitter.offset + 1 := by
  simp [offset, emitWith]

@[simp] theorem offset_patch (emitter : Emitter) (label : JumpLabel) :
    (emitter.patch label).offset = emitter.offset := by
  simp [offset, patch]

end Emitter

end StackLang
