import Liveset.Entity

/-!
# Method bodies

A body lists the types of its local variables, its exception handlers and its instructions. Only the
operations that an analysis tells apart have names of their own; every other one is `other`.
-/

set_option autoImplicit false

namespace Liveset

/-- An operation. -/
inductive OpCode where
  | nop
  | ldtoken
  | call
  | callvirt
  | newobj
  | ldftn
  | ldfld
  | ldflda
  | stfld
  | ldsfld
  | stsfld
  | ldarg
  | starg
  | ldloc
  | stloc
  | newarr
  | castclass
  | isinst
  | initobj
  | box
  | unbox
  | unboxAny
  | add
  | addOvf
  | addOvfUn
  | sub
  | subOvf
  | subOvfUn
  | mul
  | mulOvf
  | mulOvfUn
  | ret
  | other
deriving DecidableEq, Inhabited, Repr

/-- The families of arithmetic that check for overflow. -/
inductive CheckedFamily where
  | add
  | sub
  | mul
deriving DecidableEq, Inhabited, Repr

/-- The name of the support method that carries out a checked family. -/
def CheckedFamily.method : CheckedFamily → String
  | .add => "Add"
  | .sub => "Sub"
  | .mul => "Mul"

namespace OpCode

/-- The checked family of an operation, if it checks for overflow. -/
def checked? : OpCode → Option CheckedFamily
  | .addOvf | .addOvfUn => some .add
  | .subOvf | .subOvfUn => some .sub
  | .mulOvf | .mulOvfUn => some .mul
  | _ => none

/-- Does the operation take a value out of its box? -/
def isUnbox : OpCode → Bool
  | .unbox | .unboxAny => true
  | _ => false

end OpCode

/-- What an operation is applied to. -/
inductive Operand where
  | none
  | type (id : TypeId)
  | method (id : MethodId)
  | field (id : FieldId)
  | parameter (id : ParameterId)
  | local (slot : Nat)
  | int (value : Int)
  | float (value : Float)
  | string (value : String)
  | branch (target : Nat)
deriving Inhabited, Repr

/-- Is there no operand? -/
def Operand.isNone : Operand → Bool
  | .none => true
  | _ => false

/-- An operation with its operand. -/
structure Instruction where
  opcode : OpCode
  operand : Operand := .none
deriving Inhabited, Repr

/-- An exception handler; one without a catch type runs in every case. -/
structure Handler where
  catchType : Option TypeId := none
deriving DecidableEq, Inhabited, Repr

/-- The code of a method. -/
structure MethodBody where
  /-- Types of the local variables, by slot. -/
  locals : List TypeId := []
  handlers : List Handler := []
  instructions : List Instruction := []
deriving Inhabited, Repr

end Liveset
