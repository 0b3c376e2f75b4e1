import Liveset.Program.Hierarchy
import Liveset.Reach.Support
import Liveset.Reach.Step

/-!
# What a method body needs

A body needs the types it catches, the types of its locals and the operands of its instructions.
Three kinds of operand are left out: a field whose token is loaded only to fill an array from it, a
method that the platform carries out, and a field that the platform fills in. The first is
recognised by adjacency: the very next instruction calls the initialiser of arrays.

Some operations are carried out by methods of the support namespace, and so is the conversion of
arrays of a generic parameter at a call.

What this module delivers: `Program.isExcluded` and `codeNeeds`.
-/

set_option autoImplicit false

namespace Liveset

/-! ## Operands that are not followed -/

namespace Program

/-- Is this the method that fills an array from a block of data? -/
def isArrayInitializer (p : Program) (id : MethodId) : Bool :=
  p.methodName? id = some "InitializeArray" &&
    match p.methodDeclaringType? id with
    | some declaring => p.fullName declaring = "System.Runtime.CompilerServices.RuntimeHelpers"
    | none => false

/-- Does the instruction call the initialiser of arrays? -/
def callsArrayInitializer (p : Program) (next : Instruction) : Bool :=
  match next.opcode, next.operand with
  | .call, .method target => p.isArrayInitializer target
  | _, _ => false

/-- Does the operand denote something that the platform provides? -/
def isPlatformProvided (p : Program) : Operand → Bool
  | .method id => ((p.resolveMethod? id).bind p.methodDefinition?).any (·.flags.native)
  | .field id => ((p.resolveField? id).bind p.fieldDefinition?).any (·.resourceId)
  | _ => false

/-- Is the operand of an instruction left out? `next?` is the instruction after it. -/
def isExcluded (p : Program) (instruction : Instruction) (next? : Option Instruction) : Bool :=
  match instruction.opcode, instruction.operand with
  | .ldtoken, .field _ => next?.any p.callsArrayInitializer
  | .ldtoken, _ => false
  | _, operand => p.isPlatformProvided operand

end Program

/-! ## Support methods -/

namespace Support

/-- A need for each of several methods. -/
def needs (methods : List MethodId) : List Need := methods.map fun id => .entity (.method id)

/-- What a call needs when it passes arrays of a generic parameter. -/
def arrayArgumentNeeds (support : Support) (p : Program) (signature : Program.Signature) :
    Except SupportError (List Need) :=
  if signature.parameterTypes.any p.isGenericParameterArray then do
    let boxing ← support.methodsNamed p "Boxing" "Box"
    let unboxing ← support.methodsNamed p "Boxing" "UnboxTo"
    return needs boxing ++ needs unboxing
  else .ok []

/-- What a call needs when it gives an array of a generic parameter back. -/
def arrayResultNeeds (support : Support) (p : Program) (signature : Program.Signature) :
    Except SupportError (List Need) :=
  if p.isGenericParameterArray signature.returnType then
    (support.methodsWhere p "Boxing" "Unbox*" fun name count => isUnboxName name && count = 1).map
      needs
  else .ok []

/-- What a call with arrays of a generic parameter needs. -/
def genericArrayNeeds (support : Support) (p : Program) (method : MethodId) :
    Except SupportError (List Need) :=
  match p.methodSignature? method with
  | none => .ok []
  | some signature => do
    let arguments ← support.arrayArgumentNeeds p signature
    let result ← support.arrayResultNeeds p signature
    return arguments ++ result

/-- What an operation needs, whatever its operand. -/
def opcodeNeeds (support : Support) (p : Program) (opcode : OpCode) :
    Except SupportError (List Need) :=
  match opcode.checked? with
  | some family => (support.methodsNamed p "Checked" family.method).map needs
  | none =>
    if opcode = .box then (support.methodsNamed p "Boxing" "Box").map needs
    else if opcode.isUnbox then
      (support.methodsWhere p "Boxing" "Unbox*" fun name _ => isUnboxName name).map needs
    else .ok []

end Support

/-! ## Bodies -/

/-- The need for an operand, unless it is left out. -/
def operandNeeds (p : Program) (instruction : Instruction) (next? : Option Instruction)
    (target : Entity) : List Need :=
  if p.isExcluded instruction next? then [] else [.entity target]

/-- What an instruction needs for its operand. -/
def referenceNeeds (support : Support) (p : Program) (locals : List TypeId)
    (instruction : Instruction) (next? : Option Instruction) : Except SupportError (List Need) :=
  match instruction.operand with
  | .type id => .ok (operandNeeds p instruction next? (.type id))
  | .method id =>
    (support.genericArrayNeeds p id).map
      fun arrays => operandNeeds p instruction next? (.method id) ++ arrays
  | .field id => .ok (operandNeeds p instruction next? (.field id))
  | .parameter id => .ok [.entity (.parameter id)]
  | .local slot => .ok ((locals[slot]?).toList.map fun id => .entity (.type id))
  | _ => .ok []

/-- What an instruction needs. -/
def instructionNeeds (support : Support) (p : Program) (locals : List TypeId)
    (instruction : Instruction) (next? : Option Instruction) :
    Except SupportError (List Need) := do
  let reference ← referenceNeeds support p locals instruction next?
  let operation ← support.opcodeNeeds p instruction.opcode
  return reference ++ operation

/-- What a run of instructions needs. -/
def instructionsNeeds (support : Support) (p : Program) (locals : List TypeId) :
    List Instruction → Except SupportError (List Need)
  | [] => .ok []
  | instruction :: rest => do
    let first ← instructionNeeds support p locals instruction rest.head?
    let others ← instructionsNeeds support p locals rest
    return first ++ others

/-- What a method body needs. -/
def bodyNeeds (support : Support) (p : Program) (body : MethodBody) :
    Except SupportError (List Need) := do
  let caught := body.handlers.filterMap (·.catchType)
  let code ← instructionsNeeds support p body.locals body.instructions
  return (caught ++ body.locals).map (fun id => .entity (.type id)) ++ code

/-- What the code of a method needs, if it has any. -/
def codeNeeds (support : Support) (p : Program) :
    Option MethodBody → Except SupportError (List Need)
  | none => .ok []
  | some body => bodyNeeds support p body

end Liveset
