import Liveset.Metadata.Code
import Liveset.Entity.Form
import Liveset.Decimal.Binary64

/-!
# Written forms of method bodies
-/

set_option autoImplicit false

namespace Liveset

/-! ## Operations -/

namespace OpCode

/-- Every operation. -/
def all : List OpCode :=
  [.nop, .ldtoken, .call, .callvirt, .newobj, .ldftn, .ldfld, .ldflda, .stfld, .ldsfld, .stsfld,
    .ldarg, .starg, .ldloc, .stloc, .newarr, .castclass, .isinst, .initobj, .box, .unbox, .unboxAny,
    .add, .addOvf, .addOvfUn, .sub, .subOvf, .subOvfUn, .mul, .mulOvf, .mulOvfUn, .ret, .other]

/-- The written name. -/
def name : OpCode → String
  | .nop => "nop"
  | .ldtoken => "ldtoken"
  | .call => "call"
  | .callvirt => "callvirt"
  | .newobj => "newobj"
  | .ldftn => "ldftn"
  | .ldfld => "ldfld"
  | .ldflda => "ldflda"
  | .stfld => "stfld"
  | .ldsfld => "ldsfld"
  | .stsfld => "stsfld"
  | .ldarg => "ldarg"
  | .starg => "starg"
  | .ldloc => "ldloc"
  | .stloc => "stloc"
  | .newarr => "newarr"
  | .castclass => "castclass"
  | .isinst => "isinst"
  | .initobj => "initobj"
  | .box => "box"
  | .unbox => "unbox"
  | .unboxAny => "unbox_any"
  | .add => "add"
  | .addOvf => "add_ovf"
  | .addOvfUn => "add_ovf_un"
  | .sub => "sub"
  | .subOvf => "sub_ovf"
  | .subOvfUn => "sub_ovf_un"
  | .mul => "mul"
  | .mulOvf => "mul_ovf"
  | .mulOvfUn => "mul_ovf_un"
  | .ret => "ret"
  | .other => "other"

/-- The operation with a written name. -/
def ofName? (name : String) : Option OpCode := all.find? fun opcode => opcode.name = name

/-- Read an operation. -/
def ofForm? (value : Json) : Option OpCode := do
  let (name, payload) ← value.variant?
  Json.bare (← ofName? name) payload

instance : JsonForm OpCode where
  toJson opcode := .string opcode.name
  ofJson? := ofForm?

end OpCode

/-! ## Instructions -/

namespace Operand

/-- The written form. -/
def form : Operand → Json
  | .none => .string "none"
  | .type id => .tagged "type" (toJson id)
  | .method id => .tagged "method" (toJson id)
  | .field id => .tagged "field" (toJson id)
  | .parameter id => .tagged "parameter" (toJson id)
  | .local slot => .tagged "local" (toJson slot)
  | .int value => .tagged "int" (toJson value)
  | .float value => .tagged "float" (toJson value)
  | .string value => .tagged "string" (toJson value)
  | .branch target => .tagged "branch" (toJson target)

/-- Read the payload of an operand called `name`. -/
def ofPayload? (name : String) (payload : Json) : Option Operand :=
  match name with
  | "type" => (ofJson? payload).map .type
  | "method" => (ofJson? payload).map .method
  | "field" => (ofJson? payload).map .field
  | "parameter" => (ofJson? payload).map .parameter
  | "local" => (ofJson? payload).map .local
  | "int" => (ofJson? payload).map .int
  | "float" => (ofJson? payload).map .float
  | "string" => (ofJson? payload).map .string
  | "branch" => (ofJson? payload).map .branch
  | _ => Option.none

/-- Read an operand. -/
def ofForm? (value : Json) : Option Operand := do
  match ← value.variant? with
  | ("none", payload) => Json.bare .none payload
  | (name, some payload) => ofPayload? name payload
  | _ => Option.none

instance : JsonForm Operand where
  toJson := form
  ofJson? := ofForm?

end Operand

namespace Instruction

/-- The written form. -/
def form (i : Instruction) : Json :=
  .object [("opcode", toJson i.opcode), ("operand", toJson i.operand)]

/-- Read an instruction. -/
def ofForm? (value : Json) : Option Instruction := do
  let [opcode, operand] ← value.components? ["opcode", "operand"] | none
  return { opcode := ← Json.required opcode, operand := ← Json.orElse .none operand }

instance : JsonForm Instruction where
  toJson := form
  ofJson? := ofForm?

end Instruction

/-! ## Bodies -/

namespace Handler

/-- The written form. -/
def form (h : Handler) : Json := .object [("catch_type", .ofOption h.catchType)]

/-- Read an exception handler. -/
def ofForm? (value : Json) : Option Handler := do
  let [catchType] ← value.components? ["catch_type"] | none
  return { catchType := ← Json.optional catchType }

instance : JsonForm Handler where
  toJson := form
  ofJson? := ofForm?

end Handler

namespace MethodBody

/-- The written form. -/
def form (b : MethodBody) : Json :=
  .object [("locals", toJson b.locals), ("handlers", toJson b.handlers),
    ("instructions", toJson b.instructions)]

/-- Read a method body. -/
def ofForm? (value : Json) : Option MethodBody := do
  let [locals, handlers, instructions] ←
    value.components? ["locals", "handlers", "instructions"] | none
  return {
    locals := ← Json.orElse [] locals
    handlers := ← Json.orElse [] handlers
    instructions := ← Json.orElse [] instructions }

instance : JsonForm MethodBody where
  toJson := form
  ofJson? := ofForm?

end MethodBody

end Liveset
