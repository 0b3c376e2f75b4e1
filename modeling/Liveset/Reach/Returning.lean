import Liveset.Reach.Session

/-!
# Markings that return

The rules ask for names, signatures and declaring types of methods, and so does the search for
owners. These questions follow chains of instances. At a chain that leads back to itself a marking
does not return. The markings of a session go on there as they do for a handle outside the arena, so
they say what happens only as far as every question has returned.

A rule that fails asks nothing after its failure, so the questions of a rule are taken in its order.
`Machine.watch` takes the turns of `Machine.run` and is undefined where one of them does not return.
`markRoots?` and its kin are the markings of a session, undefined where they do not return.

What this module delivers: `Scene.ruleReturns`, `Worklist.Machine.isStuck`,
`Worklist.Machine.watch`, `Session.markOption?`, `Session.markRoots?` and
`Session.walkProgramAttributes?`.
-/

set_option autoImplicit false

namespace Liveset

/-! ## Rules -/

namespace Program

/-- Does the choice of the attributes that reach the output return? It asks where each of their
constructors is declared. -/
def attributesReturn (p : Program) (attributes : List AttributeId) : Bool :=
  attributes.all fun id => (p.attribute? id).all fun a => !p.isEndless a.constructor

/-- Does the question whether an instruction calls the initialiser of arrays return? -/
def initializerReturns (p : Program) (next : Instruction) : Bool :=
  match next.opcode, next.operand with
  | .call, .method target => !p.isEndless target
  | _, _ => true

/-- Do the questions about the operand of an instruction return? A method is asked for its
signature, and a field whose token is loaded for the instruction that comes next. -/
def operandReturns (p : Program) (instruction : Instruction) (next? : Option Instruction) : Bool :=
  match instruction.opcode, instruction.operand with
  | _, .method id => !p.isEndless id
  | .ldtoken, .field _ => next?.all p.initializerReturns
  | _, _ => true

end Program

/-- Does the rule of a run of instructions return? -/
def instructionsReturn (support : Support) (p : Program) (locals : List TypeId) :
    List Instruction → Bool
  | [] => true
  | instruction :: rest =>
    p.operandReturns instruction rest.head? &&
      (!(instructionNeeds support p locals instruction rest.head?).isOk ||
        instructionsReturn support p locals rest)

/-- Does the rule of a method body return? -/
def codeReturns (support : Support) (p : Program) : Option MethodBody → Bool
  | none => true
  | some body => instructionsReturn support p body.locals body.instructions

namespace Scene

/-- Does the rule of a type definition return? -/
def typeDefinitionReturns (scene : Scene) (id : TypeId) (d : TypeDefinition) : Bool :=
  !(scene.typeDefinitionRule id d).isOk || scene.program.attributesReturn d.attributes

/-- Does the rule of a method definition return? -/
def methodDefinitionReturns (scene : Scene) (id : MethodId) (d : MethodDefinition) : Bool :=
  !(scene.genericNeeds (.method id) d.genericParameters).isOk ||
    (codeReturns scene.support scene.program d.body &&
      (!(codeNeeds scene.support scene.program d.body).isOk ||
        scene.program.attributesReturn d.attributes))

/-- Does the rule of an entity return? -/
def ruleReturns (scene : Scene) : Entity → Bool
  | .type id => (scene.program.typeDefinition? id).all (scene.typeDefinitionReturns id)
  | .method id => (scene.program.methodDefinition? id).all (scene.methodDefinitionReturns id)
  | .field id =>
    (scene.program.fieldDefinition? id).all (scene.program.attributesReturn ·.attributes)
  | .property id => (scene.program.property? id).all (scene.program.attributesReturn ·.attributes)
  | .event id => (scene.program.event? id).all (scene.program.attributesReturn ·.attributes)
  | .parameter id => (scene.program.parameter? id).all (scene.program.attributesReturn ·.attributes)
  | .genericParameter id =>
    (scene.program.genericParameter? id).all (scene.program.attributesReturn ·.attributes)
  | .attribute id => scene.program.attributesReturn [id]
  | .foreignClass _ | .foreignField _ _ | .foreignMethod _ _ => true

end Scene

/-! ## The loop -/

namespace Worklist

/-- Does the turn at the top frame not return? A pending entity that is not reached is asked for its
owner, and once that is reached its rule is applied. -/
def Machine.isStuck (scene : Scene) : Machine → Bool
  | ⟨s, .pending _ target :: _⟩ =>
    !s.isReached target &&
      (!scene.program.ownerReturns target ||
        ((s.unreachedOwner? scene.program target).isNone && !scene.ruleReturns target))
  | _ => false

/-- Take turns until the loop is over, as long as they return. -/
def Machine.watch (scene : Scene) (machine : Machine) : Option Outcome :=
  if machine.isStuck scene then none
  else match turn scene machine with
    | .next machine => machine |>.watch scene
    | .over outcome => some outcome
partial_fixpoint

end Worklist

/-! ## Sessions -/

namespace Session

/-- Mark entities as `markEach` does, as long as the markings return. -/
def markEach? (prepare : Session → Entity → Session) (session : Session) :
    List Entity → Option (Except SupportError Unit × Session)
  | [] => some (.ok (), session)
  | entity :: rest =>
    let session := prepare session entity
    match (Worklist.start session.state entity).watch session.scene with
    | none => none
    | some _ =>
      match session.mark entity with
      | (.error error, session) => some (.error error, session)
      | (.ok (), session) => session.markEach? prepare rest

/-- Mark an entity, if there is one. -/
def markOption? (session : Session) (entity : Option Entity) :
    Option (Except SupportError Unit × Session) :=
  session.markEach? (fun session _ => session) entity.toList

/-- Mark roots one after the other up to the first failure. -/
def markRoots? (session : Session) (roots : List Entity) :
    Option (Except SupportError Unit × Session) :=
  session.markEach? countRoot roots

/-- Mark the attributes of the program, once those that reach the output have been chosen. -/
def walkProgramAttributes? (session : Session) : Option (Except SupportError Unit × Session) :=
  if session.scene.program.attributesReturn session.scene.program.programAttributes then
    session.markEach? (fun session _ => session) session.programAttributes
  else none

end Session

end Liveset
