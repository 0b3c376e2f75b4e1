import Liveset.Program.Index
import Liveset.Proofs.Reach.Evaluation

/-!
# Operands that are left out

The needs of a method body are those of its handlers and locals, followed by a part for each
instruction. A part begins with what the instruction asks for on account of its operand and goes on
with what it relies on in the support namespace (`bodyNeeds_eq`). So it can be said of every single
instruction whether its operand is followed (`Program.Follows`).

Which operands are left out is stated here on its own, as `Program.LeftOut`: a field whose token is
loaded to fill an array from it, and, whatever the operation, a method or a field that the platform
provides. The code rule keeps to this except that it looks for arrays alone where a token is loaded:
the token of a method or field that the platform provides is followed
(`follows_iff_not_leftOut_iff`).
-/

set_option autoImplicit false

namespace Liveset

/-! ## Code instruction by instruction -/

/-- The entity that an operand names, if it is one that may be left out. -/
def Operand.target? : Operand → Option Entity
  | .type id => some (.type id)
  | .method id => some (.method id)
  | .field id => some (.field id)
  | _ => .none

/-- What an instruction relies on in the support namespace. -/
def Support.helperNeeds (support : Support) (p : Program) (instruction : Instruction) :
    Except SupportError (List Need) := do
  let arrays ←
    match instruction.operand with
    | .method id => support.genericArrayNeeds p id
    | _ => .ok []
  let operation ← support.opcodeNeeds p instruction.opcode
  return arrays ++ operation

namespace Program

/-- What an instruction asks for on account of its operand. -/
def ownNeeds (p : Program) (locals : List TypeId) (instruction : Instruction)
    (next? : Option Instruction) : List Need :=
  match instruction.operand with
  | .parameter id => [.entity (.parameter id)]
  | .local slot => (locals[slot]?).toList.map fun id => .entity (.type id)
  | operand => operand.target?.toList.flatMap (operandNeeds p instruction next?)

/-- What each of several instructions asks for on account of its operand. -/
def operandParts (p : Program) (locals : List TypeId) : List Instruction → List (List Need)
  | [] => []
  | instruction :: rest =>
    p.ownNeeds locals instruction rest.head? :: p.operandParts locals rest

end Program

section Parts

variable (support : Support) (p : Program)

theorem instructionNeeds_eq (locals : List TypeId) (instruction : Instruction)
    (next? : Option Instruction) :
    instructionNeeds support p locals instruction next? =
      (support.helperNeeds p instruction).map
        (p.ownNeeds locals instruction next? ++ ·) := by
  obtain ⟨opcode, operand⟩ := instruction
  unfold instructionNeeds Support.helperNeeds
  cases operand with
  | method id =>
    simp only [referenceNeeds, Program.ownNeeds, Operand.target?, Option.toList_some,
      List.flatMap_singleton]
    -- Either look-up of support may fail, and then so do both sides.
    cases support.genericArrayNeeds p id with
    | error error => rfl
    | ok arrays =>
      cases support.opcodeNeeds p opcode with
      | error error => rfl
      | ok operation => exact congrArg Except.ok (List.append_assoc _ _ _)
  | type id | field id | parameter id | «local» slot =>
    simp only [referenceNeeds, Program.ownNeeds, Operand.target?, Option.toList_some,
      List.flatMap_singleton]
    cases support.opcodeNeeds p opcode <;> rfl
  | _ => cases support.opcodeNeeds p opcode <;> rfl

theorem instructionsNeeds_eq (locals : List TypeId) (instructions : List Instruction) :
    instructionsNeeds support p locals instructions =
      (instructions.mapM (support.helperNeeds p)).map fun helpers =>
        (List.zipWith (· ++ ·) (p.operandParts locals instructions) helpers).flatten := by
  induction instructions with
  | nil => rfl
  | cons instruction rest ih =>
    rw [instructionsNeeds, instructionNeeds_eq, ih, List.mapM_cons]
    cases support.helperNeeds p instruction with
    | error error => rfl
    | ok first => cases rest.mapM (support.helperNeeds p) <;> rfl

/-- The needs of a body: its handlers and locals, then for each instruction what it asks for on
account of its operand, followed by the support that it relies on. -/
theorem bodyNeeds_eq (body : MethodBody) :
    bodyNeeds support p body =
      (body.instructions.mapM (support.helperNeeds p)).map fun helpers =>
        Program.typeNeeds (body.handlers.filterMap (·.catchType) ++ body.locals) ++
          (List.zipWith (· ++ ·)
            (p.operandParts body.locals body.instructions) helpers).flatten := by
  rw [bodyNeeds, instructionsNeeds_eq]
  cases body.instructions.mapM (support.helperNeeds p) <;> rfl

end Parts

namespace Program

variable {p : Program} {body : MethodBody} {i : Nat} {instruction : Instruction} {target : Entity}

theorem getElem?_operandParts (p : Program) (locals : List TypeId) (instructions : List Instruction)
    (i : Nat) :
    (p.operandParts locals instructions)[i]? =
      (instructions[i]?).map fun instruction =>
        p.ownNeeds locals instruction instructions[i + 1]? := by
  induction instructions generalizing i with
  | nil => rfl
  | cons first rest ih =>
    cases i with
    | zero =>
      show some (p.ownNeeds locals first rest.head?) = some _
      rw [List.head?_eq_getElem?]
      rfl
    | succ i => exact ih i

/-! ## What is left out -/

/-- The instruction at a position loads the token of a field, and the next one calls the method that
fills an array from it. -/
def LoadsArrayData (p : Program) (body : MethodBody) (i : Nat) : Prop :=
  ∃ field method declaring, body.instructions[i]? = some ⟨.ldtoken, .field field⟩ ∧
    body.instructions[i + 1]? = some ⟨.call, .method method⟩ ∧
    p.methodName? method = some "InitializeArray" ∧ p.methodDeclaringType? method = some declaring ∧
    p.fullName declaring = "System.Runtime.CompilerServices.RuntimeHelpers"

/-- The operand denotes a method that the platform carries out, or a field that it fills in. -/
inductive Provides (p : Program) : Operand → Prop where
  | method {id denoted : MethodId} {d : MethodDefinition}
      (denotes : p.resolveMethod? id = some denoted)
      (defined : p.methodDefinition? denoted = some d) (native : d.flags.native) :
      Provides p (.method id)
  | field {id denoted : FieldId} {d : FieldDefinition}
      (denotes : p.resolveField? id = some denoted)
      (defined : p.fieldDefinition? denoted = some d) (resource : d.resourceId) :
      Provides p (.field id)

/-- The operand of the instruction at a position is to be left out. -/
def LeftOut (p : Program) (body : MethodBody) (i : Nat) : Prop :=
  p.LoadsArrayData body i ∨
    ∃ instruction, body.instructions[i]? = some instruction ∧ p.Provides instruction.operand

/-- The instruction at a position loads the token of something that the platform provides, and does
not do so to fill an array. -/
def LoadsPlatformToken (p : Program) (body : MethodBody) (i : Nat) : Prop :=
  ¬ p.LoadsArrayData body i ∧
    ∃ operand, body.instructions[i]? = some ⟨.ldtoken, operand⟩ ∧ p.Provides operand

/-- The operand of the instruction at a position is followed: it asks for the entity that it
names. -/
def Follows (p : Program) (body : MethodBody) (i : Nat) (target : Entity) : Prop :=
  (p.operandParts body.locals body.instructions)[i]? = some [.entity target]

theorem isPlatformProvided_iff (p : Program) (operand : Operand) :
    p.isPlatformProvided operand ↔ p.Provides operand := by
  constructor
  · intro provided
    cases operand with
    | method id =>
      obtain ⟨d, found, native⟩ := (Option.any_eq_true _ _).1 provided
      obtain ⟨denoted, denotes, defined⟩ := Option.bind_eq_some_iff.1 found
      exact .method denotes defined native
    | field id =>
      obtain ⟨d, found, resource⟩ := (Option.any_eq_true _ _).1 provided
      obtain ⟨denoted, denotes, defined⟩ := Option.bind_eq_some_iff.1 found
      exact .field denotes defined resource
    | _ => cases provided
  · intro provides
    cases provides with
    | method denotes defined native => simp [isPlatformProvided, denotes, defined, native]
    | field denotes defined resource => simp [isPlatformProvided, denotes, defined, resource]

theorem callsArrayInitializer_iff (p : Program) (next : Instruction) :
    p.callsArrayInitializer next ↔
      ∃ method declaring, next = ⟨.call, .method method⟩ ∧
        p.methodName? method = some "InitializeArray" ∧
        p.methodDeclaringType? method = some declaring ∧
        p.fullName declaring = "System.Runtime.CompilerServices.RuntimeHelpers" := by
  constructor
  · intro calls
    obtain ⟨opcode, operand⟩ := next
    unfold callsArrayInitializer at calls
    split at calls
    · rename_i method isCall isMethod
      cases isCall
      cases isMethod
      obtain ⟨named, declared⟩ := Bool.and_eq_true_iff.1 calls
      split at declared
      · rename_i declaring found
        exact ⟨method, declaring, rfl, by simpa using named, found, by simpa using declared⟩
      · cases declared
    · cases calls
  · rintro ⟨method, declaring, rfl, named, declared, spelled⟩
    simp [callsArrayInitializer, isArrayInitializer, named, declared, spelled]

/-- What the code rule leaves out: array data, and where no token is loaded what the platform
provides. -/
theorem isExcluded_iff (here : body.instructions[i]? = some instruction) :
    p.isExcluded instruction body.instructions[i + 1]? ↔
      p.LoadsArrayData body i ∨
        (instruction.opcode ≠ .ldtoken ∧ p.Provides instruction.operand) := by
  obtain ⟨opcode, operand⟩ := instruction
  by_cases token : opcode = .ldtoken
  · subst token
    -- A token: only that of a field is ever left out.
    have only : p.isExcluded ⟨.ldtoken, operand⟩ body.instructions[i + 1]? ↔
        p.LoadsArrayData body i := by
      unfold LoadsArrayData
      rw [here]
      cases operand with
      | field id =>
        show (body.instructions[i + 1]?).any p.callsArrayInitializer ↔ _
        simp only [Option.any_eq_true, callsArrayInitializer_iff]
        constructor
        · rintro ⟨next, follows, method, declaring, rfl, called⟩
          exact ⟨id, method, declaring, rfl, follows, called⟩
        · rintro ⟨_, method, declaring, -, follows, called⟩
          exact ⟨_, follows, method, declaring, rfl, called⟩
      | _ => simp [isExcluded]
    simp [only]
  · have elsewhere : ¬ p.LoadsArrayData body i := by
      rintro ⟨field, method, declaring, loads, -⟩
      rw [here] at loads
      cases loads
      exact token rfl
    have plain : p.isExcluded ⟨opcode, operand⟩ body.instructions[i + 1]? =
        p.isPlatformProvided operand := by
      cases opcode
      case ldtoken => exact absurd rfl token
      all_goals rfl
    simp [plain, elsewhere, token, isPlatformProvided_iff]

/-- An instruction asks for the entity that its operand names, or for nothing on account of it. -/
theorem getElem?_operandParts_of_target (here : body.instructions[i]? = some instruction)
    (named : instruction.operand.target? = some target) :
    (p.operandParts body.locals body.instructions)[i]? =
      some (if p.isExcluded instruction body.instructions[i + 1]? then []
        else [.entity target]) := by
  rw [getElem?_operandParts, here, Option.map_some]
  obtain ⟨opcode, operand⟩ := instruction
  cases operand with
  | type id | method id | field id =>
    cases named
    exact congrArg some (List.append_nil _)
  | _ => cases named

theorem follows_iff (here : body.instructions[i]? = some instruction)
    (named : instruction.operand.target? = some target) :
    p.Follows body i target ↔
      ¬ (p.LoadsArrayData body i ∨
        (instruction.opcode ≠ .ldtoken ∧ p.Provides instruction.operand)) := by
  rw [← isExcluded_iff here, Follows, getElem?_operandParts_of_target here named]
  cases p.isExcluded instruction body.instructions[i + 1]? <;> simp

theorem leftOut_iff (here : body.instructions[i]? = some instruction) :
    p.LeftOut body i ↔ p.LoadsArrayData body i ∨ p.Provides instruction.operand := by
  simp [LeftOut, here]

theorem loadsPlatformToken_iff (here : body.instructions[i]? = some instruction) :
    p.LoadsPlatformToken body i ↔
      ¬ p.LoadsArrayData body i ∧ instruction.opcode = .ldtoken ∧
        p.Provides instruction.operand := by
  obtain ⟨opcode, operand⟩ := instruction
  simp only [LoadsPlatformToken, here, Option.some.injEq, Instruction.mk.injEq]
  constructor
  · rintro ⟨elsewhere, _, ⟨token, rfl⟩, provides⟩
    exact ⟨elsewhere, token, provides⟩
  · rintro ⟨elsewhere, token, provides⟩
    exact ⟨elsewhere, operand, ⟨token, rfl⟩, provides⟩

/-- The needs of a body have a part for each instruction, which begins with the entity that its
operand names or with nothing on account of it. The operand is followed exactly if it is not to be
left out, unless the instruction loads the token of something that the platform provides.

This speaks of bodies whose rule returns (`codeReturns`). With an operand that is an instance of
itself, or of a method that is, the question for its signature does not return, and the rule gives
no needs at all. -/
theorem follows_iff_not_leftOut_iff (support : Support) (p : Program) (body : MethodBody) :
    (bodyNeeds support p body =
      (body.instructions.mapM (support.helperNeeds p)).map fun helpers =>
        Program.typeNeeds (body.handlers.filterMap (·.catchType) ++ body.locals) ++
          (List.zipWith (· ++ ·) (p.operandParts body.locals body.instructions) helpers).flatten) ∧
    ∀ (i : Nat) (instruction : Instruction) (target : Entity),
      body.instructions[i]? = some instruction → instruction.operand.target? = some target →
      (p.Follows body i target ∨ (p.operandParts body.locals body.instructions)[i]? = some []) ∧
        ((p.Follows body i target ↔ ¬ p.LeftOut body i) ↔ ¬ p.LoadsPlatformToken body i) := by
  refine ⟨bodyNeeds_eq support p body, fun i instruction target here named => ⟨?_, ?_⟩⟩
  · rw [Follows, getElem?_operandParts_of_target here named]
    cases p.isExcluded instruction body.instructions[i + 1]? <;> simp
  · rw [follows_iff here named, leftOut_iff here, loadsPlatformToken_iff here]
    -- Array data is left out by both. Of the rest only a token that is loaded makes a difference.
    by_cases data : p.LoadsArrayData body i
    · simp [data]
    · by_cases token : instruction.opcode = .ldtoken <;> simp [data, token]

/-! ## Tokens of what the platform provides -/

/-- The code of `Main` in `vault`. -/
def tokens : MethodBody where
  instructions := [
    { opcode := .ldtoken, operand := .method ⟨1⟩ }, { opcode := .ldtoken, operand := .field ⟨0⟩ }]

/-- The method `Main` loads the tokens of a method that the platform carries out and of a field that
it fills in. -/
def vault : Program :=
  Program.rebuild {
    types := #[
      .definition {
        namespaceName := "App", name := "Program", methods := [⟨0⟩, ⟨1⟩], fields := [⟨0⟩] },
      .definition { namespaceName := "System", name := "Void" }]
    methods := #[
      .definition
        { declaringType := ⟨0⟩, name := "Main", returnType := ⟨1⟩, body := some tokens },
      .definition
        { declaringType := ⟨0⟩, name := "Peek", returnType := ⟨1⟩, flags := { native := true } }]
    fields := #[
      .definition {
        declaringType := ⟨0⟩, name := "layout", fieldType := ⟨1⟩, resourceId := true }] }

/-- A call of the method that the platform carries out is not followed. -/
theorem not_follows_call_vault :
    let body : MethodBody := { instructions := [{ opcode := .call, operand := .method ⟨1⟩ }] }
    body.instructions[0]? = some { opcode := .call, operand := .method ⟨1⟩ } ∧
      vault.LeftOut body 0 ∧ ¬ vault.LoadsPlatformToken body 0 ∧
      ¬ vault.Follows body 0 (.method ⟨1⟩) := by
  intro body
  have leftOut : vault.LeftOut body 0 := .inr ⟨_, rfl, .method rfl rfl rfl⟩
  have plain : ¬ vault.LoadsPlatformToken body 0 := by
    rw [loadsPlatformToken_iff rfl]
    rintro ⟨-, token, -⟩
    cases token
  have meets := ((follows_iff_not_leftOut_iff {} vault body).2 0 _ (.method ⟨1⟩) rfl rfl).2.2 plain
  exact ⟨rfl, leftOut, plain, fun follows => meets.1 follows leftOut⟩

set_option maxRecDepth 4000 in
/-- Both operands are to be left out, whatever the operation. Both are followed, and a pass reaches
them. -/
theorem platformTokens_followed :
    vault.LeftOut tokens 0 ∧ vault.Follows tokens 0 (.method ⟨1⟩) ∧
      vault.LeftOut tokens 1 ∧ vault.Follows tokens 1 (.field ⟨0⟩) ∧
      ∀ strategy : Strategy,
        let session :=
          Session.fresh { program := vault, includes := fun _ => false } strategy .empty true
        let calls : List Call := [.mark (some (.method ⟨0⟩))]
        session.Succeeds calls ∧ (session.after calls).isReached (.method ⟨1⟩) ∧
          (session.after calls).isReached (.field ⟨0⟩) := by
  refine ⟨.inr ⟨_, rfl, .method rfl rfl rfl⟩, rfl, .inr ⟨_, rfl, .field rfl rfl rfl⟩, rfl, ?_⟩
  intro strategy session calls
  have tested := session.attempt_any calls 100
    (fun entries final => entries.all (·.1.isOk) && final.isReached (.method ⟨1⟩) &&
      final.isReached (.field ⟨0⟩)) (by cases strategy <;> decide +kernel)
  simp only [Bool.and_eq_true] at tested
  obtain ⟨⟨ok, method⟩, field⟩ := tested
  exact ⟨Session.succeeds_of_isOk ok, method, field⟩

end Program

end Liveset
