import Liveset.Proofs.Json.Reading
import Liveset.Proofs.Metadata.Attributes
import Liveset.Proofs.Program.Registration

/-!
# Documents are read back

A program that was read from a document and has no floating-point operand is read back from the
document that is written of it: `Program.document_restores`. Three facts are put together. The form
of the program is plain, so the text of the document reads as that form. Every node was read, and
nodes that were read are read back; a method may have been given another part since, which its form
carries as well as the one it was read with. And the derived data depend only on what the form
carries, so they are rebuilt as they were.
-/

set_option autoImplicit false

namespace Liveset

/-- A method node that was read is read back, whatever part it has been given since. -/
theorem MethodNode.restores_withPart {value : Json} {node : MethodNode}
    (read : ofJson? value = some node) (floatFree : ∀ d ∈ node.definition?, d.FloatFree)
    (part : Option Semantics) :
    Restores (node.withPart part) := by
  rcases restores_of_read read with ⟨d, rfl, _, found⟩ | ⟨other, restored⟩
  · have restored :=
      MethodDefinition.restores_of_read found (floatFree d rfl) (part.getD d.semantics)
    show Restores (MethodNode.definition { d with semantics := part.getD d.semantics })
    exact restored.tagged rfl rfl
  · cases node with
    | definition d => cases other
    | «instance» | reference => exact restored

namespace Program

/-- No method of the program has a floating-point operand. -/
def FloatFree (p : Program) : Prop := ∀ node ∈ p.methods.toList, ∀ d ∈ node.definition?, d.FloatFree

instance (p : Program) : Decidable p.FloatFree :=
  inferInstanceAs (Decidable (∀ node ∈ p.methods.toList, ∀ d ∈ node.definition?, d.FloatFree))

theorem rebuild_withIndex (p : Program) (index : NameIndex) :
    { p with index }.rebuild = p.rebuild := by
  have same : { p with index }.indexTypes = p.indexTypes := indexTypes_congr rfl rfl
  rw [rebuild, same]
  rfl

/-- The methods of a program that was read are read back with the parts that they were given. -/
theorem restores_methods {q : Program}
    (read : ∀ node ∈ q.methods.toList, ∃ value : Json, ofJson? value = some node)
    (floatFree : q.rebuild.FloatFree) : Restores q.rebuild.methods := by
  refine restores_array ?_
  intro node member
  obtain ⟨i, found⟩ := List.mem_iff_getElem?.1 member
  have tagged := getElem?_tagAccessors { q with index := q.indexTypes } q.accessorSlots i
  rw [Array.getElem?_toList] at found
  rw [← rebuild, found] at tagged
  -- the node is one that was read, with the part that the slots assign to it
  obtain ⟨original, present, same⟩ := Option.map_eq_some_iff.1 tagged.symm
  subst same
  obtain ⟨value, read⟩ := read original (List.mem_iff_getElem?.2 ⟨i, by simpa using present⟩)
  refine MethodNode.restores_withPart read ?_ _
  intro d isDefinition
  cases original with
  | definition d =>
    cases isDefinition
    have kept : MethodDefinition.FloatFree { d with semantics := _ } := floatFree _ member _ rfl
    exact kept
  | «instance» | reference => cases isDefinition

/-- The form of a program that was read is plain and gives the program, without its index. -/
theorem ofForm?_form {value : Json} {q : Program} (read : ofForm? value = some q)
    (floatFree : q.rebuild.FloatFree) :
    q.rebuild.form.Plain ∧ ofForm? q.rebuild.form = some { q.rebuild with index := {} } := by
  obtain ⟨components, -, read⟩ := Option.bind_eq_some_iff.1 read
  split at read
  case h_2 => cases read
  simp only [↓gave_iff, Option.pure_def, Option.some.injEq] at read
  obtain ⟨_, types, methods, given, _, fields, _, properties, _, events, _, parameters, _,
    genericParameters, _, attributes, _, programAttributes, _, entryPoints, rfl⟩ := read
  have restored := restores_methods (fun node member => ?_) floatFree
  · rw [rebuild_eq]
    exact Rereads.record ofForm? names rfl rfl (by decide) (fun _ => rfl) <|
      .orElse restores_empty types <| .of_restores restored <| .orElse restores_empty fields <|
      .orElse restores_empty properties <| .orElse restores_empty events <|
      .orElse restores_empty parameters <| .orElse restores_empty genericParameters <|
      .orElse restores_empty attributes <| .orElse restores_nil programAttributes <|
      .orElse restores_nil entryPoints .done
  · rcases Json.eq_or_exists_of_orElse given with rfl | ⟨value, found⟩
    · cases member
    · obtain ⟨items, list, rfl⟩ := Option.map_eq_some_iff.1 found
      exact exists_read_of_mem list member

/-- What was read from a form and rebuilt is read back from its document. -/
theorem parse?_document_rebuild {value : Json} {q : Program} (read : ofForm? value = some q)
    (floatFree : q.rebuild.FloatFree) : parse? q.rebuild.document = some q.rebuild := by
  obtain ⟨plain, back⟩ := ofForm?_form read floatFree
  rw [parse?, document, plain.parse?_pretty]
  show (ofForm? q.rebuild.form).bind (fun p => some p.rebuild) = some q.rebuild
  rw [back]
  show some ({ q.rebuild with index := {} } : Program).rebuild = some q.rebuild
  rw [rebuild_withIndex, rebuild_rebuild]

/-- A program that was read from a document is read back from its own. -/
theorem document_restores {text : String} {p : Program} (parsed : parse? text = some p)
    (floatFree : p.FloatFree) : parse? p.document = some p := by
  obtain ⟨_, q, read, rfl⟩ := exists_of_parse? parsed
  exact parse?_document_rebuild read floatFree

/-- Lists of constants inside one another, with a number in the innermost. -/
def nestedLists : Nat → Json
  | 0 => .tagged "int" (.ofInt (-7))
  | n + 1 => .tagged "array" (.array [nestedLists n])

/-- A form as another writer may have put it: records given by position, components left out, an
unknown name, characters to be escaped, and a constant nested as deep as an argument has room
for. -/
def foreignForm : Json :=
  .object [
    ("version", .ofNat 3),
    ("types", .array [
      .tagged "definition" (.array [.string "App", .string "Tab\t\"le\x01"]),
      .tagged "reference" (.array [.string "System.Int32"])]),
    ("methods", .array [
      .tagged "definition" (.object [
        ("return_type", .ofNat 1), ("name", .string "get_Rows"), ("declaring_type", .ofNat 0),
        ("body", .object [("instructions", .array [
          .array [.string "ldloc", .tagged "local" (.ofNat 0)],
          .array [.tagged "ret" .null]])])])]),
    ("properties", .array [
      .array [.ofNat 0, .string "Rows", .ofNat 1, .array [], .ofNat 0]]),
    ("attributes", .array [
      .array [.ofNat 0, .array [.array [.ofNat 1, nestedLists 60]]]]),
    ("program_attributes", .array [.ofNat 0])]

set_option maxRecDepth 4000 in
theorem document_restores_foreignForm :
    ∃ p, parse? foreignForm.compact = some p ∧ p.FloatFree ∧ parse? p.document = some p ∧
      p.findType? "App.Tab\t\"le\x01" = some ⟨0⟩ ∧ p.attributes.size = 1 ∧
      (p.methodDefinition? ⟨0⟩).map (·.semantics) = some .getter := by
  have tested : (parse? foreignForm.compact).any fun p =>
      p.FloatFree && p.findType? "App.Tab\t\"le\x01" = some ⟨0⟩ && p.attributes.size = 1 &&
      (p.methodDefinition? ⟨0⟩).map (·.semantics) = some .getter := by
    simp only [parse?, Json.parse?, Json.compact, String.toList_ofList]
    decide +kernel
  obtain ⟨p, parsed, passed⟩ := (Option.any_eq_true _ _).1 tested
  simp only [Bool.and_eq_true, decide_eq_true_eq] at passed
  obtain ⟨⟨⟨floatFree, found⟩, sized⟩, tagged⟩ := passed
  exact ⟨p, parsed, floatFree, document_restores parsed floatFree, found, sized, tagged⟩

end Program

end Liveset
