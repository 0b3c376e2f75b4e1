import Liveset.Json.Reader
import Liveset.Proofs.Json.Scanning

/-!
# Reading what was written

The reader builds a plain value from its tokens and hands it to whatever encloses it
(`Plain.takes`). Together with the scanner this makes reading undo writing on plain values:
`Plain.parse?_pretty`.
-/

set_option autoImplicit false

namespace Liveset.Json

namespace Reader

theorem step_firstItem {token : Token} (ne : token ≠ .closeArray) (stack : List Frame) :
    step ⟨.firstItem, stack⟩ token = step ⟨.value, stack⟩ token := by
  cases token with
  | closeArray => exact absurd rfl ne
  | _ =>
    rcases stack with _ | ⟨_ | _ | _ | _, outer⟩ <;> rfl

/-- A value where the first item of an array may stand is read as any value: no value begins with
the bracket that closes an array. -/
theorem run_firstItem (v : Json) (stack : List Frame) (rest : List Token) :
    run ⟨.firstItem, stack⟩ (tokens v ++ rest) = run ⟨.value, stack⟩ (tokens v ++ rest) := by
  have first : ∃ token others, tokens v = token :: others ∧ token ≠ .closeArray := by
    unfold tokens
    split <;> exact ⟨_, _, rfl, by simp⟩
  obtain ⟨token, others, written, ne⟩ := first
  rw [written, List.cons_append, run, run, step_firstItem ne]

/-- The reader takes the tokens for the value: it goes on as if it had been handed the value. -/
def Takes (found : List Token) (v : Json) : Prop :=
  ∀ stack rest, run ⟨.value, stack⟩ (found ++ rest) = (give v stack).bind fun next => next.run rest

theorem run_itemTokens {items : List Json} (takes : ∀ item ∈ items, Takes (tokens item) item)
    (done : List Json) (outer : List Frame) (rest : List Token) :
    run ⟨.next, .items done :: outer⟩ (itemTokens items ++ rest) =
      run ⟨.next, .items (items.reverse ++ done) :: outer⟩ rest := by
  induction items generalizing done with
  | nil => rfl
  | cons item items ih =>
    rw [List.forall_mem_cons] at takes
    calc run ⟨.next, .items done :: outer⟩ (itemTokens (item :: items) ++ rest)
        = run ⟨.value, .items done :: outer⟩ (tokens item ++ (itemTokens items ++ rest)) := by
          rw [itemTokens, List.cons_append, List.append_assoc]
          rfl
      _ = run ⟨.next, .items (item :: done) :: outer⟩ (itemTokens items ++ rest) := takes.1 _ _
      _ = run ⟨.next, .items ((item :: items).reverse ++ done) :: outer⟩ rest := by
          rw [ih takes.2, List.reverse_cons, List.append_assoc]
          rfl

theorem run_fieldTokens {fields : List (String × Json)}
    (takes : ∀ field ∈ fields, Takes (tokens field.2) field.2) (done : List (String × Json))
    (outer : List Frame) (rest : List Token) :
    run ⟨.next, .fields done :: outer⟩ (fieldTokens fields ++ rest) =
      run ⟨.next, .fields (fields.reverse ++ done) :: outer⟩ rest := by
  induction fields generalizing done with
  | nil => rfl
  | cons field fields ih =>
    obtain ⟨name, value⟩ := field
    rw [List.forall_mem_cons] at takes
    calc run ⟨.next, .fields done :: outer⟩ (fieldTokens ((name, value) :: fields) ++ rest)
        = run ⟨.value, .named done name :: outer⟩
            (tokens value ++ (fieldTokens fields ++ rest)) := by
          simp only [fieldTokens, List.cons_append, List.append_assoc]
          rfl
      _ = run ⟨.next, .fields ((name, value) :: done) :: outer⟩ (fieldTokens fields ++ rest) :=
          takes.1 _ _
      _ = run ⟨.next, .fields (((name, value) :: fields).reverse ++ done) :: outer⟩ rest := by
          rw [ih takes.2, List.reverse_cons, List.append_assoc]
          rfl

/-- Closing an array or object hands it on. -/
theorem run_closeArray (done : List Json) (outer : List Frame) (rest : List Token) :
    run ⟨.next, .items done :: outer⟩ (.closeArray :: rest) =
      (give (.array done.reverse) outer).bind fun next => next.run rest := by
  rw [run]
  cases h : give (.array done.reverse) outer <;> simp [step, h]

theorem run_closeObject (done : List (String × Json)) (outer : List Frame) (rest : List Token) :
    run ⟨.next, .fields done :: outer⟩ (.closeObject :: rest) =
      (give (.object done.reverse) outer).bind fun next => next.run rest := by
  rw [run]
  cases h : give (.object done.reverse) outer <;> simp [step, h]

theorem takes_array {items : List Json} (takes : ∀ item ∈ items, Takes (tokens item) item) :
    Takes (tokens (.array items)) (.array items) := by
  intro stack rest
  cases items with
  | nil =>
    rw [tokens]
    exact run_closeArray [] stack rest
  | cons item items =>
    rw [List.forall_mem_cons] at takes
    calc run ⟨.value, stack⟩ (tokens (.array (item :: items)) ++ rest)
        = run ⟨.firstItem, .items [] :: stack⟩
            (tokens item ++ (itemTokens items ++ .closeArray :: rest)) := by
          simp only [tokens, List.cons_append, List.append_assoc, List.nil_append]
          rfl
      _ = run ⟨.next, .items [item] :: stack⟩ (itemTokens items ++ .closeArray :: rest) := by
          rw [run_firstItem]
          exact takes.1 _ _
      _ = (give (.array (items.reverse ++ [item]).reverse) stack).bind fun next =>
          next.run rest := by
          rw [run_itemTokens takes.2, run_closeArray]
      _ = (give (.array (item :: items)) stack).bind fun next => next.run rest := by simp

theorem takes_object {fields : List (String × Json)}
    (takes : ∀ field ∈ fields, Takes (tokens field.2) field.2) :
    Takes (tokens (.object fields)) (.object fields) := by
  intro stack rest
  cases fields with
  | nil =>
    rw [tokens]
    exact run_closeObject [] stack rest
  | cons field fields =>
    obtain ⟨name, value⟩ := field
    rw [List.forall_mem_cons] at takes
    calc run ⟨.value, stack⟩ (tokens (.object ((name, value) :: fields)) ++ rest)
        = run ⟨.value, .named [] name :: stack⟩
            (tokens value ++ (fieldTokens fields ++ .closeObject :: rest)) := by
          simp only [tokens, List.cons_append, List.append_assoc, List.nil_append]
          rfl
      _ = run ⟨.next, .fields [(name, value)] :: stack⟩
          (fieldTokens fields ++ .closeObject :: rest) :=
          takes.1 _ _
      _ = (give (.object (fields.reverse ++ [(name, value)]).reverse) stack).bind
            fun next => next.run rest := by
          rw [run_fieldTokens takes.2, run_closeObject]
      _ = (give (.object ((name, value) :: fields)) stack).bind fun next => next.run rest := by simp

theorem takes_token {token : Token} {v : Json}
    (begins : ∀ stack, beginValue stack token = give v stack) :
    Takes [token] v := by
  intro stack rest
  have step : step ⟨.value, stack⟩ token = give v stack := begins stack
  rw [List.singleton_append, run, step]
  cases give v stack <;> rfl

end Reader

/-- The tokens of a plain value are read as that value. -/
theorem Plain.takes {v : Json} (plain : v.Plain) : Reader.Takes (tokens v) v := by
  induction plain with
  | array _ ih => exact Reader.takes_array ih
  | object _ ih => exact Reader.takes_object ih
  | null | bool b | string s | integer z =>
    simp only [ofInt, tokens]
    exact Reader.takes_token fun _ => rfl

/-- A plain value is read back from its text. -/
theorem Plain.parse?_pretty {v : Json} (plain : v.Plain) : parse? v.pretty = some v := by
  have read := plain.takes [] []
  rw [List.append_nil] at read
  rw [parse?, pretty, String.toList_ofList, plain.scan?_chars Layout.airy_pretty]
  show (Reader.run ⟨.value, []⟩ (tokens v)).bind Reader.finish = some v
  rw [read]
  rfl

end Liveset.Json
