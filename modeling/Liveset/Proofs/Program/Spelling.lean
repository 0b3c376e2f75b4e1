import Liveset.Proofs.Program.Registration
import Mathlib.Data.List.Basic
import Mathlib.Logic.Equiv.Basic

/-!
# How names are composed

The name of a type is a text, but it is composed of pieces: texts that stand in the program, the
names of generic parameters, and marks of punctuation between them. A `Spelling` is such a
composition, and naming a type is composing it and then spelling the composition with the names that
the parameters have (`Program.nameWithin_eq_string`). A parameter that is bound does not occur in
the composition; what it is bound to stands in its place.

Texts are cut into words at the marks. A `Renaming` is a one-to-one map of words, and it carries
over to texts word by word without confusing two of them (`Renaming.text_injective`). So if it takes
every piece of two compositions from its old spelling to its new one, then the two are spelled alike
before exactly if they are afterwards (`Consistent.map_string_eq_iff`).
-/

set_option autoImplicit false

namespace Liveset

/-! ## Words and marks -/

/-- The punctuation of type names. -/
def isMark (c : Char) : Bool := c ∈ ['<', '>', ',', '[', ']', '&', '*', '(', ')', ' ', '/']

/-- A text without punctuation. -/
def IsWord (cs : List Char) : Prop := ∀ c ∈ cs, isMark c = false

-- Named, since the search may settle on the decision over every character there is.
instance (cs : List Char) : Decidable (IsWord cs) := List.decidableBAll (isMark · = false) cs

/-- A text cut at its marks: the first word, and each mark with the word behind it. -/
structure Phrase where
  first : List Char
  rest : List (Char × List Char)
deriving DecidableEq

namespace Phrase

/-- Cut a text at its marks. -/
def ofChars : List Char → Phrase
  | [] => ⟨[], []⟩
  | c :: cs =>
    let tail := ofChars cs
    if isMark c then ⟨[], (c, tail.first) :: tail.rest⟩ else ⟨c :: tail.first, tail.rest⟩

/-- The text of a phrase. -/
def chars (phrase : Phrase) : List Char :=
  phrase.first ++ phrase.rest.flatMap fun part => part.1 :: part.2

/-- Replace each word. -/
def map (f : List Char → List Char) (phrase : Phrase) : Phrase :=
  ⟨f phrase.first, phrase.rest.map fun part => (part.1, f part.2)⟩

/-- The words have no mark in them, and the marks are marks. -/
structure Proper (phrase : Phrase) : Prop where
  first : IsWord phrase.first
  mark : ∀ part ∈ phrase.rest, isMark part.1
  word : ∀ part ∈ phrase.rest, IsWord part.2

theorem chars_ofChars (cs : List Char) : (ofChars cs).chars = cs := by
  induction cs with
  | nil => rfl
  | cons c cs ih =>
    simp only [ofChars]
    split
    · exact congrArg (c :: ·) ih
    · exact congrArg (c :: ·) ih

theorem proper_ofChars (cs : List Char) : (ofChars cs).Proper := by
  induction cs with
  | nil => exact ⟨nofun, nofun, nofun⟩
  | cons c cs ih =>
    simp only [ofChars]
    split
    case isTrue mark =>
      refine ⟨nofun, ?_, ?_⟩
      · exact List.forall_mem_cons.2 ⟨mark, ih.mark⟩
      · exact List.forall_mem_cons.2 ⟨ih.first, ih.word⟩
    case isFalse letter =>
      exact ⟨List.forall_mem_cons.2 ⟨by simpa using letter, ih.first⟩, ih.mark, ih.word⟩

/-- A word is cut off at the first mark behind it. -/
theorem ofChars_word_append {word : List Char} (isWord : IsWord word) (cs : List Char) :
    ofChars (word ++ cs) = ⟨word ++ (ofChars cs).first, (ofChars cs).rest⟩ := by
  induction word with
  | nil => rfl
  | cons c word ih =>
    obtain ⟨letter, isWord⟩ := List.forall_mem_cons.1 isWord
    rw [List.cons_append, ofChars, ih isWord]
    simp [letter]

theorem ofChars_chars {phrase : Phrase} (proper : phrase.Proper) :
    ofChars phrase.chars = phrase := by
  obtain ⟨first, rest⟩ := phrase
  induction rest generalizing first with
  | nil =>
    rw [chars, ofChars_word_append proper.first]
    simp [ofChars]
  | cons part rest ih =>
    obtain ⟨mark, word⟩ := part
    obtain ⟨isMark, marks⟩ := List.forall_mem_cons.1 proper.mark
    obtain ⟨isWord, words⟩ := List.forall_mem_cons.1 proper.word
    have tail : ofChars (word ++ rest.flatMap fun part => part.1 :: part.2) = ⟨word, rest⟩ :=
      ih word ⟨isWord, marks, words⟩
    rw [chars, ofChars_word_append proper.first, List.flatMap_cons, List.cons_append, ofChars, tail]
    simp [isMark]

/-- A mark cuts a text in two. -/
theorem ofChars_append_mark (cs : List Char) {mark : Char} (isMark : isMark mark) (ds : List Char) :
    ofChars (cs ++ mark :: ds) = ⟨(ofChars cs).first,
      (ofChars cs).rest ++ (mark, (ofChars ds).first) :: (ofChars ds).rest⟩ := by
  induction cs with
  | nil => simp [ofChars, isMark]
  | cons c cs ih =>
    rw [List.cons_append, ofChars, ofChars, ih]
    split <;> rfl

end Phrase

/-! ## Renaming words -/

/-- A one-to-one map of words. -/
structure Renaming where
  word : List Char → List Char
  isWord : ∀ {w}, IsWord w → IsWord (word w)
  injective : ∀ {v w}, IsWord v → IsWord w → word v = word w → v = w

namespace Renaming

/-- Rename each word of a text. -/
def text (f : Renaming) (cs : List Char) : List Char := ((Phrase.ofChars cs).map f.word).chars

theorem text_append_mark (f : Renaming) (cs : List Char) {mark : Char} (isMark : isMark mark)
    (ds : List Char) : f.text (cs ++ mark :: ds) = f.text cs ++ mark :: f.text ds := by
  simp [text, Phrase.ofChars_append_mark cs isMark ds, Phrase.map, Phrase.chars]

theorem proper_map (f : Renaming) {phrase : Phrase} (proper : phrase.Proper) :
    (phrase.map f.word).Proper where
  first := f.isWord proper.first
  mark := List.forall_mem_map.2 proper.mark
  word := List.forall_mem_map.2 fun part member => f.isWord (proper.word part member)

theorem parts_injective (f : Renaming) {parts parts' : List (Char × List Char)}
    (words : ∀ part ∈ parts, IsWord part.2) (words' : ∀ part ∈ parts', IsWord part.2)
    (same : parts.map (fun part => (part.1, f.word part.2)) =
      parts'.map fun part => (part.1, f.word part.2)) : parts = parts' := by
  induction parts generalizing parts' with
  | nil => simpa using same.symm
  | cons part parts ih =>
    cases parts' with
    | nil => cases same
    | cons part' parts' =>
      rw [List.forall_mem_cons] at words words'
      obtain ⟨heads, tails⟩ := List.cons.inj same
      obtain ⟨marks, renamed⟩ := Prod.mk.inj heads
      rw [Prod.ext marks (f.injective words.1 words'.1 renamed), ih words.2 words'.2 tails]

theorem map_injective (f : Renaming) {a b : Phrase} (ofA : a.Proper) (ofB : b.Proper)
    (same : a.map f.word = b.map f.word) : a = b := by
  obtain ⟨firsts, rests⟩ := Phrase.mk.inj same
  have first : a.first = b.first := f.injective ofA.first ofB.first firsts
  have rest : a.rest = b.rest := f.parts_injective ofA.word ofB.word rests
  cases a
  cases b
  simp_all

/-- Renaming does not confuse two texts. -/
theorem text_injective (f : Renaming) : Function.Injective f.text := by
  intro cs ds same
  have phrases := congrArg Phrase.ofChars same
  rw [text, text, Phrase.ofChars_chars (f.proper_map (Phrase.proper_ofChars cs)),
    Phrase.ofChars_chars (f.proper_map (Phrase.proper_ofChars ds))] at phrases
  rw [← Phrase.chars_ofChars cs, ← Phrase.chars_ofChars ds,
    f.map_injective (Phrase.proper_ofChars cs) (Phrase.proper_ofChars ds) phrases]

/-- The renaming that changes nothing. -/
def keep : Renaming where
  word w := w
  isWord isWord := isWord
  injective _ _ same := same

/-- The renaming that exchanges two words. -/
def swap (a b : List Char) (ofA : IsWord a) (ofB : IsWord b) : Renaming where
  word := Equiv.swap a b
  isWord {w} isWord := by
    rw [Equiv.swap_apply_def]
    split
    · exact ofB
    · split
      · exact ofA
      · exact isWord
  injective _ _ same := (Equiv.swap a b).injective same

end Renaming

/-! ## Compositions -/

/-- How a name is composed. -/
inductive Spelling where
  | text (written : String)
  | parameter (id : GenericParameterId)
  /-- Two compositions with a mark between them. -/
  | join (left : Spelling) (mark : { c : Char // isMark c }) (right : Spelling)
deriving DecidableEq

namespace Spelling

/-- The characters of a composition, with the given names of generic parameters. -/
def chars (names : GenericParameterId → String) : Spelling → List Char
  | .text written => written.toList
  | .parameter id => (names id).toList
  | .join left mark right => left.chars names ++ mark.1 :: right.chars names

/-- The text of a composition. -/
def string (names : GenericParameterId → String) (spelling : Spelling) : String :=
  String.ofList (spelling.chars names)

/-- A renaming takes each piece of the composition from its old spelling to its new one. -/
def Carried (f : Renaming) (old new : GenericParameterId → String) : Spelling → Prop
  | .text written => f.text written.toList = written.toList
  | .parameter id => f.text (old id).toList = (new id).toList
  | .join left _ right => left.Carried f old new ∧ right.Carried f old new

instance decidableCarried (f : Renaming) (old new : GenericParameterId → String) :
    (spelling : Spelling) → Decidable (spelling.Carried f old new)
  | .text written => inferInstanceAs (Decidable (f.text written.toList = written.toList))
  | .parameter id => inferInstanceAs (Decidable (f.text (old id).toList = (new id).toList))
  | .join left _ right =>
    haveI := decidableCarried f old new left
    haveI := decidableCarried f old new right
    inferInstanceAs (Decidable (left.Carried f old new ∧ right.Carried f old new))

/-- Then it takes the whole from its old spelling to its new one. -/
theorem Carried.chars {f : Renaming} {old new : GenericParameterId → String} {spelling : Spelling}
    (carried : spelling.Carried f old new) : f.text (spelling.chars old) = spelling.chars new := by
  induction spelling with
  | text written => exact carried
  | parameter id => exact carried
  | join left mark right ihLeft ihRight =>
    rw [Spelling.chars, f.text_append_mark _ mark.2, ihLeft carried.1, ihRight carried.2]
    rfl

/-- Compositions with commas between them. -/
def commas : List Spelling → Spelling
  | [] => .text ""
  | [item] => item
  | item :: next :: rest => .join item ⟨',', by decide⟩ (commas (next :: rest))

theorem chars_commas (names : GenericParameterId → String) (items : List Spelling) :
    (commas items).chars names = [','].intercalate (items.map (chars names)) := by
  induction items with
  | nil => simp [commas, chars]
  | cons item items ih =>
    cases items with
    | nil => simp [commas]
    | cons next rest =>
      simp [commas, chars, ih, List.intercalate_cons_cons]

/-- A composition with a mark behind it. -/
def closed (spelling : Spelling) (mark : { c : Char // isMark c }) : Spelling :=
  .join spelling mark (.text "")

end Spelling

open Spelling in
/-- How the name of a derived type is composed of those of its parts. -/
def TypeSpecification.composition (part : TypeId → Spelling) : TypeSpecification → Spelling
  | .genericInstance element arguments =>
    .join (part element) ⟨'<', by decide⟩ ((commas (arguments.map part)).closed ⟨'>', by decide⟩)
  | .array element rank =>
    .join (part element) ⟨'[', by decide⟩
      (closed (.text (String.ofList (List.replicate (rank - 1) ','))) ⟨']', by decide⟩)
  | .byReference element => (part element).closed ⟨'&', by decide⟩
  | .pointer element => (part element).closed ⟨'*', by decide⟩
  | .functionPointer returnType parameters =>
    .join (.text "method") ⟨' ', by decide⟩ (.join (part returnType) ⟨' ', by decide⟩
      (.join (.text "*") ⟨'(', by decide⟩ ((commas (parameters.map part)).closed ⟨')', by decide⟩)))
  | .requiredModifier element modifier =>
    .join (part element) ⟨' ', by decide⟩
      (.join (.text "modreq") ⟨'(', by decide⟩ ((part modifier).closed ⟨')', by decide⟩))
  | .optionalModifier element modifier =>
    .join (part element) ⟨' ', by decide⟩
      (.join (.text "modopt") ⟨'(', by decide⟩ ((part modifier).closed ⟨')', by decide⟩))

theorem TypeSpecification.string_composition (names : GenericParameterId → String)
    (part : TypeId → Spelling) (s : TypeSpecification) :
    (s.composition part).string names =
      Program.specificationName (fun t => (part t).string names) s := by
  have listed : (String.toList ∘ fun t => String.ofList ((part t).chars names)) =
      Spelling.chars names ∘ part := by
    funext t
    exact String.toList_ofList
  refine String.toList_inj.1 ?_
  rw [Spelling.string, String.toList_ofList]
  cases s <;>
    simp [composition, Program.specificationName, Spelling.chars, Spelling.closed,
      Spelling.chars_commas, String.toList_intercalate, listed, Spelling.string]

/-- How the name of a node is composed of those of its parts. -/
def TypeNode.composition (part : TypeId → Spelling) (generic : GenericParameterId → Spelling) :
    TypeNode → Spelling
  | .definition d =>
    match d.declaringType with
    | some outer => .join (part outer) ⟨'/', by decide⟩ (.text d.name)
    | none => .text (Program.definitionName none d)
  | .reference fullName => .text fullName
  | .genericParameter g => generic g
  | .specification t => t.composition part

theorem Spelling.string_text (names : GenericParameterId → String) (written : String) :
    (Spelling.text written).string names = written := String.ofList_toList

theorem TypeNode.string_composition (names : GenericParameterId → String) (part : TypeId → Spelling)
    (generic : GenericParameterId → Spelling) (node : TypeNode) :
    (node.composition part generic).string names =
      node.spell (fun t => (part t).string names) fun g => (generic g).string names := by
  cases node with
  | definition d =>
    cases outer : d.declaringType with
    | none => simp [composition, spell, outer, Spelling.string_text]
    | some outer =>
      refine String.toList_inj.1 ?_
      simp [composition, spell, outer, Program.definitionName, Spelling.string, Spelling.chars]
  | specification t => exact t.string_composition names part
  | genericParameter g => rfl
  | reference fullName => exact Spelling.string_text names fullName

/-- Generic parameters with the compositions bound to them. Of two bindings of one parameter the
first counts. -/
abbrev Composed := List (GenericParameterId × Spelling)

namespace Program

/-- The names of the generic parameters of a program. -/
def parameterName (p : Program) (g : GenericParameterId) : String :=
  ((p.genericParameter? g).map (·.name)).getD ""

/-- The composition that stands for a generic parameter: what is bound to it, or the parameter. -/
def boundTo (bound : Composed) (g : GenericParameterId) : Spelling :=
  (bound.lookup g).getD (.parameter g)

/-- How the name of a type node is composed, spelling out at most `depth` nested nodes. -/
def compositionWithin (p : Program) (bound : Composed) : Nat → TypeId → Spelling
  | 0, _ => .text "?"
  | depth + 1, id =>
    ((p.type? id).map (TypeNode.composition (p.compositionWithin bound depth) (boundTo bound))).getD
      (.text "")

/-- How the name of a type node is composed. -/
def composition (p : Program) (bound : Composed) (id : TypeId) : Spelling :=
  p.compositionWithin bound nameDepth id

/-- The texts of the compositions that are bound. -/
def spelled (p : Program) (bound : Composed) : Substitution :=
  ⟨bound.map fun binding => (binding.1, binding.2.string p.parameterName)⟩

theorem text?_spelled (p : Program) (bound : Composed) (g : GenericParameterId) :
    (p.spelled bound).text? g = (bound.lookup g).map (Spelling.string p.parameterName) := by
  rw [Substitution.text?, spelled]
  induction bound with
  | nil => rfl
  | cons binding bound ih =>
    obtain ⟨parameter, spelling⟩ := binding
    simp only [List.map_cons, List.lookup_cons] at ih ⊢
    rw [ih]
    cases g == parameter <;> rfl

theorem genericName_spelled (p : Program) (bound : Composed) (g : GenericParameterId) :
    p.genericName (p.spelled bound) g = (boundTo bound g).string p.parameterName := by
  rw [genericName, text?_spelled, boundTo]
  cases bound.lookup g with
  | none => simp [Spelling.string, Spelling.chars, parameterName]
  | some spelling => rfl

/-- The name of a type is the text of its composition. -/
theorem nameWithin_eq_string (p : Program) (bound : Composed) (depth : Nat) (id : TypeId) :
    p.nameWithin (p.spelled bound) depth id =
      (p.compositionWithin bound depth id).string p.parameterName := by
  induction depth generalizing id with
  | zero => exact (Spelling.string_text _ "?").symm
  | succ depth ih =>
    rw [nameWithin_succ, compositionWithin, funext ih, funext (p.genericName_spelled bound)]
    cases p.type? id with
    | none => exact (Spelling.string_text _ "").symm
    | some node => exact (node.string_composition _ _ _).symm

theorem nameWith_eq_string (p : Program) (bound : Composed) (id : TypeId) :
    p.nameWith (p.spelled bound) id = (p.composition bound id).string p.parameterName :=
  p.nameWithin_eq_string bound nameDepth id

/-- Compositions depend on the type nodes alone. -/
theorem composition_congr {p q : Program} (types : p.types = q.types) :
    p.composition = q.composition := by
  have within : ∀ bound depth id,
      p.compositionWithin bound depth id = q.compositionWithin bound depth id := by
    intro bound depth
    induction depth with
    | zero => exact fun _ => rfl
    | succ depth ih =>
      intro id
      have same : p.compositionWithin bound depth = q.compositionWithin bound depth := funext ih
      rw [compositionWithin, compositionWithin, same, type?, types]
      rfl
  funext bound id
  exact within bound nameDepth id

end Program

/-- The old and the new names of generic parameters differ by a renaming of words that keeps the
texts in these compositions. -/
def Consistent (old new : GenericParameterId → String) (spellings : List Spelling) : Prop :=
  ∃ f : Renaming, ∀ spelling ∈ spellings, spelling.Carried f old new

/-- Under a consistent renaming, lists of compositions are spelled alike before if and only if they
are spelled alike afterwards. -/
theorem Consistent.map_string_eq_iff {old new : GenericParameterId → String}
    {spellings : List Spelling} (consistent : Consistent old new spellings) {a b : List Spelling}
    (ofA : ∀ s ∈ a, s ∈ spellings) (ofB : ∀ s ∈ b, s ∈ spellings) :
    a.map (Spelling.string old) = b.map (Spelling.string old) ↔
      a.map (Spelling.string new) = b.map (Spelling.string new) := by
  obtain ⟨f, carried⟩ := consistent
  have renamed : ∀ items : List Spelling, (∀ s ∈ items, s ∈ spellings) →
      items.map (Spelling.string new) =
        (items.map (Spelling.string old)).map fun s => String.ofList (f.text s.toList) := by
    intro items inside
    rw [List.map_map]
    refine List.map_congr_left fun s member => ?_
    rw [Function.comp, Spelling.string, Spelling.string, String.toList_ofList,
      (carried s (inside s member)).chars]
  have injective : Function.Injective fun s : String => String.ofList (f.text s.toList) := by
    intro s t same
    exact String.toList_inj.1 (f.text_injective (String.ofList_injective same))
  rw [renamed a ofA, renamed b ofB, (List.map_injective_iff.2 injective).eq_iff]

theorem Consistent.string_eq_iff {old new : GenericParameterId → String} {spellings : List Spelling}
    (consistent : Consistent old new spellings) {s t : Spelling} (ofS : s ∈ spellings)
    (ofT : t ∈ spellings) : s.string old = t.string old ↔ s.string new = t.string new := by
  have lists := consistent.map_string_eq_iff (List.forall_mem_singleton.2 ofS)
    (List.forall_mem_singleton.2 ofT)
  simpa using lists

end Liveset
