import Liveset.Program.Index
import Liveset.Metadata.MemberForm
import Liveset.Metadata.AttributeForm
import Liveset.Json.Reader
import Liveset.Json.Printer

/-!
# Program documents

A program is stored as one JSON record of its eight arenas, its own attributes and its entry points.
The derived data are not stored: reading a document rebuilds them.
-/

set_option autoImplicit false

namespace Liveset.Program

/-- The component names of the written form. -/
def names : List String :=
  ["types", "methods", "fields", "properties", "events", "parameters", "generic_parameters",
    "attributes", "program_attributes", "entry_points"]

/-- The written form. -/
def form (p : Program) : Json :=
  .object (names.zip [toJson p.types, toJson p.methods, toJson p.fields, toJson p.properties,
    toJson p.events, toJson p.parameters, toJson p.genericParameters, toJson p.attributes,
    toJson p.programAttributes, toJson p.entryPoints])

/-- Read the arenas and lists of a program, with an empty index. -/
def ofForm? (value : Json) : Option Program := do
  let [types, methods, fields, properties, events, parameters, genericParameters, attributes,
      programAttributes, entryPoints] ← value.components? names | none
  return {
    types := ← Json.orElse #[] types
    methods := ← Json.orElse #[] methods
    fields := ← Json.orElse #[] fields
    properties := ← Json.orElse #[] properties
    events := ← Json.orElse #[] events
    parameters := ← Json.orElse #[] parameters
    genericParameters := ← Json.orElse #[] genericParameters
    attributes := ← Json.orElse #[] attributes
    programAttributes := ← Json.orElse [] programAttributes
    entryPoints := ← Json.orElse [] entryPoints }

/-- Read a program from a document and rebuild its derived data. -/
def parse? (text : String) : Option Program := do
  return (← ofForm? (← Json.parse? text)).rebuild

/-- Write a program as a document. -/
def document (p : Program) : String := p.form.pretty

end Liveset.Program
