import Liveset.Toml.Reader

/-!
# Tables made of sections

Each section of a TOML text fills the table that its header names, and makes the tables on the way
there. A table may be filled once. Headers in doubled brackets make a series of tables: each of them
starts a further table, and every header below goes on in the latest one. A name that already stands
for a single table cannot become a series.

What this module delivers: `Table`, `Table.insert?`, `Table.ofSections?` and `Entry`, what a name
stands for in a table.
-/

set_option autoImplicit false

namespace Liveset.Toml

mutual

/-- A table: whether a section has filled it, the pairs of that section, and the tables below it. -/
inductive Table where
  | node (filled : Bool) (pairs : List (String × Value)) (parts : List (String × Part))

/-- What headers have made of a name: a single table, or a series of them. -/
inductive Part where
  | single (table : Table)
  /-- The tables before the latest one stand newest first. -/
  | series (earlier : List Table) (latest : Table)

end

namespace Table

/-- A table that no section has filled. -/
def bare : Table := .node false [] []

instance : Inhabited Table := ⟨bare⟩

/-- The pairs of a table. -/
def pairs : Table → Pairs
  | .node _ pairs _ => pairs

/-- The tables below a table. -/
def parts : Table → List (String × Part)
  | .node _ _ parts => parts

/-- Set what headers have made of a name. -/
def setPart (parts : List (String × Part)) (name : String) (part : Part) : List (String × Part) :=
  match parts with
  | [] => [(name, part)]
  | old :: rest => if old.1 = name then (name, part) :: rest else old :: setPart rest name part

/-- Fill the table that the rest of a header names. -/
def insert? (s : Section) : List String → Table → Option Table
  | [], .node filled _ parts => if filled then none else some (.node true s.pairs parts)
  | name :: rest, .node filled pairs parts =>
    let starts : Bool := s.isSeries && rest.isEmpty
    let part := match parts.lookup name with
      | none => (insert? s rest bare).map fun t => if starts then Part.series [] t else .single t
      | some (.single t) => if starts then none else (insert? s rest t).map .single
      | some (.series earlier latest) =>
        if starts then (insert? s rest bare).map (.series (latest :: earlier))
        else (insert? s rest latest).map (.series earlier)
    part.map fun part => .node filled pairs (setPart parts name part)

/-- The table of a whole text. -/
def ofSections? (sections : List Section) : Option Table :=
  sections.foldlM (fun table s => table.insert? s s.header) bare

end Table

/-! ## What a name stands for -/

/-- What a name stands for: a value that a key was given, or what headers have made of it. -/
inductive Entry where
  | value (value : Value)
  | part (part : Part)

/-- The only one of the entries, if there is any; two of them are refused. -/
def Entry.atMostOne? : List Entry → Option (Option Entry)
  | [] => some none
  | [entry] => some (some entry)
  | _ => none

/-- What a name stands for among pairs: `some none` if nothing, and `none` if it was given twice. -/
def Pairs.entry? (pairs : Pairs) (name : String) : Option (Option Entry) :=
  Entry.atMostOne? ((pairs.filter (·.1 = name)).map fun pair => .value pair.2)

/-- What a name stands for in a table: `some none` if nothing, and `none` if it was given twice. -/
def Table.entry? (table : Table) (name : String) : Option (Option Entry) :=
  Entry.atMostOne?
    ((table.pairs.filter (·.1 = name)).map (fun pair => Entry.value pair.2) ++
      (table.parts.filter (·.1 = name)).map fun part => Entry.part part.2)

namespace Entry

/-- The components of a record, one per name. They may be given by name, or as an array in the order
of the names; a date has no named components. -/
def components? (names : List String) : Entry → Option (List (Option Entry))
  | .part (.single table) => names.mapM table.entry?
  | .part (.series _ _) => none
  | .value (.inline pairs) => names.mapM (Pairs.entry? pairs)
  | .value (.dotted pairs) => names.mapM (Pairs.entry? pairs)
  | .value (.array items) =>
    if items.length ≤ names.length then
      some (items.map (fun item => some (.value item)) ++
        List.replicate (names.length - items.length) none)
    else none
  | .value .date => some (names.map fun _ => none)
  | .value _ => none

/-- A string. -/
def string? : Entry → Option String
  | .value (.string text) => some text
  | _ => none

/-- A truth value. -/
def bool? : Entry → Option Bool
  | .value (.bool b) => some b
  | _ => none

/-- The name of a choice: a string, or the only key of a table in braces, with nothing in it. -/
def choice? : Entry → Option String
  | .value (.string name) => some name
  | .value (.inline [(name, .inline [])]) => some name
  | _ => none

end Entry

end Liveset.Toml
