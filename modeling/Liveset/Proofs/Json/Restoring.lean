import Liveset.Json.Form
import Liveset.Proofs.Json.Scanning

/-!
# Forms that are read back

A value `Restores` if its written form is plain and reads as that value. A type has a `StableForm`
if every value that was ever read restores; so a record whose components have stable forms is
stable, and so is a variant whose payload is. Numbers show why the condition is on what was read: a
natural number is written whatever its size, but only one of 32 bits can be read.
-/

set_option autoImplicit false

namespace Liveset

variable {α β : Type} [JsonForm α] [JsonForm β]

/-- The written form of the value is plain and is read as the value. -/
structure Restores (x : α) : Prop where
  plain : (toJson x).Plain
  back : ofJson? (toJson x) = some x

/-- Every value that can be read is read back. -/
class StableForm (α : Type) [JsonForm α] : Prop where
  restores : ∀ {value : Json} {x : α}, ofJson? value = some x → Restores x

export StableForm (restores)

/-! ## Records -/

namespace Json

theorem component?_of_mem {fields : List (String × Json)} (distinct : (fields.map Prod.fst).Nodup)
    {name : String} {value : Json} (member : (name, value) ∈ fields) :
    component? fields name = some (some value) := by
  have found : fields.filter (fun field => field.1 = name) = [(name, value)] := by
    induction fields with
    | nil => cases member
    | cons first fields ih =>
      rw [List.map_cons, List.nodup_cons] at distinct
      rcases List.mem_cons.1 member with rfl | member
      · have others : fields.filter (fun field => field.1 = name) = [] := by
          simp only [List.filter_eq_nil_iff, decide_eq_true_eq]
          intro field later same
          exact distinct.1 (List.mem_map.2 ⟨field, later, same⟩)
        rw [List.filter_cons_of_pos (by simp), others]
      · have ne : first.1 ≠ name := fun same => distinct.1 (List.mem_map.2 ⟨_, member, same.symm⟩)
        rw [List.filter_cons_of_neg (by simpa using ne), ih distinct.2 member]
  rw [component?, found]

/-- A record with distinct names has a component for each. -/
theorem components?_object {fields : List (String × Json)}
    (distinct : (fields.map Prod.fst).Nodup) :
    components? (fields.map Prod.fst) (.object fields) = some ((fields.map Prod.snd).map some) := by
  have each : ∀ field ∈ fields, component? fields field.1 = some (some field.2) :=
    fun _ member => component?_of_mem distinct member
  -- the induction is over the names that are looked up, in the same fields throughout
  have lookup : ∀ wanted : List (String × Json), (∀ field ∈ wanted, field ∈ fields) →
      (wanted.map Prod.fst).mapM (component? fields) = some ((wanted.map Prod.snd).map some) := by
    intro wanted inside
    induction wanted with
    | nil => rfl
    | cons field wanted ih =>
      rw [List.forall_mem_cons] at inside
      rw [List.map_cons, List.mapM_cons, each field inside.1, ih inside.2]
      rfl
  exact lookup fields fun _ member => member

variable {component : Option Json}

theorem exists_of_required {x : α} (read : required component = some x) :
    ∃ value : Json, ofJson? value = some x := by
  cases component with
  | none => cases read
  | some value => exact ⟨value, read⟩

theorem eq_or_exists_of_orElse {x fallback : α} (read : orElse fallback component = some x) :
    x = fallback ∨ ∃ value : Json, ofJson? value = some x := by
  cases component with
  | none => exact .inl (Option.some.inj read).symm
  | some value => exact .inr ⟨value, read⟩

theorem exists_of_optional {x : α} (read : optional component = some (some x)) :
    ∃ value : Json, ofJson? value = some x := by
  unfold optional at read
  split at read
  · cases read
  · cases read
  case h_3 value _ =>
    obtain ⟨_, found, same⟩ := Option.map_eq_some_iff.1 read
    cases same
    exact ⟨value, found⟩

end Json

/-- The reader gave a value, and the rest holds of it. Taking a chain of readers apart with
`gave_iff` leaves one of these for each. -/
inductive Gave {γ : Type} (read : Option γ) (rest : γ → Prop) : Prop
  | intro (value : γ) (given : read = some value) (holds : rest value)

theorem gave_iff {γ ρ : Type} {read : Option γ} {next : γ → Option ρ} {x : ρ} :
    (read >>= next) = some x ↔ Gave read fun value => next value = some x := by
  rw [Option.bind_eq_bind, Option.bind_eq_some_iff]
  constructor
  · rintro ⟨value, given, rest⟩
    exact ⟨value, given, rest⟩
  · rintro ⟨value, given, rest⟩
    exact ⟨value, given, rest⟩

/-- The components in the list are plain, and reading them one after the other gives `x`. The
readers of a record are chained, and so are the cases here. -/
inductive Rereads {ρ : Type} (x : ρ) : List Json → Option ρ → Prop
  | done : Rereads x [] (some x)
  | step {γ : Type} {w : Json} {ws : List Json} {read : Option γ} {next : γ → Option ρ} {y : γ}
    (plain : w.Plain) (back : read = some y) (rest : Rereads x ws (next y)) :
    Rereads x (w :: ws) (read.bind next)

namespace Rereads

open Json

variable {ρ : Type} {x : ρ} {ws : List Json}

theorem plain {read : Option ρ} (h : Rereads x ws read) : ∀ w ∈ ws, w.Plain := by
  induction h with
  | done => exact fun _ member => nomatch member
  | step plain _ _ ih => exact List.forall_mem_cons.2 ⟨plain, ih⟩

theorem back {read : Option ρ} (h : Rereads x ws read) : read = some x := by
  induction h with
  | done => rfl
  | step _ back _ ih =>
    rw [back]
    exact ih

/-- A component that restores is read back where it is required, and where it has a fallback. -/
theorem of_restores {y : α} (restored : Restores y) {next : α → Option ρ}
    (rest : Rereads x ws (next y)) :
    Rereads x (toJson y :: ws) ((ofJson? (toJson y)).bind next) :=
  .step restored.plain restored.back rest

section

variable [StableForm α] {component : Option Json}

/-- A required component that was read is read back. -/
theorem required {y : α} (read : Json.required component = some y) {next : α → Option ρ}
    (rest : Rereads x ws (next y)) :
    Rereads x (toJson y :: ws) ((Json.required (some (toJson y))).bind next) := by
  obtain ⟨_, found⟩ := exists_of_required read
  exact of_restores (restores found) rest

/-- So is one with a fallback, if the fallback is. -/
theorem orElse {y fallback : α} (restored : Restores fallback)
    (read : Json.orElse fallback component = some y) {next : α → Option ρ}
    (rest : Rereads x ws (next y)) :
    Rereads x (toJson y :: ws) ((Json.orElse fallback (some (toJson y))).bind next) := by
  rcases eq_or_exists_of_orElse read with rfl | ⟨_, found⟩
  · exact of_restores restored rest
  · exact of_restores (restores found) rest

end

/-- A component that may be missing is read back: what is there is not written as `null`. -/
theorem of_option {y : Option α} (solid : ofJson? Json.null = (none : Option α))
    (each : ∀ z, y = some z → Restores z) {next : Option α → Option ρ}
    (rest : Rereads x ws (next y)) :
    Rereads x (ofOption y :: ws) ((Json.optional (some (ofOption y))).bind next) := by
  cases y with
  | none => exact .step .null rfl rest
  | some z =>
    have restored := each z rfl
    have ne : toJson z ≠ .null := by
      intro null
      have back := restored.back
      rw [null, solid] at back
      cases back
    have back : Json.optional (some (toJson z)) = some (some z) := by
      rw [Json.optional.eq_3 _ ne, restored.back]
      rfl
    exact .step restored.plain back rest

theorem optional [StableForm α] {component : Option Json} {y : Option α}
    (solid : ofJson? Json.null = (none : Option α)) (read : Json.optional component = some y)
    {next : Option α → Option ρ} (rest : Rereads x ws (next y)) :
    Rereads x (ofOption y :: ws) ((Json.optional (some (ofOption y))).bind next) := by
  refine of_option solid ?_ rest
  rintro z rfl
  obtain ⟨_, found⟩ := exists_of_optional read
  exact restores found

end Rereads

/-- A record is plain and is read back if its components are. -/
theorem Rereads.record {ρ : Type} {x : ρ} (reader : Json → Option ρ) (names : List String)
    {value : Json} {fields : List (String × Json)} {build : List (Option Json) → Option ρ}
    (written : value = .object fields) (named : fields.map Prod.fst = names)
    (distinct : names.Nodup)
    (read : ∀ value, reader value = (Json.components? names value).bind build)
    (h : Rereads x (fields.map Prod.snd) (build ((fields.map Prod.snd).map some))) :
    value.Plain ∧ reader value = some x := by
  subst written named
  constructor
  · exact .object fun _ member => h.plain _ (List.mem_map_of_mem member)
  · rw [read, Json.components?_object distinct]
    exact h.back

section

variable {x : α} (names : List String) {fields : List (String × Json)}
  {build : List (Option Json) → Option α}

/-- A value that is written as a record restores if its components are read back. -/
theorem Restores.of_record (written : toJson x = .object fields)
    (named : fields.map Prod.fst = names) (distinct : names.Nodup)
    (read : ∀ value : Json, ofJson? value = (Json.components? names value).bind build)
    (h : Rereads x (fields.map Prod.snd) (build ((fields.map Prod.snd).map some))) :
    Restores x := by
  obtain ⟨plain, back⟩ := h.record ofJson? names written named distinct read
  exact ⟨plain, back⟩

/-- So does one that is written as a variant with a record as payload. -/
theorem Restores.of_taggedRecord {name : String}
    (written : toJson x = Json.tagged name (.object fields)) (named : fields.map Prod.fst = names)
    (distinct : names.Nodup)
    (read : ∀ payload, ofJson? (Json.tagged name payload) =
      (Json.components? names payload).bind build)
    (h : Rereads x (fields.map Prod.snd) (build ((fields.map Prod.snd).map some))) :
    Restores x := by
  obtain ⟨plain, back⟩ :=
    h.record (fun payload => ofJson? (Json.tagged name payload)) names rfl named distinct read
  rw [← written] at back
  constructor
  · rw [written]
    exact .object (List.forall_mem_singleton.2 plain)
  · exact back

end

/-! ## Variants -/

/-- A variant restores if its payload does. -/
theorem Restores.tagged {make : α → β} {name : String} {x : α}
    (written : toJson (make x) = Json.tagged name (toJson x))
    (read : ofJson? (Json.tagged name (toJson x)) = (ofJson? (toJson x)).map make)
    (restored : Restores x) : Restores (make x) := by
  constructor
  · rw [written]
    exact .object (List.forall_mem_singleton.2 restored.plain)
  · rw [written, read, restored.back]
    rfl

/-- A form that is the form of another type. -/
theorem StableForm.of_map [StableForm α] (make : α → β) (written : ∀ x, toJson (make x) = toJson x)
    (read : ∀ value, ofJson? value = (ofJson? value).map make) : StableForm β where
  restores {value y} found := by
    rw [read value] at found
    obtain ⟨x, inner, rfl⟩ := Option.map_eq_some_iff.1 found
    have restored := restores inner
    constructor
    · rw [written]
      exact restored.plain
    · rw [written, read, restored.back]
      rfl

/-! ## Plain values -/

theorem restores_bool (b : Bool) : Restores b := ⟨.bool b, rfl⟩

theorem restores_string (s : String) : Restores s := ⟨.string s, rfl⟩

instance : StableForm Bool where
  restores _ := restores_bool _

instance : StableForm String where
  restores _ := restores_string _

namespace Json

theorem ofNat_eq_ofInt (n : Nat) : Json.ofNat n = .ofInt n := by
  simp [Json.ofNat, Json.ofInt, Number.ofNat, Number.ofInt]

theorem lt_of_word? {value : Json} {n : Nat} (read : word? value = some n) : n < wordBound := by
  cases value with
  | number number =>
    rw [word?, Number.natBelow?] at read
    split at read
    case isTrue fits =>
      simp only [Bool.and_eq_true, decide_eq_true_eq] at fits
      cases read
      exact fits.2
    case isFalse => cases read
  | _ => cases read

theorem word?_ofNat {n : Nat} (small : n < wordBound) : word? (ofNat n) = some n := by
  have magnitude : (Number.ofNat n).magnitude = n := Nat.ofDigitChars_ten_toDigits
  have fits : ((Number.ofNat n).isPlain && !(Number.ofNat n).negative &&
      (Number.ofNat n).magnitude < wordBound) = true := by
    rw [magnitude, decide_eq_true small]
    rfl
  rw [ofNat, word?, Number.natBelow?, if_pos fits, magnitude]

theorem bounds_of_int64? {number : Number} {z : Int} (read : number.int64? = some z) :
    -(Nat.pow 2 63 : Int) ≤ z ∧ z < Nat.pow 2 63 := by
  rw [Number.int64?] at read
  split at read
  · cases read
  · split at read
    · split at read
      case isTrue fits =>
        simp only [Bool.and_eq_true, decide_eq_true_eq] at fits
        cases read
        omega
      case isFalse => cases read
    · split at read
      · cases read
        omega
      · cases read

theorem int64?_ofInt {z : Int} (low : -(Nat.pow 2 63 : Int) ≤ z) (high : z < Nat.pow 2 63) :
    (Number.ofInt z).int64? = some z := by
  have magnitude : (Number.ofInt z).magnitude = z.natAbs := Nat.ofDigitChars_ten_toDigits
  have plain : (!(Number.ofInt z).isPlain) = false := rfl
  rw [Number.int64?, plain, magnitude]
  by_cases negative : z < 0
  · have sign : (Number.ofInt z).negative = true := decide_eq_true negative
    have fits : (decide (0 < z.natAbs) && decide (z.natAbs ≤ Nat.pow 2 63)) = true := by
      simp only [Bool.and_eq_true, decide_eq_true_eq]
      omega
    rw [sign, if_neg Bool.false_ne_true, if_pos rfl, if_pos fits]
    congr 1
    omega
  · have sign : (Number.ofInt z).negative = false := decide_eq_false negative
    have fits : z.natAbs < Nat.pow 2 63 := by omega
    rw [sign, if_neg Bool.false_ne_true, if_neg Bool.false_ne_true, if_pos fits]
    congr 1
    omega

end Json

theorem restores_nat {n : Nat} (small : n < Json.wordBound) : Restores n := by
  constructor
  · show (Json.ofNat n).Plain
    rw [Json.ofNat_eq_ofInt]
    exact .integer n
  · exact Json.word?_ofNat small

instance : StableForm Nat where
  restores read := restores_nat (Json.lt_of_word? read)

instance : StableForm Int where
  restores {value z} read := by
    constructor
    · exact .integer z
    · cases value with
      | number number =>
        obtain ⟨low, high⟩ := Json.bounds_of_int64? read
        exact Json.int64?_ofInt low high
      | _ => cases read

/-! ## Lists -/

theorem restores_list {xs : List α} (each : ∀ x ∈ xs, Restores x) : Restores xs := by
  constructor
  · refine .array ?_
    intro item written
    obtain ⟨x, member, rfl⟩ := List.mem_map.1 written
    exact (each x member).plain
  · show (xs.map toJson).mapM ofJson? = some xs
    induction xs with
    | nil => rfl
    | cons x xs ih =>
      rw [List.forall_mem_cons] at each
      rw [List.map_cons, List.mapM_cons, each.1.back, ih each.2]
      rfl

theorem restores_nil : Restores ([] : List α) := restores_list fun _ member => nomatch member

/-- What is in a list that was read was itself read. -/
theorem exists_read_of_mem {value : Json} {xs : List α} (read : ofJson? value = some xs) {x : α}
    (member : x ∈ xs) : ∃ item : Json, ofJson? item = some x := by
  cases value with
  | array items =>
    replace read : items.mapM ofJson? = some xs := read
    induction items generalizing xs with
    | nil =>
      cases read
      cases member
    | cons item items ih =>
      rw [List.mapM_cons] at read
      obtain ⟨y, first, read⟩ := Option.bind_eq_some_iff.1 read
      obtain ⟨ys, others, same⟩ := Option.bind_eq_some_iff.1 read
      cases same
      rcases List.mem_cons.1 member with rfl | member
      · exact ⟨item, first⟩
      · exact ih member others
  | _ => cases read

instance [StableForm α] : StableForm (List α) where
  restores read := restores_list fun _ member =>
    (exists_read_of_mem read member).elim fun _ found => restores found

theorem restores_array {xs : Array α} (each : ∀ x ∈ xs.toList, Restores x) : Restores xs := by
  have restored := restores_list each
  constructor
  · exact restored.plain
  · show (ofJson? (toJson xs.toList)).map List.toArray = some xs
    rw [restored.back]
    rfl

theorem restores_empty : Restores (#[] : Array α) := restores_array fun _ member => nomatch member

instance [StableForm α] : StableForm (Array α) :=
  .of_map List.toArray (fun _ => rfl) (fun _ => rfl)

end Liveset
