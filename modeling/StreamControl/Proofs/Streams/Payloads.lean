import Mathlib.Algebra.Group.Int.Defs
import Mathlib.Data.List.Forall2
import StreamControl.Proofs.Streams.Provenance

/-!
# What a schema says of a payload

Three functions decide about a payload and could disagree: the lookup of a declaration, the test of
a value, and the name given to a value that was refused, which relies on why the test refused it.
Here each has a reading of its own.

* `Schema.Declares` is the lookup: the first declaration of a name counts.
* `DataType.Holds` lists the values of a type, and `DataType.Widens` the types that may stand for
  another.
* `Schema.Faulty` says by rules what is wrong with an entry, and `Schema.violation?_eq_some_iff` that
  the schema says the same.
-/

namespace StreamControl

/-! ## Types -/

namespace DataType

/-- The values of a type.  Integers have 64 bits and those of an integer column 32; every column may
hold null, and a floating column integers. -/
inductive Holds : DataType → Value → Prop
  | null (t : DataType) : Holds t .null
  | string (s : String) : Holds .string (.text s)
  | boolean (b : Bool) : Holds .boolean (.boolean b)
  | integer {n : Int64} : -2 ^ 31 ≤ n.toInt → n.toInt ≤ 2 ^ 31 - 1 → Holds .integer (.integer n)
  | long (n : Int64) : Holds .long (.integer n)
  | float (x : Double) : Holds .float (.real x)
  | floatInteger (n : Int64) : Holds .float (.integer n)
  | double (x : Double) : Holds .double (.real x)
  | doubleInteger (n : Int64) : Holds .double (.integer n)

/-- The types that may stand for another: itself, and for the integers those with more room. -/
inductive Widens : DataType → DataType → Prop
  | refl (t : DataType) : Widens t t
  | integerLong : Widens .integer .long
  | integerFloat : Widens .integer .float
  | integerDouble : Widens .integer .double
  | longFloat : Widens .long .float
  | longDouble : Widens .long .double

theorem fitsInt32_iff {n : Int64} :
    fitsInt32 n = true ↔ -2 ^ 31 ≤ n.toInt ∧ n.toInt ≤ 2 ^ 31 - 1 := by
  rw [fitsInt32, Bool.and_eq_true, decide_eq_true_eq, decide_eq_true_eq]
  omega

/-- The test of a value accepts the values of the type. -/
theorem accepts_iff {t : DataType} {v : Value} : t.accepts v = true ↔ t.Holds v := by
  constructor
  · intro haccepts
    -- one case for each kind of value, and in it the types that hold such values
    cases v with
    | null => exact .null t
    | boolean b =>
      cases t with
      | boolean => exact .boolean b
      | _ => contradiction
    | integer n =>
      cases t with
      | integer =>
        obtain ⟨hlow, hhigh⟩ := fitsInt32_iff.1 haccepts
        exact .integer hlow hhigh
      | long => exact .long n
      | float => exact .floatInteger n
      | double => exact .doubleInteger n
      | _ => contradiction
    | real x =>
      cases t with
      | float => exact .float x
      | double => exact .double x
      | _ => contradiction
    | text s =>
      cases t with
      | string => exact .string s
      | _ => contradiction
  · intro hholds
    cases hholds with
    | null => cases t <;> rfl
    | integer hlow hhigh => exact fitsInt32_iff.2 ⟨hlow, hhigh⟩
    | _ => rfl

/-- A wider type holds all values of a narrower one. -/
theorem Widens.holds {t t' : DataType} (h : t.Widens t') {v : Value} (hholds : t.Holds v) :
    t'.Holds v := by
  -- a null passes everywhere; numbers pass to any wider type of numbers
  cases h with
  | refl => exact hholds
  | integerLong =>
    cases hholds with
    | null => exact .null .long
    | integer => exact .long _
  | integerFloat =>
    cases hholds with
    | null => exact .null .float
    | integer => exact .floatInteger _
  | integerDouble =>
    cases hholds with
    | null => exact .null .double
    | integer => exact .doubleInteger _
  | longFloat =>
    cases hholds with
    | null => exact .null .float
    | long => exact .floatInteger _
  | longDouble =>
    cases hholds with
    | null => exact .null .double
    | long => exact .doubleInteger _

end DataType

/-- No kind of a value is the one that is said of an integer for its size. -/
theorem Value.kind_ne (v : Value) : v.kind ≠ "64-bit integer" := by
  unfold kind
  split <;> decide

/-- A value is called by its kind unless it is an integer that an integer column refused. -/
theorem refusedKind_of_ne {t : DataType} {v : Value} (h : t = .integer → ∀ n, v ≠ .integer n) :
    refusedKind t v = v.kind := by
  unfold refusedKind
  split
  · exact absurd rfl (h rfl _)
  · rfl

namespace Schema

variable {schema wider : Schema} {c : Column} {name : String} {d : Declaration}

/-! ## Declarations -/

/-- The declaration that counts for a name: the first of that name, case included. -/
def Declares (schema : Schema) (name : String) (d : Declaration) : Prop :=
  ∃ before after, schema.columns = before ++ d :: after ∧ d.name = name ∧
    ∀ e ∈ before, e.name ≠ name

theorem column?_eq_some_iff : schema.column? name = some d ↔ schema.Declares name d := by
  -- the first column of the name is the one that counts
  rw [column?, List.find?_eq_some_iff_append]
  constructor
  · rintro ⟨hname, before, after, hcolumns, hbefore⟩
    refine ⟨before, after, hcolumns, beq_iff_eq.1 hname, fun e he hother => ?_⟩
    have hunequal := hbefore e he
    rw [hother, beq_self_eq_true] at hunequal
    contradiction
  · rintro ⟨before, after, hcolumns, hname, hbefore⟩
    refine ⟨beq_iff_eq.2 hname, before, after, hcolumns, fun e he => ?_⟩
    simpa using hbefore e he

theorem column?_eq_none_iff :
    schema.column? name = none ↔ ∀ d ∈ schema.columns, d.name ≠ name := by
  rw [column?, List.find?_eq_none]
  exact forall₂_congr fun d _ => not_congr beq_iff_eq

/-- An entry names a declared column, and its value is one of the declared type. -/
def Admits (schema : Schema) (c : Column) : Prop :=
  ∃ d, schema.Declares c.name d ∧ d.type.Holds c.value

/-- What is wrong with an entry: no column has its name; or the declared type is for integers of 32
bits, and the entry carries a greater one; or else it carries a value of another kind. -/
inductive Faulty (schema : Schema) (c : Column) : Violation → Prop
  | undeclared : (∀ d ∈ schema.columns, d.name ≠ c.name) →
      Faulty schema c (.unknownColumn c.name)
  | oversized {d : Declaration} {n : Int64} : schema.Declares c.name d → d.type = .integer →
      c.value = .integer n → n.toInt < -2 ^ 31 ∨ 2 ^ 31 - 1 < n.toInt →
      Faulty schema c (.typeMismatch c.name .integer "64-bit integer")
  | mismatched {d : Declaration} : schema.Declares c.name d → ¬d.type.Holds c.value →
      (d.type = .integer → ∀ n, c.value ≠ .integer n) →
      Faulty schema c (.typeMismatch c.name d.type c.value.kind)

/-! ## What the schema says -/

theorem admits_iff_violation? : schema.Admits c ↔ schema.violation? c = none := by
  have hone : schema.violations [c] = [] ↔ ∀ e ∈ [c], ∃ d, schema.column? e.name = some d ∧
      d.type.accepts e.value = true := violations_eq_nil_iff
  rw [violations, List.filterMap_eq_nil_iff, List.forall_mem_singleton,
    List.forall_mem_singleton] at hone
  rw [hone]
  refine exists_congr fun d => ?_
  rw [column?_eq_some_iff, DataType.accepts_iff]

instance : Decidable (schema.Admits c) := decidable_of_iff _ admits_iff_violation?.symm

/-- An entry whose value its column refuses is at fault, under the name that goes by why it was
refused. -/
theorem faulty_of_refused {d : Declaration} (hdeclares : schema.Declares c.name d)
    (hrefused : ¬d.type.accepts c.value = true) :
    schema.Faulty c (.typeMismatch c.name d.type (refusedKind d.type c.value)) := by
  by_cases hinteger : d.type = .integer ∧ ∃ n, c.value = .integer n
  · obtain ⟨htype, n, hvalue⟩ := hinteger
    rw [htype, hvalue] at hrefused ⊢
    have hrange : ¬(-2 ^ 31 ≤ n.toInt ∧ n.toInt ≤ 2 ^ 31 - 1) :=
      fun hfits => hrefused (DataType.fitsInt32_iff.2 hfits)
    exact .oversized hdeclares htype hvalue (by omega)
  · have hother : d.type = .integer → ∀ n, c.value ≠ .integer n :=
      fun htype n hvalue => hinteger ⟨htype, n, hvalue⟩
    rw [refusedKind_of_ne hother]
    exact .mismatched hdeclares (fun hholds => hrefused (DataType.accepts_iff.2 hholds)) hother

/-- A schema finds in an entry what is wrong with it and nothing else. -/
theorem violation?_eq_some_iff {v : Violation} :
    schema.violation? c = some v ↔ schema.Faulty c v := by
  rw [violation?]
  constructor
  · intro hviolation
    rcases hcolumn : schema.column? c.name with _ | d
    · rw [hcolumn] at hviolation
      obtain rfl := Option.some.inj hviolation
      exact .undeclared (column?_eq_none_iff.1 hcolumn)
    · rw [hcolumn] at hviolation
      dsimp only at hviolation
      have hdeclares := column?_eq_some_iff.1 hcolumn
      by_cases haccepts : d.type.accepts c.value = true
      · rw [if_pos haccepts] at hviolation
        contradiction
      · rw [if_neg haccepts] at hviolation
        obtain rfl := Option.some.inj hviolation
        exact faulty_of_refused hdeclares haccepts
  · intro hfaulty
    cases hfaulty with
    | undeclared hundeclared => rw [column?_eq_none_iff.2 hundeclared]
    | @oversized d n hdeclares htype hvalue hrange =>
      have hrefused : ¬d.type.accepts c.value = true := by
        rw [htype, hvalue]
        intro haccepts
        obtain ⟨hlow, hhigh⟩ := DataType.fitsInt32_iff.1 haccepts
        omega
      rw [column?_eq_some_iff.2 hdeclares]
      dsimp only
      rw [if_neg hrefused, htype, hvalue]
      rfl
    | @mismatched d hdeclares hrefused hother =>
      have hrefused : ¬d.type.accepts c.value = true :=
        fun haccepts => hrefused (DataType.accepts_iff.1 haccepts)
      rw [column?_eq_some_iff.2 hdeclares]
      dsimp only
      rw [if_neg hrefused, refusedKind_of_ne hother]

/-- A schema lists one violation for each entry that it does not admit, in their order. -/
theorem forall₂_faulty (schema : Schema) (payload : List Column) :
    List.Forall₂ schema.Faulty (payload.filter fun c => ¬schema.Admits c)
      (schema.violations payload) := by
  induction payload with
  | nil => exact .nil
  | cons c payload ih =>
    -- an entry is in both lists or in neither
    by_cases hadmits : schema.Admits c
    · have hnone := admits_iff_violation?.1 hadmits
      rw [List.filter_cons_of_neg (by simpa using hadmits), violations,
        List.filterMap_cons_none hnone]
      exact ih
    · obtain ⟨v, hv⟩ := Option.ne_none_iff_exists'.1 (mt admits_iff_violation?.2 hadmits)
      rw [List.filter_cons_of_pos (by simpa using hadmits), violations, List.filterMap_cons_some hv]
      exact .cons (violation?_eq_some_iff.1 hv) ih

/-! ## Wider schemas -/

/-- A schema that declares the same columns in the same order, each with a type that may stand for
the one it had. -/
def WidenedBy (schema wider : Schema) : Prop :=
  List.Forall₂ (fun d e => d.name = e.name ∧ d.type.Widens e.type) schema.columns wider.columns

/-- The first declaration of a name is widened to the first of that name. -/
theorem WidenedBy.declares (h : schema.WidenedBy wider) (hdeclares : schema.Declares name d) :
    ∃ e, wider.Declares name e ∧ d.type.Widens e.type := by
  have hfound : schema.column? name = some d := column?_eq_some_iff.2 hdeclares
  suffices hwider : ∃ e, wider.column? name = some e ∧ d.type.Widens e.type by
    obtain ⟨e, he, hwidens⟩ := hwider
    exact ⟨e, column?_eq_some_iff.1 he, hwidens⟩
  unfold column? at hfound ⊢
  unfold WidenedBy at h
  -- both lookups stop at the same place, since the names are the same
  generalize schema.columns = declared at h hfound
  generalize wider.columns = widened at h ⊢
  induction h with
  | nil => contradiction
  | @cons first first' rest rest' hfirst _ ih =>
    obtain ⟨hsame, hwidens⟩ := hfirst
    rw [List.find?_cons] at hfound ⊢
    rw [← hsame]
    cases hname : first.name == name with
    | true =>
      rw [hname] at hfound
      obtain rfl := Option.some.inj hfound
      exact ⟨first', rfl, hwidens⟩
    | false =>
      rw [hname] at hfound
      exact ih hfound

theorem WidenedBy.admits (h : schema.WidenedBy wider) (hadmits : schema.Admits c) :
    wider.Admits c := by
  obtain ⟨d, hdeclares, hholds⟩ := hadmits
  obtain ⟨e, hdeclares', hwidens⟩ := h.declares hdeclares
  exact ⟨e, hdeclares', hwidens.holds hholds⟩

/-! ## Main result -/

theorem fits_iff {payload : List Column} :
    schema.fits payload = true ↔ ∀ c ∈ payload, schema.Admits c := by
  rw [fits, List.isEmpty_iff, violations, List.filterMap_eq_nil_iff]
  exact forall₂_congr fun c _ => admits_iff_violation?.symm

/-- An integer is said to be too great exactly if it was meant for a column of 32 bits and is. -/
theorem faulty_oversized_iff :
    (∃ column expected, schema.Faulty c (.typeMismatch column expected "64-bit integer")) ↔
      ∃ d n, schema.Declares c.name d ∧ d.type = .integer ∧ c.value = .integer n ∧
        (n.toInt < -2 ^ 31 ∨ 2 ^ 31 - 1 < n.toInt) := by
  constructor
  · rintro ⟨column, expected, hfaulty⟩
    -- the kind is a text, so other violations are told apart by what they say
    generalize hviolation : Violation.typeMismatch column expected "64-bit integer" = v at hfaulty
    cases hfaulty with
    | undeclared => contradiction
    | oversized hdeclares htype hvalue hrange => exact ⟨_, _, hdeclares, htype, hvalue, hrange⟩
    | mismatched =>
      obtain ⟨-, -, hkind⟩ := Violation.typeMismatch.inj hviolation
      exact absurd hkind.symm c.value.kind_ne
  · rintro ⟨d, n, hdeclares, htype, hvalue, hrange⟩
    exact ⟨_, _, .oversized hdeclares htype hvalue hrange⟩

/-- **A payload is checked exactly.**  It fits if every entry names a declared column, the first of
its name counting, and carries a value of the declared type.  Otherwise there are violations: one for
each entry that is at fault, in the order of the payload, so those of two payloads in a row are those
of the first and then those of the second.  A violation speaks of a 64-bit integer exactly for an
integer outside of 32 bits in an integer column.  A payload that fits also fits every wider schema. -/
theorem violations_exact (schema : Schema) (payload : List Column) :
    (schema.fits payload = true ↔ ∀ c ∈ payload, schema.Admits c) ∧
    (schema.fits payload = false ↔ schema.violations payload ≠ []) ∧
    List.Forall₂ schema.Faulty (payload.filter fun c => ¬schema.Admits c)
      (schema.violations payload) ∧
    (∀ rest, schema.violations (payload ++ rest) =
      schema.violations payload ++ schema.violations rest) ∧
    (∀ c, (∃ column expected,
        schema.violations [c] = [.typeMismatch column expected "64-bit integer"]) ↔
      ∃ d n, schema.Declares c.name d ∧ d.type = .integer ∧ c.value = .integer n ∧
        (n.toInt < -2 ^ 31 ∨ 2 ^ 31 - 1 < n.toInt)) ∧
    ∀ wider : Schema, schema.WidenedBy wider → schema.fits payload = true →
      wider.fits payload = true := by
  refine ⟨fits_iff, ?_, forall₂_faulty schema payload, ?_, ?_, ?_⟩
  · rw [fits, List.isEmpty_eq_false_iff]
  · intro rest
    exact List.filterMap_append
  · intro c
    rw [← faulty_oversized_iff]
    refine exists₂_congr ?_
    intro column expected
    rw [← violation?_eq_some_iff, violations]
    -- an entry alone has one violation or none
    rcases hviolation : schema.violation? c with _ | v
    · simp [hviolation]
    · simp [hviolation]
  · intro wider hwidened hfits
    rw [fits_iff] at hfits ⊢
    intro c hc
    exact hwidened.admits (hfits c hc)

/-- A schema that declares a name twice: the first declaration counts. -/
example :
    let schema := Schema.user "s" [⟨"n", .integer⟩, ⟨"n", .long⟩]
    schema.violations [.carrying "n" (.integer 2147483648), .carrying "N" .null,
      .carrying "n" (.integer (-2147483648)), .carrying "n" (.text "1")] =
      [.typeMismatch "n" .integer "64-bit integer", .unknownColumn "N",
        .typeMismatch "n" .integer "string"] := by
  decide

end Schema

end StreamControl
