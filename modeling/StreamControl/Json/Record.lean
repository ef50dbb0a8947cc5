import StreamControl.Json.Scalar

/-!
# Records

A record is written as an object with one member for each of its fields, in a fixed order; it may
also be read from an array that holds the values alone, in the same order.  A `RecordFormat` says
once how each field is called, read, written and, where it may be missing, filled; reading and
writing of whole records follow from it.  In an object the order of the members is free, members
with unknown keys are passed over, and no field may be named twice.
-/

namespace StreamControl.Json

/-- How the records of a type are read and written, field by field. -/
structure RecordFormat (ρ : Type) where
  /-- The fields of a record. -/
  Field : Type
  /-- Fields can be told apart. -/
  [decEq : DecidableEq Field]
  /-- What a field holds. -/
  Content : Field → Type
  /-- The name of the record in a mismatch. -/
  name : String
  /-- The fields in the order in which they are written. -/
  fields : List Field
  /-- Every field is in the list. -/
  mem_fields : ∀ f, f ∈ fields
  /-- The key of a field. -/
  key : Field → String
  /-- Reads the content of a field that may enter `depth` further levels of nesting. -/
  read : (f : Field) → (depth : Nat) → Reader (Content f)
  /-- The written content of a field; nothing if the member is left out. -/
  write : (f : Field) → Content f → Option Bytes
  /-- What stands for a field that is missing; nothing if the field is required. -/
  absent : (f : Field) → Option (Content f)
  /-- The record with these contents. -/
  make : ((f : Field) → Content f) → ρ
  /-- The contents of a record. -/
  get : ρ → (f : Field) → Content f
  /-- A record is made of its contents. -/
  make_get : ∀ r, make (get r) = r

attribute [instance] RecordFormat.decEq

namespace RecordFormat

variable {ρ : Type} (F : RecordFormat ρ)

/-- The contents read so far. -/
abbrev Draft := (f : F.Field) → Option (F.Content f)

/-- Nothing has been read yet. -/
def Draft.empty : F.Draft := fun _ => none

variable {F}

/-- Adds the content of one field. -/
def Draft.set (d : F.Draft) (f : F.Field) (content : F.Content f) : F.Draft := fun g =>
  if h : f = g then some (h ▸ content) else d g

@[simp] theorem Draft.set_same (d : F.Draft) (f : F.Field) (content : F.Content f) :
    d.set f content f = some content := by
  simp [Draft.set]

theorem Draft.set_of_ne (d : F.Draft) {f g : F.Field} (content : F.Content f) (h : f ≠ g) :
    d.set f content g = d g := by
  simp [Draft.set, h]

/-- The content of a field that was read, else what stands for it. -/
def Draft.fill (d : F.Draft) (f : F.Field) : Option (F.Content f) := (d f).or (F.absent f)

/-- All contents, if every required field was read; else the first one missing is reported. -/
def Draft.complete (d : F.Draft) : Except Mismatch ((f : F.Field) → F.Content f) :=
  match h : F.fields.find? fun f => (d.fill f).isNone with
  | some f => .error (.missingField (F.key f))
  | none => .ok fun f => (d.fill f).get (by
      have := List.find?_eq_none.1 h f (F.mem_fields f)
      simpa [Option.isSome_iff_ne_none] using this)

variable (F)

/-- The field with this key. -/
def fieldOf? (key : String) : Option F.Field := F.fields.find? fun f => F.key f == key

/-- Reads one member of an object.  A key seen before is refused before its value is looked at. -/
def readMember (depth : Nat) (d : F.Draft) : Reader F.Draft := do
  match F.fieldOf? (← Reader.key Reader.text) with
  -- an unknown key: only the form of its value counts
  | none =>
    Reader.colon
    Reader.passLeniently
    pure d
  | some f =>
    if (d f).isSome then Reader.mismatch (.duplicateField (F.key f))
    else
      Reader.colon
      return d.set f (← F.read f depth)

/-- Reads the next element of an array; nothing, and no byte taken, if the array is at its end. -/
def readElement? {α : Type} (first : Bool) (read : Reader α) : Reader (Option α) := do
  match ← Reader.ahead with
  | none => Reader.ended
  | some b =>
    if b = Byte.closeBracket then pure none
    else if first then some <$> read
    else if b = Byte.comma then
      Reader.advance
      some <$> read
    else Reader.malformed

/-- Reads the elements of an array into the given fields, the first of which has number `index`.  An
array may end early if all fields that are left can be missing. -/
def readElements (depth : Nat) :
    List F.Field → (index : Nat) → (first : Bool) → F.Draft → Reader F.Draft
  | [], _, _, d => pure d
  | f :: rest, index, first, d => do
    match ← readElement? first (F.read f depth) with
    | some content => readElements depth rest (index + 1) false (d.set f content)
    | none =>
      -- the array has ended, so the fields that are left must all be able to be missing
      if (F.absent f).isSome then readElements depth rest (index + 1) first d
      else Reader.mismatch (.tooShort index F.name F.fields.length)

/-- Reads the end of an array that has no room for more elements. -/
def closeArray : Reader Unit := do
  match ← Reader.ahead with
  | some Byte.closeBracket => Reader.advance
  | some _ => Reader.malformed
  | none => Reader.ended

/-- Makes a record of what was read. -/
def finish (d : F.Draft) : Reader ρ :=
  match d.complete with
  | .ok contents => pure (F.make contents)
  | .error m => Reader.mismatch m

/-- Reads a record, in either form, that may enter `depth` levels of nesting. -/
def reader (depth : Nat) : Reader ρ := do
  match ← Reader.ahead with
  | some Byte.openBrace =>
    match depth with
    | 0 => Reader.malformed
    | depth + 1 =>
      Reader.advance
      F.finish (← Reader.members Byte.closeBrace (F.readMember depth) (Draft.empty F))
  | some Byte.openBracket =>
    match depth with
    | 0 => Reader.malformed
    | depth + 1 =>
      Reader.advance
      -- the elements are told apart by their places alone
      let d ← F.readElements depth F.fields 0 true (Draft.empty F)
      closeArray
      F.finish d
  | _ => Reader.unexpected ("struct " ++ F.name)

/-- A member of an object. -/
def memberBytes (key : String) (value : Bytes) : Bytes := textBytes key ++ Byte.colon :: value

/-- The written form of a record: an object without blanks. -/
def bytes (r : ρ) : Bytes :=
  let members := F.fields.filterMap fun f => (F.write f (F.get r f)).map (memberBytes (F.key f))
  Byte.openBrace :: ([Byte.comma].intercalate members ++ [Byte.closeBrace])

end RecordFormat

end StreamControl.Json
