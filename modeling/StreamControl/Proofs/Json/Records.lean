import StreamControl.Json.Record
import StreamControl.Proofs.Json.Values

/-!
# Reading written records

A written record is read back as soon as each of its fields is (`RecordFormat.Legible`), and as
another record if its fields are read as that one's (`RecordFormat.LegibleAs`).  The members of an
object, like the elements of an array, are read one on top of the other; `Folds` says what they add up
to.  Lists of records are read as their elements are.
-/

namespace StreamControl.Json

/-! ## Members between two bytes -/

/-- Written members take a reader of single members from one value to another.  None begins with a
blank or with the byte that closes the list. -/
inductive Folds {β : Type} (close : UInt8) (step : β → Reader β) : β → List Bytes → β → Prop
  | nil {acc : β} : Folds close step acc [] acc
  | cons {acc next last : β} {b : UInt8} {bytes : Bytes} {items : List Bytes} :
      Byte.isBlank b = false → b ≠ close → Reads (step acc) (b :: bytes) next →
      Folds close step next items last → Folds close step acc ((b :: bytes) :: items) last

theorem intercalate_comma (item : Bytes) (items : List Bytes) :
    [Byte.comma].intercalate (item :: items) = item ++ items.flatMap (Byte.comma :: ·) := by
  induction items generalizing item with
  | nil => simp [List.intercalate]
  | cons next items ih =>
    rw [List.flatMap_cons, List.cons_append, ← ih next]
    simp [List.intercalate]

/-- Each member takes up a byte at least. -/
theorem length_le_flatMap_comma (items : List Bytes) :
    items.length ≤ (items.flatMap (Byte.comma :: ·)).length := by
  induction items with
  | nil => exact Nat.le_refl _
  | cons item items ih =>
    rw [List.flatMap_cons, List.length_append, List.length_cons, List.length_cons]
    omega

namespace Reader

variable {β : Type} {close : UInt8} {step : β → Reader β}

/-- Behind a member there is a comma or the closing byte. -/
theorem follows_flatMap_comma {rest : Bytes} (hrest : Follows (close :: rest))
    (items : List Bytes) : Follows (items.flatMap (Byte.comma :: ·) ++ close :: rest) := by
  cases items with
  | nil => exact hrest
  | cons item items => exact follows_comma _

theorem membersFrom_close (hclose : Byte.isBlank close = false) (fuel : Nat) (first : Bool)
    (acc : β) (rest : Bytes) :
    membersFrom close step (fuel + 1) first acc (close :: rest) = .ok (acc, rest) := by
  rw [membersFrom, bind_apply_of_ok (ahead_cons hclose rest)]
  dsimp only
  rw [if_pos rfl]
  rfl

/-- The members behind the first are read, each behind its comma. -/
theorem membersFrom_of_folds (hclose : Byte.isBlank close = false) (hcomma : Byte.comma ≠ close)
    {rest : Bytes} (hrest : Follows (close :: rest)) {acc last : β} {items : List Bytes}
    (h : Folds close step acc items last) {fuel : Nat} (hfuel : items.length < fuel) :
    membersFrom close step fuel false acc
      (items.flatMap (Byte.comma :: ·) ++ close :: rest) = .ok (last, rest) := by
  -- each member uses up one unit of fuel
  induction h generalizing fuel with
  | nil =>
    obtain ⟨fuel, rfl⟩ := Nat.exists_eq_succ_of_ne_zero (Nat.ne_of_gt hfuel)
    exact membersFrom_close hclose fuel false _ rest
  | @cons acc next last b bytes items hblank hb hread _ ih =>
    obtain ⟨fuel, rfl⟩ := Nat.exists_eq_succ_of_ne_zero (Nat.ne_zero_of_lt hfuel)
    have hitems : items.length < fuel := Nat.lt_of_succ_lt_succ hfuel
    rw [membersFrom, List.flatMap_cons, List.cons_append, List.cons_append, List.append_assoc,
      bind_apply_of_ok (ahead_cons rfl _)]
    dsimp only
    rw [if_neg hcomma, if_neg Bool.false_ne_true, if_pos rfl]
    refine (bind_apply_of_ok (x := advance) rfl).trans ?_
    refine (bind_apply_of_ok (hread _ (follows_flatMap_comma hrest items))).trans ?_
    exact ih hitems

/-- Written members are read up to the closing byte and with it. -/
theorem members_of_folds (hclose : Byte.isBlank close = false) (hcomma : Byte.comma ≠ close)
    {rest : Bytes} (hrest : Follows (close :: rest)) {start last : β} {items : List Bytes}
    (h : Folds close step start items last) :
    members close step start ([Byte.comma].intercalate items ++ close :: rest) =
      .ok (last, rest) := by
  cases h with
  | nil => exact membersFrom_close hclose _ true start rest
  | @cons _ next _ b bytes items hblank hb hread htail =>
    rw [intercalate_comma, List.append_assoc, members, membersFrom, List.cons_append,
      bind_apply_of_ok (ahead_cons hblank _)]
    dsimp only
    rw [if_neg hb, if_pos rfl]
    refine (bind_apply_of_ok (hread _ (follows_flatMap_comma hrest items))).trans ?_
    refine membersFrom_of_folds hclose hcomma hrest htail ?_
    -- the fuel is the number of bytes, of which every member has one
    have hlength := length_le_flatMap_comma items
    simp only [List.length_cons, List.length_append]
    omega

end Reader

/-! ## Records -/

namespace RecordFormat

variable {ρ : Type} {F : RecordFormat ρ}

/-- The fields of a record `r` are read as those of a record `s`: their keys can be told apart, what
is written of each is read so, and what is not written is what its absence stands for. -/
structure LegibleAs (F : RecordFormat ρ) (depth : Nat) (r s : ρ) : Prop where
  keys : ∀ f, F.fieldOf? (F.key f) = some f
  nodup : F.fields.Nodup
  written : ∀ f bytes, F.write f (F.get r f) = some bytes →
    Reads (F.read f depth) bytes (F.get s f)
  absent : ∀ f, F.write f (F.get r f) = none → F.absent f = some (F.get s f)

/-- The fields of a record can be read back. -/
abbrev Legible (F : RecordFormat ρ) (depth : Nat) (r : ρ) : Prop := F.LegibleAs depth r r

theorem Draft.complete_of_fill {d : F.Draft} {contents : (f : F.Field) → F.Content f}
    (h : ∀ f, d.fill f = some (contents f)) : d.complete = .ok contents := by
  unfold complete
  split
  · rename_i f hmissing
    have hnone := List.find?_some hmissing
    rw [h f] at hnone
    contradiction
  · congr 1
    funext f
    simp [h f]

/-- A member is read into the field of its key. -/
theorem reads_member {f : F.Field} (hkey : F.fieldOf? (F.key f) = some f) {depth : Nat}
    {d : F.Draft} (hnew : d f = none) {value : Bytes} {content : F.Content f}
    (hread : Reads (F.read f depth) value content) :
    Reads (F.readMember depth d) (memberBytes (F.key f) value) (d.set f content) := by
  intro rest hrest
  -- key, colon and value are read one after the other
  have hname : Reader.key Reader.text (memberBytes (F.key f) value ++ rest) =
      .ok (F.key f, Byte.colon :: (value ++ rest)) := by
    rw [memberBytes, List.append_assoc]
    exact Reader.key_textBytes (F.key f) _
  have hcolon : Reader.colon (Byte.colon :: (value ++ rest)) = .ok ((), value ++ rest) := rfl
  unfold readMember
  rw [Reader.bind_apply_of_ok hname, hkey]
  dsimp only
  rw [hnew]
  refine (Reader.bind_apply_of_ok hcolon).trans ?_
  refine (Reader.bind_apply_of_ok (hread rest hrest)).trans ?_
  rfl

/-- The written member of a field of a record, if there is one. -/
def member? (r : ρ) (f : F.Field) : Option Bytes :=
  (F.write f (F.get r f)).map (memberBytes (F.key f))

/-- Reading the written members of some fields adds what those that are written are read as. -/
theorem LegibleAs.folds {depth : Nat} {r s : ρ} (h : F.LegibleAs depth r s) (fs : List F.Field)
    (hnodup : fs.Nodup) {d : F.Draft} (hnew : ∀ f ∈ fs, d f = none) :
    ∃ last : F.Draft,
      Folds Byte.closeBrace (F.readMember depth) d (fs.filterMap (member? r)) last ∧
      (∀ f ∈ fs, last f = (F.write f (F.get r f)).map fun _ => F.get s f) ∧
      ∀ f ∉ fs, last f = d f := by
  induction fs generalizing d with
  | nil => exact ⟨d, .nil, fun f hf => absurd hf List.not_mem_nil, fun f _ => rfl⟩
  | cons f fs ih =>
    obtain ⟨hf, hrest⟩ := List.nodup_cons.1 hnodup
    rcases hwrite : F.write f (F.get r f) with _ | value
    · -- a field that is left out stays as it is
      obtain ⟨last, hfolds, hread, hkept⟩ :=
        ih hrest fun g hg => hnew g (List.mem_cons_of_mem _ hg)
      refine ⟨last, ?_, ?_, ?_⟩
      · rw [List.filterMap_cons_none (by rw [member?, hwrite]; rfl)]
        exact hfolds
      · intro g hg
        rcases List.mem_cons.1 hg with rfl | hg
        · rw [hkept g hf, hwrite, hnew g List.mem_cons_self]
          rfl
        · exact hread g hg
      · intro g hg
        exact hkept g fun hmem => hg (List.mem_cons_of_mem _ hmem)
    · -- a field that is written adds its entry; the others have none yet, as no field comes twice
      have hmember := reads_member (h.keys f) (hnew f List.mem_cons_self) (h.written f value hwrite)
      have hothers : ∀ g ∈ fs, (d.set f (F.get s f)) g = none := by
        intro g hg
        have hne : f ≠ g := fun heq => hf (heq ▸ hg)
        rw [Draft.set_of_ne d _ hne, hnew g (List.mem_cons_of_mem _ hg)]
      obtain ⟨last, hfolds, hread, hkept⟩ := ih hrest hothers
      refine ⟨last, ?_, ?_, ?_⟩
      · rw [List.filterMap_cons_some (by rw [member?, hwrite]; rfl)]
        exact .cons rfl (by decide) hmember hfolds
      · intro g hg
        rcases List.mem_cons.1 hg with rfl | hg
        · rw [hkept g hf, hwrite, Draft.set_same]
          rfl
        · exact hread g hg
      · intro g hg
        obtain ⟨hne, hg⟩ := not_or.1 fun hmem => hg (List.mem_cons.2 hmem)
        rw [hkept g hg, Draft.set_of_ne d _ (Ne.symm hne)]

/-- A legible record is read from its written form, whatever comes after. -/
theorem reader_bytes {depth : Nat} {r s : ρ} (h : F.LegibleAs depth r s) (rest : Bytes) :
    F.reader (depth + 1) (F.bytes r ++ rest) = .ok (s, rest) := by
  obtain ⟨last, hfolds, hread, -⟩ := h.folds F.fields h.nodup (d := Draft.empty F) fun _ _ => rfl
  -- a field that was written is in the draft, any other is filled by its absence
  have hfill : ∀ f, last.fill f = some (F.get s f) := by
    intro f
    rw [Draft.fill, hread f (F.mem_fields f)]
    rcases hwrite : F.write f (F.get r f) with _ | value
    · exact h.absent f hwrite
    · rfl
  have hfinish : F.finish last = pure s := by
    rw [finish, Draft.complete_of_fill hfill]
    exact congrArg pure (F.make_get s)
  have hbytes : F.bytes r ++ rest = Byte.openBrace ::
      ([Byte.comma].intercalate (F.fields.filterMap (member? r)) ++ Byte.closeBrace :: rest) := by
    rw [bytes, List.cons_append, List.append_assoc]
    rfl
  have hmembers := Reader.members_of_folds rfl (by decide) (follows_closeBrace rest) hfolds
  unfold reader
  rw [hbytes, Reader.bind_apply_of_ok (Reader.ahead_cons rfl _)]
  refine (Reader.bind_apply_of_ok (x := Reader.advance) rfl).trans ?_
  refine (Reader.bind_apply_of_ok hmembers).trans ?_
  rw [hfinish]
  rfl

/-- A legible record is read from the document that holds nothing else. -/
theorem document_bytes {r s : ρ} (h : F.LegibleAs 126 r s) :
    Reader.document F.reader (F.bytes r) = .ok s := by
  have hread := reader_bytes h []
  rw [List.append_nil] at hread
  unfold Reader.document
  rw [show Reader.maxDepth = 126 + 1 from rfl, hread]
  rfl

/-! ## Lists of records -/

/-- Reading the written forms of legible records adds what they are read as, the last in front. -/
theorem folds_list {depth : Nat} {f : ρ → ρ} {rs : List ρ}
    (h : ∀ r ∈ rs, F.LegibleAs depth r (f r)) (done : List ρ) :
    Folds Byte.closeBracket (fun done => (· :: done) <$> F.reader (depth + 1)) done
      (rs.map F.bytes) ((rs.map f).reverse ++ done) := by
  induction rs generalizing done with
  | nil => exact .nil
  | cons r rs ih =>
    obtain ⟨hr, hrs⟩ := List.forall_mem_cons.1 h
    -- each record is put in front of those read so far, so they come in reverse
    have hstep : Reads ((· :: done) <$> F.reader (depth + 1)) (F.bytes r) (f r :: done) := by
      intro rest _
      exact Reader.map_apply_of_ok (reader_bytes hr rest) (· :: done)
    have htail := ih hrs (f r :: done)
    rw [List.map_cons, List.map_cons, List.reverse_cons, List.append_assoc, List.singleton_append]
    exact .cons rfl (by decide) hstep htail

/-- A list of legible records is read from its written form, whatever comes after. -/
theorem list_listBytes_as {depth : Nat} {f : ρ → ρ} {rs : List ρ}
    (h : ∀ r ∈ rs, F.LegibleAs depth r (f r)) (rest : Bytes) :
    Reader.list F.reader (depth + 2) (listBytes (rs.map F.bytes) ++ rest) =
      .ok (rs.map f, rest) := by
  have hbytes : listBytes (rs.map F.bytes) ++ rest = Byte.openBracket ::
      ([Byte.comma].intercalate (rs.map F.bytes) ++ Byte.closeBracket :: rest) := by
    rw [listBytes, List.cons_append, List.append_assoc]
    rfl
  have hmembers := Reader.members_of_folds rfl (by decide) (follows_closeBracket rest)
    (folds_list h [])
  unfold Reader.list
  rw [hbytes, Reader.bind_apply_of_ok (Reader.ahead_cons rfl _)]
  refine (Reader.bind_apply_of_ok (x := Reader.advance) rfl).trans ?_
  refine (Reader.map_apply_of_ok hmembers List.reverse).trans ?_
  rw [List.append_nil, List.reverse_reverse]

/-- A list of legible records is read back where each of them is. -/
theorem list_listBytes {depth : Nat} {rs : List ρ} (h : ∀ r ∈ rs, F.Legible depth r)
    (rest : Bytes) :
    Reader.list F.reader (depth + 2) (listBytes (rs.map F.bytes) ++ rest) = .ok (rs, rest) := by
  have hread := list_listBytes_as (f := id) h rest
  rw [List.map_id] at hread
  exact hread

/-- A list of legible records is read from the document that holds nothing else. -/
theorem document_listBytes_as {f : ρ → ρ} {rs : List ρ}
    (h : ∀ r ∈ rs, F.LegibleAs 125 r (f r)) :
    Reader.document (Reader.list F.reader) (listBytes (rs.map F.bytes)) = .ok (rs.map f) := by
  have hread := list_listBytes_as h []
  rw [List.append_nil] at hread
  unfold Reader.document
  rw [show Reader.maxDepth = 125 + 2 from rfl, hread]
  rfl

theorem document_listBytes {rs : List ρ} (h : ∀ r ∈ rs, F.Legible 125 r) :
    Reader.document (Reader.list F.reader) (listBytes (rs.map F.bytes)) = .ok rs := by
  have hread := document_listBytes_as (f := id) h
  rw [List.map_id] at hread
  exact hread

end RecordFormat

end StreamControl.Json
