import StreamControl.Proofs.Json.Members

/-!
# The same record in another spelling

Two objects say the same of a record if they differ in the order of their members, in blanks, in
members that name no field, in members that say of a missing field only what its absence stands for,
and in values that say the same of a field (`RecordFormat.Respells`); so does an array that holds what
the members say, field by field (`RecordFormat.Supplies`).  What is read then is the same, because
entries for different fields can be added in any order, and a second one for the same field is refused
in any order (`Draft.add?_comm`).
-/

namespace StreamControl.Json

namespace RecordFormat

variable {ρ : Type} (F : RecordFormat ρ)

/-! ## Spellings of a record -/

/-- The key of a member is that of a field. -/
def Names (m : Member) (f : F.Field) : Prop := Spells m.key (utf8 (F.key f))

/-- The key of a member is a text that is not the key of any field. -/
def Unknown (m : Member) : Prop := ∃ key, Spells m.key (utf8 key) ∧ ∀ f, F.key f ≠ key

/-- Which values say the same of a field. -/
structure Synonyms where
  /-- The value says the same of a field as its absence. -/
  standsIn : F.Field → Bytes → Prop
  /-- The two values say the same of a field. -/
  agree : F.Field → Bytes → Bytes → Prop

variable {F} (syn : F.Synonyms)

/-- Two members have the same key, and their values are the same or say the same. -/
structure Same (m n : Member) : Prop where
  key : ∃ key, Spells m.key (utf8 key) ∧ Spells n.key (utf8 key)
  value : m.value.core = n.value.core ∨
    ∃ f, F.Names m f ∧ syn.agree f m.value.core n.value.core

/-- The members of two objects say the same of a record. -/
inductive Respells : List Member → List Member → Prop
  | reordered {ms ns : List Member} : ms.Perm ns → Respells ms ns
  /-- Other blanks, keys with other escapes, and values that say the same. -/
  | restated {ms ns : List Member} : List.Forall₂ (Same syn) ms ns → Respells ms ns
  | unknown {m : Member} {ms : List Member} : F.Unknown m → Respells ms (m :: ms)
  | missing {f : F.Field} {m : Member} {ms : List Member} : F.Names m f →
      syn.standsIn f m.value.core → (∀ n ∈ ms, ¬ F.Names n f) → Respells ms (m :: ms)
  | symm {ms ns : List Member} : Respells ms ns → Respells ns ms
  | trans {ms ns os : List Member} : Respells ms ns → Respells ns os → Respells ms os

/-- An element holds what the members of an object say of a field: the value of its member, or what
stands for it if there is none. -/
def Supplies (ms : List Member) (f : F.Field) (e : Padded) : Prop :=
  (∃ m ∈ ms, F.Names m f ∧ e.core = m.value.core) ∨
    (∀ m ∈ ms, ¬ F.Names m f) ∧ syn.standsIn f e.core

/-- Keys tell the fields apart, what stands for a missing field is a value that is read as its absence
is, and of values that say the same the same is made. -/
structure Synonyms.Sound (depth : Nat) : Prop where
  keys : ∀ f, F.fieldOf? (F.key f) = some f
  isValue : ∀ {f v}, syn.standsIn f v → ValueText v
  makes : ∀ {f v}, syn.standsIn f v →
    ∃ content, F.absent f = some content ∧ made? (F.read f depth) v = some content
  agrees : ∀ {f v w}, syn.agree f v w → made? (F.read f depth) v = made? (F.read f depth) w

variable {syn} {depth : Nat}

/-! ## Records of drafts -/

theorem Draft.fill_of_complete {d : F.Draft} {contents : (f : F.Field) → F.Content f}
    (h : d.complete = .ok contents) (f : F.Field) : d.fill f = some (contents f) := by
  unfold complete at h
  split at h
  · cases h
  · obtain rfl := Except.ok.inj h
    exact (Option.some_get _).symm

theorem record?_eq_some {d : F.Draft} {r : ρ} :
    F.record? d = some r ↔
      ∃ contents : (f : F.Field) → F.Content f, (∀ f, d.fill f = some (contents f)) ∧
        F.make contents = r := by
  unfold record?
  constructor
  · intro h
    obtain ⟨contents, hcomplete, hmake⟩ := Option.map_eq_some_iff.1 h
    refine ⟨contents, fun f => Draft.fill_of_complete ?_ f, hmake⟩
    -- a draft is complete if each field has an entry or a stand-in
    cases hd : d.complete with
    | error m =>
      rw [hd] at hcomplete
      cases hcomplete
    | ok contents' =>
      rw [hd] at hcomplete
      obtain rfl := Option.some.inj hcomplete
      rfl
  · rintro ⟨contents, hfill, rfl⟩
    rw [Draft.complete_of_fill hfill]
    rfl

/-- What stands for a missing field adds nothing to the record. -/
theorem record?_set_absent {d : F.Draft} {f : F.Field} {content : F.Content f} (hnew : d f = none)
    (habsent : F.absent f = some content) : F.record? (d.set f content) = F.record? d := by
  have hfill : (d.set f content).fill = d.fill := by
    funext g
    by_cases hg : f = g
    · subst hg
      rw [Draft.fill, Draft.fill, Draft.set_same, hnew, habsent]
      rfl
    · rw [Draft.fill, Draft.fill, Draft.set_of_ne d content hg]
  ext r
  simp only [record?_eq_some, hfill]

/-! ## Entries in any order -/

theorem Draft.set_comm (d : F.Draft) {f g : F.Field} (hne : f ≠ g) (a : F.Content f)
    (b : F.Content g) : (d.set f a).set g b = (d.set g b).set f a := by
  funext i
  by_cases hf : f = i
  · subst hf
    rw [Draft.set_of_ne _ b (Ne.symm hne), Draft.set_same, Draft.set_same]
  · by_cases hg : g = i
    · subst hg
      rw [Draft.set_same, Draft.set_of_ne _ a hf, Draft.set_same]
    · rw [Draft.set_of_ne _ b hg, Draft.set_of_ne _ a hf, Draft.set_of_ne _ a hf,
        Draft.set_of_ne _ b hg]

theorem Draft.add?_of_none {d : F.Draft} {f : F.Field} (h : d f = none) (content : F.Content f) :
    d.add? (some ⟨f, content⟩) = some (d.set f content) := by
  dsimp only [Draft.add?]
  rw [h]
  rfl

theorem Draft.add?_of_isSome {d : F.Draft} {f : F.Field} (h : (d f).isSome = true)
    (content : F.Content f) : d.add? (some ⟨f, content⟩) = none := if_pos h

/-- Entries for two fields are both added, or refused if one of the fields has an entry. -/
theorem Draft.add?_both (d : F.Draft) {f g : F.Field} (hne : f ≠ g) (a : F.Content f)
    (b : F.Content g) :
    (d.add? (some ⟨f, a⟩)).bind (·.add? (some ⟨g, b⟩)) =
      if (d f).isSome || (d g).isSome then none else some ((d.set f a).set g b) := by
  -- the fields differ, so the first entry does not count against the second
  by_cases hf : (d f).isSome
  · rw [add?_of_isSome hf, hf]
    rfl
  · rw [add?_of_none (Option.not_isSome_iff_eq_none.1 hf), Option.bind_some]
    by_cases hg : (d g).isSome
    · rw [add?_of_isSome (by rw [set_of_ne d a hne]; exact hg), hg, Bool.or_true]
      rfl
    · rw [add?_of_none (by rw [set_of_ne d a hne]; exact Option.not_isSome_iff_eq_none.1 hg),
        Bool.eq_false_iff.2 hf, Bool.eq_false_iff.2 hg]
      rfl

/-- A second entry for a field is refused. -/
theorem Draft.add?_twice (d : F.Draft) {f : F.Field} (a b : F.Content f) :
    (d.add? (some ⟨f, a⟩)).bind (·.add? (some ⟨f, b⟩)) = none := by
  by_cases hf : (d f).isSome
  · rw [add?_of_isSome hf]
    rfl
  · rw [add?_of_none (Option.not_isSome_iff_eq_none.1 hf), Option.bind_some,
      add?_of_isSome (by rw [set_same]; rfl)]

/-- Two entries can be added in either order, or in none. -/
theorem Draft.add?_comm (d : F.Draft) (x y : Option F.Entry) :
    (d.add? x).bind (·.add? y) = (d.add? y).bind (·.add? x) := by
  rcases x with _ | ⟨f, a⟩
  · exact (Option.bind_fun_some (d.add? y)).symm
  rcases y with _ | ⟨g, b⟩
  · exact Option.bind_fun_some _
  by_cases hne : f = g
  · subst hne
    rw [add?_twice, add?_twice]
  · rw [add?_both d hne, add?_both d (Ne.symm hne), set_comm d hne, Bool.or_comm]

theorem addMember?_comm (d : F.Draft) (m n : Member) :
    (F.addMember? depth d m).bind (F.addMember? depth · n) =
      (F.addMember? depth d n).bind (F.addMember? depth · m) := by
  unfold addMember?
  cases F.entry? depth m with
  | none => exact (Option.bind_fun_none _).symm
  | some x =>
    cases F.entry? depth n with
    | none => exact Option.bind_fun_none _
    | some y => exact d.add?_comm x y

/-- Members can be added in any order. -/
theorem foldlM_addMember?_perm {ms ns : List Member} (h : ms.Perm ns) (d : F.Draft) :
    ms.foldlM (F.addMember? depth) d = ns.foldlM (F.addMember? depth) d := by
  induction h generalizing d with
  | nil => rfl
  | cons m _ ih =>
    rw [List.foldlM_cons, List.foldlM_cons]
    exact Option.bind_congr fun next _ => ih next
  | swap m n ms =>
    -- exchanging neighbours is enough, since they add to different fields or fail either way
    have hswap : (F.addMember? depth d n).bind (F.addMember? depth · m) = _ :=
      addMember?_comm d n m
    have hcomm := congrArg (fun next => next.bind (ms.foldlM (F.addMember? depth) ·)) hswap
    rw [Option.bind_assoc, Option.bind_assoc] at hcomm
    exact hcomm
  | trans _ _ ih ih' => exact (ih d).trans (ih' d)

/-! ## What single members say -/

/-- A key is that of one field at most. -/
theorem Names.unique (hkeys : ∀ f, F.fieldOf? (F.key f) = some f) {m : Member} {f g : F.Field}
    (h : F.Names m f) (h' : F.Names m g) : f = g := by
  have hfield := hkeys f
  rw [Spells.unique h h', hkeys g] at hfield
  exact (Option.some.inj hfield).symm

theorem Unknown.not_names {m : Member} (h : F.Unknown m) (f : F.Field) : ¬ F.Names m f := by
  obtain ⟨key, hkey, hother⟩ := h
  exact fun hname => hother f (Spells.unique hname hkey)

/-- Members that name other fields do not name this one. -/
theorem forall_not_names (hkeys : ∀ f, F.fieldOf? (F.key f) = some f) {ms : List Member}
    {fs : List F.Field} (h : List.Forall₂ F.Names ms fs) {f : F.Field} (hf : f ∉ fs) :
    ∀ m ∈ ms, ¬ F.Names m f := by
  induction h with
  | nil => exact fun m hm => absurd hm List.not_mem_nil
  | cons hname _ ih =>
    obtain ⟨hne, hrest⟩ := not_or.1 fun hmem => hf (List.mem_cons.2 hmem)
    exact List.forall_mem_cons.2 ⟨fun hname' => hne (hname'.unique hkeys hname), ih hrest⟩

theorem names_bare {key : String} (hkey : PlainBytes (utf8 key)) {v : Bytes}
    (hvalue : ValueText v) {f : F.Field} (h : F.key f = key) :
    F.Names (.bare key hkey hvalue) f := by
  subst h
  exact Spells.of_plain hkey

theorem unknown_bare {key : String} (hkey : PlainBytes (utf8 key)) {v : Bytes}
    (hvalue : ValueText v) (h : ∀ f, F.key f ≠ key) : F.Unknown (.bare key hkey hvalue) :=
  ⟨key, Spells.of_plain hkey, h⟩

theorem entry?_of_unknown {m : Member} (h : F.Unknown m) : F.entry? depth m = some none := by
  obtain ⟨key, hkey, hother⟩ := h
  have hnone : F.fieldOf? key = none := by
    refine List.find?_eq_none.2 fun f _ hf => ?_
    exact hother f (beq_iff_eq.1 hf)
  unfold entry?
  rw [(spelled?_eq_some_iff m.isText).2 hkey, Option.bind_some, hnone]

theorem entry?_of_names (hkeys : ∀ f, F.fieldOf? (F.key f) = some f) {m : Member} {f : F.Field}
    (h : F.Names m f) :
    F.entry? depth m =
      (made? (F.read f depth) m.value.core).map fun content => some ⟨f, content⟩ := by
  unfold entry?
  rw [(spelled?_eq_some_iff m.isText).2 h, Option.bind_some, hkeys f]

/-- What is added for a field comes from a member that names it. -/
theorem names_of_entry? {m : Member} {f : F.Field} {content : F.Content f}
    (h : F.entry? depth m = some (some ⟨f, content⟩)) : F.Names m f := by
  unfold entry? at h
  obtain ⟨key, hkey, h⟩ := Option.bind_eq_some_iff.1 h
  -- a key that no field has adds nothing
  cases hfield : F.fieldOf? key with
  | none =>
    rw [hfield] at h
    cases h
  | some g =>
    rw [hfield] at h
    obtain ⟨content', -, heq⟩ := Option.map_eq_some_iff.1 h
    obtain ⟨rfl, -⟩ := Sigma.mk.inj (Option.some.inj heq)
    have hname : F.key g = key :=
      beq_iff_eq.1 (List.find?_some (p := fun f => F.key f == key) hfield)
    rw [Names, hname]
    exact (spelled?_eq_some_iff m.isText).1 hkey

theorem entry?_of_same (hsound : syn.Sound depth) {m n : Member} (h : Same syn m n) :
    F.entry? depth m = F.entry? depth n := by
  obtain ⟨⟨key, hm, hn⟩, hvalue | ⟨f, hname, hagree⟩⟩ := h
  · unfold entry?
    rw [(spelled?_eq_some_iff m.isText).2 hm, (spelled?_eq_some_iff n.isText).2 hn, hvalue]
  · obtain rfl : key = F.key f := hm.unique hname
    rw [entry?_of_names hsound.keys hm, entry?_of_names hsound.keys hn, hsound.agrees hagree]

/-- A member that is added adds nothing, or the content of a field that has none. -/
theorem addMember?_eq_some {m : Member} {d next : F.Draft}
    (h : F.addMember? depth d m = some next) :
    (F.entry? depth m = some none ∧ next = d) ∨
      ∃ f content, F.entry? depth m = some (some ⟨f, content⟩) ∧ d f = none ∧
        next = d.set f content := by
  obtain ⟨entry, hentry, hadd⟩ := Option.bind_eq_some_iff.1 h
  rcases entry with _ | ⟨f, content⟩
  · exact .inl ⟨hentry, (Option.some.inj hadd).symm⟩
  · by_cases hf : (d f).isSome
    · rw [Draft.add?_of_isSome hf] at hadd
      cases hadd
    · have hnew := Option.not_isSome_iff_eq_none.1 hf
      rw [Draft.add?_of_none hnew] at hadd
      exact .inr ⟨f, content, hentry, hnew, (Option.some.inj hadd).symm⟩

/-! ## What the members of an object say -/

/-- Nothing is said of a field that no member names. -/
theorem foldlM_addMember?_missing {ms : List Member} {f : F.Field}
    (hnames : ∀ m ∈ ms, ¬ F.Names m f) {d last : F.Draft}
    (h : ms.foldlM (F.addMember? depth) d = some last) : last f = d f := by
  induction ms generalizing d with
  | nil => exact congrFun (Option.some.inj h).symm f
  | cons m ms ih =>
    obtain ⟨hm, hms⟩ := List.forall_mem_cons.1 hnames
    rw [List.foldlM_cons] at h
    obtain ⟨next, hnext, hlast⟩ := Option.bind_eq_some_iff.1 h
    rw [ih hms hlast]
    rcases addMember?_eq_some hnext with ⟨-, rfl⟩ | ⟨g, content, hentry, -, rfl⟩
    · rfl
    · exact Draft.set_of_ne d content fun heq => hm (heq ▸ names_of_entry? hentry)

/-- What a field holds is kept. -/
theorem foldlM_addMember?_kept {ms : List Member} {f : F.Field} {content : F.Content f}
    {d last : F.Draft} (hd : d f = some content)
    (h : ms.foldlM (F.addMember? depth) d = some last) : last f = some content := by
  induction ms generalizing d with
  | nil => exact (congrFun (Option.some.inj h).symm f).trans hd
  | cons m ms ih =>
    rw [List.foldlM_cons] at h
    obtain ⟨next, hnext, hlast⟩ := Option.bind_eq_some_iff.1 h
    refine ih ?_ hlast
    rcases addMember?_eq_some hnext with ⟨-, rfl⟩ | ⟨g, content', -, hg, rfl⟩
    · exact hd
    · -- an entry for the same field would have been refused
      rw [Draft.set_of_ne d content' fun heq => ?_, hd]
      subst heq
      rw [hd] at hg
      cases hg

/-- A field that a member names holds what is made of its value. -/
theorem foldlM_addMember?_named (hkeys : ∀ f, F.fieldOf? (F.key f) = some f) {ms : List Member}
    {m : Member} (hm : m ∈ ms) {f : F.Field} (hname : F.Names m f) {d last : F.Draft}
    (h : ms.foldlM (F.addMember? depth) d = some last) :
    ∃ content, made? (F.read f depth) m.value.core = some content ∧ last f = some content := by
  -- the draft is followed to the member, through it, and on to the end
  obtain ⟨before, behind, rfl⟩ := List.append_of_mem hm
  rw [List.foldlM_append] at h
  obtain ⟨d, -, h⟩ := Option.bind_eq_some_iff.1 h
  rw [List.foldlM_cons] at h
  obtain ⟨next, hnext, hlast⟩ := Option.bind_eq_some_iff.1 h
  have hentry : F.entry? depth m = _ := entry?_of_names hkeys hname
  rcases addMember?_eq_some hnext with ⟨hnone, -⟩ | ⟨g, content, hsome, -, rfl⟩
  · rw [hentry] at hnone
    obtain ⟨content, -, heq⟩ := Option.map_eq_some_iff.1 hnone
    cases heq
  · rw [hentry] at hsome
    obtain ⟨content', hmade, heq⟩ := Option.map_eq_some_iff.1 hsome
    obtain ⟨rfl, hcontent⟩ := Sigma.mk.inj (Option.some.inj heq)
    obtain rfl := eq_of_heq hcontent
    exact ⟨content', hmade, foldlM_addMember?_kept (Draft.set_same d f content') hlast⟩

theorem foldlM_addMember?_unknown {m : Member} (h : F.Unknown m) (ms : List Member) (d : F.Draft) :
    (m :: ms).foldlM (F.addMember? depth) d = ms.foldlM (F.addMember? depth) d := by
  rw [List.foldlM_cons, addMember?, entry?_of_unknown h]
  rfl

theorem foldlM_addMember?_same (hsound : syn.Sound depth) {ms ns : List Member}
    (h : List.Forall₂ (Same syn) ms ns) (d : F.Draft) :
    ms.foldlM (F.addMember? depth) d = ns.foldlM (F.addMember? depth) d := by
  induction h generalizing d with
  | nil => rfl
  | cons hm _ ih =>
    rw [List.foldlM_cons, List.foldlM_cons, addMember?, addMember?, entry?_of_same hsound hm]
    exact Option.bind_congr fun next _ => ih next

/-- A bare member supplies its value. -/
theorem Supplies.of_bare {key : String} {hkey : PlainBytes (utf8 key)} {v : Bytes}
    (hvalue : ValueText v) {ms : List Member} (hm : .bare key hkey hvalue ∈ ms) {f : F.Field}
    (h : F.key f = key) : Supplies syn ms f (.bare v) :=
  .inl ⟨_, hm, names_bare hkey hvalue h, rfl⟩

/-! ## Main results -/

/-- **Objects that say the same of a record are read as the same record**, or refused alike. -/
theorem Respells.drafted (hsound : syn.Sound depth) {ms ns : List Member}
    (h : Respells syn ms ns) :
    (F.drafted? depth ms).bind F.record? = (F.drafted? depth ns).bind F.record? := by
  induction h with
  | reordered hperm => rw [drafted?, drafted?, foldlM_addMember?_perm hperm]
  | restated hsame => rw [drafted?, drafted?, foldlM_addMember?_same hsound hsame]
  | unknown hm => rw [drafted?, drafted?, foldlM_addMember?_unknown hm]
  | @missing f m ms hname hstand hms =>
    obtain ⟨content, habsent, hmade⟩ := hsound.makes hstand
    have hentry : F.entry? depth m = _ := entry?_of_names hsound.keys hname
    -- added last, the member finds its field empty
    have hlast : (m :: ms).Perm (ms ++ [m]) := (List.perm_append_singleton m ms).symm
    rw [drafted?, drafted?, foldlM_addMember?_perm hlast, List.foldlM_append]
    cases hd : ms.foldlM (F.addMember? depth) (Draft.empty F) with
    | none => rfl
    | some d =>
      have hnew : d f = none := foldlM_addMember?_missing hms hd
      have hadd : [m].foldlM (F.addMember? depth) d = some (d.set f content) := by
        rw [List.foldlM_cons, addMember?, hentry, hmade, Option.map_some, Option.bind_some,
          Draft.add?_of_none hnew]
        rfl
      rw [Option.bind_some, ← record?_set_absent hnew habsent]
      exact (congrArg (·.bind F.record?) hadd).symm
  | symm _ ih => exact ih.symm
  | trans _ _ ih ih' => exact ih.trans ih'

/-- Values for all fields that are left make a draft with these contents. -/
theorem exists_addElements? {contents : (f : F.Field) → F.Content f} {fs : List F.Field}
    {es : List Padded}
    (h : List.Forall₂ (fun f e => made? (F.read f depth) e.core = some (contents f)) fs es)
    (d : F.Draft) :
    ∃ last, F.addElements? depth fs es d = some last ∧
      (∀ f ∈ fs, last f = some (contents f)) ∧ ∀ f ∉ fs, last f = d f := by
  induction h generalizing d with
  | nil => exact ⟨d, rfl, fun f hf => absurd hf List.not_mem_nil, fun f _ => rfl⟩
  | @cons f e fs es hmade _ ih =>
    obtain ⟨last, hlast, hmem, hother⟩ := ih (d.set f (contents f))
    refine ⟨last, ?_, ?_, ?_⟩
    · rw [addElements?, hmade]
      exact hlast
    · intro g hg
      -- a field that came twice would hold its last value, which is the same
      by_cases hrest : g ∈ fs
      · exact hmem g hrest
      · obtain rfl := (List.mem_cons.1 hg).resolve_right hrest
        rw [hother g hrest, Draft.set_same]
    · intro g hg
      obtain ⟨hne, hrest⟩ := not_or.1 fun hmem => hg (List.mem_cons.2 hmem)
      rw [hother g hrest, Draft.set_of_ne d _ (Ne.symm hne)]

/-- What is supplied for a field is read as what the members of the object say of it. -/
theorem Supplies.made (hsound : syn.Sound depth) {ms : List Member} {d : F.Draft}
    (hd : F.drafted? depth ms = some d) {f : F.Field} {e : Padded}
    (h : Supplies syn ms f e) : made? (F.read f depth) e.core = d.fill f := by
  rcases h with ⟨m, hm, hname, hcore⟩ | ⟨hnames, hstand⟩
  · obtain ⟨content, hmade, hheld⟩ := foldlM_addMember?_named hsound.keys hm hname hd
    rw [hcore, hmade, Draft.fill, hheld]
    rfl
  · obtain ⟨content, habsent, hmade⟩ := hsound.makes hstand
    rw [hmade, Draft.fill, foldlM_addMember?_missing hnames hd, habsent]
    rfl

/-- **An array that holds what the members of an object say is read as the same record.** -/
theorem Supplies.drafted (hsound : syn.Sound depth) {ms : List Member} {es : List Padded}
    (h : List.Forall₂ (Supplies syn ms) F.fields es) {r : ρ}
    (hobject : (F.drafted? depth ms).bind F.record? = some r) :
    (F.addElements? depth F.fields es (Draft.empty F)).bind F.record? = some r := by
  obtain ⟨d, hd, hrecord⟩ := Option.bind_eq_some_iff.1 hobject
  obtain ⟨contents, hfill, hmake⟩ := record?_eq_some.1 hrecord
  have hmade : List.Forall₂ (fun f e => made? (F.read f depth) e.core = some (contents f))
      F.fields es := h.imp fun f e hsupplies => (hsupplies.made hsound hd).trans (hfill f)
  obtain ⟨last, hlast, hmem, -⟩ := exists_addElements? hmade (Draft.empty F)
  rw [hlast, Option.bind_some]
  refine record?_eq_some.2 ⟨contents, fun f => ?_, hmake⟩
  rw [Draft.fill, hmem f (F.mem_fields f)]
  rfl

/-- What is supplied is a value. -/
theorem Supplies.isValue (hsound : syn.Sound depth) {ms : List Member} {fs : List F.Field}
    {es : List Padded} (h : List.Forall₂ (Supplies syn ms) fs es) :
    ∀ e ∈ es, ValueText e.core := by
  induction h with
  | nil => exact fun e he => absurd he List.not_mem_nil
  | cons he _ ih =>
    refine List.forall_mem_cons.2 ⟨?_, ih⟩
    rcases he with ⟨m, -, -, hcore⟩ | ⟨-, hstand⟩
    · rw [hcore]
      exact m.isValue
    · exact hsound.isValue hstand

end RecordFormat

end StreamControl.Json
