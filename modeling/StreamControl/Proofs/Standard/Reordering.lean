import Mathlib.Data.List.FinRange
import Mathlib.Data.List.Perm.Basic
import StreamControl.Proofs.Standard.Locality

/-!
# The order of messages about different streams

A batch may be rearranged as long as messages about one stream keep their order (`Reordering`): the
streams, the reports and the fate of every message stay the same
(`Standard.Wiring.dispatch_reordered`).

What a message finds of its stream depends on the earlier messages about this stream.  They are the
same in both batches (`Reordering.take_filter`), whatever stands between them.
-/

namespace StreamControl

variable {σ : Type}

/-! ## Counting in any order -/

instance : RightCommutative Report.record where
  right_comm := by
    intro report a b
    have hrecord : ∀ (r : Report) (o : Outcome), r.record o = r.merge (.tally [o]) :=
      fun r o => (r.merge_record .zero o).symm
    rw [hrecord, hrecord, hrecord, hrecord, Report.merge_assoc, Report.merge_assoc,
      Report.merge_comm (.tally [a])]

theorem Report.tally_perm {outcomes outcomes' : List Outcome} (h : outcomes.Perm outcomes') :
    tally outcomes = tally outcomes' := h.foldl_eq zero

/-- A list whose members were moved to other places is a permutation. -/
theorem perm_of_moved {α : Type} {l l' : List α} {n n' : Nat} (move : Fin n ≃ Fin n')
    (hlength : l.length = n) (hlength' : l'.length = n')
    (h : ∀ i, l'[(move i).val]? = l[i.val]?) : l'.Perm l := by
  subst hlength hlength'
  -- the places themselves are permuted; reading off their members gives the lists
  have hplaces : ((List.finRange l.length).map move).Perm (List.finRange l'.length) := by
    have hnodup := (List.nodup_finRange l.length).map move.injective
    refine (List.perm_ext_iff_of_nodup hnodup (List.nodup_finRange l'.length)).2 ?_
    intro j
    have hj : j ∈ (List.finRange l.length).map move :=
      List.mem_map.2 ⟨move.symm j, List.mem_finRange _, move.apply_symm_apply j⟩
    exact iff_of_true hj (List.mem_finRange j)
  have hmembers : (fun i => l'[i]) ∘ move = fun i => l[i] := by
    funext i
    have hi := h i
    rw [List.getElem?_eq_getElem i.isLt, List.getElem?_eq_getElem (move i).isLt] at hi
    exact Option.some.inj hi
  have hl : (List.finRange l.length).map (fun i => l[i]) = l := List.map_getElem_finRange l
  have hl' : (List.finRange l'.length).map (fun i => l'[i]) = l' := List.map_getElem_finRange l'
  have hmap := hplaces.map fun i => l'[i]
  rw [hl', List.map_map, hmembers, hl] at hmap
  exact hmap.symm

/-! ## Reorderings -/

/-- A rearrangement of a batch in which messages that name the same stream keep their order. -/
structure Reordering (batch batch' : List Message) where
  /-- Where each message goes. -/
  move : Fin batch.length ≃ Fin batch'.length
  same : ∀ i, batch'[move i] = batch[i]
  keeps : ∀ i j, i < j → ∀ stream, batch[i].stream? = some stream →
    batch[j].stream? = some stream → move i < move j

/-! ### Places -/

section Places

variable {α : Type} {about : α → Bool} {l : List α} {k : Nat}

/-- The places below a bound where a list has a member that is about something, in order. -/
def placesBelow (about : α → Bool) (l : List α) (k : Nat) : List (Fin l.length) :=
  ((List.finRange l.length).take k).filter fun i => about l[i]

theorem mem_placesBelow {i : Fin l.length} :
    i ∈ placesBelow about l k ↔ i.val < k ∧ about l[i] = true := by
  -- places are taken in order, so those taken are those below the cut
  unfold placesBelow
  rw [List.mem_filter, List.mem_take_iff_getElem]
  refine and_congr_left ?_
  intro _
  constructor
  · rintro ⟨j, hj, rfl⟩
    rw [List.getElem_finRange]
    exact (Nat.lt_min.1 hj).1
  · intro hi
    refine ⟨i, ?_, ?_⟩
    · rw [List.length_finRange]
      exact Nat.lt_min.2 ⟨hi, i.isLt⟩
    · rw [List.getElem_finRange]
      rfl

theorem pairwise_placesBelow (about : α → Bool) (l : List α) (k : Nat) :
    (placesBelow about l k).Pairwise (· < ·) :=
  ((List.pairwise_lt_finRange l.length).take).filter _

/-- Two ascending lists with the same members are the same. -/
theorem eq_of_ascending {n : Nat} {places places' : List (Fin n)} (h : places.Pairwise (· < ·))
    (h' : places'.Pairwise (· < ·)) (hmem : ∀ i, i ∈ places ↔ i ∈ places') : places = places' := by
  have hperm : places.Perm places' :=
    (List.perm_ext_iff_of_nodup (h.imp ne_of_lt) (h'.imp ne_of_lt)).2 hmem
  refine List.Perm.eq_of_pairwise ?_ h h' hperm
  intro i j _ _ hlt hgt
  exact absurd hgt (lt_asymm hlt)

theorem map_placesBelow (about : α → Bool) (l : List α) (k : Nat) :
    (placesBelow about l k).map (l[·]) = (l.take k).filter about := by
  have hplaces : placesBelow about l k =
      ((List.finRange l.length).take k).filter (about ∘ (l[·])) := rfl
  have hall : (List.finRange l.length).map (l[·]) = l := List.map_getElem_finRange l
  rw [hplaces, ← List.filter_map, List.map_take, hall]

end Places

namespace Reordering

variable {batch batch' : List Message} {stream : String} {q q' : Policy Streams}

/-- Cut both batches so that the same messages about a stream come before the cuts: their places in one
batch go to their places in the other. -/
theorem map_placesBelow_move (r : Reordering batch batch') {k k' : Nat}
    (hcut : ∀ i, batch[i].stream? = some stream → (i.val < k ↔ (r.move i).val < k')) :
    (placesBelow (·.stream? = some stream) batch k).map r.move =
      placesBelow (·.stream? = some stream) batch' k' := by
  -- both lists ascend, so it is enough that they have the same members
  refine eq_of_ascending ?_ (pairwise_placesBelow _ _ _) ?_
  · refine List.pairwise_map.2 (List.Pairwise.imp_of_mem ?_ (pairwise_placesBelow _ _ _))
    intro i j hi hj hlt
    have hstream := of_decide_eq_true (mem_placesBelow.1 hi).2
    have hstream' := of_decide_eq_true (mem_placesBelow.1 hj).2
    exact r.keeps i j hlt stream hstream hstream'
  · intro j
    obtain ⟨i, rfl⟩ := r.move.surjective j
    rw [List.mem_map_of_injective r.move.injective, mem_placesBelow, mem_placesBelow, r.same i,
      decide_eq_true_iff]
    constructor
    · rintro ⟨hlt, hstream⟩
      exact ⟨(hcut i hstream).1 hlt, hstream⟩
    · rintro ⟨hlt, hstream⟩
      exact ⟨(hcut i hstream).2 hlt, hstream⟩

/-- Before such cuts, both batches have the same messages about the stream in the same order. -/
theorem take_filter (r : Reordering batch batch') {k k' : Nat}
    (hcut : ∀ i, batch[i].stream? = some stream → (i.val < k ↔ (r.move i).val < k')) :
    (batch.take k).filter (·.stream? = some stream) =
      (batch'.take k').filter (·.stream? = some stream) := by
  rw [← map_placesBelow, ← map_placesBelow, ← r.map_placesBelow_move hcut, List.map_map]
  refine List.map_congr_left ?_
  intro i _
  exact (r.same i).symm

/-! ### Passes over a reordered batch -/

/-- What becomes of a stream is decided by the messages about it. -/
theorem agreeOn_take (r : Reordering batch batch') (hlocal : q.Local) {k k' : Nat}
    (hcut : ∀ i, batch[i].stream? = some stream → (i.val < k ↔ (r.move i).val < k')) (t : Streams) :
    (q.afterAll (batch.take k) t).AgreeOn {stream} (q.afterAll (batch'.take k') t) := by
  -- a local policy sees of a stream only the messages about it, and these are the same up to the
  -- cuts
  have hpass : ∀ ms, (q.afterAll ms t).AgreeOn {stream}
      (q.afterAll (ms.filter (·.stream? = some stream)) t) := by
    intro ms
    refine hlocal.afterAll_filter ?_ (.refl {stream} t)
    intro m _ hm
    right
    rintro other hother rfl
    exact of_decide_eq_false hm hother
  have hfirst := hpass (batch.take k)
  rw [r.take_filter hcut] at hfirst
  exact hfirst.trans (hpass (batch'.take k')).symm

theorem afterAll_eq (r : Reordering batch batch') (hlocal : q.Local) (t : Streams) :
    q.afterAll batch' t = q.afterAll batch t := by
  -- each stream alone is the same with both batches cut at their ends
  have hagree : ∀ stream, (q.afterAll batch t).AgreeOn {stream} (q.afterAll batch' t) := by
    intro stream
    have hcut : ∀ i, batch[i].stream? = some stream →
        (i.val < batch.length ↔ (r.move i).val < batch'.length) :=
      fun i _ => iff_of_true i.isLt (r.move i).isLt
    have hall := r.agreeOn_take hlocal hcut t
    rw [List.take_length, List.take_length] at hall
    exact hall
  refine Streams.ext_get? ?_ (hagree "").operations.symm
  intro stream
  exact ((hagree stream).streams stream rfl).symm

/-- The message at a place finds its stream as it finds it in the other batch. -/
theorem answer_move (r : Reordering batch batch') (hlocal : q.Local) (t : Streams)
    (i : Fin batch.length) :
    q.answer batch'[r.move i] (q.afterAll (batch'.take (r.move i)) t) =
      q.answer batch[i] (q.afterAll (batch.take i) t) := by
  rw [r.same i]
  rcases hstream : batch[i].stream? with _ | stream
  · -- a message without a stream looks at none
    have hagree := (hlocal.agreeOn_empty (batch'.take (r.move i)) t).trans
      (hlocal.agreeOn_empty (batch.take i) t).symm
    have hwithin : batch[i].Within ∅ := by
      intro stream hsome
      cases hstream.symm.trans hsome
    exact (hlocal.within hwithin hagree).1
  · -- messages about the same stream keep their order, so the same ones stand before either place
    have hcut : ∀ j, batch[j].stream? = some stream →
        (j.val < i.val ↔ (r.move j).val < (r.move i).val) := by
      intro j hj
      constructor
      · intro hlt
        exact r.keeps j i hlt stream hj hstream
      · intro hlt
        rcases lt_trichotomy j i with hbefore | rfl | hbehind
        · exact hbefore
        · exact absurd hlt (lt_irrefl _)
        · exact absurd hlt (lt_asymm (r.keeps i j hbehind stream hstream hj))
    have hwithin : batch[i].Within {stream} := by
      intro other hother
      exact Option.some.inj (hother.symm.trans hstream)
    exact (hlocal.within hwithin (r.agreeOn_take hlocal hcut t).symm).1

theorem getElem?_move (r : Reordering batch batch') (i : Fin batch.length) :
    batch'[(r.move i).val]? = some batch[i] := by
  rw [List.getElem?_eq_getElem (r.move i).isLt]
  exact congrArg some (r.same i)

theorem answers_move (r : Reordering batch batch') (hlocal : q.Local) (t : Streams)
    (i : Fin batch.length) :
    (q.answers batch' t)[(r.move i).val]? = (q.answers batch t)[i.val]? := by
  have hmessage : batch[i.val]? = some batch[i] := List.getElem?_eq_getElem i.isLt
  rw [Policy.getElem?_answers, Policy.getElem?_answers, r.getElem?_move, hmessage]
  have hanswer := r.answer_move hlocal t i
  rw [r.same i] at hanswer
  exact congrArg some hanswer

/-- Both batches end in the same counts. -/
theorem report_eq (r : Reordering batch batch') (hlocal : q.Local) (t : Streams) :
    q.report batch' t = q.report batch t :=
  Report.tally_perm ((perm_of_moved r.move (q.length_answers batch t)
    (q.length_answers batch' t) (r.answers_move hlocal t)).map (·.1))

/-- Every message meets the same fates. -/
theorem entries_move (r : Reordering batch batch') (hlocal : q.Local) (hlocal' : q'.Local)
    (t t' : Streams) (i : Fin batch.length) :
    (q.entries q' batch' t t')[(r.move i).val]? = (q.entries q' batch t t')[i.val]? := by
  have hmessage : batch'[(r.move i).val]? = batch[i.val]? := by
    rw [r.getElem?_move i, List.getElem?_eq_getElem i.isLt]
    rfl
  simp only [Policy.entries, List.zip, List.getElem?_zipWith, hmessage, r.answers_move hlocal,
    r.answers_move hlocal']

end Reordering

/-! ## Main result -/

namespace Standard

/-- **Only the order of messages about one stream matters.**  Rearrange a batch without exchanging
messages that name the same stream: it ends with the same streams and the same reports, and every
message meets the same fate at each processor, down to the reply. -/
theorem Wiring.dispatch_reordered (w : Wiring σ) (s : σ) {batch batch' : List Message}
    (r : Reordering batch batch') :
    w.streams (w.registry.dispatch batch' s).state =
        w.streams (w.registry.dispatch batch s).state ∧
      (∃ reports, (w.registry.dispatch batch' s).result = .ok reports ∧
        (w.registry.dispatch batch s).result = .ok reports) ∧
      ∀ i : Fin batch.length, ∃ entry, (w.registry.account batch' s)[(r.move i).val]? = some entry ∧
        (w.registry.account batch s)[i.val]? = some entry := by
  obtain ⟨hresult, hstreams⟩ := w.dispatch_eq batch s
  obtain ⟨hresult', hstreams'⟩ := w.dispatch_eq batch' s
  -- the first pass ends alike, so the second one begins alike
  have hdefined := r.afterAll_eq local_definitionPolicy (w.streams s)
  refine ⟨?_, ?_, ?_⟩
  · rw [hstreams, hstreams', hdefined]
    exact r.afterAll_eq local_insertPolicy _
  · have hreport := r.report_eq local_definitionPolicy (w.streams s)
    have hreport' := r.report_eq local_insertPolicy
      (definitionPolicy.afterAll batch (w.streams s))
    rw [hdefined, hreport, hreport'] at hresult'
    exact ⟨_, hresult', hresult⟩
  · intro i
    have hi : i.val < (w.registry.account batch s).length := by
      rw [Registry.account, List.length_mapIdx]
      exact i.isLt
    have hentry := List.getElem?_eq_getElem hi
    refine ⟨_, ?_, hentry⟩
    rw [← hentry, account_eq, account_eq, hdefined]
    exact r.entries_move local_definitionPolicy local_insertPolicy _ _ i

/-- The creations of two streams change places: the event for one of them still finds its stream. -/
theorem Wiring.dispatch_reordered_creations :
    let w := Wiring.engine Config.default
    let s := Engine.new Config.default (.still 0)
    let orders := Message.addressed "CREATE" "orders"
    let users := Message.addressed "CREATE" "users"
    let insert := Message.addressed "INSERT" "orders"
    ∃ r : Reordering [orders, users, insert] [users, orders, insert],
      r.move 0 = 1 ∧ r.move 1 = 0 ∧ r.move 2 = 2 ∧
        w.streams (w.registry.dispatch [users, orders, insert] s).state =
          w.streams (w.registry.dispatch [orders, users, insert] s).state ∧
        (w.registry.account [users, orders, insert] s)[2]? =
          some ⟨insert, [.dropped, .ended (.completed false, none)]⟩ := by
  intro w s orders users insert
  have hsame : ∀ i : Fin 3, [users, orders, insert][Equiv.swap 0 1 i] =
      [orders, users, insert][i] := by decide
  have hkeeps : ∀ i j : Fin 3, i < j → [orders, users, insert][i].stream? =
      [orders, users, insert][j].stream? → Equiv.swap 0 1 i < Equiv.swap 0 1 j := by decide
  obtain ⟨r, hmove⟩ : ∃ r : Reordering [orders, users, insert] [users, orders, insert],
      r.move 0 = 1 ∧ r.move 1 = 0 ∧ r.move 2 = 2 := by
    refine ⟨⟨Equiv.swap (0 : Fin 3) 1, hsame, ?_⟩, rfl, rfl, rfl⟩
    intro i j hlt stream hi hj
    exact hkeeps i j hlt (hi.trans hj.symm)
  refine ⟨r, hmove.1, hmove.2.1, hmove.2.2, (w.dispatch_reordered s r).1, ?_⟩
  dsimp only [w, s, users, orders, insert]
  decide +kernel

end Standard

end StreamControl
