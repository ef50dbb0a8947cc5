import Mathlib.Data.List.DropRight
import Mathlib.Data.String.Basic
import StreamControl.Dispatch.Sink
import StreamControl.Proofs.Store.Listing

/-!
# Histories of a store

What a store answers depends on nothing but the calls made before and the times at which its nodes
were written.  A history lists these calls; what it says about a path stands apart from the store.

* `Write.node?` is the node that the writes to a path since it was last taken away lead to, and
  `Present` says that there was such a write.
* `DatedCall.makes` is what one call makes of the node at a path: for the store
  (`DatedCall.get?_perform`), and for what its history says (`held_concat`).
* `StoreCall.Answers` says by the history what each call gives.
-/

namespace StreamControl

/-! ## Calls -/

/-- A call to a store. -/
inductive StoreCall
  | put (path : String) (data : Bytes)
  | get (path : String)
  | remove (path : String)
  | contains (path : String)
  | list (start : String)
  | size
  | isEmpty
  | clear

namespace StoreCall

/-- What a call gives. -/
abbrev Answer : StoreCall → Type
  | .put _ _ | .get _ | .remove _ => Option Node
  | .contains _ | .isEmpty => Bool
  | .list _ => List String
  | .size => Nat
  | .clear => Unit

/-- Makes a call. -/
def perform : (call : StoreCall) → Step TimedStore call.Answer
  | .put path data => TimedStore.put path data
  | .get path => .on TimedStore.storePart (.view (·.get? path))
  | .remove path => TimedStore.remove path
  | .contains path => .on TimedStore.storePart (.view (·.contains path))
  | .list start => .on TimedStore.storePart (.view (·.list start))
  | .size => .on TimedStore.storePart (.view (·.size))
  | .isEmpty => .on TimedStore.storePart (.view (·.isEmpty))
  | .clear => TimedStore.clear

end StoreCall

/-- A call with what the clock showed when it was made. -/
structure DatedCall where
  call : StoreCall
  time : Int64

/-- Makes calls one after the other, each noted at the end of the history. -/
def TimedStore.performAll (calls : List StoreCall) (t : List DatedCall × TimedStore) :
    List DatedCall × TimedStore :=
  calls.foldl (fun (history, t) call =>
    (history ++ [⟨call, (TimedStore.now t).result⟩], (call.perform t).state)) t

theorem TimedStore.map_call_performAll (calls : List StoreCall)
    (t : List DatedCall × TimedStore) :
    (performAll calls t).1.map (·.call) = t.1.map (·.call) ++ calls := by
  induction calls generalizing t with
  | nil => exact (List.append_nil _).symm
  | cons call calls ih =>
    refine (ih _).trans ?_
    rw [List.map_append, List.append_assoc]
    rfl

/-! ## What a history says about a path -/

/-- What was written to a path, and when. -/
structure Write where
  data : Bytes
  time : Int64

namespace DatedCall

/-- What a call writes to a path. -/
def write? (path : String) : DatedCall → Option Write
  | ⟨.put other data, time⟩ => if other = path then some ⟨data, time⟩ else none
  | _ => none

/-- Whether a call takes the node at a path away. -/
def takes (path : String) : DatedCall → Bool
  | ⟨.remove other, _⟩ => other == path
  | ⟨.clear, _⟩ => true
  | _ => false

/-- What a call makes of the node at a path: it takes it away, writes it, or leaves it alone. -/
def makes (path : String) (c : DatedCall) (before : Option Node) : Option Node :=
  if c.takes path then none
  else match c.write? path with
    | none => before
    | some write => some (Store.written before write.data write.time)

end DatedCall

/-- The writes to a path since the last call that took the node there away, oldest first. -/
def writesTo (path : String) (history : List DatedCall) : List Write :=
  (history.rtakeWhile fun c => !c.takes path).filterMap (·.write? path)

/-- The node that writes lead to: the data of the last, how many there were as far as that can be
counted, and the times of the first and the last. -/
def Write.node? : List Write → Option Node
  | [] => none
  | first :: rest =>
    let last := (first :: rest).getLast (List.cons_ne_nil first rest)
    some
      { data := last.data
        metadata :=
          { version := .ofNat (min (first :: rest).length 0xFFFFFFFF)
            created := first.time
            updated := last.time } }

/-- The node at a path, by the history. -/
def held (path : String) (history : List DatedCall) : Option Node :=
  Write.node? (writesTo path history)

/-- A path was written to, and since then its node was not taken away. -/
def Present (path : String) (history : List DatedCall) : Prop :=
  ∃ before data time after, history = before ++ ⟨.put path data, time⟩ :: after ∧
    ∀ c ∈ after, c.takes path = false

/-- A path is that of `start`, less the slashes at its end, or goes on behind it with a slash. -/
def AtOrBelow (start path : String) : Prop :=
  ∃ base n, start.toList = base ++ List.replicate n '/' ∧ base.getLast? ≠ some '/' ∧
    (path.toList = base ∨ base ++ ['/'] <+: path.toList)

/-- What a call gives, by the history before it. -/
def StoreCall.Answers (history : List DatedCall) : (call : StoreCall) → call.Answer → Prop
  | .put path _, previous | .get path, previous | .remove path, previous =>
    previous = held path history
  | .contains path, found => found = true ↔ Present path history
  | .list start, paths => paths.Pairwise (· < ·) ∧
    ∀ path, path ∈ paths ↔ Present path history ∧ AtOrBelow start path
  | .size, n => ∃ paths : List String, paths.Nodup ∧
    (∀ path, path ∈ paths ↔ Present path history) ∧ n = paths.length
  | .isEmpty, given => given = true ↔ ∀ path, ¬Present path history
  | .clear, _ => True

/-! ## One more call -/

theorem writesTo_concat (path : String) (history : List DatedCall) (c : DatedCall) :
    writesTo path (history ++ [c]) =
      if c.takes path = true then [] else writesTo path history ++ (c.write? path).toList := by
  unfold writesTo
  rw [List.rtakeWhile_concat]
  by_cases htakes : c.takes path = true
  · simp [htakes]
  · rcases hwrite : c.write? path with _ | write
    · simp [htakes, hwrite]
    · simp [htakes, hwrite]

theorem toNat_ofNat_saturated (n : Nat) :
    (UInt32.ofNat (min n 0xFFFFFFFF)).toNat = min n 0xFFFFFFFF := by
  rw [UInt32.toNat_ofNat']
  omega

/-- One more write is counted unless the count is at its greatest value. -/
theorem Metadata.update_version_ofNat (n : Nat) (created updated now : Int64) :
    (Metadata.update ⟨.ofNat (min n 0xFFFFFFFF), created, updated⟩ now) =
      ⟨.ofNat (min (n + 1) 0xFFFFFFFF), created, now⟩ := by
  have hversion : (Metadata.update ⟨.ofNat (min n 0xFFFFFFFF), created, updated⟩ now).version =
      .ofNat (min (n + 1) 0xFFFFFFFF) := by
    apply UInt32.toNat_inj.1
    rw [toNat_version_update, toNat_ofNat_saturated, toNat_ofNat_saturated]
    omega
  rw [← hversion]
  rfl

/-- One more write makes of the node what the store makes of it. -/
theorem Write.node?_concat (writes : List Write) (write : Write) :
    node? (writes ++ [write]) = some (Store.written (node? writes) write.data write.time) := by
  cases writes with
  | nil => rfl
  | cons first rest =>
    have hlast : (first :: (rest ++ [write])).getLast (List.cons_ne_nil _ _) = write := by
      simp
    rw [List.cons_append]
    simp only [node?, Store.written, hlast, Metadata.update_version_ofNat, List.length_cons,
      List.length_append, List.length_nil]

/-- Writes lead to a node exactly if it holds the data of the last, counts them as far as it can,
and has the times of the first and the last. -/
theorem Write.node?_eq_some_iff {writes : List Write} {node : Node} :
    node? writes = some node ↔ ∃ first last,
      writes.head? = some first ∧ writes.getLast? = some last ∧
      node.data = last.data ∧ node.metadata.version.toNat = min writes.length 0xFFFFFFFF ∧
      node.metadata.created = first.time ∧ node.metadata.updated = last.time := by
  cases writes with
  | nil => simp [node?]
  | cons first rest =>
    have hlast := List.getLast?_eq_some_getLast (List.cons_ne_nil first rest)
    constructor
    · intro hnode
      obtain rfl := Option.some.inj hnode
      exact ⟨first, _, rfl, hlast, rfl, toNat_ofNat_saturated _, rfl, rfl⟩
    · rintro ⟨_, _, ⟨⟩, hgetLast, hdata, hversion, hcreated, hupdated⟩
      obtain rfl := Option.some.inj (hlast.symm.trans hgetLast)
      obtain ⟨data, version, created, updated⟩ := node
      -- a version is determined by what it counts, as both sides saturate alike
      have hsaturated : version = .ofNat (min (first :: rest).length 0xFFFFFFFF) :=
        UInt32.toNat_inj.1 (hversion.trans (toNat_ofNat_saturated _).symm)
      subst hdata hsaturated hcreated hupdated
      rfl

/-- A history with one more call says what the call makes of the node. -/
theorem held_concat (path : String) (history : List DatedCall) (c : DatedCall) :
    held path (history ++ [c]) = c.makes path (held path history) := by
  unfold held DatedCall.makes
  rw [writesTo_concat]
  by_cases htakes : c.takes path = true
  · rw [if_pos htakes, if_pos htakes]
    rfl
  · rw [if_neg htakes, if_neg htakes]
    rcases c.write? path with _ | write
    · exact congrArg _ (List.append_nil _)
    · exact Write.node?_concat _ _

/-- The store does to the node at a path what the call makes of it. -/
theorem DatedCall.get?_perform (call : StoreCall) (t : TimedStore) (path : String) :
    (call.perform t).state.store.get? path =
      makes path ⟨call, (TimedStore.now t).result⟩ (t.store.get? path) := by
  -- only three kinds of call write or take away
  cases call with
  | put other data =>
    change (t.store.put other data _).2.get? path = _
    rw [Store.get?_put]
    by_cases hpath : other = path
    · simp only [makes, takes, write?, hpath]
      rfl
    · simp only [makes, takes, write?, if_neg hpath]
      rfl
  | remove other =>
    change (t.store.remove other).2.get? path = _
    rw [Store.get?_remove]
    by_cases hpath : other = path
    · simp [makes, takes, hpath]
    · simp [makes, takes, write?, hpath]
  | clear => exact Store.get?_empty path
  | _ => rfl

/-! ## Presence -/

theorem DatedCall.write?_eq_some_iff {path : String} {c : DatedCall} {write : Write} :
    c.write? path = some write ↔ c = ⟨.put path write.data, write.time⟩ := by
  obtain ⟨call, time⟩ := c
  cases call with
  | put other data =>
    rw [write?]
    -- a call writes to its own path and to no other
    by_cases hpath : other = path
    · rw [if_pos hpath, hpath, Option.some.injEq]
      constructor
      · rintro rfl
        rfl
      · intro hput
        cases hput
        rfl
    · rw [if_neg hpath]
      constructor
      · intro hnone
        contradiction
      · intro hput
        cases hput
        exact absurd rfl hpath
  | _ => exact ⟨nofun, nofun⟩

theorem held_isSome_iff {path : String} {history : List DatedCall} :
    (held path history).isSome = true ↔ writesTo path history ≠ [] := by
  unfold held
  rcases writesTo path history with _ | ⟨first, rest⟩
  · simp [Write.node?]
  · simp [Write.node?]

/-- A path has a node by the history exactly if it was written to and not taken away since. -/
theorem present_iff {path : String} {history : List DatedCall} :
    Present path history ↔ (held path history).isSome = true := by
  rw [held_isSome_iff]
  constructor
  · rintro ⟨before, data, time, after, rfl, hafter⟩
    -- the write and all calls behind it are among those since the path was last taken away
    have hkept : ∀ c ∈ (⟨.put path data, time⟩ :: after : List DatedCall).reverse,
        (!c.takes path) = true := by
      intro c hc
      rcases List.mem_cons.1 (List.mem_reverse.1 hc) with rfl | hc
      · rfl
      · rw [hafter c hc]
        rfl
    have hwrite : DatedCall.write? path ⟨.put path data, time⟩ = some ⟨data, time⟩ :=
      DatedCall.write?_eq_some_iff.2 rfl
    unfold writesTo
    rw [List.rtakeWhile, List.reverse_append, List.takeWhile_append_of_pos hkept,
      List.reverse_append, List.reverse_reverse, List.filterMap_append,
      List.filterMap_cons_some hwrite]
    exact List.append_ne_nil_of_right_ne_nil _ (List.cons_ne_nil _ _)
  · intro hwrites
    obtain ⟨write, hwrite⟩ := List.exists_mem_of_ne_nil _ hwrites
    obtain ⟨c, hc, hwrote⟩ := List.mem_filterMap.1 hwrite
    obtain ⟨skipped, after, hsplit⟩ := List.append_of_mem hc
    obtain rfl := DatedCall.write?_eq_some_iff.1 hwrote
    -- no call is skipped that took the path away
    have hhistory := List.rdropWhile_append_rtakeWhile
      (p := fun c : DatedCall => !c.takes path) (l := history)
    rw [hsplit, ← List.append_assoc] at hhistory
    refine ⟨_, write.data, write.time, after, hhistory.symm, ?_⟩
    intro c hafter
    have hmem : c ∈ history.rtakeWhile fun c => !c.takes path := by
      rw [hsplit]
      exact List.mem_append_right _ (List.mem_cons_of_mem _ hafter)
    have hkept := List.mem_rtakeWhile_imp (p := fun c : DatedCall => !c.takes path) hmem
    simpa using hkept

/-- What a listing covers is what the levels of the path asked for say. -/
theorem covers_trimSlashes_iff {start path : String} :
    Path.covers (Path.trimSlashes start) path = true ↔ AtOrBelow start path := by
  have hcovers : Path.covers (Path.trimSlashes start) path = true ↔
      path.toList = (Path.trimSlashes start).toList ∨
        (Path.trimSlashes start).toList ++ ['/'] <+: path.toList := by
    rw [Path.covers, Bool.or_eq_true, beq_iff_eq, List.isPrefixOf_iff_prefix, String.toList_inj]
  rw [hcovers]
  constructor
  · -- trimming takes all slashes at the end, so what is left does not end in one
    intro hpath
    obtain ⟨n, hn⟩ := Path.exists_slashes_trimmed start
    refine ⟨(Path.trimSlashes start).toList, n, hn, fun hslash => ?_, hpath⟩
    rw [Path.toList_trimSlashes] at hslash
    have hne : start.toList.rdropWhile (· == '/') ≠ [] := by
      intro hnil
      rw [hnil] at hslash
      contradiction
    rw [← List.getLast_eq_iff_getLast?_eq_some hne] at hslash
    exact List.rdropWhile_last_not _ _ hne (beq_iff_eq.2 hslash)
  · rintro ⟨base, n, hstart, hbase, hpath⟩
    -- a base without a slash at its end is what trimming leaves
    have htrimmed : (Path.trimSlashes start).toList = base := by
      rw [Path.toList_trimSlashes, hstart, Path.rdropWhile_slashes,
        List.rdropWhile_eq_self_iff]
      intro hne hslash
      exact hbase ((List.getLast_eq_iff_getLast?_eq_some hne).1 (beq_iff_eq.1 hslash))
    rw [htrimmed]
    exact hpath

/-! ## What the history says of a store -/

/-- The node at every path is the one that the history tells of. -/
def TimedStore.Told (history : List DatedCall) (t : TimedStore) : Prop :=
  ∀ path, t.store.get? path = held path history

namespace TimedStore.Told

variable {history : List DatedCall} {t : TimedStore}

/-- A call keeps the history right. -/
theorem perform (h : Told history t) (call : StoreCall) :
    Told (history ++ [⟨call, (now t).result⟩]) (call.perform t).state := by
  intro path
  rw [DatedCall.get?_perform, held_concat, h path]

theorem performAll (h : Told history t) (calls : List StoreCall) :
    Told (performAll calls (history, t)).1 (performAll calls (history, t)).2 := by
  induction calls generalizing history t with
  | nil => exact h
  | cons call calls ih => exact ih (h.perform call)

theorem contains_iff (h : Told history t) (path : String) :
    t.store.contains path = true ↔ Present path history := by
  rw [Store.contains, h path, present_iff]

/-- The paths that the store keeps its nodes under are those that are present. -/
theorem mem_keys_iff (h : Told history t) (path : String) :
    path ∈ t.store.nodes.keys ↔ Present path history := by
  rw [← h.contains_iff, Std.ExtTreeMap.mem_keys, ← Std.ExtTreeMap.isSome_getElem?_iff_mem]
  rfl

/-- What a call gives is what the history says. -/
theorem answers (h : Told history t) (call : StoreCall) :
    call.Answers history (call.perform t).result := by
  -- what a call gives is read off the nodes, and the history tells of each of them
  cases call with
  | put path data => exact h path
  | get path => exact h path
  | remove path => exact h path
  | contains path => exact h.contains_iff path
  | list start =>
    have hsorted : (t.store.list start).Pairwise (· < ·) :=
      (t.store.list_sorted start).imp compare_lt_iff_lt.1
    refine ⟨hsorted, fun path => ?_⟩
    rw [← h.contains_iff, ← covers_trimSlashes_iff]
    exact t.store.mem_list start path
  | size =>
    exact ⟨t.store.nodes.keys, Std.ExtTreeMap.nodup_keys, h.mem_keys_iff,
      Std.ExtTreeMap.length_keys.symm⟩
  | isEmpty =>
    have hempty : t.store.isEmpty = true ↔ t.store.nodes.keys = [] := by
      rw [Store.isEmpty, ← Std.ExtTreeMap.isEmpty_keys, List.isEmpty_iff]
    change t.store.isEmpty = true ↔ _
    rw [hempty, List.eq_nil_iff_forall_not_mem]
    exact forall_congr' fun path => not_congr (h.mem_keys_iff path)
  | clear => trivial

end TimedStore.Told

/-! ## Main result -/

/-- **A store is a versioned map.**  After any calls to an empty store, whatever its clock shows, the
node at every path is the one that the history tells of: it is there exactly if the path was written
to and not taken away since, and then it holds the data of the last write, counts the writes since
then as far as it can, and has the times of the first and the last.  Whatever is called next gives
what the history says, and leaves the nodes alone that it neither writes nor takes away. -/
theorem TimedStore.follows_history (clock : Clock) (calls : List StoreCall) :
    let reached := performAll calls ([], ⟨.empty, clock⟩)
    let history := reached.1
    let t := reached.2
    history.map (·.call) = calls ∧
      (∀ path,
        (t.store.contains path = true ↔ Present path history) ∧
        ∀ node, t.store.get? path = some node ↔ ∃ first last,
          (writesTo path history).head? = some first ∧
          (writesTo path history).getLast? = some last ∧
          node.data = last.data ∧
          node.metadata.version.toNat = min (writesTo path history).length 0xFFFFFFFF ∧
          node.metadata.created = first.time ∧ node.metadata.updated = last.time) ∧
      ∀ call : StoreCall,
        let next : DatedCall := ⟨call, (now t).result⟩
        let ran := call.perform t
        call.Answers history ran.result ∧
          ∀ path, next.takes path = false → next.write? path = none →
            ran.state.store.get? path = t.store.get? path := by
  intro reached history t
  -- the empty store is what an empty history tells of; every call keeps that
  have hstart : Told [] ⟨.empty, clock⟩ := by
    intro path
    exact Store.get?_empty path
  have htold : Told history t := hstart.performAll calls
  refine ⟨map_call_performAll calls _, ?_, ?_⟩
  · intro path
    refine ⟨htold.contains_iff path, ?_⟩
    intro node
    rw [htold path]
    exact Write.node?_eq_some_iff
  · intro call next ran
    refine ⟨htold.answers call, ?_⟩
    intro path htakes hwrite
    have hleft : next.makes path (t.store.get? path) = t.store.get? path := by
      rw [DatedCall.makes, htakes, hwrite]
      rfl
    exact (DatedCall.get?_perform call t path).trans hleft

/-- A node that was taken away and is written again starts over; a listing keeps to whole levels. -/
example :
    let calls : List StoreCall := [.put "/acks/s1" [1], .put "/acks/s1" [2], .remove "/acks/s1",
      .put "/acks/s10/r1" [3], .put "/acks/s1" [4], .put "/acks/s1/r1" []]
    let reached := TimedStore.performAll calls ([], ⟨.empty, ⟨fun n => .ofNat n, 0⟩⟩)
    reached.2.store.get? "/acks/s1" = some ⟨[4], ⟨1, 3, 3⟩⟩ ∧
      reached.2.store.list "/acks/s1//" = ["/acks/s1", "/acks/s1/r1"] := by
  decide +kernel

end StreamControl
