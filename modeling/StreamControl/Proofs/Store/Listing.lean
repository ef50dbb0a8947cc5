import Mathlib.Data.List.DropRight
import StreamControl.Proofs.Store.Paths
import StreamControl.Store.Acknowledgment

/-!
# Listings follow the levels of paths

A path begins with its root, less the slashes at the end of it, and goes on with its levels.  Three
facts about paths make a listing exact.

* No path ends in a slash unless it has no levels, so a path is its own trimmed form
  (`trimSlashes_join`) and the trimming of `Store.list` does nothing to it.
* The levels can also be read off from the end, so paths with equally many levels tell their roots
  apart (`join_eq_join_iff`).
* One path covers another exactly if its levels are the first levels of the other
  (`covers_join_iff`).
-/

namespace StreamControl

namespace Path

/-! ## Slashes at the end -/

/-- Two roots differ at most in how many slashes they end with. -/
def SameRoot (root root' : String) : Prop :=
  ∃ core m n, root.toList = core ++ List.replicate m '/' ∧
    root'.toList = core ++ List.replicate n '/'

theorem toList_trimSlashes (s : String) :
    (trimSlashes s).toList = s.toList.rdropWhile (· == '/') := String.toList_ofList

/-- What is trimmed off is slashes and nothing else. -/
theorem exists_slashes_trimmed (s : String) :
    ∃ n, s.toList = (trimSlashes s).toList ++ List.replicate n '/' := by
  have hsplit := List.rdropWhile_append_rtakeWhile (p := (· == '/')) (l := s.toList)
  have hslashes : ∀ c ∈ s.toList.rtakeWhile (· == '/'), c = '/' := by
    intro c hc
    exact beq_iff_eq.1 (List.mem_rtakeWhile_imp (p := (· == '/')) hc)
  refine ⟨(s.toList.rtakeWhile (· == '/')).length, ?_⟩
  rw [toList_trimSlashes, ← List.eq_replicate_of_mem hslashes, hsplit]

theorem rdropWhile_slashes (core : List Char) (n : Nat) :
    (core ++ List.replicate n '/').rdropWhile (· == '/') = core.rdropWhile (· == '/') := by
  induction n with
  | zero => rw [List.replicate_zero, List.append_nil]
  | succ n ih =>
    rw [List.replicate_succ', ← List.append_assoc, List.rdropWhile_concat_pos _ _ _ rfl]
    exact ih

/-- Two roots have the same trimmed form exactly if they differ in slashes at the end alone. -/
theorem trimSlashes_eq_iff {root root' : String} :
    trimSlashes root = trimSlashes root' ↔ SameRoot root root' := by
  constructor
  · intro htrimmed
    obtain ⟨m, hm⟩ := exists_slashes_trimmed root
    obtain ⟨n, hn⟩ := exists_slashes_trimmed root'
    exact ⟨(trimSlashes root).toList, m, n, hm, by rw [hn, htrimmed]⟩
  · rintro ⟨core, m, n, hm, hn⟩
    apply String.toList_inj.1
    rw [toList_trimSlashes, toList_trimSlashes, hm, hn, rdropWhile_slashes, rdropWhile_slashes]

/-! ## The characters of a path -/

theorem toList_join (root : String) (levels : List String) :
    (join root levels).toList = (trimSlashes root).toList ++ levels.flatMap segment := by
  rw [join, String.toList_append, String.toList_ofList]

theorem escape_ne_nil (level : List Char) : escape level ≠ [] := by
  unfold escape
  split
  · exact List.cons_ne_nil _ _
  · rename_i hlevel
    obtain ⟨c, rest, rfl⟩ := List.exists_cons_of_ne_nil hlevel
    simp [escapeChar_ne_nil]

/-- The last level of a path stands behind a slash and holds none. -/
theorem toList_join_concat (root : String) (levels : List String) (level : String) :
    (join root (levels ++ [level])).toList =
      (join root levels).toList ++ '/' :: escape level.toList := by
  rw [toList_join, toList_join, List.flatMap_append, List.flatMap_singleton, List.append_assoc]
  rfl

/-- A path is its own trimmed form. -/
theorem trimSlashes_join (root : String) (levels : List String) :
    trimSlashes (join root levels) = join root levels := by
  apply String.toList_inj.1
  rw [toList_trimSlashes]
  rcases List.eq_nil_or_concat levels with rfl | ⟨before, level, rfl⟩
  · -- without levels the path is the trimmed root
    rw [toList_join, List.flatMap_nil, List.append_nil, toList_trimSlashes]
    exact List.rdropWhile_idempotent _ _
  · rw [List.concat_eq_append, toList_join_concat, List.rdropWhile_eq_self_iff]
    intro hne hslash
    -- the last level is escaped, so it is not empty and holds no slash
    have hlast := List.getLast_append_of_ne_nil hne (List.cons_ne_nil '/' (escape level.toList))
    rw [hlast, List.getLast_cons (escape_ne_nil _)] at hslash
    have hmem := List.getLast_mem (escape_ne_nil level.toList)
    rw [beq_iff_eq.1 hslash] at hmem
    exact slash_notMem_escape _ hmem

/-- Where the last level begins can be told from what is written. -/
theorem append_slash_inj {x y a b : List Char} (ha : '/' ∉ a) (hb : '/' ∉ b)
    (h : x ++ '/' :: a = y ++ '/' :: b) : x = y ∧ a = b := by
  -- read from the end, the level comes first and is followed by a slash
  have hreversed : a.reverse ++ '/' :: x.reverse = b.reverse ++ '/' :: y.reverse := by
    simpa using congrArg List.reverse h
  have hbelow : ∀ z : List Char, Below ('/' :: z) := by
    intro z c hc
    exact (Option.some.inj hc).symm
  obtain ⟨hlevel, hrest⟩ := append_inj_of_below (by simpa using ha) (by simpa using hb)
    (hbelow _) (hbelow _) hreversed
  exact ⟨List.reverse_inj.1 (List.cons.inj hrest).2, List.reverse_inj.1 hlevel⟩

/-- Paths with equally many levels tell their roots apart, up to slashes at the end. -/
theorem join_eq_join_iff {root root' : String} {a b : List String} (hlength : a.length = b.length) :
    join root a = join root' b ↔ a = b ∧ SameRoot root root' := by
  rw [← trimSlashes_eq_iff]
  constructor
  · intro h
    -- the levels are read off one by one from the end
    induction a using List.reverseRecOn generalizing b with
    | nil =>
      obtain rfl := List.eq_nil_of_length_eq_zero hlength.symm
      refine ⟨rfl, ?_⟩
      apply String.toList_inj.1
      simpa [toList_join] using congrArg String.toList h
    | append_singleton a level ih =>
      rcases List.eq_nil_or_concat b with rfl | ⟨b, level', rfl⟩
      · simp at hlength
      · rw [List.concat_eq_append] at hlength h ⊢
        have hchars := congrArg String.toList h
        rw [toList_join_concat, toList_join_concat] at hchars
        obtain ⟨hbefore, hlevel⟩ :=
          append_slash_inj (slash_notMem_escape _) (slash_notMem_escape _) hchars
        obtain rfl := String.toList_inj.1 (escape_inj hlevel)
        obtain ⟨rfl, hroots⟩ := ih (by simpa using hlength) (String.toList_inj.1 hbefore)
        exact ⟨rfl, hroots⟩
  · rintro ⟨rfl, hroots⟩
    rw [join, join, hroots]

/-! ## Levels at the front -/

/-- If levels and then a slash stand at the front of other levels, they are the first of them. -/
theorem prefix_of_flatMap_segment {a b : List String} {rest : List Char}
    (h : b.flatMap segment ++ '/' :: rest = a.flatMap segment) : b <+: a := by
  induction b generalizing a with
  | nil => exact List.nil_prefix
  | cons level b ih =>
    cases a with
    | nil => simp [segment] at h
    | cons level' a =>
      rw [List.flatMap_cons, List.flatMap_cons, List.append_assoc] at h
      -- each level ends where a slash or the end follows it
      have hbelow : Below (b.flatMap segment ++ '/' :: rest) := by
        intro c hc
        cases b with
        | nil => exact (Option.some.inj hc).symm
        | cons _ _ => exact (Option.some.inj hc).symm
      obtain ⟨rfl, hrest⟩ := segment_append_inj hbelow (below_flatMap_segment a) h
      exact List.cons_prefix_cons.2 ⟨rfl, ih hrest⟩

/-- A path covers another below the same root exactly if its levels are the first of the other. -/
theorem covers_join_iff (root : String) (a b : List String) :
    covers (join root b) (join root a) = true ↔ b <+: a := by
  rw [covers, Bool.or_eq_true, beq_iff_eq, List.isPrefixOf_iff_prefix, toList_join, toList_join,
    List.append_assoc, List.prefix_append_right_inj]
  constructor
  · rintro (hsame | ⟨rest, hrest⟩)
    · exact join_inj hsame ▸ List.prefix_rfl
    · rw [List.append_assoc] at hrest
      exact prefix_of_flatMap_segment hrest
  · rintro ⟨below, rfl⟩
    -- with no levels below it is the same path, else a slash follows the first levels
    cases below with
    | nil => exact .inl (by rw [List.append_nil])
    | cons level below =>
      refine .inr ⟨escape level.toList ++ below.flatMap segment, ?_⟩
      rw [List.flatMap_append, List.flatMap_cons, List.append_assoc]
      rfl

end Path

namespace Store

/-! ## Listings -/

/-- A listing at a path holds a path below the same root exactly if there is a node at it and its
levels begin with those asked for. -/
theorem join_mem_list_join {s : Store} {root : String} {a b : List String} :
    Path.join root a ∈ s.list (Path.join root b) ↔
      s.contains (Path.join root a) = true ∧ b <+: a := by
  rw [mem_list, Path.trimSlashes_join, Path.covers_join_iff]

/-- After a write there is a node where there was one before, and at the path written to. -/
theorem contains_put (s : Store) (path other : String) (data : Bytes) (now : Int64) :
    (s.put path data now).2.contains other = true ↔ other = path ∨ s.contains other = true := by
  rw [contains, get?_put, contains]
  by_cases hpath : path = other
  · simp [hpath]
  · simp [hpath, Ne.symm hpath]

/-- A listing at a root is the listing at the path without levels. -/
theorem list_join_nil (s : Store) (root : String) : s.list (Path.join root []) = s.list root := by
  have htrimmed : Path.join root [] = Path.trimSlashes root := by
    apply String.toList_inj.1
    rw [Path.toList_join, List.flatMap_nil, List.append_nil]
  have htwice := Path.trimSlashes_join root []
  rw [htrimmed] at htwice
  rw [list, list, htrimmed, htwice]

/-- **Paths are read back level by level, and listings follow the levels.**  Paths below one root are
equal only for the same levels; paths with equally many levels only for the same levels and for
roots that differ in slashes at the end.  In a store with paths below one root, a listing names, once
each, the paths whose levels begin with those asked for.  So the listing at a root finds every
acknowledgment below it, and the listing at a session those of that session alone. -/
theorem list_follows_levels (root : String) :
    (∀ a b, Path.join root a = Path.join root b ↔ a = b) ∧
      (∀ root' a b, a.length = b.length →
        (Path.join root a = Path.join root' b ↔ a = b ∧ Path.SameRoot root root')) ∧
      (∀ s : Store, (∀ path, s.contains path = true → ∃ levels, path = Path.join root levels) →
        ∀ b, (s.list (Path.join root b)).Nodup ∧ ∀ path, path ∈ s.list (Path.join root b) ↔
          s.contains path = true ∧ ∃ a, path = Path.join root a ∧ b <+: a) ∧
      ∀ (s : Store) (m : Message),
        (Acknowledgment.path root m ∈ s.list root ↔
          s.contains (Acknowledgment.path root m) = true) ∧
        ∀ session, Acknowledgment.path root m ∈ s.list (Path.join root [session]) ↔
          s.contains (Acknowledgment.path root m) = true ∧ m.sessionId = session := by
  refine ⟨?_, ?_, ?_, ?_⟩
  · intro a b
    exact ⟨Path.join_inj, fun h => by rw [h]⟩
  · intro root' a b hlength
    exact Path.join_eq_join_iff hlength
  · intro s hkeys b
    constructor
    · -- a listing ascends strictly, so it names nothing twice
      refine (s.list_sorted _).imp fun {p q} hlt heq => ?_
      rw [heq, Std.compare_self] at hlt
      contradiction
    · intro path
      constructor
      · intro hlisted
        have hcontained := ((s.mem_list _ _).1 hlisted).1
        obtain ⟨a, rfl⟩ := hkeys path hcontained
        exact ⟨hcontained, a, rfl, (join_mem_list_join.1 hlisted).2⟩
      · rintro ⟨hcontained, a, rfl, hprefix⟩
        exact join_mem_list_join.2 ⟨hcontained, hprefix⟩
  · intro s m
    constructor
    · -- the root is the path without levels, which all levels begin with
      rw [← list_join_nil, Acknowledgment.path, join_mem_list_join]
      exact and_iff_left List.nil_prefix
    · intro session
      rw [Acknowledgment.path, join_mem_list_join, List.cons_prefix_cons, eq_comm (a := session)]
      exact and_congr_right fun _ => and_iff_left List.nil_prefix

/-- Roots that are written differently, and ids that hold slashes or nothing: the session `a` is
listed without the session `a/b`. -/
theorem list_follows_levels_escaped :
    let root := "/acks//"
    let s := ((Store.empty.put (Path.join root ["a/b", ""]) [] 0).2.put
      (Path.join root ["a", "%2F"]) [] 0).2
    let m := (Message.addressed "CREATE" "sensors").identified "a" "%2F"
    let other := (Message.addressed "CREATE" "sensors").identified "a/b" ""
    (["a/b", ""].length = ["a/b", ""].length ∧
      Path.join root ["a/b", ""] = Path.join "/acks" ["a/b", ""]) ∧
      (∀ path, s.contains path = true → ∃ levels, path = Path.join root levels) ∧
      (∀ path, path ∈ s.list (Path.join root ["a"]) ↔
        s.contains path = true ∧ ∃ a, path = Path.join root a ∧ ["a"] <+: a) ∧
      Acknowledgment.path root m ∈ s.list root ∧
      Acknowledgment.path root m ∈ s.list (Path.join root ["a"]) ∧
      Acknowledgment.path root other ∈ s.list root ∧
      Acknowledgment.path root other ∉ s.list (Path.join root ["a"]) := by
  intro root s m other
  obtain ⟨-, hroots, hlisted, hfound⟩ := list_follows_levels root
  have hcontains : ∀ path, s.contains path = true ↔
      path = Path.join root ["a/b", ""] ∨ path = Path.join root ["a", "%2F"] := by
    intro path
    rw [contains_put, contains_put, or_comm]
    simp [contains]
  have hkeys : ∀ path, s.contains path = true → ∃ levels, path = Path.join root levels := by
    intro path hpath
    rcases (hcontains path).1 hpath with rfl | rfl
    · exact ⟨_, rfl⟩
    · exact ⟨_, rfl⟩
  have hm : s.contains (Acknowledgment.path root m) = true := (hcontains _).2 (.inr rfl)
  have hother : s.contains (Acknowledgment.path root other) = true := (hcontains _).2 (.inl rfl)
  -- roots that differ in slashes at the end lead to the same paths
  have hsame : Path.SameRoot root "/acks" := ⟨"/acks".toList, 2, 0, by decide, by decide⟩
  refine ⟨⟨rfl, (hroots "/acks" _ _ rfl).2 ⟨rfl, hsame⟩⟩, hkeys,
    (hlisted s hkeys ["a"]).2, (hfound s m).1.2 hm, ((hfound s m).2 "a").2 ⟨hm, rfl⟩,
    (hfound s other).1.2 hother, ?_⟩
  intro hlistedOther
  have hsession : "a/b" = "a" := (((hfound s other).2 "a").1 hlistedOther).2
  exact absurd hsession (by decide)

end Store

end StreamControl
