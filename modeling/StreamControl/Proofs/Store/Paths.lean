import StreamControl.Store.Path

/-!
# Paths tell levels apart

An escaped level holds no slash, so the first slash of what follows ends it, and the levels of a
path can be read off one after the other (`segment_append_inj`).  Different lists of levels
therefore never share a path below the same root.
-/

namespace StreamControl.Path

/-- A text at which a level ends: nothing, or a slash and what is below. -/
def Below (cs : List Char) : Prop := ∀ c ∈ cs.head?, c = '/'

theorem below_flatMap_segment (levels : List String) : Below (levels.flatMap segment) := by
  intro c hc
  cases levels with
  | nil => simp at hc
  | cons level levels => simpa [segment, eq_comm] using hc

/-- Where a level ends can be told from what is written. -/
theorem append_inj_of_below {a b x y : List Char} (ha : '/' ∉ a) (hb : '/' ∉ b) (hx : Below x)
    (hy : Below y) (h : a ++ x = b ++ y) : a = b ∧ x = y := by
  have hlevel : ∀ {e z : List Char}, '/' ∉ e → Below z → (e ++ z).takeWhile (· ≠ '/') = e := by
    intro e z he hz
    have hkept : ∀ c ∈ e, decide (c ≠ '/') = true := by
      intro c hc
      exact decide_eq_true (ne_of_mem_of_not_mem hc he)
    rw [List.takeWhile_append_of_pos hkept]
    cases z with
    | nil => exact List.append_nil e
    | cons c z =>
      rw [hz c rfl]
      simp
  -- both levels are what stands before the first slash
  have hfirst : a = b := by rw [← hlevel ha hx, h, hlevel hb hy]
  subst hfirst
  exact ⟨rfl, List.append_cancel_left h⟩

/-- The first level of a path can be read off. -/
theorem segment_append_inj {level level' : String} {x y : List Char} (hx : Below x) (hy : Below y)
    (h : segment level ++ x = segment level' ++ y) : level = level' ∧ x = y := by
  obtain ⟨hescaped, hrest⟩ := append_inj_of_below (slash_notMem_escape _) (slash_notMem_escape _)
    hx hy (List.cons.inj h).2
  exact ⟨String.toList_inj.1 (escape_inj hescaped), hrest⟩

/-- All levels of a path can be read off. -/
theorem flatMap_segment_inj {a b : List String} (h : a.flatMap segment = b.flatMap segment) :
    a = b := by
  induction a generalizing b with
  | nil =>
    cases b with
    | nil => rfl
    | cons level b => simp [segment] at h
  | cons level a ih =>
    cases b with
    | nil => simp [segment] at h
    | cons level' b =>
      rw [List.flatMap_cons, List.flatMap_cons] at h
      -- every segment begins with a slash and has none behind it, so the first ones are equal
      obtain ⟨rfl, hrest⟩ := segment_append_inj (below_flatMap_segment a) (below_flatMap_segment b) h
      rw [ih hrest]

/-- Below one root, different lists of levels have different paths. -/
theorem join_inj {root : String} {a b : List String} (h : join root a = join root b) : a = b := by
  unfold join at h
  have hlevels : String.ofList (a.flatMap segment) = String.ofList (b.flatMap segment) := by
    have hchars := congrArg String.toList h
    rw [String.toList_append, String.toList_append] at hchars
    exact String.toList_inj.1 (List.append_cancel_left hchars)
  exact flatMap_segment_inj (String.ofList_inj.1 hlevels)

end StreamControl.Path
