/-!
# Paths

A node lies at a path: levels separated by slashes below a root.  A level may be any text.  Slashes
and percent signs in it are escaped and an empty level is written as a lone percent sign, which no
escaped text is, so different levels always lead to different paths.
-/

namespace StreamControl

namespace Path

/-- A text without the slashes at its end. -/
def trimSlashes (s : String) : String :=
  String.ofList (s.toList.reverse.dropWhile (· == '/')).reverse

/-- One character of a level. -/
def escapeChar (c : Char) : List Char :=
  match c with
  | '%' => ['%', '2', '5']
  | '/' => ['%', '2', 'F']
  | c => [c]

/-- The characters of a level. -/
def escape (level : List Char) : List Char :=
  match level with
  -- an empty level must not vanish between two slashes
  | [] => ['%']
  | cs => cs.flatMap escapeChar

/-- A slash and the characters of a level. -/
def segment (level : String) : List Char := '/' :: escape level.toList

/-- The path of the given levels below a root, whose slashes at the end do not count. -/
def join (root : String) (levels : List String) : String :=
  trimSlashes root ++ String.ofList (levels.flatMap segment)

/-- Whether a path is `base` or lies on a level below it. -/
def covers (base path : String) : Bool :=
  path == base || (base.toList ++ ['/']).isPrefixOf path.toList

/-! ## What escaping keeps -/

theorem escapeChar_ne_nil (c : Char) : escapeChar c ≠ [] := by
  unfold escapeChar
  split <;> simp

/-- An escaped character holds no slash. -/
theorem slash_notMem_escapeChar (c : Char) : '/' ∉ escapeChar c := by
  unfold escapeChar
  split <;> simp_all [eq_comm]

/-- No escaped character is the beginning of another. -/
theorem escapeChar_append_inj {c d : Char} {r s : List Char}
    (h : escapeChar c ++ r = escapeChar d ++ s) : c = d ∧ r = s := by
  unfold escapeChar at h
  split at h <;> split at h <;> grind

/-- The levels of a path hold no slash. -/
theorem slash_notMem_escape (level : List Char) : '/' ∉ escape level := by
  unfold escape
  split
  · decide
  · simp [slash_notMem_escapeChar]

theorem flatMap_escapeChar_inj {a b : List Char}
    (h : a.flatMap escapeChar = b.flatMap escapeChar) : a = b := by
  induction a generalizing b with
  | nil =>
    cases b with
    | nil => rfl
    | cons d b => simp [escapeChar_ne_nil] at h
  | cons c a ih =>
    cases b with
    | nil => simp [escapeChar_ne_nil] at h
    | cons d b =>
      simp only [List.flatMap_cons] at h
      -- escaped characters are prefix-free, so the first ones are the same
      obtain ⟨rfl, rest⟩ := escapeChar_append_inj h
      rw [ih rest]

/-- A lone percent sign is no escaped text. -/
theorem flatMap_escapeChar_ne (cs : List Char) : cs.flatMap escapeChar ≠ ['%'] := by
  cases cs with
  | nil => simp
  | cons c cs =>
    simp only [List.flatMap_cons, escapeChar]
    split <;> simp_all

/-- Different levels are written differently. -/
theorem escape_inj {a b : List Char} (h : escape a = escape b) : a = b := by
  unfold escape at h
  split at h <;> split at h
  · rfl
  · exact absurd h.symm (flatMap_escapeChar_ne _)
  · exact absurd h (flatMap_escapeChar_ne _)
  · exact flatMap_escapeChar_inj h

end Path

end StreamControl
