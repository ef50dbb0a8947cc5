/-!
# Operations

The operation of a message is a token.  Tokens are written in capitals here and compared without
regard to the case of ASCII letters.
-/

namespace StreamControl

namespace Operation

/-! ## Definition of streams and queries -/

def create : String := "CREATE"
def drop : String := "DROP"
def alter : String := "ALTER"
def addQuery : String := "ADD_QUERY"
def removeQuery : String := "REMOVE_QUERY"

/-! ## Data -/

def insert : String := "INSERT"
def list : String := "LIST"

/-! ## Outputs attached to a stream -/

def listen : String := "LISTEN"
def stopListen : String := "STOP_LISTEN"
def index : String := "INDEX"
def stopIndex : String := "STOP_INDEX"

/-- The tokens that the engine understands. -/
def all : List String :=
  [create, drop, alter, addQuery, removeQuery, insert, list, listen, stopListen, index, stopIndex]

/-! ## Comparison -/

/-- A token with its ASCII letters in lower case. -/
def fold (token : String) : List Char := token.toList.map Char.toLower

/-- Whether two tokens differ at most in the case of ASCII letters. -/
def same (a b : String) : Bool := fold a == fold b

theorem same_iff {a b : String} : same a b = true ↔ fold a = fold b := by simp [same]

/-- Two characters are equal, or one is an ASCII capital and the other is its small letter, which
stands 32 places behind it. -/
def SameLetter (c d : Char) : Prop :=
  c = d ∨ c.isUpper = true ∧ d.toNat = c.toNat + 32 ∨ d.isUpper = true ∧ c.toNat = d.toNat + 32

instance (c d : Char) : Decidable (SameLetter c d) := inferInstanceAs (Decidable (_ ∨ _))

theorem isUpper_iff {c : Char} : c.isUpper = true ↔ 65 ≤ c.toNat ∧ c.toNat ≤ 90 := by
  change decide (65 ≤ c.val ∧ c.val ≤ 90) = true ↔ _
  rw [decide_eq_true_iff, UInt32.le_iff_toNat_le, UInt32.le_iff_toNat_le]
  rfl

theorem toNat_toLower (c : Char) :
    c.toLower.toNat = if c.isUpper = true then c.toNat + 32 else c.toNat := by
  unfold Char.toLower
  split
  · rename_i hupper
    have hrange : 65 ≤ c.toNat ∧ c.toNat ≤ 90 := isUpper_iff.1 (decide_eq_true hupper)
    rw [if_pos (isUpper_iff.2 hrange)]
    change (c.val + ('a'.val - 'A'.val)).toNat = c.val.toNat + 32
    have hval : c.val.toNat ≤ 90 := hrange.2
    have hshift : ('a'.val - 'A'.val).toNat = 32 := rfl
    rw [UInt32.toNat_add, hshift]
    omega
  · rename_i hupper
    have hother : ¬ c.isUpper = true := fun h => hupper (of_decide_eq_true h)
    rw [if_neg hother]

/-- Small letters are the same for characters that are the same letter, and for no others. -/
theorem toLower_eq_iff {c d : Char} : c.toLower = d.toLower ↔ SameLetter c d := by
  rw [← Char.toNat_inj, toNat_toLower, toNat_toLower, SameLetter, ← Char.toNat_inj]
  simp only [isUpper_iff]
  -- a capital goes 32 places up, where no other capital stands
  split
  · split
    · omega
    · omega
  · split
    · omega
    · omega

/-- **Tokens are compared letter by letter.**  Two of them fold to the same if they are equally long
and have the same letter in every place. -/
theorem fold_eq_iff {a b : String} :
    fold a = fold b ↔ a.toList.length = b.toList.length ∧
      ∀ letters ∈ a.toList.zip b.toList, SameLetter letters.1 letters.2 := by
  unfold fold
  generalize a.toList = cs
  generalize b.toList = ds
  induction cs generalizing ds with
  | nil => cases ds <;> simp
  | cons c cs ih =>
    cases ds with
    | nil => simp
    | cons d ds =>
      simp only [List.map_cons, List.cons.injEq, toLower_eq_iff, ih, List.length_cons,
        Nat.add_right_cancel_iff, List.zip_cons_cons, List.forall_mem_cons]
      exact and_left_comm

theorem same_iff_letters {a b : String} :
    same a b = true ↔ a.toList.length = b.toList.length ∧
      ∀ letters ∈ a.toList.zip b.toList, SameLetter letters.1 letters.2 :=
  same_iff.trans fold_eq_iff

/-- Only ASCII letters have two cases: an `É` is not an `é`, and the sign for kelvin is not a `k`. -/
example : same "Create" "cREATE" = true ∧ same "É" "é" = false ∧ same "\u212a" "k" = false := by
  decide

end Operation

end StreamControl
