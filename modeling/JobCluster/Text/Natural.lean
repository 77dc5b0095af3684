import JobCluster.Text.Blank
/-!
# Numbers in settings

A number in a setting is a run of decimal digits, with an optional plus sign in front and blanks
around it, and fits into 64 bits.

Main results:

- `readWord_toDigits`: the decimal digits of a number are read back.
-/

namespace JobCluster.Text

/-- The numbers of 64 bits are those below this limit, the 64th power of two. -/
def wordLimit : Nat := 0x10000000000000000

/-- The number that a nonempty run of decimal digits writes. -/
def ofDigits? (cs : List Char) : Option Nat :=
  if cs ≠ [] ∧ cs.all Char.isDigit then some (Nat.ofDigitChars 10 cs 0) else none

/-- The number of 64 bits that the characters write, with an optional plus sign. -/
def wordOfChars? (cs : List Char) : Option Nat :=
  let digits := match cs with
    | '+' :: rest => rest
    | _ => cs
  (ofDigits? digits).filter (· < wordLimit)

/-- Reads a number of 64 bits with blanks around it. -/
def readWord (s : String) : Option Nat := wordOfChars? (trimChars s.toList)

/-! ## Laws -/

/-- The digits of a number are read as that number. -/
theorem ofDigits?_toDigits (n : Nat) : ofDigits? (Nat.toDigits 10 n) = some n := by
  have h : (Nat.toDigits 10 n).all Char.isDigit = true :=
    List.all_eq_true.mpr fun c hc => Nat.isDigit_of_mem_toDigits (by decide) (by decide) hc
  simp [ofDigits?, h, Nat.ofDigitChars_ten_toDigits, Nat.toDigits_ne_nil]

/-- A digit is not blank. -/
theorem isBlank_eq_false_of_isDigit {c : Char} (h : c.isDigit = true) : isBlank c = false := by
  simp only [Char.isDigit, Bool.and_eq_true, decide_eq_true_eq] at h
  have hlow : 48 ≤ c.toNat := h.1
  have hhigh : c.toNat ≤ 57 := h.2
  simp only [isBlank, blankRanges, List.any_cons, List.any_nil, Bool.or_false,
    Bool.or_eq_false_iff, Bool.and_eq_false_iff, decide_eq_false_iff_not]
  omega

/-- Nothing is trimmed off a text without blanks. -/
theorem trimChars_eq_self {cs : List Char} (h : ∀ c ∈ cs, isBlank c = false) :
    trimChars cs = cs := by
  have drop : ∀ {xs : List Char}, (∀ c ∈ xs, isBlank c = false) → xs.dropWhile isBlank = xs := by
    intro xs hx
    cases xs with
    | nil => rfl
    | cons x xs => simp [hx x List.mem_cons_self]
  rw [trimChars, drop h, drop fun c hc => h c (List.mem_reverse.mp hc), List.reverse_reverse]

theorem wordOfChars?_toDigits {n : Nat} (h : n < wordLimit) :
    wordOfChars? (Nat.toDigits 10 n) = some n := by
  have hplus : ∀ rest, Nat.toDigits 10 n ≠ '+' :: rest := fun rest hd => by
    have hmem : '+' ∈ Nat.toDigits 10 n := by simp [hd]
    exact absurd (Nat.isDigit_of_mem_toDigits (by decide) (by decide) hmem) (by decide)
  rw [wordOfChars?]
  · simp [ofDigits?_toDigits, h]
  · exact hplus

theorem readWord_toDigits {n : Nat} (h : n < wordLimit) :
    readWord (String.ofList (Nat.toDigits 10 n)) = some n := by
  have hd : ∀ c ∈ Nat.toDigits 10 n, isBlank c = false := fun c hc =>
    isBlank_eq_false_of_isDigit (Nat.isDigit_of_mem_toDigits (by decide) (by decide) hc)
  rw [readWord, String.toList_ofList, trimChars_eq_self hd, wordOfChars?_toDigits h]

end JobCluster.Text
