/-!
# Blanks

The blank characters are those with the Unicode property White_Space. Settings are read with the
blanks at both ends taken off.

Main results:

- `isBlank_of_isWhitespace`: the four ASCII blanks of core are blanks;
- `trim_eq_empty_iff`: a text is trimmed to nothing exactly when it holds blanks alone.
-/

namespace JobCluster.Text

/-- The first and last code points of each run of blanks. -/
def blankRanges : List (Nat × Nat) :=
  [(0x0009, 0x000D), (0x0020, 0x0020), (0x0085, 0x0085), (0x00A0, 0x00A0), (0x1680, 0x1680),
   (0x2000, 0x200A), (0x2028, 0x2029), (0x202F, 0x202F), (0x205F, 0x205F), (0x3000, 0x3000)]

/-- Whether the character is a blank. -/
def isBlank (c : Char) : Bool :=
  blankRanges.any fun range => range.1 ≤ c.toNat && c.toNat ≤ range.2

/-- The characters without the blanks in front and behind. -/
def trimChars (cs : List Char) : List Char :=
  ((cs.dropWhile isBlank).reverse.dropWhile isBlank).reverse

/-- The text without the blanks in front and behind. -/
def trim (s : String) : String := String.ofList (trimChars s.toList)

/-! ## Laws -/

/-- What is white space by the core library is blank. -/
theorem isBlank_of_isWhitespace (c : Char) (h : c.isWhitespace = true) : isBlank c = true := by
  simp only [Char.isWhitespace, Bool.or_eq_true, decide_eq_true_eq] at h
  rcases h with ((rfl | rfl) | rfl) | rfl <;> decide

/-- All of a list is dropped if all of it passes. -/
theorem dropWhile_eq_nil_iff (p : Char → Bool) (cs : List Char) :
    cs.dropWhile p = [] ↔ ∀ c ∈ cs, p c = true := by
  induction cs with
  | nil => simp
  | cons c cs ih => by_cases h : p c = true <;> simp [h, ih]

/-- A text is trimmed to nothing exactly when it holds blanks alone. -/
theorem trim_eq_empty_iff (s : String) : trim s = "" ↔ ∀ c ∈ s.toList, isBlank c = true := by
  have hnil : trim s = "" ↔ trimChars s.toList = [] := by
    rw [trim, ← String.ofList_nil, String.ofList_inj]
  rw [hnil, trimChars, List.reverse_eq_nil_iff, dropWhile_eq_nil_iff]
  constructor
  · intro h
    rcases hd : s.toList.dropWhile isBlank with _ | ⟨c, rest⟩
    · exact (dropWhile_eq_nil_iff _ _).mp hd
    · have hc := h c (by simp [hd])
      have : isBlank c ≠ true := by
        have := List.head?_dropWhile_not isBlank s.toList
        simp_all
      exact absurd hc this
  · intro h c hc
    exact h c ((List.dropWhile_sublist _).subset (List.mem_reverse.mp hc))

end JobCluster.Text
