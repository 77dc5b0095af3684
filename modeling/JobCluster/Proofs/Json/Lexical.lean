import Mathlib.Data.Nat.Basic
import JobCluster.Json.Parser
import JobCluster.Json.Printer
/-!
# Strings and numbers read back

Inside a document a printed string stands between its quotes and a printed number in front of a
delimiter; there the reader takes off exactly what the printer wrote.

Main results:

- `stringTail?_stringChars`: a printed string is read back, whatever characters it has and whatever
  stands behind it;
- `number?_numberChars`: a printed number is read back in front of a delimiter.
-/

namespace JobCluster.Json

/-! ## Escapes -/

/-- A hexadecimal digit stands for the number that it prints. -/
theorem hexDigit?_digitChar : ∀ d < 16, hexDigit? (Nat.digitChar d) = some d := by decide

/-- The four digits of a number below 65536 write it. -/
theorem hexQuad?_hexQuad {n : Nat} (h : n < 65536) :
    hexQuad? (Nat.digitChar (n / 4096 % 16)) (Nat.digitChar (n / 256 % 16))
      (Nat.digitChar (n / 16 % 16)) (Nat.digitChar (n % 16)) = some n := by
  have digit (m : Nat) : hexDigit? (Nat.digitChar (m % 16)) = some (m % 16) :=
    hexDigit?_digitChar _ (Nat.mod_lt _ (by decide))
  simp only [hexQuad?, digit, Option.bind_eq_bind, Option.bind_some, Option.pure_def,
    Option.some.injEq]
  omega

/-- The escape of a control character gives the character back. -/
theorem escape?_hexQuad {c : Char} (h : c.toNat < 0x20) (rest : List Char) :
    escape? ('u' :: hexQuad c.toNat ++ rest) = some (some c, rest) := by
  have hunit : unitChar c.toNat rest = (some c, rest) := by
    have hhigh : isHighHalf c.toNat = false := by simp [isHighHalf]; omega
    have hlow : isLowHalf c.toNat = false := by simp [isLowHalf]; omega
    simp [unitChar, hhigh, hlow, Char.ofNat_toNat]
  simp only [hexQuad, List.cons_append, List.nil_append, escape?]
  rw [hexQuad?_hexQuad (by omega), Option.map_some, hunit]

/-! ## Strings -/

/-- Reading an escape adds the character that it stands for. -/
theorem stringTail?_escape {c : Char} {cs rest : List Char} (h : escape? cs = some (some c, rest))
    (done : List Char) :
    stringTail? (some done) ('\\' :: cs) = stringTail? (some (c :: done)) rest := by
  rw [stringTail?, if_neg (by decide), if_pos rfl]
  split
  · next h' =>
    rw [h] at h'
    cases h'
    rfl
  · next h' => simp [h] at h'

/-- Reading a character that needs no escape adds it. -/
theorem stringTail?_plain {c : Char} (hq : c ≠ '"') (hb : c ≠ '\\') (hc : ¬c.toNat < 0x20)
    (done rest : List Char) :
    stringTail? (some done) (c :: rest) = stringTail? (some (c :: done)) rest := by
  rw [stringTail?, if_neg hq, if_neg hb, if_neg hc, Option.map_some]

/-- The printed form of one character adds that character. -/
theorem stringTail?_escapedChar (c : Char) (done rest : List Char) :
    stringTail? (some done) (escapedChar c ++ rest) = stringTail? (some (c :: done)) rest := by
  unfold escapedChar
  iterate 7
    split
    · next h => subst h; exact stringTail?_escape rfl done
  split
  · next h => exact stringTail?_escape (escape?_hexQuad h rest) done
  · next hq hb _ _ _ _ _ hc => exact stringTail?_plain hq hb hc done rest

/-- The printed characters of a text up to the closing quote are read one after another. -/
theorem stringTail?_flatMap (cs done rest : List Char) :
    stringTail? (some done) (cs.flatMap escapedChar ++ '"' :: rest) =
      some (some (String.ofList (done.reverse ++ cs)), rest) := by
  induction cs generalizing done with
  | nil => simp [stringTail?]
  | cons c cs ih =>
    rw [List.flatMap_cons, List.append_assoc, stringTail?_escapedChar, ih]
    simp

/-- Half a surrogate pair without its other half is read as no text. -/
theorem stringTail?_half (rest : List Char) :
    stringTail? (some []) ('\\' :: 'u' :: 'd' :: '8' :: '0' :: '0' :: '"' :: rest) =
      some (none, rest) := by
  have h : escape? ('u' :: 'd' :: '8' :: '0' :: '0' :: '"' :: rest) = some (none, '"' :: rest) := by
    have hunit : hexQuad? 'd' '8' '0' '0' = some 0xD800 := by decide
    simp [escape?, hunit, unitChar, isHighHalf, lowHalf?]
  rw [stringTail?, if_neg (by decide), if_pos rfl]
  split
  · next h' =>
    rw [h] at h'
    cases h'
    simp [stringTail?]
  · next h' => simp [h] at h'

/-- A printed string is its opening quote and characters that are read back. -/
theorem stringTail?_stringChars (s : Option String) (rest : List Char) :
    ∃ cs, stringChars s = '"' :: cs ∧ stringTail? (some []) (cs ++ rest) = some (s, rest) := by
  cases s with
  | some text =>
    refine ⟨_, rfl, ?_⟩
    rw [List.append_assoc, List.singleton_append, stringTail?_flatMap]
    simp
  | none => exact ⟨_, rfl, stringTail?_half rest⟩

/-! ## Numbers -/

/-- What stands behind a printed value: nothing, or a comma or a closing bracket or brace. -/
def AtDelimiter : List Char → Prop
  | [] => True
  | c :: _ => c = ',' ∨ c = ']' ∨ c = '}'

/-- The digits of a number in front of a delimiter are taken off. -/
theorem digits?_append {ds rest : List Char} (hne : ds ≠ []) (hds : ∀ d ∈ ds, d.isDigit = true)
    (hrest : AtDelimiter rest) : digits? (ds ++ rest) = some (ds, rest) := by
  have htake : rest.takeWhile Char.isDigit = [] := by
    cases rest with
    | nil => rfl
    | cons c cs => rcases hrest with rfl | rfl | rfl <;> rfl
  have hdrop : rest.dropWhile Char.isDigit = rest := by
    cases rest with
    | nil => rfl
    | cons c cs => rcases hrest with rfl | rfl | rfl <;> rfl
  rw [digits?, List.takeWhile_append_of_pos hds, List.dropWhile_append_of_pos hds, htake, hdrop,
    List.append_nil]
  cases ds with
  | nil => exact absurd rfl hne
  | cons d ds => rfl

/-- The digits of a positive number do not start with a nought. -/
theorem toDigits_ne_zero_cons {n : Nat} (h : n ≠ 0) (ds : List Char) :
    Nat.toDigits 10 n ≠ '0' :: ds := by
  induction n using Nat.strongRecOn generalizing ds with
  | ind n ih =>
    by_cases hlt : n < 10
    · rw [Nat.toDigits_of_lt_base hlt]
      have head : ∀ m < 10, m ≠ 0 → Nat.digitChar m ≠ '0' := by decide
      simp [head n hlt h]
    · rw [Nat.toDigits_of_base_le (by decide) (by omega)]
      intro heq
      cases hfront : Nat.toDigits 10 (n / 10) with
      | nil => exact Nat.toDigits_ne_nil hfront
      | cons d front =>
        rw [hfront, List.cons_append, List.cons.injEq] at heq
        exact ih (n / 10) (by omega) (by omega) front (by rw [hfront, heq.1])

/-- The digits of a number that stand in front of a delimiter are read as that number. -/
theorem integral?_toDigits (n : Nat) {rest : List Char} (hrest : AtDelimiter rest) :
    integral? (Nat.toDigits 10 n ++ rest) = some (n, rest) := by
  have hdigits : digits? (Nat.toDigits 10 n ++ rest) = some (Nat.toDigits 10 n, rest) :=
    digits?_append Nat.toDigits_ne_nil
      (fun _ hd => Nat.isDigit_of_mem_toDigits (by decide) (by decide) hd) hrest
  by_cases hn : n = 0
  · subst hn
    rw [integral?, hdigits]
    rfl
  · rw [integral?, hdigits]
    split
    · next h =>
      simp only [Option.some.injEq, Prod.mk.injEq] at h
      exact absurd h.1 (toDigits_ne_zero_cons hn [])
    · next h =>
      simp only [Option.some.injEq, Prod.mk.injEq] at h
      exact absurd h.1 (toDigits_ne_zero_cons hn _)
    · next h =>
      simp only [Option.some.injEq, Prod.mk.injEq] at h
      rw [← h.1, ← h.2, Nat.ofDigitChars_ten_toDigits]
    · next h => simp at h

/-- Neither a fraction nor an exponent stands in front of a delimiter. -/
theorem no_fraction_no_exponent {rest : List Char} (hrest : AtDelimiter rest) :
    fraction? rest = some (false, rest) ∧ exponent? rest = some (false, rest) := by
  cases rest with
  | nil => exact ⟨rfl, rfl⟩
  | cons c cs => rcases hrest with rfl | rfl | rfl <;> exact ⟨rfl, rfl⟩

theorem unsigned?_toDigits (n : Nat) {rest : List Char} (hrest : AtDelimiter rest) :
    unsigned? (Nat.toDigits 10 n ++ rest) = some (.natural n, rest) := by
  obtain ⟨hfraction, hexponent⟩ := no_fraction_no_exponent hrest
  simp [unsigned?, integral?_toDigits n hrest, hfraction, hexponent]

/-- The digits of a number start with a digit. -/
theorem exists_toDigits_eq_cons (n : Nat) :
    ∃ d ds, Nat.toDigits 10 n = d :: ds ∧ d.isDigit = true := by
  cases h : Nat.toDigits 10 n with
  | nil => exact absurd h Nat.toDigits_ne_nil
  | cons d ds =>
    have hmem : d ∈ Nat.toDigits 10 n := by simp [h]
    exact ⟨d, ds, rfl, Nat.isDigit_of_mem_toDigits (by decide) (by decide) hmem⟩

/-- A printed number is read back in front of a delimiter. -/
theorem number?_numberChars (n : JsonNumber) {rest : List Char} (hrest : AtDelimiter rest) :
    number? (numberChars n ++ rest) = some (n, rest) := by
  cases n with
  | natural n =>
    obtain ⟨d, ds, hcons, hd⟩ := exists_toDigits_eq_cons n
    have hsign : d ≠ '-' := by rintro rfl; simp at hd
    rw [numberChars, ← unsigned?_toDigits n hrest, hcons, List.cons_append, number?]
    rintro _ h
    exact hsign (List.cons.inj h).1
  | other =>
    have hzero : unsigned? ('0' :: rest) = some (.natural 0, rest) := unsigned?_toDigits 0 hrest
    simp [numberChars, number?, hzero]

end JobCluster.Json
