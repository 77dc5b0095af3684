import JobCluster.Proofs.Json.Lexical
/-!
# Documents read back

The reader undoes the printer: the compact text of a value is a document, and that document writes
the value itself. No blank stands in a printed text outside its strings, so every part of it starts
with the character by which the reader tells the parts apart.

Main results:

- `readsBack`: a printed value is read back in front of a delimiter, if the bound on the nesting is
  no smaller than the length of its text;
- `parse_print`: the text of a value is read back;
- `print_injective`: different values have different texts.
-/

namespace JobCluster.Json

/-! ## How printed values start -/

/-- Nothing is skipped in front of a character that is no space. -/
theorem skipSpace_cons {c : Char} (h : isSpace c = false) (cs : List Char) :
    skipSpace (c :: cs) = c :: cs := by
  simp [skipSpace, h]

/-- A digit is no space. -/
theorem isSpace_eq_false_of_isDigit {c : Char} (h : c.isDigit = true) : isSpace c = false := by
  simp only [isSpace, Bool.or_eq_false_iff, decide_eq_false_iff_not]
  refine ⟨⟨⟨?_, ?_⟩, ?_⟩, ?_⟩ <;> rintro rfl <;> simp at h

/-- A printed number starts with a digit or a minus sign. -/
theorem exists_numberChars_eq_cons (n : JsonNumber) :
    ∃ c cs, numberChars n = c :: cs ∧ (c.isDigit = true ∨ c = '-') := by
  cases n with
  | natural n =>
    obtain ⟨d, ds, h, hd⟩ := exists_toDigits_eq_cons n
    exact ⟨d, ds, h, .inl hd⟩
  | other => exact ⟨_, _, rfl, .inr rfl⟩

/-- A printed text begins with a quotation mark. -/
theorem exists_stringChars_eq_cons (s : Option String) : ∃ cs, stringChars s = '"' :: cs := by
  obtain ⟨cs, h, _⟩ := stringTail?_stringChars s []
  exact ⟨cs, h⟩

/-- A printed value starts with a character that is neither a blank nor the end of an array. -/
theorem exists_chars_eq_cons (j : Json) :
    ∃ c cs, chars j = c :: cs ∧ isSpace c = false ∧ c ≠ ']' := by
  cases j with
  | null => exact ⟨_, _, by rw [chars], rfl, by decide⟩
  | bool b => cases b <;> exact ⟨_, _, by rw [chars], rfl, by decide⟩
  | num n =>
    obtain ⟨c, cs, h, hc⟩ := exists_numberChars_eq_cons n
    refine ⟨c, cs, by rw [chars, h], ?_⟩
    rcases hc with hc | rfl
    · exact ⟨isSpace_eq_false_of_isDigit hc, by rintro rfl; simp at hc⟩
    · exact ⟨rfl, by decide⟩
  | str s =>
    obtain ⟨cs, h⟩ := exists_stringChars_eq_cons s
    exact ⟨_, cs, by rw [chars, h], rfl, by decide⟩
  | arr items => exact ⟨_, _, by rw [chars], rfl, by decide⟩
  | obj members => exact ⟨_, _, by rw [chars], rfl, by decide⟩

/-- The items of an array that has any start as the first of them. -/
theorem exists_itemsChars_eq_cons (item : Json) (items : List Json) :
    ∃ c cs, itemsChars (item :: items) = c :: cs ∧ isSpace c = false ∧ c ≠ ']' := by
  obtain ⟨c, cs, h, hc⟩ := exists_chars_eq_cons item
  cases items with
  | nil => exact ⟨c, _, by rw [itemsChars, h, List.cons_append], hc⟩
  | cons next items =>
    exact ⟨c, _, by rw [itemsChars, h, List.cons_append]; simp, hc⟩

/-- The members of an object that has any start with the quote of a key. -/
theorem exists_membersChars_eq_cons (member : Option String × Json)
    (members : List (Option String × Json)) :
    ∃ cs, membersChars (member :: members) = '"' :: cs := by
  obtain ⟨key, value⟩ := member
  obtain ⟨cs, h⟩ := exists_stringChars_eq_cons key
  cases members with
  | nil => exact ⟨_, by rw [membersChars, h, List.cons_append]⟩
  | cons next members => exact ⟨_, by rw [membersChars, h, List.cons_append]; simp⟩

/-! ## One step of the reader -/

/-- What starts with a digit or a minus sign is read as a number. -/
theorem value?_number {c : Char} (hc : c.isDigit = true ∨ c = '-') (depth : Nat) (cs : List Char) :
    value? (depth + 1) (c :: cs) = (number? (c :: cs)).map fun x => (.num x.1, x.2) := by
  have hspace : isSpace c = false := by
    rcases hc with hc | rfl
    · exact isSpace_eq_false_of_isDigit hc
    · rfl
  rw [value?, skipSpace_cons hspace]
  split <;> simp_all

/-- What starts with a quote is read as a string. -/
theorem value?_string (depth : Nat) (cs : List Char) :
    value? (depth + 1) ('"' :: cs) = (stringTail? (some []) cs).map fun x => (.str x.1, x.2) := by
  rw [value?, skipSpace_cons rfl]
  simp

/-- What starts with a bracket and an item is read as an array. -/
theorem value?_items {c : Char} (hspace : isSpace c = false) (hc : c ≠ ']') (depth : Nat)
    (cs : List Char) :
    value? (depth + 1) ('[' :: c :: cs) =
      (items? depth (c :: cs)).map fun x => (.arr x.1, x.2) := by
  rw [value?, skipSpace_cons rfl]
  simp only [skipSpace_cons hspace]
  split
  · next h => exact absurd (List.cons.inj h).1 hc
  · rfl

/-- What starts with a brace and a key is read as an object. -/
theorem value?_members (depth : Nat) (cs : List Char) :
    value? (depth + 1) ('\x7b' :: '"' :: cs) =
      (members? depth ('"' :: cs)).map fun x => (.obj x.1, x.2) := by
  rw [value?, skipSpace_cons rfl]
  have hquote : skipSpace ('"' :: cs) = '"' :: cs := skipSpace_cons rfl cs
  simp [hquote]

section Member

variable {key : Option String} {value : Json} {cs after rest : List Char} {depth : Nat}

/-- Behind a key and a colon stands the value; a closing brace behind it ends the object. -/
theorem members?_last (hkey : stringTail? (some []) cs = some (key, ':' :: after))
    (hvalue : value? depth after = some (value, '\x7d' :: rest)) :
    members? (depth + 1) ('"' :: cs) = some ([(key, value)], rest) := by
  have hquote : skipSpace ('"' :: cs) = '"' :: cs := skipSpace_cons rfl cs
  have hcolon : skipSpace (':' :: after) = ':' :: after := skipSpace_cons rfl after
  have hend : skipSpace ('\x7d' :: rest) = '\x7d' :: rest := skipSpace_cons rfl rest
  simp [members?, hquote, hkey, hcolon, hvalue, hend]

/-- Behind a key and a colon stands the value; a comma behind it starts the next member. -/
theorem members?_next (hkey : stringTail? (some []) cs = some (key, ':' :: after))
    (hvalue : value? depth after = some (value, ',' :: rest)) :
    members? (depth + 1) ('"' :: cs) =
      (members? depth rest).map fun x => ((key, value) :: x.1, x.2) := by
  have hquote : skipSpace ('"' :: cs) = '"' :: cs := skipSpace_cons rfl cs
  have hcolon : skipSpace (':' :: after) = ':' :: after := skipSpace_cons rfl after
  have hcomma : skipSpace (',' :: rest) = ',' :: rest := skipSpace_cons rfl rest
  simp [members?, hquote, hkey, hcolon, hvalue, hcomma]

end Member

/-! ## Whole values -/

/-- With the bound on the nesting, the reader takes off every printed value, the items of every
array and the members of every object whose text is no longer than the bound. -/
structure ReadsBack (depth : Nat) : Prop where
  value : ∀ (j : Json) (rest : List Char), (chars j).length ≤ depth → AtDelimiter rest →
    value? depth (chars j ++ rest) = some (j, rest)
  items : ∀ (item : Json) (items : List Json) (rest : List Char),
    (itemsChars (item :: items)).length ≤ depth →
    items? depth (itemsChars (item :: items) ++ rest) = some (item :: items, rest)
  members : ∀ (member : Option String × Json) (members : List (Option String × Json))
    (rest : List Char), (membersChars (member :: members)).length ≤ depth →
    members? depth (membersChars (member :: members) ++ rest) = some (member :: members, rest)

/-- A bound of nothing leaves no text. -/
theorem readsBack_zero : ReadsBack 0 where
  value j _ hdepth _ := by
    obtain ⟨c, cs, h, _⟩ := exists_chars_eq_cons j
    simp [h] at hdepth
  items item items _ hdepth := by
    obtain ⟨c, cs, h, _⟩ := exists_itemsChars_eq_cons item items
    simp [h] at hdepth
  members member members _ hdepth := by
    obtain ⟨cs, h⟩ := exists_membersChars_eq_cons member members
    simp [h] at hdepth

variable {depth : Nat}

/-- The parts of a value have shorter texts than the value, which has a bracket or a brace more. -/
theorem ReadsBack.value_succ (h : ReadsBack depth) (j : Json) (rest : List Char)
    (hdepth : (chars j).length ≤ depth + 1) (hrest : AtDelimiter rest) :
    value? (depth + 1) (chars j ++ rest) = some (j, rest) := by
  cases j with
  | null => simp [chars, value?, skipSpace_cons, isSpace]
  | bool b => cases b <;> simp [chars, value?, skipSpace_cons, isSpace]
  | num n =>
    obtain ⟨c, cs, hcons, hc⟩ := exists_numberChars_eq_cons n
    have hread := number?_numberChars n hrest
    rw [hcons, List.cons_append] at hread
    rw [chars, hcons, List.cons_append, value?_number hc, hread, Option.map_some]
  | str s =>
    obtain ⟨cs, hcons, hread⟩ := stringTail?_stringChars s rest
    rw [chars, hcons, List.cons_append, value?_string, hread, Option.map_some]
  | arr items =>
    cases items with
    | nil => simp [chars, itemsChars, value?, skipSpace_cons, isSpace]
    | cons item items =>
      have hread := h.items item items rest (by simpa [chars] using hdepth)
      obtain ⟨c, cs, hcons, hspace, hc⟩ := exists_itemsChars_eq_cons item items
      rw [hcons, List.cons_append] at hread
      rw [chars, hcons, List.cons_append, List.cons_append, value?_items hspace hc, hread,
        Option.map_some]
  | obj members =>
    cases members with
    | nil => simp [chars, membersChars, value?, skipSpace_cons, isSpace]
    | cons member members =>
      have hread := h.members member members rest (by simpa [chars] using hdepth)
      obtain ⟨cs, hcons⟩ := exists_membersChars_eq_cons member members
      rw [hcons, List.cons_append] at hread
      rw [chars, hcons, List.cons_append, List.cons_append, value?_members, hread, Option.map_some]

/-- Behind an item stands the end of the array, or a comma and the further items. -/
theorem ReadsBack.items_succ (h : ReadsBack depth) (item : Json) (items : List Json)
    (rest : List Char) (hdepth : (itemsChars (item :: items)).length ≤ depth + 1) :
    items? (depth + 1) (itemsChars (item :: items) ++ rest) = some (item :: items, rest) := by
  cases items with
  | nil =>
    simp only [itemsChars, List.length_append, List.length_singleton] at hdepth
    have hitem := h.value item (']' :: rest) (by omega) (.inr (.inl rfl))
    have hend : skipSpace (']' :: rest) = ']' :: rest := skipSpace_cons rfl rest
    simp [itemsChars, items?, hitem, hend]
  | cons next items =>
    simp only [itemsChars, List.length_append, List.length_cons] at hdepth
    have hitem := h.value item (',' :: (itemsChars (next :: items) ++ rest)) (by omega)
      (.inl rfl)
    have hcomma := skipSpace_cons (c := ',') rfl (itemsChars (next :: items) ++ rest)
    have hitems := h.items next items rest (by omega)
    simp [itemsChars, items?, hitem, hcomma, hitems]

/-- Behind a member stands the end of the object, or a comma and the further members. -/
theorem ReadsBack.members_succ (h : ReadsBack depth) (member : Option String × Json)
    (members : List (Option String × Json)) (rest : List Char)
    (hdepth : (membersChars (member :: members)).length ≤ depth + 1) :
    members? (depth + 1) (membersChars (member :: members) ++ rest) =
      some (member :: members, rest) := by
  obtain ⟨key, value⟩ := member
  cases members with
  | nil =>
    simp only [membersChars, List.length_append, List.length_cons, List.length_nil] at hdepth
    have hvalue := h.value value ('\x7d' :: rest) (by omega) (.inr (.inr rfl))
    obtain ⟨cs, hcons, hkey⟩ := stringTail?_stringChars key
      (':' :: (chars value ++ '\x7d' :: rest))
    simp [membersChars, hcons, members?_last hkey hvalue]
  | cons next members =>
    simp only [membersChars, List.length_append, List.length_cons] at hdepth
    have hvalue := h.value value (',' :: (membersChars (next :: members) ++ rest))
      (by omega) (.inl rfl)
    obtain ⟨cs, hcons, hkey⟩ := stringTail?_stringChars key
      (':' :: (chars value ++ ',' :: (membersChars (next :: members) ++ rest)))
    have hmembers := h.members next members rest (by omega)
    simp [membersChars, hcons, members?_next hkey hvalue, hmembers]

/-- Every bound is enough for the texts up to its length. -/
theorem readsBack (depth : Nat) : ReadsBack depth := by
  induction depth with
  | zero => exact readsBack_zero
  | succ depth ih => exact ⟨ih.value_succ, ih.items_succ, ih.members_succ⟩

/-- The text of a value is read back. -/
theorem parse_print (j : Json) : parse j.print = some j := by
  have hread := (readsBack (2 * (chars j).length + 1)).value j [] (by omega) trivial
  rw [List.append_nil] at hread
  rw [parse, print, String.toList_ofList, ofChars?, hread]
  rfl

/-- Different values have different texts. -/
theorem print_injective {j k : Json} (h : j.print = k.print) : j = k :=
  Option.some.inj (by rw [← parse_print j, h, parse_print k])

end JobCluster.Json
