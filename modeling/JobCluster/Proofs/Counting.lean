/-!
# Counting the elements of a list

How a count changes when one element of the list is put in, or another one put in its place, and
what a key that no two elements share tells about them.
-/

namespace JobCluster

variable {α κ : Type} {p q r : α → Bool}

/-- Counting a list with one more element adds one if the element counts. -/
theorem countP_cons_toNat (p : α → Bool) (x : α) (l : List α) :
    (x :: l).countP p = l.countP p + (p x).toNat := by
  cases h : p x <;> simp [h]

/-- A count that is the sum of two others, element by element. -/
theorem countP_add {l : List α} (h : ∀ a, (p a).toNat = (q a).toNat + (r a).toNat) :
    l.countP p = l.countP q + l.countP r := by
  induction l with
  | nil => rfl
  | cons x rest ih =>
      have hx := h x
      simp only [countP_cons_toNat]
      omega

/-- A filter takes out as many elements as fail its test. -/
theorem length_sub_length_filter (l : List α) (p : α → Bool) :
    l.length - (l.filter p).length = l.countP fun a => !p a := by
  rw [← List.countP_eq_length_filter, List.length_eq_countP_add_countP p]
  have hnot : (l.countP fun a => decide ¬p a = true) = l.countP fun a => !p a :=
    List.countP_congr fun a _ => by simp
  omega

/-- A filter that lets through all elements that are counted leaves a count as it is. -/
theorem countP_filter_of_forall (h : ∀ a, p a = true → q a = true) (l : List α) :
    (l.filter q).countP p = l.countP p := by
  rw [List.countP_filter]
  refine List.countP_congr fun a _ => ⟨fun ha => (Bool.and_eq_true_iff.mp ha).1, fun ha => ?_⟩
  rw [ha, h a ha]
  rfl

/-- A filter that lets through none of them leaves nothing to count. -/
theorem countP_filter_eq_zero (h : ∀ a, p a = true → q a = false) (l : List α) :
    (l.filter q).countP p = 0 := by
  refine List.countP_eq_zero.mpr fun a hmem ha => ?_
  have hq := (List.mem_filter.mp hmem).2
  rw [h a ha] at hq
  cases hq

/-- A filter that takes an element out lowers a count by that element at least. -/
theorem countP_filter_add_le {l : List α} {a : α} (ha : a ∈ l) (hq : q a = false) :
    (l.filter q).countP p + (p a).toNat ≤ l.countP p := by
  induction l with
  | nil => cases ha
  | cons x rest ih =>
      rcases List.mem_cons.mp ha with rfl | ha
      · rw [List.filter_cons_of_neg (by simp [hq]), countP_cons_toNat]
        exact Nat.add_le_add_right (List.filter_sublist.countP_le) _
      · have hrest := ih ha
        rw [List.filter_cons, countP_cons_toNat]
        split
        · rw [countP_cons_toNat]
          omega
        · omega

/-- A change of one element changes a count by that element alone. -/
theorem countP_set_add {l : List α} {i : Nat} {a : α} (h : l[i]? = some a) (b : α) :
    (l.set i b).countP p + (p a).toNat = l.countP p + (p b).toNat := by
  induction l generalizing i with
  | nil => cases h
  | cons x rest ih =>
      cases i with
      | zero =>
          cases h
          simp only [List.set_cons_zero, countP_cons_toNat]
          omega
      | succ i =>
          have hrest := ih (i := i) h
          simp only [List.set_cons_succ, countP_cons_toNat]
          omega

/-- To replace an element by one that counts like it keeps the count. -/
theorem countP_set_of_eq {l : List α} {i : Nat} {a b : α} (h : l[i]? = some a)
    (hsame : p b = p a) : (l.set i b).countP p = l.countP p := by
  have hset := countP_set_add (p := p) h b
  rw [hsame] at hset
  exact Nat.add_right_cancel hset

/-- An element that is taken out changes a count by itself alone. -/
theorem countP_eraseIdx_add {l : List α} {i : Nat} {a : α} (h : l[i]? = some a) :
    (l.eraseIdx i).countP p + (p a).toNat = l.countP p := by
  induction l generalizing i with
  | nil => cases h
  | cons x rest ih =>
      cases i with
      | zero =>
          cases h
          simp only [List.eraseIdx_cons_zero, countP_cons_toNat]
      | succ i =>
          have hrest := ih (i := i) h
          simp only [List.eraseIdx_cons_succ, countP_cons_toNat]
          omega

/-- An element is found by a key that no two elements share. -/
theorem eq_of_pairwise_ne {key : α → κ} {l : List α} (h : l.Pairwise fun x y => key x ≠ key y)
    {x y : α} (hx : x ∈ l) (hy : y ∈ l) (hkey : key x = key y) : x = y := by
  induction h with
  | nil => cases hx
  | cons hhead _ ih =>
      rcases List.mem_cons.mp hx with rfl | hxrest
      · rcases List.mem_cons.mp hy with rfl | hyrest
        · rfl
        · exact absurd hkey (hhead y hyrest)
      · rcases List.mem_cons.mp hy with rfl | hyrest
        · exact absurd hkey.symm (hhead x hxrest)
        · exact ih hxrest hyrest

end JobCluster
