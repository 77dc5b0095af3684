/-!
# Tables

A table is a finite map whose pairs are kept in the order of their keys, so that two tables with
the same look-ups are equal and every listing of a table is sorted.

Main results:

- `Table.get?_insert`, `Table.get?_erase`, `Table.get?_modify`, `Table.get?_map` and
  `Table.get?_filter`: each operation through the look-up;
- `Table.mem_entries_iff`: a pair is listed exactly when the look-up finds it;
- `Table.ext_get?`: tables with the same look-ups are equal.
-/

namespace JobCluster

/-! ## Orders on keys -/

/-- A strict linear order that can be computed. -/
class KeyOrder (κ : Type) where
  /-- The first key comes strictly before the second. -/
  before : κ → κ → Bool
  irrefl : ∀ a, before a a = false
  trans : ∀ {a b c}, before a b = true → before b c = true → before a c = true
  total : ∀ {a b}, before a b = false → before b a = false → a = b

namespace KeyOrder

/-- Numbers in their usual order. -/
instance : KeyOrder Nat where
  before a b := decide (a < b)
  irrefl := by simp
  trans := by simp; omega
  total := by simp; omega

/-- Texts by the code points of their characters. -/
instance : KeyOrder String where
  before a b := decide (a < b)
  irrefl a := decide_eq_false (String.lt_irrefl a)
  trans := by
    intro a b c hab hbc
    simp only [decide_eq_true_eq] at *
    exact String.lt_trans hab hbc
  total := by
    intro a b hab hba
    simp only [decide_eq_false_iff_not] at *
    exact String.le_antisymm (String.not_lt.mp hba) (String.not_lt.mp hab)

/-- The order of the values of a function that tells its arguments apart. -/
@[reducible] def comap {κ ι : Type} [KeyOrder ι] (f : κ → ι) (h : ∀ a b, f a = f b → a = b) :
    KeyOrder κ where
  before a b := before (f a) (f b)
  irrefl a := irrefl (f a)
  trans := trans
  total hab hba := h _ _ (total hab hba)

/-- Pairs by their first parts, and by their second parts where those agree. -/
instance {κ ι : Type} [DecidableEq κ] [KeyOrder κ] [KeyOrder ι] : KeyOrder (κ × ι) where
  before a b := before a.1 b.1 || (decide (a.1 = b.1) && before a.2 b.2)
  irrefl a := by simp [irrefl]
  trans := by
    intro a b c hab hbc
    simp only [Bool.or_eq_true, Bool.and_eq_true, decide_eq_true_eq] at *
    rcases hab with hab | ⟨hab, hab'⟩
    · rcases hbc with hbc | ⟨hbc, _⟩
      · exact .inl (trans hab hbc)
      · exact .inl (hbc ▸ hab)
    · rcases hbc with hbc | ⟨hbc, hbc'⟩
      · exact .inl (hab ▸ hbc)
      · exact .inr ⟨hab.trans hbc, trans hab' hbc'⟩
  total := by
    intro a b hab hba
    simp only [Bool.or_eq_false_iff, Bool.and_eq_false_iff, decide_eq_false_iff_not] at *
    have h : a.1 = b.1 := total hab.1 hba.1
    have h' : a.2 = b.2 :=
      total (hab.2.resolve_left (not_not_intro h)) (hba.2.resolve_left (not_not_intro h.symm))
    exact Prod.ext h h'

/-- A key is different from every key that it comes before. -/
theorem ne_of_before {κ : Type} [KeyOrder κ] {a b : κ} (h : before a b = true) : a ≠ b := by
  rintro rfl
  simp [irrefl] at h

end KeyOrder

/-! ## Lists of pairs -/

namespace Table

variable {κ α β : Type}

/-- The value of the first pair with the key. -/
def lookup [DecidableEq κ] (k : κ) : List (κ × α) → Option α
  | [] => none
  | (j, a) :: rest => if j = k then some a else lookup k rest

/-- Puts a pair at the place of its key, in the stead of a pair with the same key. -/
def put [KeyOrder κ] (k : κ) (a : α) : List (κ × α) → List (κ × α)
  | [] => [(k, a)]
  | (j, b) :: rest =>
    if KeyOrder.before k j then (k, a) :: (j, b) :: rest
    else if KeyOrder.before j k then (j, b) :: put k a rest
    else (k, a) :: rest

/-- The keys of the pairs rise strictly. -/
def Sorted [KeyOrder κ] (pairs : List (κ × α)) : Prop :=
  pairs.Pairwise fun x y => KeyOrder.before x.1 y.1 = true

/-- What is in the list afterwards is the new pair, or was there before. -/
theorem mem_put [KeyOrder κ] {k : κ} {a : α} {x : κ × α} {pairs : List (κ × α)}
    (h : x ∈ put k a pairs) : x = (k, a) ∨ x ∈ pairs := by
  induction pairs with
  | nil => simpa [put] using h
  | cons p rest ih =>
    rw [put] at h
    split at h
    · simpa using h
    · split at h
      · rcases List.mem_cons.mp h with h | h
        · exact .inr (h ▸ List.mem_cons_self)
        · exact (ih h).imp id (List.mem_cons_of_mem _)
      · rcases List.mem_cons.mp h with h | h
        · exact .inl h
        · exact .inr (List.mem_cons_of_mem _ h)

/-- A sorted list stays sorted. -/
theorem sorted_put [KeyOrder κ] (k : κ) (a : α) {pairs : List (κ × α)} (h : Sorted pairs) :
    Sorted (put k a pairs) := by
  induction pairs with
  | nil => simp [put, Sorted]
  | cons p rest ih =>
    obtain ⟨hp, hrest⟩ := List.pairwise_cons.mp h
    rw [put]
    split
    · next hk =>
      refine List.pairwise_cons.mpr ⟨fun x hx => ?_, h⟩
      rcases List.mem_cons.mp hx with rfl | hx
      · exact hk
      · exact KeyOrder.trans hk (hp x hx)
    · next hk =>
      split
      · next hj =>
        refine List.pairwise_cons.mpr ⟨fun x hx => ?_, ih hrest⟩
        rcases mem_put hx with rfl | hx
        · exact hj
        · exact hp x hx
      · next hj =>
        have : p.1 = k := KeyOrder.total (by simpa using hj) (by simpa using hk)
        exact List.pairwise_cons.mpr ⟨fun x hx => this ▸ hp x hx, hrest⟩

/-- The value of a key is the new one for that key, and what it was for the others. -/
theorem lookup_put [DecidableEq κ] [KeyOrder κ] (k j : κ) (a : α) (pairs : List (κ × α)) :
    lookup j (put k a pairs) = if k = j then some a else lookup j pairs := by
  induction pairs with
  | nil => simp [put, lookup]
  | cons p rest ih =>
    rw [put]
    split
    · simp [lookup]
    · next hk =>
      split
      · next hj =>
        have : p.1 ≠ k := KeyOrder.ne_of_before hj
        grind [lookup]
      · next hj =>
        have : p.1 = k := KeyOrder.total (by simpa using hj) (by simpa using hk)
        grind [lookup]

/-- A key that no pair has is not found. -/
theorem lookup_eq_none_of_forall [DecidableEq κ] {k : κ} {pairs : List (κ × α)}
    (h : ∀ x ∈ pairs, x.1 ≠ k) : lookup k pairs = none := by
  induction pairs with
  | nil => rfl
  | cons p rest ih => grind [lookup]

/-- The pairs of a sorted list are the values that are found. -/
theorem mem_iff_lookup [DecidableEq κ] [KeyOrder κ] {k : κ} {a : α} {pairs : List (κ × α)}
    (h : Sorted pairs) : (k, a) ∈ pairs ↔ lookup k pairs = some a := by
  induction pairs with
  | nil => simp [lookup]
  | cons p rest ih =>
    obtain ⟨hp, hrest⟩ := List.pairwise_cons.mp h
    have ih := ih hrest
    rw [lookup, List.mem_cons]
    split
    · next hk =>
      constructor
      · rintro (rfl | hm)
        · rfl
        · exact absurd hk (KeyOrder.ne_of_before (hp _ hm))
      · intro ha
        exact .inl (by rw [← hk, ← Option.some.inj ha])
    · next hk =>
      rw [← ih]
      constructor
      · rintro (rfl | hm)
        · exact absurd rfl hk
        · exact hm
      · exact .inr

/-- A value is found in a filtered list if it is found and passes. -/
theorem lookup_filter [DecidableEq κ] [KeyOrder κ] (p : κ × α → Bool) (k : κ)
    {pairs : List (κ × α)} (h : Sorted pairs) :
    lookup k (pairs.filter p) = (lookup k pairs).filter fun a => p (k, a) := by
  induction pairs with
  | nil => rfl
  | cons x rest ih =>
    obtain ⟨hx, hrest⟩ := List.pairwise_cons.mp h
    have ih := ih hrest
    by_cases hk : x.1 = k
    · subst hk
      have hnone : lookup x.1 (rest.filter p) = none :=
        lookup_eq_none_of_forall fun y hy =>
          (KeyOrder.ne_of_before (hx y (List.mem_filter.mp hy).1)).symm
      by_cases hp : p x = true
      · simp [hp, lookup, Option.filter]
      · simp [hp, lookup, Option.filter, hnone]
    · by_cases hp : p x = true
      · simp [hp, lookup, hk, ih]
      · simp [hp, lookup, hk, ih]

/-- A new key makes the list longer by one. -/
theorem length_put [DecidableEq κ] [KeyOrder κ] {k : κ} {pairs : List (κ × α)}
    (h : lookup k pairs = none) (a : α) : (put k a pairs).length = pairs.length + 1 := by
  induction pairs with
  | nil => rfl
  | cons p rest ih =>
    rw [lookup] at h
    split at h
    · simp at h
    · next hp =>
      rw [put]
      split
      · rfl
      · next hk =>
        split
        · simp [ih h]
        · next hj => exact absurd (KeyOrder.total (by simpa using hj) (by simpa using hk)) hp

/-- A list is shorter by one without the pair of a key that is found. -/
theorem length_filter_ne [DecidableEq κ] [KeyOrder κ] {k : κ} {a : α} {pairs : List (κ × α)}
    (hs : Sorted pairs) (h : lookup k pairs = some a) :
    (pairs.filter fun x => decide (x.1 ≠ k)).length + 1 = pairs.length := by
  induction pairs with
  | nil => simp [lookup] at h
  | cons p rest ih =>
    obtain ⟨hp, hrest⟩ := List.pairwise_cons.mp hs
    rw [lookup] at h
    split at h
    · next hk =>
      have hself : rest.filter (fun x => decide (x.1 ≠ k)) = rest :=
        List.filter_eq_self.mpr fun x hx =>
          decide_eq_true (hk ▸ (KeyOrder.ne_of_before (hp x hx)).symm)
      rw [List.filter_cons_of_neg (by simpa using hk), hself, List.length_cons]
    · next hk =>
      rw [List.filter_cons_of_pos (by simpa using hk), List.length_cons, List.length_cons,
        ih hrest h]

/-- The values that are found are changed one by one. -/
theorem lookup_map [DecidableEq κ] (f : κ → α → β) (k : κ) (pairs : List (κ × α)) :
    lookup k (pairs.map fun x => (x.1, f x.1 x.2)) = (lookup k pairs).map (f k) := by
  induction pairs with
  | nil => rfl
  | cons p rest ih =>
    by_cases h : p.1 = k
    · simp [lookup, h]
    · simp [lookup, h, ih]

/-- Sorted lists in which the same is found are the same. -/
theorem eq_of_lookup [DecidableEq κ] [KeyOrder κ] {xs ys : List (κ × α)} (hx : Sorted xs)
    (hy : Sorted ys) (h : ∀ k, lookup k xs = lookup k ys) : xs = ys := by
  induction xs generalizing ys with
  | nil =>
    cases ys with
    | nil => rfl
    | cons y ys => simpa [lookup] using h y.1
  | cons x xs ih =>
    cases ys with
    | nil => simpa [lookup] using h x.1
    | cons y ys =>
      obtain ⟨hx₁, hx₂⟩ := List.pairwise_cons.mp hx
      obtain ⟨hy₁, hy₂⟩ := List.pairwise_cons.mp hy
      have hmx : ∀ z ∈ y :: ys, z ∈ x :: xs := fun z hz =>
        (mem_iff_lookup hx).mpr (by rw [h]; exact (mem_iff_lookup hy).mp hz)
      have hmy : ∀ z ∈ x :: xs, z ∈ y :: ys := fun z hz =>
        (mem_iff_lookup hy).mpr (by rw [← h]; exact (mem_iff_lookup hx).mp hz)
      have hxy : x = y := by
        rcases List.mem_cons.mp (hmy x List.mem_cons_self) with e | e
        · exact e
        · rcases List.mem_cons.mp (hmx y List.mem_cons_self) with e' | e'
          · exact e'.symm
          · have := KeyOrder.trans (hy₁ x e) (hx₁ y e')
            simp [KeyOrder.irrefl] at this
      subst hxy
      refine congrArg (x :: ·) (ih hx₂ hy₂ fun k => ?_)
      have hk := h k
      by_cases e : x.1 = k
      · rw [lookup_eq_none_of_forall fun z hz => e ▸ (KeyOrder.ne_of_before (hx₁ z hz)).symm,
          lookup_eq_none_of_forall fun z hz => e ▸ (KeyOrder.ne_of_before (hy₁ z hz)).symm]
      · simpa [lookup, e] using hk

end Table

/-! ## The type of tables -/

/-- A finite map, listed in the order of its keys. -/
structure Table (κ α : Type) [KeyOrder κ] where
  entries : List (κ × α) := []
  sorted : Table.Sorted entries := by exact List.Pairwise.nil
  deriving DecidableEq, Repr

namespace Table

variable {κ α β : Type} [DecidableEq κ] [KeyOrder κ]

instance : EmptyCollection (Table κ α) := ⟨{}⟩

instance : Inhabited (Table κ α) := ⟨∅⟩

/-- The value under the key. -/
def get? (t : Table κ α) (k : κ) : Option α := lookup k t.entries

/-- Whether the key has a value. -/
def contains (t : Table κ α) (k : κ) : Bool := (t.get? k).isSome

/-- Sets the value under the key. -/
def insert (t : Table κ α) (k : κ) (a : α) : Table κ α where
  entries := put k a t.entries
  sorted := sorted_put k a t.sorted

/-- Keeps the pairs that satisfy the test. -/
def filter (t : Table κ α) (p : κ → α → Bool) : Table κ α where
  entries := t.entries.filter fun x => p x.1 x.2
  sorted := t.sorted.sublist List.filter_sublist

/-- Takes the key out. -/
def erase (t : Table κ α) (k : κ) : Table κ α := t.filter fun j _ => decide (j ≠ k)

/-- Changes every value, knowing its key. -/
def map (t : Table κ α) (f : κ → α → β) : Table κ β where
  entries := t.entries.map fun x => (x.1, f x.1 x.2)
  sorted := by
    have h := t.sorted
    rw [Sorted] at *
    exact List.pairwise_map.mpr h

/-- Changes the value under the key, if there is one. -/
def modify (t : Table κ α) (k : κ) (f : α → α) : Table κ α :=
  t.map fun j a => if j = k then f a else a

/-- Sets the value under the key, or takes the key out. -/
def set (t : Table κ α) (k : κ) : Option α → Table κ α
  | some a => t.insert k a
  | none => t.erase k

/-- The table of a list of pairs, where a later pair replaces an earlier one of the same key. -/
def ofList (pairs : List (κ × α)) : Table κ α :=
  pairs.foldl (fun t x => t.insert x.1 x.2) ∅

/-- The keys, in order. -/
def keys (t : Table κ α) : List κ := t.entries.map Prod.fst

/-- The values, in the order of their keys. -/
def values (t : Table κ α) : List α := t.entries.map Prod.snd

/-- The number of pairs. -/
def size (t : Table κ α) : Nat := t.entries.length

/-- Whether there is no pair. -/
def isEmpty (t : Table κ α) : Bool := t.entries.isEmpty

/-! ## Operations through the look-up -/

@[simp] theorem get?_empty (k : κ) : (∅ : Table κ α).get? k = none := rfl

@[simp] theorem get?_insert (t : Table κ α) (k j : κ) (a : α) :
    (t.insert k a).get? j = if k = j then some a else t.get? j :=
  lookup_put k j a t.entries

@[simp] theorem get?_filter (t : Table κ α) (p : κ → α → Bool) (k : κ) :
    (t.filter p).get? k = (t.get? k).filter (p k) :=
  lookup_filter (fun x => p x.1 x.2) k t.sorted

@[simp] theorem get?_erase (t : Table κ α) (k j : κ) :
    (t.erase k).get? j = if j = k then none else t.get? j := by
  rw [erase, get?_filter]
  by_cases h : j = k
  · simp [h]
  · cases t.get? j <;> simp [h]

@[simp] theorem get?_map (t : Table κ α) (f : κ → α → β) (k : κ) :
    (t.map f).get? k = (t.get? k).map (f k) :=
  lookup_map f k t.entries

@[simp] theorem get?_modify (t : Table κ α) (k j : κ) (f : α → α) :
    (t.modify k f).get? j = if j = k then (t.get? j).map f else t.get? j := by
  rw [modify, get?_map]
  by_cases h : j = k
  · simp [h]
  · cases t.get? j <;> simp [h]

@[simp] theorem get?_set (t : Table κ α) (k j : κ) (o : Option α) :
    (t.set k o).get? j = if k = j then o else t.get? j := by
  cases o with
  | some a => simp [set]
  | none =>
    by_cases h : k = j
    · simp [set, h]
    · simp [set, h, Ne.symm h]

omit [DecidableEq κ] in
@[simp] theorem size_map (t : Table κ α) (f : κ → α → β) : (t.map f).size = t.size := by
  simp [size, map]

theorem size_insert {t : Table κ α} {k : κ} (h : t.get? k = none) (a : α) :
    (t.insert k a).size = t.size + 1 :=
  length_put h a

theorem size_erase {t : Table κ α} {k : κ} {a : α} (h : t.get? k = some a) :
    (t.erase k).size + 1 = t.size :=
  length_filter_ne t.sorted h

/-- A pair is listed exactly when the look-up finds it. -/
theorem mem_entries_iff (t : Table κ α) (k : κ) (a : α) :
    (k, a) ∈ t.entries ↔ t.get? k = some a :=
  mem_iff_lookup t.sorted

/-- Tables with the same look-ups are equal. -/
theorem ext_get? {t u : Table κ α} (h : ∀ k, t.get? k = u.get? k) : t = u := by
  obtain ⟨xs, hx⟩ := t
  obtain ⟨ys, hy⟩ := u
  have : xs = ys := eq_of_lookup hx hy h
  subst this
  rfl

/-- Taking out a key changes nothing exactly if the key is not there. -/
theorem erase_eq_self_iff {t : Table κ α} {k : κ} : t.erase k = t ↔ t.get? k = none := by
  constructor
  · intro h
    rw [← h]
    simp
  · intro h
    refine ext_get? fun j => ?_
    by_cases hj : j = k <;> simp [hj, h]

/-- Of two values put in under one key the second stays. -/
@[simp] theorem insert_insert (t : Table κ α) (k : κ) (a b : α) :
    (t.insert k a).insert k b = t.insert k b :=
  ext_get? fun i => by
    simp only [get?_insert]
    split <;> rfl

/-- A value that is put in the place of another one leaves the size as it is. -/
theorem size_insert_of_get? {t : Table κ α} {k : κ} {a : α} (h : t.get? k = some a) (b : α) :
    (t.insert k b).size = t.size := by
  have hmap : t.insert k b = t.map fun j x => if k = j then b else x := by
    refine ext_get? fun j => ?_
    by_cases hj : k = j
    · subst hj
      simp [h]
    · simp [hj]
  rw [hmap, size_map]

end Table

end JobCluster
