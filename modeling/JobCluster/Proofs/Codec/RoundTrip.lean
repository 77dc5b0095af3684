import Mathlib.Data.List.Nodup
import JobCluster.Codec.Exchange
import JobCluster.Codec.Instance
import JobCluster.Codec.Job
import JobCluster.Proofs.Json.RoundTrip
/-!
# Encoded values read back

What is written in one of the formats of the library is read back as it was: every shape of the
encoding has a law by which its reader undoes its writer, the records and variants put these laws
together, and the text of a document loses nothing.

Main results:

- `Layout.read?_fields`: an object of the fields of a layout has their values;
- `JobRecord.ofJson?_toJson` and its like for the other types: the JSON form of a value is read back;
- `Format.decode?_encode`: in every format, decoding the text of a value gives the value.
-/

namespace JobCluster.Codec

/-! ## Simple values -/

@[simp] theorem text?_text (s : String) : text? (.text s) = some s := rfl

@[simp] theorem bool?_bool (b : Bool) : bool? (.bool b) = some b := rfl

/-- A number of 64 bits is read back. -/
theorem word?_nat {n : Nat} (h : n < Text.wordLimit) : word? (.nat n) = some n := by
  simp [word?, Json.nat, h]

/-- Null stands for an absent value, and for no other if the values have other forms. -/
theorem optional?_optional {α : Type} {toJson : α → Json} {ofJson? : Json → Option α}
    {o : Option α} (hnull : ∀ a, toJson a ≠ .null) (h : ∀ a ∈ o, ofJson? (toJson a) = some a) :
    optional? ofJson? (some (.optional toJson o)) = some o := by
  cases o with
  | none => rfl
  | some a =>
    rw [Json.optional, optional?]
    · rw [h a rfl, Option.map_some]
    · simpa using hnull a

@[simp] theorem optional?_text (o : Option String) :
    optional? text? (some (.optional .text o)) = some o :=
  optional?_optional (by simp [Json.text]) (by simp)

/-- An optional number is read back if it has 64 bits. -/
theorem optional?_nat {o : Option Nat} (h : ∀ n ∈ o, n < Text.wordLimit) :
    optional? word? (some (.optional .nat o)) = some o :=
  optional?_optional (by simp [Json.nat]) fun n hn => word?_nat (h n hn)

/-! ## Tables -/

/-- Pairs with rising keys, put into a table one after another, stand before what it had. -/
theorem get?_foldl_insert {pairs : List (String × String)} (h : Table.Sorted pairs)
    (t : Table String String) (k : String) :
    (pairs.foldl (fun t x => t.insert x.1 x.2) t).get? k =
      (Table.lookup k pairs).or (t.get? k) := by
  induction pairs generalizing t with
  | nil => rfl
  | cons x rest ih =>
    obtain ⟨hx, hrest⟩ := List.pairwise_cons.mp h
    rw [List.foldl_cons, ih hrest, Table.get?_insert, Table.lookup]
    by_cases hk : x.1 = k
    · have hnone : Table.lookup k rest = none :=
        Table.lookup_eq_none_of_forall fun y hy => hk ▸ (KeyOrder.ne_of_before (hx y hy)).symm
      simp [hk, hnone]
    · simp [hk]

/-- A table is the table of the pairs it lists. -/
theorem ofList_entries (t : Table String String) : Table.ofList t.entries = t :=
  Table.ext_get? fun k => by
    rw [Table.ofList, get?_foldl_insert t.sorted, Table.get?_empty, Option.or_none, Table.get?]

/-- Pairs of texts are read back in order. -/
theorem textPairs?_map (pairs : List (String × String)) :
    textPairs? (pairs.map fun x => (some x.1, .text x.2)) = some pairs := by
  induction pairs with
  | nil => rfl
  | cons x rest ih => simp [textPairs?, Json.text, ← ih]

@[simp] theorem textTable?_ofTextTable (t : Table String String) :
    textTable? (ofTextTable t) = some t := by
  rw [ofTextTable, Json.fields, List.map_map, textTable?]
  exact (congrArg _ (textPairs?_map t.entries)).trans (by rw [Option.map_some, ofList_entries])

/-! ## Records -/

/-- A field that stands once among the members has its value, whether it must be there or not. -/
theorem member?_of_mem {pairs : List (String × Json)} (hnodup : (pairs.map Prod.fst).Nodup)
    {x : String × Json} (hx : x ∈ pairs) (presence : Presence) :
    member? (pairs.map fun x => (some x.1, x.2)) x.1 presence = some (some x.2) := by
  have honly : (pairs.map fun x => (some x.1, x.2)).filter (fun m => m.1 == some x.1) =
      [(some x.1, x.2)] := by
    induction pairs with
    | nil => simp at hx
    | cons y rest ih =>
      obtain ⟨hy, hrest⟩ := List.nodup_cons.mp hnodup
      rcases List.mem_cons.mp hx with rfl | hx
      · have hother : ∀ z ∈ rest, z.1 ≠ x.1 := fun z hz heq =>
          hy (heq ▸ List.mem_map_of_mem hz)
        simpa [List.filter_map, Function.comp_def] using fun a b hab => hother (a, b) hab
      · have hne : y.1 ≠ x.1 := fun heq => hy (heq ▸ List.mem_map_of_mem hx)
        simpa [hne] using ih hrest hx
  rw [member?, honly]

/-- The fields of a layout are found one after another among members that have them all. -/
theorem mapM_member? {pairs fields : List (String × Json)} {layout : Layout}
    (hnodup : (pairs.map Prod.fst).Nodup) (hmem : ∀ x ∈ fields, x ∈ pairs)
    (hnames : layout.map Prod.fst = fields.map Prod.fst) :
    (layout.mapM fun f => member? (pairs.map fun x => (some x.1, x.2)) f.1 f.2) =
      some (fields.map fun x => some x.2) := by
  induction layout generalizing fields with
  | nil =>
    cases fields with
    | nil => rfl
    | cons x rest => simp at hnames
  | cons name names ih =>
    cases fields with
    | nil => simp at hnames
    | cons x rest =>
      obtain ⟨hname, hrest⟩ := List.cons.inj hnames
      have hx := member?_of_mem hnodup (hmem x List.mem_cons_self) name.2
      rw [← hname] at hx
      have hothers := ih (fun y hy => hmem y (List.mem_cons_of_mem _ hy)) hrest
      simp [List.mapM_cons, hx, hothers]

/-- An object of the fields of a layout has the values of the fields. -/
theorem Layout.read?_fields {layout : Layout} {pairs : List (String × Json)}
    (hnames : layout.map Prod.fst = pairs.map Prod.fst) (hnodup : (layout.map Prod.fst).Nodup) :
    layout.read? (.fields pairs) = some (pairs.map fun x => some x.2) := by
  have hkeys : (pairs.map fun x => (some x.1, x.2)).all (fun m => m.1.isSome) = true := by simp
  rw [Json.fields, Layout.read?, if_pos hkeys]
  exact mapM_member? (hnames ▸ hnodup) (fun _ h => h) hnames

@[simp] theorem required_some {α : Type} (decode : Json → Option α) (j : Json) :
    required decode (some j) = decode j := rfl

@[simp] theorem orElse_some {α : Type} (default : α) (decode : Json → Option α) (j : Json) :
    orElse default decode (some j) = decode j := rfl

/-! ## Variants -/

/-- A variant is found by its name among variants that each have a name of their own. -/
theorem plain?_text {α : Type} {values : List α} {name : α → String} {a : α} (hmem : a ∈ values)
    (hname : ∀ b ∈ values, name b = name a → b = a) :
    plain? values name (.text (name a)) = some a := by
  have hfind : named? values name (name a) = some a := by
    cases h : named? values name (name a) with
    | none => exact absurd (List.find?_eq_none.mp h a hmem) (by simp)
    | some b =>
      have hb : name b = name a := by simpa using List.find?_some h
      rw [hname b (List.mem_of_find?_eq_some h) hb]
  rw [Json.text, plain?, variant?]
  exact hfind

end JobCluster.Codec

namespace JobCluster

open Codec

@[simp] theorem InteractionPattern.ofJson?_toJson (p : InteractionPattern) :
    ofJson? p.toJson = some p :=
  plain?_text (by cases p <;> decide) (by cases p <;> decide)

@[simp] theorem Direction.ofJson?_toJson (d : Direction) : ofJson? d.toJson = some d :=
  plain?_text (by cases d <;> decide) (by cases d <;> decide)

@[simp] theorem ExchangeStatus.ofJson?_toJson (s : ExchangeStatus) : ofJson? s.toJson = some s :=
  plain?_text (by cases s <;> decide) (by cases s <;> decide)

@[simp] theorem CorrelationStatus.ofJson?_toJson (s : CorrelationStatus) :
    ofJson? s.toJson = some s :=
  plain?_text (by cases s <;> decide) (by cases s <;> decide)

@[simp] theorem InstanceState.ofJson?_toJson (s : InstanceState) : ofJson? s.toJson = some s :=
  plain?_text (by cases s <;> decide) (by cases s <;> decide)

@[simp] theorem JobState.ofJson?_toJson (s : JobState) : ofJson? s.toJson = some s := by
  cases s <;> rfl

@[simp] theorem InvocationStyle.ofJson?_toJson (s : InvocationStyle) :
    ofJson? s.toJson = some s := by
  cases s <;> rfl

/-! ## Records of every type -/

@[simp] theorem OperationKey.ofJson?_toJson (k : OperationKey) : ofJson? k.toJson = some k := by
  rw [ofJson?, toJson, Layout.read?_fields rfl (by decide)]
  simp

@[simp] theorem RouteKey.ofJson?_toJson (k : RouteKey) : ofJson? k.toJson = some k := by
  rw [ofJson?, toJson, Layout.read?_fields rfl (by decide)]
  simp

@[simp] theorem ResourceRoute.ofJson?_toJson (r : ResourceRoute) : ofJson? r.toJson = some r := by
  rw [ofJson?, toJson, Layout.read?_fields rfl (by decide)]
  simp

@[simp] theorem JobDetails.ofJson?_toJson (d : JobDetails) : ofJson? d.toJson = some d := by
  rw [ofJson?, toJson, Layout.read?_fields rfl (by decide)]
  simp

/-- The states of an instance are told apart from an absent one. -/
theorem InstanceState.optional?_toJson (o : Option InstanceState) :
    optional? ofJson? (some (.optional toJson o)) = some o :=
  optional?_optional (by simp [toJson, Json.text]) (by simp)

/-- A stored job is read back if its due time has 64 bits. -/
theorem JobRecord.ofJson?_toJson {r : JobRecord} (h : ∀ d ∈ r.dueAt, d < Text.wordLimit) :
    ofJson? r.toJson = some r := by
  have howner : optional? text? (some (.optional (fun n : NodeId => .text n.text) r.owner)) =
      some (r.owner.map NodeId.text) := by
    cases r.owner <;> rfl
  rw [ofJson?, toJson, toFields, Layout.read?_fields rfl (by decide)]
  simp [optional?_nat h, howner, Function.comp_def]

/-- A job info is read back if its due time has 64 bits. -/
theorem JobInfo.ofJson?_toJson {i : JobInfo} (h : ∀ d ∈ i.dueAt, d < Text.wordLimit) :
    ofJson? i.toJson = some i := by
  rw [ofJson?, toJson, Layout.read?_fields rfl (by decide)]
  simp [optional?_nat h]

/-- A process instance is read back if its last activity has 64 bits. -/
theorem ProcessInstance.ofJson?_toJson {p : ProcessInstance} (h : p.lastActive < Text.wordLimit) :
    ofJson? p.toJson = some p := by
  rw [ofJson?, toJson, Layout.read?_fields rfl (by decide)]
  simp [InstanceState.optional?_toJson, word?_nat h]

/-- The view of an exchange is read back if its timeout has 64 bits. -/
theorem ExchangeSnapshot.ofJson?_toJson {s : ExchangeSnapshot}
    (h : ∀ t ∈ s.timeoutMillis, t < Text.wordLimit) : ofJson? s.toJson = some s := by
  have hpattern : optional? InteractionPattern.ofJson?
      (some (.optional InteractionPattern.toJson s.pattern)) = some s.pattern :=
    optional?_optional (by simp [InteractionPattern.toJson, Json.text]) (by simp)
  rw [ofJson?, toJson, toFields, Layout.read?_fields rfl (by decide)]
  simp [hpattern, optional?_nat h]

/-! ## Formats -/

/-- The formats in which values are stored or handed to the outside. -/
inductive Format
  | jobRecord
  | jobDetails
  | jobInfo
  | jobState
  | processInstance
  | exchangeSnapshot
  | resourceRoute
  | routeKey
  | operationKey
  | invocationStyle
  deriving DecidableEq, Repr

namespace Format

/-- The type of the values of a format. -/
@[reducible] def Value : Format → Type
  | jobRecord => JobRecord
  | jobDetails => JobDetails
  | jobInfo => JobInfo
  | jobState => JobState
  | processInstance => ProcessInstance
  | exchangeSnapshot => ExchangeSnapshot
  | resourceRoute => ResourceRoute
  | routeKey => RouteKey
  | operationKey => OperationKey
  | invocationStyle => InvocationStyle

/-- The JSON form of a value. -/
def toJson : (f : Format) → f.Value → Json
  | jobRecord => JobRecord.toJson
  | jobDetails => JobDetails.toJson
  | jobInfo => JobInfo.toJson
  | jobState => JobState.toJson
  | processInstance => ProcessInstance.toJson
  | exchangeSnapshot => ExchangeSnapshot.toJson
  | resourceRoute => ResourceRoute.toJson
  | routeKey => RouteKey.toJson
  | operationKey => OperationKey.toJson
  | invocationStyle => InvocationStyle.toJson

/-- A value from its JSON form. -/
def ofJson? : (f : Format) → Json → Option f.Value
  | jobRecord => JobRecord.ofJson?
  | jobDetails => JobDetails.ofJson?
  | jobInfo => JobInfo.ofJson?
  | jobState => JobState.ofJson?
  | processInstance => ProcessInstance.ofJson?
  | exchangeSnapshot => ExchangeSnapshot.ofJson?
  | resourceRoute => ResourceRoute.ofJson?
  | routeKey => RouteKey.ofJson?
  | operationKey => OperationKey.ofJson?
  | invocationStyle => InvocationStyle.ofJson?

/-- The numbers of a value have 64 bits; there is nothing to ask of values without numbers. -/
def Fits : (f : Format) → f.Value → Prop
  | jobRecord, r => ∀ d ∈ r.dueAt, d < Text.wordLimit
  | jobInfo, i => ∀ d ∈ i.dueAt, d < Text.wordLimit
  | processInstance, p => p.lastActive < Text.wordLimit
  | exchangeSnapshot, s => ∀ t ∈ s.timeoutMillis, t < Text.wordLimit
  | jobDetails, _ | jobState, _ | resourceRoute, _ | routeKey, _ | operationKey, _
  | invocationStyle, _ => True

/-- The text of a value. -/
def encode (f : Format) (v : f.Value) : String := (f.toJson v).print

/-- The value that a text writes, if it writes one. -/
def decode? (f : Format) (s : String) : Option f.Value := (Json.parse s).bind f.ofJson?

/-- The JSON form of a value is read back in every format. -/
theorem ofJson?_toJson (f : Format) (v : f.Value) (h : f.Fits v) :
    f.ofJson? (f.toJson v) = some v := by
  cases f with
  | jobRecord => exact JobRecord.ofJson?_toJson h
  | jobDetails => exact JobDetails.ofJson?_toJson v
  | jobInfo => exact JobInfo.ofJson?_toJson h
  | jobState => exact JobState.ofJson?_toJson v
  | processInstance => exact ProcessInstance.ofJson?_toJson h
  | exchangeSnapshot => exact ExchangeSnapshot.ofJson?_toJson h
  | resourceRoute => exact ResourceRoute.ofJson?_toJson v
  | routeKey => exact RouteKey.ofJson?_toJson v
  | operationKey => exact OperationKey.ofJson?_toJson v
  | invocationStyle => exact InvocationStyle.ofJson?_toJson v

/-- In every format, decoding the text of a value gives the value: no character of a text, no
number of 64 bits, no pair of a table and no absent field is lost or mistaken for another. -/
theorem decode?_encode (f : Format) (v : f.Value) (h : f.Fits v) :
    f.decode? (f.encode v) = some v := by
  rw [decode?, encode, Json.parse_print, Option.bind_some]
  exact ofJson?_toJson f v h

/-- A stored job with every kind of character that a string has to escape, the largest due time
and an entry under the empty key. -/
def awkwardJob : JobRecord where
  id := ⟨"\"id\" \\ \x08\x0c\n\r\t\x00\x1f \x7f / é 😀"⟩
  details :=
    { jobType := "\\u0041", entries := .ofList [("b", "\\\""), ("", "\n"), ("a", "\x7b\x7d")] }
  dueAt := some (Text.wordLimit - 1)
  transacted := false
  state := .claimed ⟨"Pending"⟩

/-- The record whose texts need escapes and whose options are null is read back from its text. -/
theorem decode?_encode_awkwardJob :
    decode? .jobRecord (encode .jobRecord awkwardJob) = some awkwardJob :=
  decode?_encode .jobRecord awkwardJob (by intro d hd; cases hd; decide)

end Format

end JobCluster
