import JobCluster.Table
/-!
# Identifiers

Jobs, nodes, exchanges, instances and transactions each have identifiers of their own type. Those
of jobs and transactions can be drawn from a counter; the text of a drawn identifier has the form
of a UUID.

Main results:

- `drawnText_inj`, `JobId.drawn_injective`: different numbers draw different identifiers.
-/

namespace JobCluster

/-- The time of the clock, in milliseconds. The clock has 64 bits; where a sum of times may pass
their limit, `Time.plus` says what becomes of it. -/
abbrev Time := Nat

/-- The identifier of a scheduled job. -/
structure JobId where
  text : String
  deriving DecidableEq, Repr, Inhabited

/-- The identifier of a node of the cluster. -/
structure NodeId where
  text : String
  deriving DecidableEq, Repr, Inhabited

/-- The identifier of a message exchange. -/
structure ExchangeId where
  text : String
  deriving DecidableEq, Repr, Inhabited

/-- The identifier of a process instance. -/
structure InstanceId where
  text : String
  deriving DecidableEq, Repr, Inhabited

/-- The identifier of a transaction: its number in the order in which they were begun. -/
structure TxId where
  serial : Nat
  deriving DecidableEq, Repr, Inhabited

instance : KeyOrder JobId := .comap JobId.text fun ⟨_⟩ ⟨_⟩ h => congrArg _ h
instance : KeyOrder NodeId := .comap NodeId.text fun ⟨_⟩ ⟨_⟩ h => congrArg _ h
instance : KeyOrder ExchangeId := .comap ExchangeId.text fun ⟨_⟩ ⟨_⟩ h => congrArg _ h
instance : KeyOrder InstanceId := .comap InstanceId.text fun ⟨_⟩ ⟨_⟩ h => congrArg _ h
instance : KeyOrder TxId := .comap TxId.serial fun ⟨_⟩ ⟨_⟩ h => congrArg _ h

instance : ToString JobId := ⟨JobId.text⟩
instance : ToString NodeId := ⟨NodeId.text⟩
instance : ToString ExchangeId := ⟨ExchangeId.text⟩
instance : ToString InstanceId := ⟨InstanceId.text⟩

/-! ## Drawn identifiers -/

/-- At least twelve decimal digits of a number. -/
def serialDigits (n : Nat) : List Char :=
  List.replicate (12 - (Nat.toDigits 10 n).length) '0' ++ Nat.toDigits 10 n

/-- The text of the identifier with the given number in a family, which is named by four
hexadecimal digits. -/
def drawnText (family : String) (n : Nat) : String :=
  "00000000-0000-4000-" ++ family ++ "-" ++ String.ofList (serialDigits n)

/-- The identifier of the job with the given number. -/
def JobId.drawn (n : Nat) : JobId := ⟨drawnText "8000" n⟩

/-- The text of a transaction identifier. -/
def TxId.text (id : TxId) : String := drawnText "9000" id.serial

instance : ToString TxId := ⟨TxId.text⟩

/-! ## Drawn identifiers differ -/

/-- The digits of a number are read back. -/
theorem ofDigitChars_serialDigits (n : Nat) : Nat.ofDigitChars 10 (serialDigits n) 0 = n := by
  rw [serialDigits, Nat.ofDigitChars_append, Nat.ofDigitChars_replicate_zero, Nat.mul_zero,
    Nat.ofDigitChars_ten_toDigits]

/-- Different numbers have different digits. -/
theorem serialDigits_injective {m n : Nat} (h : serialDigits m = serialDigits n) : m = n := by
  rw [← ofDigitChars_serialDigits m, h, ofDigitChars_serialDigits]

theorem drawnText_inj {family : String} {m n : Nat} :
    drawnText family m = drawnText family n ↔ m = n := by
  unfold drawnText
  rw [String.append_right_inj, String.ofList_inj]
  exact ⟨serialDigits_injective, congrArg serialDigits⟩

/-- No two drawn jobs have the same identifier. -/
theorem JobId.drawn_injective {m n : Nat} (h : JobId.drawn m = JobId.drawn n) : m = n :=
  drawnText_inj.mp (congrArg JobId.text h)

end JobCluster
