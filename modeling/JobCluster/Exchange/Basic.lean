import JobCluster.Catalog
import JobCluster.Ident
/-!
# Message exchanges

One conversation with a partner. Its status only moves forward, ends in one of three terminal
statuses, and stays as it is once the exchange is detached, that is, once it has left the registry
that held it.

Main results:

- `Exchange.advance_eq_ok`, `Exchange.complete_eq_completed`: what a successful step leaves behind;
- `Exchange.rank_le_advance`, `Exchange.rank_le_complete`: the rank of the status never falls.
-/

namespace JobCluster

/-- Who is invoked in the conversation. -/
inductive Direction
  /-- A partner invokes us. -/
  | myRole
  /-- We invoke a partner. -/
  | partnerRole
  deriving DecidableEq, Repr, Inhabited

/-- The wording of a direction. -/
def Direction.text : Direction → String
  | .myRole => "MY_ROLE"
  | .partnerRole => "PARTNER_ROLE"

instance : ToString Direction := ⟨Direction.text⟩

/-- How far a conversation has come. -/
inductive ExchangeStatus
  | new
  | invoked
  | asyncWait
  | completedOk
  | completedWithFault
  | failed
  deriving DecidableEq, Repr, Inhabited

namespace ExchangeStatus

/-- Whether the conversation is over. -/
def isTerminal : ExchangeStatus → Bool
  | .completedOk | .completedWithFault | .failed => true
  | .new | .invoked | .asyncWait => false

/-- The place of a status on the way forward; all terminal statuses share the last one. -/
def rank : ExchangeStatus → Nat
  | .new => 0
  | .invoked => 1
  | .asyncWait => 2
  | .completedOk | .completedWithFault | .failed => 3

/-- The wording of a status. -/
def text : ExchangeStatus → String
  | .new => "NEW"
  | .invoked => "INVOKED"
  | .asyncWait => "ASYNC_WAIT"
  | .completedOk => "COMPLETED_OK"
  | .completedWithFault => "COMPLETED_FAULT"
  | .failed => "FAILED"

instance : ToString ExchangeStatus := ⟨text⟩

/-- The terminal states are those of the highest rank. -/
theorem isTerminal_iff_rank (s : ExchangeStatus) : s.isTerminal = true ↔ s.rank = 3 := by
  cases s <;> simp [isTerminal, rank]

/-- No state ranks above the terminal ones. -/
theorem rank_le (s : ExchangeStatus) : s.rank ≤ 3 := by
  cases s <;> simp [rank]

end ExchangeStatus

/-- Whether an incoming message could be matched with its conversation. -/
inductive CorrelationStatus
  | uncorrelated
  | correlated
  | ambiguous
  deriving DecidableEq, Repr, Inhabited

/-- How the caller waits for the outcome. -/
inductive InvocationStyle
  | blocking
  | async
  /-- The outcome is handed on to another exchange. -/
  | piped (target : ExchangeId)
  deriving DecidableEq, Repr, Inhabited

/-- Why a conversation failed. -/
inductive FailureType
  | invalidEndpoint
  | unknownEndpoint
  | unknownOperation
  | communicationError
  | formatError
  | noResponse
  | aborted
  | other
  deriving DecidableEq, Repr, Inhabited

/-- What the partner answered with. -/
inductive AckType
  | response
  | fault
  | failure
  | oneWay
  deriving DecidableEq, Repr, Inhabited

/-- The outcome of an attempt to complete an exchange. -/
inductive Completion
  /-- The attempt set the terminal status. -/
  | completed
  /-- The exchange was over already, with the given status; nothing changed. -/
  | alreadyCompleted (status : ExchangeStatus)
  deriving DecidableEq, Repr

/-- What can be wrong with a call on an exchange or its registry. -/
inductive RegistryError
  | duplicateExchange (id : ExchangeId)
  | notFound (id : ExchangeId)
  /-- The exchange has left the registry. -/
  | detached (id : ExchangeId)
  | notTerminal (status : ExchangeStatus)
  | invalidTransition (id : ExchangeId) (source target : ExchangeStatus)
  /-- Another instance listens on the resource. -/
  | routeConflict (url method : String) (holder : InstanceId)
  deriving DecidableEq, Repr

/-- The wording of an error. -/
def RegistryError.message : RegistryError → String
  | .duplicateExchange id => s!"Message exchange {id} already exists"
  | .notFound id => s!"Message exchange {id} not found"
  | .detached id => s!"Message exchange {id} is no longer registered"
  | .notTerminal status => s!"{status} is not a terminal status"
  | .invalidTransition id source target =>
    s!"Message exchange {id} cannot move from {source} to {target}"
  | .routeConflict url method holder =>
    s!"Resource route {url}~{method} already held by instance {holder}"

/-- A conversation with a partner. -/
structure Exchange where
  id : ExchangeId
  direction : Direction
  createdAt : Time
  status : ExchangeStatus := .new
  /-- Whether the exchange has left the registry. -/
  detached : Bool := false
  pattern : Option InteractionPattern := none
  operation : Option String := none
  correlationStatus : CorrelationStatus := .uncorrelated
  style : InvocationStyle := .blocking
  fault : Option String := none
  /-- The explanation of the fault or failure that was recorded last. -/
  explanation : Option String := none
  failureType : Option FailureType := none
  ackType : Option AckType := none
  timeoutMillis : Option Nat := none
  /-- The process instance that the conversation belongs to. -/
  boundTo : Option InstanceId := none
  channel : Option String := none
  properties : Table String String := ∅
  deriving DecidableEq, Repr, Inhabited

namespace Exchange

/-- Whether the conversation is over. -/
def isTerminal (e : Exchange) : Bool := e.status.isTerminal

/-- Moves on to a status that is not terminal; the present status may be set again. -/
def advance (e : Exchange) (target : ExchangeStatus) : Except RegistryError Exchange :=
  if target.isTerminal then .error (.invalidTransition e.id e.status target)
  else if e.detached then .error (.detached e.id)
  else if e.isTerminal || decide (target.rank < e.status.rank) then
    .error (.invalidTransition e.id e.status target)
  else .ok { e with status := target }

/-- Ends the conversation with a terminal status, unless it is over. -/
def complete (e : Exchange) (target : ExchangeStatus) :
    Except RegistryError (Completion × Exchange) :=
  if !target.isTerminal then .error (.notTerminal target)
  else if e.isTerminal then .ok (.alreadyCompleted e.status, e)
  else if e.detached then .error (.detached e.id)
  else .ok (.completed, { e with status := target })

/-- Records a fault. -/
def setFault (e : Exchange) (fault : String) (explanation : Option String) : Exchange :=
  { e with fault := some fault, explanation }

/-- Records a failure. -/
def setFailure (e : Exchange) (failure : FailureType) (explanation : Option String) : Exchange :=
  { e with failureType := some failure, explanation }

/-- Takes over the fault, the explanation and the failure of another exchange. -/
def takeOutcome (e source : Exchange) : Exchange :=
  { e with fault := source.fault, explanation := source.explanation,
           failureType := source.failureType }

/-- Marks that the exchange has left the registry. -/
def detach (e : Exchange) : Exchange := { e with detached := true }

/-! ## The status moves forward -/

/-- An exchange advances to a later state that does not end it, and only while it has not ended. -/
theorem advance_eq_ok {e f : Exchange} {target : ExchangeStatus} (h : e.advance target = .ok f) :
    f = { e with status := target } ∧ target.isTerminal = false ∧ e.isTerminal = false ∧
      e.detached = false ∧ e.status.rank ≤ target.rank := by
  rw [advance] at h
  split at h
  · simp at h
  · split at h
    · simp at h
    · split at h
      · simp at h
      · next h1 h2 h3 =>
        simp only [Bool.or_eq_true, decide_eq_true_eq, not_or] at h3
        exact ⟨(Except.ok.inj h).symm, by simpa using h1, by simpa using h3.1, by simpa using h2,
          Nat.le_of_not_lt h3.2⟩

/-- A completion that succeeds ends an exchange that has not ended. -/
theorem complete_eq_completed {e f : Exchange} {target : ExchangeStatus}
    (h : e.complete target = .ok (.completed, f)) :
    f = { e with status := target } ∧ target.isTerminal = true ∧ e.isTerminal = false ∧
      e.detached = false := by
  rw [complete] at h
  split at h
  · simp at h
  · split at h
    · simp at h
    · split at h
      · simp at h
      · next h1 h2 h3 =>
        simp only [Except.ok.injEq, Prod.mk.injEq, true_and] at h
        exact ⟨h.symm, by simpa using h1, by simpa using h2, by simpa using h3⟩

theorem complete_eq_alreadyCompleted {e f : Exchange} {target status : ExchangeStatus}
    (h : e.complete target = .ok (.alreadyCompleted status, f)) :
    e.isTerminal = true ∧ f = e := by
  rw [complete] at h
  split at h
  · simp at h
  · split at h
    · next hover =>
      simp only [Except.ok.injEq, Prod.mk.injEq] at h
      exact ⟨hover, h.2.symm⟩
    · split at h <;> simp at h

/-- An exchange never advances to an earlier state. -/
theorem rank_le_advance {e f : Exchange} {target : ExchangeStatus}
    (h : e.advance target = .ok f) : e.status.rank ≤ f.status.rank := by
  obtain ⟨rfl, _, _, _, hr⟩ := advance_eq_ok h
  exact hr

/-- A completion never takes an exchange back. -/
theorem rank_le_complete {e f : Exchange} {target : ExchangeStatus} {c : Completion}
    (h : e.complete target = .ok (c, f)) : e.status.rank ≤ f.status.rank := by
  cases c with
  | completed =>
    obtain ⟨rfl, ht, _⟩ := complete_eq_completed h
    rw [ExchangeStatus.isTerminal_iff_rank] at ht
    exact ht ▸ e.status.rank_le
  | alreadyCompleted status => exact (complete_eq_alreadyCompleted h).2 ▸ Nat.le_refl _

end Exchange

/-- The view of an exchange that is handed to the outside. -/
structure ExchangeSnapshot where
  exchangeId : ExchangeId
  direction : Direction
  pattern : Option InteractionPattern
  operation : Option String
  status : ExchangeStatus
  correlationStatus : CorrelationStatus
  fault : Option String
  faultExplanation : Option String
  timeoutMillis : Option Nat
  deriving DecidableEq, Repr, Inhabited

/-- The view of an exchange that is handed to the outside. -/
def Exchange.snapshot (e : Exchange) : ExchangeSnapshot where
  exchangeId := e.id
  direction := e.direction
  pattern := e.pattern
  operation := e.operation
  status := e.status
  correlationStatus := e.correlationStatus
  fault := e.fault
  faultExplanation := e.explanation
  timeoutMillis := e.timeoutMillis

end JobCluster
