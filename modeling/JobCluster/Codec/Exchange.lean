import JobCluster.Codec.Shape
import JobCluster.Exchange.Route
/-!
# Encoded exchanges

The JSON forms of what the exchange registry shows to the outside.
-/

namespace JobCluster

open Codec

/-! ## Plain variants -/

namespace InteractionPattern

/-- Every pattern. -/
def all : List InteractionPattern := [.oneWay, .requestResponse, .unknown]

/-- The name of a pattern in JSON. -/
def name : InteractionPattern → String
  | .oneWay => "OneWay"
  | .requestResponse => "RequestResponse"
  | .unknown => "Unknown"

/-- The JSON form of a pattern. -/
def toJson (p : InteractionPattern) : Json := .text p.name

/-- A pattern from its JSON form. -/
def ofJson? : Json → Option InteractionPattern := plain? all name

end InteractionPattern

namespace Direction

/-- Both directions. -/
def all : List Direction := [.myRole, .partnerRole]

/-- The name of a direction in JSON. -/
def name : Direction → String
  | .myRole => "MyRole"
  | .partnerRole => "PartnerRole"

/-- The JSON form of a direction. -/
def toJson (d : Direction) : Json := .text d.name

/-- A direction from its JSON form. -/
def ofJson? : Json → Option Direction := plain? all name

end Direction

namespace ExchangeStatus

/-- Every status. -/
def all : List ExchangeStatus :=
  [.new, .invoked, .asyncWait, .completedOk, .completedWithFault, .failed]

/-- The name of a status in JSON. -/
def name : ExchangeStatus → String
  | .new => "New"
  | .invoked => "Invoked"
  | .asyncWait => "AsyncWait"
  | .completedOk => "CompletedOk"
  | .completedWithFault => "CompletedWithFault"
  | .failed => "Failed"

/-- The JSON form of a status. -/
def toJson (s : ExchangeStatus) : Json := .text s.name

/-- A status from its JSON form. -/
def ofJson? : Json → Option ExchangeStatus := plain? all name

end ExchangeStatus

namespace CorrelationStatus

/-- Every correlation status. -/
def all : List CorrelationStatus := [.uncorrelated, .correlated, .ambiguous]

/-- The name of a correlation status in JSON. -/
def name : CorrelationStatus → String
  | .uncorrelated => "Uncorrelated"
  | .correlated => "Correlated"
  | .ambiguous => "Ambiguous"

/-- The JSON form of a correlation status. -/
def toJson (s : CorrelationStatus) : Json := .text s.name

/-- A correlation status from its JSON form. -/
def ofJson? : Json → Option CorrelationStatus := plain? all name

end CorrelationStatus

namespace FailureType

/-- Every failure type. -/
def all : List FailureType :=
  [.invalidEndpoint, .unknownEndpoint, .unknownOperation, .communicationError, .formatError,
   .noResponse, .aborted, .other]

/-- The name of a failure type in JSON. -/
def name : FailureType → String
  | .invalidEndpoint => "InvalidEndpoint"
  | .unknownEndpoint => "UnknownEndpoint"
  | .unknownOperation => "UnknownOperation"
  | .communicationError => "CommunicationError"
  | .formatError => "FormatError"
  | .noResponse => "NoResponse"
  | .aborted => "Aborted"
  | .other => "Other"

/-- The JSON form of a failure type. -/
def toJson (f : FailureType) : Json := .text f.name

/-- A failure type from its JSON form. -/
def ofJson? : Json → Option FailureType := plain? all name

end FailureType

namespace AckType

/-- Every kind of acknowledgement. -/
def all : List AckType := [.response, .fault, .failure, .oneWay]

/-- The name of a kind of acknowledgement in JSON. -/
def name : AckType → String
  | .response => "Response"
  | .fault => "Fault"
  | .failure => "Failure"
  | .oneWay => "OneWay"

/-- The JSON form of a kind of acknowledgement. -/
def toJson (a : AckType) : Json := .text a.name

/-- A kind of acknowledgement from its JSON form. -/
def ofJson? : Json → Option AckType := plain? all name

end AckType

/-! ## Invocation styles -/

namespace InvocationStyle

/-- The JSON form of an invocation style. -/
def toJson : InvocationStyle → Json
  | .blocking => .text "Blocking"
  | .async => .text "Async"
  | .piped target => withPayload "Piped" (.text target.text)

/-- An invocation style from its JSON form. -/
def ofJson? (j : Json) : Option InvocationStyle :=
  match variant? j with
  | some ("Piped", some payload) => (text? payload).map fun s => .piped ⟨s⟩
  | some ("Blocking", none) | some ("Blocking", some .null) => some .blocking
  | some ("Async", none) | some ("Async", some .null) => some .async
  | _ => none

end InvocationStyle

/-! ## Records -/

namespace OperationKey

/-- The fields of an operation key. -/
def layout : Layout := [("service", .required), ("operation", .required)]

/-- The JSON form of an operation key. -/
def toJson (k : OperationKey) : Json :=
  .fields [("service", .text k.service), ("operation", .text k.operation)]

/-- An operation key from its JSON form. -/
def ofJson? (j : Json) : Option OperationKey :=
  match layout.read? j with
  | some [service, operation] => do
    return { service := ← required text? service, operation := ← required text? operation }
  | _ => none

end OperationKey

namespace RouteKey

/-- The fields of a resource. -/
def layout : Layout := [("url", .required), ("method", .required)]

/-- The JSON form of a resource. -/
def toJson (k : RouteKey) : Json := .fields [("url", .text k.url), ("method", .text k.method)]

/-- A resource from its JSON form. -/
def ofJson? (j : Json) : Option RouteKey :=
  match layout.read? j with
  | some [url, method] => do
    return { url := ← required text? url, method := ← required text? method }
  | _ => none

end RouteKey

namespace ResourceRoute

/-- The fields of a route. -/
def layout : Layout :=
  [("key", .required), ("pick_selector", .required), ("instance_id", .required),
   ("channel", .required)]

/-- The JSON form of a route. -/
def toJson (r : ResourceRoute) : Json :=
  .fields
    [("key", r.key.toJson), ("pick_selector", .text r.pickSelector),
     ("instance_id", .text r.instanceId.text), ("channel", .text r.channel)]

/-- A route from its JSON form. -/
def ofJson? (j : Json) : Option ResourceRoute :=
  match layout.read? j with
  | some [key, pickSelector, instanceId, channel] => do
    return { key := ← required RouteKey.ofJson? key
             pickSelector := ← required text? pickSelector
             instanceId := ⟨← required text? instanceId⟩
             channel := ← required text? channel }
  | _ => none

end ResourceRoute

namespace ExchangeSnapshot

/-- The fields of the view of an exchange. -/
def layout : Layout :=
  [("exchange_id", .required), ("direction", .required), ("pattern", .optional),
   ("operation", .optional), ("status", .required), ("correlation_status", .required),
   ("fault", .optional), ("fault_explanation", .optional), ("timeout_ms", .optional)]

/-- The fields of the view of an exchange with their values. -/
def toFields (s : ExchangeSnapshot) : List (String × Json) :=
  [("exchange_id", .text s.exchangeId.text), ("direction", s.direction.toJson),
   ("pattern", .optional InteractionPattern.toJson s.pattern),
   ("operation", .optional .text s.operation), ("status", s.status.toJson),
   ("correlation_status", s.correlationStatus.toJson), ("fault", .optional .text s.fault),
   ("fault_explanation", .optional .text s.faultExplanation),
   ("timeout_ms", .optional .nat s.timeoutMillis)]

/-- The JSON form of the view of an exchange. -/
def toJson (s : ExchangeSnapshot) : Json := .fields s.toFields

/-- The view of an exchange from its JSON form. -/
def ofJson? (j : Json) : Option ExchangeSnapshot :=
  match layout.read? j with
  | some [exchangeId, direction, pattern, operation, status, correlationStatus, fault,
      faultExplanation, timeoutMillis] => do
    return { exchangeId := ⟨← required text? exchangeId⟩
             direction := ← required Direction.ofJson? direction
             pattern := ← optional? InteractionPattern.ofJson? pattern
             operation := ← optional? text? operation
             status := ← required ExchangeStatus.ofJson? status
             correlationStatus := ← required CorrelationStatus.ofJson? correlationStatus
             fault := ← optional? text? fault
             faultExplanation := ← optional? text? faultExplanation
             timeoutMillis := ← optional? word? timeoutMillis }
  | _ => none

end ExchangeSnapshot

end JobCluster
