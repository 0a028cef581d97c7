import TaintFlow.Payload.Show
import TaintFlow.Data.Assoc
import TaintFlow.Mishap

/-!
# Tracing

Spans are sent to an endpoint.  Without one there is nothing to send them to,
and tracing does nothing.
-/

namespace TaintFlow

/-- What receives spans. -/
inductive SpanReceiver where
  | nothing
  /-- An endpoint, for spans that bear the name of a service and of its deployment. -/
  | exporter (service deployment : Payload)

namespace SpanReceiver

/-- The name of the kind of a receiver. -/
def text : SpanReceiver → String
  | nothing => "NoOpTracerProvider"
  | exporter .. => "TracerProvider"

/-- The names of the arguments of tracing. -/
def argumentNames : List String := ["service_name", "env", "endpoint"]

/-- The receiver that arguments ask for. -/
def ofArguments (arguments : Assoc String Payload) : Except Mishap SpanReceiver :=
  match arguments.keys.find? fun name => !argumentNames.contains name with
  | some name =>
    .error (.badType s!"init_tracing() got an unexpected keyword argument {Text.quoted name}")
  | none =>
    let argument (name : String) (usual : Payload) : Payload := (arguments.find? name).getD usual
    let service := argument "service_name" (.text "taintchain")
    if (argument "endpoint" .null).isPresent then
      .ok (.exporter (if service.isPresent then service else .text "unknown_service")
        (argument "env" (.text "dev")))
    else .ok .nothing

end SpanReceiver

end TaintFlow
