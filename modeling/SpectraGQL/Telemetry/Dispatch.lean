import SpectraGQL.Telemetry.Event

/-! # Choosing a broker (`telemetry/mod.rs`, `supports_dispatch_method` of each sink) -/

namespace SpectraGQL.Telemetry

open SpectraGQL.Http SpectraGQL.Protocol

inductive DispatchMethod where
  | natsJetstream | redisStreams | sierraDb | kafka | rabbitMq | iggy | webhook
  deriving DecidableEq, Repr

namespace DispatchMethod

def supportsDispatchMethod (sink : DispatchMethod) (method : String) : Bool :=
  let name := toLowercase method
  match sink with
  | natsJetstream => containsText name "nats"
  | redisStreams => ["redis", "redis_streams", "redis-streams", "valkey", "dragonfly"].contains name
  | sierraDb => ["sierradb", "sierra", "sierra-db"].contains name
  | kafka => ["kafka", "redpanda", "kafka-cluster"].contains name
  | rabbitMq => ["rabbitmq", "rabbit", "amqp", "amqps"].contains name
  | iggy => ["iggy", "apache-iggy", "apache_iggy"].contains name
  | webhook => containsText name "webhook" || containsText name "http"

end DispatchMethod

/-- The first sink that knows the method. -/
def findDispatchHandlerByMethod (method : String) : Except String DispatchMethod :=
  match [DispatchMethod.natsJetstream, .redisStreams, .sierraDb, .kafka, .rabbitMq, .iggy,
      .webhook].find? fun sink => sink.supportsDispatchMethod method with
  | some sink => .ok sink
  | none => .error ("Unsupported dispatch method: " ++ method)

end SpectraGQL.Telemetry
