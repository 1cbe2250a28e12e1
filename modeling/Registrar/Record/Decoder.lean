import Registrar.Frame
import Registrar.Payload.Codec
import Registrar.Record.Resolving

/-!
# Decoding records

A decoder takes the key or the value of a record apart: the header names the schema, the schema and
the schemas it refers to are resolved, and the codec reads the payload.
-/

namespace Registrar

/-- A record as it was consumed. -/
structure ConsumedRecord where
  topic : Text
  partition : Int
  offset : Int
  key : Option Bytes
  value : Option Bytes
  deriving DecidableEq, Repr

/-- A record whose key and value were decoded. -/
structure DecodedRecord (ν : Type) where
  topic : Text
  partition : Int
  offset : Int
  key : Option ν
  value : Option ν
  deriving Repr

/-- A reader of records. -/
structure Decoder (I : Interface) (ν : Type) where
  client : Client I
  codec : Codec ν

namespace Decoder

variable {I : Interface} {ν α : Type}

/-- An operation of the decoder that is recorded under its name. -/
def operation (name : String) (body : Routine I α) : Routine I α :=
  Routine.logged ⟨"kafka_schema_registry.decoder.decoder", "Decoder." ++ name, Level.debug, false⟩
    body

def getSchema (d : Decoder I ν) (id : Int) : Routine I RegisteredSchema :=
  operation "get_schema" (d.client.resolveId id)

/-- The error of bytes without a header. -/
def notFramed (raw : Bytes) : ResolutionError :=
  .general "no schema registry compatible bytes"
    (some (toString raw.length ++ " bytes without magic byte header")) false

/-- The value of the key or the value of a record, if it has bytes. -/
def decode (d : Decoder I ν) (data : Option Bytes) : Routine I (Option ν) := do
  match Frame.split data with
  | .absent => return none
  | .unframed raw => Routine.fail (notFramed raw)
  | .framed id payload =>
    let schema ← d.getSchema id
    let references ← d.client.resolveReferences schema
    let value ← Client.payload "could not decode payload" (d.codec.decode schema payload references)
    return some value

/-- Decodes the key, then the value. -/
def decodeRecord (d : Decoder I ν) (r : ConsumedRecord) : Routine I (DecodedRecord ν) := do
  let key ← d.decode r.key
  let value ← d.decode r.value
  return ⟨r.topic, r.partition, r.offset, key, value⟩

/-- Drops the errors that the cache keeps and gives their number. -/
def removeErrors (_ : Decoder I ν) : Routine I Nat :=
  operation "remove_errors_from_cache" Cache.removeErrors

def close (d : Decoder I ν) : Routine I Unit := d.client.close

end Decoder

end Registrar
