import Registrar.Frame
import Registrar.Payload.Codec
import Registrar.Record.Resolving

/-!
# Encoding records

An encoder puts the key or the value of a record together: the naming leads to the schema, which is
registered on first use if the naming carries it, the codec writes the payload, and the header with
the identifier of the schema goes in front.
-/

namespace Registrar

/-- A writer of records. -/
structure Encoder (I : Interface) (ν : Type) where
  client : Client I
  codec : Codec ν

namespace Encoder

variable {I : Interface} {ν α : Type}

/-- An operation of the encoder that is recorded under its name. -/
def operation (name : String) (body : Routine I α) : Routine I α :=
  Routine.logged ⟨"kafka_schema_registry.decoder.encoder", "Encoder." ++ name, Level.debug, false⟩
    body

def getSchema (e : Encoder I ν) (n : Naming) : Routine I RegisteredSchema :=
  operation "get_schema" (e.client.resolveNaming n)

/-- Puts the header in front of a payload. -/
def frame (s : RegisteredSchema) (payload : Option Bytes) : Routine I Bytes :=
  Routine.ofExcept ((Frame.encodeGiven s.id payload).mapError .foreign)

/-- Frames a payload that is encoded already. An absent payload is noticed once the schema is
found. -/
def encodeBytes (e : Encoder I ν) (payload : Option Bytes) (n : Naming) : Routine I Bytes := do
  let schema ← e.getSchema n
  frame schema payload

/-- Encodes and frames a value. -/
def encode (e : Encoder I ν) (v : ν) (n : Naming) : Routine I Bytes := do
  let schema ← e.getSchema n
  let references ← e.client.resolveReferences schema
  let payload ← Client.payload "could not encode value" (e.codec.encode schema v references)
  frame schema (some payload)

/-- Drops the errors that the cache keeps and gives their number. -/
def removeErrors (_ : Encoder I ν) : Routine I Nat :=
  operation "remove_errors_from_cache" Cache.removeErrors

def close (e : Encoder I ν) : Routine I Unit := e.client.close

end Encoder

end Registrar
