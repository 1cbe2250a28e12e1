import Registrar.Payload.Value
import Registrar.Schema

/-!
# Codecs

A codec turns the payload of a record into a value and back, with the schema of the record and the
schemas it refers to at hand. The raw codec passes bytes through; the document codec reads and
writes JSON.
-/

namespace Registrar

/-- A way to read and write payloads. -/
structure Codec (ν : Type) where
  decode : RegisteredSchema → Bytes → List RegisteredSchema → Except Failure ν
  encode : RegisteredSchema → ν → List RegisteredSchema → Except Failure Bytes

namespace Codec

/-- Bytes as a value. -/
def rawDecode (bs : Bytes) : Except Failure Value := .ok (.bytes bs)

/-- The bytes that a value is. -/
def rawEncode : Value → Except Failure Bytes
  | .bytes bs => .ok bs
  | v => .error (.foreign ⟨.type, "raw payloads must be bytes, got " ++ v.typeName⟩)

/-- Passes bytes through. -/
def raw : Codec Value := ⟨fun _ bs _ => rawDecode bs, fun _ v _ => rawEncode v⟩

/-- Reads a JSON document of at most `levels` levels. -/
def documentDecode (levels : Nat) (bs : Bytes) : Except Failure Value :=
  match Utf8.decode bs with
  | .error f => .error (.foreign (.ofUtf8Fault f))
  | .ok cs =>
    match Json.read levels (Text.ofChars cs) with
    | .error e => .error (.foreign (.ofReadError e))
    | .ok j => .ok (.ofJson j)

/-- Writes a JSON document without spaces. -/
def documentEncode (v : Value) : Except Failure Bytes :=
  match v.toJson with
  | .error e => .error (.foreign e)
  | .ok j => .ok (Utf8.encode (Json.write Json.compact j))

/-- JSON documents that are read if they have at most `levels` levels. -/
def document (levels : Nat) : Codec Value :=
  ⟨fun _ bs _ => documentDecode levels bs, fun _ v _ => documentEncode v⟩

end Codec

end Registrar
