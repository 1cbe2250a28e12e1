import Registrar.Record.Decoder
import Registrar.Record.Encoder

/-!
# Sharing a decoder or an encoder

Several tasks share one decoder or one encoder by taking a lock around each operation. The
operations then run one after another, in the order in which they asked for the lock; one that is
cancelled while it waits does nothing.
-/

namespace Registrar

variable {I : Interface} {ν α : Type}

/-- An operation that no other shared operation interrupts. -/
def Routine.shared (body : Routine I α) : Routine I α := Routine.holding State.sharedLock body

namespace Decoder

def sharedDecode (d : Decoder I ν) (data : Option Bytes) : Routine I (Option ν) :=
  .shared (d.decode data)

def sharedDecodeRecord (d : Decoder I ν) (r : ConsumedRecord) : Routine I (DecodedRecord ν) :=
  .shared (d.decodeRecord r)

def sharedRemoveErrors (d : Decoder I ν) : Routine I Nat := .shared d.removeErrors

def sharedClose (d : Decoder I ν) : Routine I Unit := .shared d.close

end Decoder

namespace Encoder

def sharedEncode (e : Encoder I ν) (v : ν) (n : Naming) : Routine I Bytes := .shared (e.encode v n)

def sharedEncodeBytes (e : Encoder I ν) (payload : Option Bytes) (n : Naming) : Routine I Bytes :=
  .shared (e.encodeBytes payload n)

def sharedRemoveErrors (e : Encoder I ν) : Routine I Nat := .shared e.removeErrors

def sharedClose (e : Encoder I ν) : Routine I Unit := .shared e.close

end Encoder

end Registrar
