import Registrar.Proofs.Record.Agreement
import Registrar.Proofs.Record.Upheld

/-!
# Histories of a cache

Readers and writers of records share the cache of their client. A history goes from one of their
operations to the next; in between the world moves on, the client does what has nothing to do with
the cache, and the cache is cleared at any time. What holds of empty caches holds throughout a
history if the lookups uphold it, since nothing else adds to the cache.
-/

namespace Registrar

open Client Routine

variable {ε : Type}

/-- The states of a client and of the world between operations, from an empty cache on. The cache is
cleared at any time. What else the client does leaves the cache alone, and the world moves on as
`Later` says. -/
inductive History (w : Program.World Exchange.interface ε) (settings : Settings)
    (Later : ε → ε → Prop) : State → ε → Prop where
  | start {st : State} {e : ε} (empty : st.cache.entries = []) : History w settings Later st e
  | run {st : State} {e : ε} {α : Type} {y : Routine Exchange.interface α}
    (h : History w settings Later st e) (operation : Archive.Operation settings y) :
    History w settings Later (y.run.run w st e).2.1 (y.run.run w st e).2.2
  | record {st : State} {e : ε} {ν : Type} (h : History w settings Later st e) (codec : Codec ν)
    (r : ConsumedRecord) :
    History w settings Later
      (((Archive.decoder settings codec).decodeRecord r).run.run w st e).2.1
      (((Archive.decoder settings codec).decodeRecord r).run.run w st e).2.2
  | clear {st : State} {e : ε} (h : History w settings Later st e) :
    History w settings Later { st with cache := st.cache.clear } e
  | later {st st' : State} {e e' : ε} (h : History w settings Later st e)
    (same : st'.cache = st.cache) (l : Later e e') : History w settings Later st' e'

/-- The lookups uphold what holds of empty caches and lasts when errors are dropped and when the
world moves on. -/
structure Lasting (w : Program.World Exchange.interface ε) (settings : Settings)
    (Later : ε → ε → Prop) (Inv : Cache → ε → Prop) : Prop where
  empty : ∀ c e, c.entries = [] → Inv c e
  pruned : ∀ c e, Inv c e → Inv c.dropErrors e
  later : ∀ c e e', Inv c e → Later e e' → Inv c e'
  byId : ∀ id, Upholds w Inv (fun _ => True) (fun _ => True) ((direct settings).resolveId id)
  byNaming : ∀ n, Upholds w Inv (fun _ => True) (fun _ => True) ((direct settings).resolveNaming n)
  byReference : ∀ r,
    Upholds w Inv (fun _ => True) (fun _ => True) ((direct settings).resolveReference r)

variable {w : Program.World Exchange.interface ε} {settings : Settings} {Later : ε → ε → Prop}
  {Inv : Cache → ε → Prop}

theorem Codec.tolerable_any {ν : Type} (codec : Codec ν) : codec.Tolerable fun _ => True :=
  ⟨fun _ _ _ _ _ => .inl trivial, fun _ _ _ _ _ => .inl trivial⟩

namespace Lasting

variable (h : Lasting w settings Later Inv)

include h

theorem upholds_resolveId (id : Int) :
    Upholds w Inv (fun _ => True) (fun x => ∀ r ∈ x.references, True)
      ((direct settings).resolveId id) :=
  (h.byId id).mono fun _ _ _ _ => trivial

theorem upholds_resolveReference (r : RegisteredReference) (_ : True) :
    Upholds w Inv (fun _ => True) (fun x => ∀ r ∈ x.references, True)
      ((direct settings).resolveReference r) :=
  (h.byReference r).mono fun _ _ _ _ => trivial

theorem upholds_resolveNaming (n : Naming) :
    Upholds w Inv (fun _ => True) (fun x => True ∧ ∀ r ∈ x.references, True)
      ((direct settings).resolveNaming n) :=
  (h.byNaming n).mono fun _ _ => ⟨trivial, fun _ _ => trivial⟩

/-- Every operation upholds the invariant. -/
theorem operation {α : Type} {y : Routine Exchange.interface α}
    (operation : Archive.Operation settings y) :
    Upholds w Inv (fun _ => True) (fun _ => True) y := by
  cases operation with
  | schemaOfNaming codec n =>
    exact Encoder.upholds_getSchema (c := Archive.encoder settings codec) (h.byNaming n)
  | encode codec v n =>
    exact Encoder.upholds_encode (c := Archive.encoder settings codec) (h.upholds_resolveNaming n)
      (fun _ => trivial) codec.tolerable_any h.upholds_resolveReference
      (fun _ _ _ => upholds_ofExcept .any) v
  | encodeBytes codec payload n =>
    exact Encoder.upholds_encodeBytes (c := Archive.encoder settings codec)
      (h.upholds_resolveNaming n) fun _ _ => upholds_ofExcept .any
  | schemaOfId codec id =>
    exact Decoder.upholds_getSchema (d := Archive.decoder settings codec) (h.byId id)
  | decode codec data =>
    exact Decoder.upholds_decode (d := Archive.decoder settings codec) (fun _ => trivial)
      codec.tolerable_any h.upholds_resolveId h.upholds_resolveReference data
  | encoderErrors codec =>
    exact Encoder.upholds_removeErrors (c := Archive.encoder settings codec) h.pruned
  | decoderErrors codec =>
    exact Decoder.upholds_removeErrors (d := Archive.decoder settings codec) h.pruned

theorem decodeRecord {ν : Type} (codec : Codec ν) (r : ConsumedRecord) :
    Upholds w Inv (fun _ => True) (fun _ => True)
      ((Archive.decoder settings codec).decodeRecord r) :=
  Decoder.upholds_decodeRecord (d := Archive.decoder settings codec) (fun _ => trivial)
    codec.tolerable_any h.upholds_resolveId h.upholds_resolveReference r

end Lasting

/-- What lasts is true throughout a history. -/
theorem History.upheld (lasting : Lasting w settings Later Inv) {st : State} {e : ε}
    (h : History w settings Later st e) : Inv st.cache e := by
  induction h with
  | start empty => exact lasting.empty _ _ empty
  | run _ operation ih => exact (lasting.operation operation _ _ ih).1
  | record _ codec r ih => exact (lasting.decodeRecord codec r _ _ ih).1
  | clear _ _ => exact lasting.empty _ _ rfl
  | later _ same l ih =>
    rw [same]
    exact lasting.later _ _ _ ih l

end Registrar
