import Registrar.Proofs.Frame
import Registrar.Proofs.Record.Depository
import Registrar.Proofs.Record.Truthful
import Registrar.Record.Decoder
import Registrar.Record.Encoder

/-!
# Encoders and decoders agree

What an encoder gives its codec is given again by every decoder of the bytes, in the same state of
the archive or in any later one. The encoder gets the schema from a registration or as the latest of
a subject and the decoder by the identifier in the header, and they resolve its references through
caches of their own.

Two things can stand between them. Documents join the halves of a character in a text, so the
decoder has the character; and an error that its cache keeps is told again.
-/

namespace Registrar

open Client Closure Routine

variable {I : Interface} {ν : Type}

/-! ## What codecs are given -/

/-- What an encoder gives its codec besides the value. -/
def Encoder.consult (c : Encoder I ν) (n : Naming) :
    Routine I (RegisteredSchema × List RegisteredSchema) := do
  let schema ← c.getSchema n
  let references ← c.client.resolveReferences schema
  return (schema, references)

theorem Encoder.encode_eq (c : Encoder I ν) (v : ν) (n : Naming) :
    c.encode v n = (do
      let (schema, references) ← c.consult n
      let payload ← Client.payload "could not encode value" (c.codec.encode schema v references)
      frame schema (some payload)) := by
  simp [Encoder.encode, Encoder.consult]

/-- What a decoder gives its codec, if the record has bytes. -/
def Decoder.consult (d : Decoder I ν) (data : Option Bytes) :
    Routine I (Option (RegisteredSchema × Bytes × List RegisteredSchema)) := do
  match Frame.split data with
  | .absent => return none
  | .unframed raw => Routine.fail (notFramed raw)
  | .framed id payload =>
    let schema ← d.getSchema id
    let references ← d.client.resolveReferences schema
    return some (schema, payload, references)

theorem Decoder.decode_eq (d : Decoder I ν) (data : Option Bytes) :
    d.decode data = (do
      match ← d.consult data with
      | none => return none
      | some (schema, payload, references) =>
        let value ← Client.payload "could not decode payload"
          (d.codec.decode schema payload references)
        return some value) := by
  unfold Decoder.decode Decoder.consult
  cases Frame.split data with
  | absent => rfl
  | unframed raw => rfl
  | framed id payload => simp

namespace Archive

variable {ε : Type} {w : Program.World Exchange.interface ε} {settings : Settings}

/-- The encoder with these settings that hands its calls to the world. -/
def encoder (settings : Settings) (codec : Codec ν) : Encoder Exchange.interface ν :=
  ⟨direct settings, codec⟩

def decoder (settings : Settings) (codec : Codec ν) : Decoder Exchange.interface ν :=
  ⟨direct settings, codec⟩

/-! ## Sessions -/

/-- The operations of encoders and decoders. -/
inductive Operation (settings : Settings) : {α : Type} → Routine Exchange.interface α → Prop where
  | schemaOfNaming {ν : Type} (codec : Codec ν) (n : Naming) :
    Operation settings ((encoder settings codec).getSchema n)
  | encode {ν : Type} (codec : Codec ν) (v : ν) (n : Naming) :
    Operation settings ((encoder settings codec).encode v n)
  | encodeBytes {ν : Type} (codec : Codec ν) (payload : Option Bytes) (n : Naming) :
    Operation settings ((encoder settings codec).encodeBytes payload n)
  | schemaOfId {ν : Type} (codec : Codec ν) (id : Int) :
    Operation settings ((decoder settings codec).getSchema id)
  | decode {ν : Type} (codec : Codec ν) (data : Option Bytes) :
    Operation settings ((decoder settings codec).decode data)
  | encoderErrors {ν : Type} (codec : Codec ν) :
    Operation settings (encoder settings codec).removeErrors
  | decoderErrors {ν : Type} (codec : Codec ν) :
    Operation settings (decoder settings codec).removeErrors

/-- The states of a client and of the archive between operations, from an empty cache on. Meanwhile
the archive grows and the cache is cleared at any time. -/
inductive Session (a : Archive w settings) : State → ε → Prop where
  | start {st : State} {e : ε} (empty : st.cache.entries = []) : Session a st e
  | run {st : State} {e : ε} {α : Type} {y : Routine Exchange.interface α} (h : Session a st e)
    (operation : Operation settings y) :
    Session a (y.run.run w st e).2.1 (y.run.run w st e).2.2
  | later {st : State} {e e' : ε} (h : Session a st e) (l : a.Later e e') : Session a st e'
  | clear {st : State} {e : ε} (h : Session a st e) :
    Session a { st with cache := st.cache.clear } e

variable {a : Archive w settings} {e e' : ε} {st st' : State}

theorem preserved_resolveNaming (n : Naming) : a.Preserved ((direct settings).resolveNaming n) :=
  fun _ _ h =>
    (truthful_getOrLoad (honest_fetchBySubject n) (keeps_fetchBySubject settings n) h rfl).1

theorem preserved_resolveId (id : Int) : a.Preserved ((direct settings).resolveId id) :=
  fun _ _ h => (truthful_getOrLoad (honest_fetchById id) (keeps_fetchById settings id) h rfl).1

theorem preserved_resolveReferences (x : RegisteredSchema) :
    a.Preserved ((direct settings).resolveReferences x) :=
  fun _ e h => (mirrors_resolveReferences (a.registry e) h x).truthful

theorem preserved_payload {α : Type} (message : String) (r : Except Failure α) :
    a.Preserved (Client.payload message r) := by
  refine preserved_of_keeps ?_
  rcases r with (f | f | _) | b
  · exact keeps_throw _
  · exact keeps_throw _
  · exact keeps_throw _
  · exact keeps_pure b

theorem preserved_frame (x : RegisteredSchema) (payload : Option Bytes) :
    a.Preserved (Encoder.frame x payload) := by
  unfold Encoder.frame
  generalize (Frame.encodeGiven x.id payload).mapError Failure.foreign = framed
  exact preserved_of_keeps (keeps_ofExcept framed)

theorem preserved_encoder {α : Type} {y : Routine Exchange.interface α} (name : String)
    (h : a.Preserved y) : a.Preserved (Encoder.operation name y) :=
  h.logged (l := ⟨_, _, Level.debug, false⟩) rfl rfl

theorem preserved_decoder {α : Type} {y : Routine Exchange.interface α} (name : String)
    (h : a.Preserved y) : a.Preserved (Decoder.operation name y) :=
  h.logged (l := ⟨_, _, Level.debug, false⟩) rfl rfl

theorem Operation.preserved {α : Type} {y : Routine Exchange.interface α}
    (h : Operation settings y) : a.Preserved y := by
  cases h with
  | schemaOfNaming codec n => exact preserved_encoder _ (preserved_resolveNaming n)
  | encode codec v n =>
    refine (preserved_encoder _ (preserved_resolveNaming n)).bind fun x => ?_
    refine (preserved_resolveReferences x).bind fun refs => ?_
    exact (preserved_payload _ _).bind fun p => preserved_frame x (some p)
  | encodeBytes codec payload n =>
    exact (preserved_encoder _ (preserved_resolveNaming n)).bind fun x => preserved_frame x payload
  | schemaOfId codec id => exact preserved_decoder _ (preserved_resolveId id)
  | decode codec data =>
    unfold Decoder.decode
    split
    · exact preserved_of_keeps (keeps_pure _)
    · exact preserved_of_keeps (keeps_throw _)
    · refine (preserved_decoder _ (preserved_resolveId _)).bind fun x => ?_
      refine (preserved_resolveReferences x).bind fun refs => ?_
      exact (preserved_payload _ _).bind fun v => preserved_of_keeps (keeps_pure _)
  | encoderErrors codec => exact preserved_encoder _ preserved_removeErrors
  | decoderErrors codec => exact preserved_decoder _ preserved_removeErrors

/-- In a session the cache is truthful. -/
theorem Session.truthful (h : a.Session st e) : a.Truthful e st.cache := by
  induction h with
  | start empty =>
    intro p hp
    rw [empty] at hp
    cases hp
  | run h operation ih => exact operation.preserved _ _ ih
  | later h l ih => exact ih.later l
  | clear h ih => exact fun p hp => by cases hp

/-! ## Consulting -/

/-- The schemas to which the references of a schema lead in the archive. -/
def closure (a : Archive w settings) (e : ε) (x : RegisteredSchema) :
    Except Failure (List RegisteredSchema) :=
  ofReferences settings.maxDepth (fun r => a.registry e (targetOf r)) x.references

variable {codec : Codec ν} {n : Naming} {x : RegisteredSchema} {refs : List RegisteredSchema}

/-- What is resolved is the closure in the archive, then and later. -/
theorem closure_of_resolveReferences (h : a.Truthful e st.cache)
    (resolved : ((direct settings).resolveReferences x).run.run w st e = (.ok refs, st', e'))
    {e'' : ε} (later : a.Later e' e'') : a.closure e'' x = .ok refs := by
  have mirrors := mirrors_resolveReferences (w := w) (a.registry e'') h x
  rw [resolved] at mirrors
  exact mirrors.up (fun t y hy => registry_eq_ok.2 (later.version hy)) refs rfl

/-- What a client hears of the archive, to which the errors that its cache keeps are told again. -/
def heard (a : Archive w settings) (e : ε) (c : Cache) : Registry := fun t =>
  match c.find? (.ofTarget t) with
  | some (.error f) => .error (.resolution f)
  | _ => a.registry e t

theorem offers_heard (a : Archive w settings) (e : ε) (c : Cache) :
    a.Offers e c (a.heard e c) := by
  intro t y hy
  unfold heard at hy
  split at hy
  · cases hy
  · rename_i clean
    exact ⟨registry_eq_ok.1 hy, clean⟩

theorem heard_of_soundAt {c : Cache} {t : Target} (sound : c.SoundAt (.ofTarget t)) :
    a.heard e c t = a.registry e t := by
  unfold heard
  split
  · rename_i f kept
    exact absurd kept (sound f)
  · rfl

/-- A client that keeps no errors for what the references lead to resolves what the archive has
had. -/
theorem resolveReferences_ok (h : a.Truthful e st.cache) {e₀ : ε} (later : a.Later e₀ e)
    (closed : a.closure e₀ x = .ok refs)
    (sound : ∀ t, (a.registry e₀).Leads (targets x) t → st.cache.SoundAt (.ofTarget t)) :
    ∃ st' e', ((direct settings).resolveReferences x).run.run w st e = (.ok refs, st', e') ∧
      ∀ s, st.cache.SoundAt s → st'.cache.SoundAt s := by
  have mirrors := mirrors_resolveReferences (a.heard e₀ st.cache) h x
  have same : ofReferences settings.maxDepth (fun r => a.heard e₀ st.cache (targetOf r))
      x.references = .ok refs :=
    (ofReferences_congr fun t path => heard_of_soundAt (sound t path)).trans closed
  obtain ⟨resolved, kept⟩ :=
    mirrors.down ((offers_heard a e₀ st.cache).mono later fun _ => id) refs same
  exact ⟨_, _, Prod.ext resolved rfl, kept⟩

theorem of_run_encoder {α : Type} {name : String} {y : Routine Exchange.interface α}
    {r : Except Failure α}
    (h : (Encoder.operation name y).run.run w st e = (r, st', e')) :
    ∃ st₁, y.run.run w st e = (r, st₁, e') ∧ st'.cache = st₁.cache :=
  of_run_logged (l := ⟨_, _, Level.debug, false⟩) rfl rfl h

theorem of_run_decoder {α : Type} {name : String} {y : Routine Exchange.interface α}
    {r : Except Failure α}
    (h : (Decoder.operation name y).run.run w st e = (r, st', e')) :
    ∃ st₁, y.run.run w st e = (r, st₁, e') ∧ st'.cache = st₁.cache :=
  of_run_logged (l := ⟨_, _, Level.debug, false⟩) rfl rfl h

theorem run_decoder {α : Type} (name : String) {y : Routine Exchange.interface α}
    {r : Except Failure α} (h : y.run.run w st e = (r, st', e')) :
    ∃ st₁, (Decoder.operation name y).run.run w st e = (r, st₁, e') ∧ st₁.cache = st'.cache := by
  have logged := run_logged (w := w) y (l := ⟨"kafka_schema_registry.decoder.decoder",
    "Decoder." ++ name, Level.debug, false⟩) rfl rfl st e
  rwa [h] at logged

/-- The identifier of the schema that an encoder finds stands for it, as documents give it back. -/
theorem of_getSchema_naming (h : a.Truthful e st.cache)
    (found : ((encoder settings codec).getSchema n).run.run w st e = (.ok x, st', e')) :
    a.Truthful e' st'.cache ∧
      a.schema e' x.id = some x.settle ∧ ((∀ y ∈ n.schema, y.Plain) → x.settle = x) := by
  obtain ⟨st₁, run, same⟩ := of_run_encoder found
  obtain ⟨truthful, vouched⟩ :=
    truthful_getOrLoad (honest_fetchBySubject n) (keeps_fetchBySubject settings n) h run
  rw [same]
  exact ⟨truthful, vouched x rfl⟩

/-- The schema that a decoder finds is what the identifier in the header stands for. -/
theorem of_getSchema_id {m : Nat} (bound : m < Frame.idBound) (h : a.Truthful e st.cache)
    (found : ((decoder settings codec).getSchema m).run.run w st e = (.ok x, st', e')) :
    a.Truthful e' st'.cache ∧ a.schema e' m = some x := by
  obtain ⟨st₁, run, same⟩ := of_run_decoder found
  obtain ⟨truthful, vouched⟩ :=
    truthful_getOrLoad (honest_fetchById m) (keeps_fetchById settings m) h run
  rw [same]
  exact ⟨truthful, vouched x rfl m rfl bound⟩

/-- A decoder that keeps no error for the identifier in the header finds what it stands for. -/
theorem getSchema_id_ok (codec : Codec ν) {m : Nat} (known : a.schema e m = some x)
    (h : a.Truthful e st.cache) (sound : st.cache.SoundAt (.ofId m)) :
    ∃ st' e', ((decoder settings codec).getSchema m).run.run w st e = (.ok x, st', e') ∧
      ∀ s, st.cache.SoundAt s → st'.cache.SoundAt s := by
  have only : ∀ y, a.Vouches e (.ofId m) y → y = x := fun y hy =>
    Option.some.inj ((hy m rfl (a.bears_id known).2).symm.trans known)
  obtain ⟨st₁, e₁, run, sound₁⟩ := getOrLoad_ok (keeps_fetchById settings m) h sound only
    fun st' => fetchById_ok known st'
  obtain ⟨st', logged, same⟩ := run_decoder "get_schema" run
  exact ⟨st', e₁, logged, by rwa [same]⟩

/-- What an encoder gives its codec is what the archive has, the schema as documents give it
back. -/
theorem of_encoder_consult (h : a.Truthful e st.cache)
    (consulted : ((encoder settings codec).consult n).run.run w st e = (.ok (x, refs), st', e')) :
    a.schema e' x.id = some x.settle ∧ ((∀ y ∈ n.schema, y.Plain) → x.settle = x) ∧
      ∀ {e''}, a.Later e' e'' → a.closure e'' x.settle = .ok refs := by
  obtain ⟨y, st₁, e₁, found, rest⟩ := of_run_bind consulted
  obtain ⟨ys, st₂, e₂, resolved, ended⟩ := of_run_bind rest
  cases ended
  obtain ⟨truthful, known, same⟩ := of_getSchema_naming h found
  exact ⟨(later_of_run resolved).schema known, same, closure_of_resolveReferences truthful resolved⟩

/-- An encoder that has found its schema and keeps no errors for what the references lead to gives
its codec what the archive has. -/
theorem encoder_consult_ok (h : a.Truthful e st.cache)
    (found : ((encoder settings codec).getSchema n).run.run w st e = (.ok x, st', e'))
    (closed : a.closure e' x = .ok refs)
    (sound : ∀ t, (a.registry e').Leads (targets x) t → st'.cache.SoundAt (.ofTarget t)) :
    ∃ st'' e'', ((encoder settings codec).consult n).run.run w st e =
      (.ok (x, refs), st'', e'') ∧ ∀ s, st'.cache.SoundAt s → st''.cache.SoundAt s := by
  obtain ⟨truthful, -⟩ := of_getSchema_naming h found
  obtain ⟨st₂, e₂, resolved, sound₂⟩ := resolveReferences_ok truthful (.refl e') closed sound
  unfold Encoder.consult
  rw [run_bind_ok found]
  exact ⟨st₂, e₂, run_bind_ok resolved, sound₂⟩

/-- The cache keeps no error for the identifier of the schema, nor for a version to which its
references lead in the archive. -/
structure Untroubled (a : Archive w settings) (e : ε) (x : RegisteredSchema) (c : Cache) : Prop where
  id : c.SoundAt (.ofId x.id)
  references : ∀ t, (a.registry e).Leads (targets x) t → c.SoundAt (.ofTarget t)

section

variable {m : Nat} {b payload : Bytes}

theorem decoder_consult_eq (framed : Frame.split (some b) = .framed m payload) :
    (decoder settings codec).consult (some b) = (do
      let schema ← (decoder settings codec).getSchema m
      let references ← (direct settings).resolveReferences schema
      return some (schema, payload, references)) := by
  unfold Decoder.consult
  rw [framed]
  rfl

/-- What a decoder gives its codec is what the archive has. -/
theorem of_decoder_consult (framed : Frame.split (some b) = .framed m payload)
    (bound : m < Frame.idBound) (h : a.Truthful e st.cache)
    {given : Option (RegisteredSchema × Bytes × List RegisteredSchema)}
    (consulted : ((decoder settings codec).consult (some b)).run.run w st e =
      (.ok given, st', e')) :
    ∃ x refs, given = some (x, payload, refs) ∧ a.schema e' m = some x ∧
      a.closure e' x = .ok refs := by
  rw [decoder_consult_eq framed] at consulted
  obtain ⟨x, st₁, e₁, found, rest⟩ := of_run_bind consulted
  obtain ⟨refs, st₂, e₂, resolved, ended⟩ := of_run_bind rest
  cases ended
  obtain ⟨truthful, known⟩ := of_getSchema_id bound h found
  exact ⟨x, refs, rfl, (later_of_run resolved).schema known,
    closure_of_resolveReferences truthful resolved (.refl e')⟩

/-- A decoder that keeps no errors for them gives its codec what the archive has had. -/
theorem decoder_consult_ok (codec : Codec ν) (framed : Frame.split (some b) = .framed m payload)
    {e₀ : ε} (later : a.Later e₀ e) (known : a.schema e₀ m = some x)
    (closed : a.closure e₀ x = .ok refs) (h : a.Truthful e st.cache) (untroubled : a.Untroubled e₀ x st.cache) :
    ∃ st' e', ((decoder settings codec).consult (some b)).run.run w st e =
      (.ok (some (x, payload, refs)), st', e') ∧
        ∀ s, st.cache.SoundAt s → st'.cache.SoundAt s := by
  obtain ⟨rfl, bound⟩ := a.bears_id known
  obtain ⟨st₁, e₁, found, sound₁⟩ := getSchema_id_ok codec (later.schema known) h untroubled.id
  obtain ⟨truthful, -⟩ := of_getSchema_id bound h found
  obtain ⟨st₂, e₂, resolved, sound₂⟩ :=
    resolveReferences_ok truthful (later.trans (later_of_run found)) closed fun t path =>
      sound₁ _ (untroubled.references t path)
  rw [decoder_consult_eq framed, run_bind_ok found]
  exact ⟨st₂, e₂, run_bind_ok resolved, fun s clean => sound₂ s (sound₁ s clean)⟩

/-- An error that is kept for the identifier in the header is told again. -/
theorem decoder_consult_kept (framed : Frame.split (some b) = .framed m payload)
    {f : ResolutionError} (kept : st.cache.find? (.ofId m) = some (.error f)) (e : ε) :
    (((decoder settings codec).consult (some b)).run.run w st e).1 = .error (.resolution f) := by
  obtain ⟨st₁, run, -⟩ :=
    Cache.run_getOrLoad_found (w := w) ((direct settings).fetchById (m : Int)) kept e
  obtain ⟨st₂, found, -⟩ := run_decoder "get_schema" run
  rw [decoder_consult_eq framed]
  exact congrArg Prod.fst (run_bind_error found)

end

/-- An encoder that has consulted the registry frames what its codec writes. -/
theorem run_encode_ok {v : ν} {b payload : Bytes}
    (consulted : ((encoder settings codec).consult n).run.run w st e = (.ok (x, refs), st', e'))
    (paid : codec.encode x v refs = .ok payload)
    (framed : Frame.encodeGiven x.id (some payload) = .ok b) :
    ((encoder settings codec).encode v n).run.run w st e = (.ok b, st', e') := by
  have written : (Client.payload "could not encode value" (codec.encode x v refs) :
      Routine Exchange.interface Bytes).run.run w st' e' = (.ok payload, st', e') := by
    rw [paid]
    rfl
  rw [Encoder.encode_eq, run_bind_ok consulted]
  refine (run_bind_ok written).trans ?_
  unfold Encoder.frame
  rw [framed]
  rfl

/-! ## The first encoder -/

/-- The state of a client at the start. -/
def unused : State := State.initial Level.info false

theorem session_unused (e : ε) : a.Session unused e := .start rfl

theorem soundAt_of_errorCount {c : Cache} (h : c.errorCount = 0) (s : Slot) : c.SoundAt s := by
  intro f kept
  have none := List.countP_eq_zero.1 h _ (Assoc.mem_of_get? kept)
  exact none rfl

/-- How the first encoder before an empty depository finds its schema. -/
def foundFirst (codec : Codec ν) (n : Naming) : Except Failure RegisteredSchema × State × Shelves :=
  ((encoder bare codec).getSchema n).run.run (Shelves.depository bare.url) unused []

/-- The first encoder gives its codec what it finds and what the references of this unfold to. -/
theorem consult_first (found : (foundFirst codec n).1 = .ok x)
    (clean : (foundFirst codec n).2.1.cache.errorCount = 0) (us : List Target)
    (unfolds : ((Shelves.archive bare).registry (foundFirst codec n).2.2).Unfolds (targets x) us)
    (short : us.eraseDups.length ≤ bare.maxDepth)
    (known : List.Forall₂
      (fun t y => (Shelves.archive bare).registry (foundFirst codec n).2.2 t = .ok y)
      us.eraseDups refs) :
    ∃ st e, ((encoder bare codec).consult n).run.run (Shelves.depository bare.url) unused [] =
      (.ok (x, refs), st, e) ∧ ∀ s, st.cache.SoundAt s := by
  obtain ⟨st₁, e₁, run⟩ := exists_run_eq found
  have out : foundFirst codec n = (.ok x, st₁, e₁) := run
  have closed := ofReferences_of_unfolds unfolds short known
  rw [out] at clean closed
  have sound := soundAt_of_errorCount clean
  obtain ⟨st, e, consulted, kept⟩ :=
    encoder_consult_ok (session_unused []).truthful run closed fun t _ => sound _
  exact ⟨st, e, consulted, fun s => kept s (sound s)⟩

/-! ## Agreement -/

theorem of_run_payload {α : Type} {message : String} {r : Except Failure α} {c : α}
    (h : (Client.payload message r : Routine Exchange.interface α).run.run w st e =
      (.ok c, st', e')) : r = .ok c ∧ e' = e := by
  rcases r with (f | f | _) | c'
  · cases h
  · cases h
  · cases h
  · cases h
    exact ⟨rfl, rfl⟩

theorem of_run_frame {payload b : Bytes}
    (h : (Encoder.frame x (some payload) : Routine Exchange.interface Bytes).run.run w st e =
      (.ok b, st', e')) : Frame.encode x.id payload = .ok b ∧ e' = e := by
  unfold Encoder.frame Frame.encodeGiven at h
  rw [Option.getD_some] at h
  generalize Frame.encode x.id payload = framed at h ⊢
  cases framed with
  | error f => cases h
  | ok b' =>
    cases h
    exact ⟨rfl, rfl⟩

/-- Whatever an encoder makes of a value, it gives its codec a schema that the archive has as
documents give it back, and the references that the archive has, and the header holds the identifier
of the schema. -/
theorem of_encode {v : ν} {b : Bytes} (h : a.Truthful e st.cache)
    (encoded : ((encoder settings codec).encode v n).run.run w st e = (.ok b, st', e')) :
    ∃ x refs payload st₁,
      ((encoder settings codec).consult n).run.run w st e = (.ok (x, refs), st₁, e') ∧
      codec.encode x v refs = .ok payload ∧ Frame.split (some b) = .framed x.id payload ∧
      a.schema e' x.id = some x.settle ∧ ((∀ y ∈ n.schema, y.Plain) → x.settle = x) ∧
      ∀ {e''}, a.Later e' e'' → a.closure e'' x.settle = .ok refs := by
  rw [Encoder.encode_eq] at encoded
  obtain ⟨⟨x, refs⟩, st₁, e₁, consulted, rest⟩ := of_run_bind encoded
  obtain ⟨payload, st₂, e₂, written, rest⟩ := of_run_bind rest
  have paid := of_run_payload written
  have framed := of_run_frame rest
  rw [← paid.2, ← framed.2] at consulted
  obtain ⟨known, same, closed⟩ := of_encoder_consult h consulted
  exact ⟨x, refs, payload, st₁, consulted, paid.1, Frame.split_of_encode framed.1, known, same,
    closed⟩

/-- Decoders give their codec what the encoder gave its own, in the state of the archive after the
encoding and in any later one, whatever either side has resolved before: the payload, the schemas to
which the references lead, and the schema as documents give it back, which is the same schema if the
naming carries none or a plain one. A decoder gets there, and gives the value back where its codec
does, unless its cache keeps an error for the schema or for what the references lead to. -/
theorem decode_of_encode (a : Archive w settings) {v : ν} {b : Bytes} (session : a.Session st e)
    (encoded : ((encoder settings codec).encode v n).run.run w st e = (.ok b, st', e')) :
    ∃ x refs payload,
      (((encoder settings codec).consult n).run.run w st e).1 = .ok (x, refs) ∧
      codec.encode x v refs = .ok payload ∧
      ((∀ y ∈ n.schema, y.Plain) → x.settle = x) ∧
      ∀ {st'' e''}, a.Later e' e'' → a.Session st'' e'' →
        (∀ {given}, (((decoder settings codec).consult (some b)).run.run w st'' e'').1 =
          .ok given → given = some (x.settle, payload, refs)) ∧
        (a.Untroubled e' x st''.cache →
          (((decoder settings codec).consult (some b)).run.run w st'' e'').1 =
            .ok (some (x.settle, payload, refs)) ∧
          (codec.decode x.settle payload refs = .ok v →
            (((decoder settings codec).decode (some b)).run.run w st'' e'').1 = .ok (some v))) := by
  obtain ⟨x, refs, payload, st₁, consulted, paid, framed, known, same, closed⟩ :=
    of_encode session.truthful encoded
  refine ⟨x, refs, payload, congrArg Prod.fst consulted, paid, same, ?_⟩
  intro st'' e'' later decoding
  have bound : x.id < Frame.idBound := (a.bears_id known).2
  constructor
  · intro given ok
    obtain ⟨st₂, e₂, run⟩ := exists_run_eq ok
    have still := later_of_run (a := a) run
    obtain ⟨y, ys, rfl, known', closed'⟩ := of_decoder_consult framed bound decoding.truthful run
    obtain rfl := Option.some.inj (((later.trans still).schema known).symm.trans known')
    obtain rfl := Except.ok.inj ((closed (later.trans still)).symm.trans closed')
    rfl
  · intro untroubled
    have settled : a.Untroubled e' x.settle st''.cache := ⟨untroubled.id, untroubled.references⟩
    obtain ⟨st₂, e₂, run, -⟩ := decoder_consult_ok codec framed later known
      (closed (.refl e')) decoding.truthful settled
    rw [Decoder.decode_eq, run_bind_ok run, run]
    refine ⟨rfl, ?_⟩
    intro read
    show ((do
      let value ← Client.payload "could not decode payload" (codec.decode x.settle payload refs)
      return some value : Routine Exchange.interface (Option ν)).run.run w st₂ e₂).1 = _
    rw [read]
    rfl

/-! ### Two schemas under a third one -/

/-- A naming that carries a schema with references. -/
def citing : Naming := .byTopicWith "topic" false Shelves.branching

/-- What it stands for in a depository that was empty. -/
def cited : RegisteredSchema := ⟨3, .avro, "top", [⟨"a", "a", 1⟩, ⟨"c", "c", 1⟩]⟩

/-- What its references lead to. -/
def below : List RegisteredSchema :=
  [⟨1, .avro, "leaf", []⟩, ⟨2, .avro, "inner", [⟨"c", "c", 1⟩]⟩]

/-- A codec that puts the number of the referenced schemas in front. -/
def counted : Codec Bytes where
  encode _ v refs := .ok (UInt8.ofNat refs.length :: v)
  decode _ p refs :=
    match p with
    | k :: v =>
      if k = UInt8.ofNat refs.length then .ok v else .error (.foreign ⟨.value, "miscounted"⟩)
    | [] => .error (.foreign ⟨.value, "empty"⟩)

theorem consult_citing :
    ∃ st e, ((encoder bare counted).consult citing).run.run (Shelves.depository bare.url) unused
      [] = (.ok (cited, below), st, e) ∧ ∀ s, st.cache.SoundAt s := by
  obtain ⟨found, clean, leaf, inner⟩ :
      (foundFirst counted citing).1 = .ok cited ∧
        (foundFirst counted citing).2.1.cache.errorCount = 0 ∧
        (Shelves.archive bare).registry (foundFirst counted citing).2.2 ("c", 1) =
          .ok ⟨1, .avro, "leaf", []⟩ ∧
        (Shelves.archive bare).registry (foundFirst counted citing).2.2 ("a", 1) =
          .ok ⟨2, .avro, "inner", [⟨"c", "c", 1⟩]⟩ := by
    decide +kernel
  refine consult_first found clean [("c", 1), ("a", 1), ("c", 1)] ?_ (by decide) ?_
  · exact .cons inner (.cons leaf .nil .nil) (.cons leaf .nil .nil)
  · exact .cons leaf (.cons inner .nil)

theorem plain_citing : ∀ y ∈ citing.schema, y.Plain := by
  intro y hy
  obtain rfl : Shelves.branching = y := Option.some.inj hy
  exact ⟨⟨none, rfl⟩, by decide, by decide⟩

/-- A new decoder and one that uses the client of the encoder get what the encoder got. -/
theorem decode_of_encode_citing :
    ∃ st e, ((encoder bare counted).encode [1, 2] citing).run.run (Shelves.depository bare.url)
        unused [] = (.ok [0, 0, 0, 0, 3, 2, 1, 2], st, e) ∧
      ∀ st' ∈ [unused, st], (Shelves.archive bare).Untroubled e cited st'.cache ∧
        (((decoder bare counted).consult (some [0, 0, 0, 0, 3, 2, 1, 2])).run.run
          (Shelves.depository bare.url) st' e).1 = .ok (some (cited, [2, 1, 2], below)) ∧
        (((decoder bare counted).decode (some [0, 0, 0, 0, 3, 2, 1, 2])).run.run
          (Shelves.depository bare.url) st' e).1 = .ok (some [1, 2]) := by
  obtain ⟨st, e, consulted, sound⟩ := consult_citing
  have encoded : ((encoder bare counted).encode [1, 2] citing).run.run
      (Shelves.depository bare.url) unused [] = (.ok [0, 0, 0, 0, 3, 2, 1, 2], st, e) :=
    run_encode_ok consulted rfl (by decide)
  obtain ⟨x, refs, payload, given, paid, same, back⟩ :=
    decode_of_encode (Shelves.archive bare) (session_unused []) encoded
  rw [consulted] at given
  obtain ⟨rfl, rfl⟩ := Prod.mk.inj (Except.ok.inj given)
  obtain rfl := Except.ok.inj paid
  rw [same plain_citing] at back
  have goesOn := Session.run (session_unused (a := Shelves.archive bare) [])
    (.encode counted [1, 2] citing)
  rw [encoded] at goesOn
  refine ⟨st, e, encoded, ?_⟩
  intro st' h
  obtain ⟨session, clean⟩ :
      (Shelves.archive bare).Session st' e ∧ ∀ s, st'.cache.SoundAt s := by
    rcases List.mem_pair.1 h with rfl | rfl
    · exact ⟨session_unused e, soundAt_of_errorCount rfl⟩
    · exact ⟨goesOn, sound⟩
  have untroubled : (Shelves.archive bare).Untroubled e cited st'.cache :=
    ⟨clean _, fun t _ => clean _⟩
  obtain ⟨consults, decodes⟩ := (back (.refl e) session).2 untroubled
  exact ⟨untroubled, consults, decodes rfl⟩

/-! ### What the decoder does not get -/

/-- The two halves of one character. -/
def halves : Text := [.surrogate ⟨61, by decide⟩, .surrogate ⟨1536, by decide⟩]

/-- A naming that carries a schema with this text. -/
def halved : Naming := .byTopicWith "topic" false ⟨none, .avro, halves, []⟩

theorem consult_halved :
    ∃ st e, ((encoder bare Codec.raw).consult halved).run.run (Shelves.depository bare.url) unused
      [] = (.ok (⟨1, .avro, halves, []⟩, []), st, e) ∧ ∀ s, st.cache.SoundAt s :=
  consult_first (by decide +kernel) (by decide +kernel) [] .nil (by decide) .nil

/-- How a decoder asks an empty depository for an identifier. -/
def askedFirst (m : Nat) : Except Failure RegisteredSchema × State × Shelves :=
  ((decoder bare Codec.raw).getSchema m).run.run (Shelves.depository bare.url) unused []

/-- A decoder that asks for an identifier before it is given away remembers that. -/
theorem decode_early {b payload : Bytes} (framed : Frame.split (some b) = .framed 1 payload) :
    ∃ st, ((decoder bare Codec.raw).decode (some b)).run.run (Shelves.depository bare.url) unused
        [] = (.error (.resolution (.status 404)), st, []) ∧
      st.cache.find? (.ofId 1) = some (.error (ResolutionError.status 404).intoCache) := by
  have missing : (askedFirst 1).1 = .error (.resolution (.status 404)) := by decide +kernel
  have kept : (askedFirst 1).2.1.cache.find? (.ofId 1) =
    some (.error (ResolutionError.status 404).intoCache) := by decide +kernel
  have world : (askedFirst 1).2.2 = [] := by decide +kernel
  obtain ⟨st, e, run⟩ := exists_run_eq missing
  have out : askedFirst 1 = (_, st, e) := run
  rw [out] at kept world
  obtain rfl : e = [] := world
  refine ⟨st, ?_, kept⟩
  rw [Decoder.decode_eq, decoder_consult_eq framed]
  exact run_bind_error (run_bind_error run)

/-- The schema that a decoder gets has a character in its text where the encoder had the halves of
it. A decoder that asked before the schema was registered gets nothing. -/
theorem consult_halves :
    SchemaType.ofRegistryName none = .ok .avro ∧ halves ≠ "😀" ∧
      ∃ st₀ st e, ((decoder bare Codec.raw).decode (some [0, 0, 0, 0, 1, 1, 2])).run.run
          (Shelves.depository bare.url) unused [] =
            (.error (.resolution (.status 404)), st₀, []) ∧
        ((encoder bare Codec.raw).encode (.bytes [1, 2]) halved).run.run
          (Shelves.depository bare.url) unused [] = (.ok [0, 0, 0, 0, 1, 1, 2], st, e) ∧
        (((encoder bare Codec.raw).consult halved).run.run
          (Shelves.depository bare.url) unused []).1 = .ok (⟨1, .avro, halves, []⟩, []) ∧
        (((decoder bare Codec.raw).consult (some [0, 0, 0, 0, 1, 1, 2])).run.run
          (Shelves.depository bare.url) unused e).1 = .ok (some (⟨1, .avro, "😀", []⟩, [1, 2], [])) ∧
        (Shelves.archive bare).Session st₀ e ∧
        (((decoder bare Codec.raw).consult (some [0, 0, 0, 0, 1, 1, 2])).run.run
          (Shelves.depository bare.url) st₀ e).1 =
            .error (.resolution (ResolutionError.status 404).intoCache) := by
  have framed : Frame.split (some [0, 0, 0, 0, 1, 1, 2]) = .framed 1 [1, 2] := by decide
  obtain ⟨st₀, early, kept⟩ := decode_early framed
  obtain ⟨st, e, consulted, -⟩ := consult_halved
  have encoded : ((encoder bare Codec.raw).encode (.bytes [1, 2]) halved).run.run
      (Shelves.depository bare.url) unused [] = (.ok [0, 0, 0, 0, 1, 1, 2], st, e) :=
    run_encode_ok consulted rfl (by decide)
  have asked := Session.run (session_unused (a := Shelves.archive bare) [])
    (.decode Codec.raw (some [0, 0, 0, 0, 1, 1, 2]))
  rw [early] at asked
  have truthful (e : Shelves) : (Shelves.archive bare).Truthful e unused.cache :=
    (session_unused e).truthful
  obtain ⟨known, -, closed⟩ := of_encoder_consult (truthful []) consulted
  have settled : RegisteredSchema.settle ⟨1, .avro, halves, []⟩ = ⟨1, .avro, "😀", []⟩ := by
    decide
  rw [settled] at known closed
  have untroubled : (Shelves.archive bare).Untroubled e ⟨1, .avro, "😀", []⟩ unused.cache :=
    ⟨soundAt_of_errorCount rfl _, fun t _ => soundAt_of_errorCount rfl _⟩
  obtain ⟨st', e', decoded, -⟩ :=
    decoder_consult_ok Codec.raw framed (.refl e) known (closed (.refl e)) (truthful e) untroubled
  exact ⟨rfl, by decide, st₀, st, e, early, encoded, congrArg Prod.fst consulted,
    congrArg Prod.fst decoded, asked.later (later_of_run encoded),
    decoder_consult_kept framed kept e⟩

end Archive

end Registrar
