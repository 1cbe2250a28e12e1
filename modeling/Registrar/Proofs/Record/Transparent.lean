import Registrar.Proofs.Client.Addresses
import Registrar.Proofs.Record.References
import Registrar.Record.Decoder

/-!
# The cache of a decoder does not show

A decoder may be used without its cache, when every lookup goes to its client. What it gives with
the cache, after any uses and while the replies change as they like, is what it gives without the
cache before a registry that does not change: one that gives to each request the reply that came
last for it. Only an error may differ, in that it says that it comes from the cache.

Every entry of the cache is what the last reply for its slot tells (`Coherent`), since a slot that
has an entry is not asked for. What a lookup gives stays in the cache until the use is over, so it
is still what the last reply tells in the end; an error ends the use at once.
-/

namespace Registrar

open Exchange (Call)

variable {I : Interface} {ν α β ε : Type}

/-! ## Without the cache -/

/-- The ways in which a decoder looks schemas up. -/
structure Lookups (I : Interface) where
  byId : Int → Routine I RegisteredSchema
  byReference : RegisteredReference → Routine I RegisteredSchema

def Client.throughCache (c : Client I) : Lookups I := ⟨c.resolveId, c.resolveReference⟩

def Client.straight (c : Client I) : Lookups I := ⟨c.fetchById, c.fetchReference⟩

/-- What a decoder is asked. -/
inductive Question where
  | decode (data : Option Bytes)
  | decodeRecord (r : ConsumedRecord)
  | getSchema (id : Int)

inductive Answer (ν : Type) where
  | value (v : Option ν)
  | record (r : DecodedRecord ν)
  | schema (s : RegisteredSchema)

namespace Decoder

variable (d : Decoder I ν) (l : Lookups I)

def getSchemaBy (id : Int) : Routine I RegisteredSchema := operation "get_schema" (l.byId id)

def decodeBy (data : Option Bytes) : Routine I (Option ν) := do
  match Frame.split data with
  | .absent => return none
  | .unframed raw => Routine.fail (notFramed raw)
  | .framed id payload =>
    let schema ← getSchemaBy l id
    let references ←
      Closure.ofReferences d.client.settings.maxDepth l.byReference schema.references
    let value ← Client.payload "could not decode payload" (d.codec.decode schema payload references)
    return some value

def decodeRecordBy (r : ConsumedRecord) : Routine I (DecodedRecord ν) := do
  let key ← d.decodeBy l r.key
  let value ← d.decodeBy l r.value
  return ⟨r.topic, r.partition, r.offset, key, value⟩

/-- Answers a question, with the given lookups. -/
def answerBy : Question → Routine I (Answer ν)
  | .decode data => return .value (← d.decodeBy l data)
  | .decodeRecord r => return .record (← d.decodeRecordBy l r)
  | .getSchema id => return .schema (← getSchemaBy l id)

def answer : Question → Routine I (Answer ν)
  | .decode data => return .value (← d.decode data)
  | .decodeRecord r => return .record (← d.decodeRecord r)
  | .getSchema id => return .schema (← d.getSchema id)

theorem answer_eq (q : Question) : d.answer q = d.answerBy d.client.throughCache q := by
  cases q <;> rfl

end Decoder

/-! ## The last replies -/

/-- The replies that came last to the requests for addresses. -/
abbrev Replies := Assoc Text (Except Failure Response)

/-- A world that remembers what it replied last to the request for each address. -/
def Program.World.remembering (w : World Exchange.interface ε) :
    World Exchange.interface (ε × Replies) where
  reply
    | .get url, e =>
      let (reply, e') := w.reply (Call.get url) e.1
      (reply, e', Assoc.put url reply e.2)
    | .post url body, e =>
      let (reply, e') := w.reply (Call.post url body) e.1
      (reply, e', e.2)
    | .close, e => ((), (w.reply Call.close e.1).2, e.2)

/-- A registry that does not change. It gives the last replies, and other ones to requests to which
there was none. -/
def Replies.frozen (replies : Replies) (other : Text → Except Failure Response) :
    Program.World Exchange.interface Unit where
  reply
    | .get url, e => ((Assoc.get? url replies).getD (other url), e)
    | .post url _, e => (other url, e)
    | .close, e => ((), e)

/-! ## Uses -/

/-- What may be done with a decoder. -/
inductive Use where
  | ask (q : Question)
  | removeErrors
  | clear

namespace Use

variable (d : Decoder I ν) (w : Program.World I ε)

/-- What is left of a use. -/
def run : Use → State → ε → State × ε
  | .ask q, s, e => ((d.answer q).run.run w s e).2
  | .removeErrors, s, e => (d.removeErrors.run.run w s e).2
  | .clear, s, e => ({ s with cache := s.cache.clear }, e)

def runAll (us : List Use) (s : State) (e : ε) : State × ε :=
  us.foldl (fun x u => u.run d w x.1 x.2) (s, e)

end Use

/-! ## Entries -/

/-- The request for what is kept at a slot, and the identifier that it is for. -/
def Slot.source? : Slot → Option (Resource × Option Int)
  | ⟨.id, .number n⟩ => some (.schemaById n, some n)
  | ⟨.reference, .version s v⟩ => some (.version s v, none)
  | _ => none

theorem Slot.source?_injective {s s' : Slot} {r : Resource} {requested requested' : Option Int}
    (h : s.source? = some (r, requested)) (h' : s'.source? = some (r, requested')) : s = s' := by
  unfold source? at h h'
  split at h <;> cases h <;> split at h' <;> cases h' <;> rfl

namespace Client

open Cache Closure Routine

variable (settings : Settings)

/-- The entry is what the last reply for its slot tells. -/
def Recounts (replies : Replies) (s : Slot) (x : Entry) : Prop :=
  ∃ r requested url reply, s.source? = some (r, requested) ∧ (direct settings).url r = .ok url ∧
    Assoc.get? url replies = some reply ∧ Recalls x (read requested reply)

/-- Every entry is what the last reply for its slot tells. -/
def Coherent (replies : Replies) (c : Cache) : Prop :=
  ∀ p ∈ c.entries, Recounts settings replies p.1 p.2

/-- No schema is gone. -/
def Grown (c c' : Cache) : Prop :=
  ∀ s x, c.find? s = some (.schema x) → c'.find? s = some (.schema x)

theorem Grown.refl (c : Cache) : Grown c c := fun _ _ => id

theorem Grown.trans {c c' c'' : Cache} (h : Grown c c') (h' : Grown c' c'') : Grown c c'' :=
  fun s x hx => h' s x (h s x hx)

variable {settings} {w : Program.World Exchange.interface ε}

/-- The last reply for another address does not matter. -/
theorem Recounts.put {replies : Replies} {s s' : Slot} {x : Entry} {r' : Resource}
    {requested' : Option Int} {url' : Text} (h : Recounts settings replies s x) (ne : s ≠ s')
    (source : s'.source? = some (r', requested')) (address : (direct settings).url r' = .ok url')
    (reply : Except Failure Response) : Recounts settings (Assoc.put url' reply replies) s x := by
  obtain ⟨r, requested, url, old, hs, hr, last, recalls⟩ := h
  refine ⟨r, requested, url, old, hs, hr, ?_, recalls⟩
  rw [Assoc.get?_put_of_ne _ reply]
  · exact last
  · rintro rfl
    obtain rfl := url_injective hr address
    exact ne (Slot.source?_injective hs source)

section

variable {s : Slot} {loader : Loader Exchange.interface} {r : Resource} {requested : Option Int}
  {replies : Replies} {other : Text → Except Failure Response}

/-- What a registry that does not change says to a loader. -/
theorem run_frozen
    (yields : Yields (replies.frozen other) loader
      (fetched (replies.frozen other) settings r requested)) {url : Text}
    (address : (direct settings).url r = .ok url) (st : State) :
    (loader.run.run (replies.frozen other) st ()).1 =
      read requested ((Assoc.get? url replies).getD (other url)) := by
  have given := congrArg Prod.fst (yields st ())
  rw [run_fetched settings address] at given
  exact given

theorem Recounts.recalls {x : Entry} (h : Recounts settings replies s x)
    (source : s.source? = some (r, requested))
    (yields : Yields (replies.frozen other) loader
      (fetched (replies.frozen other) settings r requested)) (st : State) :
    Recalls x (loader.run.run (replies.frozen other) st ()).1 := by
  obtain ⟨r', requested', url, reply, source', address, last, recalls⟩ := h
  cases source.symm.trans source'
  rw [run_frozen yields address, last]
  exact recalls

/-- What cannot be addressed is no matter of resolution. -/
theorem foreign_of_url {f : Failure} (h : (direct settings).url r = .error f) :
    ∃ g, f = .foreign g := by
  unfold Client.url at h
  split at h
  · cases h
  · cases h
    exact ⟨_, rfl⟩

end

/-! ## The simulation -/

section

variable (settings) (other : Text → Except Failure Response)

/-- A run from the state `st` of a routine with the cache ended as `z`, the same without it. What it
gave `z` gives from then on; the way in which it failed is the one in which `z` fails now. -/
structure Shows (st : State) (out : Except Failure α × State × ε × Replies)
    (z : Routine Exchange.interface α) : Prop where
  coherent : Coherent settings out.2.2.2 out.2.1.cache
  grown : Grown st.cache out.2.1.cache
  lasting : ∀ a, out.1 = .ok a → ∀ (c : Cache) (replies : Replies), Coherent settings replies c →
    Grown out.2.1.cache c → ∀ s, (z.run.run (replies.frozen other) s ()).1 = .ok a
  repeats : ∀ s, Repeats out.1 (z.run.run (out.2.2.2.frozen other) s ()).1

end

variable {other : Text → Except Failure Response} {st : State} {e : ε × Replies}

theorem Shows.ofExcept (h : Coherent settings e.2 st.cache) (r : Except Failure α) :
    Shows settings other st (r, st, e) (Routine.ofExcept r) where
  coherent := h
  grown := .refl _
  lasting := by
    rintro a rfl c replies - - s
    rfl
  repeats s := by
    cases r <;> exact .same _

theorem Shows.bind {x z : Routine Exchange.interface α} {f g : α → Routine Exchange.interface β}
    (first : Shows settings other st (x.run.run w.remembering st e) z)
    (next : ∀ a st₁ e₁, Coherent settings e₁.2 st₁.cache →
      Shows settings other st₁ ((f a).run.run w.remembering st₁ e₁) (g a)) :
    Shows settings other st ((x >>= f).run.run w.remembering st e) (z >>= g) := by
  cases hx : (x.run.run w.remembering st e).1 with
  | error failure =>
    obtain ⟨st₁, e₁, run⟩ := exists_run_eq hx
    rw [run] at first
    rw [run_bind_error run]
    refine ⟨first.coherent, first.grown, fun a ok => ?_, fun s => ?_⟩
    · cases ok
    · have same := first.repeats s
      obtain ⟨g, hg⟩ := same.of_error
      obtain ⟨s', e', ran⟩ := exists_run_eq hg
      rw [run_bind_error ran]
      exact (hg ▸ same).failed
  | ok a =>
    obtain ⟨st₁, e₁, run⟩ := exists_run_eq hx
    rw [run] at first
    rw [run_bind_ok run]
    have rest := next a st₁ e₁ first.coherent
    -- What `x` gave `z` gives before every later registry, so `z >>= g` goes on as `g a` there.
    have onwards {c : Cache} {replies : Replies} (coherent : Coherent settings replies c)
        (grown : Grown st₁.cache c) (s : State) :
        ∃ s', (z >>= g).run.run (replies.frozen other) s () =
          (g a).run.run (replies.frozen other) s' () := by
      obtain ⟨s', e', ran⟩ := exists_run_eq (first.lasting a rfl c replies coherent grown s)
      exact ⟨s', run_bind_ok ran⟩
    refine ⟨rest.coherent, first.grown.trans rest.grown, fun b ok c replies coherent grown s => ?_,
      fun s => ?_⟩
    · obtain ⟨s', same⟩ := onwards coherent (rest.grown.trans grown) s
      rw [same]
      exact rest.lasting b ok c replies coherent grown s'
    · obtain ⟨s', same⟩ := onwards rest.coherent rest.grown s
      rw [same]
      exact rest.repeats s'

/-- Recording how a routine ends changes nothing. -/
theorem Shows.logged {x z : Routine Exchange.interface α}
    (h : Shows settings other st (x.run.run w.remembering st e) z) {l : Logging}
    (quiet : l.start = false) {level : Level} (hl : l.level.forRecord = .ok level) :
    Shows settings other st ((logged l x).run.run w.remembering st e) (logged l z) := by
  have without (replies : Replies) (s : State) :
      ((Routine.logged l z).run.run (replies.frozen other) s ()).1 =
        (z.run.run (replies.frozen other) s ()).1 := by
    obtain ⟨s', run, -⟩ := run_logged (w := replies.frozen other) z quiet hl s ()
    rw [run]
  obtain ⟨st', run, same⟩ := run_logged (w := w.remembering) x quiet hl st e
  rw [run]
  refine ⟨?_, ?_, fun a ok c replies coherent grown s => ?_, fun s => ?_⟩
  · rw [same]
    exact h.coherent
  · rw [same]
    exact h.grown
  · rw [without]
    exact h.lasting a ok c replies coherent (same ▸ grown) s
  · rw [without]
    exact h.repeats s

/-! ## Lookups -/

theorem grown_of_filled {c c' : Cache} {s : Slot} {x : Option Entry}
    (filled : Filled c c' s x) (missing : c.find? s = none) : Grown c c' := by
  intro s' y hy
  rw [filled.elsewhere s', hy]
  rintro rfl
  rw [missing] at hy
  cases hy

/-- A loader that is run because its slot has no entry leaves the cache coherent. -/
theorem Coherent.fill {s : Slot} {r : Resource} {requested : Option Int} {replies : Replies}
    {c c' : Cache} {url : Text} (h : Coherent settings replies c) (missing : c.find? s = none)
    (source : s.source? = some (r, requested)) (address : (direct settings).url r = .ok url)
    {reply : Except Failure Response} (filled : Filled c c' s (kept c (read requested reply))) :
    Coherent settings (Assoc.put url reply replies) c' := by
  intro p hp
  rcases filled.of_mem hp with old | ⟨rfl, new⟩
  · have other : p.1 ≠ s := by
      rintro rfl
      exact Assoc.get?_eq_none_iff.1 missing (List.mem_map_of_mem old)
    exact (h p old).put other source address reply
  · exact ⟨r, requested, url, reply, source, address, Assoc.get?_put_self .., recalls_kept new⟩

/-- A lookup through the cache shows what its loader gives. -/
theorem shows_getOrLoad {s : Slot} {loader : Loader Exchange.interface} {r : Resource}
    {requested : Option Int} (source : s.source? = some (r, requested))
    (yields : ∀ {ε : Type} (w : Program.World Exchange.interface ε),
      Yields w loader (fetched w settings r requested))
    (outside : Keeps SameCache loader) (h : Coherent settings e.2 st.cache) :
    Shows settings other st ((getOrLoad s loader).run.run w.remembering st e) loader := by
  -- A schema that is kept at the slot is what the loader gives from then on.
  have lasting {x : RegisteredSchema} {c : Cache} {replies : Replies}
      (coherent : Coherent settings replies c) (hx : c.find? s = some (.schema x)) (st : State) :
      (loader.run.run (replies.frozen other) st ()).1 = .ok x := by
    have recalls : Recalls (.schema x) (loader.run.run (replies.frozen other) st ()).1 :=
      (coherent _ (Assoc.mem_of_get? hx)).recalls source (yields _) st
    generalize (loader.run.run (replies.frozen other) st ()).1 = result at recalls
    cases recalls
    rfl
  cases hx : st.cache.find? s with
  | some x =>
    obtain ⟨st', run, same⟩ := run_getOrLoad_found (w := w.remembering) loader hx e
    rw [run]
    refine ⟨?_, ?_, fun a ok c replies coherent grown s' => ?_, fun s' => ?_⟩
    · rwa [same]
    · rw [same]
      exact .refl _
    · cases x with
      | error f => cases ok
      | schema y =>
        cases ok
        exact lasting coherent (grown _ _ (same ▸ hx)) s'
    · exact ((h _ (Assoc.mem_of_get? hx)).recalls source (yields _) s').repeats
  | none =>
    obtain ⟨st₁, st₂, -, run, filled⟩ := run_getOrLoad_missing hx outside (w := w.remembering) e
    have given := yields w.remembering st₁ e
    rw [run]
    cases address : (direct settings).url r with
    | error f =>
      obtain ⟨g, rfl⟩ := foreign_of_url address
      rw [run_fetched_of_error settings address] at given
      obtain ⟨failed, same⟩ := Prod.mk.inj given
      rw [failed] at filled
      rw [failed, same]
      refine ⟨fun p hp => ?_, grown_of_filled filled hx, fun a ok => ?_, fun s' => ?_⟩
      · rcases filled.of_mem hp with old | ⟨-, new⟩
        · exact h p old
        · cases new
      · cases ok
      · have failed := congrArg Prod.fst (yields (e.2.frozen other) s' ())
        rw [run_fetched_of_error settings address] at failed
        exact failed ▸ .same _
    | ok url =>
      rw [run_fetched settings address] at given
      obtain ⟨read, same⟩ := Prod.mk.inj given
      rw [read] at filled
      rw [read, same]
      refine ⟨h.fill hx source address filled, grown_of_filled filled hx,
        fun a ok c replies coherent grown s' => ?_, fun s' => ?_⟩
      · have here := filled.here
        rw [show Client.read requested _ = _ from ok] at here
        exact lasting coherent (grown _ _ here) s'
      · have last : Assoc.get? url (w.remembering.reply (Call.get url) e).2.2 =
            some (w.remembering.reply (Call.get url) e).1 :=
          Assoc.get?_put_self ..
        rw [run_frozen (yields _) address, last]
        exact .same _

theorem shows_search (limit : Nat) (agenda : List Item) (f : Found)
    (h : Coherent settings e.2 st.cache) :
    Shows settings other st
      ((search limit (direct settings).resolveReference agenda f).run.run w.remembering st e)
      (search limit (direct settings).fetchReference agenda f) := by
  fun_induction search limit (direct settings).resolveReference agenda f generalizing st e with
  | case1 f =>
    rw [search]
    exact .ofExcept h (.ok _)
  | case2 f i rest seen ih =>
    rw [search, if_pos seen]
    exact ih h
  | case3 f i rest seen followed x hx ih =>
    rw [search, if_neg seen, if_pos followed, hx]
    exact ih h
  | case4 f i rest seen followed hx =>
    rw [search, if_neg seen, if_pos followed, hx]
    exact .ofExcept h (.error _)
  | case5 f i rest seen followed deep =>
    rw [search, if_neg seen, if_neg followed, if_pos deep]
    exact .ofExcept h (.error _)
  | case6 f i rest seen followed deep ih =>
    rw [search, if_neg seen, if_neg followed, if_neg deep]
    refine Shows.bind (shows_getOrLoad (s := .ofReference i.reference) rfl
      (fun w => yields_fetchReference settings i.reference) (keeps_fetchReference ..) h) ?_
    exact fun x st₁ e₁ h₁ => ih x h₁

end Client

/-! ## Decoders -/

namespace Decoder

open Client Closure Routine

variable {settings : Settings} {w : Program.World Exchange.interface ε}
  {other : Text → Except Failure Response} {st : State} {e : ε × Replies} (codec : Codec ν)

theorem shows_getSchemaBy (h : Coherent settings e.2 st.cache) (id : Int) :
    Shows settings other st
      ((getSchemaBy (direct settings).throughCache id).run.run w.remembering st e)
      (getSchemaBy (direct settings).straight id) := by
  have looked : Shows settings other st
      (((direct settings).resolveId id).run.run w.remembering st e)
      ((direct settings).fetchById id) :=
    shows_getOrLoad (s := .ofId id) rfl (fun w => yields_fetchById settings id)
      (keeps_fetchById settings id) h
  exact looked.logged (l := ⟨_, _, Level.debug, false⟩) rfl rfl

theorem shows_payload (h : Coherent settings e.2 st.cache) (message : String)
    (r : Except Failure α) :
    Shows settings other st ((Client.payload message r).run.run w.remembering st e)
      (Client.payload message r) := by
  rcases r with (f | f | _) | a
  · exact .ofExcept h (.error _)
  · exact .ofExcept h (.error _)
  · exact .ofExcept h (.error _)
  · exact .ofExcept h (.ok _)

theorem shows_decodeBy (h : Coherent settings e.2 st.cache) (data : Option Bytes) :
    let d : Decoder Exchange.interface ν := ⟨direct settings, codec⟩
    Shows settings other st
      ((d.decodeBy d.client.throughCache data).run.run w.remembering st e)
      (d.decodeBy d.client.straight data) := by
  intro d
  unfold decodeBy
  split
  · exact .ofExcept h (.ok _)
  · exact .ofExcept h (.error _)
  · rename_i id payload _
    refine (shows_getSchemaBy h id).bind fun schema st₁ e₁ h₁ => ?_
    refine (shows_search settings.maxDepth _ _ h₁).bind fun references st₂ e₂ h₂ => ?_
    refine (shows_payload h₂ _ _).bind fun value st₃ e₃ h₃ => ?_
    exact .ofExcept h₃ (.ok _)

theorem shows_answerBy (h : Coherent settings e.2 st.cache) (q : Question) :
    let d : Decoder Exchange.interface ν := ⟨direct settings, codec⟩
    Shows settings other st
      ((d.answerBy d.client.throughCache q).run.run w.remembering st e)
      (d.answerBy d.client.straight q) := by
  intro d
  cases q with
  | decode data =>
    refine (shows_decodeBy codec h data).bind fun v st₁ e₁ h₁ => .ofExcept h₁ (.ok _)
  | decodeRecord r =>
    refine Shows.bind ?_ fun v st₁ e₁ h₁ => .ofExcept h₁ (.ok _)
    refine (shows_decodeBy codec h r.key).bind fun key st₁ e₁ h₁ => ?_
    refine (shows_decodeBy codec h₁ r.value).bind fun value st₂ e₂ h₂ => ?_
    exact .ofExcept h₂ (.ok _)
  | getSchema id => exact (shows_getSchemaBy h id).bind fun v st₁ e₁ h₁ => .ofExcept h₁ (.ok _)

theorem run_removeErrors (d : Decoder I ν) (w : Program.World I ε) (s : State) (e : ε) :
    ∃ s', (d.removeErrors.run.run w s e).2 = (s', e) ∧ s'.cache = s.cache.dropErrors := by
  have dropped : ∃ s', (Cache.removeErrors.run.run w s e).2 = (s', e) ∧
      s'.cache = s.cache.dropErrors := by
    show ∃ s', (Program.run w (ExceptT.run (if s.cache.errorCount ≠ 0 then _ else _)) _ e).2 = _ ∧ _
    split
    · exact ⟨_, rfl, rfl⟩
    · exact ⟨_, rfl, rfl⟩
  obtain ⟨s₁, ran, cache⟩ := dropped
  obtain ⟨s₂, run, same⟩ := run_logged (w := w) (Cache.removeErrors : Routine I Nat)
    (l := ⟨_, "Decoder." ++ "remove_errors_from_cache", Level.debug, false⟩) rfl rfl s e
  rw [ran] at run same
  exact ⟨s₂, congrArg Prod.snd run, same.trans cache⟩

/-- Every use leaves the cache coherent. -/
theorem coherent_run (h : Coherent settings e.2 st.cache) (u : Use) :
    let out := u.run ⟨direct settings, codec⟩ w.remembering st e
    Coherent settings out.2.2 out.1.cache := by
  cases u with
  | ask q =>
    show Coherent settings ((answer _ q).run.run _ st e).2.2.2 _
    rw [answer_eq]
    have shows : Shows settings (fun _ => .ok ⟨404, []⟩) st _ _ :=
      shows_answerBy (w := w) codec h q
    exact shows.coherent
  | removeErrors =>
    obtain ⟨s', run, cache⟩ := run_removeErrors ⟨direct settings, codec⟩ w.remembering st e
    dsimp only [Use.run]
    rw [run, cache]
    exact fun p hp => h p (List.mem_of_mem_filter hp)
  | clear => exact fun p hp => (List.not_mem_nil hp).elim

theorem coherent_runAll (us : List Use) (h : Coherent settings e.2 st.cache) :
    let out := Use.runAll ⟨direct settings, codec⟩ w.remembering us st e
    Coherent settings out.2.2 out.1.cache := by
  induction us generalizing st e with
  | nil => exact h
  | cons u us ih => exact ih (coherent_run codec h u)

/-- What a decoder answers after any uses is what it answers without its cache before a registry
that does not change and gives the replies that came last, to requests of these uses or of the
answer itself. An error may in addition say that it comes from the cache. -/
theorem transparent (settings : Settings) (codec : Codec ν)
    (w : Program.World Exchange.interface ε) (other : Text → Except Failure Response)
    (threshold : Level) (keepRetriable : Bool) (e : ε) (us : List Use) (q : Question) (s : State) :
    let d : Decoder Exchange.interface ν := ⟨direct settings, codec⟩
    let before := Use.runAll d w.remembering us (State.initial threshold keepRetriable) (e, [])
    let out := (d.answer q).run.run w.remembering before.1 before.2
    Repeats out.1 ((d.answerBy d.client.straight q).run.run (out.2.2.2.frozen other) s ()).1 := by
  intro d before out
  have coherent : Coherent settings before.2.2 before.1.cache :=
    coherent_runAll codec us fun p hp => (List.not_mem_nil hp).elim
  have shows : Shows settings other before.1 ((d.answer q).run.run w.remembering before.1 before.2)
      (d.answerBy d.client.straight q) := by
    rw [answer_eq]
    exact shows_answerBy codec coherent q
  exact shows.repeats s

end Decoder

end Registrar
