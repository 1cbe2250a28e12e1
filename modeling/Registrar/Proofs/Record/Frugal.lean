import Registrar.Proofs.Envelope
import Registrar.Proofs.Record.Transparent
import Registrar.Proofs.Record.Upheld

/-!
# A decoder makes no request in vain

A decoder that is used again and again asks for an address twice only if the first request ended in
an error, and only for a reason: the error was no matter of resolution, or errors have been removed
since, or the registry could not be reached and such errors are not kept. The one address at which a
slot of the cache is asked for is asked for no other slot, so a request that has been made is
accounted for by the entry of its slot, or by such a reason.
-/

namespace Registrar

open Exchange (Call)

variable {ε ν : Type}

/-! ## Chronicles -/

/-- What happens to a decoder: a request that gets a reply, and the end of a use. -/
inductive Happening where
  | request (url : Text) (reply : Except Failure Response)
  | used (u : Use)

/-- What has happened, the last first. -/
abbrev Chronicle := List Happening

/-- A world that writes down its replies to requests for addresses. -/
def Program.World.chronicling (w : World Exchange.interface ε) :
    World Exchange.interface (ε × Chronicle) where
  reply
    | .get url, e =>
      let (reply, e') := w.reply (Call.get url) e.1
      (reply, e', .request url reply :: e.2)
    | .post url body, e =>
      let (reply, e') := w.reply (Call.post url body) e.1
      (reply, e', e.2)
    | .close, e => ((), (w.reply Call.close e.1).2, e.2)

/-- What is left of a use, which is written down. -/
def Use.chronicle (d : Decoder Exchange.interface ν) (w : Program.World Exchange.interface ε)
    (u : Use) (x : State × ε × Chronicle) : State × ε × Chronicle :=
  let (s, e, past) := u.run d w.chronicling x.1 x.2
  (s, e, .used u :: past)

/-- What has happened when uses have followed one another, from the state `s` on. -/
def Use.chronicleAll (d : Decoder Exchange.interface ν) (w : Program.World Exchange.interface ε)
    (us : List Use) (s : State) (e : ε) : Chronicle :=
  (us.foldl (fun x u => u.chronicle d w x) (s, e, [])).2.2

/-- Why a request that got `reply` and ended so may be made once more. -/
inductive Excuse (keepRetriable : Bool) (since : Chronicle) (reply : Except Failure Response) :
    Except Failure RegisteredSchema → Prop where
  /-- What is no matter of resolution is not kept. -/
  | outside (f : Failure) (h : ∀ g, f ≠ .resolution g) : Excuse keepRetriable since reply (.error f)
  | removal (f : Failure) (h : .used .removeErrors ∈ since) :
    Excuse keepRetriable since reply (.error f)
  /-- The registry could not be reached, and such errors are not kept. -/
  | transient (f : ResolutionError) (unkept : keepRetriable = false)
    (retriable : f.retriable = true) (failed : reply = .error (.resolution f)) :
    Excuse keepRetriable since reply (.error (.resolution f))
  | clearing (x : Except Failure RegisteredSchema) (h : .used .clear ∈ since) :
    Excuse keepRetriable since reply x

theorem Excuse.mono {keepRetriable : Bool} {since since' : Chronicle}
    {reply : Except Failure Response} {x : Except Failure RegisteredSchema}
    (h : Excuse keepRetriable since reply x) (sub : since ⊆ since') :
    Excuse keepRetriable since' reply x := by
  cases h with
  | outside f h => exact .outside f h
  | removal f h => exact .removal f (sub h)
  | transient f unkept retriable failed => exact .transient f unkept retriable failed
  | clearing x h => exact .clearing x (sub h)

namespace Client

open Cache Routine

/-- A reply that is read as an error which a retry may cure is such an error itself. -/
theorem eq_error_of_read {requested : Option Int} {reply : Except Failure Response}
    {f : ResolutionError} (h : read requested reply = .error (.resolution f))
    (retriable : f.retriable = true) : reply = .error (.resolution f) := by
  rcases reply with g | response
  · cases h
    rfl
  · have final : f.retriable = false := by
      change (Envelope.ofResponse response >>= fun envelope =>
        (envelope.schema requested).mapError Failure.resolution) = _ at h
      cases he : Envelope.ofResponse response with
      | error g =>
        rw [he] at h
        cases h
        obtain ⟨g, hg, final⟩ | ⟨g, hg, -⟩ := Envelope.failure_of_ofResponse he
        · cases hg
          exact final.permanent
        · cases hg
      | ok envelope =>
        rw [he] at h
        change (envelope.schema requested).mapError Failure.resolution = _ at h
        cases hs : envelope.schema requested with
        | ok x =>
          rw [hs] at h
          cases h
        | error g =>
          rw [hs] at h
          cases h
          obtain ⟨message, cause, rfl⟩ := Envelope.parse_of_schema hs
          rfl
    rw [retriable] at final
    cases final

variable (settings : Settings)

/-- A request for the address is made for the slot, and with the reply it ends as `x`. -/
def Ended (url : Text) (reply : Except Failure Response) (s : Slot)
    (x : Except Failure RegisteredSchema) : Prop :=
  ∃ r requested, s.source? = some (r, requested) ∧ (direct settings).url r = .ok url ∧
    x = read requested reply

/-- Every request is accounted for by the entry of its slot or by an excuse, and by an excuse if it
was made again. -/
structure Accounted (keepRetriable : Bool) (c : Cache) (past : Chronicle) : Prop where
  policy : c.keepRetriable = keepRetriable
  entries : ∀ since url reply before, past = since ++ .request url reply :: before →
    ∃ s x, Ended settings url reply s x ∧
      ((∃ y, c.find? s = some y ∧ Recalls y x) ∨ Excuse keepRetriable since reply x)
  repeated : ∀ later url reply' since reply before,
    past = later ++ .request url reply' :: (since ++ .request url reply :: before) →
    ∃ s x, Ended settings url reply s x ∧ Excuse keepRetriable since reply x

variable {settings} {url : Text} {reply : Except Failure Response} {keepRetriable : Bool}
  {c c' : Cache} {past : Chronicle}

/-- An address is asked for one slot only, and a reply ends the request in one way only. -/
theorem Ended.unique {s s' : Slot} {x x' : Except Failure RegisteredSchema}
    (h : Ended settings url reply s x) {reply' : Except Failure Response}
    (h' : Ended settings url reply' s' x') : s = s' ∧ (reply = reply' → x = x') := by
  obtain ⟨r, requested, source, address, rfl⟩ := h
  obtain ⟨r', requested', source', address', rfl⟩ := h'
  obtain rfl := url_injective address address'
  obtain rfl := Slot.source?_injective source source'
  cases source.symm.trans source'
  exact ⟨rfl, fun same => by rw [same]⟩

/-- How a request ended is kept, or there is an excuse for making it again. -/
theorem kept_or_excuse (h : c.keepRetriable = keepRetriable) (requested : Option Int)
    (reply : Except Failure Response) :
    (∃ y, kept c (read requested reply) = some y) ∨
      Excuse keepRetriable [] reply (read requested reply) := by
  rcases hx : read requested reply with (f | f | _) | x
  · simp only [kept]
    cases keeps : c.keeps f with
    | true => exact .inl ⟨.error f.intoCache, if_pos rfl⟩
    | false =>
      simp only [Cache.keeps, Bool.or_eq_false_iff, Bool.not_eq_false'] at keeps
      exact .inr (.transient f (h.symm.trans keeps.1) keeps.2 (eq_error_of_read hx keeps.2))
  · exact .inr (.outside _ (by simp))
  · exact .inr (.outside _ (by simp))
  · exact .inl ⟨_, rfl⟩

namespace Accounted

/-- A request is made when there is no entry at its slot. -/
theorem request (h : Accounted settings keepRetriable c past) {s : Slot} {r : Resource}
    {requested : Option Int} (source : s.source? = some (r, requested))
    (address : (direct settings).url r = .ok url) (missing : c.find? s = none)
    (filled : Filled c c' s (kept c (read requested reply))) :
    Accounted settings keepRetriable c' (.request url reply :: past) := by
  have now : Ended settings url reply s (read requested reply) :=
    ⟨r, requested, source, address, rfl⟩
  refine ⟨filled.same.trans h.policy, ?_, ?_⟩
  · intro since url' reply' before split
    rcases List.cons_eq_append_iff.1 split with ⟨rfl, here⟩ | ⟨since, rfl, earlier⟩
    · cases here
      refine ⟨s, _, now, ?_⟩
      rcases kept_or_excuse h.policy requested reply with ⟨y, hy⟩ | excuse
      · refine .inl ⟨y, ?_, recalls_kept hy⟩
        rw [filled.here, hy]
        rfl
      · exact .inr excuse
    · obtain ⟨s', x, ended, ⟨y, hy, recalls⟩ | excuse⟩ := h.entries _ _ _ _ earlier
      · refine ⟨s', x, ended, .inl ⟨y, ?_, recalls⟩⟩
        rw [filled.elsewhere s', hy]
        rintro rfl
        cases missing.symm.trans hy
      · exact ⟨s', x, ended, .inr (excuse.mono (List.subset_cons_self ..))⟩
  · intro later url' reply' since first before split
    rcases List.cons_eq_append_iff.1 split with ⟨rfl, here⟩ | ⟨later, rfl, earlier⟩
    · cases here
      obtain ⟨s', x, ended, ⟨y, hy, -⟩ | excuse⟩ := h.entries _ _ _ _ rfl
      · obtain ⟨rfl, -⟩ := ended.unique now
        cases missing.symm.trans hy
      · exact ⟨s', x, ended, excuse⟩
    · exact h.repeated _ _ _ _ _ _ earlier

/-- What has been written down stays accounted for while no entry is lost. -/
theorem of_same (h : Accounted settings keepRetriable c past)
    (policy : c'.keepRetriable = c.keepRetriable) (same : c'.find? = c.find?) :
    Accounted settings keepRetriable c' past := by
  refine ⟨policy.trans h.policy, ?_, h.repeated⟩
  rw [same]
  exact h.entries

/-- The end of a use is written down; entries that are lost in it are excused. -/
theorem used (h : Accounted settings keepRetriable c past) {u : Use}
    (policy : c'.keepRetriable = c.keepRetriable)
    (lost : ∀ s y x, c.find? s = some y → Recalls y x → c'.find? s = some y ∨
      ∀ since reply, Excuse keepRetriable (.used u :: since) reply x) :
    Accounted settings keepRetriable c' (.used u :: past) := by
  refine ⟨policy.trans h.policy, ?_, ?_⟩
  · intro since url reply before split
    rcases List.cons_eq_append_iff.1 split with ⟨rfl, here⟩ | ⟨since, rfl, earlier⟩
    · cases here
    · obtain ⟨s, x, ended, ⟨y, hy, recalls⟩ | excuse⟩ := h.entries _ _ _ _ earlier
      · rcases lost s y x hy recalls with stays | excuse
        · exact ⟨s, x, ended, .inl ⟨y, stays, recalls⟩⟩
        · exact ⟨s, x, ended, .inr (excuse since reply)⟩
      · exact ⟨s, x, ended, .inr (excuse.mono (List.subset_cons_self ..))⟩
  · intro later url reply' since reply before split
    rcases List.cons_eq_append_iff.1 split with ⟨rfl, here⟩ | ⟨later, rfl, earlier⟩
    · cases here
    · exact h.repeated _ _ _ _ _ _ earlier

end Accounted

/-! ## Uses -/

variable {w : Program.World Exchange.interface ε}

/-- Lookups leave every request accounted for. -/
theorem upholds_accounted {s : Slot} {loader : Loader Exchange.interface} {r : Resource}
    {requested : Option Int} (source : s.source? = some (r, requested))
    (yields : Yields w.chronicling loader (fetched w.chronicling settings r requested))
    (outside : Keeps SameCache loader) :
    Upholds w.chronicling (fun c e => Accounted settings keepRetriable c e.2) (fun _ => True)
      (fun x => ∀ r ∈ x.references, True) (getOrLoad s loader) := by
  have anything (x : Except Failure RegisteredSchema) :
      Allowed (fun _ => True) (fun x => ∀ r ∈ x.references, True) x := by
    cases x with
    | error f => exact .error trivial
    | ok x => exact .ok fun _ _ => trivial
  refine upholds_getOrLoad outside (fun _ _ x _ _ => anything _) fun c st e h missing => ?_
  refine ⟨anything _, fun c' filled => ?_⟩
  obtain ⟨result, world⟩ := Prod.ext_iff.1 (yields st e)
  rw [show (loader.run.run w.chronicling st e).1 = _ from result] at filled
  rw [show (loader.run.run w.chronicling st e).2.2 = _ from world]
  cases address : (direct settings).url r with
  | error f =>
    obtain ⟨g, rfl⟩ := foreign_of_url address
    rw [run_fetched_of_error settings address] at filled ⊢
    exact h.of_same filled.same (by unfold Cache.find?; rw [filled.entries]; rfl)
  | ok url =>
    rw [run_fetched settings address] at filled ⊢
    exact h.request source address missing filled

/-- Removing the errors removes no schema. -/
theorem grown_dropErrors (c : Cache) : Grown c c.dropErrors := by
  intro s x h
  unfold Cache.find? Cache.dropErrors at *
  generalize c.entries = m at h
  fun_induction Assoc.get? s m <;> simp_all [Assoc.get?, List.filter_cons, Entry.isError]
  split <;> simp_all [Assoc.get?]

/-- The end of a use is written down. -/
theorem accounted_chronicle (codec : Codec ν) {x : State × ε × Chronicle} (u : Use)
    (h : Accounted settings keepRetriable x.1.cache x.2.2) :
    let y := u.chronicle ⟨direct settings, codec⟩ w x
    Accounted settings keepRetriable y.1.cache y.2.2 := by
  obtain ⟨s, e⟩ := x
  let d : Decoder Exchange.interface ν := ⟨direct settings, codec⟩
  cases u with
  | ask q =>
    have upheld : Upholds w.chronicling (fun c e => Accounted settings keepRetriable c e.2)
        (fun _ => True) (fun _ => True) (d.answer q) := by
      refine d.upholds_answer (G := fun _ => True) (fun _ => trivial) ?_ (fun id => ?_)
        (fun r _ => ?_) q
      · exact ⟨fun _ _ _ _ _ => .inl trivial, fun _ _ _ _ _ => .inl trivial⟩
      · exact upholds_accounted (s := .ofId id) rfl (yields_fetchById settings id)
          (keeps_fetchById settings id)
      · exact upholds_accounted (s := .ofReference r) rfl (yields_fetchReference settings r)
          (keeps_fetchReference settings r)
    exact (upheld s e h).1.used rfl fun _ _ _ hy _ => .inl hy
  | removeErrors =>
    obtain ⟨s', run, cache⟩ := d.run_removeErrors w.chronicling s e
    dsimp only [Use.chronicle, Use.run]
    rw [run, cache]
    refine h.used rfl fun slot y x hy recalls => ?_
    cases recalls with
    | schema x => exact .inl (grown_dropErrors _ _ _ hy)
    | error f => exact .inr fun since reply => .removal _ (.head _)
  | clear => exact h.used rfl fun _ _ _ _ _ => .inr fun since reply => .clearing _ (.head _)

theorem accounted_foldl (codec : Codec ν) (us : List Use) {x : State × ε × Chronicle}
    (h : Accounted settings keepRetriable x.1.cache x.2.2) :
    let y := us.foldl (fun x u => u.chronicle ⟨direct settings, codec⟩ w x) x
    Accounted settings keepRetriable y.1.cache y.2.2 := by
  induction us generalizing x with
  | nil => exact h
  | cons u us ih => exact ih (accounted_chronicle codec u h)

theorem accounted_initial (settings : Settings) (threshold : Level) (keepRetriable : Bool) :
    Accounted settings keepRetriable (State.initial threshold keepRetriable).cache [] := by
  refine ⟨rfl, ?_, ?_⟩
  · intro since url reply before split
    simp at split
  · intro later url reply' since reply before split
    simp at split

end Client

namespace Decoder

open Client

/-- An address is asked for again only for a reason. However often and in whatever way a decoder has
been used, the first of two requests for one address ended in a way that there is an excuse for; and
it did not give a schema, unless the cache has been cleared since. -/
theorem request_again (settings : Settings) (codec : Codec ν)
    (w : Program.World Exchange.interface ε) (threshold : Level) (keepRetriable : Bool) (e : ε)
    (us : List Use) {later since before : Chronicle} {url : Text}
    {reply reply' : Except Failure Response}
    (again : Use.chronicleAll ⟨direct settings, codec⟩ w us
      (State.initial threshold keepRetriable) e =
        later ++ .request url reply' :: (since ++ .request url reply :: before)) :
    (∃ s x, Ended settings url reply s x) ∧
      ∀ s x, Ended settings url reply s x → Excuse keepRetriable since reply x ∧
        (.used .clear ∉ since → ∃ f, x = .error f) := by
  have start := accounted_initial settings threshold keepRetriable
  have accounted := accounted_foldl (w := w) (x := (_, e, [])) codec us start
  obtain ⟨s, x, ended, excuse⟩ := accounted.repeated _ _ _ _ _ _ again
  refine ⟨⟨s, x, ended⟩, fun s' x' ended' => ?_⟩
  obtain rfl := (ended.unique ended').2 rfl
  refine ⟨excuse, fun uncleared => ?_⟩
  cases excuse with
  | outside f h => exact ⟨f, rfl⟩
  | removal f h => exact ⟨f, rfl⟩
  | transient f => exact ⟨_, rfl⟩
  | clearing x h => exact absurd h uncleared

/-- What happens when the schema 1 is asked for, with `us` in between, and every request is replied
to alike. -/
def askedTwice (reply : Except Failure Response) (us : List Use) : Chronicle :=
  Use.chronicleAll ⟨direct bare, Codec.raw⟩ (steady reply)
    (.ask (.getSchema 1) :: us ++ [.ask (.getSchema 1)]) (State.initial Level.info true) ()

/-- What is not found is asked for again when errors have been removed. -/
theorem request_again_removed :
    let since : Chronicle := [.used .removeErrors, .used (.ask (.getSchema 1))]
    askedTwice (.ok ⟨404, []⟩) [.removeErrors] =
        [.used (.ask (.getSchema 1))] ++ .request "/schemas/ids/1" (.ok ⟨404, []⟩) ::
          (since ++ .request "/schemas/ids/1" (.ok ⟨404, []⟩) :: []) ∧
      Excuse true since (.ok ⟨404, []⟩) (.error (.resolution (.status 404))) := by
  intro since
  have ended : Ended bare "/schemas/ids/1" (.ok ⟨404, []⟩) (.ofId 1)
      (.error (.resolution (.status 404))) := ⟨.schemaById 1, some 1, rfl, rfl, rfl⟩
  have again : askedTwice (.ok ⟨404, []⟩) [.removeErrors] =
      [.used (.ask (.getSchema 1))] ++ .request "/schemas/ids/1" (.ok ⟨404, []⟩) ::
        (since ++ .request "/schemas/ids/1" (.ok ⟨404, []⟩) :: []) := rfl
  exact ⟨again, ((request_again bare Codec.raw _ Level.info true () _ again).2 _ _ ended).1⟩

/-- A transport that breaks is asked again at once, though no request to it ended with an error of
resolution. -/
theorem request_again_broken :
    let broken : Except Failure Response := .error (.foreign ⟨.runtime, "bug"⟩)
    askedTwice broken [] =
        [.used (.ask (.getSchema 1)), .request "/schemas/ids/1" broken,
          .used (.ask (.getSchema 1)), .request "/schemas/ids/1" broken] ∧
      ¬ ∃ s f, Ended bare "/schemas/ids/1" broken s (.error (.resolution f)) := by
  refine ⟨rfl, ?_⟩
  rintro ⟨s, f, r, requested, -, -, h⟩
  cases h

end Decoder

end Registrar
