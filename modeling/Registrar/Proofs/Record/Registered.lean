import Registrar.Proofs.Client.Library
import Registrar.Proofs.Record.History

/-!
# What is registered is resolved

A client registers a forest in one order of its own and resolves references along another one, each
with a limit on the nesting. Before a registry that takes what is posted the two agree: what a
registration gives is resolved under the same limit, at any later time, into the schemas of the
forest, each once and behind those that it refers to.

Two things can prevent this. A subject that is no ordinary text cannot be written into an address,
and an error that the cache keeps for a reference is told again when the reference could be resolved
by now.
-/

namespace Registrar

open Closure Closure.Registry Client Posting

/-! ## What the registry has -/

/-- The schemas that are read from the versions which are held. -/
def Holdings.contents (held : Holdings) : Closure.Registry := fun t =>
  match held t with
  | some (id, body) => read (some id) (.ok ⟨200, body⟩)
  | none => read none (.ok ⟨404, []⟩)

theorem Holdings.contents_eq {held : Holdings} {t : Target} {x : RegisteredSchema} (plain : x.Plain)
    (h : held t = some (x.id, posted x.type x.text x.references)) : held.contents t = .ok x := by
  have document := Envelope.document_registration plain
  have schema := (Envelope.tells_registered plain.type).schema_requested
    (Envelope.bears_registered x x.id)
  rw [registration_eq] at document
  have read := read_of_ofResponse (Envelope.ofResponse_document document) (some x.id)
  rw [schema] at read
  unfold contents
  rw [h]
  exact read

namespace Filed

variable {held : Holdings} {type : SchemaType} {rs : List SuppliedReference}
  {xs : List RegisteredReference} {ps : List (Target × RegisteredSchema)}
  (bounded : ∀ {version p} {subject : Text}, held (subject, version) = some p →
    version < Envelope.numberBound)

include bounded

theorem contents_node {references : List RegisteredReference} {t : Target} {text : Text} {id : Nat}
    (inner : Filed held type rs references ps)
    (kept : held t = some (id, posted type text references)) :
    held.contents t = .ok (.settled id type text references) := by
  refine Holdings.contents_eq (RegisteredSchema.plain_settled id type text (inner.plain bounded)) ?_
  exact kept.trans (by rw [RegisteredSchema.settled, posted_settle])

theorem contents_eq (h : Filed held type rs xs ps) {q : Target × RegisteredSchema} (hq : q ∈ ps) :
    held.contents q.1 = .ok q.2 :=
  let ⟨plain, kept⟩ := h.kept bounded q hq
  Holdings.contents_eq plain kept

/-- The registered references unfold into what is listed. -/
theorem unfolds (h : Filed held type rs xs ps) :
    held.contents.Unfolds (xs.map targetOf) (ps.map Prod.fst) := by
  induction h with
  | nil => exact .nil
  | cons inner kept others below rest =>
    rw [List.map_append, List.map_cons, List.map_cons]
    exact .cons (contents_node bounded inner kept) below rest

/-- Chains of registered references are no longer than the forest is high. -/
theorem length_chain (h : Filed held type rs xs ps) {c : List Target}
    (chain : held.contents.Chain (xs.map targetOf) c) :
    c.length ≤ SuppliedReference.heightAll rs := by
  induction h generalizing c with
  | nil => cases chain <;> contradiction
  | @cons name subject text below rs references xs version id ps qs inner kept others ih rest =>
    rw [SuppliedReference.heightAll, SuppliedReference.height]
    have later {c : List Target} (chain : held.contents.Chain (xs.map targetOf) c) :
        c.length ≤ max (SuppliedReference.heightAll below + 1)
          (SuppliedReference.heightAll rs) :=
      Nat.le_trans (rest chain) (Nat.le_max_right ..)
    cases chain with
    | single ht =>
      rw [List.length_singleton]
      omega
    | cons ht hx chain =>
      rcases List.mem_cons.1 ht with rfl | ht
      · obtain rfl := Except.ok.inj (hx.symm.trans (contents_node bounded inner kept))
        have := ih chain
        rw [List.length_cons]
        omega
      · exact later (.cons ht hx chain)

/-- What is filed in a forest that is not too high is found, each version once. -/
theorem resolves (h : Filed held type rs xs ps) {limit : Nat}
    (fits : SuppliedReference.heightAll rs ≤ limit) :
    ∃ zs, ofReferences limit (fun r => held.contents (targetOf r)) xs = .ok zs ∧
      List.Forall₂ (fun t z => (t, z) ∈ ps) (ps.map Prod.fst).eraseDups zs := by
  have unfolds := h.unfolds bounded
  have listed {t : Target} (ht : t ∈ ps.map Prod.fst) : ∃ z, (t, z) ∈ ps := by
    obtain ⟨q, hq, rfl⟩ := List.mem_map.1 ht
    exact ⟨q.2, hq⟩
  obtain ⟨zs, found⟩ : ∃ zs, ofReferences limit (fun r => held.contents (targetOf r)) xs = .ok zs :=
    exists_ofReferences
      (fun t ht => (listed (unfolds.mem_iff.2 ht)).imp fun z hz => h.contents_eq bounded hz)
      fun c chain => Nat.le_trans (h.length_chain bounded chain) fits
  obtain ⟨us, unfolds', -, schemas⟩ := ofReferences_ok found
  obtain rfl := unfolds.unique unfolds'
  refine ⟨zs, found, ?_⟩
  rw [List.forall₂_iff_get] at schemas ⊢
  refine ⟨schemas.1, fun i hi hi' => ?_⟩
  obtain ⟨z, hz⟩ := listed (List.mem_eraseDups.1 (List.get_mem _ ⟨i, hi⟩))
  rwa [← Except.ok.inj ((h.contents_eq bounded hz).symm.trans (schemas.2 i hi hi'))]

end Filed

namespace Repository

variable {ε : Type} {w : Program.World Exchange.interface ε} {settings : Settings}
  {p : Repository w settings} {type : SchemaType} {rs : List SuppliedReference}
  {xs : List RegisteredReference} {ps : List (Target × RegisteredSchema)} {e : ε}

/-- What is filed is told from then on. -/
theorem serves (h : Filed (p.held e) type rs xs ps) :
    ServesAmong (· ∈ ps.map Prod.fst) (p.regime.Later e) w (direct settings)
      (Holdings.contents (p.held e)) where
  answers r st e' hr later := by
    obtain ⟨q, hq, same⟩ := List.mem_map.1 hr
    obtain ⟨plain, kept⟩ := h.kept p.bounded q hq
    obtain ⟨d, e'', answered, id, tells⟩ := p.returns plain (later _ _ kept)
    rw [same] at answered
    rw [← same, h.contents_eq p.bounded hq]
    have fetched := run_fetched_ok answered (tells.schema_eq id none)
    exact congrArg Prod.fst ((yields_fetchReference settings r st e').trans fetched)
  outside := keeps_fetchReference settings
  stays r st e' later := p.regime.trans later (p.regime.later_run _ st e')
  closed t u ht path := by
    have unfolds := h.unfolds p.bounded
    obtain ⟨v, hv, leads⟩ := unfolds.mem_iff.1 ht
    exact unfolds.mem_iff.2 ⟨v, hv, .tail leads path⟩

/-! ## What the cache keeps -/

/-- The schema is what the registry tells of a version that it holds. A body that is no document of
a schema may be read as anything. -/
def Vouches (p : Repository w settings) (e : ε) (t : Target) (x : RegisteredSchema) : Prop :=
  ∃ b, p.held e t = some b ∧ ∀ y : RegisteredSchema, y.Plain →
    b = (y.id, posted y.type y.text y.references) → x = y

/-- Every schema that the cache keeps for a reference is what the registry tells. -/
def Agrees (p : Repository w settings) (c : Cache) (e : ε) : Prop :=
  ∀ r x, (.ofReference r, .schema x) ∈ c.entries → p.Vouches e (targetOf r) x

theorem Vouches.later {e' : ε} {t : Target} {x : RegisteredSchema} (h : p.Vouches e t x)
    (later : p.regime.Later e e') : p.Vouches e' t x :=
  let ⟨b, kept, same⟩ := h
  ⟨b, later t b kept, same⟩

theorem vouches_fetchReference {r : RegisteredReference} {st : State} {x : RegisteredSchema}
    (h : (((direct settings).fetchReference r).run.run w st e).1 = .ok x) :
    p.Vouches e (targetOf r) x := by
  obtain ⟨st', e', run⟩ := Routine.exists_run_eq h
  obtain ⟨d, answered, read⟩ := of_fetched ((yields_fetchReference settings r).of_run run)
  change (answer w settings (.version (targetOf r).1 (targetOf r).2) none).run e = _ at answered
  cases held : p.held e (targetOf r) with
  | none => exact absurd answered (p.misses held)
  | some b =>
    refine ⟨b, held, fun y plain same => ?_⟩
    obtain ⟨d', e₁, answered', id, tells⟩ := p.returns plain (held.trans (congrArg some same))
    cases answered.symm.trans answered'
    exact Except.ok.inj (read.symm.trans (tells.schema_eq id none))

/-- A lookup for a reference keeps what the registry tells, and other lookups keep nothing for
references. -/
theorem upholds_getOrLoad {s : Slot} {loader : Cache.Loader Exchange.interface}
    (outside : Routine.Keeps Routine.SameCache loader)
    (told : ∀ r st e x, s = .ofReference r → (loader.run.run w st e).1 = .ok x →
      p.Vouches e (targetOf r) x) :
    Routine.Upholds w p.Agrees (fun _ => True) (fun _ => True) (Cache.getOrLoad s loader) := by
  refine Cache.upholds_getOrLoad outside (fun _ _ _ _ _ => .any) fun c st e agrees missing =>
    ⟨.any, fun c' filled r x hx => ?_⟩
  have later : p.regime.Later e (loader.run.run w st e).2.2 := p.regime.later_run _ st e
  rcases filled.of_mem hx with old | ⟨same, new⟩
  · exact (agrees r x old).later later
  · exact (told r st e x same.symm (Cache.ok_of_kept new)).later later

/-- The cache of a client agrees with the registry, whatever is done. -/
theorem lasting_agrees (p : Repository w settings) :
    Lasting w settings p.regime.Later p.Agrees where
  empty c e empty r x hx := by
    rw [empty] at hx
    cases hx
  pruned c e agrees r x hx := agrees r x (List.mem_of_mem_filter hx)
  later c e e' agrees later r x hx := (agrees r x hx).later later
  byId id := upholds_getOrLoad (keeps_fetchById settings id) (by simp [Slot.ofId, Slot.ofReference])
  byNaming n := upholds_getOrLoad (keeps_fetchBySubject settings n)
    (by simp [Slot.ofNaming, Slot.ofReference])
  byReference r := by
    refine upholds_getOrLoad (keeps_fetchReference settings r) fun r' st e x same told => ?_
    rw [← ofReference_eq_iff.1 same]
    exact vouches_fetchReference told

/-! ## The agreement -/

/-- The cache keeps no error for the listed versions. -/
def Untroubled (ps : List (Target × RegisteredSchema)) (c : Cache) : Prop :=
  ∀ r f, targetOf r ∈ ps.map Prod.fst → c.find? (.ofReference r) ≠ some (.error f)

theorem faithful_of_untroubled (h : Filed (p.held e) type rs xs ps) {c : Cache} {e' : ε}
    (agrees : p.Agrees c e') (later : p.regime.Later e e') (untroubled : Untroubled ps c) :
    FaithfulAmong (· ∈ ps.map Prod.fst) (Holdings.contents (p.held e)) c := by
  intro r x hr hx
  obtain ⟨⟨t, z⟩, hq, same⟩ := List.mem_map.1 hr
  obtain rfl : t = targetOf r := same
  rw [h.contents_eq p.bounded hq]
  cases x with
  | error f => exact absurd hx (untroubled r f hr)
  | schema x =>
    obtain ⟨plain, kept⟩ := h.kept p.bounded _ hq
    obtain ⟨b, held, told⟩ := agrees r x (Assoc.mem_of_get? hx)
    obtain rfl := told z plain (Option.some.inj (held.symm.trans (later _ _ kept)))
    exact .schema x

/-- What has been filed is resolved at any later time. -/
theorem run_resolveReferences (h : Filed (p.held e) type rs xs ps)
    (fits : SuppliedReference.heightAll rs ≤ settings.maxDepth) {y : RegisteredSchema}
    (same : y.references = xs) {st : State} {e' : ε} (agrees : p.Agrees st.cache e')
    (later : p.regime.Later e e') (untroubled : Untroubled ps st.cache) :
    ∃ zs, (((direct settings).resolveReferences y).run.run w st e').1 = .ok zs ∧
      List.Forall₂ (fun t z => (t, z) ∈ ps) (ps.map Prod.fst).eraseDups zs := by
  subst same
  obtain ⟨zs, found, schemas⟩ := h.resolves p.bounded fits
  have unfolds := h.unfolds p.bounded
  have within : ∀ i ∈ Item.all 1 y.references, i.target ∈ ps.map Prod.fst := by
    intro i hi
    obtain ⟨r, hr, rfl⟩ := List.mem_map.1 hi
    exact unfolds.mem (List.mem_map_of_mem (f := targetOf) hr)
  have repeats := run_search_among (serves h) settings.maxDepth within ⟨[], [], []⟩
    (faithful_of_untroubled h agrees later untroubled) later
  change Repeats _ (ofReferences _ _ _) at repeats
  rw [found] at repeats
  exact ⟨zs, repeats.eq_ok, schemas⟩

/-- Before a registry that takes what is posted, every schema whose references are not nested too
deeply is registered under every subject that is ordinary text. Its references are resolved at any
later time under the same limit, whatever the client did before, unless its cache keeps an error for
one of them: into the schemas of the versions that the forest has, in the order in which it was
posted, each once. -/
theorem resolves_registered (p : Repository w settings) (subject : String) (x : SuppliedSchema)
    (fits : SuppliedReference.heightAll x.references ≤ settings.maxDepth)
    (room : p.room e (SuppliedReference.sizeAll x.references + 1)) (s : State) :
    ∃ y s' e' ps, ((direct settings).register subject x).run.run w s e = (.ok y, s', e') ∧
      s'.cache = s.cache ∧ p.Registers subject x y e' ps ∧
        ∀ st e'', History w settings p.regime.Later st e'' → p.regime.Later e' e'' →
          Untroubled ps st.cache →
          ∃ zs, (((direct settings).resolveReferences y).run.run w st e'').1 = .ok zs ∧
            List.Forall₂ (fun t z => (t, z) ∈ ps) (ps.map Prod.fst).eraseDups zs := by
  obtain ⟨y, s', e', ps, run, cache, registers⟩ := p.register_ok subject fits room s
  refine ⟨y, s', e', ps, run, cache, registers, fun st e'' history later untroubled => ?_⟩
  have agrees := history.upheld p.lasting_agrees
  exact run_resolveReferences registers.filed fits rfl agrees later untroubled

end Repository

/-! ## What stands in the way -/

section

variable {I : Interface} {ε : Type} {w : Program.World I ε} {c : Client I} {y : RegisteredSchema}
  {r : RegisteredReference} {rs : List RegisteredReference}

/-- When the first reference cannot be looked up, nothing else is. -/
theorem Client.run_resolveReferences_of_error (first : y.references = r :: rs)
    (limit : 0 < c.settings.maxDepth) {st st' : State} {e e' : ε} {f : Failure}
    (h : (c.resolveReference r).run.run w st e = (.error f, st', e')) :
    (c.resolveReferences y).run.run w st e = (.error f, st', e') := by
  unfold resolveReferences ofReferences
  rw [first, Item.all, List.map_cons, search, if_neg (by simp), if_neg (by simp),
    if_neg (Nat.not_lt.2 limit)]
  exact Routine.run_bind_error h

/-- An error that the cache keeps for the first reference is told again, whatever the registry has
by now. -/
theorem Client.run_resolveReferences_of_kept (first : y.references = r :: rs)
    (limit : 0 < c.settings.maxDepth) {st : State} {f : ResolutionError}
    (kept : st.cache.find? (.ofReference r) = some (.error f)) (e : ε) :
    ((c.resolveReferences y).run.run w st e).1 = .error (.resolution f) := by
  obtain ⟨st', run, -⟩ := Cache.run_getOrLoad_found (w := w) (c.fetchReference r) kept e
  rw [run_resolveReferences_of_error first limit run]

end

namespace Shelves

/-! ## Runs before a library -/

/-- A schema with one reference. -/
def upper : SuppliedSchema := ⟨none, .avro, "a", [.mk "b" "b" "b" []]⟩

def reference : RegisteredReference := ⟨"b", "b", 1⟩

/-- What an empty library makes of it. -/
def registered : RegisteredSchema := ⟨2, .avro, "a", [reference]⟩

/-- Before an empty library a schema cannot be registered under a lone surrogate, and a schema whose
reference was looked up too early is registered without being resolved. -/
theorem register_not_resolved :
    let w := library bare.url
    let s := State.initial Level.info false
    let early := ((direct bare).resolveReferences registered).run.run w s []
    let added := ((direct bare).register "a" upper).run.run w early.2.1 early.2.2
    (((direct bare).register [.surrogate 0] ⟨none, .avro, [], []⟩).run.run w s []).1 =
        .error (.foreign (.ofUnencodable ⟨0, 0, 0⟩)) ∧
      added.1 = .ok registered ∧
        (((direct bare).resolveReferences registered).run.run w added.2.1 added.2.2).1 =
          .error (.resolution (ResolutionError.status 404).intoCache) := by
  intro w s early added
  -- The lookup that comes too early leaves its error in the cache.
  have missing : (((direct bare).resolveReference reference).run.run w s []).1 =
      .error (.resolution (.status 404)) := by
    decide +kernel
  have kept : (((direct bare).resolveReference reference).run.run w s []).2.1.cache.find?
      (.ofReference reference) = some (.error (ResolutionError.status 404).intoCache) := by
    decide +kernel
  have world : (((direct bare).resolveReference reference).run.run w s []).2.2 = [] := by
    decide +kernel
  obtain ⟨s₁, e₁, looked⟩ := Routine.exists_run_eq missing
  rw [looked] at kept world
  obtain rfl : e₁ = [] := world
  have ended : early = (.error (.resolution (.status 404)), s₁, []) :=
    run_resolveReferences_of_error rfl (by decide) looked
  -- The registration does not touch the cache.
  have posted : ((Posting.schema w bare.url (Text.ofString "a") upper).run []).1 =
      .ok registered := by
    decide +kernel
  obtain ⟨e₂, posts⟩ := Worldly.exists_run_eq posted
  obtain ⟨s₂, run, cache⟩ := Repository.run_register_of_schema
    (by decide : SuppliedReference.heightAll upper.references ≤ bare.maxDepth) posts s₁
  have later : added = (.ok registered, s₂, e₂) := by
    show ((direct bare).register "a" upper).run.run w early.2.1 early.2.2 = _
    rw [ended]
    exact run
  rw [later]
  refine ⟨by decide +kernel, rfl, run_resolveReferences_of_kept rfl (by decide) ?_ _⟩
  rw [cache]
  exact kept

/-- A schema whose reference uses another one in turn is registered and resolved. -/
theorem resolves_registered_branching :
    SuppliedReference.heightAll branching.references ≤ bare.maxDepth ∧
      (repository bare).room [] (SuppliedReference.sizeAll branching.references + 1) ∧
      ∃ y s e ps zs, ((direct bare).register "t" branching).run.run (library bare.url)
          (State.initial Level.info false) [] = (.ok y, s, e) ∧
        Filed (held e) .avro branching.references y.references ps ∧
        (((direct bare).resolveReferences y).run.run (library bare.url) s e).1 = .ok zs ∧
        List.Forall₂ (fun t z => (t, z) ∈ ps) (ps.map Prod.fst).eraseDups zs := by
  have fits : SuppliedReference.heightAll branching.references ≤ bare.maxDepth := by decide
  have room : (repository bare).room [] (SuppliedReference.sizeAll branching.references + 1) := by
    show ((0 + 4 : Nat) : Int) < Envelope.numberBound
    decide
  obtain ⟨y, s, e, ps, run, cache, registers, resolved⟩ := Repository.resolves_registered
    (repository bare) "t" branching fits room (State.initial Level.info false)
  have history : History (library bare.url) bare (repository bare).regime.Later s e :=
    .start (by rw [cache]; rfl)
  have untroubled : Repository.Untroubled ps s.cache := by
    intro r f _ kept
    rw [cache] at kept
    cases kept
  obtain ⟨zs, found, schemas⟩ := resolved s e history ((repository bare).regime.refl e) untroubled
  exact ⟨fits, room, y, s, e, ps, zs, run, registers.filed, found, schemas⟩

end Shelves

end Registrar
