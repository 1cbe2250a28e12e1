import Registrar.Proofs.Cache.Alone
import Registrar.Proofs.Client.Requests
import Registrar.Proofs.Closure.Passes
import Registrar.Record.Resolving

/-!
# Resolving references

A client that resolves the references of a schema gets, through its cache, what the registry has.
So the result is the closure in the graph of references: when a list is returned no reference leads
into a cycle and the list holds the schemas of the unfolding without repetitions, and when nothing
is returned a lookup failed or a chain of references is too long.
-/

namespace Registrar.Client

open Closure Closure.Registry Cache

variable {I : Interface} {ε : Type} {w : Program.World I ε} {c : Client I} {reg : Registry}

/-- For every reference the client is told what the registry has, at any time. -/
structure Serves (w : Program.World I ε) (c : Client I) (reg : Registry) : Prop where
  answers : ∀ r st e, ((c.fetchReference r).run.run w st e).1 = reg (targetOf r)
  outside : ∀ r, Routine.Keeps Routine.SameCache (c.fetchReference r)

/-- An entry of the cache says what the registry said. -/
inductive Recalls : Entry → Except Failure RegisteredSchema → Prop where
  | schema (x : RegisteredSchema) : Recalls (.schema x) (.ok x)
  | error (f : ResolutionError) : Recalls (.error f.intoCache) (.error (.resolution f))

/-- What the cache keeps for references is what the registry has. -/
def Faithful (reg : Registry) (c : Cache) : Prop :=
  ∀ r x, c.find? (.ofReference r) = some x → Recalls x (reg (targetOf r))

/-- The outcome is the given one, or the failure that it would be when it comes from the cache. -/
inductive Repeats {α : Type} : Except Failure α → Except Failure α → Prop where
  | same (r : Except Failure α) : Repeats r r
  | cached (f : ResolutionError) :
    Repeats (.error (.resolution f.intoCache)) (.error (.resolution f))

theorem Repeats.of_ok {α : Type} {a : α} {r : Except Failure α} (h : Repeats (.ok a) r) :
    r = .ok a := by
  cases h
  rfl

theorem Repeats.eq_ok {α : Type} {a : α} {r : Except Failure α} (h : Repeats r (.ok a)) :
    r = .ok a := by
  cases h
  rfl

theorem Repeats.of_error {α : Type} {f : Failure} {r : Except Failure α}
    (h : Repeats (.error f) r) : ∃ g, r = .error g := by
  cases h with
  | same => exact ⟨f, rfl⟩
  | cached f => exact ⟨_, rfl⟩

theorem Repeats.failed {α β : Type} {f g : Failure}
    (h : Repeats (.error f : Except Failure α) (.error g)) :
    Repeats (.error f : Except Failure β) (.error g) := by
  cases h with
  | same => exact .same _
  | cached f => exact .cached f

theorem Recalls.repeats {x : Entry} {r : Except Failure RegisteredSchema} (h : Recalls x r) :
    Repeats x.outcome r := by
  cases h with
  | schema x => exact .same _
  | error f => exact .cached f

theorem recalls_kept {c : Cache} {r : Outcome} {x : Entry} (h : kept c r = some x) :
    Recalls x r := by
  rcases r with (f | f | _) | y
  · rw [kept] at h
    split at h
    · cases h
      exact .error f
    · cases h
  · cases h
  · cases h
  · cases h
    exact .schema y

theorem ofReference_eq_iff {r r' : RegisteredReference} :
    Slot.ofReference r = Slot.ofReference r' ↔ targetOf r = targetOf r' := by
  simp [Slot.ofReference, targetOf]

/-! ## Among some references -/

/-- At the times `Now` the client is told what the registry has for the targets in `S`, and these
refer to one another only. -/
structure ServesAmong (S : Target → Prop) (Now : ε → Prop) (w : Program.World I ε) (c : Client I)
    (reg : Registry) : Prop where
  answers : ∀ r st e, S (targetOf r) → Now e →
    ((c.fetchReference r).run.run w st e).1 = reg (targetOf r)
  outside : ∀ r, Routine.Keeps Routine.SameCache (c.fetchReference r)
  stays : ∀ r st e, Now e → Now ((c.fetchReference r).run.run w st e).2.2
  closed : ∀ t u, S t → reg.Refers t u → S u

/-- What the cache keeps for references to the targets in `S` is what the registry has. -/
def FaithfulAmong (S : Target → Prop) (reg : Registry) (c : Cache) : Prop :=
  ∀ r x, S (targetOf r) → c.find? (.ofReference r) = some x → Recalls x (reg (targetOf r))

variable {S : Target → Prop} {Now : ε → Prop}

/-- A lookup through the cache gives what the registry has, and the cache stays faithful. -/
theorem run_resolveReference (serves : ServesAmong S Now w c reg) {st : State}
    (h : FaithfulAmong S reg st.cache) {r : RegisteredReference} (hr : S (targetOf r)) {e : ε}
    (now : Now e) :
    Repeats ((c.resolveReference r).run.run w st e).1 (reg (targetOf r)) ∧
      FaithfulAmong S reg ((c.resolveReference r).run.run w st e).2.1.cache ∧
      Now ((c.resolveReference r).run.run w st e).2.2 := by
  cases hx : st.cache.find? (.ofReference r) with
  | some x =>
    obtain ⟨st', run, same⟩ := run_getOrLoad_found (w := w) (c.fetchReference r) hx e
    unfold resolveReference
    rw [run]
    exact ⟨(h r x hr hx).repeats, by rwa [same], now⟩
  | none =>
    obtain ⟨st₁, st₂, -, run, filled⟩ := run_getOrLoad_missing hx (serves.outside r) (w := w) e
    unfold resolveReference
    rw [run, serves.answers r st₁ e hr now]
    rw [serves.answers r st₁ e hr now] at filled
    refine ⟨.same _, ?_, serves.stays r st₁ e now⟩
    intro r' x hr' hx'
    by_cases same : Slot.ofReference r' = Slot.ofReference r
    · rw [same, filled.here, hx, Option.or_none] at hx'
      rw [ofReference_eq_iff.1 same]
      exact recalls_kept hx'
    · rw [filled.elsewhere _ same] at hx'
      exact h r' x hr' hx'

/-! ## A search as a loop -/

/-- While `Inv` holds, lookups of the targets in `S` are told what `tells` says, and they lead to
others of these targets only. -/
structure Telling (S : Target → Prop) (Inv : State → ε → Prop) (w : Program.World I ε)
    (c : Client I) (tells : Teller) : Prop where
  told : ∀ r st e, S (targetOf r) → Inv st e →
    tells (targetOf r) ((c.resolveReference r).run.run w st e).1
  stays : ∀ r st e, S (targetOf r) → Inv st e →
    Inv ((c.resolveReference r).run.run w st e).2.1 ((c.resolveReference r).run.run w st e).2.2
  closed : ∀ t x, S t → tells t (.ok x) → ∀ u ∈ targets x, S u

theorem run_search_passes {Inv : State → ε → Prop} {tells : Teller}
    (telling : Telling S Inv w c tells) (limit : Nat) {agenda : List Item}
    (within : ∀ i ∈ agenda, S i.target) (f : Found) {st : State} {e : ε} (inv : Inv st e) :
    let r := ((search limit c.resolveReference agenda f).run.run w st e).1
    ∃ l, Passes limit tells ⟨agenda, f⟩ l ∧ (Stop limit tells l r ∨ Lost l r) := by
  fun_induction search limit c.resolveReference agenda f generalizing st e with
  | case1 f => exact ⟨_, .refl, .inl .done⟩
  | case2 f i rest seen ih =>
    obtain ⟨l, passes, ends⟩ := ih (List.forall_mem_cons.1 within).2 inv
    exact ⟨l, .head (.skip seen) passes, ends⟩
  | case3 f i rest seen followed x hx ih =>
    obtain ⟨l, passes, ends⟩ := ih (List.forall_mem_cons.1 within).2 inv
    exact ⟨l, .head (.close seen followed hx) passes, ends⟩
  | case4 f i rest seen followed hx => exact ⟨_, .refl, .inr (.mk seen followed hx)⟩
  | case5 f i rest seen followed deep =>
    exact ⟨_, .refl, .inl (.deep seen (Bool.eq_false_iff.2 followed) deep)⟩
  | case6 f i rest seen followed deep ih =>
    rw [Routine.run_bind, Program.run_bind]
    obtain ⟨first, others⟩ := List.forall_mem_cons.1 within
    have told := telling.told i.reference st e first inv
    have stays := telling.stays i.reference st e first inv
    have fresh := Bool.eq_false_iff.2 followed
    have shallow := Nat.le_of_not_lt deep
    generalize (c.resolveReference i.reference).run.run w st e = out at told stays ⊢
    obtain ⟨r, st', e'⟩ := out
    cases r with
    | error g => exact ⟨_, .refl, .inl (.failed seen fresh shallow told)⟩
    | ok x =>
      obtain ⟨l, passes, ends⟩ := ih x (fun j hj => by
        rcases List.mem_append.1 hj with hj | hj
        · obtain ⟨r, hr, rfl⟩ := List.mem_map.1 hj
          exact telling.closed _ x first told _ (List.mem_map_of_mem hr)
        · rcases List.mem_cons.1 hj with rfl | hj
          · exact first
          · exact others j hj) stays
      exact ⟨l, .head (.follow seen fresh shallow told) passes, ends⟩

/-- What a lookup of one of the targets in `S` comes to through a faithful cache. -/
abbrev Heard (S : Target → Prop) (reg : Registry) : Teller := fun t r => S t ∧ Repeats r (reg t)

theorem ServesAmong.telling (serves : ServesAmong S Now w c reg) :
    Telling S (fun st e => FaithfulAmong S reg st.cache ∧ Now e) w c (Heard S reg) where
  told _ _ _ hr inv := ⟨hr, (run_resolveReference serves inv.1 hr inv.2).1⟩
  stays _ _ _ hr inv := (run_resolveReference serves inv.1 hr inv.2).2
  closed t x ht told u hu := serves.closed t u ht ⟨x, told.2.of_ok, hu⟩

/-- A search through the cache ends as the search in the registry. -/
theorem run_search_among (serves : ServesAmong S Now w c reg) (limit : Nat) {agenda : List Item}
    (within : ∀ i ∈ agenda, S i.target) (f : Found) {st : State}
    (h : FaithfulAmong S reg st.cache) {e : ε} (now : Now e) :
    Repeats ((search limit c.resolveReference agenda f).run.run w st e).1
      (searching limit reg agenda f) := by
  obtain ⟨l, passes, ends⟩ := run_search_passes serves.telling limit within f ⟨h, now⟩
  rw [searching_passes (passes.mono fun t x told => told.2.of_ok)]
  rcases ends with ends | lost
  · generalize ((search limit c.resolveReference agenda f).run.run w st e).1 = r at ends ⊢
    cases ends with
    | done => rw [searching_stop .done]; exact .same _
    | deep unseen fresh deep => rw [searching_stop (.deep unseen fresh deep)]; exact .same _
    | failed unseen fresh shallow told =>
      obtain ⟨g, hg⟩ := told.2.of_error
      rw [searching_stop (.failed unseen fresh shallow hg)]
      exact (hg ▸ told.2).failed
  · rw [searching_lost lost]
    exact .same _

theorem Serves.among (h : Serves w c reg) :
    ServesAmong (fun _ => True) (fun _ => True) w c reg where
  answers r st e _ _ := h.answers r st e
  outside := h.outside
  stays _ _ _ _ := trivial
  closed _ _ _ _ := trivial

/-- So it is among all references. -/
theorem run_search (serves : Serves w c reg) (limit : Nat) (agenda : List Item) (f : Found)
    {st : State} (h : Faithful reg st.cache) (e : ε) :
    Repeats ((search limit c.resolveReference agenda f).run.run w st e).1
      (searching limit reg agenda f) :=
  run_search_among serves.among limit (fun _ _ => trivial) f (fun r x _ => h r x) trivial

/-! ## The closure -/

/-- The references to `ts` lead to the schemas `xs` and into no cycle. Every schema that they lead
to stands in `xs` once, in the order in which the references unfold and after the schemas that it
refers to. -/
structure Resolves (reg : Registry) (ts : List Target) (xs : List RegisteredSchema) : Prop where
  acyclic : ∀ t, reg.Leads ts t → ¬ Relation.TransGen reg.Refers t t
  schemas : ∃ us vs, reg.Unfolds ts us ∧ vs = us.eraseDups ∧
    List.Forall₂ (fun t x => reg t = .ok x) vs xs ∧ vs.Nodup ∧ (∀ t, t ∈ vs ↔ reg.Leads ts t) ∧
    ∀ a t b, vs = a ++ t :: b → ∀ u, reg.Refers t u → u ∈ a

theorem resolves_of_ofReferences {limit : Nat} {refs : List RegisteredReference}
    {xs : List RegisteredSchema}
    (h : ofReferences limit (fun r => reg (targetOf r)) refs = .ok xs) :
    Resolves reg (refs.map targetOf) xs := by
  obtain ⟨us, unfolds, grounded, schemas⟩ := ofReferences_ok h
  refine ⟨fun _ => unfolds.acyclic, us, us.eraseDups, unfolds, rfl,
    schemas, nodup_eraseDups us, fun t => ?_, fun a t b split u path => ?_⟩
  · rw [List.mem_eraseDups, unfolds.mem_iff]
  · obtain ⟨x, hx, below⟩ := grounded.eraseDups a t b split
    obtain ⟨y, hy, hu⟩ := path
    obtain rfl := Except.ok.inj (hx.symm.trans hy)
    exact below u hu

/-- Resolving the references of a schema through the cache is sound and complete. What it returns is
the closure, and the references lead into no cycle. It returns something when they lead to schemas
only and no chain of them is longer than the limit, which excludes cycles; and when it fails, it is
because a lookup fails or a chain is longer, and for no other reason. -/
theorem resolveReferences_closure (serves : Serves w c reg) {st : State}
    (faithful : Faithful reg st.cache) (x : RegisteredSchema) (e : ε) :
    let r := ((c.resolveReferences x).run.run w st e).1
    (∀ xs, r = .ok xs → Resolves reg (targets x) xs) ∧
      ((∀ t, reg.Leads (targets x) t → ∃ y, reg t = .ok y) →
        (∀ chain, reg.Chain (targets x) chain → chain.length ≤ c.settings.maxDepth) →
        ∃ xs, r = .ok xs) ∧
      ∀ f, r = .error f → ∃ g, Fails c.settings.maxDepth reg c.settings.maxDepth (targets x) g ∧
        Repeats r (.error g) := by
  have repeats : Repeats ((c.resolveReferences x).run.run w st e).1
      (ofReferences c.settings.maxDepth (fun r => reg (targetOf r)) x.references) :=
    run_search serves _ _ _ faithful e
  generalize hr : ofReferences c.settings.maxDepth (fun r => reg (targetOf r)) x.references = found
    at repeats
  intro r
  change Repeats r found at repeats
  clear_value r
  refine ⟨?_, ?_, ?_⟩
  · intro xs hxs
    rw [hxs] at repeats
    exact resolves_of_ofReferences (hr.trans repeats.of_ok)
  · intro reachable short
    cases hf : r with
    | ok xs => exact ⟨xs, rfl⟩
    | error f =>
      rw [hf] at repeats
      obtain ⟨g, rfl⟩ := repeats.of_error
      cases ofReferences_error hr with
      | deep chain long _ => exact absurd (short _ chain) (Nat.not_le.2 long)
      | lookup path hg =>
        obtain ⟨y, hy⟩ := reachable _ path
        rw [hy] at hg
        cases hg
  · intro f hf
    have failed := repeats
    rw [hf] at failed
    obtain ⟨g, rfl⟩ := failed.of_error
    exact ⟨g, ofReferences_error hr, repeats⟩

/-! ### A registry that does not change -/

section

variable {w : Program.World Exchange.interface ε} {settings : Settings}
  (fixed : ∀ url e e', (w.reply (Exchange.Call.get url) e).1 = (w.reply (.get url) e').1)

include fixed

theorem fetched_fixed (r : Resource) (requested : Option Int) (e e' : ε) :
    ((fetched w settings r requested).run e).1 = ((fetched w settings r requested).run e').1 := by
  cases h : (direct settings).url r with
  | error f => rw [run_fetched_of_error settings h, run_fetched_of_error settings h]
  | ok url => rw [run_fetched settings h, run_fetched settings h, fixed url e e']

/-- A client that hands its calls to a world whose replies do not change is served what the world
has. -/
theorem serves_of_fixed (e : ε) :
    Serves w (direct settings)
      fun t => ((fetched w settings (.version t.1 t.2) none).run e).1 where
  answers r st e' := by
    rw [← fetched_fixed fixed _ _ e' e]
    exact congrArg Prod.fst (yields_fetchReference settings r st e')
  outside := keeps_fetchReference settings

end

/-- A world in which version 1 of subject `a` refers to version 1 of subject `b`. Requests about
everything else are answered with one schema without references. -/
def shelf : Program.World Exchange.interface Unit where
  reply
    | .get url, e =>
      (.ok ⟨200, Utf8.encode (Json.write Json.spaced (.record (members url)))⟩, e)
    | .post _ _, e => (.ok ⟨404, []⟩, e)
    | .close, e => ((), e)
where
  members (url : Text) : List (String × Json) :=
    if url = Text.ofString "/subjects/a/versions/1" then
      [("id", .int 8), ("schema", .string "node"),
       ("references", .array [RegisteredReference.toJson ⟨"leaf", "b", 1⟩])]
    else [("id", .int 7), ("schema", .string "leaf")]

/-- What the world `shelf` has. -/
def shelved : Registry :=
  fun t => ((fetched shelf bare (.version t.1 t.2) none).run ()).1

/-- The two versions that the world distinguishes. -/
def upper : Target := ("a", 1)

def lower : Target := ("b", 1)

/-- The schema that refers to the other one. -/
def node : RegisteredSchema := ⟨8, .avro, "node", [⟨"leaf", "b", 1⟩]⟩

def leaf : RegisteredSchema := ⟨7, .avro, "leaf", []⟩

theorem shelved_upper : shelved upper = .ok node := by decide +kernel

theorem shelved_lower : shelved lower = .ok leaf := by decide +kernel

/-- A schema that leads to both through one reference. -/
def rooted : RegisteredSchema := ⟨9, .avro, "root", [⟨"node", "a", 1⟩]⟩

theorem unfolds_rooted : shelved.Unfolds (targets rooted) [lower, upper] :=
  .cons shelved_upper (.cons shelved_lower .nil .nil) .nil

/-- A chain of references that is as long as the limit is resolved. -/
theorem resolveReferences_rooted :
    ∃ xs, (((direct bare).resolveReferences rooted).run.run shelf
        (State.initial Level.info false) ()).1 = .ok xs ∧
      Resolves shelved (targets rooted) xs := by
  have serves : Serves shelf (direct bare) shelved := serves_of_fixed (fun _ _ _ => rfl) ()
  have faithful : Faithful shelved (State.initial Level.info false).cache := by
    intro r x h
    cases h
  obtain ⟨sound, complete, -⟩ := resolveReferences_closure serves faithful rooted ()
  obtain ⟨xs, hxs⟩ := complete (fun _ => unfolds_rooted.exists_ok)
    fun _ chain => unfolds_rooted.length_chain chain
  exact ⟨xs, hxs, sound xs hxs⟩

end Registrar.Client
