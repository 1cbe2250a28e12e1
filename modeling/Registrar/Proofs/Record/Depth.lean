import Registrar.Proofs.Closure.Branches
import Registrar.Proofs.Record.References

/-!
# How long resolving goes on and how deep

Resolving the references of a schema ends, whatever the lookups tell: it is a loop no passes of
which go on for ever, and it comes to the schemas, to a reference that is too deep or to a lookup
that fails. References that lead into a cycle come to one of the failures.

Before a registry in which all lookups succeed it is too deep exactly if a branch is too long and
what is at its end was not met further left. A chain that is too long makes some order of the
references too deep, and no order is too deep when all chains are short enough.
-/

namespace Registrar.Client

open Closure Closure.Registry

variable {I : Interface} {ε : Type} {w : Program.World I ε} {c : Client I} {reg : Registry}
  {x : RegisteredSchema} {st : State}

/-! ## The loop comes to an end -/

/-- What a lookup of a target is told at some time. -/
abbrev Asked (w : Program.World I ε) (c : Client I) : Teller := fun t r =>
  ∃ ref st e, targetOf ref = t ∧ ((c.resolveReference ref).run.run w st e).1 = r

theorem telling_asked (w : Program.World I ε) (c : Client I) :
    Telling (fun _ => True) (fun _ _ => True) w c (Asked w c) where
  told r st e _ _ := ⟨r, st, e, rfl, rfl⟩
  stays _ _ _ _ _ := trivial
  closed _ _ _ _ _ _ := trivial

/-- Resolving references is passes of the loop, until it stops. -/
theorem run_resolveReferences_passes {S : Target → Prop} {Inv : State → ε → Prop} {tells : Teller}
    (telling : Telling S Inv w c tells) (within : ∀ t ∈ targets x, S t) {e : ε} (inv : Inv st e) :
    ∃ l, Passes c.settings.maxDepth tells (Loop.start x.references) l ∧
      Stop c.settings.maxDepth tells l ((c.resolveReferences x).run.run w st e).1 := by
  have start : ∀ i ∈ Item.all 1 x.references, S i.target := by
    intro i hi
    obtain ⟨r, hr, rfl⟩ := List.mem_map.1 hi
    exact within _ (List.mem_map_of_mem hr)
  obtain ⟨l, passes, ends⟩ := run_search_passes telling c.settings.maxDepth start ⟨[], [], []⟩ inv
  exact ⟨l, passes, ends.resolve_right ((Loop.ready_start _).passes passes).not_lost⟩

/-- Resolving references ends. No passes of its loop go on for ever, whatever is told; and whatever
the world does, the passes come to a stop, with a list, with a reference that is too deep or with
the first lookup that fails. Before a registry the lookups are told what it has, and references that
lead into a cycle end with a failure. -/
theorem resolveReferences_ends (w : Program.World I ε) (c : Client I) (x : RegisteredSchema)
    (st : State) (e : ε) :
    let r := ((c.resolveReferences x).run.run w st e).1
    let limit := c.settings.maxDepth
    (∀ (tells : Teller) (s : Nat → Loop), ∃ n, ¬ Pass limit tells (s n) (s (n + 1))) ∧
      (∃ l, Passes limit (Asked w c) (Loop.start x.references) l ∧ Stop limit (Asked w c) l r) ∧
      ∀ reg, Serves w c reg → Faithful reg st.cache →
        (∃ l, Passes limit (Heard (fun _ => True) reg) (Loop.start x.references) l ∧
          Stop limit (Heard (fun _ => True) reg) l r) ∧
        ∀ t, reg.Leads (targets x) t → Relation.TransGen reg.Refers t t → ∃ f, r = .error f := by
  refine ⟨exists_not_pass _, run_resolveReferences_passes (telling_asked w c) (fun _ _ => trivial)
    trivial, fun reg serves faithful => ⟨?_, fun t path cycle => ?_⟩⟩
  · exact run_resolveReferences_passes serves.among.telling (fun _ _ => trivial)
      ⟨fun r x _ => faithful r x, trivial⟩
  · have repeats : Repeats ((c.resolveReferences x).run.run w st e).1
        (ofReferences c.settings.maxDepth (fun r => reg (targetOf r)) x.references) :=
      run_search serves _ _ _ faithful e
    cases h : ((c.resolveReferences x).run.run w st e).1 with
    | error f => exact ⟨f, rfl⟩
    | ok xs =>
      rw [h] at repeats
      exact absurd cycle ((resolves_of_ofReferences repeats.of_ok).acyclic t path)

/-- A world in which every version is a schema that refers to version 1 of subject `a`. -/
def looping : Program.World Exchange.interface Unit :=
  steady (.ok ⟨200, Utf8.encode (Json.write Json.spaced (.record
    [("id", .int 5), ("schema", .string "loop"),
     ("references", .array [RegisteredReference.toJson ⟨"loop", "a", 1⟩])]))⟩)

/-- What the world `looping` has. -/
def looped : Registry := fun t => ((fetched looping bare (.version t.1 t.2) none).run ()).1

def loop : RegisteredSchema := ⟨5, .avro, "loop", [⟨"loop", "a", 1⟩]⟩

theorem looped_upper : looped upper = .ok loop := by decide +kernel

theorem faithful_initial (reg : Registry) :
    Faithful reg (State.initial Level.info false).cache := by
  intro r x h
  cases h

/-- A schema that refers to itself is not resolved. -/
theorem resolveReferences_ends_looping :
    Relation.TransGen looped.Refers upper upper ∧
      ∃ f, (((direct bare).resolveReferences loop).run.run looping
        (State.initial Level.info false) ()).1 = .error f := by
  have cycle : Relation.TransGen looped.Refers upper upper :=
    .single ⟨loop, looped_upper, .head _⟩
  obtain ⟨-, -, served⟩ := resolveReferences_ends looping (direct bare) loop
    (State.initial Level.info false) ()
  obtain ⟨-, fails⟩ := served looped (serves_of_fixed (fun _ _ _ => rfl) ()) (faithful_initial _)
  exact ⟨cycle, fails upper (.of_mem (.head _)) cycle⟩

/-! ## How deep it goes -/

/-- When all lookups succeed the cache makes no difference. -/
theorem run_resolveReferences_eq (serves : Serves w c reg) (faithful : Faithful reg st.cache)
    (reachable : ∀ t, reg.Leads (targets x) t → ∃ y, reg t = .ok y) (e : ε) :
    ((c.resolveReferences x).run.run w st e).1 =
      ofReferences c.settings.maxDepth (fun r => reg (targetOf r)) x.references := by
  have among : ServesAmong (reg.Leads (targets x)) (fun _ => True) w c reg :=
    { answers := fun r st e _ _ => serves.answers r st e
      outside := serves.outside
      stays := fun _ _ _ _ => trivial
      closed := fun t u ⟨v, hv, path⟩ step => ⟨v, hv, path.tail step⟩ }
  obtain ⟨l, passes, stop⟩ := run_resolveReferences_passes (e := e) among.telling
    (fun t ht => Leads.of_mem ht) ⟨fun r x _ => faithful r x, trivial⟩
  have search := searching_passes (passes.mono fun t y told => told.2.of_ok)
  refine Eq.trans ?_ search.symm
  generalize ((c.resolveReferences x).run.run w st e).1 = r at stop ⊢
  cases stop with
  | done => exact (searching_stop .done).symm
  | deep unseen fresh deep => exact (searching_stop (.deep unseen fresh deep)).symm
  | failed unseen fresh shallow told =>
    obtain ⟨y, hy⟩ := reachable _ told.1
    have repeats := told.2
    rw [hy] at repeats
    cases repeats.eq_ok

/-- The order of references decides whether they are too deep. Before any registry that has what
`reg` has, in whatever order of its references, resolving is too deep exactly if a branch is too
long and nothing to its left leads to its end. There is such an order exactly if a chain is too
long. -/
theorem resolveReferences_deep (reachable : ∀ t, reg.Leads (targets x) t → ∃ y, reg t = .ok y)
    (acyclic : ∀ t, reg.Leads (targets x) t → ¬ Relation.TransGen reg.Refers t t) (limit : Nat) :
    (∀ (reg' : Registry) (x' : RegisteredSchema), Reordered reg reg' →
        x'.references.Perm x.references →
        ∀ (w : Program.World I ε) (c : Client I) (st : State) (e : ε), Serves w c reg' →
          Faithful reg' st.cache → c.settings.maxDepth = limit →
          ((∃ subject, ((c.resolveReferences x').run.run w st e).1 =
              .error (.resolution (.tooDeep limit subject))) ↔
            reg'.Exceeds [] limit (targets x'))) ∧
      ((∃ (reg' : Registry) (x' : RegisteredSchema), Reordered reg reg' ∧
          x'.references.Perm x.references ∧ reg'.Exceeds [] limit (targets x')) ↔
        ∃ chain, reg.Chain (targets x) chain ∧ limit < chain.length) := by
  refine ⟨?_, ?_⟩
  · intro reg' x' same perm w c st e serves faithful depth
    have sub : targets x' ⊆ targets x := (perm.map targetOf).subset
    have reachable' := same.reachable sub reachable
    rw [run_resolveReferences_eq serves faithful reachable' e, depth]
    exact refused_iff reachable'
  · refine Iff.trans ⟨?_, ?_⟩ (exists_exceeds_iff acyclic)
    · rintro ⟨reg', x', same, perm, exceeds⟩
      exact ⟨reg', x'.references, same, perm, exceeds⟩
    · rintro ⟨reg', rs', same, perm, exceeds⟩
      exact ⟨reg', { x with references := rs' }, same, perm, exceeds⟩

/-! ### Two orders -/

def toUpper : RegisteredReference := ⟨"node", "a", 1⟩

def toLower : RegisteredReference := ⟨"leaf", "b", 1⟩

/-- A schema that refers to both, first to the one that refers to the other. -/
def upperFirst : RegisteredSchema := ⟨9, .avro, "root", [toUpper, toLower]⟩

def lowerFirst : RegisteredSchema := ⟨9, .avro, "root", [toLower, toUpper]⟩

theorem serves_shallow : Serves shelf (direct shallow) shelved :=
  (serves_of_fixed (fun _ _ _ => rfl) () : Serves shelf (direct shallow)
    fun t => ((fetched shelf shallow (.version t.1 t.2) none).run ()).1)

theorem unfolds_upperFirst : shelved.Unfolds (targets upperFirst) [lower, upper, lower] :=
  .cons shelved_upper (.cons shelved_lower .nil .nil) (.cons shelved_lower .nil .nil)

theorem ofReferences_upperFirst :
    ofReferences 1 (fun r => shelved (targetOf r)) upperFirst.references =
      .error (.resolution (.tooDeep 1 toLower.subject)) := by
  have up : targetOf toUpper = upper := rfl
  have low : targetOf toLower = lower := rfl
  have below : node.references = [toLower] := rfl
  rw [ofReferences_eq]
  simp [visit, upperFirst, up, low, below, shelved_upper, bind, Except.bind]

theorem ofReferences_lowerFirst :
    ofReferences 1 (fun r => shelved (targetOf r)) lowerFirst.references = .ok [leaf, node] := by
  have up : targetOf toUpper = upper := rfl
  have low : targetOf toLower = lower := rfl
  have below : node.references = [toLower] := rfl
  have none : leaf.references = [] := rfl
  have apart : upper ≠ lower := by decide
  rw [ofReferences_eq]
  simp [visit, lowerFirst, up, low, below, none, shelved_upper, shelved_lower, Found.close, apart,
    bind, Except.bind, pure, Except.pure]

theorem chain_upperFirst : shelved.Chain (targets upperFirst) [upper, lower] :=
  .cons (.head _) shelved_upper (.single (.head _))

/-- The upper one first is too deep, and there is an order that is. -/
theorem resolveReferences_deep_upperFirst :
    (∃ subject, (((direct shallow).resolveReferences upperFirst).run.run shelf
        (State.initial Level.info false) ()).1 = .error (.resolution (.tooDeep 1 subject))) ∧
      ∃ (reg' : Registry) (x' : RegisteredSchema), Reordered shelved reg' ∧
        x'.references.Perm upperFirst.references ∧ reg'.Exceeds [] 1 (targets x') := by
  obtain ⟨order, some⟩ := resolveReferences_deep (I := Exchange.interface) (ε := Unit)
    (fun _ => unfolds_upperFirst.exists_ok) (fun _ => unfolds_upperFirst.acyclic) 1
  refine ⟨?_, some.2 ⟨_, chain_upperFirst, by simp⟩⟩
  exact (order shelved upperFirst (fun _ => .refl _) (.refl _) shelf (direct shallow) _ ()
    serves_shallow (faithful_initial _) rfl).2 (.down shelved_upper (.stop List.not_mem_nil))

/-- The graph has no cycles, all lookups succeed and a chain has two links, with a limit of one; but
only one of the two orders is too deep. -/
theorem order_matters :
    Serves shelf (direct shallow) shelved ∧ lowerFirst.references.Perm upperFirst.references ∧
      (∀ t, shelved.Leads (targets upperFirst) t →
        (∃ y, shelved t = .ok y) ∧ ¬ Relation.TransGen shelved.Refers t t) ∧
      shelved.Chain (targets upperFirst) [upper, lower] ∧
      shelved.Chain (targets lowerFirst) [upper, lower] ∧
      (((direct shallow).resolveReferences upperFirst).run.run shelf
        (State.initial Level.info false) ()).1 =
          .error (.resolution (.tooDeep 1 toLower.subject)) ∧
      (((direct shallow).resolveReferences lowerFirst).run.run shelf
        (State.initial Level.info false) ()).1 = .ok [leaf, node] := by
  have sub : lowerFirst.references.Perm upperFirst.references := .swap ..
  have reachable : ∀ t, shelved.Leads (targets upperFirst) t → ∃ y, shelved t = .ok y :=
    fun _ => unfolds_upperFirst.exists_ok
  have reachable' : ∀ t, shelved.Leads (targets lowerFirst) t → ∃ y, shelved t = .ok y :=
    fun t h => reachable t (h.mono (sub.map targetOf).subset)
  refine ⟨serves_shallow, sub, fun t h => ⟨reachable t h, unfolds_upperFirst.acyclic h⟩,
    chain_upperFirst, .cons (.tail _ (.head _)) shelved_upper (.single (.head _)), ?_, ?_⟩
  · exact (run_resolveReferences_eq serves_shallow (faithful_initial _) reachable ()).trans
      ofReferences_upperFirst
  · exact (run_resolveReferences_eq serves_shallow (faithful_initial _) reachable' ()).trans
      ofReferences_lowerFirst

end Registrar.Client
