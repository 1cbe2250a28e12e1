import Mathlib.Data.List.Perm.Basic
import Registrar.Proofs.Closure.Search

/-!
# How deep the search goes

The search passes over what is done before it looks at the level. So a chain of references that is
longer than the limit does not always end it: what stands at the end of the chain may have been met
on a higher level before. A `Branch` is a chain together with the references to its left, which the
search has followed when it comes to the end of the chain. The search is refused as too deep exactly
if some branch is too long and nothing to its left leads to its end.

This depends on the order of the references. Whether there is an order in which the search is
refused does not: there is one exactly if some chain is too long.
-/

namespace Registrar.Closure

namespace Registry

variable (reg : Registry)

/-- `Branch ts us c`: the chain `c` starts with one of `ts`, and `us` are the references to its
left, on all its levels. -/
inductive Branch : List Target → List Target → List Target → Prop where
  | stop {t : Target} {ts : List Target} : Branch (t :: ts) [] [t]
  | down {t : Target} {x : RegisteredSchema} {ts us c : List Target} (hx : reg t = .ok x)
    (h : Branch (targets x) us c) : Branch (t :: ts) us (t :: c)
  | aside {t : Target} {ts us c : List Target} (h : Branch ts us c) : Branch (t :: ts) (t :: us) c

/-- A branch is longer than `n`, and its end is neither done nor led to by what is on its left. -/
def Exceeds (done : List Target) (n : Nat) (ts : List Target) : Prop :=
  ∃ us c, reg.Branch ts us c ∧ n < c.length ∧ ∀ t ∈ c.getLast?, t ∉ done ∧ ¬ reg.Leads us t

variable {reg} {t u : Target} {x : RegisteredSchema} {ts us vs c done : List Target} {n : Nat}

/-! ## Branches -/

theorem not_leads_nil : ¬ reg.Leads [] t := by
  rintro ⟨u, hu, -⟩
  cases hu

theorem Leads.cons_iff : reg.Leads (t :: ts) u ↔ reg.Leads [t] u ∨ reg.Leads ts u := by
  constructor
  · rintro ⟨v, hv, path⟩
    rcases List.mem_cons.1 hv with rfl | hv
    · exact .inl ⟨v, .head _, path⟩
    · exact .inr ⟨v, hv, path⟩
  · rintro (h | h)
    · exact h.mono (by simp)
    · exact h.mono fun v hv => .tail _ hv

theorem Branch.chain (h : reg.Branch ts us c) : reg.Chain ts c := by
  induction h with
  | stop => exact .single (.head _)
  | down hx _ ih => exact .cons (.head _) hx ih
  | aside _ ih =>
    cases ih with
    | single ht => exact .single (.tail _ ht)
    | cons ht hx hc => exact .cons (.tail _ ht) hx hc

/-- The end of a branch. -/
theorem Branch.exists_last (h : reg.Branch ts us c) :
    ∃ t, c.getLast? = some t ∧ reg.Leads ts t := by
  cases last : c.getLast? with
  | none =>
    rw [List.getLast?_eq_none_iff.1 last] at h
    cases h.chain
  | some t => exact ⟨t, rfl, h.chain.leads (List.mem_of_getLast? last)⟩

/-! ## Branches that are too long -/

theorem Exceeds.stop (h : t ∉ done) : reg.Exceeds done 0 (t :: ts) :=
  ⟨[], [t], .stop, by simp, by simpa using ⟨h, not_leads_nil⟩⟩

theorem Exceeds.down (hx : reg t = .ok x) (h : reg.Exceeds done n (targets x)) :
    reg.Exceeds done (n + 1) (t :: ts) := by
  obtain ⟨us, c, branch, long, fresh⟩ := h
  obtain ⟨v, last, -⟩ := branch.exists_last
  refine ⟨us, t :: c, .down hx branch, by simpa using long, ?_⟩
  simpa [List.getLast?_cons, last] using fresh v last

/-- What a reference on the left leads to counts as done. -/
theorem Exceeds.aside (below : ∀ u, reg.Leads [t] u → u ∈ done ∨ u ∈ vs)
    (h : reg.Exceeds (done ++ vs) n ts) : reg.Exceeds done n (t :: ts) := by
  obtain ⟨us, c, branch, long, fresh⟩ := h
  refine ⟨t :: us, c, .aside branch, long, fun u hu => ?_⟩
  have := fresh u hu
  have := below u
  rw [Leads.cons_iff]
  grind

theorem not_exceeds_nil : ¬ reg.Exceeds done n [] := by
  rintro ⟨us, c, branch, -⟩
  cases branch

/-- A branch that is too long goes down from the first reference, or it lies to the right of it. -/
theorem Exceeds.cons (h : reg.Exceeds done n (t :: ts)) (left : ∀ u ∈ vs, reg.Leads [t] u) :
    ((∃ u ∉ done, reg.Leads [t] u) ∧
      ∀ m, n = m + 1 → ∃ x, reg t = .ok x ∧ reg.Exceeds done m (targets x)) ∨
    reg.Exceeds (done ++ vs) n ts := by
  obtain ⟨us, c, branch, long, fresh⟩ := h
  cases branch with
  | stop =>
    refine .inl ⟨⟨t, (fresh t rfl).1, .of_mem (.head _)⟩, ?_⟩
    rintro m rfl
    simp at long
  | @down _ x _ _ c hx branch =>
    obtain ⟨v, last, path⟩ := branch.exists_last
    have end_ : (t :: c).getLast? = some v := by simp [List.getLast?_cons, last]
    refine .inl ⟨⟨v, (fresh v end_).1, path.through hx⟩, ?_⟩
    rintro m rfl
    refine ⟨x, hx, us, c, branch, by simpa using long, fun u hu => fresh u ?_⟩
    rw [end_, ← last]
    exact hu
  | @aside _ _ us _ branch =>
    refine .inr ⟨us, c, branch, long, fun u hu => ?_⟩
    obtain ⟨new, unmet⟩ := fresh u hu
    rw [Leads.cons_iff, not_or] at unmet
    exact ⟨fun h => (List.mem_append.1 h).elim new fun h => unmet.1 (left u h), unmet.2⟩

end Registry

/-! ## When a visit is refused -/

open Registry

variable {limit : Nat} {reg : Registry} {us vs ts : List Target} {t u : Target}
  {x : RegisteredSchema} {f f' : Found} {n : Nat} {rs : List RegisteredReference}

/-- A visit that fails has come to the end of a branch that is too long. -/
theorem visit_exceeds (hf : f.Covers reg us)
    (reachable : ∀ t, reg.Leads (rs.map targetOf) t → ∃ x, reg t = .ok x) {e : Failure}
    (h : visit limit reg n rs f = .error e) : reg.Exceeds us n (rs.map targetOf) := by
  fun_induction visit limit reg n rs f generalizing us with
  | case1 => cases h
  | case2 n f r rs seen ih =>
    rw [List.map_cons] at reachable ⊢
    have old : ∀ u, reg.Leads [targetOf r] u → u ∈ us := fun u hu =>
      hf.grounded.leads (by simpa using hf.mem_seen.1 seen) hu
    have rest : reg.Exceeds (us ++ []) n (rs.map targetOf) := by
      rw [List.append_nil]
      exact ih hf (fun t ht => reachable t (Leads.cons_iff.2 (.inr ht))) h
    exact rest.aside fun u hu => .inl (old u hu)
  | case3 f r rs unseen => exact .stop fun ht => unseen (hf.mem_seen.2 ht)
  | case4 f r rs unseen n ih₁ ih₂ =>
    rw [List.map_cons] at reachable ⊢
    rcases of_bind_error h with hx | ⟨x, hx, h⟩
    · obtain ⟨x, hx'⟩ := reachable _ (.of_mem (.head _))
      cases hx.symm.trans hx'
    rcases of_bind_error h with h₁ | ⟨f₁, h₁, h⟩
    · refine .down hx (ih₁ x (hf.load hx) (fun t ht => reachable t ?_) h₁)
      exact Leads.cons_iff.2 (.inl (ht.through hx))
    · obtain ⟨vs, below⟩ := visit_ok (hf.load hx) h₁
      obtain ⟨f₂, h₂, first⟩ := below.close hf unseen hx
      rw [h₂] at h
      refine .aside (fun u hu => .inr (first.unfolds.mem_iff.2 hu)) ?_
      exact ih₂ f₂ first.covers (fun t ht => reachable t (Leads.cons_iff.2 (.inr ht))) h

/-- A visit that does not fail has met the end of every branch that is too long before. -/
theorem visit_within (hf : f.Covers reg us) (h : visit limit reg n rs f = .ok f') :
    ¬ reg.Exceeds us n (rs.map targetOf) := by
  fun_induction visit limit reg n rs f generalizing us f' with
  | case1 => exact not_exceeds_nil
  | case2 n f r rs seen ih =>
    obtain ⟨vs, unfolds, covers⟩ := hf.again (hf.mem_seen.1 seen)
    intro exceeds
    rcases exceeds.cons fun u hu => unfolds.leads hu with ⟨⟨u, new, path⟩, -⟩ | exceeds
    · exact new (hf.grounded.leads (by simpa using hf.mem_seen.1 seen) path)
    · exact ih covers h exceeds
  | case3 => cases h
  | case4 f r rs unseen n ih₁ ih₂ =>
    obtain ⟨x, hx, h⟩ := of_bind_ok h
    obtain ⟨f₁, h₁, h⟩ := of_bind_ok h
    obtain ⟨vs, below⟩ := visit_ok (hf.load hx) h₁
    obtain ⟨f₂, h₂, first⟩ := below.close hf unseen hx
    rw [h₂] at h
    intro exceeds
    rcases exceeds.cons fun u hu => first.unfolds.leads hu with ⟨-, deeper⟩ | exceeds
    · obtain ⟨y, hy, exceeds⟩ := deeper n rfl
      obtain rfl := Except.ok.inj (hx.symm.trans hy)
      exact ih₁ x (hf.load hx) h₁ exceeds
    · exact ih₂ f₂ first.covers h exceeds

/-- Following the references is refused as too deep. -/
def Refused (limit : Nat) (reg : Registry) (refs : List RegisteredReference) : Prop :=
  ∃ subject, ofReferences limit (fun r => reg (targetOf r)) refs =
    .error (.resolution (.tooDeep limit subject))

/-- When all lookups succeed, references are refused exactly if there is a branch that is too long
and nothing to its left leads to its end. -/
theorem refused_iff {refs : List RegisteredReference}
    (reachable : ∀ t, reg.Leads (refs.map targetOf) t → ∃ x, reg t = .ok x) :
    Refused limit reg refs ↔ reg.Exceeds [] limit (refs.map targetOf) := by
  constructor
  · rintro ⟨subject, h⟩
    rw [ofReferences_eq] at h
    rcases of_bind_error h with h | ⟨f, -, h⟩
    · exact visit_exceeds .empty reachable h
    · cases h
  · intro exceeds
    cases h : ofReferences limit (fun r => reg (targetOf r)) refs with
    | ok xs =>
      rw [ofReferences_eq] at h
      obtain ⟨f, hf, -⟩ := of_bind_ok h
      exact absurd exceeds (visit_within .empty hf)
    | error e =>
      cases ofReferences_error h with
      | deep _ _ subject => exact ⟨subject, h⟩
      | lookup path he =>
        obtain ⟨x, hx⟩ := reachable _ path
        cases hx.symm.trans he

/-! ## The order of the references -/

namespace Registry

/-- The same schema, up to the order of its references, or the same failure. -/
inductive Rearranged :
    Except Failure RegisteredSchema → Except Failure RegisteredSchema → Prop where
  | ok {x : RegisteredSchema} {rs : List RegisteredReference} (h : rs.Perm x.references) :
    Rearranged (.ok x) (.ok { x with references := rs })
  | error (e : Failure) : Rearranged (.error e) (.error e)

/-- The registries have the same, up to the order of the references of each schema. -/
def Reordered (reg reg' : Registry) : Prop := ∀ t, Rearranged (reg t) (reg' t)

variable {reg reg' : Registry} {rs rs' : List RegisteredReference} {ts ts' c us : List Target}

theorem Rearranged.refl (r : Except Failure RegisteredSchema) : Rearranged r r := by
  cases r with
  | ok x => exact .ok (.refl _)
  | error e => exact .error e

theorem Rearranged.symm {r r' : Except Failure RegisteredSchema} (h : Rearranged r r') :
    Rearranged r' r := by
  cases h with
  | @ok x rs h => exact .ok (x := { x with references := rs }) h.symm
  | error e => exact .error e

theorem Reordered.symm (h : Reordered reg reg') : Reordered reg' reg := fun t => (h t).symm

theorem Reordered.of_ok (h : Reordered reg reg') {t : Target} {x : RegisteredSchema}
    (hx : reg t = .ok x) : ∃ y, reg' t = .ok y ∧ y.references.Perm x.references := by
  have same := h t
  rw [hx] at same
  generalize reg' t = r at same ⊢
  cases same with
  | ok perm => exact ⟨_, rfl, perm⟩

/-- The order of references does not matter to chains. -/
theorem Chain.reorder (h : reg.Chain ts c) (same : Reordered reg reg') (sub : ts ⊆ ts') :
    reg'.Chain ts' c := by
  induction h generalizing ts' with
  | single ht => exact .single (sub ht)
  | cons ht hx _ ih =>
    obtain ⟨y, hy, perm⟩ := same.of_ok hx
    exact .cons (sub ht) hy (ih (perm.map targetOf).symm.subset)

theorem Leads.reorder {u : Target} (h : reg.Leads ts u) (same : Reordered reg reg')
    (sub : ts ⊆ ts') : reg'.Leads ts' u := by
  obtain ⟨t, ht, path⟩ := h
  refine ⟨t, sub ht, ?_⟩
  induction path with
  | refl => exact .refl
  | tail _ step ih =>
    obtain ⟨x, hx, hu⟩ := step
    obtain ⟨y, hy, perm⟩ := same.of_ok hx
    exact .tail ih ⟨y, hy, (perm.map targetOf).symm.subset hu⟩

/-- What references lead to exists in any order. -/
theorem Reordered.reachable (same : Reordered reg reg') (sub : ts' ⊆ ts)
    (reachable : ∀ t, reg.Leads ts t → ∃ x, reg t = .ok x) (t : Target) (h : reg'.Leads ts' t) :
    ∃ x, reg' t = .ok x := by
  obtain ⟨x, hx⟩ := reachable t (h.reorder same.symm sub)
  obtain ⟨y, hy, -⟩ := same.of_ok hx
  exact ⟨y, hy⟩

/-- A branch with nothing to its left depends on the schemas on it only. -/
theorem Branch.congr (h : reg.Branch ts us c) (none : us = []) (same : ∀ t ∈ c, reg' t = reg t) :
    reg'.Branch ts us c := by
  induction h with
  | stop => exact .stop
  | down hx _ ih =>
    refine .down ((same _ (.head _)).trans hx) (ih none fun t ht => same t (.tail _ ht))
  | aside => cases none

/-- A chain that has no target twice is a branch with nothing to its left, when the references are
put in the order in which the chain goes through them. -/
theorem Chain.exists_branch (h : reg.Chain (rs.map targetOf) c) (nodup : c.Nodup) :
    ∃ (reg' : Registry) (rs' : List RegisteredReference), Reordered reg reg' ∧ rs'.Perm rs ∧
      reg'.Branch (rs'.map targetOf) [] c := by
  induction c generalizing rs with
  | nil => cases h
  | cons t c ih =>
    obtain ⟨new, others⟩ := List.nodup_cons.1 nodup
    cases h with
    | single ht =>
      obtain ⟨r, hr, rfl⟩ := List.mem_map.1 ht
      exact ⟨reg, r :: rs.erase r, fun _ => .refl _, (List.perm_cons_erase hr).symm, .stop⟩
    | @cons _ _ x _ ht hx hc =>
      obtain ⟨r, hr, rfl⟩ := List.mem_map.1 ht
      obtain ⟨reg', below, same, perm, branch⟩ := ih hc others
      let y := { x with references := below }
      refine ⟨Function.update reg' (targetOf r) (.ok y), r :: rs.erase r, fun t => ?_,
        (List.perm_cons_erase hr).symm, .down (x := y) (Function.update_self ..) ?_⟩
      · by_cases e : t = targetOf r
        · subst e
          rw [Function.update_self, hx]
          exact .ok perm
        · rw [Function.update_of_ne e]
          exact same t
      · exact branch.congr rfl fun t ht =>
          Function.update_of_ne (fun e => new (by rwa [e] at ht)) ..

/-- There is an order in which a branch is too long exactly if a chain is too long. -/
theorem exists_exceeds_iff {rs : List RegisteredReference}
    (acyclic : ∀ t, reg.Leads (rs.map targetOf) t → ¬ Relation.TransGen reg.Refers t t) :
    (∃ (reg' : Registry) (rs' : List RegisteredReference), Reordered reg reg' ∧ rs'.Perm rs ∧
        reg'.Exceeds [] n (rs'.map targetOf)) ↔
      ∃ c, reg.Chain (rs.map targetOf) c ∧ n < c.length := by
  constructor
  · rintro ⟨reg', rs', same, perm, us, c, branch, long, -⟩
    exact ⟨c, branch.chain.reorder same.symm (perm.map targetOf).subset, long⟩
  · rintro ⟨c, chain, long⟩
    obtain ⟨reg', rs', same, perm, branch⟩ := chain.exists_branch (chain.nodup acyclic)
    exact ⟨reg', rs', same, perm, [], c, branch, long,
      fun t _ => ⟨List.not_mem_nil, not_leads_nil⟩⟩

end Registry

end Registrar.Closure
