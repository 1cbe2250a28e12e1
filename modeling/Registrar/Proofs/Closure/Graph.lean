import Mathlib.Data.List.Induction
import Mathlib.Data.List.Nodup
import Mathlib.Data.List.Perm.Subperm
import Mathlib.Logic.Relation
import Registrar.Closure

/-!
# The graph of references

A registry gives a schema or a failure for every subject and version, and the references of the
schemas make a graph of these. `Unfolds` unfolds the graph into trees: it lists, children before
their parents and from left to right, all that references lead to, as often as they lead there. A
list is `Grounded` when every target in it stands behind all those that its schema refers to; a
grounded list has no part in a cycle.
-/

namespace Registrar.Closure

/-- What the registry has for every subject and version. -/
abbrev Registry := Target → Except Failure RegisteredSchema

/-- What a reference points to. -/
def targetOf (r : RegisteredReference) : Target := (r.subject, r.version)

/-- What the references of a schema point to. -/
def targets (x : RegisteredSchema) : List Target := x.references.map targetOf

namespace Registry

variable (reg : Registry)

/-- The schema at `t` has a reference to `u`. -/
def Refers (t u : Target) : Prop := ∃ x, reg t = .ok x ∧ u ∈ targets x

/-- References to `ts` lead to `u`, directly or through other schemas. -/
def Leads (ts : List Target) (u : Target) : Prop :=
  ∃ t ∈ ts, Relation.ReflTransGen reg.Refers t u

/-- Chains of references that start with one of `ts`; what the last one points to need not exist. -/
inductive Chain : List Target → List Target → Prop where
  | single {ts : List Target} {t : Target} (h : t ∈ ts) : Chain ts [t]
  | cons {ts : List Target} {t : Target} {x : RegisteredSchema} {c : List Target} (h : t ∈ ts)
    (hx : reg t = .ok x) (hc : Chain (targets x) c) : Chain ts (t :: c)

/-- What references to `ts` lead to, each after what its schema refers to, with repetitions. -/
inductive Unfolds : List Target → List Target → Prop where
  | nil : Unfolds [] []
  | cons {t : Target} {x : RegisteredSchema} {ts us vs : List Target} (hx : reg t = .ok x)
    (below : Unfolds (targets x) us) (others : Unfolds ts vs) : Unfolds (t :: ts) (us ++ t :: vs)

/-- Every target in the list stands behind those that its schema refers to. -/
def Grounded (us : List Target) : Prop :=
  ∀ a t b, us = a ++ t :: b → ∃ x, reg t = .ok x ∧ ∀ u ∈ targets x, u ∈ a

variable {reg} {t u : Target} {ts us vs : List Target} {x : RegisteredSchema}

/-! ## Leading -/

theorem Leads.of_mem (h : t ∈ ts) : reg.Leads ts t := ⟨t, h, .refl⟩

theorem Leads.mono (h : reg.Leads ts u) (sub : ∀ t ∈ ts, t ∈ us) : reg.Leads us u := by
  obtain ⟨t, ht, path⟩ := h
  exact ⟨t, sub t ht, path⟩

theorem Leads.through (hx : reg t = .ok x) (h : reg.Leads (targets x) u) : reg.Leads [t] u := by
  obtain ⟨v, hv, path⟩ := h
  exact ⟨t, .head _, .head ⟨x, hx, hv⟩ path⟩

/-- A schema that leads back to itself is on a cycle. -/
theorem Leads.cycle (hx : reg t = .ok x) (h : reg.Leads (targets x) t) :
    Relation.TransGen reg.Refers t t := by
  obtain ⟨v, hv, path⟩ := h
  exact .head' ⟨x, hx, hv⟩ path

/-! ## Grounded lists -/

theorem Grounded.nil : reg.Grounded [] := by
  intro a t b h
  simp at h

theorem Grounded.append_cons (h : reg.Grounded us) (hx : reg t = .ok x)
    (below : ∀ u ∈ targets x, u ∈ us) : reg.Grounded (us ++ [t]) := by
  intro a v b e
  rcases List.append_eq_append_iff.1 e with ⟨c, rfl, hc⟩ | ⟨c, rfl, hc⟩
  · cases c with
    | nil =>
      simp only [List.nil_append, List.cons.injEq] at hc
      obtain ⟨rfl, -⟩ := hc
      exact ⟨x, hx, by simpa using below⟩
    | cons _ c => simp at hc
  · cases c with
    | nil =>
      simp only [List.nil_append, List.cons.injEq] at hc
      obtain ⟨rfl, -⟩ := hc
      exact ⟨x, hx, by simpa using below⟩
    | cons w c =>
      simp only [List.cons_append, List.cons.injEq] at hc
      obtain ⟨rfl, -⟩ := hc
      exact h a _ c rfl

/-- What a grounded list contains leads into the list. -/
theorem Grounded.closed (h : reg.Grounded us) (ht : t ∈ us) (path : reg.Refers t u) : u ∈ us := by
  obtain ⟨a, b, rfl⟩ := List.append_of_mem ht
  obtain ⟨x, hx, below⟩ := h a t b rfl
  obtain ⟨y, hy, hu⟩ := path
  obtain rfl := Except.ok.inj (hx.symm.trans hy)
  exact List.mem_append_left _ (below u hu)

theorem Grounded.leads (h : reg.Grounded us) (sub : ∀ t ∈ ts, t ∈ us) (path : reg.Leads ts u) :
    u ∈ us := by
  obtain ⟨t, ht, path⟩ := path
  induction path with
  | refl => exact sub t ht
  | tail _ step ih => exact h.closed ih step

theorem Grounded.of_append (h : reg.Grounded (us ++ vs)) : reg.Grounded us := by
  rintro a t b rfl
  exact h a t (b ++ vs) (by simp)

/-- Nothing in a grounded list is on a cycle. -/
theorem Grounded.acyclic (h : reg.Grounded us) (ht : t ∈ us) :
    ¬ Relation.TransGen reg.Refers t t := by
  induction us using List.reverseRecOn with
  | nil => simp at ht
  | append_singleton us v ih =>
    have shorter := h.of_append
    rcases List.mem_append.1 ht with ht | ht
    · exact ih shorter ht
    · obtain rfl := List.mem_singleton.1 ht
      intro cycle
      -- A cycle at the end of the list would leave it for what stands before the end.
      obtain ⟨u, step, path⟩ := Relation.TransGen.head'_iff.1 cycle
      obtain ⟨x, hx, below⟩ := h us t [] rfl
      obtain ⟨y, hy, hu⟩ := step
      obtain rfl := Except.ok.inj (hx.symm.trans hy)
      exact ih shorter (shorter.leads below ⟨u, hu, path⟩) cycle

/-! ## Unfolding -/

theorem Unfolds.append {ts' us' : List Target} (h : reg.Unfolds ts us) (h' : reg.Unfolds ts' us') :
    reg.Unfolds (ts ++ ts') (us ++ us') := by
  induction h with
  | nil => exact h'
  | cons hx below _ _ ih => simpa using Unfolds.cons hx below ih

theorem Unfolds.leads (h : reg.Unfolds ts us) (hu : u ∈ us) : reg.Leads ts u := by
  induction h with
  | nil => simp at hu
  | @cons t x ts us vs hx _ _ ihb iho =>
    rcases List.mem_append.1 hu with hu | hu
    · exact (ihb hu).through hx |>.mono (by simp)
    · rcases List.mem_cons.1 hu with rfl | hu
      · exact .of_mem (.head _)
      · exact (iho hu).mono fun v hv => .tail _ hv

theorem Unfolds.mem (h : reg.Unfolds ts us) (ht : t ∈ ts) : t ∈ us := by
  induction h with
  | nil => simp at ht
  | cons _ _ _ _ ih =>
    rcases List.mem_cons.1 ht with rfl | ht
    · simp
    · exact List.mem_append_right _ (.tail _ (ih ht))

/-- What references unfold to can follow any grounded list. -/
theorem Unfolds.grounded_append (h : reg.Unfolds ts vs) (hg : reg.Grounded us) :
    reg.Grounded (us ++ vs) := by
  induction h generalizing us with
  | nil => simpa using hg
  | @cons t x ts bs os hx below _ ihb iho =>
    have step := (ihb hg).append_cons hx fun u hu => List.mem_append_right _ (below.mem hu)
    simpa using iho step

theorem Unfolds.grounded (h : reg.Unfolds ts us) : reg.Grounded us := h.grounded_append .nil

/-- Unfolding reaches everything. -/
theorem Unfolds.mem_iff (h : reg.Unfolds ts us) : u ∈ us ↔ reg.Leads ts u :=
  ⟨h.leads, fun path => h.grounded.leads (fun _ => h.mem) path⟩

theorem Unfolds.of_each (h : ∀ t ∈ ts, ∃ us, reg.Unfolds [t] us) : ∃ us, reg.Unfolds ts us := by
  induction ts with
  | nil => exact ⟨[], .nil⟩
  | cons t ts ih =>
    obtain ⟨us, hus⟩ := h t (.head _)
    obtain ⟨vs, hvs⟩ := ih fun u hu => h u (.tail _ hu)
    exact ⟨us ++ vs, hus.append hvs⟩

/-- Whatever a grounded list contains can be unfolded. -/
theorem Grounded.unfolds (h : reg.Grounded us) (ht : t ∈ us) : ∃ vs, reg.Unfolds [t] vs := by
  induction us using List.reverseRecOn generalizing t with
  | nil => simp at ht
  | append_singleton us u ih =>
    rcases List.mem_append.1 ht with ht | ht
    · exact ih h.of_append ht
    · obtain rfl := List.mem_singleton.1 ht
      obtain ⟨x, hx, below⟩ := h us t [] rfl
      obtain ⟨vs, hvs⟩ := Unfolds.of_each fun u hu => ih h.of_append (below u hu)
      exact ⟨vs ++ [t], .cons hx hvs .nil⟩

/-- References unfold in one way only. -/
theorem Unfolds.unique (h : reg.Unfolds ts us) (h' : reg.Unfolds ts vs) : us = vs := by
  induction h generalizing vs with
  | nil =>
    cases h'
    rfl
  | cons hx _ _ inner others =>
    cases h' with
    | cons hy below rest =>
      obtain rfl := Except.ok.inj (hx.symm.trans hy)
      rw [inner below, others rest]

/-- What unfolds leads into no cycle. -/
theorem Unfolds.acyclic (h : reg.Unfolds ts us) (path : reg.Leads ts t) :
    ¬ Relation.TransGen reg.Refers t t :=
  h.grounded.acyclic (h.mem_iff.2 path)

/-- What unfolds leads to schemas only. -/
theorem Unfolds.exists_ok (h : reg.Unfolds ts us) (path : reg.Leads ts t) : ∃ x, reg t = .ok x := by
  obtain ⟨a, b, rfl⟩ := List.append_of_mem (h.mem_iff.2 path)
  obtain ⟨x, hx, -⟩ := h.grounded a t b rfl
  exact ⟨x, hx⟩

/-! ## Dropping repetitions -/

theorem eraseDups_append_singleton (h : t ∉ us) : (us ++ [t]).eraseDups = us.eraseDups ++ [t] := by
  simp [List.eraseDups_append, List.cons_removeAll, List.eraseDups_cons, h]

theorem eraseDups_append_of_mem (h : ∀ v ∈ vs, v ∈ us) : (us ++ vs).eraseDups = us.eraseDups := by
  have none : vs.removeAll us = [] := by
    simpa [List.removeAll, List.filter_eq_nil_iff] using h
  simp [List.eraseDups_append, none]

theorem nodup_eraseDups (us : List Target) : us.eraseDups.Nodup := by
  induction us using List.reverseRecOn with
  | nil => simp
  | append_singleton us t ih =>
    by_cases ht : t ∈ us
    · rwa [eraseDups_append_of_mem (by simpa using ht)]
    · rw [eraseDups_append_singleton ht]
      exact ih.append (List.nodup_singleton t) (by simpa using ht)

/-- Dropping repetitions leaves every target behind those that its schema refers to. -/
theorem Grounded.eraseDups (h : reg.Grounded us) : reg.Grounded us.eraseDups := by
  induction us using List.reverseRecOn with
  | nil => exact h
  | append_singleton us t ih =>
    have shorter := h.of_append
    by_cases ht : t ∈ us
    · rw [eraseDups_append_of_mem (by simpa using ht)]
      exact ih shorter
    · rw [eraseDups_append_singleton ht]
      obtain ⟨x, hx, below⟩ := h us t [] rfl
      exact (ih shorter).append_cons hx fun u hu => List.mem_eraseDups.2 (below u hu)

/-! ## Chains -/

theorem Chain.leads (h : reg.Chain ts c) (ht : t ∈ c) : reg.Leads ts t := by
  induction h with
  | single hu =>
    obtain rfl := List.mem_singleton.1 ht
    exact .of_mem hu
  | cons hu hx _ ih =>
    rcases List.mem_cons.1 ht with rfl | ht
    · exact .of_mem hu
    · exact ((ih ht).through hx).mono (by simpa using hu)

/-- A chain that does not lead into a cycle has no target twice. -/
theorem Chain.nodup (h : reg.Chain ts c)
    (acyclic : ∀ t, reg.Leads ts t → ¬ Relation.TransGen reg.Refers t t) : c.Nodup := by
  induction h with
  | single => exact List.nodup_singleton _
  | @cons ts t x c ht hx hc ih =>
    have path : reg.Leads ts t := .of_mem ht
    refine List.nodup_cons.2 ⟨fun again => ?_, ih fun u hu => acyclic u ?_⟩
    · exact acyclic t path (Leads.cycle hx (hc.leads again))
    · exact (hu.through hx).mono (by simpa using ht)

/-- No chain is longer than what the references unfold to, each counted once. -/
theorem Unfolds.length_chain (h : reg.Unfolds ts us) {c : List Target} (chain : reg.Chain ts c) :
    c.length ≤ us.eraseDups.length := by
  have nodup : c.Nodup := chain.nodup fun _ => h.acyclic
  have sub : c ⊆ us.eraseDups := fun t ht => List.mem_eraseDups.2 (h.mem_iff.2 (chain.leads ht))
  exact (nodup.subperm sub).length_le

end Registry

end Registrar.Closure
