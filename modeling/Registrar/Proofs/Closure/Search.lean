import Registrar.Proofs.Closure.Graph

/-!
# The search for the closure

The search works off an agenda. `visit` is the same search as a recursion: it visits references from
left to right and, before it closes one, those of its schema, on one level less. While it goes
through a list of references it either unfolds them, in which case what it has found is the
unfolding so far without repetitions, or it fails for a reason that lies in the registry: a lookup
fails, or there is a chain of references that is too long.
-/

namespace Registrar.Closure

open Registry

/-! ## The search as a recursion -/

/-- Marks a reference as done, when everything that its schema refers to has been visited. -/
def Found.close (f : Found) (r : RegisteredReference) : Except Failure Found :=
  if f.seen.contains (targetOf r) then .ok f
  else
    match Assoc.get? (targetOf r) f.loaded with
    | some x => .ok { f with seen := targetOf r :: f.seen, resolved := f.resolved ++ [x] }
    | none => .error (.foreign ⟨.key, r.subject⟩)

theorem Found.close_seen {f : Found} {r : RegisteredReference} (seen : targetOf r ∈ f.seen) :
    f.close r = .ok f :=
  if_pos (List.contains_iff_mem.2 seen)

theorem Found.close_unseen {f : Found} {r : RegisteredReference} (unseen : targetOf r ∉ f.seen) :
    f.close r = match Assoc.get? (targetOf r) f.loaded with
      | some x => .ok { f with seen := targetOf r :: f.seen, resolved := f.resolved ++ [x] }
      | none => .error (.foreign ⟨.key, r.subject⟩) :=
  if_neg (mt List.contains_iff_mem.1 unseen)

/-- Visits references on `n` more levels. -/
def visit (limit : Nat) (reg : Registry) (n : Nat) (rs : List RegisteredReference) (f : Found) :
    Except Failure Found :=
  match rs with
  | [] => .ok f
  | r :: rs =>
    if targetOf r ∈ f.seen then visit limit reg n rs f
    else
      match n with
      | 0 => .error (.resolution (.tooDeep limit r.subject))
      | n + 1 => do
        let x ← reg (targetOf r)
        let below ← visit limit reg n x.references
          { f with loaded := Assoc.put (targetOf r) x f.loaded }
        let closed ← below.close r
        visit limit reg (n + 1) rs closed
termination_by (n, rs.length)

variable {limit : Nat} {reg : Registry}

/-- The search for references that are looked up in a registry. -/
abbrev searching (limit : Nat) (reg : Registry) (agenda : List Item) (f : Found) :
    Except Failure (List RegisteredSchema) :=
  search limit (fun r => reg (targetOf r)) agenda f

section

variable (r : RegisteredReference) (level : Nat) (rest : List Item) (f : Found)

theorem searching_seen (h : targetOf r ∈ f.seen) :
    searching limit reg (⟨r, level, false⟩ :: rest) f = searching limit reg rest f := by
  unfold searching
  rw [search]
  exact if_pos h

/-- A reference that was followed is closed. -/
theorem searching_followed :
    searching limit reg (⟨r, level, true⟩ :: rest) f = f.close r >>= searching limit reg rest := by
  unfold searching
  rw [search]
  by_cases seen : targetOf r ∈ f.seen
  · rw [Found.close_seen seen]
    exact if_pos seen
  · rw [Found.close_unseen seen]
    refine (if_neg seen).trans ((if_pos rfl).trans ?_)
    show (match Assoc.get? (targetOf r) f.loaded with | some x => _ | none => _) = _
    cases Assoc.get? (targetOf r) f.loaded <;> rfl

theorem searching_deep (h : targetOf r ∉ f.seen) (deep : limit < level) :
    searching limit reg (⟨r, level, false⟩ :: rest) f =
      .error (.resolution (.tooDeep limit r.subject)) := by
  unfold searching
  rw [search]
  exact (if_neg h).trans ((if_neg (by simp)).trans (if_pos deep))

theorem searching_follow (h : targetOf r ∉ f.seen) (shallow : level ≤ limit) :
    searching limit reg (⟨r, level, false⟩ :: rest) f = (do
      let x ← reg (targetOf r)
      searching limit reg (Item.all (level + 1) x.references ++ ⟨r, level, true⟩ :: rest)
        { f with loaded := Assoc.put (targetOf r) x f.loaded }) := by
  unfold searching
  rw [search]
  exact (if_neg h).trans ((if_neg (by simp)).trans (if_neg (Nat.not_lt.2 shallow)))

end

/-- Working off a list of references is visiting them. -/
theorem searching_all {n level : Nat} (h : level + n = limit + 1) (rs : List RegisteredReference)
    (rest : List Item) (f : Found) :
    searching limit reg (Item.all level rs ++ rest) f =
      visit limit reg n rs f >>= searching limit reg rest := by
  fun_induction visit limit reg n rs f generalizing level rest with
  | case1 => rfl
  | case2 n f r rs seen ih => exact (searching_seen r level _ f seen).trans (ih h rest)
  | case3 f r rs unseen => exact searching_deep r level _ f unseen (by omega)
  | case4 f r rs unseen n ih₁ ih₂ =>
    have deeper : level + 1 + n = limit + 1 := by omega
    refine (searching_follow r level _ f unseen (by omega)).trans ?_
    simp only [bind_assoc]
    refine bind_congr fun x => (ih₁ x deeper _).trans (bind_congr fun below => ?_)
    refine (searching_followed r level _ below).trans (bind_congr fun closed => ?_)
    exact ih₂ closed h rest

/-! ## What the search has found -/

/-- What has been found after `us` has been unfolded. -/
structure Found.Covers (reg : Registry) (f : Found) (us : List Target) : Prop where
  seen : f.seen = us.eraseDups.reverse
  resolved : List.Forall₂ (fun t x => reg t = .ok x) us.eraseDups f.resolved
  loaded : ∀ t x, Assoc.get? t f.loaded = some x → reg t = .ok x
  grounded : reg.Grounded us

/-- Why a search on `n` more levels fails: a lookup fails, or a chain of references is longer. -/
inductive Fails (limit : Nat) (reg : Registry) (n : Nat) (ts : List Target) : Failure → Prop where
  | deep {c : List Target} (chain : reg.Chain ts c) (h : n < c.length) (subject : Text) :
    Fails limit reg n ts (.resolution (.tooDeep limit subject))
  | lookup {t : Target} {e : Failure} (path : reg.Leads ts t) (h : reg t = .error e) :
    Fails limit reg n ts e

variable {us vs : List Target} {t : Target} {x : RegisteredSchema} {f f' : Found}

namespace Found.Covers

theorem empty : Covers reg ⟨[], [], []⟩ [] := ⟨rfl, .nil, by simp, .nil⟩

theorem mem_seen (h : f.Covers reg us) : t ∈ f.seen ↔ t ∈ us := by
  rw [h.seen]
  simp

/-- What is done can be unfolded again. -/
theorem again (h : f.Covers reg us) (ht : t ∈ us) :
    ∃ vs, reg.Unfolds [t] vs ∧ f.Covers reg (us ++ vs) := by
  obtain ⟨vs, unfolds⟩ := h.grounded.unfolds ht
  have old : ∀ v ∈ vs, v ∈ us := fun v hv =>
    h.grounded.leads (by simpa using ht) (unfolds.leads hv)
  refine ⟨vs, unfolds, ?_, ?_, h.loaded, unfolds.grounded_append h.grounded⟩
  · rw [eraseDups_append_of_mem old, h.seen]
  · rw [eraseDups_append_of_mem old]
    exact h.resolved

theorem load (h : f.Covers reg us) (hx : reg t = .ok x) :
    Covers reg { f with loaded := Assoc.put t x f.loaded } us where
  seen := h.seen
  resolved := h.resolved
  grounded := h.grounded
  loaded := by
    intro u y hy
    by_cases e : u = t
    · subst e
      rw [Assoc.get?_put_self] at hy
      exact Option.some.inj hy ▸ hx
    · rw [Assoc.get?_put_of_ne e] at hy
      exact h.loaded u y hy

/-- A reference whose schema has been visited is not done yet, since that schema does not lead back
to it, and what it points to is at hand. -/
theorem close {r : RegisteredReference} (h : f.Covers reg (us ++ vs))
    (unseen : targetOf r ∉ us) (hx : reg (targetOf r) = .ok x) (below : reg.Unfolds (targets x) vs)
    (present : (Assoc.get? (targetOf r) f.loaded).isSome) :
    ∃ f', f.close r = .ok f' ∧ f'.Covers reg (us ++ (vs ++ [targetOf r])) ∧
      f'.loaded = f.loaded := by
  have new : targetOf r ∉ us ++ vs := by
    intro ht
    refine h.grounded.acyclic ht (Leads.cycle hx ?_)
    exact below.leads ((List.mem_append.1 ht).resolve_left unseen)
  obtain ⟨y, hy⟩ := Option.isSome_iff_exists.1 present
  obtain rfl := Except.ok.inj (hx.symm.trans (h.loaded _ y hy))
  refine ⟨{ f with seen := targetOf r :: f.seen, resolved := f.resolved ++ [x] }, ?_, ?_, rfl⟩
  · rw [Found.close_unseen fun ht => new (h.mem_seen.1 ht), hy]
  · rw [← List.append_assoc]
    refine ⟨?_, ?_, h.loaded, h.grounded.append_cons hx fun u hu => ?_⟩
    · rw [eraseDups_append_singleton new, h.seen]
      simp
    · rw [eraseDups_append_singleton new]
      exact List.rel_append h.resolved (.cons hx .nil)
    · exact List.mem_append_right _ (below.mem hu)

end Found.Covers

/-! ## What a visit does -/

theorem of_bind_error {α β : Type} {y : Except Failure α} {g : α → Except Failure β} {e : Failure}
    (h : y >>= g = .error e) : y = .error e ∨ ∃ a, y = .ok a ∧ g a = .error e := by
  cases y with
  | error e' =>
    cases h
    exact .inl rfl
  | ok a => exact .inr ⟨a, rfl, h⟩

/-- What a visit has found: an unfolding of the references, and schemas that stay at hand. -/
structure Visited (reg : Registry) (ts us vs : List Target) (f f' : Found) : Prop where
  unfolds : reg.Unfolds ts vs
  covers : f'.Covers reg (us ++ vs)
  present : ∀ t, (Assoc.get? t f.loaded).isSome → (Assoc.get? t f'.loaded).isSome

/-- When what is below a reference has been visited, the reference is closed. -/
theorem Visited.close {r : RegisteredReference} (h : f.Covers reg us) (unseen : targetOf r ∉ f.seen)
    (hx : reg (targetOf r) = .ok x)
    (below : Visited reg (targets x) us vs
      { f with loaded := Assoc.put (targetOf r) x f.loaded } f') :
    ∃ f'', f'.close r = .ok f'' ∧ Visited reg [targetOf r] us (vs ++ [targetOf r]) f f'' := by
  have new : targetOf r ∉ us := fun ht => unseen (h.mem_seen.2 ht)
  obtain ⟨f'', hf, covers, same⟩ :=
    below.covers.close new hx below.unfolds (below.present _ (by simp))
  refine ⟨f'', hf, .cons hx below.unfolds .nil, covers, fun t ht => ?_⟩
  rw [same]
  refine below.present t ?_
  by_cases e : t = targetOf r
  · simp [e]
  · rwa [Assoc.get?_put_of_ne e]

/-- What is visited one after another is visited. -/
theorem Visited.cons {ts vs' : List Target} {f'' : Found} (first : Visited reg [t] us vs f f')
    (others : Visited reg ts (us ++ vs) vs' f' f'') :
    Visited reg (t :: ts) us (vs ++ vs') f f'' where
  unfolds := first.unfolds.append others.unfolds
  covers := by simpa using others.covers
  present t ht := others.present t (first.present t ht)

theorem visit_ok {n : Nat} {rs : List RegisteredReference} (hf : f.Covers reg us)
    (h : visit limit reg n rs f = .ok f') : ∃ vs, Visited reg (rs.map targetOf) us vs f f' := by
  fun_induction visit limit reg n rs f generalizing us f' with
  | case1 n f =>
    cases h
    exact ⟨[], .nil, by simpa using hf, fun _ => id⟩
  | case2 n f r rs seen ih =>
    obtain ⟨vs, unfolds, covers⟩ := hf.again (hf.mem_seen.1 seen)
    obtain ⟨vs', others⟩ := ih covers h
    exact ⟨vs ++ vs', Visited.cons ⟨unfolds, covers, fun _ => id⟩ others⟩
  | case3 => cases h
  | case4 f r rs unseen n ih₁ ih₂ =>
    obtain ⟨x, hx, h⟩ := of_bind_ok h
    obtain ⟨f₁, h₁, h⟩ := of_bind_ok h
    obtain ⟨vs, below⟩ := ih₁ x (hf.load hx) h₁
    obtain ⟨f₂, h₂, first⟩ := below.close hf unseen hx
    rw [h₂] at h
    obtain ⟨vs', others⟩ := ih₂ f₂ first.covers h
    exact ⟨_, first.cons others⟩

theorem Fails.mono {n : Nat} {ts ts' : List Target} {e : Failure} (h : Fails limit reg n ts e)
    (sub : ∀ t ∈ ts, t ∈ ts') : Fails limit reg n ts' e := by
  cases h with
  | deep chain long subject =>
    cases chain with
    | single ht => exact .deep (.single (sub _ ht)) long subject
    | cons ht hx hc => exact .deep (.cons (sub _ ht) hx hc) long subject
  | lookup path he => exact .lookup (path.mono sub) he

/-- What fails below a reference fails at the reference, which has one more level. -/
theorem Fails.below {n : Nat} {e : Failure} (hx : reg t = .ok x)
    (h : Fails limit reg n (targets x) e) : Fails limit reg (n + 1) [t] e := by
  cases h with
  | deep chain long subject =>
    exact .deep (.cons (.head _) hx chain) (by simpa using long) subject
  | lookup path he => exact .lookup (path.through hx) he

theorem visit_error {n : Nat} {rs : List RegisteredReference} {e : Failure} (hf : f.Covers reg us)
    (h : visit limit reg n rs f = .error e) : Fails limit reg n (rs.map targetOf) e := by
  fun_induction visit limit reg n rs f generalizing us with
  | case1 => cases h
  | case2 n f r rs seen ih => exact (ih hf h).mono fun t ht => .tail _ ht
  | case3 f r rs unseen =>
    cases h
    exact .deep (.single (.head _)) (by simp) _
  | case4 f r rs unseen n ih₁ ih₂ =>
    rcases of_bind_error h with hx | ⟨x, hx, h⟩
    · exact .lookup (.of_mem (.head _)) hx
    rcases of_bind_error h with h₁ | ⟨f₁, h₁, h⟩
    · exact ((ih₁ x (hf.load hx) h₁).below hx).mono (by simp)
    obtain ⟨vs, below⟩ := visit_ok (hf.load hx) h₁
    obtain ⟨f₂, h₂, first⟩ := below.close hf unseen hx
    rw [h₂] at h
    exact (ih₂ f₂ first.covers h).mono fun t ht => .tail _ ht

/-! ## The closure -/

variable {refs : List RegisteredReference} {xs : List RegisteredSchema}

theorem ofReferences_eq (limit : Nat) (reg : Registry) (refs : List RegisteredReference) :
    ofReferences limit (fun r => reg (targetOf r)) refs = (do
      let f ← visit limit reg limit refs ⟨[], [], []⟩
      return f.resolved) := by
  have all : searching limit reg (Item.all 1 refs ++ []) ⟨[], [], []⟩ = _ :=
    searching_all (Nat.add_comm 1 limit) refs [] ⟨[], [], []⟩
  rw [List.append_nil] at all
  refine all.trans (bind_congr fun f => ?_)
  unfold searching
  rw [search]

/-- What is returned are the schemas of the unfolding without repetitions. -/
theorem ofReferences_ok (h : ofReferences limit (fun r => reg (targetOf r)) refs = .ok xs) :
    ∃ us, reg.Unfolds (refs.map targetOf) us ∧ reg.Grounded us ∧
      List.Forall₂ (fun t x => reg t = .ok x) us.eraseDups xs := by
  rw [ofReferences_eq] at h
  obtain ⟨f, hf, h⟩ := of_bind_ok h
  cases h
  obtain ⟨us, visited⟩ := visit_ok .empty hf
  exact ⟨us, visited.unfolds, visited.covers.grounded, visited.covers.resolved⟩

theorem ofReferences_error {e : Failure}
    (h : ofReferences limit (fun r => reg (targetOf r)) refs = .error e) :
    Fails limit reg limit (refs.map targetOf) e := by
  rw [ofReferences_eq] at h
  rcases of_bind_error h with h | ⟨f, -, h⟩
  · exact visit_error .empty h
  · cases h

/-- The search gives something when references lead to schemas only, in chains that are not too
long. -/
theorem exists_ofReferences (reachable : ∀ t, reg.Leads (refs.map targetOf) t → ∃ x, reg t = .ok x)
    (short : ∀ c, reg.Chain (refs.map targetOf) c → c.length ≤ limit) :
    ∃ xs, ofReferences limit (fun r => reg (targetOf r)) refs = .ok xs := by
  cases h : ofReferences limit (fun r => reg (targetOf r)) refs with
  | ok xs => exact ⟨xs, rfl⟩
  | error e =>
    cases ofReferences_error h with
    | deep chain long _ => exact absurd (short _ chain) (Nat.not_le.2 long)
    | lookup path he =>
      obtain ⟨x, hx⟩ := reachable _ path
      rw [hx] at he
      cases he

/-- A visit depends on what the references lead to only. -/
theorem visit_congr {reg' : Registry} {n : Nat} {rs : List RegisteredReference}
    (same : ∀ t, reg.Leads (rs.map targetOf) t → reg' t = reg t) :
    visit limit reg' n rs f = visit limit reg n rs f := by
  fun_induction visit limit reg n rs f with
  | case1 => rw [visit]
  | case2 n f r rs seen ih =>
    rw [visit.eq_def]
    exact (if_pos seen).trans (ih fun t path => same t (path.mono fun _ => .tail _))
  | case3 f r rs unseen => rw [visit, if_neg unseen]
  | case4 f r rs unseen n ih₁ ih₂ =>
    rw [visit, if_neg unseen, same _ (.of_mem (.head _))]
    cases hx : reg (targetOf r) with
    | error g => rfl
    | ok x =>
      have below := ih₁ x fun t path => same t ((path.through hx).mono (by simp))
      have others (f₂ : Found) := ih₂ f₂ fun t path => same t (path.mono fun _ => .tail _)
      change visit limit reg' n x.references _ >>= _ = visit limit reg n x.references _ >>= _
      rw [below]
      exact bind_congr fun f₁ => bind_congr others

theorem ofReferences_congr {reg' : Registry}
    (same : ∀ t, reg.Leads (refs.map targetOf) t → reg' t = reg t) :
    ofReferences limit (fun r => reg' (targetOf r)) refs =
      ofReferences limit (fun r => reg (targetOf r)) refs := by
  rw [ofReferences_eq, ofReferences_eq, visit_congr same]

/-- What unfolds within the limit is found. -/
theorem ofReferences_of_unfolds (unfolds : reg.Unfolds (refs.map targetOf) us)
    (short : us.eraseDups.length ≤ limit)
    (known : List.Forall₂ (fun t x => reg t = .ok x) us.eraseDups xs) :
    ofReferences limit (fun r => reg (targetOf r)) refs = .ok xs := by
  obtain ⟨ys, found⟩ := exists_ofReferences (fun _ => unfolds.exists_ok)
    fun _ chain => Nat.le_trans (unfolds.length_chain chain) short
  obtain ⟨vs, again, -, resolved⟩ := ofReferences_ok found
  obtain rfl := unfolds.unique again
  have same : ys = xs :=
    List.right_unique_forall₂' (fun _ _ _ h h' => Except.ok.inj (h.symm.trans h')) resolved known
  rw [found, same]

end Registrar.Closure
