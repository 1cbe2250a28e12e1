import Mathlib.Logic.Relation
import Mathlib.Order.WellFounded
import Registrar.Proofs.Closure.Search

/-!
# The loop of the search

The search is a loop over an agenda. A pass takes the first item off: it drops a reference that is
done, closes one that was followed, or looks one up and puts in front what the schema refers to.
What a lookup tells is up to a relation here, so it may be different each time. No sequence of
passes goes on for ever, whatever is told: a pass adds items on the next level only, and there is
a last level. In the end the loop stops with the schemas, with a reference that is too deep or with
a lookup that fails.
-/

namespace Registrar.Closure

/-- The loop between two passes. -/
structure Loop where
  agenda : List Item
  found : Found

/-- The loop before its first pass. -/
def Loop.start (refs : List RegisteredReference) : Loop := ⟨Item.all 1 refs, ⟨[], [], []⟩⟩

/-- What the lookup of a target may tell. -/
abbrev Teller := Target → Except Failure RegisteredSchema → Prop

/-- A pass of the loop. -/
inductive Pass (limit : Nat) (tells : Teller) : Loop → Loop → Prop where
  | skip {i : Item} {rest : List Item} {f : Found} (seen : i.target ∈ f.seen) :
    Pass limit tells ⟨i :: rest, f⟩ ⟨rest, f⟩
  | close {i : Item} {rest : List Item} {f : Found} {x : RegisteredSchema}
    (unseen : i.target ∉ f.seen) (followed : i.followed = true)
    (loaded : Assoc.get? i.target f.loaded = some x) :
    Pass limit tells ⟨i :: rest, f⟩
      ⟨rest, { f with seen := i.target :: f.seen, resolved := f.resolved ++ [x] }⟩
  | follow {i : Item} {rest : List Item} {f : Found} {x : RegisteredSchema}
    (unseen : i.target ∉ f.seen) (fresh : i.followed = false) (shallow : i.level ≤ limit)
    (told : tells i.target (.ok x)) :
    Pass limit tells ⟨i :: rest, f⟩
      ⟨Item.all (i.level + 1) x.references ++ { i with followed := true } :: rest,
        { f with loaded := Assoc.put i.target x f.loaded }⟩

/-- How the loop stops. -/
inductive Stop (limit : Nat) (tells : Teller) :
    Loop → Except Failure (List RegisteredSchema) → Prop where
  | done {f : Found} : Stop limit tells ⟨[], f⟩ (.ok f.resolved)
  | deep {i : Item} {rest : List Item} {f : Found} (unseen : i.target ∉ f.seen)
    (fresh : i.followed = false) (deep : limit < i.level) :
    Stop limit tells ⟨i :: rest, f⟩ (.error (.resolution (.tooDeep limit i.reference.subject)))
  | failed {i : Item} {rest : List Item} {f : Found} {e : Failure} (unseen : i.target ∉ f.seen)
    (fresh : i.followed = false) (shallow : i.level ≤ limit) (told : tells i.target (.error e)) :
    Stop limit tells ⟨i :: rest, f⟩ (.error e)

/-- The loop is to close a reference for which nothing is loaded. -/
inductive Lost : Loop → Except Failure (List RegisteredSchema) → Prop where
  | mk {i : Item} {rest : List Item} {f : Found} (unseen : i.target ∉ f.seen)
    (followed : i.followed = true) (absent : Assoc.get? i.target f.loaded = none) :
    Lost ⟨i :: rest, f⟩ (.error (.foreign ⟨.key, i.reference.subject⟩))

/-- Passes one after another. -/
abbrev Passes (limit : Nat) (tells : Teller) : Loop → Loop → Prop :=
  Relation.ReflTransGen (Pass limit tells)

variable {limit : Nat} {tells tells' : Teller} {reg : Registry} {l l' : Loop}
  {r : Except Failure (List RegisteredSchema)}

/-! ## There is a last pass -/

theorem Pass.below (h : Pass limit tells l l') :
    Rank.Below (limit + 1) (rank (limit + 1) 0 l'.agenda) (rank (limit + 1) 0 l.agenda) := by
  cases h with
  | skip => exact rank_drop ..
  | close => exact rank_drop ..
  | follow _ fresh shallow => exact rank_follow fresh (Nat.zero_le _) (by omega) ..

theorem wellFounded_pass (limit : Nat) (tells : Teller) :
    WellFounded fun l' l => Pass limit tells l l' :=
  Subrelation.wf (fun h => Pass.below h)
    (InvImage.wf (fun l : Loop => rank (limit + 1) 0 l.agenda) (Rank.wellFounded (limit + 1)))

/-- No passes go on for ever. -/
theorem exists_not_pass (limit : Nat) (tells : Teller) (s : Nat → Loop) :
    ∃ n, ¬ Pass limit tells (s n) (s (n + 1)) :=
  haveI : IsWellFounded Loop fun l' l => Pass limit tells l l' := ⟨wellFounded_pass limit tells⟩
  WellFounded.not_rel_apply_succ (r := fun l' l => Pass limit tells l l') s

theorem Passes.mono (h : Passes limit tells l l')
    (weaker : ∀ t x, tells t (.ok x) → tells' t (.ok x)) : Passes limit tells' l l' := by
  induction h with
  | refl => exact .refl
  | tail _ pass ih =>
    refine .tail ih ?_
    cases pass with
    | skip seen => exact .skip seen
    | close unseen followed loaded => exact .close unseen followed loaded
    | follow unseen fresh shallow told => exact .follow unseen fresh shallow (weaker _ _ told)

/-! ## Nothing is lost -/

/-- Every item that was followed is loaded. -/
def Loop.Ready (l : Loop) : Prop :=
  ∀ i ∈ l.agenda, i.followed = true → (Assoc.get? i.target l.found.loaded).isSome

theorem Loop.ready_start (refs : List RegisteredReference) : (start refs).Ready := by
  intro i hi followed
  obtain ⟨r, -, rfl⟩ := List.mem_map.1 hi
  cases followed

theorem Loop.Ready.pass (h : l.Ready) (pass : Pass limit tells l l') : l'.Ready := by
  cases pass with
  | skip => exact fun j hj => h j (.tail _ hj)
  | close => exact fun j hj => h j (.tail _ hj)
  | @follow i rest f x =>
    intro j hj followed
    by_cases same : j.target = i.target
    · simp [same]
    · rw [Assoc.get?_put_of_ne same]
      rcases List.mem_append.1 hj with hj | hj
      · obtain ⟨r, -, rfl⟩ := List.mem_map.1 hj
        cases followed
      · rcases List.mem_cons.1 hj with rfl | hj
        · exact absurd rfl same
        · exact h j (.tail _ hj) followed

theorem Loop.Ready.passes (h : l.Ready) (passes : Passes limit tells l l') : l'.Ready := by
  induction passes with
  | refl => exact h
  | tail _ pass ih => exact ih.pass pass

theorem Loop.Ready.not_lost (h : l.Ready) : ¬ Lost l r := by
  rintro ⟨unseen, followed, absent⟩
  simpa [absent] using h _ (.head _) followed

/-! ## Passes in a registry -/

/-- The lookups tell what the registry has. -/
abbrev Registry.told (reg : Registry) : Teller := fun t r => reg t = r

theorem searching_pass (h : Pass limit reg.told l l') :
    searching limit reg l.agenda l.found = searching limit reg l'.agenda l'.found := by
  cases h with
  | @skip i rest f seen =>
    unfold searching
    rw [search, if_pos seen]
  | @close i rest f x unseen followed loaded =>
    unfold searching
    rw [search, if_neg unseen, if_pos followed, loaded]
  | @follow i rest f x unseen fresh shallow told =>
    obtain ⟨ref, level, followed⟩ := i
    obtain rfl : followed = false := fresh
    refine (searching_follow ref level rest f unseen shallow).trans ?_
    rw [show reg (targetOf ref) = .ok x from told]
    rfl

theorem searching_stop (h : Stop limit reg.told l r) :
    searching limit reg l.agenda l.found = r := by
  cases h with
  | done =>
    unfold searching
    rw [search]
    rfl
  | @deep i rest f unseen fresh deep =>
    obtain ⟨ref, level, followed⟩ := i
    obtain rfl : followed = false := fresh
    exact searching_deep ref level rest f unseen deep
  | @failed i rest f e unseen fresh shallow told =>
    obtain ⟨ref, level, followed⟩ := i
    obtain rfl : followed = false := fresh
    refine (searching_follow ref level rest f unseen shallow).trans ?_
    rw [show reg (targetOf ref) = .error e from told]
    rfl

theorem searching_lost (h : Lost l r) : searching limit reg l.agenda l.found = r := by
  obtain ⟨unseen, followed, absent⟩ := h
  unfold searching
  rw [search, if_neg unseen, if_pos followed, absent]
  rfl

theorem searching_passes (h : Passes limit reg.told l l') :
    searching limit reg l.agenda l.found = searching limit reg l'.agenda l'.found := by
  induction h with
  | refl => rfl
  | tail _ pass ih => exact ih.trans (searching_pass pass)

end Registrar.Closure
