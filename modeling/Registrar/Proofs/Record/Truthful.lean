import Registrar.Proofs.Cache.Alone
import Registrar.Proofs.Closure.Search
import Registrar.Proofs.Record.Archive
import Registrar.Record.Resolving

/-!
# Caches over an archive

A cache is truthful if every schema that it keeps is what its slot stands for in the archive. It
stays truthful whatever is looked up through it and however the archive grows. What is found through
a truthful cache is what the archive has, and where the cache keeps no errors everything is found
that the archive has.
-/

namespace Registrar

/-- The slot of a subject and a version. -/
def Slot.ofTarget (t : Closure.Target) : Slot := ⟨.reference, .version t.1 t.2⟩

/-- No error is kept for the slot. -/
def Cache.SoundAt (c : Cache) (s : Slot) : Prop := ∀ f, c.find? s ≠ some (.error f)

/-- A schema is kept only if the loader gave it. -/
theorem Cache.ok_of_kept {c : Cache} {r : Outcome} {x : RegisteredSchema}
    (h : kept c r = some (.schema x)) : r = .ok x := by
  rcases r with (f | f | _) | y
  · rw [kept] at h
    split at h <;> cases h
  · cases h
  · cases h
  · cases h
    rfl

namespace Archive

open Cache Client Closure Routine

variable {ε : Type} {w : Program.World Exchange.interface ε} {settings : Settings}
  (a : Archive w settings)

/-! ## Slots -/

/-- The schema is what the slot stands for. A naming stands for a schema that documents give back as
the archive has it; unless the naming carries a schema that is not plain, they give it back as it
is. -/
def Vouches (e : ε) : Slot → RegisteredSchema → Prop
  | ⟨.id, .number n⟩, x => ∀ m : Nat, n = m → m < Frame.idBound → a.schema e m = some x
  | ⟨.naming, .naming n⟩, x =>
    a.schema e x.id = some x.settle ∧ ((∀ y ∈ n.schema, y.Plain) → x.settle = x)
  | ⟨.reference, .version s v⟩, x => a.version e (s, v) = some x
  | _, _ => True

/-- Every schema in the cache is what its slot stands for. -/
def Truthful (e : ε) (c : Cache) : Prop :=
  ∀ p ∈ c.entries, ∀ x, p.2 = .schema x → a.Vouches e p.1 x

/-- The schemas that the loader gives are what the slot stands for. -/
def Honest (s : Slot) (loader : Loader Exchange.interface) : Prop :=
  ∀ st st' e e' x, loader.run.run w st e = (.ok x, st', e') → a.Vouches e' s x

variable {a} {e e' : ε} {st st' : State} {s : Slot} {x : RegisteredSchema}
  {loader : Loader Exchange.interface}

theorem Vouches.later (h : a.Vouches e s x) (l : a.Later e e') : a.Vouches e' s x := by
  unfold Vouches at h ⊢
  split at h
  · exact fun m hm bound => l.schema (h m hm bound)
  · exact ⟨l.schema h.1, h.2⟩
  · exact l.version h
  · trivial

theorem Truthful.later {c : Cache} (h : a.Truthful e c) (l : a.Later e e') : a.Truthful e' c :=
  fun p hp x hx => (h p hp x hx).later l

theorem Truthful.find? {c : Cache} (h : a.Truthful e c) (hx : c.find? s = some (.schema x)) :
    a.Vouches e s x :=
  h _ (Assoc.mem_of_get? hx) x rfl

theorem honest_fetchById (n : Int) : a.Honest (.ofId n) ((direct settings).fetchById n) := by
  rintro st st' e e' x h m rfl bound
  exact of_fetchById bound h

theorem honest_fetchBySubject (n : Naming) :
    a.Honest (.ofNaming n) ((direct settings).fetchBySubject n) :=
  fun _ _ _ _ _ h => of_fetchBySubject h

theorem honest_fetchReference (r : RegisteredReference) :
    a.Honest (.ofReference r) ((direct settings).fetchReference r) :=
  fun _ _ _ _ _ h => of_fetchReference h

/-! ## Lookups -/

/-- A lookup leaves the cache truthful, and what it gives is what the slot stands for. -/
theorem truthful_getOrLoad (honest : a.Honest s loader) (outside : Keeps SameCache loader)
    (h : a.Truthful e st.cache) {r : Except Failure RegisteredSchema}
    (looked : (getOrLoad s loader).run.run w st e = (r, st', e')) :
    a.Truthful e' st'.cache ∧ ∀ x, r = .ok x → a.Vouches e' s x := by
  cases hx : st.cache.find? s with
  | some entry =>
    obtain ⟨st₁, run, same⟩ := run_getOrLoad_found (w := w) loader hx e
    cases run.symm.trans looked
    constructor
    · rwa [same]
    · intro x ok
      cases entry with
      | schema y =>
        cases ok
        exact h.find? hx
      | error f => cases ok
  | none =>
    obtain ⟨st₁, st₂, -, run, filled⟩ := run_getOrLoad_missing hx outside (w := w) e
    have vouched : ∀ x, (loader.run.run w st₁ e).1 = .ok x →
        a.Vouches (loader.run.run w st₁ e).2.2 s x :=
      fun x ok => honest st₁ (loader.run.run w st₁ e).2.1 e _ x (Prod.ext ok rfl)
    cases run.symm.trans looked
    refine ⟨?_, vouched⟩
    intro p hp x hx'
    rcases filled.of_mem hp with old | ⟨rfl, new⟩
    · exact (h p old x hx').later (later_run _ st₁ e)
    · rw [hx'] at new
      exact vouched x (ok_of_kept new)

/-- A lookup through a truthful cache that keeps no error for the slot gives what the slot stands
for, and no error is kept that was not there. -/
theorem getOrLoad_ok (outside : Keeps SameCache loader) (h : a.Truthful e st.cache)
    (sound : st.cache.SoundAt s) (only : ∀ y, a.Vouches e s y → y = x)
    (loads : ∀ st', (loader.run.run w st' e).1 = .ok x) :
    ∃ st' e', (getOrLoad s loader).run.run w st e = (.ok x, st', e') ∧
      ∀ s', st.cache.SoundAt s' → st'.cache.SoundAt s' := by
  cases hx : st.cache.find? s with
  | some entry =>
    obtain ⟨st', run, same⟩ := run_getOrLoad_found (w := w) loader hx e
    cases entry with
    | schema y =>
      rw [only y (h.find? hx)] at run
      exact ⟨st', e, run, fun s' => by rw [same]; exact id⟩
    | error f => exact absurd hx (sound f)
  | none =>
    obtain ⟨st₁, st₂, -, run, filled⟩ := run_getOrLoad_missing hx outside (w := w) e
    rw [loads st₁] at run filled
    refine ⟨st₂, _, run, ?_⟩
    intro s' sound' f
    by_cases here : s' = s
    · rw [here, filled.here]
      simp [kept]
    · rw [filled.elsewhere s' here]
      exact sound' f

/-- From a truthful cache the routine leads to a truthful one. -/
def Preserved {α : Type} (a : Archive w settings) (y : Routine Exchange.interface α) : Prop :=
  ∀ st e, a.Truthful e st.cache → a.Truthful (y.run.run w st e).2.2 (y.run.run w st e).2.1.cache

section

variable {α β : Type} {y : Routine Exchange.interface α}

theorem preserved_of_keeps (h : Keeps SameCache y) : a.Preserved y := by
  intro st e truthful
  have same : (y.run.run w st e).2.1.cache = st.cache :=
    h.run (fun _ => rfl) (fun _ _ _ h h' => h'.trans h) w st e
  rw [same]
  exact truthful.later (later_run _ st e)

theorem Preserved.bind {f : α → Routine Exchange.interface β} (h : a.Preserved y)
    (hf : ∀ b, a.Preserved (f b)) : a.Preserved (y >>= f) := by
  intro st e truthful
  have first := h st e truthful
  rw [Routine.run_bind, Program.run_bind]
  generalize y.run.run w st e = out at first ⊢
  obtain ⟨r, st₁, e₁⟩ := out
  cases r with
  | ok b => exact hf b st₁ e₁ first
  | error f => exact first

theorem Preserved.logged (h : a.Preserved y) {l : Logging} (quiet : l.start = false) {level : Level}
    (hl : l.level.forRecord = .ok level) : a.Preserved (logged l y) := by
  intro st e truthful
  obtain ⟨st', run, same⟩ := run_logged (w := w) y quiet hl st e
  rw [run, same]
  exact h st e truthful

theorem preserved_removeErrors : a.Preserved Cache.removeErrors := by
  refine Preserved.bind (fun st e truthful p hp => truthful p (List.mem_of_mem_filter hp))
    fun c => preserved_of_keeps ?_
  dsimp only
  split
  · exact (keeps_note ..).bind fun _ => keeps_pure _
  · exact keeps_pure _

end

/-! ## References -/

/-- What the archive has for every subject and version. -/
def registry (a : Archive w settings) (e : ε) : Registry := fun t =>
  match a.version e t with
  | some x => .ok x
  | none => .error (.resolution (.status 404))

theorem registry_eq_ok {t : Target} : a.registry e t = .ok x ↔ a.version e t = some x := by
  unfold registry
  cases a.version e t with
  | none => simp
  | some y => simp

/-- What the registry has the archive has, and the cache keeps no errors for it. -/
def Offers (a : Archive w settings) (e : ε) (c : Cache) (reg : Registry) : Prop :=
  ∀ t x, reg t = .ok x → a.version e t = some x ∧ c.SoundAt (.ofTarget t)

theorem Offers.mono {c c' : Cache} {reg : Registry} (h : a.Offers e c reg) (l : a.Later e e')
    (sound : ∀ s, c.SoundAt s → c'.SoundAt s) : a.Offers e' c' reg := by
  intro t x hx
  obtain ⟨version, clean⟩ := h t x hx
  exact ⟨l.version version, sound _ clean⟩

/-- A run that started from a truthful cache in the state `e` ended as the computation `r` in a
registry. It does so if the registry has everything that the archive has in the end, or if the
archive and the cache offered in the beginning what the registry has. -/
structure Mirrors {α : Type} (a : Archive w settings) (reg : Registry) (e : ε) (c : Cache)
    (out : Except Failure α × State × ε) (r : Except Failure α) : Prop where
  truthful : a.Truthful out.2.2 out.2.1.cache
  later : a.Later e out.2.2
  up : (∀ t x, a.version out.2.2 t = some x → reg t = .ok x) → ∀ y, out.1 = .ok y → r = .ok y
  down : a.Offers e c reg → ∀ y, r = .ok y →
    out.1 = .ok y ∧ ∀ s, c.SoundAt s → out.2.1.cache.SoundAt s

variable {reg : Registry}

theorem Mirrors.ended {α : Type} (h : a.Truthful e st.cache) (r : Except Failure α) :
    a.Mirrors reg e st.cache (r, st, e) r :=
  ⟨h, .refl e, fun _ _ => id, fun _ _ ok => ⟨ok, fun _ => id⟩⟩

theorem Mirrors.bind {α β : Type} {y : Routine Exchange.interface α}
    {f : α → Routine Exchange.interface β} {r : Except Failure α} {g : α → Except Failure β}
    (first : a.Mirrors reg e st.cache (y.run.run w st e) r)
    (next : ∀ b st' e', a.Truthful e' st'.cache →
      a.Mirrors reg e' st'.cache ((f b).run.run w st' e') (g b)) :
    a.Mirrors reg e st.cache ((y >>= f).run.run w st e) (r >>= g) := by
  rw [Routine.run_bind, Program.run_bind]
  generalize y.run.run w st e = out at first ⊢
  obtain ⟨r₁, st₁, e₁⟩ := out
  cases r₁ with
  | error f₁ =>
    refine ⟨first.truthful, first.later, ?_, ?_⟩
    · intro known b ok
      cases ok
    · intro offers b ok
      obtain ⟨b', hb, -⟩ := of_bind_ok ok
      have failed := (first.down offers b' hb).1
      cases failed
  | ok b =>
    have rest := next b st₁ e₁ first.truthful
    refine ⟨rest.truthful, first.later.trans rest.later, ?_, ?_⟩
    · intro known z ok
      have hr := first.up (fun t x hx => known t x (rest.later.version hx)) b rfl
      rw [hr]
      exact rest.up known z ok
    · intro offers z ok
      obtain ⟨b', hb, hz⟩ := of_bind_ok ok
      obtain ⟨same, sound⟩ := first.down offers b' hb
      cases same
      obtain ⟨ended, sound'⟩ := rest.down (offers.mono first.later sound) z hz
      exact ⟨ended, fun s clean => sound' s (sound s clean)⟩

/-- Resolving a reference mirrors the registry. -/
theorem mirrors_resolveReference (h : a.Truthful e st.cache) (r : RegisteredReference) :
    a.Mirrors reg e st.cache (((direct settings).resolveReference r).run.run w st e)
      (reg (targetOf r)) := by
  obtain ⟨truthful, vouched⟩ := truthful_getOrLoad (honest_fetchReference r)
    (keeps_fetchReference settings r) h rfl
  refine ⟨truthful, later_run _ st e, fun known x ok => known _ x (vouched x ok),
    fun offers x ok => ?_⟩
  obtain ⟨version, sound⟩ := offers _ x ok
  have only : ∀ y, a.Vouches e (.ofReference r) y → y = x :=
    fun y hy => Option.some.inj (hy.symm.trans version)
  obtain ⟨st', e', run, sound'⟩ := getOrLoad_ok (keeps_fetchReference settings r) h sound only
    fun st' => fetchReference_ok version st'
  have run : ((direct settings).resolveReference r).run.run w st e = _ := run
  rw [run]
  exact ⟨rfl, sound'⟩

/-- A search through a truthful cache mirrors the search in the registry. -/
theorem mirrors_search (limit : Nat) (agenda : List Item) (f : Found)
    (h : a.Truthful e st.cache) :
    a.Mirrors reg e st.cache
      ((search limit (direct settings).resolveReference agenda f).run.run w st e)
      (searching limit reg agenda f) := by
  unfold searching
  fun_induction search limit (fun r => reg (targetOf r)) agenda f generalizing st e with
  | case1 f =>
    rw [search]
    exact .ended h _
  | case2 f i rest seen ih =>
    rw [search, if_pos seen]
    exact ih h
  | case3 f i rest seen followed x hx ih =>
    rw [search, if_neg seen, if_pos followed, hx]
    exact ih h
  | case4 f i rest seen followed hx =>
    rw [search, if_neg seen, if_pos followed, hx]
    exact .ended h _
  | case5 f i rest seen followed deep =>
    rw [search, if_neg seen, if_neg followed, if_pos deep]
    exact .ended h _
  | case6 f i rest seen followed deep ih =>
    rw [search, if_neg seen, if_neg followed, if_neg deep]
    exact (mirrors_resolveReference h i.reference).bind fun x st' e' h' => ih x h'

theorem mirrors_resolveReferences (reg : Registry) (h : a.Truthful e st.cache)
    (x : RegisteredSchema) :
    a.Mirrors reg e st.cache (((direct settings).resolveReferences x).run.run w st e)
      (ofReferences settings.maxDepth (fun r => reg (targetOf r)) x.references) :=
  mirrors_search _ _ _ h

end Archive

end Registrar
