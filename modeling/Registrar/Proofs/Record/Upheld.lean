import Registrar.Proofs.Cache.Alone
import Registrar.Proofs.Program.Upholds
import Registrar.Proofs.Record.Transparent
import Registrar.Record.Encoder

/-!
# Invariants of readers and writers of records

An invariant of the cache and the world is upheld by a lookup through the cache when what is found
is allowed and when loading upholds it. It is then upheld by everything that a decoder or an encoder
does, since all they do with the cache is looking up. The search for references never misses the
schema of a reference that it has followed.
-/

namespace Registrar

variable {I : Interface} {ε ν : Type} {w : Program.World I ε} {Inv : Cache → ε → Prop}
  {F : Failure → Prop}

namespace Cache

open Routine

/-- A lookup through the cache, of which it has to be known what is found and what loading does. -/
theorem upholds_getOrLoad {s : Slot} {loader : Loader I} {P : RegisteredSchema → Prop}
    (outside : Keeps SameCache loader)
    (found : ∀ c e x, Inv c e → c.find? s = some x → Allowed F P x.outcome)
    (loaded : ∀ c st e, Inv c e → c.find? s = none →
      Allowed F P (loader.run.run w st e).1 ∧
        ∀ c', Filled c c' s (kept c (loader.run.run w st e).1) →
          Inv c' (loader.run.run w st e).2.2) :
    Upholds w Inv F P (getOrLoad s loader) := by
  intro st e inv
  cases hx : st.cache.find? s with
  | some x =>
    obtain ⟨st', run, same⟩ := run_getOrLoad_found (w := w) loader hx e
    rw [run, same]
    exact ⟨inv, found _ _ x inv hx⟩
  | none =>
    obtain ⟨st₁, st₂, -, run, filled⟩ := run_getOrLoad_missing hx outside (w := w) e
    obtain ⟨allowed, upheld⟩ := loaded _ st₁ e inv hx
    rw [run]
    exact ⟨upheld _ filled, allowed⟩

theorem upholds_removeErrors (pruned : ∀ c e, Inv c e → Inv c.dropErrors e) :
    Upholds w Inv F (fun _ => True) (removeErrors : Routine I Nat) := by
  have dropped : Upholds w Inv F (fun _ => True) (change dropErrors : Routine I Cache) :=
    fun st e inv => ⟨pruned _ e inv, .ok trivial⟩
  refine dropped.bind fun c _ => ?_
  dsimp only
  split
  · exact (upholds_note _ _ _ _).bind fun _ _ => upholds_pure trivial
  · exact upholds_pure trivial

end Cache

/-! ## The search for references -/

namespace Closure

open Routine

/-- The schema of every reference that was followed and is still on the agenda is at hand. -/
def AtHand (agenda : List Item) (f : Found) : Prop :=
  ∀ i ∈ agenda, i.followed = true → ∃ x, Assoc.get? i.target f.loaded = some x

theorem AtHand.follow {i : Item} {rest : List Item} {f : Found} (h : AtHand (i :: rest) f)
    (x : RegisteredSchema) :
    AtHand (Item.all (i.level + 1) x.references ++ { i with followed := true } :: rest)
      { f with loaded := Assoc.put i.target x f.loaded } := by
  intro j hj followed
  by_cases same : j.target = i.target
  · exact ⟨x, by rw [same]; exact Assoc.get?_put_self ..⟩
  · rcases List.mem_append.1 hj with new | old
    · obtain ⟨r, -, rfl⟩ := List.mem_map.1 new
      cases followed
    · rcases List.mem_cons.1 old with rfl | old
      · exact absurd rfl same
      · obtain ⟨y, hy⟩ := h j (.tail _ old) followed
        exact ⟨y, (Assoc.get?_put_of_ne same ..).trans hy⟩

variable {limit : Nat} {lookup : RegisteredReference → Routine I RegisteredSchema}
  {G : RegisteredReference → Prop}

/-- A search upholds what its lookups uphold, if they give schemas with references for which they
do so again. -/
theorem upholds_search
    (looked : ∀ r, G r → Upholds w Inv F (fun x => ∀ r ∈ x.references, G r) (lookup r))
    (deep : ∀ subject, F (.resolution (.tooDeep limit subject))) (agenda : List Item) (f : Found)
    (good : ∀ i ∈ agenda, G i.reference) (atHand : AtHand agenda f) :
    Upholds w Inv F (fun _ => True) (search limit lookup agenda f) := by
  fun_induction search limit lookup agenda f with
  | case1 f => exact upholds_pure trivial
  | case2 f i rest seen ih =>
    exact ih (fun j hj => good j (.tail _ hj)) fun j hj => atHand j (.tail _ hj)
  | case3 f i rest seen followed x hx ih =>
    exact ih (fun j hj => good j (.tail _ hj)) fun j hj => atHand j (.tail _ hj)
  | case4 f i rest seen followed missing =>
    obtain ⟨x, hx⟩ := atHand i (.head _) followed
    cases missing.symm.trans hx
  | case5 f i rest seen followed tooDeep => exact upholds_throw (deep _)
  | case6 f i rest seen followed shallow ih =>
    refine (looked _ (good i (.head _))).bind fun x hx => ih x (fun j hj => ?_) (atHand.follow x)
    rcases List.mem_append.1 hj with new | old
    · obtain ⟨r, hr, rfl⟩ := List.mem_map.1 new
      exact hx r hr
    · rcases List.mem_cons.1 old with rfl | old
      · exact good i (.head _)
      · exact good j (.tail _ old)

theorem atHand_all (level : Nat) (rs : List RegisteredReference) (f : Found) :
    AtHand (Item.all level rs) f := by
  intro i hi followed
  obtain ⟨r, -, rfl⟩ := List.mem_map.1 hi
  cases followed

end Closure

/-! ## Operations -/

section

open Routine

variable {G : RegisteredReference → Prop}

/-- What goes wrong in a codec is foreign, or allowed as it is. -/
def Codec.Tolerable (codec : Codec ν) (F : Failure → Prop) : Prop :=
  (∀ s p xs f, codec.decode s p xs = .error f → F f ∨ ∃ g, f = .foreign g) ∧
    ∀ s v xs f, codec.encode s v xs = .error f → F f ∨ ∃ g, f = .foreign g

theorem Client.upholds_resolveReferences (plain : Plainly F) {c : Client I}
    (byReference : ∀ r, G r → Upholds w Inv F (fun x => ∀ r ∈ x.references, G r)
      (c.resolveReference r)) {s : RegisteredSchema} (h : ∀ r ∈ s.references, G r) :
    Upholds w Inv F (fun _ => True) (c.resolveReferences s) := by
  refine Closure.upholds_search byReference (fun _ => plain _) _ _ (fun i hi => ?_)
    (Closure.atHand_all _ _ _)
  obtain ⟨r, hr, rfl⟩ := List.mem_map.1 hi
  exact h r hr

theorem Client.upholds_payload {α : Type} (plain : Plainly F) (message : String)
    {r : Except Failure α} (h : ∀ f, r = .error f → F f ∨ ∃ g, f = .foreign g) :
    Upholds w Inv F (fun _ => True) (payload message r) := by
  rcases r with (f | f | _) | a
  · exact upholds_throw (plain f)
  · exact upholds_throw (plain _)
  · refine upholds_throw ?_
    rcases h _ rfl with allowed | ⟨g, hg⟩
    · exact allowed
    · cases hg
  · exact upholds_pure trivial

namespace Decoder

variable {d : Decoder I ν}

theorem upholds_getSchema {P : RegisteredSchema → Prop} {id : Int}
    (h : Upholds w Inv F P (d.client.resolveId id)) : Upholds w Inv F P (d.getSchema id) :=
  h.logged (l := ⟨_, _, Level.debug, false⟩) rfl rfl

theorem upholds_removeErrors (pruned : ∀ c e, Inv c e → Inv c.dropErrors e) :
    Upholds w Inv F (fun _ => True) d.removeErrors :=
  (Cache.upholds_removeErrors pruned).logged (l := ⟨_, _, Level.debug, false⟩) rfl rfl

variable (plain : Plainly F) (codec : d.codec.Tolerable F)
  (byId : ∀ id, Upholds w Inv F (fun x => ∀ r ∈ x.references, G r) (d.client.resolveId id))
  (byReference : ∀ r, G r → Upholds w Inv F (fun x => ∀ r ∈ x.references, G r)
    (d.client.resolveReference r))

include plain codec byId byReference

theorem upholds_decode (data : Option Bytes) :
    Upholds w Inv F (fun _ => True) (d.decode data) := by
  unfold decode
  split
  · exact upholds_pure trivial
  · exact upholds_throw (plain _)
  · refine (upholds_getSchema (byId _)).bind fun x hx => ?_
    refine (Client.upholds_resolveReferences plain byReference hx).bind fun xs _ => ?_
    refine (Client.upholds_payload plain _ (codec.1 _ _ _)).bind fun v _ => ?_
    exact upholds_pure trivial

theorem upholds_decodeRecord (r : ConsumedRecord) :
    Upholds w Inv F (fun _ => True) (d.decodeRecord r) := by
  refine (upholds_decode plain codec byId byReference r.key).bind fun key _ => ?_
  refine (upholds_decode plain codec byId byReference r.value).bind fun value _ => ?_
  exact upholds_pure trivial

theorem upholds_answer (q : Question) : Upholds w Inv F (fun _ => True) (d.answer q) := by
  cases q with
  | decode data =>
    refine (upholds_decode plain codec byId byReference data).bind fun v _ => ?_
    exact upholds_pure trivial
  | decodeRecord r =>
    refine (upholds_decodeRecord plain codec byId byReference r).bind fun v _ => ?_
    exact upholds_pure trivial
  | getSchema id => exact (upholds_getSchema (byId id)).bind fun x _ => upholds_pure trivial

end Decoder

namespace Encoder

variable {c : Encoder I ν}

theorem upholds_getSchema {P : RegisteredSchema → Prop} {n : Naming}
    (h : Upholds w Inv F P (c.client.resolveNaming n)) : Upholds w Inv F P (c.getSchema n) :=
  h.logged (l := ⟨_, _, Level.debug, false⟩) rfl rfl

theorem upholds_removeErrors (pruned : ∀ c e, Inv c e → Inv c.dropErrors e) :
    Upholds w Inv F (fun _ => True) c.removeErrors :=
  (Cache.upholds_removeErrors pruned).logged (l := ⟨_, _, Level.debug, false⟩) rfl rfl

/-- An identifier that fits the header leaves nothing to go wrong but that there is no payload. -/
theorem upholds_frame {x : RegisteredSchema} (fits : x.id < Frame.idBound) {payload : Option Bytes}
    (absent : payload = none → F (.foreign .noBytes)) :
    Upholds w Inv F (fun _ => True) (frame x payload : Routine I Bytes) := by
  have framed (p : Bytes) : Frame.encode x.id p = .ok (Frame.magic :: Frame.idBytes x.id ++ p) :=
    if_pos ⟨Int.natCast_nonneg _, by omega⟩
  refine upholds_ofExcept ?_
  rw [Frame.encodeGiven, framed]
  cases payload with
  | none => exact .error (absent rfl)
  | some p => exact .ok trivial

variable {n : Naming} {Fit : RegisteredSchema → Prop} (byNaming : Upholds w Inv F
  (fun x => Fit x ∧ ∀ r ∈ x.references, G r) (c.client.resolveNaming n))

include byNaming

theorem upholds_encodeBytes {payload : Option Bytes}
    (framed : ∀ x, Fit x → Upholds w Inv F (fun _ => True) (frame x payload)) :
    Upholds w Inv F (fun _ => True) (c.encodeBytes payload n) :=
  (upholds_getSchema byNaming).bind fun x hx => framed x hx.1

theorem upholds_encode (plain : Plainly F) (codec : c.codec.Tolerable F)
    (byReference : ∀ r, G r → Upholds w Inv F (fun x => ∀ r ∈ x.references, G r)
      (c.client.resolveReference r))
    (framed : ∀ x p, Fit x → Upholds w Inv F (fun _ => True) (frame x (some p))) (v : ν) :
    Upholds w Inv F (fun _ => True) (c.encode v n) := by
  refine (upholds_getSchema byNaming).bind fun x hx => ?_
  refine (Client.upholds_resolveReferences plain byReference hx.2).bind fun xs _ => ?_
  refine (Client.upholds_payload plain _ (codec.2 _ _ _)).bind fun p _ => ?_
  exact framed x p hx.1

end Encoder

end

end Registrar
