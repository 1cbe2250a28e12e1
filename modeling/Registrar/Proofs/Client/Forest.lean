import Mathlib.Data.List.Basic
import Mathlib.Data.List.Nodup
import Registrar.Client.Registration
import Registrar.Proofs.Program.Equations

/-!
# Arenas hold forests

`Arena.ofForest` lays a forest out and `Client.walk` registers what an arena holds. `Arena.Holds`
says that the tree of a reference stands in an arena from a position on, whatever stands elsewhere.
A forest that is not too high is held by its arena, and a walk over an arena that holds a forest is
the recursion `Client.postTrees` over the forest: what a walk over one tree registers lies behind
the positions of everything that was there before, so nothing is overwritten that is still to be
read.
-/

namespace Registrar

/-! ## Height -/

namespace SuppliedReference

mutual

/-- The number of levels of a tree. -/
def height : SuppliedReference → Nat
  | .mk _ _ _ rs => heightAll rs + 1

/-- The number of levels of a forest. -/
def heightAll : List SuppliedReference → Nat
  | [] => 0
  | r :: rs => max r.height (heightAll rs)

end

theorem height_eq (r : SuppliedReference) : r.height = heightAll r.references + 1 := by
  cases r; simp [height, references]

theorem height_le_heightAll {r : SuppliedReference} {rs : List SuppliedReference} (h : r ∈ rs) :
    r.height ≤ heightAll rs := by
  induction h with
  | head rs =>
    rw [heightAll]
    omega
  | tail s _ ih =>
    rw [heightAll]
    omega

theorem exists_height {rs : List SuppliedReference} {n : Nat} (h : n < heightAll rs) :
    ∃ r ∈ rs, n < r.height := by
  induction rs with
  | nil => simp [heightAll] at h
  | cons r rs ih =>
    by_cases hr : n < r.height
    · exact ⟨r, .head _, hr⟩
    · obtain ⟨s, hs, deep⟩ := ih (by rw [heightAll] at h; omega)
      exact ⟨s, .tail _ hs, deep⟩

/-- `Nested rs n r`: the reference `r` stands on level `n` of the forest `rs`. The references of the
forest are on level one. -/
inductive Nested (rs : List SuppliedReference) : Nat → SuppliedReference → Prop where
  | direct {r : SuppliedReference} (h : r ∈ rs) : Nested rs 1 r
  | inside {n : Nat} {r s : SuppliedReference} (h : Nested rs n r) (hs : s ∈ r.references) :
    Nested rs (n + 1) s

theorem Nested.height_le {rs : List SuppliedReference} {n : Nat} {r : SuppliedReference}
    (h : Nested rs n r) : n + r.height ≤ heightAll rs + 1 := by
  induction h with
  | direct h =>
    have := height_le_heightAll h
    omega
  | @inside n r s _ hs ih =>
    have := height_le_heightAll hs
    have := r.height_eq
    omega

theorem exists_nested {rs : List SuppliedReference} {n : Nat} (h : n < heightAll rs) :
    ∃ r, Nested rs (n + 1) r ∧ heightAll rs ≤ n + r.height := by
  induction n with
  | zero =>
    have low : heightAll rs - 1 < heightAll rs := by omega
    obtain ⟨r, hr, high⟩ := exists_height low
    exact ⟨r, .direct hr, by omega⟩
  | succ n ih =>
    obtain ⟨r, nested, high⟩ := ih (by omega)
    have := r.height_eq
    have low : heightAll r.references - 1 < heightAll r.references := by omega
    obtain ⟨s, hs, high'⟩ := exists_height low
    exact ⟨s, nested.inside hs, by omega⟩

/-- A forest is higher than a limit exactly if it has a reference on a level beyond the limit. -/
theorem lt_heightAll_iff {rs : List SuppliedReference} {limit : Nat} :
    limit < heightAll rs ↔ ∃ n r, limit < n ∧ Nested rs n r := by
  constructor
  · intro h
    obtain ⟨r, nested, -⟩ := exists_nested h
    exact ⟨limit + 1, r, Nat.lt_succ_self limit, nested⟩
  · rintro ⟨n, r, deep, nested⟩
    have := nested.height_le
    have := r.height_eq
    omega

end SuppliedReference

namespace Arena

/-! ## Holding -/

mutual

/-- The tree of a reference stands in the arena from position `i` on. -/
def Holds (a : Arena) (i : Nat) : SuppliedReference → Prop
  | .mk n s t rs => ∃ h : i < a.nodes.size, a.nodes[i].reference = .mk n s t rs ∧
    a.nodes[i].children.Pairwise (· < ·) ∧ HoldsAll a a.nodes[i].children rs

/-- The trees of a forest stand in the arena from these positions on. -/
def HoldsAll (a : Arena) : List Nat → List SuppliedReference → Prop
  | [], [] => True
  | i :: is, r :: rs => Holds a i r ∧ HoldsAll a is rs
  | _, _ => False

end

theorem holds_iff {a : Arena} {i : Nat} {r : SuppliedReference} :
    a.Holds i r ↔ ∃ h : i < a.nodes.size, a.nodes[i].reference = r ∧
      a.nodes[i].children.Pairwise (· < ·) ∧ a.HoldsAll a.nodes[i].children r.references := by
  cases r
  rfl

theorem holdsAll_range' {a : Arena} {rs : List SuppliedReference} {first : Nat}
    (h : ∀ k r, rs[k]? = some r → a.Holds (first + k) r) :
    a.HoldsAll (List.range' first rs.length) rs := by
  induction rs generalizing first with
  | nil => trivial
  | cons r rs ih =>
    refine ⟨h 0 r rfl, ih fun k r hr => ?_⟩
    have := h (k + 1) r hr
    rwa [Nat.add_comm k 1, ← Nat.add_assoc] at this

/-! ## Laying out -/

theorem expand_size (a : Arena) (i depth : Nat) (below : List SuppliedReference) :
    (a.expand i depth below).nodes.size = a.nodes.size + below.length := by
  simp [expand]

theorem expand_self {a : Arena} {i : Nat} {n : Node} (h : a.nodes[i]? = some n) (depth : Nat)
    (below : List SuppliedReference) :
    (a.expand i depth below).nodes[i]? =
      some { n with children := List.range' a.nodes.size below.length } := by
  obtain ⟨lt, rfl⟩ := Array.getElem?_eq_some_iff.1 h
  simp [expand, Array.getElem?_append, Array.getElem_modify, lt]

theorem expand_old {a : Arena} {i j : Nat} (h : j < a.nodes.size) (ne : j ≠ i) (depth : Nat)
    (below : List SuppliedReference) : (a.expand i depth below).nodes[j]? = a.nodes[j]? := by
  simp [expand, Array.getElem?_append, Array.getElem_modify, h, ne.symm]

theorem expand_new {a : Arena} {k : Nat} {below : List SuppliedReference} {r : SuppliedReference}
    (h : below[k]? = some r) (i depth : Nat) :
    (a.expand i depth below).nodes[a.nodes.size + k]? = some (leaf (depth + 1) r) := by
  simp [expand, Array.getElem?_append, h]

theorem Pending.of_mem_below {first depth : Nat} {rs : List SuppliedReference} {p : Pending}
    (h : p ∈ below first depth rs) :
    ∃ k, rs[k]? = some p.reference ∧ p.index = first + k ∧ p.depth = depth := by
  simp only [below, List.mem_reverse, List.mem_map] at h
  obtain ⟨⟨r, j⟩, hr, rfl⟩ := h
  obtain ⟨le, hj⟩ := List.mk_mem_zipIdx_iff_le_and_getElem?_sub.1 hr
  exact ⟨j - first, hj, (Nat.add_sub_cancel' le).symm, rfl⟩

theorem Pending.mem_below {first depth k : Nat} {rs : List SuppliedReference}
    {r : SuppliedReference} (h : rs[k]? = some r) :
    ⟨first + k, r, depth⟩ ∈ below first depth rs := by
  simp only [below, List.mem_reverse, List.mem_map]
  exact ⟨(r, first + k), List.mk_add_mem_zipIdx_iff_getElem?.2 h, rfl⟩

theorem Pending.indices_below (first depth : Nat) (rs : List SuppliedReference) :
    (below first depth rs).map (·.index) = (List.range' first rs.length).reverse := by
  simp [below, List.map_reverse, Function.comp_def]

/-- The nodes that wait for expansion are different leaves, and the trees above them are not too
high. -/
structure Pending.Fresh (limit : Nat) (a : Arena) (ps : List Pending) : Prop where
  fits : ∀ p ∈ ps, p.depth + p.reference.height ≤ limit + 1
  leaf : ∀ p ∈ ps, a.nodes[p.index]? = some (Arena.leaf p.depth p.reference)
  apart : (ps.map (·.index)).Nodup

/-- When a node has been expanded its children wait for expansion. -/
theorem Pending.Fresh.expand {limit : Nat} {a : Arena} {p : Pending} {rest : List Pending}
    (h : Fresh limit a (p :: rest)) :
    Fresh limit (a.expand p.index p.depth p.reference.references)
      (below a.nodes.size (p.depth + 1) p.reference.references ++ rest) where
  fits q hq := by
    rcases List.mem_append.1 hq with hq | hq
    · obtain ⟨k, hk, -, hd⟩ := of_mem_below hq
      have high := SuppliedReference.height_le_heightAll (List.mem_of_getElem? hk)
      have := h.fits p (.head _)
      rw [p.reference.height_eq] at this
      omega
    · exact h.fits q (.tail _ hq)
  leaf q hq := by
    rcases List.mem_append.1 hq with hq | hq
    · obtain ⟨k, hk, hi, hd⟩ := of_mem_below hq
      rw [hi, hd]
      exact expand_new hk _ _
    · have old := h.leaf q (.tail _ hq)
      have ne : q.index ≠ p.index := by
        intro e
        exact (List.nodup_cons.1 h.apart).1 (List.mem_map.2 ⟨q, hq, e⟩)
      rw [expand_old (Array.getElem?_eq_some_iff.1 old).1 ne]
      exact old
  apart := by
    rw [List.map_append, indices_below, List.nodup_append']
    refine ⟨List.nodup_reverse.2 List.nodup_range', (List.nodup_cons.1 h.apart).2, ?_⟩
    intro i hi hi'
    obtain ⟨q, hq, rfl⟩ := List.mem_map.1 hi'
    have old := (Array.getElem?_eq_some_iff.1 (h.leaf q (.tail _ hq))).1
    simp only [List.mem_reverse, List.mem_range'_1] at hi
    omega

/-- The arena that comes of expanding nodes holds the trees of these nodes, and its other nodes are
as they were. -/
theorem grow_holds {limit : Nat} {a : Arena} {ps : List Pending} (h : Pending.Fresh limit a ps) :
    ∃ b, grow limit a ps = .ok b ∧ (∀ p ∈ ps, b.Holds p.index p.reference) ∧
      ∀ i < a.nodes.size, i ∉ ps.map (·.index) → b.nodes[i]? = a.nodes[i]? := by
  fun_induction grow limit a ps with
  | case1 a => exact ⟨a, rfl, by simp, fun _ _ _ => rfl⟩
  | case2 a p rest deep =>
    have := h.fits p (.head _)
    rw [p.reference.height_eq] at this
    omega
  | case3 a p rest deep ih =>
    obtain ⟨b, hb, holds, same⟩ := ih h.expand
    have leaf := h.leaf p (.head _)
    have lt := (Array.getElem?_eq_some_iff.1 leaf).1
    have others : ∀ i < a.nodes.size, i ∉ rest.map (·.index) →
        b.nodes[i]? = (a.expand p.index p.depth p.reference.references).nodes[i]? := by
      intro i hi hn
      refine same i (by rw [expand_size]; omega) ?_
      rw [List.map_append, Pending.indices_below]
      simp only [List.mem_append, List.mem_reverse, List.mem_range'_1]
      rintro (h | h)
      · omega
      · exact hn h
    refine ⟨b, hb, ?_, ?_⟩
    · rintro q (_ | ⟨_, hq⟩)
      · have node := (others p.index lt (List.nodup_cons.1 h.apart).1).trans (expand_self leaf _ _)
        obtain ⟨hi, node⟩ := Array.getElem?_eq_some_iff.1 node
        rw [holds_iff]
        refine ⟨hi, by rw [node]; rfl, by rw [node]; exact List.pairwise_lt_range', ?_⟩
        rw [node]
        refine holdsAll_range' fun k r hr => ?_
        exact holds _ (List.mem_append_left _ (Pending.mem_below hr))
      · exact holds q (List.mem_append_right _ hq)
    · intro i hi hn
      rw [List.map_cons, List.mem_cons, not_or] at hn
      rw [others i hi hn.2, expand_old hi hn.1]

/-- At the start all roots wait. -/
theorem Pending.fresh_ofRoots {limit : Nat} {roots : List SuppliedReference}
    (h : SuppliedReference.heightAll roots ≤ limit) :
    Fresh limit (ofRoots roots) (below 0 1 roots) where
  fits p hp := by
    obtain ⟨k, hk, -, hd⟩ := of_mem_below hp
    have fits := SuppliedReference.height_le_heightAll (List.mem_of_getElem? hk)
    omega
  leaf p hp := by
    obtain ⟨k, hk, hi, hd⟩ := of_mem_below hp
    simp [ofRoots, hi, hd, hk]
  apart := by
    rw [indices_below]
    exact List.nodup_reverse.2 List.nodup_range'

/-- A forest that is not too high has an arena, which holds it. -/
theorem ofForest_holds {limit : Nat} {roots : List SuppliedReference}
    (h : SuppliedReference.heightAll roots ≤ limit) :
    ∃ a, ofForest limit roots = .ok a ∧ a.HoldsAll (List.range roots.length) roots := by
  obtain ⟨a, ha, holds, -⟩ := grow_holds (Pending.fresh_ofRoots h)
  refine ⟨a, ha, ?_⟩
  rw [List.range_eq_range']
  exact holdsAll_range' fun k r hr => holds _ (Pending.mem_below hr)

/-- A node that waits above a tree which is too high ends the expansion. -/
theorem grow_deep {limit : Nat} {a : Arena} {ps : List Pending}
    (h : ∃ p ∈ ps, limit + 1 < p.depth + p.reference.height) :
    ∃ e, grow limit a ps = .error e := by
  fun_induction grow limit a ps with
  | case1 a => simp at h
  | case2 a p rest deep => exact ⟨_, rfl⟩
  | case3 a p rest deep ih =>
    refine ih ?_
    obtain ⟨q, hq, high⟩ := h
    rcases List.mem_cons.1 hq with rfl | hq
    · rw [q.reference.height_eq] at high
      have higher : limit - q.depth < SuppliedReference.heightAll q.reference.references := by omega
      obtain ⟨r, hr, high'⟩ := SuppliedReference.exists_height higher
      obtain ⟨i, hi⟩ := List.mem_iff_getElem?.1 hr
      refine ⟨_, List.mem_append_left _ (Pending.mem_below hi), ?_⟩
      dsimp only
      omega
    · exact ⟨q, List.mem_append_right _ hq, high⟩

/-- An expansion ends with an error at a reference on a level beyond the limit. -/
theorem of_grow_error {limit : Nat} {a : Arena} {ps : List Pending} {roots : List SuppliedReference}
    (h : ∀ p ∈ ps, SuppliedReference.Nested roots p.depth p.reference) {e : ResolutionError}
    (failed : grow limit a ps = .error e) :
    ∃ n r, limit < n ∧ SuppliedReference.Nested roots n r ∧ e = .tooDeep limit r.subject := by
  fun_induction grow limit a ps with
  | case1 a => cases failed
  | case2 a p rest deep =>
    cases failed
    exact ⟨p.depth, p.reference, deep, h p (.head _), rfl⟩
  | case3 a p rest deep ih =>
    refine ih (fun q hq => ?_) failed
    rcases List.mem_append.1 hq with hq | hq
    · obtain ⟨k, hk, -, hd⟩ := Pending.of_mem_below hq
      rw [hd]
      exact (h p (.head _)).inside (List.mem_of_getElem? hk)
    · exact h q (.tail _ hq)

theorem of_ofForest_error {limit : Nat} {roots : List SuppliedReference} {e : ResolutionError}
    (failed : ofForest limit roots = .error e) :
    ∃ n r, limit < n ∧ SuppliedReference.Nested roots n r ∧ e = .tooDeep limit r.subject := by
  refine of_grow_error (fun p hp => ?_) failed
  obtain ⟨k, hk, -, hd⟩ := Pending.of_mem_below hp
  rw [hd]
  exact .direct (List.mem_of_getElem? hk)

/-- A forest that is too high has no arena. -/
theorem ofForest_deep {limit : Nat} {roots : List SuppliedReference}
    (h : limit < SuppliedReference.heightAll roots) : ∃ e, ofForest limit roots = .error e := by
  obtain ⟨r, hr, high⟩ := SuppliedReference.exists_height h
  obtain ⟨i, hi⟩ := List.mem_iff_getElem?.1 hr
  refine grow_deep ⟨_, Pending.mem_below hi, ?_⟩
  dsimp only
  omega

end Arena

/-! ## Walking -/

namespace Client

open Routine

variable {I : Interface} {α : Type}

mutual

/-- Registers the tree of a reference. -/
def postTree (c : Client I) (type : SchemaType) :
    SuppliedReference → Routine I RegisteredReference
  | .mk name subject text rs => do
    let below ← c.postTrees type rs
    c.postReference (.ofString subject) name type text below

/-- Registers the trees of a forest from left to right. -/
def postTrees (c : Client I) (type : SchemaType) :
    List SuppliedReference → Routine I (List RegisteredReference)
  | [] => return []
  | r :: rs => do
    let first ← c.postTree type r
    let others ← c.postTrees type rs
    return first :: others

end

/-- These references are registered at these positions. -/
def Registered.Agrees (done : Registered) (is : List Nat) (rs : List RegisteredReference) : Prop :=
  List.Forall₂ (fun i r => Assoc.get? i done = some r) is rs

theorem mapM_at {done : Registered} {is : List Nat} {rs : List RegisteredReference}
    (h : done.Agrees is rs) : is.mapM done.at = (pure rs : Routine I _) := by
  induction h with
  | nil => rfl
  | cons hi _ ih => simp [List.mapM_cons, Registered.at, hi, ih]

section

variable (c : Client I) (type : SchemaType) {a : Arena} (m : Registered → Routine I α)
  (g : Failure → Routine I α)

mutual

/-- A walk over a tree registers it and goes on; what was registered below its position stays. -/
theorem walk_tree (rest : List Arena.Stop) (done : Registered) {i : Nat} :
    (r : SuppliedReference) → a.Holds i r → (f : RegisteredReference → Routine I α) →
    (∀ (done' : Registered) x, (∀ j < i, Assoc.get? j done' = Assoc.get? j done) →
      Assoc.get? i done' = some x → attempt (c.walk type a rest done') >>= handling m g = f x) →
    attempt (c.walk type a (.enter i :: rest) done) >>= handling m g =
      attempt (c.postTree type r) >>= handling f g
  | .mk name subject text rs, h, f, hf => by
    obtain ⟨hi, href, sorted, below⟩ := h
    rw [walk, dif_pos hi, postTree, attempt_bind]
    refine walk_trees _ done rs below sorted (i + 1) (a.forward i hi) _ fun done' xs keep
      agrees => ?_
    rw [walk, dif_pos hi]
    simp only [mapM_at agrees, pure_bind, href, attempt_bind]
    congr 2
    funext x
    refine hf _ x (fun j hj => ?_) (Assoc.get?_put_self ..)
    rw [Assoc.get?_put_of_ne (Nat.ne_of_lt hj), keep j (by omega)]

/-- A walk over a forest registers it and goes on; what was registered below its positions stays. -/
theorem walk_trees (rest : List Arena.Stop) (done : Registered) {is : List Nat} :
    (rs : List SuppliedReference) → a.HoldsAll is rs → is.Pairwise (· < ·) → (bound : Nat) →
    (∀ i ∈ is, bound ≤ i) → (f : List RegisteredReference → Routine I α) →
    (∀ (done' : Registered) xs, (∀ j < bound, Assoc.get? j done' = Assoc.get? j done) →
      done'.Agrees is xs → attempt (c.walk type a rest done') >>= handling m g = f xs) →
    attempt (c.walk type a (is.map .enter ++ rest) done) >>= handling m g =
      attempt (c.postTrees type rs) >>= handling f g
  | [], h, _, _, _, f, hf => by
    cases is with
    | nil => exact hf done [] (fun _ _ => rfl) .nil
    | cons => exact h.elim
  | r :: rs, h, sorted, bound, above, f, hf => by
    cases is with
    | nil => exact h.elim
    | cons i is =>
      obtain ⟨later, sorted⟩ := List.pairwise_cons.1 sorted
      rw [postTrees, attempt_bind]
      refine walk_tree _ done r h.1 _ fun done₁ x keep₁ hx => ?_
      rw [attempt_bind]
      refine walk_trees rest done₁ rs h.2 sorted (i + 1) later _ fun done₂ xs keep₂ agrees => ?_
      rw [attempt_pure_bind]
      have le := above i (.head _)
      refine hf done₂ (x :: xs) (fun j hj => ?_) (.cons ?_ agrees)
      · rw [keep₂ j (by omega), keep₁ j (by omega)]
      · rw [keep₂ i (Nat.lt_succ_self i), hx]

end

end

/-- A forest that is not too high is registered by recursion over its trees. -/
theorem registerForest_eq (c : Client I) (type : SchemaType) {roots : List SuppliedReference}
    (h : SuppliedReference.heightAll roots ≤ c.settings.maxDepth) :
    c.registerForest type roots = rewording referenceError (c.postTrees type roots) := by
  obtain ⟨a, ha, holds⟩ := Arena.ofForest_holds h
  unfold registerForest
  cases roots with
  | nil => rfl
  | cons r rs =>
    have walked := walk_trees c type (fun done => (List.range (rs.length + 1)).mapM done.at)
      (fun e => throw (reworded referenceError e)) [] [] (r :: rs) holds List.pairwise_lt_range 0
      (by simp) pure fun done xs _ agrees => by
        rw [walk, attempt_pure_bind]
        exact mapM_at agrees
    rw [List.append_nil] at walked
    simp only [ha, Routine.resolving, pure_bind, rewording_bind]
    refine walked.trans ?_
    rw [← rewording_bind, bind_pure]

/-- A forest that is too high is refused because of a reference on a level beyond the limit. -/
theorem registerForest_refused (c : Client I) (type : SchemaType) {roots : List SuppliedReference}
    (h : c.settings.maxDepth < SuppliedReference.heightAll roots) :
    ∃ n r, c.settings.maxDepth < n ∧ SuppliedReference.Nested roots n r ∧
      c.registerForest type roots =
        fail (referenceError (.tooDeep c.settings.maxDepth r.subject)) := by
  obtain ⟨e, he⟩ := Arena.ofForest_deep h
  obtain ⟨n, r, deep, nested, rfl⟩ := Arena.of_ofForest_error he
  refine ⟨n, r, deep, nested, ?_⟩
  unfold registerForest
  cases roots with
  | nil => simp [SuppliedReference.heightAll] at h
  | cons r rs =>
    simp only [he, Routine.resolving, rewording_bind]
    rfl

/-- Nothing of a forest that is too high is registered. -/
theorem registerForest_deep (c : Client I) (type : SchemaType) {roots : List SuppliedReference}
    (h : c.settings.maxDepth < SuppliedReference.heightAll roots) :
    ∃ e, c.registerForest type roots = fail e := by
  obtain ⟨n, r, -, -, refused⟩ := registerForest_refused c type h
  exact ⟨_, refused⟩

end Client

end Registrar
