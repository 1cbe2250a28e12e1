import Registrar.Proofs.Client.Forest

/-!
# Arenas represent forests

A reference occurs in a forest at a place: it is a root, or one of the references below the one at
another place. An arena `Represents` a forest if each of its nodes stands for one occurrence of a
reference. The forest can then be read from the roots and the children alone.

While an arena grows, its nodes are linked as they will be, but those which wait have no children
yet. `LaidOut` says so, and every expansion keeps it.
-/

namespace Registrar

/-! ## Places -/

/-- A place in a forest: that of a root, by its number, or one inside the tree at a place, by its
number among the siblings. -/
inductive Place where
  | root (k : Nat)
  | inside (p : Place) (k : Nat)
  deriving DecidableEq, Repr

/-- The level of a place; the roots are on level one. -/
def Place.level : Place → Nat
  | .root _ => 1
  | .inside p _ => p.level + 1

/-- The reference that occurs at a place. -/
def SuppliedReference.at? (roots : List SuppliedReference) : Place → Option SuppliedReference
  | .root k => roots[k]?
  | .inside p k => (at? roots p).bind fun r => r.references[k]?

namespace Arena

/-- The reference in the node at a position. -/
def reference? (a : Arena) (i : Nat) : Option SuppliedReference := a.nodes[i]?.map (·.reference)

/-- The position of the node for a place, where the first `n` nodes are the roots. -/
def at? (a : Arena) (n : Nat) : Place → Option Nat
  | .root k => if k < n then some k else none
  | .inside p k => (a.at? n p).bind fun i => a.nodes[i]?.bind fun x => x.children[k]?

/-- The children of all nodes. -/
def allChildren (a : Arena) : List Nat := a.nodes.toList.flatMap (·.children)

/-- The tree that the children span from a position on. The references below the reference in a
node are not looked at. -/
def tree (a : Arena) (i : Nat) : Option SuppliedReference :=
  if h : i < a.nodes.size then
    let r := a.nodes[i].reference
    (a.nodes[i].children.attach.mapM fun c => a.tree c.val).map (.mk r.name r.subject r.text ·)
  else none
termination_by a.nodes.size - i
decreasing_by
  have := a.forward i h c.val c.property
  omega

/-- Each node of the arena stands for one occurrence of a reference in the forest. -/
structure Represents (a : Arena) (roots : List SuppliedReference) : Prop where
  size : a.nodes.size = SuppliedReference.sizeAll roots
  /-- The first nodes are the roots. -/
  first : (List.range roots.length).map a.reference? = roots.map some
  /-- Children stand in the arena, behind their parent. -/
  behind : ∀ i n, a.nodes[i]? = some n → ∀ c ∈ n.children, i < c ∧ c < a.nodes.size
  /-- Every node that is no root is a child once, and no root is one. -/
  once : a.allChildren.Perm (List.range' roots.length (a.nodes.size - roots.length))
  /-- The children of a node are the references below its reference. -/
  below : ∀ n ∈ a.nodes, n.children.map a.reference? = n.reference.references.map some
  /-- The node for a place holds the reference that occurs there. -/
  occurs : ∀ p, (a.at? roots.length p).bind a.reference? = SuppliedReference.at? roots p
  /-- Every node is the one for a single place. -/
  single : ∀ i < a.nodes.size, ∃! p, a.at? roots.length p = some i
  level : ∀ p i n, a.at? roots.length p = some i → a.nodes[i]? = some n → n.depth = p.level
  /-- What the children span from the roots on is the forest. -/
  unfolds : (List.range roots.length).mapM a.tree = some roots

variable {a : Arena} {i j depth limit : Nat} {n : Node} {r : SuppliedReference}
  {rs roots : List SuppliedReference} {ps : List Pending}

/-! ## Expanding a node -/

theorem reference?_of_node (h : a.nodes[i]? = some n) : a.reference? i = some n.reference := by
  simp [reference?, h]

/-- A node of an arena that was expanded was there before, with the same children unless it is the
one that was expanded, or it is one of the new leaves. -/
theorem of_expand (h : (a.expand i depth rs).nodes[j]? = some n) :
    (∃ m, a.nodes[j]? = some m ∧ n.reference = m.reference ∧ n.depth = m.depth ∧
      n.children = if j = i then List.range' a.nodes.size rs.length else m.children) ∨
    ∃ k r, j = a.nodes.size + k ∧ rs[k]? = some r ∧ n = leaf (depth + 1) r := by
  by_cases old : j < a.nodes.size
  · obtain ⟨m, hm⟩ : ∃ m, a.nodes[j]? = some m := ⟨_, Array.getElem?_eq_getElem old⟩
    by_cases same : j = i
    · subst same
      rw [expand_self hm] at h
      cases h
      exact .inl ⟨m, hm, rfl, rfl, (if_pos rfl).symm⟩
    · rw [expand_old old same, hm] at h
      cases h
      exact .inl ⟨n, hm, rfl, rfl, (if_neg same).symm⟩
  · obtain ⟨k, rfl⟩ := Nat.exists_eq_add_of_le (Nat.le_of_not_lt old)
    have bound := (Array.getElem?_eq_some_iff.1 h).1
    rw [expand_size] at bound
    have hk : rs[k]? = some rs[k] := List.getElem?_eq_getElem (by omega)
    rw [expand_new hk] at h
    cases h
    exact .inr ⟨k, _, rfl, hk, rfl⟩

theorem reference?_expand (h : j < a.nodes.size) (i depth : Nat)
    (rs : List SuppliedReference) :
    (a.expand i depth rs).reference? j = a.reference? j := by
  have there : j < (a.expand i depth rs).nodes.size := by
    rw [expand_size]
    omega
  have node := Array.getElem?_eq_getElem there
  obtain ⟨m, hm, same, -⟩ | ⟨k, r, rfl, -⟩ := of_expand node
  · rw [reference?_of_node hm, reference?_of_node node, same]
  · omega

theorem reference?_expand_new (a : Arena) (i depth : Nat) (rs : List SuppliedReference) :
    (List.range' a.nodes.size rs.length).map (a.expand i depth rs).reference? =
      rs.map some := by
  refine List.ext_getElem? fun k => ?_
  by_cases hk : k < rs.length
  · have new : rs[k]? = some rs[k] := List.getElem?_eq_getElem hk
    simp [hk, reference?_of_node (expand_new new i depth), leaf]
  · simp [hk]

/-- When a leaf is expanded its children come to the others. -/
theorem allChildren_expand (h : a.nodes[i]? = some (leaf depth r))
    (rs : List SuppliedReference) :
    (a.expand i depth rs).allChildren.Perm
      (a.allChildren ++ List.range' a.nodes.size rs.length) := by
  obtain ⟨lt, node⟩ := Array.getElem?_eq_some_iff.1 h
  have bound : i < a.nodes.toList.length := lt
  have here : a.nodes.toList[i] = leaf depth r := node
  let front := (a.nodes.toList.take i).flatMap (·.children)
  let back := (a.nodes.toList.drop (i + 1)).flatMap (·.children)
  have before : a.allChildren = front ++ back := by
    rw [allChildren]
    nth_rewrite 1 [← List.take_append_drop i a.nodes.toList]
    rw [List.drop_eq_getElem_cons bound, here]
    simp [leaf, front, back]
  have after : (a.expand i depth rs).allChildren =
      front ++ (List.range' a.nodes.size rs.length ++ back) := by
    simp [allChildren, expand, List.modify_eq_take_cons_drop bound, leaf, front, back,
      List.flatMap_map]
  rw [before, after, List.append_assoc]
  exact List.Perm.append_left _ List.perm_append_comm

/-! ## Growing -/

theorem Pending.length_below (first depth : Nat) (rs : List SuppliedReference) :
    (below first depth rs).length = rs.length := by
  simp [below]

/-- The forest is laid out in the arena, except for what is below the nodes that wait. -/
structure LaidOut (roots : List SuppliedReference) (a : Arena) (ps : List Pending) : Prop where
  wide : roots.length ≤ a.nodes.size
  /-- Of each tree that waits the root is in the arena. -/
  size : a.nodes.size + Pending.size ps = SuppliedReference.sizeAll roots + ps.length
  first : (List.range roots.length).map a.reference? = roots.map some
  once : a.allChildren.Perm (List.range' roots.length (a.nodes.size - roots.length))
  below : ∀ (i : Nat) (n : Node), a.nodes[i]? = some n → i ∉ ps.map (·.index) →
    n.children.map a.reference? = n.reference.references.map some
  rootLevel : ∀ (i : Nat) (n : Node), a.nodes[i]? = some n → i < roots.length → n.depth = 1
  childLevel : ∀ (i : Nat) (n : Node) (c : Nat) (m : Node), a.nodes[i]? = some n → c ∈ n.children →
    a.nodes[c]? = some m → m.depth = n.depth + 1

/-- At the start the roots are there, and all of them wait. -/
theorem laidOut_ofRoots (roots : List SuppliedReference) :
    LaidOut roots (ofRoots roots) (Pending.below 0 1 roots) where
  wide := by simp [ofRoots]
  size := by simp [ofRoots, Pending.size_below, Pending.length_below, Nat.add_comm]
  first := by
    refine List.ext_getElem? fun k => ?_
    by_cases hk : k < roots.length
    · simp [hk, reference?, ofRoots, leaf]
    · simp [hk]
  once := by simp [allChildren, ofRoots, leaf, List.flatMap_map]
  below i n hn waits := by
    rw [Pending.indices_below] at waits
    have bound := (Array.getElem?_eq_some_iff.1 hn).1
    simp [ofRoots] at bound
    simp [bound] at waits
  rootLevel i n hn _ := by
    simp only [ofRoots, List.getElem?_toArray, List.getElem?_map, Option.map_eq_some_iff] at hn
    obtain ⟨r, -, rfl⟩ := hn
    rfl
  childLevel i n c m hn hc := by
    simp only [ofRoots, List.getElem?_toArray, List.getElem?_map, Option.map_eq_some_iff] at hn
    obtain ⟨r, -, rfl⟩ := hn
    cases hc

namespace LaidOut

theorem mem_allChildren (h : LaidOut roots a ps) {c : Nat} :
    c ∈ a.allChildren ↔ roots.length ≤ c ∧ c < a.nodes.size := by
  have := h.wide
  rw [h.once.mem_iff, List.mem_range'_1]
  omega

theorem mem_of_child (h : LaidOut roots a ps) {c : Nat} (hn : a.nodes[i]? = some n)
    (hc : c ∈ n.children) : roots.length ≤ c ∧ c < a.nodes.size :=
  have there : n ∈ a.nodes.toList := Array.mem_toList_iff.2 (Array.mem_of_getElem? hn)
  h.mem_allChildren.1 (List.mem_flatMap.2 ⟨n, there, hc⟩)

/-- The references of the children stay when a node is expanded. -/
theorem map_reference?_expand (h : LaidOut roots a ps) (hn : a.nodes[i]? = some n) (j depth : Nat)
    (rs : List SuppliedReference) :
    n.children.map (a.expand j depth rs).reference? = n.children.map a.reference? :=
  List.map_congr_left fun _ hc => reference?_expand (h.mem_of_child hn hc).2 j depth rs

/-- A node that waits is expanded, and its children wait in its place. -/
theorem expand {p : Pending} {rest : List Pending} (h : LaidOut roots a (p :: rest))
    (fresh : Pending.Fresh limit a (p :: rest)) :
    LaidOut roots (a.expand p.index p.depth p.reference.references)
      (Pending.below a.nodes.size (p.depth + 1) p.reference.references ++ rest) := by
  have leaf := fresh.leaf p (.head _)
  have lt := (Array.getElem?_eq_some_iff.1 leaf).1
  have wide := h.wide
  constructor
  case wide =>
    rw [expand_size]
    omega
  case size =>
    have size := h.size
    have split := p.reference.size_eq
    simp only [Pending.size, List.map_cons, List.map_append, SuppliedReference.sizeAll,
      SuppliedReference.sizeAll_append, List.length_cons, List.length_append] at size ⊢
    have below := Pending.size_below a.nodes.size (p.depth + 1) p.reference.references
    rw [Pending.size] at below
    rw [expand_size, Pending.length_below]
    omega
  case first =>
    rw [← h.first]
    refine List.map_congr_left fun k hk => reference?_expand ?_ _ _ _
    have := List.mem_range.1 hk
    omega
  case once =>
    refine (allChildren_expand leaf p.reference.references).trans ?_
    refine (h.once.append_right _).trans (.of_eq ?_)
    rw [expand_size]
    have join := List.range'_append_1 (s := roots.length) (m := a.nodes.size - roots.length)
      (n := p.reference.references.length)
    rw [Nat.add_sub_cancel' wide] at join
    rw [join]
    congr 1
    omega
  case below =>
    intro i n hn waits
    rw [List.map_append, Pending.indices_below, List.mem_append, not_or, List.mem_reverse,
      List.mem_range'_1] at waits
    obtain ⟨m, hm, same, -, children⟩ | ⟨k, r, rfl, hk, -⟩ := of_expand hn
    · rw [children, same]
      split
      · rename_i here
        subst here
        rw [leaf] at hm
        cases hm
        exact reference?_expand_new a _ _ _
      · rename_i other
        rw [h.map_reference?_expand hm]
        refine h.below i m hm ?_
        simp only [List.map_cons, List.mem_cons, not_or]
        exact ⟨other, waits.2⟩
    · have := (List.getElem?_eq_some_iff.1 hk).1
      omega
  case rootLevel =>
    intro i n hn hi
    obtain ⟨m, hm, -, same, -⟩ | ⟨k, r, rfl, -⟩ := of_expand hn
    · rw [same]
      exact h.rootLevel i m hm hi
    · omega
  case childLevel =>
    intro i n c m hn hc hm
    obtain ⟨n', hn', -, same, children⟩ | ⟨k, r, rfl, -, rfl⟩ := of_expand hn
    · rw [children] at hc
      split at hc
      · rename_i here
        subst here
        rw [leaf] at hn'
        cases hn'
        obtain ⟨m', hm', -⟩ | ⟨k, r, -, -, rfl⟩ := of_expand hm
        · have := (Array.getElem?_eq_some_iff.1 hm').1
          simp only [List.mem_range'_1] at hc
          omega
        · rw [same]
          rfl
      · obtain ⟨m', hm', -, same', -⟩ | ⟨k, r, rfl, -⟩ := of_expand hm
        · rw [same, same']
          exact h.childLevel i n' c m' hn' hc hm'
        · have := (h.mem_of_child hn' hc).2
          omega
    · cases hc

/-- An expansion that ends leaves the whole forest laid out. -/
theorem grow (h : LaidOut roots a ps) (fresh : Pending.Fresh limit a ps) {b : Arena}
    (grown : Arena.grow limit a ps = .ok b) : LaidOut roots b [] := by
  fun_induction Arena.grow limit a ps with
  | case1 a =>
    cases grown
    exact h
  | case2 a p rest deep => cases grown
  | case3 a p rest deep ih => exact ih (h.expand fresh) fresh.expand grown

/-! ## Places in an arena -/

theorem exists_parent (h : LaidOut roots a ps) {c : Nat} (low : roots.length ≤ c)
    (high : c < a.nodes.size) :
    ∃ (i : Nat) (n : Node) (k : Nat), a.nodes[i]? = some n ∧ n.children[k]? = some c := by
  obtain ⟨n, hn, hc⟩ := List.mem_flatMap.1 (h.mem_allChildren.2 ⟨low, high⟩)
  obtain ⟨i, hi⟩ := Array.getElem?_of_mem (Array.mem_toList_iff.1 hn)
  obtain ⟨k, hk⟩ := List.getElem?_of_mem hc
  exact ⟨i, n, k, hi, hk⟩

/-- A node is the child of one node, and one of its children only. -/
theorem eq_of_child (h : LaidOut roots a ps) {m : Node} {k l c : Nat} (hn : a.nodes[i]? = some n)
    (hk : n.children[k]? = some c) (hm : a.nodes[j]? = some m) (hl : m.children[l]? = some c) :
    i = j ∧ k = l := by
  obtain ⟨each, apart⟩ := List.nodup_flatMap.1 (h.once.nodup_iff.2 List.nodup_range')
  have distinct {i j : Nat} {n m : Node} (lt : i < j) (hn : a.nodes[i]? = some n)
      (hm : a.nodes[j]? = some m) : List.Disjoint n.children m.children := by
    obtain ⟨hi, rfl⟩ := Array.getElem?_eq_some_iff.1 hn
    obtain ⟨hj, rfl⟩ := Array.getElem?_eq_some_iff.1 hm
    exact List.pairwise_iff_getElem.1 apart i j hi hj lt
  have left := List.mem_of_getElem? hk
  have right := List.mem_of_getElem? hl
  obtain rfl : i = j := by
    rcases Nat.lt_trichotomy i j with lt | same | lt
    · exact (distinct lt hn hm left right).elim
    · exact same
    · exact (distinct lt hm hn right left).elim
  cases hn.symm.trans hm
  have nodup := each n (Array.mem_toList_iff.2 (Array.mem_of_getElem? hn))
  exact ⟨rfl, (List.getElem?_inj (List.getElem?_eq_some_iff.1 hk).1 nodup).1 (hk.trans hl.symm)⟩

end LaidOut

theorem at?_inside {p : Place} {m k c : Nat} :
    a.at? m (.inside p k) = some c ↔
      ∃ i n, a.at? m p = some i ∧ a.nodes[i]? = some n ∧ n.children[k]? = some c := by
  simp [at?, Option.bind_eq_some_iff]

theorem at?_root {m k i : Nat} : a.at? m (.root k) = some i ↔ i = k ∧ k < m := by
  simp [at?, eq_comm, and_comm]

namespace LaidOut

/-- Every node has a place. The induction is on its position, since its parent stands before it. -/
theorem exists_place (h : LaidOut roots a ps) (hi : i < a.nodes.size) :
    ∃ p, a.at? roots.length p = some i := by
  induction i using Nat.strongRecOn with
  | _ i ih =>
    by_cases root : i < roots.length
    · exact ⟨.root i, at?_root.2 ⟨rfl, root⟩⟩
    · obtain ⟨j, n, k, hn, hk⟩ := h.exists_parent (Nat.le_of_not_lt root) hi
      obtain ⟨lt, node⟩ := Array.getElem?_eq_some_iff.1 hn
      have before := a.forward j lt i (node ▸ List.mem_of_getElem? hk)
      obtain ⟨p, hp⟩ := ih j before lt
      exact ⟨.inside p k, at?_inside.2 ⟨j, n, hp, hn, hk⟩⟩

/-- A node has one place only. -/
theorem place_unique (h : LaidOut roots a ps) {p q : Place} (hp : a.at? roots.length p = some i)
    (hq : a.at? roots.length q = some i) : p = q := by
  induction p generalizing q i with
  | root k =>
    obtain ⟨rfl, root⟩ := at?_root.1 hp
    cases q with
    | root l =>
      obtain ⟨rfl, -⟩ := at?_root.1 hq
      rfl
    | inside q l =>
      obtain ⟨j, n, -, hn, hl⟩ := at?_inside.1 hq
      have := (h.mem_of_child hn (List.mem_of_getElem? hl)).1
      omega
  | inside p k ih =>
    obtain ⟨j, n, hj, hn, hk⟩ := at?_inside.1 hp
    cases q with
    | root l =>
      obtain ⟨rfl, root⟩ := at?_root.1 hq
      have := (h.mem_of_child hn (List.mem_of_getElem? hk)).1
      omega
    | inside q l =>
      obtain ⟨j', n', hj', hn', hl⟩ := at?_inside.1 hq
      obtain ⟨rfl, rfl⟩ := h.eq_of_child hn hk hn' hl
      rw [ih hj hj']

theorem depth_eq (h : LaidOut roots a ps) {p : Place} (hp : a.at? roots.length p = some i)
    (hn : a.nodes[i]? = some n) : n.depth = p.level := by
  induction p generalizing i n with
  | root k =>
    obtain ⟨rfl, root⟩ := at?_root.1 hp
    exact h.rootLevel i n hn root
  | inside p k ih =>
    obtain ⟨j, m, hj, hm, hk⟩ := at?_inside.1 hp
    rw [h.childLevel j m i n hm (List.mem_of_getElem? hk) hn, ih hj hm]
    rfl

theorem map_children (h : LaidOut roots a []) (hn : a.nodes[i]? = some n) :
    n.children.map a.reference? = n.reference.references.map some :=
  h.below i n hn List.not_mem_nil

/-- What is listed the same is the same at every number. -/
theorem bind_reference? {is : List Nat} (h : is.map a.reference? = rs.map some) (k : Nat) :
    is[k]?.bind a.reference? = rs[k]? := by
  have same := congrArg (·[k]?) h
  simp only [List.getElem?_map] at same
  cases hi : is[k]? <;> cases hr : rs[k]? <;> simp_all

/-- The node for a place holds the reference that occurs there, if one does. -/
theorem reference_at? (h : LaidOut roots a []) (p : Place) :
    (a.at? roots.length p).bind a.reference? = SuppliedReference.at? roots p := by
  induction p with
  | root k =>
    rw [SuppliedReference.at?, ← bind_reference? h.first k, at?]
    by_cases root : k < roots.length <;> simp [root]
  | inside p k ih =>
    rw [SuppliedReference.at?, ← ih, at?]
    cases a.at? roots.length p with
    | none => rfl
    | some i =>
      cases hn : a.nodes[i]? with
      | none => simp [hn, reference?]
      | some n => simpa [hn, reference?_of_node] using bind_reference? (h.map_children hn) k

end LaidOut

theorem tree_of_node (hn : a.nodes[i]? = some n) :
    a.tree i = (n.children.mapM a.tree).map
      (.mk n.reference.name n.reference.subject n.reference.text ·) := by
  obtain ⟨lt, rfl⟩ := Array.getElem?_eq_some_iff.1 hn
  rw [tree, dif_pos lt]
  simp

namespace LaidOut

mutual

/-- What the children span from a node on is the tree of its reference. -/
theorem tree_eq (h : LaidOut roots a []) : (r : SuppliedReference) → {i : Nat} →
    a.reference? i = some r → a.tree i = some r
  | .mk name subject text rs, i, hi => by
    obtain ⟨n, hn, same⟩ := Option.map_eq_some_iff.1 hi
    have children := h.map_children hn
    rw [same] at children
    rw [tree_of_node hn, trees_eq h rs children, same]
    rfl

theorem trees_eq (h : LaidOut roots a []) : (rs : List SuppliedReference) → {is : List Nat} →
    is.map a.reference? = rs.map some → is.mapM a.tree = some rs
  | [], is, hi => by
    rw [List.map_eq_nil_iff.1 hi]
    rfl
  | r :: rs, [], hi => by cases hi
  | r :: rs, i :: is, hi => by
    obtain ⟨first, others⟩ := List.cons.inj hi
    rw [List.mapM_cons, tree_eq h r first, trees_eq h rs others]
    rfl

end

theorem represents (h : LaidOut roots a []) : a.Represents roots where
  size := by simpa [Pending.size, SuppliedReference.sizeAll] using h.size
  first := h.first
  behind i n hn c hc := by
    obtain ⟨lt, node⟩ := Array.getElem?_eq_some_iff.1 hn
    exact ⟨a.forward i lt c (node ▸ hc), (h.mem_of_child hn hc).2⟩
  once := h.once
  below n hn := by
    obtain ⟨i, hi⟩ := Array.getElem?_of_mem hn
    exact h.map_children hi
  occurs := h.reference_at?
  single i hi := by
    obtain ⟨p, hp⟩ := h.exists_place hi
    exact ⟨p, hp, fun q hq => h.place_unique hq hp⟩
  level p i n hp hn := h.depth_eq hp hn
  unfolds := h.trees_eq roots h.first

end LaidOut

/-- The arena of a forest within the limit represents the forest. -/
theorem ofForest_represents (fits : SuppliedReference.heightAll roots ≤ limit) :
    ∃ a, ofForest limit roots = .ok a ∧ a.Represents roots := by
  obtain ⟨a, grown, -⟩ := ofForest_holds fits
  exact ⟨a, grown, ((laidOut_ofRoots roots).grow (Pending.fresh_ofRoots fits) grown).represents⟩

/-- A reference that occurs on three levels. -/
def scattered : List SuppliedReference :=
  let leaf : SuppliedReference := .mk "l" "l" [] []
  [.mk "a" "a" [] [leaf, .mk "b" "b" [] [leaf]], leaf]

/-- Each occurrence has a node of its own, also where the references are equal. -/
theorem ofForest_represents_scattered :
    SuppliedReference.heightAll scattered ≤ 3 ∧
      ∃ a, ofForest 3 scattered = .ok a ∧ a.Represents scattered ∧ a.nodes.size = 5 := by
  have fits : SuppliedReference.heightAll scattered ≤ 3 := by decide
  obtain ⟨a, grown, represents⟩ := ofForest_represents fits
  exact ⟨fits, a, grown, represents, represents.size⟩

end Arena

end Registrar
