import Registrar.Error
import Registrar.Schema

/-!
# Arenas

An arena is a forest of supplied references laid out in an array: every node holds a reference, its
level, and the positions of the references below it. Positions grow from a node to its children, so
a walk along them ends. `Arena.ofForest` lays out a forest, the roots first, and refuses one that is
nested too deeply.
-/

namespace Registrar

/-- A reference in an arena; the roots are at level one. -/
structure Arena.Node where
  reference : SuppliedReference
  depth : Nat
  children : List Nat
  deriving Repr

/-- Nodes that refer to each other by position. -/
structure Arena where
  nodes : Array Arena.Node
  forward : ∀ (i : Nat) (h : i < nodes.size), ∀ c ∈ nodes[i].children, i < c

namespace Arena

/-! ## Laying out -/

/-- A node without children. -/
def leaf (depth : Nat) (r : SuppliedReference) : Node := ⟨r, depth, []⟩

/-- The roots of a forest. -/
def ofRoots (roots : List SuppliedReference) : Arena where
  nodes := (roots.map (leaf 1)).toArray
  forward := by simp [leaf]

/-- Appends the references below the node at `i` as its children. -/
def expand (a : Arena) (i depth : Nat) (below : List SuppliedReference) : Arena where
  nodes :=
    a.nodes.modify i (fun n => { n with children := List.range' a.nodes.size below.length }) ++
      (below.map (leaf (depth + 1))).toArray
  forward := by
    intro j h c hc
    simp only [Array.getElem_append, Array.size_modify] at hc
    split at hc
    · rename_i hj
      simp only [Array.getElem_modify] at hc
      split at hc
      · simp only [List.mem_range'_1] at hc
        omega
      · exact a.forward j hj c hc
    · simp [leaf] at hc

/-- A node that waits for expansion: its position, its reference and its level. -/
structure Pending where
  index : Nat
  reference : SuppliedReference
  depth : Nat
  deriving Repr

/-- The children that wait for expansion when a node has been expanded, those to take first in
front. -/
def Pending.below (first : Nat) (depth : Nat) (rs : List SuppliedReference) : List Pending :=
  ((rs.zipIdx first).map fun p => ⟨p.2, p.1, depth⟩).reverse

/-- The number of references in the trees that wait for expansion. -/
def Pending.size (ps : List Pending) : Nat := SuppliedReference.sizeAll (ps.map (·.reference))

theorem Pending.size_below (first depth : Nat) (rs : List SuppliedReference) :
    Pending.size (Pending.below first depth rs) = SuppliedReference.sizeAll rs := by
  simp [Pending.size, Pending.below, List.map_reverse, Function.comp_def,
    SuppliedReference.sizeAll_reverse]

/-- Expands the nodes that wait, the last one first. -/
def grow (limit : Nat) (a : Arena) : List Pending → Except ResolutionError Arena
  | [] => .ok a
  | p :: rest =>
    if limit < p.depth then .error (.tooDeep limit p.reference.subject)
    else
      grow limit (a.expand p.index p.depth p.reference.references)
        (Pending.below a.nodes.size (p.depth + 1) p.reference.references ++ rest)
termination_by ps => Pending.size ps
decreasing_by
  have := Pending.size_below a.nodes.size (p.depth + 1) p.reference.references
  have := p.reference.size_eq
  simp_all [Pending.size, SuppliedReference.sizeAll_append, SuppliedReference.sizeAll]

/-- The arena of a forest whose levels are at most `limit`. -/
def ofForest (limit : Nat) (roots : List SuppliedReference) : Except ResolutionError Arena :=
  grow limit (ofRoots roots) (Pending.below 0 1 roots)

/-! ## Walking -/

/-- The sum of numbers. -/
def total : List Nat → Nat
  | [] => 0
  | n :: ns => n + total ns

theorem total_append (ms ns : List Nat) : total (ms ++ ns) = total ms + total ns := by
  induction ms with
  | nil => simp [total]
  | cons m ms ih => simp [total, ih, Nat.add_assoc]

/-- The number of steps that a walk over the tree at `i` takes. -/
def weight (a : Arena) (i : Nat) : Nat :=
  if h : i < a.nodes.size then
    2 + total (a.nodes[i].children.attach.map fun c => a.weight c.val)
  else 2
termination_by a.nodes.size - i
decreasing_by
  have := a.forward i h c.val c.property
  omega

theorem weight_of_lt {a : Arena} {i : Nat} (h : i < a.nodes.size) :
    a.weight i = 2 + total (a.nodes[i].children.map a.weight) := by
  rw [weight, dif_pos h]
  simp

/-- A stop of a walk: on the way down to a node, or back at it when its children are done. -/
inductive Stop where
  | enter (i : Nat)
  | leave (i : Nat)
  deriving DecidableEq, Repr

/-- The number of steps that a walk still takes. -/
def Stop.weight (a : Arena) : Stop → Nat
  | .enter i => a.weight i
  | .leave _ => 1

/-- The number of steps that a walk over all stops takes. -/
def Stop.weightAll (a : Arena) (stops : List Stop) : Nat :=
  total (stops.map (Stop.weight a))

theorem Stop.weightAll_enter {a : Arena} {i : Nat} (h : i < a.nodes.size) (rest : List Stop) :
    Stop.weightAll a (a.nodes[i].children.map .enter ++ .leave i :: rest) <
      Stop.weightAll a (.enter i :: rest) := by
  have same : (a.nodes[i].children.map Stop.enter).map (Stop.weight a) =
      a.nodes[i].children.map a.weight := by
    simp [Stop.weight]
  have := Arena.weight_of_lt h
  simp only [Stop.weightAll, List.map_append, same, List.map_cons, total_append, total, Stop.weight]
  omega

end Arena

end Registrar
