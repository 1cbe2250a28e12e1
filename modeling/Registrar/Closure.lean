import Registrar.Error
import Registrar.Schema

/-!
# The closure of references

`Closure.ofReferences` finds every schema that a list of references leads to, directly or through
the references of the schemas found. Each comes once, after those that it refers to. The search goes
depth first, from left to right, along an agenda of references; one whose subject and version are
done is passed over, and one on a level beyond the limit is an error. A reference that is still
under way is followed again, so a cycle ends with that error.

Following a reference puts any number of references on the agenda, but all on the next level. So
the numbers of references to follow on the levels, from the first level to the last, decrease in
lexicographic order.
-/

namespace Registrar.Closure

/-- What identifies a registered schema: its subject and version. -/
abbrev Target := Text × Nat

/-- A reference on the agenda. -/
structure Item where
  reference : RegisteredReference
  level : Nat
  /-- Whether what it leads to was put in front of it. -/
  followed : Bool
  deriving DecidableEq, Repr

def Item.target (i : Item) : Target := (i.reference.subject, i.reference.version)

/-- References to follow on a level. -/
def Item.all (level : Nat) (rs : List RegisteredReference) : List Item := rs.map (⟨·, level, false⟩)

/-! ## The measure -/

/-- A number for each of the levels and for the length of the agenda. -/
def Rank : Nat → Type
  | 0 => Nat
  | n + 1 => Nat × Rank n

/-- The lexicographic order. -/
def Rank.Below : (n : Nat) → Rank n → Rank n → Prop
  | 0, a, b => Nat.lt a b
  | n + 1, a, b => Prod.Lex Nat.lt (Below n) a b

theorem Rank.wellFounded : (n : Nat) → WellFounded (Below n)
  | 0 => Nat.lt_wfRel.wf
  | n + 1 => (Prod.lex ⟨Nat.lt, Nat.lt_wfRel.wf⟩ ⟨Below n, wellFounded n⟩).wf

instance (n : Nat) : WellFoundedRelation (Rank n) := ⟨Rank.Below n, Rank.wellFounded n⟩

/-- The number of references to follow on a level. -/
def waiting (level : Nat) (agenda : List Item) : Nat :=
  agenda.countP fun i => !i.followed && i.level = level

/-- The rank of an agenda for `n` levels from `level` on. -/
def rank : (n level : Nat) → List Item → Rank n
  | 0, _, agenda => agenda.length
  | n + 1, level, agenda => (waiting level agenda, rank n (level + 1) agenda)

theorem waiting_append (level : Nat) (a b : List Item) :
    waiting level (a ++ b) = waiting level a + waiting level b := by
  simp [waiting]

theorem waiting_all_of_ne {level other : Nat} (h : other ≠ level) (rs : List RegisteredReference) :
    waiting level (Item.all other rs) = 0 := by
  simp [waiting, Item.all, h]

/-- The agenda decreases when its first item is dropped. -/
theorem rank_drop (n level : Nat) (i : Item) (rest : List Item) :
    Rank.Below n (rank n level rest) (rank n level (i :: rest)) := by
  induction n generalizing level with
  | zero => exact Nat.lt_succ_self _
  | succ n ih =>
    simp only [rank, Rank.Below]
    by_cases h : (!i.followed && decide (i.level = level)) = true
    · apply Prod.Lex.left
      simp [waiting, h]
    · have : waiting level (i :: rest) = waiting level rest := by
        simp [waiting, h]
      rw [this]
      exact Prod.Lex.right _ (ih _)

/-- The agenda decreases when an item is followed to references on the next level. -/
theorem rank_follow {n level : Nat} {i : Item} (hf : i.followed = false) (low : level ≤ i.level)
    (high : i.level < level + n) (rs : List RegisteredReference) (rest : List Item) :
    Rank.Below n (rank n level (Item.all (i.level + 1) rs ++ { i with followed := true } :: rest))
      (rank n level (i :: rest)) := by
  induction n generalizing level with
  | zero => omega
  | succ n ih =>
    have after : waiting level (Item.all (i.level + 1) rs ++ { i with followed := true } :: rest) =
        waiting level rest := by
      rw [waiting_append, waiting_all_of_ne (by omega)]
      simp [waiting]
    simp only [rank, Rank.Below, after]
    by_cases h : i.level = level
    · apply Prod.Lex.left
      simp [waiting, h, hf]
    · have : waiting level (i :: rest) = waiting level rest := by
        simp [waiting, h]
      rw [this]
      exact Prod.Lex.right _ (ih (by omega) (by omega))

/-! ## The search -/

/-- What the search has found. -/
structure Found where
  /-- The targets that are done. -/
  seen : List Target
  /-- The schemas of the targets that were followed. -/
  loaded : Assoc Target RegisteredSchema
  resolved : List RegisteredSchema
  deriving Repr

variable {m : Type → Type} [Monad m] [MonadExceptOf Failure m]

/-- Works the agenda off; `lookup` gives the schema to which a reference points. -/
def search (limit : Nat) (lookup : RegisteredReference → m RegisteredSchema) (agenda : List Item)
    (found : Found) : m (List RegisteredSchema) :=
  match agenda with
  | [] => pure found.resolved
  | i :: rest =>
    if i.target ∈ found.seen then search limit lookup rest found
    else if i.followed then
      match Assoc.get? i.target found.loaded with
      | some schema =>
        search limit lookup rest
          { found with seen := i.target :: found.seen, resolved := found.resolved ++ [schema] }
      | none => throw (.foreign ⟨.key, i.reference.subject⟩)
    else if limit < i.level then
      throw (.resolution (.tooDeep limit i.reference.subject))
    else do
      let schema ← lookup i.reference
      search limit lookup
        (Item.all (i.level + 1) schema.references ++ { i with followed := true } :: rest)
        { found with loaded := Assoc.put i.target schema found.loaded }
termination_by rank (limit + 1) 0 agenda
decreasing_by
  · exact rank_drop ..
  · exact rank_drop ..
  · exact rank_follow (by simp_all) (by omega) (by omega) ..

/-- The schemas to which references lead, on at most `limit` levels. -/
def ofReferences (limit : Nat) (lookup : RegisteredReference → m RegisteredSchema)
    (references : List RegisteredReference) : m (List RegisteredSchema) :=
  search limit lookup (Item.all 1 references) ⟨[], [], []⟩

end Registrar.Closure
