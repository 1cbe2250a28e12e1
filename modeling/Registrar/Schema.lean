import Registrar.SchemaType

/-!
# Schemas and references

A supplied schema comes from a caller who wants it registered; its references carry the texts of
the schemas which it uses, nested to any depth. A registered schema comes from the registry; its
references name the subjects and versions under which the used schemas are stored. What is read from
documents may be any text; the names and subjects of supplied references are ordinary strings.
-/

namespace Registrar

/-! ## Supplied -/

/-- A schema to register before the schema that refers to it. -/
inductive SuppliedReference where
  | mk (name subject : String) (text : Text) (references : List SuppliedReference)
  deriving Repr

namespace SuppliedReference

def name : SuppliedReference → String
  | .mk n _ _ _ => n

def subject : SuppliedReference → String
  | .mk _ s _ _ => s

def text : SuppliedReference → Text
  | .mk _ _ t _ => t

def references : SuppliedReference → List SuppliedReference
  | .mk _ _ _ rs => rs

mutual

/-- The number of schemas in the tree of a reference. -/
def size : SuppliedReference → Nat
  | .mk _ _ _ rs => sizeAll rs + 1

/-- The number of schemas in a forest. -/
def sizeAll : List SuppliedReference → Nat
  | [] => 0
  | r :: rs => r.size + sizeAll rs

end

theorem size_eq (r : SuppliedReference) : r.size = sizeAll r.references + 1 := by
  cases r; simp [size, references]

theorem sizeAll_append (rs ss : List SuppliedReference) :
    sizeAll (rs ++ ss) = sizeAll rs + sizeAll ss := by
  induction rs with
  | nil => simp [sizeAll]
  | cons r rs ih => simp [sizeAll, ih, Nat.add_assoc]

theorem sizeAll_reverse (rs : List SuppliedReference) : sizeAll rs.reverse = sizeAll rs := by
  induction rs with
  | nil => rfl
  | cons r rs ih => simp [sizeAll_append, sizeAll, ih, Nat.add_comm]

mutual

/-- Whether two references are equal. -/
def decEq : (r s : SuppliedReference) → Decidable (r = s)
  | .mk n s t rs, .mk n' s' t' rs' =>
    if h : n = n' ∧ s = s' ∧ t = t' then
      match decEqAll rs rs' with
      | .isTrue h' => .isTrue (by rw [h.1, h.2.1, h.2.2, h'])
      | .isFalse h' => .isFalse fun e => h' (by injection e)
    else .isFalse fun e => h (by injection e; exact ⟨‹_›, ‹_›, ‹_›⟩)

def decEqAll : (rs ss : List SuppliedReference) → Decidable (rs = ss)
  | [], [] => .isTrue rfl
  | [], _ :: _ => .isFalse (by simp)
  | _ :: _, [] => .isFalse (by simp)
  | r :: rs, s :: ss =>
    match decEq r s with
    | .isTrue h =>
      match decEqAll rs ss with
      | .isTrue h' => .isTrue (by rw [h, h'])
      | .isFalse h' => .isFalse fun e => h' (by injection e)
    | .isFalse h => .isFalse fun e => h (by injection e)

end

instance : DecidableEq SuppliedReference := decEq

end SuppliedReference

/-- A schema that a caller wants registered. The name serves to derive its subject. -/
structure SuppliedSchema where
  name : Option Text
  type : SchemaType
  text : Text
  references : List SuppliedReference
  deriving DecidableEq, Repr

/-! ## Registered -/

/-- A reference as the registry stores it. -/
structure RegisteredReference where
  name : Text
  subject : Text
  version : Nat
  deriving DecidableEq, Repr

/-- A schema as the registry returns it. -/
structure RegisteredSchema where
  id : Nat
  type : SchemaType
  text : Text
  references : List RegisteredReference
  deriving DecidableEq, Repr

end Registrar
