/-!
# Association lists

A finite map is a list of pairs in the order in which its keys were first put. `put` keeps the place
of a key that is there; what is asked of a map afterwards is said by one lemma for each operation.
-/

namespace Registrar

/-- A finite map as a list of pairs. -/
abbrev Assoc (κ ν : Type) := List (κ × ν)

namespace Assoc

variable {κ ν : Type} [DecidableEq κ]

/-- The value at a key. -/
def get? (key : κ) : Assoc κ ν → Option ν
  | [] => none
  | (k, v) :: rest => if k = key then some v else get? key rest

/-- Sets the value at a key. -/
def put (key : κ) (value : ν) : Assoc κ ν → Assoc κ ν
  | [] => [(key, value)]
  | (k, v) :: rest => if k = key then (k, value) :: rest else (k, v) :: put key value rest

/-- Removes a key. -/
def erase (key : κ) (m : Assoc κ ν) : Assoc κ ν := m.filter fun p => p.1 ≠ key

def keys (m : Assoc κ ν) : List κ := m.map Prod.fst

@[simp]
theorem get?_nil (key : κ) : get? key ([] : Assoc κ ν) = none := rfl

theorem get?_cons (key k : κ) (v : ν) (m : Assoc κ ν) :
    get? key ((k, v) :: m) = if k = key then some v else get? key m := rfl

@[simp]
theorem get?_put_self (key : κ) (value : ν) (m : Assoc κ ν) :
    get? key (put key value m) = some value := by
  fun_induction put key value m <;> simp_all [get?]

theorem get?_put_of_ne {key other : κ} (h : other ≠ key) (value : ν) (m : Assoc κ ν) :
    get? other (put key value m) = get? other m := by
  fun_induction put key value m <;> grind [get?]

@[simp]
theorem get?_erase_self (key : κ) (m : Assoc κ ν) : get? key (erase key m) = none := by
  induction m with
  | nil => rfl
  | cons p m ih => by_cases h : p.1 = key <;> grind [erase, get?]

theorem get?_erase_of_ne {key other : κ} (h : other ≠ key) (m : Assoc κ ν) :
    get? other (erase key m) = get? other m := by
  induction m with
  | nil => rfl
  | cons p m ih => by_cases h' : p.1 = key <;> grind [erase, get?]

/-- A value that is found was paired with the key. -/
theorem mem_of_get? {key : κ} {value : ν} {m : Assoc κ ν} (h : get? key m = some value) :
    (key, value) ∈ m := by
  fun_induction get? key m <;> simp_all

theorem get?_eq_none_iff {key : κ} {m : Assoc κ ν} : get? key m = none ↔ key ∉ keys m := by
  fun_induction get? key m <;> grind [keys]

/-! ## Keys -/

variable {key : κ} {value : ν} {m : Assoc κ ν}

theorem keys_put (key : κ) (value : ν) (m : Assoc κ ν) :
    keys (put key value m) = if key ∈ keys m then keys m else keys m ++ [key] := by
  fun_induction put key value m <;> grind [keys]

theorem nodup_keys_put (h : (keys m).Nodup) : (keys (put key value m)).Nodup := by
  rw [keys_put]
  split
  · exact h
  · rename_i new
    refine List.nodup_append.2 ⟨h, by simp, ?_⟩
    rintro k hk _ hk' rfl
    exact new (List.mem_singleton.1 hk' ▸ hk)

/-- What is in a map after a put is what was put or was there before. -/
theorem mem_of_mem_put {p : κ × ν} (h : p ∈ put key value m) : p = (key, value) ∨ p ∈ m := by
  fun_induction put key value m <;> grind

theorem nodup_keys_foldl_put (ps : List (κ × ν)) (h : (keys m).Nodup) :
    (keys (ps.foldl (fun acc p => put p.1 p.2 acc) m)).Nodup := by
  induction ps generalizing m with
  | nil => exact h
  | cons p ps ih => exact ih (nodup_keys_put h)

theorem mem_of_mem_foldl_put {ps : List (κ × ν)} {p : κ × ν}
    (h : p ∈ ps.foldl (fun acc p => put p.1 p.2 acc) m) : p ∈ m ∨ p ∈ ps := by
  induction ps generalizing m with
  | nil => exact .inl h
  | cons q ps ih =>
    rcases ih h with h | h
    · rcases mem_of_mem_put h with rfl | h
      · exact .inr (.head _)
      · exact .inl h
    · exact .inr (.tail _ h)

end Assoc

end Registrar
