import Registrar.Proofs.Json.Integers
import Registrar.Proofs.Json.Strings

/-!
# Documents are read back

What is written as a document, in whatever layout, is what its reader gives: the same value with the
members of its objects in the same order. The reader has its limits, so the value has to be legible:
it holds no floating-point numbers, its integers are not too long, its strings are settled, its
objects have each key once, and it is not nested too deeply.
-/

namespace Registrar.Json

open Reader (Closed isSpace skip scalar)

/-! ## Legible values -/

mutual

/-- A reader of so many levels gives the value back. -/
def Legible : (levels : Nat) → Json → Prop
  | _, .null => True
  | _, .bool _ => True
  | _, .int n => (Nat.toDigits 10 n.natAbs).length ≤ maxDigits
  | _, .float _ => False
  | _, .string t => t.Settled
  | 0, .array _ => False
  | levels + 1, .array items => LegibleItems levels items
  | 0, .object _ => False
  | levels + 1, .object members => (Assoc.keys members).Nodup ∧ LegibleMembers levels members

def LegibleItems (levels : Nat) : List Json → Prop
  | [] => True
  | v :: vs => Legible levels v ∧ LegibleItems levels vs

def LegibleMembers (levels : Nat) : List (Text × Json) → Prop
  | [] => True
  | (k, v) :: ms => k.Settled ∧ Legible levels v ∧ LegibleMembers levels ms

end

/-- Separators that consist of their sign and of spaces behind it. -/
structure Layout.Clear (l : Layout) : Prop where
  comma : ∃ spaces, l.comma = ',' :: spaces ∧ ∀ c ∈ spaces, isSpace c
  colon : ∃ spaces, l.colon = ':' :: spaces ∧ ∀ c ∈ spaces, isSpace c

theorem spaced_clear : spaced.Clear :=
  ⟨⟨[' '], rfl, List.all_eq_true.1 rfl⟩, ⟨[' '], rfl, List.all_eq_true.1 rfl⟩⟩

theorem compact_clear : compact.Clear :=
  ⟨⟨[], rfl, List.all_eq_true.1 rfl⟩, ⟨[], rfl, List.all_eq_true.1 rfl⟩⟩

mutual

/-- The fuel that reading the value takes. -/
def fuel : Json → Nat
  | .array items => fuelItems items + 1
  | .object members => fuelMembers members + 1
  | _ => 1

def fuelItems : List Json → Nat
  | [] => 0
  | v :: vs => fuel v + fuelItems vs + 1

def fuelMembers : List (Text × Json) → Nat
  | [] => 0
  | (_, v) :: ms => fuel v + fuelMembers ms + 1

end

/-! ## Beginnings -/

variable {l : Layout} {levels : Nat} {rest : Text}

theorem toString_start (n : Int) :
    ∃ c cs, (toString n).toList = c :: cs ∧ (c = '-' ∨ c.isDigit) := by
  rw [Reader.toList_toString]
  split
  · exact ⟨'-', _, rfl, .inl rfl⟩
  · cases e : Nat.toDigits 10 n.natAbs with
    | nil => exact absurd e Nat.toDigits_ne_nil
    | cons d ds =>
      have first : d ∈ Nat.toDigits 10 n.natAbs := by rw [e]; exact .head _
      exact ⟨d, ds, rfl, .inr (Nat.isDigit_of_mem_toDigits (by decide) (by decide) first)⟩

theorem ne_of_digit {c d : Char} (h : c = '-' ∨ c.isDigit) (hd : ¬ (d = '-' ∨ d.isDigit)) :
    c ≠ d := by
  rintro rfl
  exact hd h

/-- A character with which a value may begin: no space, closing bracket or byte order mark. -/
def begins (c : Char) : Bool := !isSpace c && c ≠ ']' && c ≠ '\ufeff'

/-- A value begins as a value should. -/
theorem write_begins {v : Json} (h : v.Legible levels) :
    ∃ c cs, write l v = c :: cs ∧ begins c := by
  cases v with
  | null => exact ⟨'n', ['u', 'l', 'l'], by rw [write]; rfl, by decide⟩
  | bool b =>
    cases b
    · exact ⟨'f', ['a', 'l', 's', 'e'], by rw [write]; rfl, by decide⟩
    · exact ⟨'t', ['r', 'u', 'e'], by rw [write]; rfl, by decide⟩
  | int n =>
    obtain ⟨c, cs, e, hc⟩ := toString_start n
    refine ⟨c, cs, by rw [write, e], ?_⟩
    simp [begins, isSpace, ne_of_digit hc]
  | float x => exact h.elim
  | string t => exact ⟨'"', _, by rw [write, writeText]; rfl, by decide⟩
  | array items =>
    cases items with
    | nil => exact ⟨'[', _, by rw [write], by decide⟩
    | cons v vs => exact ⟨'[', _, by rw [write]; rfl, by decide⟩
  | object members =>
    cases members with
    | nil => exact ⟨'\x7b', _, by rw [write], by decide⟩
    | cons m ms => exact ⟨'\x7b', _, by rw [write]; rfl, by decide⟩

theorem skip_of_begins {c : Char} (h : begins c) (t : Text) : skip (.char c :: t) = .char c :: t :=
  List.dropWhile_cons_of_neg (by simp_all [Symbol.satisfies, begins])

/-- Spaces in front of something else are skipped. -/
theorem skip_spaces {spaces : List Char} (h : ∀ c ∈ spaces, isSpace c) {c : Char}
    (hc : begins c) (t : Text) : skip (Text.ofChars spaces ++ .char c :: t) = .char c :: t := by
  unfold skip
  rw [List.dropWhile_append_of_pos]
  · exact skip_of_begins hc t
  · simpa [Text.ofChars, Symbol.satisfies] using h

/-! ## Scalars -/

theorem value_scalar {c : Char} (h : c ≠ '"' ∧ c ≠ '[' ∧ c ≠ '\x7b') {n : Nat} (hn : 1 ≤ n)
    (t : Text) : Reader.value n levels (.char c :: t) = scalar (.char c :: t) := by
  obtain ⟨n, rfl⟩ := Nat.exists_eq_add_of_le' hn
  rw [Reader.value]
  all_goals simp [h]

theorem scalar_null : scalar (Text.ofChars "null".toList ++ rest) = .ok (.null, rest) := rfl

theorem scalar_true : scalar (Text.ofChars "true".toList ++ rest) = .ok (.bool true, rest) := rfl

theorem scalar_false : scalar (Text.ofChars "false".toList ++ rest) = .ok (.bool false, rest) := rfl

/-! ## Members with distinct keys -/

theorem put_of_not_mem {k : Text} {v : Json} {ms : Assoc Text Json} (h : k ∉ Assoc.keys ms) :
    Assoc.put k v ms = ms ++ [(k, v)] := by
  induction ms with
  | nil => rfl
  | cons m ms ih =>
    obtain ⟨ne, others⟩ := not_or.1 (mt List.mem_cons.2 h)
    rw [Assoc.put, if_neg (Ne.symm ne), ih others]
    rfl

theorem foldl_put {ms acc : Assoc Text Json} (h : (Assoc.keys (acc ++ ms)).Nodup) :
    ms.foldl (fun acc m => Assoc.put m.1 m.2 acc) acc = acc ++ ms := by
  induction ms generalizing acc with
  | nil => simp
  | cons m ms ih =>
    have new : m.1 ∉ Assoc.keys acc := by
      intro old
      rw [Assoc.keys, List.map_append, List.nodup_append] at h
      exact h.2.2 _ old _ (.head _) rfl
    have same : acc ++ [m] ++ ms = acc ++ m :: ms := by simp
    rw [List.foldl_cons, put_of_not_mem new, ih (by rwa [same]), same]

theorem ofMembers_of_nodup {ms : List (Text × Json)} (h : (Assoc.keys ms).Nodup) :
    ofMembers ms = .object ms := by
  rw [ofMembers, foldl_put (by simpa using h), List.nil_append]

/-! ## Arrays and objects -/

section

variable {n : Nat} {t u : Text} {k : Text} {v : Json} {vs : List Json} {ms : List (Text × Json)}

theorem value_array (plain : skip t = t) (start : t.head? ≠ some (.char ']'))
    (read : Reader.items n levels t = .ok (vs, rest)) :
    Reader.value (n + 1) (levels + 1) (.char '[' :: t) = .ok (.array vs, rest) := by
  rw [Reader.value, plain]
  split
  · exact absurd rfl start
  · rw [read]
    rfl

theorem value_object (plain : skip t = t) (start : t.head? ≠ some (.char '\x7d'))
    (distinct : (Assoc.keys ms).Nodup) (read : Reader.members n levels t = .ok (ms, rest)) :
    Reader.value (n + 1) (levels + 1) (.char '\x7b' :: t) = .ok (.object ms, rest) := by
  rw [Reader.value, plain]
  split
  · exact absurd rfl start
  · rw [read, ← ofMembers_of_nodup distinct]
    rfl

theorem items_last (read : Reader.value n levels t = .ok (v, .char ']' :: rest)) :
    Reader.items (n + 1) levels t = .ok ([v], rest) := by
  rw [Reader.items, read]
  rfl

theorem items_next (read : Reader.value n levels t = .ok (v, .char ',' :: u))
    (others : Reader.items n levels (skip u) = .ok (vs, rest)) :
    Reader.items (n + 1) levels t = .ok (v :: vs, rest) := by
  rw [Reader.items, read]
  dsimp only [bind, Except.bind]
  rw [skip_of_begins (c := ',') (by decide)]
  exact congrArg (Except.bind · fun p => .ok (v :: p.1, p.2)) others

theorem members_last (key : Reader.string t = .ok (k, .char ':' :: u))
    (read : Reader.value n levels (skip u) = .ok (v, .char '\x7d' :: rest)) :
    Reader.members (n + 1) levels (.char '"' :: t) = .ok ([(k, v)], rest) := by
  rw [Reader.members, key]
  dsimp only [bind, Except.bind]
  rw [skip_of_begins (c := ':') (by decide)]
  simp only [read]
  rfl

theorem members_next {u' : Text} (key : Reader.string t = .ok (k, .char ':' :: u))
    (read : Reader.value n levels (skip u) = .ok (v, .char ',' :: u'))
    (others : Reader.members n levels (skip u') = .ok (ms, rest)) :
    Reader.members (n + 1) levels (.char '"' :: t) = .ok ((k, v) :: ms, rest) := by
  rw [Reader.members, key]
  dsimp only [bind, Except.bind]
  rw [skip_of_begins (c := ':') (by decide)]
  simp only [read]
  rw [skip_of_begins (c := ',') (by decide)]
  exact congrArg (Except.bind · fun p => .ok ((k, v) :: p.1, p.2)) others

end

/-- What stands between the brackets of an array, with the closing one. -/
def writeSequence (l : Layout) : List Json → List Char
  | [] => [']']
  | v :: vs => write l v ++ writeItems l vs

def writeRecord (l : Layout) : List (Text × Json) → List Char
  | [] => ['\x7d']
  | (k, v) :: ms => writeText k ++ l.colon ++ write l v ++ writeMembers l ms

theorem write_array (items : List Json) :
    write l (.array items) = '[' :: writeSequence l items := by
  cases items with
  | nil => rw [write, writeSequence]
  | cons v vs => rw [write, writeSequence]; rfl

theorem write_object (members : List (Text × Json)) :
    write l (.object members) = '\x7b' :: writeRecord l members := by
  cases members with
  | nil => rw [write, writeRecord]
  | cons m ms => rw [write, writeRecord]; simp

theorem writeItems_cons (w : Json) (ws : List Json) :
    writeItems l (w :: ws) = l.comma ++ writeSequence l (w :: ws) := by
  rw [writeItems, writeSequence, List.append_assoc]

theorem writeMembers_cons (m : Text × Json) (ms : List (Text × Json)) :
    writeMembers l (m :: ms) = l.comma ++ writeRecord l (m :: ms) := by
  rw [writeMembers, writeRecord]
  simp

theorem writeSequence_begins {v : Json} (h : v.Legible levels) (vs : List Json) :
    ∃ c cs, writeSequence l (v :: vs) = c :: cs ∧ begins c := by
  obtain ⟨c, cs, e, hc⟩ := write_begins (l := l) h
  exact ⟨c, cs ++ writeItems l vs, by rw [writeSequence, e]; rfl, hc⟩

theorem writeRecord_begins (k : Text) (v : Json) (ms : List (Text × Json)) :
    ∃ cs, writeRecord l ((k, v) :: ms) = '"' :: cs := by
  rw [writeRecord, writeText]
  exact ⟨_, rfl⟩

/-- Where the value of a member begins, behind its key. -/
theorem member_write (hl : l.Clear) {k : Text} {v : Json} (hk : k.Settled) (h : v.Legible levels)
    (t : Text) : ∃ u,
      Text.ofChars (writeText k ++ l.colon ++ write l v) ++ t = .char '"' :: u ∧
      ∃ u', Reader.string u = .ok (k, .char ':' :: u') ∧
        skip u' = Text.ofChars (write l v) ++ t := by
  obtain ⟨spaces, colon, blank⟩ := hl.colon
  obtain ⟨c, cs, e, hc⟩ := write_begins (l := l) h
  obtain ⟨text, read⟩ := Reader.string_writeText hk
    (.char ':' :: (Text.ofChars spaces ++ (Text.ofChars (write l v) ++ t)))
  refine ⟨_, ?_, _, read, ?_⟩
  · rw [← text, colon]
    simp
  · rw [e]
    exact skip_spaces blank hc _

mutual

theorem value_write (hl : l.Clear) : (v : Json) → {levels n : Nat} → (rest : Text) →
    v.Legible levels → v.fuel ≤ n → Closed rest →
      Reader.value n levels (Text.ofChars (write l v) ++ rest) = .ok (v, rest)
  | .null, _, n, rest, _, h, _ => by
    rw [write]
    exact (value_scalar (by decide) h _).trans scalar_null
  | .bool true, _, n, rest, _, h, _ => by
    rw [write]
    exact (value_scalar (by decide) h _).trans scalar_true
  | .bool false, _, n, rest, _, h, _ => by
    rw [write]
    exact (value_scalar (by decide) h _).trans scalar_false
  | .int i, _, n, rest, legible, h, closed => by
    have read := Reader.scalar_toString legible closed
    obtain ⟨c, cs, e, hc⟩ := toString_start i
    rw [e] at read
    rw [write, e]
    refine (value_scalar ⟨?_, ?_, ?_⟩ h _).trans read <;> exact ne_of_digit hc (by decide)
  | .string t, _, n + 1, rest, legible, h, _ => by
    obtain ⟨text, read⟩ := Reader.string_writeText legible rest
    rw [write, text, Reader.value, read]
    rfl
  | .array items, levels + 1, n + 1, rest, legible, h, _ => by
    rw [write_array]
    cases items with
    | nil => rfl
    | cons v vs =>
      have read := items_write hl (v :: vs) rest (by simp) legible (Nat.le_of_succ_le_succ h)
      obtain ⟨c, cs, e, hc⟩ := writeSequence_begins (l := l) legible.1 vs
      rw [e] at read ⊢
      exact value_array (skip_of_begins hc _) (by simp_all [begins]) read
  | .object members, levels + 1, n + 1, rest, legible, h, _ => by
    rw [write_object]
    cases members with
    | nil => rfl
    | cons m ms =>
      have read := members_write hl (m :: ms) rest (by simp) legible.2
        (Nat.le_of_succ_le_succ h)
      obtain ⟨cs, e⟩ := writeRecord_begins (l := l) m.1 m.2 ms
      rw [e] at read ⊢
      exact value_object (skip_of_begins (by decide) _) (by simp) legible.1 read

theorem items_write (hl : l.Clear) : (vs : List Json) → {levels n : Nat} → (rest : Text) →
    vs ≠ [] → LegibleItems levels vs → fuelItems vs ≤ n →
      Reader.items n levels (Text.ofChars (writeSequence l vs) ++ rest) = .ok (vs, rest)
  | [v], levels, n + 1, rest, _, legible, h => by
    have first := value_write hl v (.char ']' :: rest) (n := n) legible.1
      (by rw [fuelItems] at h; omega) (by simp [Closed])
    rw [writeSequence, Text.ofChars_append, List.append_assoc, writeItems]
    exact items_last first
  | v :: w :: ws, levels, n + 1, rest, _, legible, h => by
    rw [fuelItems] at h
    obtain ⟨spaces, comma, blank⟩ := hl.comma
    obtain ⟨c, cs, e, hc⟩ := writeSequence_begins (l := l) legible.2.1 ws
    have others := items_write hl (w :: ws) rest (n := n) (by simp) legible.2 (by omega)
    let after : Text :=
      .char ',' :: (Text.ofChars spaces ++ (Text.ofChars (writeSequence l (w :: ws)) ++ rest))
    have first := value_write hl v after (n := n) legible.1 (by omega) (by simp [Closed, after])
    rw [writeSequence, writeItems_cons, comma]
    simp only [List.cons_append, Text.ofChars_append, Text.ofChars_cons, List.append_assoc]
    refine items_next first ?_
    rw [e] at others ⊢
    exact (congrArg _ (skip_spaces blank hc _)).trans others

theorem members_write (hl : l.Clear) : (ms : List (Text × Json)) → {levels n : Nat} →
    (rest : Text) → ms ≠ [] → LegibleMembers levels ms → fuelMembers ms ≤ n →
      Reader.members n levels (Text.ofChars (writeRecord l ms) ++ rest) = .ok (ms, rest)
  | [(k, v)], levels, n + 1, rest, _, legible, h => by
    rw [fuelMembers] at h
    have read := value_write hl v (.char '\x7d' :: rest) (n := n) legible.2.1 (by omega)
      (by simp [Closed])
    obtain ⟨u, text, u', key, skipped⟩ := member_write hl legible.1 legible.2.1
      (.char '\x7d' :: rest)
    rw [← skipped] at read
    rw [writeRecord, writeMembers, Text.ofChars_append, List.append_assoc]
    exact text ▸ members_last key read
  | (k, v) :: m :: ms, levels, n + 1, rest, _, legible, h => by
    rw [fuelMembers] at h
    obtain ⟨spaces, comma, blank⟩ := hl.comma
    obtain ⟨cs, e⟩ := writeRecord_begins (l := l) m.1 m.2 ms
    have others := members_write hl (m :: ms) rest (n := n) (by simp) legible.2.2
      (by omega)
    let after : Text :=
      .char ',' :: (Text.ofChars spaces ++ (Text.ofChars (writeRecord l (m :: ms)) ++ rest))
    have read := value_write hl v after (n := n) legible.2.1 (by omega)
      (by simp [Closed, after])
    obtain ⟨u, text, u', key, skipped⟩ := member_write hl legible.1 legible.2.1 after
    rw [← skipped] at read
    have whole : Text.ofChars (writeRecord l ((k, v) :: m :: ms)) ++ rest = .char '"' :: u := by
      rw [← text, writeRecord, writeMembers_cons, comma]
      simp [after]
    rw [whole]
    refine members_next key read ?_
    rw [e] at others ⊢
    exact (congrArg _ (skip_spaces blank (by decide) _)).trans others

end

/-! ## Documents -/

mutual

/-- The characters of a value are enough fuel. -/
theorem fuel_le (hl : l.Clear) : (v : Json) → {levels : Nat} → v.Legible levels →
    v.fuel ≤ 2 * (write l v).length
  | .null, _, _ => by rw [write]; decide
  | .bool true, _, _ => by rw [write]; decide
  | .bool false, _, _ => by rw [write]; decide
  | .int i, _, _ => by
    obtain ⟨c, cs, e, -⟩ := toString_start i
    rw [write, e, fuel, List.length_cons]
    · omega
    all_goals simp
  | .string t, _, _ => by
    rw [write, writeText, fuel]
    · simp only [List.length_cons, List.length_append]
      omega
    all_goals simp
  | .array [], _, _ => by rw [write]; decide
  | .array (v :: vs), levels + 1, h => by
    have first := fuel_le hl v h.1
    have others := fuelItems_le hl vs h.2
    rw [write, fuel, fuelItems]
    simp only [List.length_cons, List.length_append]
    omega
  | .object [], _, _ => by rw [write]; decide
  | .object ((k, v) :: ms), levels + 1, h => by
    have first := fuel_le hl v h.2.2.1
    have others := fuelMembers_le hl ms h.2.2.2
    rw [write, fuel, fuelMembers]
    simp only [List.length_cons, List.length_append]
    omega

theorem fuelItems_le (hl : l.Clear) : (vs : List Json) → {levels : Nat} →
    LegibleItems levels vs → fuelItems vs ≤ 2 * (writeItems l vs).length
  | [], _, _ => by simp [fuelItems]
  | v :: vs, _, h => by
    have first := fuel_le hl v h.1
    have others := fuelItems_le hl vs h.2
    obtain ⟨spaces, comma, -⟩ := hl.comma
    rw [fuelItems, writeItems, comma]
    simp only [List.length_cons, List.length_append]
    omega

theorem fuelMembers_le (hl : l.Clear) : (ms : List (Text × Json)) → {levels : Nat} →
    LegibleMembers levels ms → fuelMembers ms ≤ 2 * (writeMembers l ms).length
  | [], _, _ => by simp [fuelMembers]
  | (k, v) :: ms, _, h => by
    have first := fuel_le hl v h.2.1
    have others := fuelMembers_le hl ms h.2.2
    obtain ⟨spaces, comma, -⟩ := hl.comma
    rw [fuelMembers, writeMembers, comma]
    simp only [List.length_cons, List.length_append]
    omega

end

/-- A legible value is read back as it was written. -/
theorem read_write (hl : l.Clear) {v : Json} (h : v.Legible levels) :
    read levels (Text.ofChars (write l v)) = .ok v := by
  obtain ⟨c, cs, e, hc⟩ := write_begins (l := l) h
  have enough := fuel_le hl v h
  have value := value_write hl v [] (n := 2 * (Text.ofChars (write l v)).length + 2) h
    (by simp [Text.ofChars]; omega) Reader.closed_nil
  rw [List.append_nil, e] at value
  have document : Reader.document levels (Text.ofChars (write l v)) = .ok v := by
    rw [e]
    unfold Reader.document
    split
    · simp_all [begins]
    · rw [Text.ofChars_cons, skip_of_begins hc, ← Text.ofChars_cons, value]
      rfl
  rw [read, document]
  rfl

end Registrar.Json
