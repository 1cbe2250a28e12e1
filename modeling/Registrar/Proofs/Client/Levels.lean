import Registrar.Proofs.Client.Plans

/-!
# The levels of a registration

A registration whose references are nested too deeply is refused before anything is posted, and one
whose references are not is never refused for that reason. The error of a request cannot be taken
for the refusal: it may be cured by a retry or reads differently.
-/

namespace Registrar

/-! ## Telling errors apart -/

namespace ResolutionError

theorem exists_describe_eq (e : ResolutionError) :
    ∃ rest, e.describe = Text.ofString "Error: " ++ (e.message ++ rest) :=
  ⟨_, by simp only [describe, List.append_assoc]; rfl⟩

/-- Errors that read alike have messages that start alike. -/
theorem eq_of_describe {e f : ResolutionError} (h : e.describe = f.describe) {a b : Symbol}
    {s t : Text} (he : e.message = a :: s) (hf : f.message = b :: t) : a = b := by
  obtain ⟨u, hu⟩ := e.exists_describe_eq
  obtain ⟨v, hv⟩ := f.exists_describe_eq
  rw [hu, hv, he, hf] at h
  exact (List.cons.inj (List.append_cancel_left h)).1

theorem message_tooDeep (limit : Nat) (subject : Text) :
    ∃ t, (tooDeep limit subject).message = .char 'r' :: t := by
  simp [tooDeep, ResolutionError.subject, Text.ofString]

theorem message_status (code : Int) : ∃ t, (status code).message = .char 'D' :: t := by
  simp [status, Text.ofString]

/-- The error of a request does not read like the refusal of references, unless a retry may cure
it. -/
theorem Raw.describe_ne {e : ResolutionError} (h : e.Raw) (permanent : e.retriable = false)
    (limit : Nat) (subject : Text) : e.describe ≠ (tooDeep limit subject).describe := by
  intro same
  obtain ⟨t, ht⟩ := message_tooDeep limit subject
  cases h with
  | transport => cases permanent
  | status code =>
    obtain ⟨u, hu⟩ := message_status code
    cases eq_of_describe same hu ht
  | parse message cause known =>
    simp only [List.mem_cons, List.not_mem_nil, or_false] at known
    rcases known with rfl | rfl | rfl | rfl <;> cases eq_of_describe same rfl ht

end ResolutionError

namespace Client

open Act Routine SuppliedReference

variable {α : Type} {settings : Settings} {plan : List Duty}
  {es : List (Act State Exchange.interface)} {f : Failure}

/-- The failure of a registration whose references are nested too deeply. -/
def refusal (limit : Nat) (subject : Text) : Failure :=
  .resolution ⟨.general, "Error posting a reference",
    some (ResolutionError.tooDeep limit subject).describe, false, false⟩

/-- What a failure of a request becomes is not the refusal. -/
theorem Breaks.reworded_ne (h : Breaks plan f) (limit : Nat) (subject : Text) :
    reworded referenceError f ≠ refusal limit subject := by
  intro same
  cases h with
  | raw raw =>
    injection same with same
    injection same with _ _ cause permanent
    exact raw.describe_ne permanent limit subject (Option.some.inj cause)
  | nesting => cases same
  | unencodable => cases same
  | cancelled => cases same

theorem Breaks.ne (h : Breaks plan f) (limit : Nat) (subject : Text) : f ≠ refusal limit subject := by
  rintro rfl
  cases h with
  | raw raw => cases raw

/-- The levels of the forest `roots` decide whether the routine is refused. -/
structure Limited (limit : Nat) (roots : List SuppliedReference)
    (x : Routine Exchange.interface α) : Prop where
  /-- It is refused exactly if there is a reference beyond the limit. -/
  refused_iff : ∀ es r, (∀ a ∈ es, a.Fair) → Program.Path x.run es (.done r) →
    ((∃ subject, r = .error (refusal limit subject)) ↔ ∃ n y, limit < n ∧ Nested roots n y)
  /-- Then it makes no call, and the refusal tells such a reference. -/
  silent : (∃ n y, limit < n ∧ Nested roots n y) → ∀ es q, Program.Path x.run es q →
    calls es = [] ∧ ∀ r, q = .done r →
      ∃ n y, limit < n ∧ Nested roots n y ∧ r = .error (refusal limit y.subject)

theorem limited {limit : Nat} {roots : List SuppliedReference} {x : Routine Exchange.interface α}
    (deep : limit < heightAll roots → x.run.Proceeds (fun _ => False) (fun _ r =>
      ∃ n y, limit < n ∧ Nested roots n y ∧ r = .error (refusal limit y.subject)) [])
    (flat : heightAll roots ≤ limit → ∀ es r, (∀ a ∈ es, a.Fair) →
      Program.Path x.run es (.done r) → ∀ subject, r ≠ .error (refusal limit subject)) :
    Limited limit roots x where
  refused_iff es r fair path := by
    rw [← lt_heightAll_iff]
    constructor
    · rintro ⟨subject, refused⟩
      by_contra low
      exact flat (Nat.le_of_not_lt low) es r fair path subject refused
    · intro high
      obtain ⟨n, y, -, -, refused⟩ := (deep high).path path
      exact ⟨_, refused⟩
  silent beyond es q path := by
    have proceeds := deep (lt_heightAll_iff.2 beyond)
    constructor
    · refine List.filter_eq_nil_iff.2 fun a ha => ?_
      obtain ⟨s, t, rfl⟩ := proceeds.forall_changed path a ha
      simp [isCall]
    · rintro r rfl
      exact proceeds.path path

/-- A forest that is too high is refused before anything else is done. -/
theorem proceeds_refused {name : String} (type : SchemaType) {roots : List SuppliedReference}
    (high : settings.maxDepth < heightAll roots)
    (k : List RegisteredReference → Routine Exchange.interface α) :
    (operation name ((direct settings).registerForest type roots >>= k)).run.Proceeds
      (fun _ => False) (fun _ r => ∃ n y, settings.maxDepth < n ∧ Nested roots n y ∧
        r = .error (refusal settings.maxDepth y.subject)) [] := by
  obtain ⟨n, y, deep, nested, refused⟩ := registerForest_refused (direct settings) type high
  refine proceeds_operation ?_ fun _ _ _ _ => id
  rw [refused, Routine.run_bind]
  exact ⟨n, y, deep, nested, rfl⟩

/-- A registration is refused for the depth of its references exactly if one of them stands on a
level beyond the limit, where those of the schema itself stand on level one. Then no request is
sent. The same holds of the registration of a reference and of those below it. -/
theorem registration_limited (settings : Settings) :
    (∀ (subject : Text) (x : SuppliedSchema),
      Limited settings.maxDepth x.references ((direct settings).register subject x)) ∧
    ∀ (subject : Text) (type : SchemaType) (y : SuppliedReference),
      Limited settings.maxDepth y.references
        ((direct settings).registerReference subject type y) := by
  constructor
  · intro subject x
    refine limited (fun high => proceeds_refused x.type high _) fun fits es r fair path s => ?_
    rintro rfl
    rcases (proceeds_register subject x fits).path path with ⟨f, posted, same⟩ | ⟨es', -, root⟩
    · have breaks := posted.follows.breaks (fair_calls fair)
      exact breaks.reworded_ne _ s (Except.error.inj same).symm
    · obtain ⟨cs', same, follows⟩ := root
      have breaks := follows.breaks fun a ha =>
        fair_calls fair a (same ▸ List.mem_append_right _ ha)
      exact breaks.ne _ s rfl
  · intro subject type y
    refine limited (fun high => proceeds_refused type high _) fun fits es r fair path s => ?_
    rintro rfl
    obtain ⟨r', posted, same⟩ := (proceeds_registerReference subject type y fits).path path
    have follows := posted.follows
    cases r' with
    | ok z => cases same
    | error f =>
      exact (follows.breaks (fair_calls fair)).reworded_ne _ s (Except.error.inj same).symm

/-- Two levels of references are refused with one level allowed, and not with two. -/
theorem registration_limited_nested :
    (∃ es subject, Program.Path ((direct shallow).register [] Posting.nested).run es
        (.done (.error (refusal 1 subject))) ∧ calls es = []) ∧
      ∃ es r, Program.Path ((direct bare).register [] Posting.nested).run es (.done r) ∧
        ∀ subject, r ≠ .error (refusal 2 subject) := by
  let s := State.initial Level.info false
  constructor
  · let p := ((direct shallow).register [] Posting.nested).run
    have path := p.path_acts Posting.unreachable s ()
    have limited := (registration_limited shallow).1 [] Posting.nested
    obtain ⟨none, refused⟩ := limited.silent
      ⟨2, .mk "b" "b" [] [], by decide, .inside (.direct (.head _)) (.head _)⟩ _ _ path
    obtain ⟨n, y, -, -, same⟩ := refused _ rfl
    rw [same] at path
    exact ⟨_, y.subject, path, none⟩
  · let p := ((direct bare).register [] Posting.nested).run
    have path := p.path_acts Posting.unreachable s ()
    have fair : ∀ a ∈ p.acts Posting.unreachable s (), a.Fair :=
      fair_acts (fun _ _ => .inr ⟨_, _, rfl⟩) (fun _ _ _ => .inr ⟨_, _, rfl⟩) p s ()
    refine ⟨_, _, path, fun subject refused => ?_⟩
    have beyond := (((registration_limited bare).1 [] Posting.nested).refused_iff _ _ fair path).1
      ⟨subject, refused⟩
    exact absurd (lt_heightAll_iff.2 beyond) (by decide)

end Client

end Registrar
