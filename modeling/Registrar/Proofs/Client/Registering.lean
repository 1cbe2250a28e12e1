import Registrar.Proofs.Client.Requests
import Registrar.Proofs.Envelope
import Registrar.Proofs.Program.Ends

/-!
# What registering gives

The references that a registration gives are plain: their names and subjects are ordinary text and
their versions are numbers of the registry. A registration leaves the cache alone, and when it gives
a schema, its last request posted that schema.
-/

namespace Registrar.Client

open Exchange (Call)
open Routine

variable {I : Interface} {α ε : Type}

/-! ## References -/

theorem version_lt {d : Envelope} {n : Nat} (h : d.version = .ok n) : n < Envelope.numberBound := by
  unfold Envelope.version at h
  cases hv : d.member? "version" with
  | none =>
    rw [hv] at h
    cases h
  | some m =>
    rw [hv] at h
    cases h
    exact Envelope.member?_lt hv

theorem gives_postReference (c : Client I) (subject name : String) (type : SchemaType) (text : Text)
    (references : List RegisteredReference) :
    Gives RegisteredReference.Plain
      (c.postReference (.ofString subject) name type text references) := by
  refine (gives_anything _).bind fun added _ => (gives_anything _).bind fun _ _ => ?_
  refine (gives_anything _).bind fun stored _ => ?_
  refine (gives_resolving fun n => version_lt (n := n)).bind ?_
  exact fun n hn => gives_pure ⟨Text.settled_ofChars _, Text.settled_ofChars _, hn⟩

/-- What is registered so far is plain. -/
def Registered.Plain (done : Registered) : Prop := ∀ i r, Assoc.get? i done = some r → r.Plain

theorem gives_at {done : Registered} (h : done.Plain) (i : Nat) :
    Gives RegisteredReference.Plain (done.at i : Routine I _) := by
  unfold Registered.at
  split
  · rename_i r hr
    exact gives_pure (h i r hr)
  · exact gives_throw _

theorem gives_walk (c : Client I) (type : SchemaType) (a : Arena) (stops : List Arena.Stop)
    {done : Registered} (h : done.Plain) :
    Gives Registered.Plain (c.walk type a stops done) := by
  fun_induction c.walk type a stops done with
  | case1 done => exact gives_pure h
  | case2 done i rest hi ih => exact ih h
  | case3 => exact gives_throw _
  | case4 done i rest hi node ih =>
    refine (gives_mapM fun j _ => gives_at h j).bind fun below _ => ?_
    refine (gives_postReference ..).bind fun r hr => ih r fun j x hx => ?_
    by_cases same : j = i
    · subst same
      rw [Assoc.get?_put_self] at hx
      cases hx
      exact hr
    · rw [Assoc.get?_put_of_ne same] at hx
      exact h j x hx
  | case5 => exact gives_throw _

theorem gives_registerForest (c : Client I) (type : SchemaType) (roots : List SuppliedReference) :
    Gives (fun rs => ∀ r ∈ rs, r.Plain) (c.registerForest type roots) := by
  unfold registerForest
  split
  · exact gives_pure (by simp)
  · refine Gives.bind (Q := Registered.Plain) ?_ fun done h => gives_mapM fun i _ => gives_at h i
    refine Gives.rewording ((gives_anything _).bind fun arena _ => ?_) _
    exact gives_walk c type arena _ fun i r hr => by cases hr

/-! ## The cache is left alone -/

theorem keeps_postReference (settings : Settings) (subject : Text) (name : String)
    (type : SchemaType) (text : Text) (references : List RegisteredReference) :
    Keeps SameCache ((direct settings).postReference subject name type text references) :=
  (keeps_send settings _ _).bind fun _ => (keeps_resolving _).bind fun _ =>
    (keeps_send settings _ _).bind fun _ => (keeps_resolving _).bind fun _ => keeps_pure _

theorem keeps_at {R : State → State → Prop} (done : Registered) (i : Nat) :
    Keeps R (done.at i : Routine I _) := by
  unfold Registered.at
  split
  · exact keeps_pure _
  · exact keeps_throw _

theorem keeps_walk (settings : Settings) (type : SchemaType) (a : Arena) (stops : List Arena.Stop)
    (done : Registered) : Keeps SameCache ((direct settings).walk type a stops done) := by
  fun_induction (direct settings).walk type a stops done with
  | case1 done => exact keeps_pure done
  | case2 done i rest hi ih => exact ih
  | case3 => exact keeps_throw _
  | case4 done i rest hi node ih =>
    refine (keeps_mapM fun j _ => keeps_at done j).bind fun below => ?_
    exact (keeps_postReference ..).bind fun r => ih r
  | case5 => exact keeps_throw _

theorem keeps_registerForest (settings : Settings) (type : SchemaType)
    (roots : List SuppliedReference) :
    Keeps SameCache ((direct settings).registerForest type roots) := by
  unfold registerForest
  split
  · exact keeps_pure []
  · refine Keeps.bind (Keeps.rewording ?_ _) fun done => keeps_mapM fun i _ => keeps_at done i
    exact (keeps_resolving _).bind fun arena => keeps_walk settings type arena _ _

theorem keeps_register (settings : Settings) (subject : Text) (x : SuppliedSchema) :
    Keeps SameCache ((direct settings).register subject x) :=
  keeps_operation _ <| (keeps_registerForest settings _ _).bind fun _ =>
    (keeps_send settings _ _).bind fun _ => (keeps_resolving _).bind fun _ =>
      (keeps_note ..).bind fun _ => keeps_pure _

theorem keeps_fetchBySubject (settings : Settings) (n : Naming) :
    Keeps SameCache ((direct settings).fetchBySubject n) := by
  refine keeps_operation _ ((keeps_resolving _).bind fun subject => ?_)
  split
  · exact keeps_register ..
  · exact (keeps_send settings _ _).bind fun _ => keeps_resolving _

/-! ## The last request -/

variable {w : Program.World Exchange.interface ε}

/-- What follows the references of a registration. -/
def posting (c : Client I) (subject : Text) (x : SuppliedSchema)
    (references : List RegisteredReference) : Routine I RegisteredSchema := do
  let envelope ← c.send (.versions subject)
    (some (Envelope.registration x.type x.text references))
  let id ← Routine.resolving envelope.id
  c.note Level.debug "Registered schema"
    [("subject", .string subject), ("schema_id", .int id),
     ("reference_count", .int references.length)]
  return ⟨id, x.type, x.text, references⟩

theorem yields_posting (settings : Settings) (subject : Text) (x : SuppliedSchema)
    (references : List RegisteredReference) :
    Yields w ((direct settings).posting subject x references) (do
      let envelope ← answer w settings (.versions subject)
        (some (Envelope.registration x.type x.text references))
      let id ← MonadExcept.ofExcept (envelope.id.mapError .resolution)
      return ⟨id, x.type, x.text, references⟩) :=
  (yields_send settings _ _).bind fun _ => (yields_resolving _).bind fun _ =>
    (yields_pure _).after_note

/-- A registration that gives a schema has the registry answer, to the document that registers the
schema, with its identifier. -/
theorem of_run_register {settings : Settings} {subject : Text} {x : SuppliedSchema} {s s' : State}
    {e e' : ε} {y : RegisteredSchema}
    (h : ((direct settings).register subject x).run.run w s e = (.ok y, s', e')) :
    y.type = x.type ∧ y.text = x.text ∧ (∀ r ∈ y.references, r.Plain) ∧
      ∃ e₁ envelope, (answer w settings (.versions subject)
        (some (Envelope.registration y.type y.text y.references))).run e₁ = (.ok envelope, e') ∧
        envelope.id = .ok y.id := by
  obtain ⟨s₁, ran⟩ := of_run_operation h
  obtain ⟨references, s₂, e₂, forest, posted⟩ := of_run_bind ran
  change ((direct settings).posting subject x references).run.run w s₂ e₂ = _ at posted
  have plain := (gives_registerForest _ x.type x.references).run forest
  obtain ⟨envelope, e₃, answered, rest⟩ := Worldly.of_run_bind
    ((yields_posting settings subject x references).of_run posted)
  obtain ⟨id, e₄, read, rest⟩ := Worldly.of_run_bind rest
  rw [Worldly.run_ofExcept] at read
  cases rest
  obtain rfl : e₃ = e' := congrArg Prod.snd read
  have given : envelope.id = .ok id := of_mapError_ok (congrArg Prod.fst read)
  exact ⟨rfl, rfl, plain, e₂, envelope, answered, given⟩

end Registrar.Client
