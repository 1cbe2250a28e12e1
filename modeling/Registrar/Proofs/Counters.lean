import Registrar.Proofs.Cache.Counters
import Registrar.Proofs.Client.Failures

/-!
# Counters

A client counts its requests by what came of them, the resolution cache its lookups and the errors
of loaders. Whoever reads a counter reads how often that happened: no request and no lookup is
counted twice or left out, whatever else is under way.
-/

namespace Registrar

open Cache Moment Routine

variable {settings : Settings}

namespace Client

/-! ## Requests -/

/-- Every request has left the mark that is due for it. -/
def Metered (es : List (Act State Exchange.interface)) : Prop :=
  ∀ verb ending, gain (.request verb ending) es =
    ((es.filterMap Act.due).count (.request verb ending) : Int)

theorem Metered.changed {es : List (Act State Exchange.interface)} {s t : State}
    (same : t.tally = s.tally) (h : Metered es) : Metered (es ++ [.changed s t]) := by
  intro verb ending
  have none : [Act.changed s t].filterMap Act.due = [] := rfl
  simpa [gain_append, gain, same, none] using h verb ending

/-- What is changed after a request makes up for it. -/
theorem Metered.request {es changes : List (Act State Exchange.interface)} {url : Text}
    {w : Wake (Except Failure Response)} {body : Option Json} (h : Metered es)
    (marked : Marked (.request url w body) changes) :
    Metered (es ++ .request url w body :: changes) := by
  intro verb ending
  have none : changes.filterMap Act.due = [] := by
    rw [List.filterMap_eq_nil_iff]
    intro b hb
    cases b with
    | changed s t => rfl
    | called c r => cases marked.quiet _ hb
  have call : gain (.request verb ending) (Act.request url w body :: changes) =
      gain (.request verb ending) changes := by
    cases body <;> rfl
  rw [gain_append, h verb ending, call, marked.marks, List.filterMap_append, List.count_append,
    List.filterMap_cons, none]
  cases (Act.request url w body).due <;> simp

def metering : Contract Exchange.interface where
  kept := Metered
  failed es _ := Metered es
  kept_changed := Metered.changed
  failed_changed := Metered.changed

theorem metered_send (r : Resource) (body : Option Json) :
    Honours metering ((direct settings).send r body) := by
  intro es kept
  refine (proceeds_send r body kept).imp fun x es' sent => ?_
  have metered : Metered es' := by
    cases sent with
    | unaddressed => exact kept
    | replied _ marked => exact kept.request marked
  cases x <;> exact metered

theorem binding_metering (settings : Settings) : Binding settings metering where
  fetch r := (metered_send r none).bind fun _ => honours_resolving fun _ _ _ => id
  id _ _ := (metered_send _ _).bind fun _ => honours_resolving fun _ _ _ => id
  version _ _ := (metered_send _ _).bind fun _ => honours_resolving fun _ _ _ => id
  refuse _ := id
  foreign := id
  reword := id

end Client

open Client

/-! ## All counters -/

/-- Whatever lookups run together, fail, are cancelled or find the errors or all entries dropped,
the counters of the cache add up. And whatever an operation of a client is replied, when it makes a
request or ends every request before has been counted once, under its verb and by what came of
it. -/
theorem counters_add_up {I : Interface} {γ : Type} [DecidableEq γ] :
    (∀ (threshold : Level) (keepRetriable : Bool) (m : Flight I γ) before,
      Run Lookup.program Aloof (State.initial threshold keepRetriable) (m :: before) →
        m.Discreet → Flight.Balanced (m :: before) m) ∧
    ∀ (settings : Settings) {α : Type} (x : Routine Exchange.interface α),
      Errand (direct settings) x → ∀ es q, Program.Path x.run es q →
        (q.Calls ∨ ∃ r, q = .done r) → Metered es := by
  refine ⟨fun _ _ m before run discreet => Flight.balanced run discreet, ?_⟩
  intro settings α x errand es q path stopped
  obtain ⟨calls, ended⟩ := (errand.honours (binding_metering settings)).path
    (fun _ _ => rfl : Metered []) path
  rcases stopped with here | ⟨r, rfl⟩
  · exact calls here
  · have last := ended r rfl
    cases r <;> exact last

/-! ### A lookup and a request that fail -/

theorem refused_discreet : Flight.refused.Discreet := by
  intro k hk
  change k ∈ [Flight.doomed, Flight.doomed] at hk
  obtain rfl : k = Flight.doomed := by simpa using hk
  exact (Routine.keeps_await (I := Flight.oracle) ()).bind fun _ => Routine.keeps_throw _

/-- Of two lookups of one slot the first one has started its loader, which failed for good, and the
second one was served the error; and a request that did not reach the registry is counted once. -/
theorem counters_of_refused :
    ∃ before, Run Lookup.program Aloof (State.initial Level.info false)
        (Flight.refused :: before) ∧ Flight.refused.Discreet ∧
      1 = Flight.times (fun m => ∃ s t, s.map = .id ∧ m.Starts s t) (Flight.refused :: before) ∧
      1 = {t | ∃ s e, s.map = .id ∧ e.ending = .errorHit ∧
        Flight.Served (Flight.refused :: before) s t e}.ncard ∧
      1 = Flight.times (fun m => ∃ s t f, m.Finishes s t (.error (.resolution f)) ∧
        (f.retriable = true ↔ Category.permanent = .transient)) (Flight.refused :: before) ∧
      ∃ es r, Program.Path ((direct bare).register [] Posting.nested).run es (.done r) ∧
        gain (.request .post .transportError) es = 1 := by
  obtain ⟨before, run⟩ := Flight.refused_reached.run
  obtain ⟨cache, client⟩ := counters_add_up (I := Flight.oracle) (γ := Unit)
  have balanced := cache _ _ _ _ run refused_discreet
  let p := ((direct bare).register [] Posting.nested).run
  let s := State.initial Level.info false
  have path := p.path_acts Posting.unreachable s ()
  have metered := client bare _ (.register [] Posting.nested) _ _ path (.inr ⟨_, rfl⟩)
  have due : (p.acts Posting.unreachable s ()).filterMap Act.due =
      [.request .post .transportError] := by decide +kernel
  refine ⟨before, run, refused_discreet, ?_, ?_, ?_, _, _, path, ?_⟩
  · rw [← balanced.misses]
    decide +kernel
  · rw [← balanced.served .id .errorHit (by simp)]
    decide +kernel
  · rw [← balanced.failures]
    decide +kernel
  · rw [metered, due]
    rfl

end Registrar
