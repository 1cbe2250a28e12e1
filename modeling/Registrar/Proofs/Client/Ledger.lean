import Registrar.Proofs.Client.Posting
import Registrar.Proofs.Program.Behaves

/-!
# A registry that others use too

A `Ledger` is a registry that never forgets a version of a subject, and that stores the document
which was posted to a subject at the version with which it answers. A reference stands for a
supplied one, `Stands`, if the document of the supplied schema is stored at its subject and version,
with references to its own children that stand for these in turn.

Whatever others post between its requests, a client that registers references posts only documents
whose references stand for the supplied ones, and ends with references that do. It takes the
identifier and the version of a schema from two requests, and others may add versions to the subject
in between. That does no harm because the second request names the document.
-/

namespace Registrar

open Exchange (Call)
open Posting (document)

variable {ε : Type}

/-- The bytes of the document with which a schema is registered. -/
def Posting.posted (type : SchemaType) (text : Text) (children : List RegisteredReference) :
    Bytes :=
  Utf8.encode (Json.write Json.spaced (document type text children))

/-- What a request comes to that gives an envelope. -/
theorem Posting.run_post_ok_iff {w : Program.World Exchange.interface ε} {base subject : Text}
    {tail : String} {body : Json} {d : Envelope} {e e' : ε} :
    (Posting.post w base subject tail body).run e = (.ok d, e') ↔
      ∃ url response, Posting.address base subject tail = .ok url ∧
        w.reply (Call.post url (Utf8.encode (Json.write Json.spaced body))) e = (.ok response, e') ∧
          Envelope.ofResponse response = .ok d := by
  constructor
  · intro h
    obtain ⟨url, e₁, addressed, h⟩ := Worldly.of_run_bind h
    obtain ⟨response, e₂, replied, read⟩ := Worldly.of_run_bind h
    rw [Worldly.run_ofExcept] at addressed read
    rw [Client.run_response_post] at replied
    obtain ⟨address, rfl⟩ := Prod.mk.inj addressed
    obtain ⟨envelope, rfl⟩ := Prod.mk.inj read
    exact ⟨url, response, address, replied, envelope⟩
  · rintro ⟨url, response, address, replied, read⟩
    unfold Posting.post
    rw [address, Worldly.run_bind, Worldly.run_ofExcept]
    dsimp only
    rw [Worldly.run_bind, Client.run_response_post, replied]
    dsimp only
    rw [read, Worldly.run_ofExcept]

/-- A world that is a registry at the base URL. How versions come about plays no part. -/
structure Ledger (w : Program.World Exchange.interface ε) (base : Text) where
  /-- The body that is stored as a version of a subject. -/
  stored : ε → Text → Nat → Option Bytes
  keeps : ∀ {e s v b} c, stored e s v = some b → stored (w.reply c e).2 s v = some b
  answers : ∀ {e e' s body d v}, (Posting.post w base s "" body).run e = (.ok d, e') →
    d.version = .ok v → stored e' s v = some (Utf8.encode (Json.write Json.spaced body))

namespace Ledger

open Routine Client Posting

/-! ## What stands for what -/

/-- What is stored in the versions of subjects. -/
abbrev Contents := Text → Nat → Option Bytes

/-- What is stored stays. -/
def Contents.Grows (s s' : Contents) : Prop := ∀ subject v b, s subject v = some b →
  s' subject v = some b

section

variable (stored : Contents) (type : SchemaType)

mutual

/-- The reference stands for the supplied one: the document of this is stored there. -/
def Stands : SuppliedReference → RegisteredReference → Prop
  | .mk name subject text below, x => x.name = Text.ofString name ∧
    x.subject = Text.ofString subject ∧ ∃ children, StandsAll below children ∧
      stored x.subject x.version = some (posted type text children)

/-- The references stand for the supplied ones in their order. -/
def StandsAll : List SuppliedReference → List RegisteredReference → Prop
  | [], [] => True
  | r :: rs, x :: xs => Stands r x ∧ StandsAll rs xs
  | _, _ => False

end

end

section

variable {stored stored' : Contents} {type : SchemaType}

mutual

theorem Stands.mono (grows : stored.Grows stored') : (r : SuppliedReference) →
    {x : RegisteredReference} → Stands stored type r x → Stands stored' type r x
  | .mk name subject text below, _, h => by
    obtain ⟨hn, hs, children, stand, kept⟩ := h
    exact ⟨hn, hs, children, StandsAll.mono grows below stand, grows _ _ _ kept⟩

theorem StandsAll.mono (grows : stored.Grows stored') : (rs : List SuppliedReference) →
    {xs : List RegisteredReference} → StandsAll stored type rs xs → StandsAll stored' type rs xs
  | [], [], _ => trivial
  | r :: rs, _ :: _, h => ⟨Stands.mono grows r h.1, StandsAll.mono grows rs h.2⟩

end

end

/-- The node occurs in the forest. -/
inductive Occurs (n : SuppliedReference) : List SuppliedReference → Prop where
  | here {rs : List SuppliedReference} (h : n ∈ rs) : Occurs n rs
  | inside {r : SuppliedReference} {rs : List SuppliedReference} (h : r ∈ rs)
    (inner : Occurs n r.references) : Occurs n rs

theorem Occurs.mono {n : SuppliedReference} {rs rs' : List SuppliedReference} (h : Occurs n rs)
    (sub : rs ⊆ rs') : Occurs n rs' := by
  cases h with
  | here h => exact .here (sub h)
  | inside h inner => exact .inside (sub h) inner

/-! ## Posting among others -/

section

variable {w : Program.World Exchange.interface ε} {base : Text}

/-- The ledger grows. -/
def regime (l : Ledger w base) : Regime Exchange.interface ε where
  toWorld := w
  Later e e' := Contents.Grows (l.stored e) (l.stored e')
  refl _ _ _ _ := id
  trans h h' s v b hb := h' s v b (h s v b hb)
  later_reply c _ _ _ _ := l.keeps c

variable {settings : Settings} {l : Ledger w settings.url} {Allowed : ε → Call → Prop} {e : ε}

/-- The response was given to a request, and the world is later. -/
structure Responded (l : Ledger w settings.url) (e : ε) (url : Text) (body : Json)
    (response : Response) (e' : ε) : Prop where
  later : l.regime.Later e e'
  given : ∃ e₁ e₂, (Client.response w url (some body)).run e₁ = (.ok response, e₂) ∧
    l.regime.Later e₂ e'

theorem Responded.mono {url : Text} {body : Json} {response : Response} {e₁ e₂ : ε}
    (h : l.Responded e url body response e₁) (later : l.regime.Later e₁ e₂) :
    l.Responded e url body response e₂ where
  later := l.regime.trans h.later later
  given :=
    let ⟨e₃, e₄, run, later'⟩ := h.given
    ⟨e₃, e₄, run, l.regime.trans later' later⟩

/-- A request with a body, which the world answers when it is made. -/
theorem behaves_measured (url : Text) (body : Json)
    (allowed : ∀ e', l.regime.Later e e' →
      Allowed e' (.post url (Utf8.encode (Json.write Json.spaced body)))) :
    Behaves l.regime Allowed (l.Responded e url body)
      ((direct settings).measured url (some body)) e := by
  have exchanged : Behaves l.regime Allowed (l.Responded e url body)
      ((direct settings).exchange url (some body)) e := by
    let call := Call.post url (Utf8.encode (Json.write Json.spaced body))
    have awaited : Behaves l.regime Allowed (fun reply e' => ∀ response, reply = .ok response →
        l.Responded e url body response e') (await (I := Exchange.interface) call) e := by
      refine behaves_await allowed fun e₁ e' later later' response replied =>
        ⟨?_, e₁, _, ?_, later'⟩
      · exact l.regime.trans later (l.regime.trans (l.regime.later_reply call e₁) later')
      · rw [run_response_post]
        exact Prod.ext replied rfl
    exact awaited.bind fun reply e' h =>
      behaves_ofExcept fun response ok e'' later => (h response ok).mono later
  refine exchanged.attempt_bind fun result e₁ hr => ?_
  have rest {e₂ : ε} (later : l.regime.Later e₁ e₂) :
      Behaves l.regime Allowed (l.Responded e url body) (do
        mark (.duration .post)
        let response ← Routine.ofExcept result
        mark (.request .post (.status response.status))
        return response : Routine Exchange.interface Response) e₂ := by
    refine (behaves_mark _).bind fun _ e₃ later' => ?_
    refine (behaves_ofExcept (Q := l.Responded e url body) fun response ok e₄ later'' => ?_).bind ?_
    · exact (hr response ok).mono (l.regime.trans later (l.regime.trans later' later''))
    · intro response e₄ responded
      refine (behaves_mark _).bind fun _ e₅ later'' => behaves_pure fun e₆ later₃ => ?_
      exact responded.mono (l.regime.trans later'' later₃)
  split
  · split
    · exact (behaves_mark _).bind fun _ e₂ later => rest later
    · exact rest (l.regime.refl _)
  · exact rest (l.regime.refl _)

/-- The envelope that the world has answered a document with, the world being later by now. -/
theorem behaves_send {Q : Envelope → ε → Prop} (r : Resource) (body : Json)
    (allowed : ∀ url e', l.regime.Later e e' →
      Allowed e' (.post url (Utf8.encode (Json.write Json.spaced body))))
    (answered : ∀ e₁ d e₂ e', (answer w settings r (some body)).run e₁ = (.ok d, e₂) →
      l.regime.Later e₂ e' → l.regime.Later e e' → Q d e') :
    Behaves l.regime Allowed Q ((direct settings).send r (some body)) e := by
  refine (behaves_ofExcept (Q := fun url e' => (direct settings).url r = .ok url ∧
    l.regime.Later e e') fun url ok _ later => ⟨ok, later⟩).bind
      fun url e₁ ⟨addressed, later₁⟩ => ?_
  refine (behaves_measured (l := l) url body fun e' later =>
    allowed url e' (l.regime.trans later₁ later)).bind fun response e₂ responded => ?_
  have finish {e₃ : ε} (later : l.regime.Later e₂ e₃) : Behaves l.regime Allowed Q
      (Routine.ofExcept (Envelope.ofResponse response)) e₃ := by
    refine behaves_ofExcept fun d ok e₄ later' => ?_
    obtain ⟨later₅, e₅, e₆, run, later₆⟩ := responded.mono (l.regime.trans later later')
    refine answered e₅ d e₆ e₄ ?_ later₆ (l.regime.trans later₁ later₅)
    unfold answer
    rw [addressed, Worldly.run_bind, Worldly.run_ofExcept]
    dsimp only
    rw [Worldly.run_bind, run]
    dsimp only
    rw [ok]
    exact Worldly.run_ofExcept ..
  split
  · exact (behaves_note _ _ _ _).bind fun _ e₃ later => finish later
  · exact finish (l.regime.refl _)

/-- A reference whose own references stand for something is stored where it says. -/
theorem behaves_postReference (subject : Text) (name : String) (type : SchemaType) (text : Text)
    (children : List RegisteredReference)
    (allowed : ∀ url e', l.regime.Later e e' → Allowed e' (.post url (posted type text children))) :
    Behaves l.regime Allowed (fun x e' => l.regime.Later e e' ∧ x.name = Text.ofString name ∧
        x.subject = subject ∧
        l.stored e' x.subject x.version = some (posted type text children))
      ((direct settings).postReference subject name type text children) e := by
  unfold postReference
  rw [registration_eq]
  refine (behaves_send (Q := fun _ e' => l.regime.Later e e') (.versions subject) _ allowed
    fun _ _ _ _ _ _ later => later).bind fun added e₁ later₁ => ?_
  refine (behaves_resolving (Q := fun _ e' => l.regime.Later e e')
    fun _ _ _ later => l.regime.trans later₁ later).bind fun _ e₂ later₂ => ?_
  refine (behaves_send (Q := fun d e' => l.regime.Later e e' ∧ ∀ v, d.version = .ok v →
    l.stored e' subject v = some (posted type text children)) (.subject subject) _
    (fun url e' later => allowed url e' (l.regime.trans later₂ later)) ?_).bind
    fun stored e₃ ⟨later₃, kept⟩ => ?_
  · intro e₁ d e' e'' run later later'
    unfold answer at run
    rw [url_subject] at run
    exact ⟨l.regime.trans later₂ later', fun v hv => later _ _ _ (l.answers run hv)⟩
  refine (behaves_resolving (Q := fun v e' => l.regime.Later e e' ∧
    l.stored e' subject v = some (posted type text children)) ?_).bind ?_
  · exact fun v hv e' later => ⟨l.regime.trans later₃ later, later _ _ _ (kept v hv)⟩
  · rintro v e₄ ⟨later₄, kept⟩
    exact behaves_pure fun e' later =>
      ⟨l.regime.trans later₄ later, rfl, rfl, later _ _ _ kept⟩

mutual

theorem behaves_tree (type : SchemaType) {e : ε} : (r : SuppliedReference) →
    (∀ url e' n children, Occurs n [r] → StandsAll (l.stored e') type n.references children →
      Allowed e' (.post url (posted type n.text children))) →
    Behaves l.regime Allowed (fun x e' => l.regime.Later e e' ∧ Stands (l.stored e') type r x)
      ((direct settings).postTree type r) e
  | .mk name subject text below, allowed => by
    rw [postTree]
    refine (behaves_forest type below fun url e' n children occurs =>
      allowed url e' n children (.inside (.head _) occurs)).bind
        fun children e₁ ⟨later, stand⟩ => ?_
    refine (behaves_postReference (l := l) _ _ _ _ _ fun url e' later' => ?_).imp ?_
    · exact allowed url e' (.mk name subject text below) children (.here (.head _))
        (stand.mono later' below)
    · rintro x e' ⟨later', hn, hs, kept⟩
      exact ⟨l.regime.trans later later', hn, hs, children, stand.mono later' below, hs ▸ kept⟩

theorem behaves_forest (type : SchemaType) {e : ε} : (rs : List SuppliedReference) →
    (∀ url e' n children, Occurs n rs → StandsAll (l.stored e') type n.references children →
      Allowed e' (.post url (posted type n.text children))) →
    Behaves l.regime Allowed (fun xs e' => l.regime.Later e e' ∧ StandsAll (l.stored e') type rs xs)
      ((direct settings).postTrees type rs) e
  | [], _ => by
    rw [postTrees]
    exact behaves_pure fun e' later => ⟨later, trivial⟩
  | r :: rs, allowed => by
    rw [postTrees]
    refine (behaves_tree type r fun url e' n children occurs =>
      allowed url e' n children (occurs.mono (by simp))).bind fun x e₁ ⟨later₁, stands⟩ => ?_
    refine (behaves_forest type rs fun url e' n children occurs =>
      allowed url e' n children (occurs.mono (by simp))).bind fun xs e₂ ⟨later₂, stand⟩ => ?_
    refine behaves_pure fun e' later => ⟨?_, ?_, ?_⟩
    · exact l.regime.trans later₁ (l.regime.trans later₂ later)
    · exact stands.mono (l.regime.trans later₂ later) r
    · exact stand.mono later rs

end

theorem behaves_operation {α : Type} {Q : α → ε → Prop} (name : String)
    {x : Routine Exchange.interface α} (h : Behaves l.regime Allowed Q x e)
    (mono : ∀ {a e' e''}, l.regime.Later e' e'' → Q a e' → Q a e'') :
    Behaves l.regime Allowed Q (operation name x) e :=
  h.logged mono _

/-- A forest is registered, or nothing of it is because it is too high. -/
theorem behaves_registerForest (type : SchemaType) (rs : List SuppliedReference)
    (allowed : ∀ url e' n children, Occurs n rs →
      StandsAll (l.stored e') type n.references children →
      Allowed e' (.post url (posted type n.text children))) :
    Behaves l.regime Allowed (fun xs e' => StandsAll (l.stored e') type rs xs)
      ((direct settings).registerForest type rs) e := by
  by_cases fits : SuppliedReference.heightAll rs ≤ settings.maxDepth
  · rw [registerForest_eq (direct settings) type fits]
    refine Behaves.rewording ?_ (fun later stand => stand.mono later rs) _
    exact (behaves_forest type rs allowed).imp fun _ _ h => h.2
  · obtain ⟨e, failed⟩ := registerForest_deep (direct settings) type (Nat.lt_of_not_le fits)
    rw [failed]
    exact behaves_throw (.resolution e)

variable (settings)

theorem behaves_register (l : Ledger w settings.url) (subject : Text) (x : SuppliedSchema)
    (allowed : ∀ url e' n children, Occurs n x.references →
      StandsAll (l.stored e') x.type n.references children →
      Allowed e' (.post url (posted x.type n.text children)))
    (allowed' : ∀ url e' children, StandsAll (l.stored e') x.type x.references children →
      Allowed e' (.post url (posted x.type x.text children))) :
    Behaves l.regime Allowed (fun y e' => y.type = x.type ∧ y.text = x.text ∧
      StandsAll (l.stored e') x.type x.references y.references)
      ((direct settings).register subject x) e := by
  refine behaves_operation _ ?_ fun later h => ⟨h.1, h.2.1, h.2.2.mono later _⟩
  refine (behaves_registerForest x.type x.references allowed).bind fun children e₁ stand => ?_
  rw [registration_eq]
  refine (behaves_send (Q := fun _ e' => l.regime.Later e₁ e') (.versions subject) _
    (fun url e' later => allowed' url e' children (stand.mono later _))
    fun _ _ _ _ _ _ later => later).bind fun envelope e₂ later₂ => ?_
  refine (behaves_resolving (Q := fun _ e' => l.regime.Later e₁ e')
    fun _ _ _ later => l.regime.trans later₂ later).bind fun id e₃ later₃ => ?_
  refine (behaves_note _ _ _ _).bind fun _ e₄ later₄ => behaves_pure fun e' later => ?_
  exact ⟨rfl, rfl, stand.mono (l.regime.trans later₃ (l.regime.trans later₄ later)) _⟩

theorem behaves_registerReference (l : Ledger w settings.url) (subject : Text)
    (type : SchemaType) (r : SuppliedReference)
    (allowed : ∀ url e' n children, Occurs n r.references →
      StandsAll (l.stored e') type n.references children →
      Allowed e' (.post url (posted type n.text children)))
    (allowed' : ∀ url e' children, StandsAll (l.stored e') type r.references children →
      Allowed e' (.post url (posted type r.text children))) :
    Behaves l.regime Allowed (fun y e' => y.name = Text.ofString r.name ∧ y.subject = subject ∧
      ∃ children, StandsAll (l.stored e') type r.references children ∧
        l.stored e' y.subject y.version = some (posted type r.text children))
      ((direct settings).registerReference subject type r) e := by
  have keep {y : RegisteredReference} {e₁ e₂ : ε} (later : l.regime.Later e₁ e₂)
      (h : y.name = Text.ofString r.name ∧ y.subject = subject ∧
        ∃ children, StandsAll (l.stored e₁) type r.references children ∧
          l.stored e₁ y.subject y.version = some (posted type r.text children)) :
      y.name = Text.ofString r.name ∧ y.subject = subject ∧
        ∃ children, StandsAll (l.stored e₂) type r.references children ∧
          l.stored e₂ y.subject y.version = some (posted type r.text children) := by
    obtain ⟨hn, hs, children, stand, kept⟩ := h
    exact ⟨hn, hs, children, stand.mono later _, later _ _ _ kept⟩
  refine behaves_operation _ ?_ keep
  refine (behaves_registerForest type r.references allowed).bind fun children e₁ stand => ?_
  refine Behaves.rewording ?_ ?_ _
  · exact (behaves_postReference (l := l) subject r.name type r.text children fun url e' later =>
      allowed' url e' children (stand.mono later _)).imp fun y e' ⟨later, hn, hs, kept⟩ =>
        ⟨hn, hs, children, stand.mono later _, hs ▸ kept⟩
  · exact keep

end

end Ledger

end Registrar
