import Mathlib.Data.List.Basic
import Registrar.Cache.Basic
import Registrar.Schedule.Basic

/-!
# The users of the locks of a cache

A cache makes the lock of a slot for its first user and forgets it with the last one. `Booked` ties
what the cache keeps to what the tasks do: every task has a seat, which tells for which slot it
came and where it stands with the lock of that slot. The number of users of a slot is the number of
seats that are taken for it, all of these refer to the one lock that the cache keeps for the slot,
and a lock that is taken is held by the task that says so.

Each move of a task keeps `Booked`. The last user of a slot is the only one, so the lock which it
takes away is nobody's any more; and a lock that is made is new, so no two slots share one.
-/

namespace Registrar.Cache

/-! ## Seats -/

/-- Where a task stands with the lock of its slot. -/
inductive Position where
  /-- It is no user of the lock. -/
  | away
  /-- It is a user and is about to take the lock. -/
  | joined (l : LockId)
  | waiting (l : LockId)
  | holding (l : LockId)
  /-- It is still a user and has no further use for the lock. -/
  | present
  deriving DecidableEq, Repr

namespace Position

def isUser : Position → Bool
  | .away => false
  | _ => true

/-- The lock to which a position refers. -/
def lock? : Position → Option LockId
  | .joined l | .waiting l | .holding l => some l
  | .away | .present => none

end Position

/-- A slot for which a task came, and where the task stands. -/
structure Seat where
  slot : Slot
  position : Position
  deriving DecidableEq, Repr

/-- Whether a seat is taken for a slot. -/
def Seat.uses (s : Slot) (x : Seat) : Bool := x.slot = s && x.position.isUser

section

variable {α : Type} {p : α → Bool} {xs : List α} {t : Nat} {x y : α}

/-- What stands anywhere after a change is new or stood there before. -/
theorem eq_or_of_getElem?_set {u : Nat} {z : α} (h : (xs.set t y)[u]? = some z) :
    z = y ∨ xs[u]? = some z := by
  rw [List.getElem?_set] at h
  grind

theorem countP_set_same (h : xs[t]? = some x) (hp : p y = p x) :
    (xs.set t y).countP p = xs.countP p := by
  obtain ⟨ht, rfl⟩ := List.getElem?_eq_some_iff.1 h
  rw [List.countP_set ht, hp]
  by_cases hx : p xs[t] = true
  · have : 0 < xs.countP p := List.countP_pos_iff.2 ⟨_, List.getElem_mem ht, hx⟩
    simp only [hx, if_true]
    omega
  · simp [hx]

theorem countP_set_true (h : xs[t]? = some x) (hx : p x = false) (hy : p y = true) :
    (xs.set t y).countP p = xs.countP p + 1 := by
  obtain ⟨ht, rfl⟩ := List.getElem?_eq_some_iff.1 h
  simp [List.countP_set ht, hx, hy]

theorem countP_set_false (h : xs[t]? = some x) (hx : p x = true) (hy : p y = false) :
    (xs.set t y).countP p + 1 = xs.countP p := by
  obtain ⟨ht, rfl⟩ := List.getElem?_eq_some_iff.1 h
  have : 0 < xs.countP p := List.countP_pos_iff.2 ⟨_, List.getElem_mem ht, hx⟩
  simp only [List.countP_set ht, hx, hy, if_true, Bool.false_eq_true, if_false]
  omega

end

/-! ## The books -/

/-- What a cache keeps about locks agrees with the seats of the tasks, and so do the locks that are
taken. -/
structure Booked (seats : List Seat) (c : Cache) (taken : Assoc LockId TaskId) : Prop where
  count : ∀ s, (Assoc.get? s c.users).getD 0 = seats.countP (Seat.uses s)
  positive : ∀ s, Assoc.get? s c.users ≠ some 0
  together : ∀ s, (Assoc.get? s c.locks).isSome = (Assoc.get? s c.users).isSome
  lock : ∀ (t : TaskId) (x : Seat) (l : LockId), seats[t]? = some x →
    x.position.lock? = some l → Assoc.get? x.slot c.locks = some l
  holder : ∀ (t : TaskId) (l : LockId),
    Assoc.get? l taken = some t ↔ ∃ s, seats[t]? = some ⟨s, .holding l⟩
  below : ∀ s l, Assoc.get? s c.locks = some l → l < c.fresh
  apart : ∀ s s' l, Assoc.get? s c.locks = some l → Assoc.get? s' c.locks = some l → s = s'

/-- The tables that concern locks are the same. -/
def SameLocks (c d : Cache) : Prop := d.locks = c.locks ∧ d.users = c.users ∧ d.fresh = c.fresh

/-! ## Joining -/

theorem lockOf_of_get? {c : Cache} {s : Slot} {l : LockId} (h : Assoc.get? s c.locks = some l) :
    c.lockOf s = l := by
  simp [Cache.lockOf, h]

/-- The lock that a task finds when it joins is the one that the cache keeps from then on. -/
theorem join_locks_self (c : Cache) (s : Slot) :
    Assoc.get? s (c.join s).locks = some (c.lockOf s) := by
  unfold Cache.join Cache.lockOf
  cases h : Assoc.get? s c.locks <;> simp [h]

theorem join_locks_of_ne (c : Cache) {s s' : Slot} (h : s' ≠ s) :
    Assoc.get? s' (c.join s).locks = Assoc.get? s' c.locks := by
  unfold Cache.join
  split <;> simp [Assoc.get?_put_of_ne h]

theorem fresh_le_join (c : Cache) (s : Slot) : c.fresh ≤ (c.join s).fresh := by
  unfold Cache.join
  split <;> simp

namespace Booked

variable {seats : List Seat} {c d : Cache} {taken taken' : Assoc LockId TaskId} {t : TaskId}
  {s : Slot} {old new : Position} {l : LockId}

theorem empty (keep : Bool) (fresh : LockId) : Booked [] (Cache.empty keep fresh) [] where
  count := by simp [Cache.empty]
  positive := by simp [Cache.empty]
  together := by simp [Cache.empty]
  lock := by simp
  holder := by simp
  below := by simp [Cache.empty]
  apart := by simp [Cache.empty]

theorem congr (h : Booked seats c taken) (hcd : SameLocks c d) : Booked seats d taken := by
  obtain ⟨hl, hu, hf⟩ := hcd
  constructor
  · rw [hu]; exact h.count
  · rw [hu]; exact h.positive
  · rw [hl, hu]; exact h.together
  · rw [hl]; exact h.lock
  · exact h.holder
  · rw [hl, hf]; exact h.below
  · rw [hl]; exact h.apart

/-- A user has a lock, and the cache knows of users. -/
theorem of_user (h : Booked seats c taken) (ht : seats[t]? = some ⟨s, old⟩)
    (hu : old.isUser = true) :
    ∃ n, Assoc.get? s c.users = some (n + 1) ∧ (Assoc.get? s c.locks).isSome = true := by
  have pos : 0 < seats.countP (Seat.uses s) :=
    List.countP_pos_iff.2 ⟨_, List.mem_of_getElem? ht, by simp [Seat.uses, hu]⟩
  rw [← h.count] at pos
  cases hn : Assoc.get? s c.users with
  | none => simp [hn] at pos
  | some m =>
    obtain ⟨n, rfl⟩ : ∃ n, m = n + 1 := ⟨m - 1, by simp [hn] at pos; omega⟩
    exact ⟨n, rfl, by rw [h.together, hn]; rfl⟩

/-- The lock of a slot is an old one or the next new one. -/
theorem lockOf_lt (h : Booked seats c taken) (s : Slot) : c.lockOf s < (c.join s).fresh := by
  cases hl : Assoc.get? s c.locks with
  | some l =>
    rw [lockOf_of_get? hl]
    exact Nat.lt_of_lt_of_le (h.below s l hl) (fresh_le_join c s)
  | none => simp [Cache.lockOf, Cache.join, hl]

/-- No other slot has the lock that a slot has or would get. -/
theorem eq_of_lockOf (h : Booked seats c taken) {s' : Slot}
    (hs : Assoc.get? s' c.locks = some (c.lockOf s)) : s' = s := by
  cases hl : Assoc.get? s c.locks with
  | some l => exact h.apart s' s l (by rwa [lockOf_of_get? hl] at hs) hl
  | none =>
    have := h.below s' _ hs
    simp [Cache.lockOf, hl] at this

/-! ## Moves -/

/-- A task stays where it is while the tables that concern locks stay the same. -/
theorem stay (h : Booked seats c taken) {x : Seat} (ht : seats[t]? = some x)
    (hcd : SameLocks c d) : Booked (seats.set t x) d taken := by
  obtain ⟨lt, rfl⟩ := List.getElem?_eq_some_iff.1 ht
  rw [List.set_getElem_self]
  exact h.congr hcd

/-- A new task is no user. -/
theorem spawn (h : Booked seats c taken) (s : Slot) : Booked (seats ++ [⟨s, .away⟩]) c taken where
  count s' := by simp [h.count, Seat.uses, Position.isUser]
  positive := h.positive
  together := h.together
  lock := by
    intro u x m hx hm
    rw [List.getElem?_append] at hx
    split at hx
    · exact h.lock u x m hx hm
    · obtain ⟨-, rfl⟩ := by simpa [List.getElem?_eq_some_iff] using hx
      simp [Position.lock?] at hm
  holder := by
    intro u m
    rw [h.holder]
    refine exists_congr fun s' => ?_
    rw [List.getElem?_append]
    split
    · rfl
    · rename_i hu
      simp [List.getElem?_eq_none (Nat.le_of_not_lt hu), List.getElem?_eq_some_iff]
  below := h.below
  apart := h.apart

/-- A task that stays a user, or no user, moves to where it may refer to the lock of its slot. -/
theorem move (h : Booked seats c taken) (ht : seats[t]? = some ⟨s, old⟩)
    (hu : new.isUser = old.isUser) (hl : ∀ l, new.lock? = some l → Assoc.get? s c.locks = some l)
    (hh : ∀ u l, Assoc.get? l taken' = some u ↔
      ∃ s', (seats.set t ⟨s, new⟩)[u]? = some ⟨s', .holding l⟩) :
    Booked (seats.set t ⟨s, new⟩) c taken' where
  count s' := by
    rw [h.count, countP_set_same ht]
    simp [Seat.uses, hu]
  positive := h.positive
  together := h.together
  lock := by
    intro u x m hx hm
    rcases eq_or_of_getElem?_set hx with rfl | hx
    · exact hl m hm
    · exact h.lock u x m hx hm
  holder := hh
  below := h.below
  apart := h.apart

/-- The holders are the same when a task moves that holds nothing before and after. -/
theorem holder_set (h : Booked seats c taken) (ht : seats[t]? = some ⟨s, old⟩)
    (ho : ∀ l, old ≠ .holding l) (hn : ∀ l, new ≠ .holding l) (u : TaskId) (l : LockId) :
    Assoc.get? l taken = some u ↔ ∃ s', (seats.set t ⟨s, new⟩)[u]? = some ⟨s', .holding l⟩ := by
  rw [h.holder]
  refine exists_congr fun s' => ?_
  by_cases hu : t = u
  · subst hu
    rw [List.getElem?_set_self (List.getElem?_eq_some_iff.1 ht).1, ht]
    simp [ho l, hn l]
  · rw [List.getElem?_set_ne hu]

/-- A task that is about to take the lock finds it taken and waits. -/
theorem wait (h : Booked seats c taken) (ht : seats[t]? = some ⟨s, .joined l⟩) :
    Booked (seats.set t ⟨s, .waiting l⟩) c taken := by
  refine h.move ht rfl (fun m hm => ?_) (h.holder_set ht (by simp) (by simp))
  cases hm
  exact h.lock t _ _ ht rfl

/-- A task that waits for the lock gives up. -/
theorem giveUp (h : Booked seats c taken) (ht : seats[t]? = some ⟨s, .waiting l⟩) :
    Booked (seats.set t ⟨s, .present⟩) c taken :=
  h.move ht rfl (by simp [Position.lock?]) (h.holder_set ht (by simp) (by simp))

/-- A task takes a lock that nobody holds. -/
theorem take (h : Booked seats c taken) (ht : seats[t]? = some ⟨s, old⟩)
    (hr : old.lock? = some l) (free : Assoc.get? l taken = none) :
    Booked (seats.set t ⟨s, .holding l⟩) c (Assoc.put l t taken) := by
  have lt := (List.getElem?_eq_some_iff.1 ht).1
  have away : ∀ m, old ≠ .holding m := by
    rintro m rfl
    cases hr
    have := (h.holder t l).2 ⟨s, ht⟩
    simp [free] at this
  refine h.move ht ?_ (fun m hm => ?_) (fun u m => ?_)
  · cases old <;> simp_all [Position.lock?, Position.isUser]
  · cases hm
    exact h.lock t _ _ ht hr
  · by_cases hu : t = u
    · subst hu
      by_cases hm : m = l
      · subst hm
        simp [lt]
      · rw [Assoc.get?_put_of_ne hm, h.holder, List.getElem?_set_self lt, ht]
        simp [away, Ne.symm hm]
    · rw [List.getElem?_set_ne hu]
      by_cases hm : m = l
      · subst hm
        rw [← h.holder, free]
        simp [hu]
      · rw [Assoc.get?_put_of_ne hm, h.holder]

/-- A task gives a lock back that nobody waits for. -/
theorem giveBack (h : Booked seats c taken) (ht : seats[t]? = some ⟨s, .holding l⟩) :
    Booked (seats.set t ⟨s, .present⟩) c (Assoc.erase l taken) := by
  have lt := (List.getElem?_eq_some_iff.1 ht).1
  have mine : Assoc.get? l taken = some t := (h.holder t l).2 ⟨s, ht⟩
  refine h.move ht rfl (by simp [Position.lock?]) (fun u m => ?_)
  by_cases hm : m = l
  · subst hm
    rw [Assoc.get?_erase_self]
    by_cases hu : t = u
    · subst hu
      simp [lt]
    · rw [List.getElem?_set_ne hu, ← h.holder, mine]
      simp [hu]
  · rw [Assoc.get?_erase_of_ne hm, h.holder]
    by_cases hu : t = u
    · subst hu
      rw [List.getElem?_set_self lt, ht]
      simp [Ne.symm hm]
    · rw [List.getElem?_set_ne hu]

/-- A task hands a lock over to one that waits for it. -/
theorem handOver (h : Booked seats c taken) (ht : seats[t]? = some ⟨s, .holding l⟩) {u : TaskId}
    {s' : Slot} (hu : seats[u]? = some ⟨s', .waiting l⟩) :
    Booked ((seats.set t ⟨s, .present⟩).set u ⟨s', .holding l⟩) c (Assoc.put l u taken) := by
  have ne : t ≠ u := by
    rintro rfl
    simp [ht] at hu
  have still : (seats.set t ⟨s, .present⟩)[u]? = some ⟨s', .waiting l⟩ := by
    rwa [List.getElem?_set_ne ne]
  have taker := (h.giveBack ht).take still rfl (Assoc.get?_erase_self l taken)
  refine { taker with holder := fun v m => ?_ }
  rw [← taker.holder]
  by_cases hm : m = l
  · subst hm
    simp
  · rw [Assoc.get?_put_of_ne hm, Assoc.get?_put_of_ne hm, Assoc.get?_erase_of_ne hm]

/-- A task becomes a user. -/
theorem join (h : Booked seats c taken) (ht : seats[t]? = some ⟨s, .away⟩) :
    Booked (seats.set t ⟨s, .joined (c.lockOf s)⟩) (c.join s) taken where
  count s' := by
    by_cases hs : s' = s
    · subst hs
      rw [countP_set_true ht (by simp [Seat.uses, Position.isUser])
        (by simp [Seat.uses, Position.isUser])]
      simp [Cache.join, h.count]
    · rw [countP_set_same ht (by simp [Seat.uses, Ne.symm hs])]
      simp [Cache.join, Assoc.get?_put_of_ne hs, h.count]
  positive s' := by
    by_cases hs : s' = s
    · subst hs
      simp [Cache.join]
    · simpa [Cache.join, Assoc.get?_put_of_ne hs] using h.positive s'
  together s' := by
    by_cases hs : s' = s
    · subst hs
      rw [join_locks_self]
      simp [Cache.join]
    · rw [join_locks_of_ne c hs, h.together]
      simp [Cache.join, Assoc.get?_put_of_ne hs]
  lock := by
    intro u x m hx hm
    rcases eq_or_of_getElem?_set hx with rfl | hx
    · cases hm
      exact join_locks_self c s
    · have old := h.lock u x m hx hm
      by_cases hs : x.slot = s
      · rw [hs] at old ⊢
        rw [join_locks_self, lockOf_of_get? old]
      · rwa [join_locks_of_ne c hs]
  holder := h.holder_set ht (by simp) (by simp)
  below := by
    intro s' m hm
    by_cases hs : s' = s
    · rw [hs, join_locks_self] at hm
      cases hm
      exact h.lockOf_lt s
    · rw [join_locks_of_ne c hs] at hm
      exact Nat.lt_of_lt_of_le (h.below s' m hm) (fresh_le_join c s)
  apart := by
    intro s₁ s₂ m h₁ h₂
    by_cases e₁ : s₁ = s <;> by_cases e₂ : s₂ = s
    · rw [e₁, e₂]
    · rw [e₁, join_locks_self] at h₁
      rw [join_locks_of_ne c e₂] at h₂
      cases h₁
      rw [e₁, h.eq_of_lockOf h₂]
    · rw [e₂, join_locks_self] at h₂
      rw [join_locks_of_ne c e₁] at h₁
      cases h₂
      rw [e₂, h.eq_of_lockOf h₁]
    · rw [join_locks_of_ne c e₁] at h₁
      rw [join_locks_of_ne c e₂] at h₂
      exact h.apart s₁ s₂ m h₁ h₂

/-! ### Leaving -/

/-- Who leaves is no user any more. -/
theorem countP_leave (h : Booked seats c taken) (ht : seats[t]? = some ⟨s, .present⟩) {n : Nat}
    (hn : Assoc.get? s c.users = some (n + 1)) :
    (seats.set t ⟨s, .away⟩).countP (Seat.uses s) = n := by
  have fewer := countP_set_false (p := Seat.uses s) ht (by simp [Seat.uses, Position.isUser])
    (y := ⟨s, .away⟩) (by simp [Seat.uses, Position.isUser])
  rw [← h.count, hn] at fewer
  exact Nat.succ.inj fewer

/-- The users of other slots stay. -/
theorem countP_leave_of_ne (ht : seats[t]? = some ⟨s, .present⟩) {s' : Slot} (hs : s' ≠ s) :
    (seats.set t ⟨s, .away⟩).countP (Seat.uses s') = seats.countP (Seat.uses s') :=
  countP_set_same ht (by simp [Seat.uses, Ne.symm hs])

/-- Who has use for a lock was there before. -/
theorem lock_leave (h : Booked seats c taken) {u : TaskId} {x : Seat} {l : LockId}
    (hx : (seats.set t ⟨s, .away⟩)[u]? = some x) (hl : x.position.lock? = some l) :
    Assoc.get? x.slot c.locks = some l := by
  rcases eq_or_of_getElem?_set hx with rfl | hx
  · cases hl
  · exact h.lock u x l hx hl

/-- Nobody has use for the lock of the slot once its only user has left. -/
theorem slot_ne_of_lock (h : Booked seats c taken) (ht : seats[t]? = some ⟨s, .present⟩)
    (one : Assoc.get? s c.users = some 1) {u : TaskId} {x : Seat} {l : LockId}
    (hx : (seats.set t ⟨s, .away⟩)[u]? = some x) (hl : x.position.lock? = some l) :
    x.slot ≠ s := by
  rintro rfl
  have unused := List.countP_eq_zero.1 (h.countP_leave ht one) x (List.mem_of_getElem? hx)
  cases hp : x.position <;> simp [Seat.uses, Position.isUser, Position.lock?, hp] at unused hl

/-- The last user takes the lock away. -/
theorem leave_last (h : Booked seats c taken) (ht : seats[t]? = some ⟨s, .present⟩)
    (one : Assoc.get? s c.users = some 1) :
    Booked (seats.set t ⟨s, .away⟩)
      { c with users := Assoc.erase s c.users, locks := Assoc.erase s c.locks } taken where
  count s' := by
    by_cases hs : s' = s
    · rw [hs, h.countP_leave ht one]
      simp
    · rw [countP_leave_of_ne ht hs, Assoc.get?_erase_of_ne hs, h.count]
  positive s' := by
    by_cases hs : s' = s
    · subst hs
      simp
    · simpa [Assoc.get?_erase_of_ne hs] using h.positive s'
  together s' := by
    by_cases hs : s' = s
    · subst hs
      simp
    · simpa [Assoc.get?_erase_of_ne hs] using h.together s'
  lock := by
    intro u x m hx hm
    rw [Assoc.get?_erase_of_ne (h.slot_ne_of_lock ht one hx hm)]
    exact h.lock_leave hx hm
  holder := h.holder_set ht (by simp) (by simp)
  below := by
    intro s' m hm
    by_cases hs : s' = s
    · subst hs
      simp at hm
    · exact h.below s' m (by rwa [Assoc.get?_erase_of_ne hs] at hm)
  apart := by
    intro s₁ s₂ m h₁ h₂
    by_cases e₁ : s₁ = s
    · subst e₁
      simp at h₁
    · by_cases e₂ : s₂ = s
      · subst e₂
        simp at h₂
      · rw [Assoc.get?_erase_of_ne e₁] at h₁
        rw [Assoc.get?_erase_of_ne e₂] at h₂
        exact h.apart s₁ s₂ m h₁ h₂

/-- As long as there are other users the lock stays. -/
theorem leave_shared (h : Booked seats c taken) (ht : seats[t]? = some ⟨s, .present⟩) {n : Nat}
    (hn : Assoc.get? s c.users = some (n + 1)) (shared : n ≠ 0) :
    Booked (seats.set t ⟨s, .away⟩) { c with users := Assoc.put s n c.users } taken where
  count s' := by
    by_cases hs : s' = s
    · rw [hs, h.countP_leave ht hn]
      simp
    · rw [countP_leave_of_ne ht hs, Assoc.get?_put_of_ne hs, h.count]
  positive s' := by
    by_cases hs : s' = s
    · subst hs
      simpa using shared
    · simpa [Assoc.get?_put_of_ne hs] using h.positive s'
  together s' := by
    by_cases hs : s' = s
    · subst hs
      simpa [hn] using h.together s'
    · simpa [Assoc.get?_put_of_ne hs] using h.together s'
  lock u x m hx hm := h.lock_leave hx hm
  holder := h.holder_set ht (by simp) (by simp)
  below := h.below
  apart := h.apart

/-- A user that has no further use for the lock can leave, and then is no user. -/
theorem leave (h : Booked seats c taken) (ht : seats[t]? = some ⟨s, .present⟩) :
    ∃ d, c.leave? s = some d ∧ Booked (seats.set t ⟨s, .away⟩) d taken := by
  obtain ⟨n, hn, hl⟩ := h.of_user ht rfl
  by_cases one : n = 0
  · subst one
    have locked : Assoc.get? s c.locks ≠ none := by
      intro e
      simp [e] at hl
    exact ⟨_, by simp [Cache.leave?, hn, locked], h.leave_last ht hn⟩
  · exact ⟨_, by simp [Cache.leave?, hn, one], h.leave_shared ht hn one⟩

end Booked

end Registrar.Cache
