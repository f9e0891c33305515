import Evfs.Lib.Prog
import Evfs.Lib.Run
import Mathlib.Data.Fintype.Basic
import Mathlib.Order.WellFounded

/-!
# Threads with locks

Any number of threads, each running a `Prog` over one shared state, interleaved operation by
operation. An operation that acquires a lock waits until no other thread holds it; a lock that is
recursive may be acquired by its holder again.

If every program keeps to a discipline, every thread does so in every state of every interleaving
(`Disciplined.run`). A lock has one holder at a time (`Exclusive.run`). A discipline under which locks
are acquired in an order admits no deadlock (`Disciplined.no_deadlock`).

A run of finitely many threads can be computed from the order in which they take their steps
(`follow_runs`).
-/

namespace Lib

/-- The threads, what each keeps to itself and what they share. -/
structure Config (Tid Op : Type) (Res : Op → Type) (S G : Type) where
  shared : S
  prog : Tid → Prog Op Res Unit
  loc : Tid → G

/-- A step of a thread: the operation it performs, and the result. -/
structure Move (Tid Op : Type) (Res : Op → Type) where
  thread : Tid
  op : Op
  res : Res op

/-- How operations act on the shared state and on the thread that performs them. -/
structure System (Op : Type) (Res : Op → Type) (S G L : Type) where
  sem : (o : Op) → S → Res o → S → Prop
  next : (o : Op) → Res o → G → G
  /-- The lock that an operation acquires. -/
  acquires : Op → Option L
  /-- The locks that a thread holds. -/
  held : G → List L
  recursive : L → Prop
  /-- No other operation gets a lock. -/
  held_next : ∀ {o r g l}, l ∈ held (next o r g) → l ∈ held g ∨ acquires o = some l

namespace System
variable {Tid Op S G L : Type} {Res : Op → Type} (sys : System Op Res S G L)

/-- The thread can acquire the lock. -/
def Free (c : Config Tid Op Res S G) (t : Tid) (l : L) : Prop :=
  (∀ t', t' ≠ t → l ∉ sys.held (c.loc t')) ∧ (l ∈ sys.held (c.loc t) → sys.recursive l)

/-- The next thing the thread is to do is to acquire a lock, and it cannot. -/
def Waits (c : Config Tid Op Res S G) (t : Tid) (l : L) : Prop :=
  ∃ o k, c.prog t = .op o k ∧ sys.acquires o = some l ∧ ¬ sys.Free c t l

/-- A set of threads each of which waits for a lock held by one of the set. -/
def Deadlocked (c : Config Tid Op Res S G) (D : Tid → Prop) : Prop :=
  (∃ t, D t) ∧ ∀ t, D t → ∃ l, sys.Waits c t l ∧ ∃ t', D t' ∧ l ∈ sys.held (c.loc t')

/-- No two threads hold the same lock. -/
def Exclusive (c : Config Tid Op Res S G) : Prop :=
  ∀ t t' l, t' ≠ t → l ∈ sys.held (c.loc t) → l ∉ sys.held (c.loc t')

/-- Every thread keeps to the discipline in what it is still to do. -/
def Disciplined (d : Prog.Discipline Op Res G) (c : Config Tid Op Res S G) : Prop :=
  ∀ t, (c.prog t).Safe d (fun _ _ => True) (c.loc t)

variable {sys} {d : Prog.Discipline Op Res G} {c c' c₀ : Config Tid Op Res S G}
  {ok : Config Tid Op Res S G → Move Tid Op Res → Prop}

/-- A discipline under which every lock is above those the thread holds, unless it holds that lock
already and may acquire it again, admits no deadlock. -/
theorem Disciplined.no_deadlock {R : Type} [Preorder R] [WellFoundedGT R] (rank : L → R)
    (ordered : ∀ {o g l}, d.Req o g → sys.acquires o = some l →
      (sys.recursive l ∧ l ∈ sys.held g) ∨ ∀ l' ∈ sys.held g, rank l' < rank l)
    (dc : Disciplined d c) (ex : sys.Exclusive c) (D : Tid → Prop) : ¬ sys.Deadlocked c D := by
  rintro ⟨⟨t₀, h₀⟩, waits⟩
  obtain ⟨l₀, w₀, -⟩ := waits t₀ h₀
  -- of the locks waited for, one that no other is above
  let waited : Set R := { r | ∃ t l, D t ∧ sys.Waits c t l ∧ rank l = r }
  have ne : waited.Nonempty := ⟨_, t₀, l₀, h₀, w₀, rfl⟩
  obtain ⟨_, ⟨t, l, ht, w, rfl⟩, top⟩ := (wellFounded_gt (α := R)).has_min waited ne
  obtain ⟨l₁, w₁, t', ht', hl⟩ := waits t ht
  have e : l₁ = l := by
    obtain ⟨o, k, hp, ha, -⟩ := w
    obtain ⟨o', k', hp', ha', -⟩ := w₁
    rw [hp] at hp'
    cases hp'
    exact Option.some.inj (ha'.symm.trans ha)
  obtain rfl := e
  obtain ⟨l', ⟨o, k, hp, ha, nf⟩, -⟩ := waits t' ht'
  have req : d.Req o (c.loc t') := by
    have h := dc t'
    rw [hp] at h
    exact h.1
  rcases ordered req ha with ⟨hr, hh⟩ | above
  · exact nf ⟨fun t'' ne => ex t' t'' l' ne hh, fun _ => hr⟩
  · exact top (rank l') ⟨t', l', ht', ⟨o, k, hp, ha, nf⟩, rfl⟩ (above _ hl)

variable [DecidableEq Tid]

/-- One thread performs its next operation. -/
inductive Step (sys : System Op Res S G L) : Config Tid Op Res S G → Move Tid Op Res → Config Tid Op Res S G → Prop where
  | move {c t o k r s} : c.prog t = .op o k → (∀ l, sys.acquires o = some l → sys.Free c t l) →
    sys.sem o c.shared r s →
    Step sys c ⟨t, o, r⟩ {
      shared := s
      prog := Function.update c.prog t (k r)
      loc := Function.update c.loc t (sys.next o r (c.loc t)) }

/-- A step keeps the discipline. -/
lemma Disciplined.step {m : Move Tid Op Res} (dc : Disciplined d c) (hn : d.next = sys.next)
    (poss : d.Poss m.op m.res) (st : sys.Step c m c') : Disciplined d c' := by
  cases st with
  | @move t o k r s hp _ _ =>
    intro t'
    have h := dc t
    rw [hp] at h
    cases ht : decide (t' = t) with
    | true =>
      obtain rfl := of_decide_eq_true ht
      show (Function.update c.prog t' (k r) t').Safe d _ (Function.update c.loc t' _ t')
      rw [Function.update_self, Function.update_self, ← hn]
      exact h.2 r poss
    | false =>
      have ne := of_decide_eq_false ht
      show (Function.update c.prog t (k r) t').Safe d _ (Function.update c.loc t _ t')
      rw [Function.update_of_ne ne, Function.update_of_ne ne]
      exact dc t'

/-- Threads that keep to a discipline do so in every interleaving whose results are possible. -/
theorem Disciplined.run (hn : d.next = sys.next)
    (poss : ∀ {c m c'}, ok c m → sys.Step c m c' → d.Poss m.op m.res)
    (run : Runs sys.Step ok c₀ c) (dc : Disciplined d c₀) : Disciplined d c :=
  run.invariant (fun dc ok st => dc.step hn (poss ok st) st) dc

/-! ### What a step does -/

section Parts
variable {m : Move Tid Op Res}

/-- A lock is free before it is acquired. -/
lemma Step.free (st : sys.Step c m c') {l : L} (h : sys.acquires m.op = some l) :
    sys.Free c m.thread l := by
  cases st with
  | move _ free _ => exact free l h

/-- A step does what its operation means. -/
lemma Step.sem (st : sys.Step c m c') : sys.sem m.op c.shared m.res c'.shared := by
  cases st with
  | move _ _ sem => exact sem

/-- The thread's own state after its step. -/
lemma Step.loc_self (st : sys.Step c m c') :
    c'.loc m.thread = sys.next m.op m.res (c.loc m.thread) := by
  cases st with
  | move _ _ _ => exact Function.update_self ..

/-- The other threads' states. -/
lemma Step.loc_other (st : sys.Step c m c') {t : Tid} (ne : t ≠ m.thread) :
    c'.loc t = c.loc t := by
  cases st with
  | move _ _ _ => exact Function.update_of_ne ne ..

/-- A disciplined thread meets the operation's requirement. -/
lemma Step.req (st : sys.Step c m c') (dc : Disciplined d c) : d.Req m.op (c.loc m.thread) := by
  cases st with
  | @move t o k r s hp _ _ =>
    have h := dc t
    rw [hp] at h
    exact h.1

/-- What is true of a thread was so before, or becomes so by its own step. -/
lemma Step.loc_elim (st : sys.Step c m c') {P : G → Prop} {t : Tid} (h : P (c'.loc t)) :
    (t ≠ m.thread ∧ P (c.loc t)) ∨
      (t = m.thread ∧ P (sys.next m.op m.res (c.loc m.thread))) := by
  cases ht : decide (t = m.thread) with
  | true =>
    obtain rfl := of_decide_eq_true ht
    rw [st.loc_self] at h
    exact .inr ⟨rfl, h⟩
  | false =>
    have ne := of_decide_eq_false ht
    rw [st.loc_other ne] at h
    exact .inl ⟨ne, h⟩

end Parts

/-- A step keeps every lock with one thread. -/
lemma Exclusive.step {m : Move Tid Op Res} (ex : sys.Exclusive c) (st : sys.Step c m c') :
    sys.Exclusive c' := by
  -- what a thread holds after the step
  have after : ∀ {t l}, l ∈ sys.held (c'.loc t) →
      l ∈ sys.held (c.loc t) ∨ t = m.thread ∧ sys.acquires m.op = some l := by
    intro t l h
    rcases st.loc_elim (P := fun g => l ∈ sys.held g) h with ⟨-, b⟩ | ⟨rfl, b⟩
    · exact .inl b
    · exact (sys.held_next b).imp_right fun a => ⟨rfl, a⟩
  intro t₁ t₂ l ne h₁ h₂
  rcases after h₁ with b₁ | ⟨rfl, a₁⟩
  · rcases after h₂ with b₂ | ⟨rfl, a₂⟩
    · exact ex t₁ t₂ l ne b₁ b₂
    · exact (st.free a₂).1 t₁ ne.symm b₁
  · rcases after h₂ with b₂ | ⟨rfl, a₂⟩
    · exact (st.free a₁).1 t₂ ne b₂
    · exact ne rfl

/-- A lock has one holder at a time. -/
theorem Exclusive.run (run : Runs sys.Step ok c₀ c) (ex : sys.Exclusive c₀) : sys.Exclusive c :=
  run.invariant (I := sys.Exclusive) (fun ex _ st => Exclusive.step ex st) ex

/-! ### Schedules -/

section Schedule
variable (sys) [Fintype Tid] [DecidableEq L] [DecidablePred sys.recursive]
  (eval : (o : Op) → S → Option (Res o × S))
  (ok) [∀ c m, Decidable (ok c m)]

instance (c : Config Tid Op Res S G) (t : Tid) (l : L) : Decidable (sys.Free c t l) :=
  inferInstanceAs (Decidable ((∀ t', t' ≠ t → l ∉ sys.held (c.loc t')) ∧
    (l ∈ sys.held (c.loc t) → sys.recursive l)))

/-- The step of a thread, if the guard allows it, the results of operations being those of `eval`. -/
def advance (c : Config Tid Op Res S G) (t : Tid) : Option (Config Tid Op Res S G) :=
  match c.prog t with
  | .pure _ => none
  | .op o k =>
    match eval o c.shared with
    | none => none
    | some (r, s) =>
      if (∀ l ∈ sys.acquires o, sys.Free c t l) ∧ ok c ⟨t, o, r⟩ then
        some {
          shared := s
          prog := Function.update c.prog t (k r)
          loc := Function.update c.loc t (sys.next o r (c.loc t)) }
      else none

/-- The steps of the threads of a list, in this order. -/
def follow : List Tid → Config Tid Op Res S G → Option (Config Tid Op Res S G)
  | [], c => some c
  | t :: ts, c => (sys.advance ok eval c t).bind (follow ts)

variable {sys ok eval}

/-- An evaluated step is a step. -/
lemma advance_step (sound : ∀ {o s r s'}, eval o s = some (r, s') → sys.sem o s r s') {t : Tid}
    (e : sys.advance ok eval c t = some c') : Guarded sys.Step ok c c' := by
  rw [advance] at e
  split at e
  · cases e
  · rename_i hp
    split at e
    · cases e
    · rename_i he
      split at e
      · rename_i h
        cases e
        exact ⟨_, h.2, .move hp h.1 (sound he)⟩
      · cases e

/-- A schedule that can be followed is a run. -/
lemma follow_runs (sound : ∀ {o s r s'}, eval o s = some (r, s') → sys.sem o s r s')
    {ts : List Tid} (e : sys.follow ok eval ts c = some c') : Runs sys.Step ok c c' := by
  induction ts generalizing c with
  | nil => cases e; exact .refl
  | cons t ts ih =>
    obtain ⟨c₁, ha, hf⟩ := Option.bind_eq_some_iff.mp e
    exact .head (advance_step sound ha) (ih hf)

end Schedule
end System
end Lib
