import Mathlib.Logic.Function.Basic

/-!
# Programs over a set of operations

A `Prog` is a computation that performs operations and goes on with their results. `Prog.run` executes
one alone; in `Lib.Threads` several are interleaved.

`Prog.Safe` says that a program keeps to a `Discipline`: every operation it performs is allowed in the
state that its thread is in by then, whatever the results of the earlier ones were. It is given by
recursion on the program, and composes along `bind`.
-/

namespace Lib

/-- A program that performs operations of `Op`, the result of `o` being of type `Res o`. -/
inductive Prog (Op : Type) (Res : Op → Type) (α : Type) : Type where
  | pure (a : α) : Prog Op Res α
  | op (o : Op) (k : Res o → Prog Op Res α) : Prog Op Res α

namespace Prog
variable {Op : Type} {Res : Op → Type} {α β ι : Type}

def bind : Prog Op Res α → (α → Prog Op Res β) → Prog Op Res β
  | .pure a, f => f a
  | .op o k, f => .op o fun r => (k r).bind f

instance : Monad (Prog Op Res) where
  pure := .pure
  bind := bind

/-- One operation. -/
def perform (o : Op) : Prog Op Res (Res o) := .op o .pure

/-- A loop over a list. -/
def each (f : ι → Prog Op Res Unit) : List ι → Prog Op Res Unit
  | [] => .pure ()
  | i :: is => (f i).bind fun _ => each f is

/-! ### Alone -/

section Run
variable {S F : Type} (eval : (o : Op) → S → Except F (Res o × S))

/-- The program alone, from a state. -/
def run : Prog Op Res α → S → Except F (α × S)
  | .pure a, s => .ok (a, s)
  | .op o k, s =>
    match eval o s with
    | .error f => .error f
    | .ok (r, s) => (k r).run s

/-- A result. -/
@[simp] lemma run_pure {a : α} {s : S} : (Pure.pure a : Prog Op Res α).run eval s = .ok (a, s) := rfl

/-- One operation. -/
@[simp] lemma run_perform {o : Op} {s : S} : (perform o).run eval s = eval o s := by
  simp only [perform, run]
  split <;> rename_i h <;> rw [h]

/-- One program after another. -/
@[simp] lemma run_bind {p : Prog Op Res α} {f : α → Prog Op Res β} {s : S} :
    (p >>= f).run eval s =
      match p.run eval s with
      | .error e => .error e
      | .ok (a, s) => (f a).run eval s := by
  induction p generalizing s with
  | pure a => rfl
  | op o k ih =>
    have e : ((op o k).bind f).run eval s = (op o fun r => (k r).bind f).run eval s := rfl
    refine e.trans ?_
    rw [run, run]
    cases eval o s with
    | error e => rfl
    | ok r => exact ih r.1

/-- The second program goes on where the first ended. -/
lemma run_bind_ok {p : Prog Op Res α} {f : α → Prog Op Res β} {s : S} {r : α × S}
    (h : p.run eval s = .ok r) : (p >>= f).run eval s = (f r.1).run eval r.2 := by
  rw [run_bind, h]

/-- A failure ends the program. -/
lemma run_bind_error {p : Prog Op Res α} {f : α → Prog Op Res β} {s : S} {e : F}
    (h : p.run eval s = .error e) : (p >>= f).run eval s = .error e := by
  rw [run_bind, h]

/-- The operations that the program performs from a state, each with the state it is performed in. -/
def trace : Prog Op Res α → S → List (Op × S)
  | .pure _, _ => []
  | .op o k, s =>
    (o, s) ::
      match eval o s with
      | .error _ => []
      | .ok (r, s) => (k r).trace s

end Run

/-! ### Under a discipline -/

/-- What a thread may do: the operations allowed in each state of it, and what they make of it. Only
the results that are possible count. -/
structure Discipline (Op : Type) (Res : Op → Type) (G : Type) where
  next : (o : Op) → Res o → G → G
  Req : Op → G → Prop
  Poss : (o : Op) → Res o → Prop

variable {G : Type} {d : Discipline Op Res G}

/-- Every operation of the program is allowed, and `Q` holds at its end. -/
def Safe (d : Discipline Op Res G) : Prog Op Res α → (α → G → Prop) → G → Prop
  | .pure a, Q, g => Q a g
  | .op o k, Q, g => d.Req o g ∧ ∀ r, d.Poss o r → (k r).Safe d Q (d.next o r g)

/-- A result is safe. -/
@[simp] lemma safe_pure {a : α} {Q : α → G → Prop} {g : G} :
    (Pure.pure a : Prog Op Res α).Safe d Q g ↔ Q a g := .rfl

/-- An operation is safe when it may be performed. -/
@[simp] lemma safe_perform {o : Op} {Q : Res o → G → Prop} {g : G} :
    (perform o).Safe d Q g ↔ d.Req o g ∧ ∀ r, d.Poss o r → Q r (d.next o r g) := .rfl

/-- A program is safe when the second part is wherever the first ends. -/
@[simp] lemma safe_bind {p : Prog Op Res α} {f : α → Prog Op Res β} {Q : β → G → Prop} {g : G} :
    (p >>= f).Safe d Q g ↔ p.Safe d (fun a g => (f a).Safe d Q g) g := by
  induction p generalizing g with
  | pure a => exact .rfl
  | op o k ih => exact and_congr .rfl (forall₂_congr fun r _ => ih r)

/-- An operation, and then the rest. -/
lemma Safe.op {o : Op} {f : Res o → Prog Op Res β} {Q : β → G → Prop} {g : G} (req : d.Req o g)
    (rest : ∀ r, d.Poss o r → (f r).Safe d Q (d.next o r g)) : (perform o >>= f).Safe d Q g :=
  ⟨req, rest⟩

/-- The postcondition may be weaker. -/
lemma Safe.mono {p : Prog Op Res α} {Q Q' : α → G → Prop} {g : G} (h : p.Safe d Q g)
    (imp : ∀ a g, Q a g → Q' a g) : p.Safe d Q' g := by
  induction p generalizing g with
  | pure a => exact imp a g h
  | op o k ih => exact ⟨h.1, fun r poss => ih r (h.2 r poss)⟩

/-- Where every result is possible, every operation that a program performs is allowed, and what the
allowed operations keep holds when it is performed. -/
lemma Safe.trace {S F : Type} {eval : (o : Op) → S → Except F (Res o × S)} {I : S → Prop}
    {p : Prog Op Res α} {Q : α → G → Prop} {g : G} {s : S} {e : Op × S} (h : p.Safe d Q g)
    (poss : ∀ o r, d.Poss o r)
    (keeps : ∀ {o g s r s'}, d.Req o g → eval o s = .ok (r, s') → I s → I s') (hs : I s)
    (he : e ∈ p.trace eval s) : I e.2 ∧ ∃ g, d.Req e.1 g := by
  induction p generalizing g s with
  | pure a => cases he
  | op o k ih =>
    rw [Prog.trace] at he
    rcases List.mem_cons.mp he with rfl | he
    · exact ⟨hs, g, h.1⟩
    · split at he
      · cases he
      · rename_i hr
        exact ih _ (h.2 _ (poss _ _)) (keeps h.1 hr hs) he

/-- What every round of a loop keeps, the loop keeps. -/
lemma Safe.each {f : ι → Prog Op Res Unit} {I : G → Prop}
    (round : ∀ i g, I g → (f i).Safe d (fun _ => I) g) {is : List ι} {g : G} (h : I g) :
    (each f is).Safe d (fun _ => I) g := by
  induction is generalizing g with
  | nil => exact h
  | cons i is ih => exact safe_bind.mpr ((round i g h).mono fun _ _ h => ih h)

end Prog
end Lib
