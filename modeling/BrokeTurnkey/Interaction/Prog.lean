import Mathlib.Logic.Function.Basic

/-!
# Interaction programs

A program that talks to an outside world is a tree: it returns a value, it fails
with an error, or it issues a command and continues with the reply.  A reply is
either the answer to the command or the error the command was rejected with, so
that the code after a rejected call is part of the tree.

The tree is finite along every path.  Programs are compared by nothing but the
commands they issue, so the meaning of a command is left to whoever runs the
tree.
-/

namespace BrokeTurnkey.Interaction

/-- A program over commands `C` with replies `R`, errors `ε` and result `α`. -/
inductive Prog (C : Type) (R : C → Type) (ε α : Type) : Type where
  | ret (value : α)
  | throw (error : ε)
  | call (command : C) (next : Except ε (R command) → Prog C R ε α)

namespace Prog

variable {C : Type} {R : C → Type} {ε α β γ : Type}

/-- Run `p` and continue with its outcome, value or error alike. -/
def andThen : Prog C R ε α → (Except ε α → Prog C R ε β) → Prog C R ε β
  | .ret value, f => f (.ok value)
  | .throw error, f => f (.error error)
  | .call command next, f => .call command fun reply => (next reply).andThen f

/-- The continuation that lets errors through. -/
def onValue (f : α → Prog C R ε β) : Except ε α → Prog C R ε β
  | .ok value => f value
  | .error error => .throw error

/-- The continuation that lets values through. -/
def onError (handler : ε → Prog C R ε α) : Except ε α → Prog C R ε α
  | .ok value => .ret value
  | .error error => handler error

instance : Monad (Prog C R ε) where
  pure := .ret
  bind p f := p.andThen (onValue f)

instance : MonadExceptOf ε (Prog C R ε) where
  throw := .throw
  tryCatch p handler := p.andThen (onError handler)

/-- Issue one command. -/
def perform (command : C) : Prog C R ε (R command) :=
  .call command fun
    | .ok value => .ret value
    | .error error => .throw error

/-- The program has returned or failed. -/
def isDone : Prog C R ε α → Bool
  | .call _ _ => false
  | _ => true

/-- What the program has returned. -/
def value? : Prog C R ε α → Option α
  | .ret value => some value
  | .throw _ => none
  | .call _ _ => none

theorem eq_ret_of_value? {p : Prog C R ε α} {value : α} (h : p.value? = some value) :
    p = .ret value := by
  cases p with
  | ret returned => exact congrArg Prog.ret (Option.some.inj h)
  | throw error => cases h
  | call command next => cases h

@[simp] theorem pure_eq (value : α) : (pure value : Prog C R ε α) = .ret value := rfl

@[simp] theorem throw_eq (error : ε) :
    (MonadExcept.throw error : Prog C R ε α) = .throw error := rfl

/-! ### The commands a program may issue -/

/-- Every command the program issues, on every path, satisfies `P`. -/
def All (P : C → Prop) : Prog C R ε α → Prop
  | .ret _ => True
  | .throw _ => True
  | .call command next => P command ∧ ∀ reply, (next reply).All P

theorem All.perform {P : C → Prop} {command : C} (h : P command) :
    (Prog.perform command : Prog C R ε (R command)).All P := by
  refine ⟨h, fun reply => ?_⟩
  cases reply with
  | ok value => trivial
  | error error => trivial

theorem All.andThen {P : C → Prop} {p : Prog C R ε α} {f : Except ε α → Prog C R ε β}
    (hp : p.All P) (hf : ∀ outcome, (f outcome).All P) : (p.andThen f).All P := by
  induction p with
  | ret value => exact hf _
  | throw error => exact hf _
  | call command next ih => exact ⟨hp.1, fun reply => ih reply (hp.2 reply)⟩

theorem All.bind {P : C → Prop} {p : Prog C R ε α} {f : α → Prog C R ε β}
    (hp : p.All P) (hf : ∀ value, (f value).All P) : (p >>= f).All P := by
  refine All.andThen hp fun outcome => ?_
  cases outcome with
  | ok value => exact hf value
  | error error => trivial

/-- Between the halves of a program the values of the first are known one by one. -/
theorem All.bind_bind {γ : Type} {P : C → Prop} {p : Prog C R ε α} {f : α → Prog C R ε β}
    {g : β → Prog C R ε γ} (hp : p.All P) (hf : ∀ value, (f value >>= g).All P) :
    ((p >>= f) >>= g).All P := by
  induction p with
  | ret value => exact hf value
  | throw error => trivial
  | call command next ih => exact ⟨hp.1, fun reply => ih reply (hp.2 reply)⟩

theorem All.tryCatch {P : C → Prop} {p : Prog C R ε α} {handler : ε → Prog C R ε α}
    (hp : p.All P) (hh : ∀ error, (handler error).All P) :
    (MonadExcept.tryCatch p handler).All P := by
  refine All.andThen hp fun outcome => ?_
  cases outcome with
  | ok value => trivial
  | error error => exact hh error

/-- A check in front of a program issues nothing. -/
theorem All.unless {P : C → Prop} {c : Prop} [Decidable c] {error : ε} {p : Prog C R ε α}
    (hp : p.All P) : (if c then MonadExcept.throw error else p : Prog C R ε α).All P := by
  by_cases hc : c
  · rw [if_pos hc]
    trivial
  · rw [if_neg hc]
    exact hp

theorem All.mono {P P' : C → Prop} (himp : ∀ command, P command → P' command)
    {p : Prog C R ε α} (hp : p.All P) : p.All P' := by
  induction p with
  | ret value => trivial
  | throw error => trivial
  | call command next ih => exact ⟨himp _ hp.1, fun reply => ih reply (hp.2 reply)⟩

theorem all_true (p : Prog C R ε α) : p.All fun _ => True := by
  induction p with
  | ret value => trivial
  | throw error => trivial
  | call command next ih => exact ⟨trivial, ih⟩

/-- Under some replies the program issues the command. -/
inductive Issues : Prog C R ε α → C → Prop where
  | here (command : C) (next : Except ε (R command) → Prog C R ε α) :
      Issues (.call command next) command
  | later {command other : C} {next : Except ε (R command) → Prog C R ε α}
      (reply : Except ε (R command)) : Issues (next reply) other → Issues (.call command next) other

theorem All.of_issues {P : C → Prop} {p : Prog C R ε α} {command : C} (hissues : p.Issues command)
    (hp : p.All P) : P command := by
  induction hissues with
  | here command next => exact hp.1
  | later reply _ ih => exact ih (hp.2 reply)

end Prog

end BrokeTurnkey.Interaction
