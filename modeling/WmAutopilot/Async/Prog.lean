import Mathlib.Data.Nat.Notation
import Mathlib.Logic.Function.Basic
import Mathlib.Logic.Relation

/-!
# Asynchronous programs as interaction trees

A program that talks to shared state (a database, a remote service, another process) is a tree:

* `Api`         the operations, the answer of each, and which of them let other programs run first
                (`yields`; an operation that does not yield belongs to the same uninterrupted
                section as the operation before it);
* `Prog A α`    `ret a`: the program has returned `a`; `call o k`: it performs `o` and goes on with
                its answer;
* `Exc A ε α`   programs that may throw: `ExceptT ε (Prog A)`, so `throw`, `try … catch` and the
                `do` notation are the usual ones.

Trees are well founded: an unbounded loop is written with a fuel argument and a program that is out
of fuel `park`s, so that a statement about every fuel is a statement about every finite prefix of a
run.
-/

set_option autoImplicit false

namespace Async

/-- the operations a program may call, and their answers. -/
structure Api where
  Op : Type
  Ans : Op → Type
  /-- other programs may run before the operation is performed. -/
  yields : Op → Bool

/-- A program over the operations of `A`.  See the file header. -/
inductive Prog (A : Api) (α : Type) : Type where
  | ret (a : α) : Prog A α
  | call (o : A.Op) (k : A.Ans o → Prog A α) : Prog A α

namespace Prog
variable {A : Api} {α β γ : Type}

/-- run `p`, then `f` on what it returns. -/
def bind : Prog A α → (α → Prog A β) → Prog A β
  | ret a, f => f a
  | call o k, f => call o fun r => (k r).bind f

instance : Monad (Prog A) where
  pure := ret
  bind := bind

/-- the program that performs one operation. -/
def perform (o : A.Op) : Prog A (A.Ans o) := call o ret

@[simp] theorem ret_bind (a : α) (f : α → Prog A β) : (ret a >>= f) = f a := rfl

@[simp] theorem call_bind (o : A.Op) (k : A.Ans o → Prog A α) (f : α → Prog A β) :
    (call o k >>= f) = call o fun r => k r >>= f := rfl

/-- the program has returned, or waits at an operation that lets the others run first. -/
def Suspended : Prog A α → Prop
  | ret _ => True
  | call o _ => A.yields o = true

instance (p : Prog A α) : Decidable p.Suspended :=
  match p with
  | ret _ => isTrue trivial
  | call o _ => inferInstanceAs (Decidable (A.yields o = true))

end Prog

/-- a program that may throw an `ε`. -/
abbrev Exc (A : Api) (ε α : Type) : Type := ExceptT ε (Prog A) α

namespace Exc
variable {A : Api} {ε α : Type}

/-- perform one operation; its answer is a value. -/
def op (o : A.Op) : Exc A ε (A.Ans o) := ExceptT.lift (Prog.perform o)

/-- perform one operation; it throws when its answer is an error. -/
def tryOp (o : A.Op) (h : A.Ans o = Except ε α) : Exc A ε α :=
  ExceptT.mk (.call o fun r => .ret (h ▸ r))

/-- `try p finally f` -/
def andFinally (p : Exc A ε α) (f : Exc A ε Unit) : Exc A ε α := ExceptT.mk do
  let r ← p.run
  match ← f.run with
  | .ok _ => pure r
  | .error e => pure (.error e)

/-- `try`: what the program returned or threw. -/
def attempt {ε' : Type} (p : Exc A ε α) : Exc A ε' (Except ε α) := ExceptT.lift p.run

/-- the program with its exceptions dropped: what the event loop runs. -/
def detach (p : Exc A ε α) : Prog A Unit := p.run >>= fun _ => Prog.ret ()

end Exc

end Async
