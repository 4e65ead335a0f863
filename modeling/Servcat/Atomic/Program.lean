/-
Programs whose steps on a shared state are atomic.  A program is a tree of
steps; what a step does may depend on an input the environment chooses, such as
a random number or a fault.
-/
import Mathlib.Logic.Relation

namespace Atomic

variable {ι σ ε ε' α β : Type}

/-- How a program ends: with a value, with an error its caller may handle, or
with a panic, which unwinds past every handler. -/
inductive Exit (ε α : Type) where
  | ok (value : α)
  | error (err : ε)
  | panicked
deriving DecidableEq, Repr

/-- `step act next` moves the shared state by `act` and goes on with `next`,
both of which see the input and the state before the step.  `spin` is what is
left of a loop after its fuel: it never ends. -/
inductive Program (ι σ ε α : Type) where
  | exit (result : Exit ε α)
  | spin
  | step (act : ι → σ → σ) (next : ι → σ → Program ι σ ε α)

namespace Exit

def map (f : α → β) : Exit ε α → Exit ε β
  | ok a => ok (f a)
  | error e => error e
  | panicked => panicked

def mapError (f : ε → ε') : Exit ε α → Exit ε' α
  | ok a => ok a
  | error e => error (f e)
  | panicked => panicked

/-- Hand an error over as a value. -/
def attempt : Exit ε α → Exit ε' (Except ε α)
  | ok a => ok (.ok a)
  | error e => ok (.error e)
  | panicked => panicked

def ofExcept : Except ε α → Exit ε α
  | .ok a => ok a
  | .error e => error e

def ofOption (e : ε) : Option α → Exit ε α
  | some a => ok a
  | none => error e

end Exit

namespace Program

/-- Go on with `rest` however the program ends. -/
def handle : Program ι σ ε α → (Exit ε α → Program ι σ ε' β) → Program ι σ ε' β
  | exit x, rest => rest x
  | spin, _ => spin
  | step act next, rest => step act fun i s => (next i s).handle rest

/-- Go on with `f` after a value; errors and panics end the program. -/
def onOk (f : α → Program ι σ ε β) : Exit ε α → Program ι σ ε β
  | .ok a => f a
  | .error e => exit (.error e)
  | .panicked => exit .panicked

instance : Monad (Program ι σ ε) where
  pure a := exit (.ok a)
  bind p f := p.handle (onOk f)

def throw (e : ε) : Program ι σ ε α :=
  exit (.error e)

def panic : Program ι σ ε α :=
  exit .panicked

def liftExcept (result : Except ε α) : Program ι σ ε α :=
  exit (.ofExcept result)

def okOr (e : ε) (value : Option α) : Program ι σ ε α :=
  exit (.ofOption e value)

def mapError (f : ε → ε') (p : Program ι σ ε α) : Program ι σ ε' α :=
  p.handle fun x => exit (x.mapError f)

/-- Go on after an error as after a value. -/
def attempt (p : Program ι σ ε α) : Program ι σ ε' (Except ε α) :=
  p.handle fun x => exit x.attempt

/-- One atomic step. -/
def atomic (f : ι → σ → Exit ε α × σ) : Program ι σ ε α :=
  step (fun i s => (f i s).2) fun i s => exit (f i s).1

end Program

end Atomic
