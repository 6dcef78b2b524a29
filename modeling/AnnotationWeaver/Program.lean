/-!
Programs of callbacks. A program asks for one thing after the other and goes on with what comes of it,
which may be a failure; it ends with a result or gives up. What a program asks for is data, so a program
can do nothing but what the one that runs it does for it. What was done for a program that gives up
stays done.
-/
namespace AnnotationWeaver

/-- A program whose requests are answered by replies that depend on the request or fail with an `ε`,
    and which gives up with an `ε`. -/
inductive Program (ε : Type) (Request : Type) (Reply : Request → Type) (α : Type) where
  | done (result : α)
  | giveUp (e : ε)
  | ask (request : Request) (next : Except ε (Reply request) → Program ε Request Reply α)

namespace Program

variable {ε Request α β σ : Type} {Reply : Request → Type}

/-- Goes on with the result of a program. -/
def bind (f : α → Program ε Request Reply β) : Program ε Request Reply α → Program ε Request Reply β
  | .done result => f result
  | .giveUp e => .giveUp e
  | .ask request next => .ask request fun outcome => bind f (next outcome)

instance : Monad (Program ε Request Reply) where
  pure := .done
  bind p f := p.bind f

/-- The program that ends with what is known already. -/
def ofExcept : Except ε α → Program ε Request Reply α
  | .ok result => .done result
  | .error e => .giveUp e

/-- What comes of a program, be it that it gives up. -/
def attempt : Program ε Request Reply α → Program ε Request Reply (Except ε α)
  | .done result => .done (.ok result)
  | .giveUp e => .done (.error e)
  | .ask request next => .ask request fun outcome => attempt (next outcome)

/-- Asks for one thing, and gives up if that fails. -/
def request (r : Request) : Program ε Request Reply (Reply r) := .ask r ofExcept

/-- Answers the requests of a program one after the other, each with a new state. -/
def run (answer : (r : Request) → σ → Except ε (Reply r) × σ) : Program ε Request Reply α → σ → Except ε α × σ
  | .done result, s => (.ok result, s)
  | .giveUp e, s => (.error e, s)
  | .ask request next, s =>
    let (outcome, s) := answer request s
    run answer (next outcome) s

/-- The same program where its requests are made in another way. -/
def through {Request' : Type} {Reply' : Request' → Type}
    (make : (r : Request) → Program ε Request' Reply' (Reply r)) :
    Program ε Request Reply α → Program ε Request' Reply' α
  | .done result => .done result
  | .giveUp e => .giveUp e
  | .ask request next => (make request).attempt.bind fun outcome => through make (next outcome)

end Program

end AnnotationWeaver
