import Colloquy.Error

/-!
# Colloquy — acts

Resolving and running a conversation talks to collaborators: workflow engines,
knowledge bases, tool servers and backends. An `Act σ α` is an operation on a world
whose outer part `σ` belongs to the collaborators and is never looked into here; a
failed act still leaves the world it made, so what was done before the failure stays
visible. A world is also the `Supply` of random numbers that calls without an identifier
are given one from. A `Draw` is an operation that needs nothing of a world but its supply.

* `callId` — the identifier that a random number makes.
* `Act.attempt` — an act whose errors, though not its faults, become results.
-/

namespace Colloquy

/-- Numbers far apart, of which none is likely to have been chosen by hand. -/
def scattered (n : Nat) : BitVec 128 :=
  .ofNat 128 (n * 0x9e3779b97f4a7c15f39cc0605cedc835 + 0x6a09e667f3bcc908b2fb1366ea957d3e)

/-- A supply of random numbers, and how many of them have been drawn. It may hold any numbers, and
holds scattered ones if it is given none. -/
structure Supply where
  invented : Nat
  random : Nat → BitVec 128 := scattered

/-- What acts work on: a supply of random numbers, and the collaborators' own part. -/
structure World (σ : Type) extends Supply where
  outer : σ

/-- The world of collaborators before anything is drawn. -/
def World.start {σ : Type} (outer : σ) : World σ where
  invented := 0
  outer := outer

/-- An operation on a world, with a result or a failure. -/
abbrev Act (σ : Type) := ExceptT Failure (StateM (World σ))

/-- An operation that may invent identifiers, with a result or an error. -/
abbrev Draw := ExceptT Error (StateM Supply)

/-- The last digits of a number in base 16, in lower case, as many as asked for. -/
def hexDigits : Nat → Nat → List Char
  | 0, _ => []
  | count + 1, n => hexDigits count (n / 16) ++ [Json.hexDigit (n % 16)]

/-- The identifier that a random number makes: the first 24 of its 32 digits. -/
def callId (random : BitVec 128) : String :=
  "call_" ++ String.ofList ((hexDigits 32 random.toNat).take 24)

namespace Draw

/-- A fresh identifier. -/
def callId : Draw String := do
  let supply ← get
  set { supply with invented := supply.invented + 1 }
  return Colloquy.callId (supply.random supply.invented)

def ofExcept {α : Type} : Except Error α → Draw α
  | .ok a => pure a
  | .error e => throw e

/-- What is made of each element in turn, one list after another. -/
def gather {α β : Type} (f : α → Draw (List β)) : List α → Draw (List β)
  | [] => pure []
  | x :: rest => do
    let here ← f x
    let others ← gather f rest
    return here ++ others

end Draw

namespace Act

variable {σ α : Type}

/-- Run an act on a world. -/
def perform (act : Act σ α) (w : World σ) : Except Failure α × World σ :=
  act.run.run w

def fail (e : Error) : Act σ α :=
  throw (.error e)

def ofExcept : Except Error α → Act σ α
  | .ok a => pure a
  | .error e => fail e

def ofFailable : Except Failure α → Act σ α
  | .ok a => pure a
  | .error f => throw f

/-- A value that must be there. -/
def ofOption (absent : Error) : Option α → Act σ α
  | some a => pure a
  | none => fail absent

/-- Draw identifiers from the world's supply. -/
def ofDraw (draw : Draw α) : Act σ α := do
  let w ← get
  let (result, supply) := draw.run.run w.toSupply
  set { w with toSupply := supply }
  ofExcept result

/-- The collaborators' part of the world. -/
def outer : Act σ σ := do
  return (← get).outer

def modifyOuter (f : σ → σ) : Act σ Unit :=
  modify fun w => { w with outer := f w.outer }

/-- Run an act and hand its error, if it has one, to the caller as a result. -/
def attempt (act : Act σ α) : Act σ (Except Error α) := fun w =>
  match act.perform w with
  | (.ok a, w') => (.ok (.ok a), w')
  | (.error (.error e), w') => (.ok (.error e), w')
  | (.error .fault, w') => (.error .fault, w')

/-- Perform an act for each element in turn. -/
def forEach {β : Type} (xs : List α) (f : α → Act σ β) : Act σ (List β) :=
  match xs with
  | [] => pure []
  | x :: rest => do
    let y ← f x
    let ys ← forEach rest f
    return y :: ys

end Act

end Colloquy
