import Storehouse.Exchange.Measure

namespace Storehouse.Backoff

/-- Delays are in nanoseconds; `attempts` counts all attempts, the first one included. -/
structure Policy where
  initial : Nat
  cap : Nat
  factor : Float
  attempts : Nat

namespace Policy

/-- For the first connection: a handful of attempts rather than a long wait for a bad address. -/
def startup : Policy := ⟨200000000, 2000000000, 2, 5⟩

def command : Policy := ⟨100000000, 2000000000, 2, 3⟩

def once : Policy := ⟨0, 0, 1, 1⟩

end Policy

/-- The duration nearest to some seconds. There is none for a negative one that does not round to no
time at all, for one whose seconds do not fit a word, and for a value that is not finite. -/
def ofSeconds? (x : Float) : Option Nat :=
  match Double.parts x with
  | .finite negative mantissa exponent =>
    let nanoseconds := Double.roundHalfEven (mantissa * 10 ^ 9 * 2 ^ exponent.toNat)
      (2 ^ (-exponent).toNat)
    if negative && nanoseconds ≠ 0 then none
    else if nanoseconds < 2 ^ 64 * 10 ^ 9 then some nanoseconds
    else none
  | _ => none

/-- A delay multiplied by a factor, if the product has a duration. -/
def product? (delay : Nat) (factor : Float) : Option Nat :=
  ofSeconds? (factor * seconds delay)

/-- The delay after the given one, where `multiply?` multiplies a delay by the factor: longer, but
not above the cap. The product is computed before it is capped, so there is none if it has no
duration. -/
def Policy.next? (multiply? : Nat → Float → Option Nat) (p : Policy) (delay : Nat) : Option Nat :=
  (multiply? delay p.factor).map fun n => min n p.cap

/-- What happens while an operation is repeated: a failed attempt is reported with the delay that is
to follow, a delay is slept, or a success after some failed attempts is reported. -/
inductive Notice (ε : Type)
  | failed (attempt : Nat) (error : ε) (delay : Nat)
  | slept (delay : Nat)
  | recovered (retries : Nat)

/-- The end of a repeated operation; there is no result if a delay could not be computed. -/
structure Run (σ ε α : Type) where
  result : Option (Except ε α)
  state : σ
  notices : List (Notice ε)

variable {σ ε α : Type}

def Run.precede (notices : List (Notice ε)) (r : Run σ ε α) : Run σ ε α :=
  { r with notices := notices ++ r.notices }

/-- Attempts from the one numbered `attempt` on, of which `left` may follow after it fails. -/
def Policy.runFrom (multiply? : Nat → Float → Option Nat) (p : Policy) (transient : ε → Bool)
    (operation : σ → Except ε α × σ) (attempt delay : Nat) (s : σ) (left : Nat) : Run σ ε α :=
  match operation s with
  | (.ok a, s) => ⟨some (.ok a), s, if attempt = 1 then [] else [.recovered (attempt - 1)]⟩
  | (.error e, s) =>
    match left with
    | 0 => ⟨some (.error e), s, []⟩
    | left + 1 =>
      if transient e then
        let notices := [.failed attempt e delay, .slept delay]
        match p.next? multiply? delay with
        | some next =>
          (p.runFrom multiply? transient operation (attempt + 1) next s left).precede notices
        | none => ⟨none, s, notices⟩
      else ⟨some (.error e), s, []⟩

/-- Repeats an operation until it succeeds, fails for good, or has been attempted often enough. -/
def Policy.runBy (multiply? : Nat → Float → Option Nat) (p : Policy) (transient : ε → Bool)
    (operation : σ → Except ε α × σ) (s : σ) : Run σ ε α :=
  p.runFrom multiply? transient operation 1 p.initial s (p.attempts - 1)

def Policy.run (p : Policy) (transient : ε → Bool) (operation : σ → Except ε α × σ) (s : σ) :
    Run σ ε α :=
  p.runBy product? transient operation s

/-- Repeats an operation after every failure. -/
def Policy.runAlways (p : Policy) (operation : σ → Except ε α × σ) (s : σ) : Run σ ε α :=
  p.run (fun _ => true) operation s

def waited : List (Notice ε) → Nat
  | [] => 0
  | .slept delay :: rest => delay + waited rest
  | _ :: rest => waited rest

end Storehouse.Backoff
