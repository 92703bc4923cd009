namespace Storehouse

/-- Powers are those of the core library, also where a larger library brings its own. -/
@[default_instance 20000]
instance (priority := 2000) corePow {α : Type} [NatPow α] : Pow α Nat := instPowNat

namespace Text

/-- The characters with the property White_Space. -/
def isBlank (c : Char) : Bool :=
  let n := c.toNat
  (9 ≤ n && n ≤ 13) || n = 0x20 || n = 0x85 || n = 0xa0 || n = 0x1680 || (0x2000 ≤ n && n ≤ 0x200a)
    || n = 0x2028 || n = 0x2029 || n = 0x202f || n = 0x205f || n = 0x3000

def trimChars (cs : List Char) : List Char :=
  ((cs.dropWhile isBlank).reverse.dropWhile isBlank).reverse

def trim (s : String) : String :=
  .ofList (trimChars s.toList)

/-- Small letters for the capital letters A to Z, all else as it is. -/
def lower (s : String) : String :=
  .ofList (s.toList.map Char.toLower)

/-- At least one digit and nothing else. -/
def digits? (cs : List Char) : Option Nat :=
  if cs ≠ [] ∧ cs.all Char.isDigit then some (Nat.ofDigitChars 10 cs 0) else none

def natural? (bound : Nat) (s : String) : Option Nat :=
  let read cs := (digits? cs).filter (· < bound)
  match s.toList with
  | '+' :: cs => read cs
  | cs => read cs

/-- A number from `-bound` up to `bound - 1`. -/
def integer? (bound : Nat) (s : String) : Option Int :=
  let read cs := ((digits? cs).filter (· < bound)).map Int.ofNat
  match s.toList with
  | '+' :: cs => read cs
  | '-' :: cs => ((digits? cs).filter (· ≤ bound)).map fun n => -(n : Int)
  | cs => read cs

def word? (s : String) : Option UInt64 :=
  (natural? (2 ^ 64) s).map UInt64.ofNat

def int64? (s : String) : Option Int64 :=
  (integer? (2 ^ 63) s).map Int64.ofInt

theorem digits?_toDigits (n : Nat) : digits? (Nat.toDigits 10 n) = some n := by
  have hdigits : (Nat.toDigits 10 n).all Char.isDigit = true := by
    rw [List.all_eq_true]
    intro c hc
    exact Nat.isDigit_of_mem_toDigits (by decide) (by decide) hc
  rw [digits?, if_pos ⟨Nat.toDigits_ne_nil, hdigits⟩, Nat.ofDigitChars_ten_toDigits]

theorem natural?_repr {bound n : Nat} (h : n < bound) : natural? bound n.repr = some n := by
  have hread : (digits? n.repr.toList).filter (· < bound) = some n := by
    rw [Nat.toList_repr, digits?_toDigits]
    simpa using h
  have hplus (cs : List Char) : n.repr.toList ≠ '+' :: cs := by
    intro hcs
    have hdigit : '+'.isDigit = true := by
      apply Nat.isDigit_of_mem_toDigits (b := 10) (n := n) (by decide) (by decide)
      rw [← Nat.toList_repr, hcs]
      exact List.mem_cons_self
    cases hdigit
  rw [natural?]
  split
  · next cs hcs => exact absurd hcs (hplus cs)
  · exact hread

theorem word?_repr (n : UInt64) : word? n.toNat.repr = some n := by
  rw [word?, natural?_repr n.toNat_lt, Option.map_some, UInt64.ofNat_toNat]

/-- The value of a digit; letters may be small or capital. -/
def hexValue? (c : Char) : Option Nat :=
  if c.isDigit then some (c.toNat - '0'.toNat)
  else if 'a' ≤ c ∧ c ≤ 'f' then some (c.toNat - 'a'.toNat + 10)
  else if 'A' ≤ c ∧ c ≤ 'F' then some (c.toNat - 'A'.toNat + 10)
  else none

def hexDigit (n : Nat) : Char :=
  if n < 10 then Char.ofNat ('0'.toNat + n) else Char.ofNat ('A'.toNat + (n - 10))

theorem hexValue?_hexDigit {n : Nat} (h : n < 16) : hexValue? (hexDigit n) = some n := by
  have all : ∀ m ∈ List.range 16, hexValue? (hexDigit m) = some m := by decide
  exact all n (List.mem_range.mpr h)

/-- The parts before and after the first character that is `c`, if there is one. -/
def cut? (c : Char) (cs : List Char) : Option (List Char × List Char) :=
  match cs.dropWhile (· ≠ c) with
  | [] => none
  | _ :: rest => some (cs.takeWhile (· ≠ c), rest)

theorem cut?_append {c : Char} {first : List Char} (h : c ∉ first) (rest : List Char) :
    cut? c (first ++ c :: rest) = some (first, rest) := by
  have hne : ∀ d ∈ first, decide (d ≠ c) = true := by
    intro d hd
    exact decide_eq_true fun he => h (he ▸ hd)
  have hdrop : (first ++ c :: rest).dropWhile (· ≠ c) = c :: rest := by
    rw [List.dropWhile_append_of_pos hne]
    simp
  have htake : (first ++ c :: rest).takeWhile (· ≠ c) = first := by
    rw [List.takeWhile_append_of_pos hne]
    simp
  rw [cut?, hdrop, htake]

theorem cut?_of_not_mem {c : Char} {cs : List Char} (h : c ∉ cs) : cut? c cs = none := by
  have hdrop : cs.dropWhile (· ≠ c) = [] := by
    rw [← List.append_nil cs, List.dropWhile_append_of_pos]
    · rfl
    · intro d hd
      exact decide_eq_true fun he => h (he ▸ hd)
  rw [cut?, hdrop]

/-- The parts before and after the last character that is `c`, if there is one. -/
def cutLast? (c : Char) (cs : List Char) : Option (List Char × List Char) :=
  (cut? c cs.reverse).map fun (last, first) => (first.reverse, last.reverse)

/-- The pieces between all characters that are `c`; there is always at least one. -/
def pieces (c : Char) : List Char → List (List Char)
  | [] => [[]]
  | d :: rest => if d = c then [] :: pieces c rest else (pieces c rest).modifyHead (d :: ·)

/-- The ranges of the bytes that follow a first byte, or nothing where no character begins. -/
def followers? (b : Nat) : Option (List (Nat × Nat)) :=
  let tail := (0x80, 0xbf)
  if b < 0x80 then some []
  else if b < 0xc2 then none
  else if b < 0xe0 then some [tail]
  else if b = 0xe0 then some [(0xa0, 0xbf), tail]
  else if b = 0xed then some [(0x80, 0x9f), tail]
  else if b < 0xf0 then some [tail, tail]
  else if b = 0xf0 then some [(0x90, 0xbf), tail, tail]
  else if b < 0xf4 then some [tail, tail, tail]
  else if b = 0xf4 then some [(0x80, 0x8f), tail, tail]
  else none

/-- How many bytes in front lie in the given ranges, one after the other. -/
def countFollowers : List (Nat × Nat) → List UInt8 → Nat
  | (low, high) :: ranges, b :: rest =>
    if low ≤ b.toNat ∧ b.toNat ≤ high then countFollowers ranges rest + 1 else 0
  | _, _ => 0

/-- The character of a first byte and the bytes that follow it: six bits from each of these, and
what the first byte has left. -/
def join (first : UInt8) (following : List UInt8) : Char :=
  let high := if following = [] then first.toNat else first.toNat % 2 ^ (6 - following.length)
  Char.ofNat (following.foldl (fun n b => 64 * n + b.toNat % 64) high)

def replaced : List UInt8 → List Char
  | [] => []
  | b :: rest =>
    match followers? b.toNat with
    | none => '\ufffd' :: replaced rest
    | some ranges =>
      let n := countFollowers ranges rest
      (if n = ranges.length then join b (rest.take n) else '\ufffd') :: replaced (rest.drop n)
  termination_by bs => bs.length
  decreasing_by all_goals simp; try omega

end Text
end Storehouse
