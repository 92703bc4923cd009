import Mathlib.Data.List.Forall2
import Storehouse.Basic

namespace Storehouse.Search

/-- A part is written as one token or more, and reading it leaves the tokens behind it. -/
structure Part (α : Type) where
  tokens : α → List String
  read? : List String → Option (α × List String)
  read?_tokens (a : α) (rest : List String) : read? (tokens a ++ rest) = some (a, rest)
  length_lt {a : α} {tokens rest : List String} :
    read? tokens = some (a, rest) → rest.length < tokens.length

namespace Part

variable {α : Type}

theorem length_lt_of_prefix (p : Part α) {keywords tokens body rest : List String} {a : α}
    (hkeywords : keywords.isPrefixOf? tokens = some body) (hread : p.read? body = some (a, rest)) :
    rest.length < tokens.length := by
  rw [List.isPrefixOf?_eq_some_iff_append_eq] at hkeywords
  rw [← hkeywords, List.length_append]
  exact Nat.lt_of_lt_of_le (p.length_lt hread) (Nat.le_add_left _ _)

/-- The parts that follow, each behind the keywords. -/
def all? (p : Part α) (keywords : List String) (tokens : List String) :
    Option (List α × List String) :=
  match _ : keywords.isPrefixOf? tokens with
  | none => some ([], tokens)
  | some body =>
    match _ : p.read? body with
    | none => none
    | some (a, rest) => do
      let (others, last) ← p.all? keywords rest
      return (a :: others, last)
termination_by tokens.length
decreasing_by exact p.length_lt_of_prefix ‹_› ‹_›

theorem isPrefixOf?_append (keywords rest : List String) :
    keywords.isPrefixOf? (keywords ++ rest) = some rest :=
  List.isPrefixOf?_eq_some_iff_append_eq.mpr rfl

theorem all?_of_none (p : Part α) {keywords rest : List String}
    (h : keywords.isPrefixOf? rest = none) : p.all? keywords rest = some ([], rest) := by
  rw [all?]
  split
  · rfl
  · next body hbody =>
    rw [h] at hbody
    cases hbody

theorem all?_cons (p : Part α) (keywords : List String) (a : α) (rest : List String) :
    p.all? keywords (keywords ++ (p.tokens a ++ rest)) =
      p.all? keywords rest >>= fun (others, last) => some (a :: others, last) := by
  rw [all?]
  split
  · next hnone =>
    rw [isPrefixOf?_append] at hnone
    cases hnone
  · next body hbody =>
    rw [isPrefixOf?_append, Option.some.injEq] at hbody
    subst hbody
    split
    · next hnone =>
      rw [p.read?_tokens] at hnone
      cases hnone
    · next b last hread =>
      rw [p.read?_tokens] at hread
      cases hread
      rfl

/-- The parts end where the keywords no longer follow. -/
theorem all?_flatMap (p : Part α) {keywords rest : List String} (parts : List α)
    (h : keywords.isPrefixOf? rest = none) :
    p.all? keywords (parts.flatMap (fun a => keywords ++ p.tokens a) ++ rest) =
      some (parts, rest) := by
  induction parts with
  | nil => exact p.all?_of_none h
  | cons a parts ih =>
    rw [List.flatMap_cons, List.append_assoc, List.append_assoc, all?_cons, ih]
    rfl

end Part

namespace Part

def counted : Part (List String) where
  tokens ts := ts.length.repr :: ts
  read?
    | [] => none
    | count :: rest => do
      let n ← Text.digits? count.toList
      if n ≤ rest.length then some (rest.take n, rest.drop n) else none
  read?_tokens ts rest := by
    have hlength : ts.length ≤ (ts ++ rest).length := by
      rw [List.length_append]
      exact Nat.le_add_right _ _
    rw [List.cons_append]
    simp only [Nat.toList_repr, Text.digits?_toDigits, bind, Option.bind]
    rw [if_pos hlength, List.take_left, List.drop_left]
  length_lt {ts tokens rest} h := by
    cases tokens with
    | nil => cases h
    | cons count others =>
      simp only [Option.bind_eq_bind, Option.bind_eq_some_iff] at h
      obtain ⟨n, _, h⟩ := h
      split at h
      · cases h
        rw [List.length_cons, List.length_drop]
        exact Nat.lt_succ_of_le (Nat.sub_le _ _)
      · cases h

end Part
end Storehouse.Search
