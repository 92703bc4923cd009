import Storehouse.Proofs.Query.Lexeme

namespace Storehouse.Query

def isPlainChar (c : Char) : Bool :=
  c.isAlphanum || c = '_' || c = '.' || c = '-'

def Plain (s : String) : Prop :=
  ∀ c ∈ s.toList, isPlainChar c = true

instance (s : String) : Decidable (Plain s) :=
  decidable_of_iff (s.toList.all isPlainChar = true) List.all_eq_true

theorem Plain.not_mem {s : String} {c : Char} (h : Plain s) (hc : isPlainChar c = false) :
    c ∉ s.toList := by
  intro hm
  rw [h c hm] at hc
  cases hc

def Test.opener : Test → Char
  | .equal => '\x7b'
  | .contains => '/'
  | _ => '['

def Test.closer : Test → Char
  | .equal => '\x7d'
  | .contains => '/'
  | _ => ']'

def Test.body (value : List Char) : Test → List Char
  | .equal => value
  | .above => ('(' :: value) ++ ' ' :: plusInfinity
  | .below => minusInfinity ++ ' ' :: '(' :: (value ++ [')'])
  | .atLeast => value ++ ' ' :: plusInfinity
  | .atMost => minusInfinity ++ ' ' :: value
  | .contains => '.' :: '*' :: (value ++ ['.', '*'])

theorem head?_ne {v : List Char} {c : Char} (h : c ∉ v) : v.head? ≠ some c :=
  fun he => h (List.mem_of_head? he)

theorem Test.ofRange?_above (v : List Char) :
    Test.ofRange? ('(' :: v) plusInfinity = some (.above, v) := by
  rw [ofRange?, if_pos rfl, if_pos List.head?_cons, List.tail_cons]

theorem Test.ofRange?_below (v : List Char) :
    Test.ofRange? minusInfinity ('(' :: (v ++ [')'])) = some (.below, v) := by
  have hne : '(' :: (v ++ [')']) ≠ plusInfinity := by simp [plusInfinity]
  have hlast : ('(' :: (v ++ [')'])).getLast? = some ')' := by
    rw [← List.cons_append, List.getLast?_concat]
  rw [ofRange?, if_neg hne, if_pos rfl, if_pos List.head?_cons, if_pos hlast, List.tail_cons,
    List.dropLast_concat]

theorem Test.ofRange?_atLeast {v : List Char} (h : '(' ∉ v) :
    Test.ofRange? v plusInfinity = some (.atLeast, v) := by
  rw [ofRange?, if_pos rfl, if_neg (head?_ne h)]

theorem Test.ofRange?_atMost {v : List Char} (h : '(' ∉ v) (hplus : '+' ∉ v) :
    Test.ofRange? minusInfinity v = some (.atMost, v) := by
  have hne : v ≠ plusInfinity := fun he => hplus (he ▸ List.mem_cons_self)
  rw [ofRange?, if_neg hne, if_pos rfl, if_neg (head?_ne h)]

theorem Test.ofPattern?_contains (v : List Char) :
    Test.ofPattern? ('.' :: '*' :: (v ++ ['.', '*'])) = some (.contains, v) := by
  simp [ofPattern?]

theorem Test.ofBody?_range {low : List Char} (h : ' ' ∉ low) (high : List Char) :
    Test.ofBody? ']' (low ++ ' ' :: high) = Test.ofRange? low high := by
  simp [ofBody?, Text.cut?_append h]

theorem Test.ofBody?_body {s : String} (h : Plain s) (t : Test) :
    Test.ofBody? t.closer (t.body s.toList) = some (t, s.toList) := by
  have hblank : ' ' ∉ s.toList := h.not_mem rfl
  have hparen : '(' ∉ s.toList := h.not_mem rfl
  have hplus : '+' ∉ s.toList := h.not_mem rfl
  have hinfinity : ' ' ∉ minusInfinity := by decide
  cases t with
  | equal => rfl
  | above =>
    have hlow : ' ' ∉ '(' :: s.toList := by simp [hblank]
    exact (ofBody?_range hlow _).trans (ofRange?_above _)
  | below => exact (ofBody?_range hinfinity _).trans (ofRange?_below _)
  | atLeast => exact (ofBody?_range hblank _).trans (ofRange?_atLeast hparen)
  | atMost => exact (ofBody?_range hinfinity _).trans (ofRange?_atMost hparen hplus)
  | contains => exact ofPattern?_contains _

theorem Test.closer_not_mem_body {s : String} (h : Plain s) (t : Test) :
    t.closer ∉ t.body s.toList := by
  have hbrace : '\x7d' ∉ s.toList := h.not_mem rfl
  have hbracket : ']' ∉ s.toList := h.not_mem rfl
  have hslash : '/' ∉ s.toList := h.not_mem rfl
  cases t <;>
    simp [closer, body, plusInfinity, minusInfinity, hbrace, hbracket, hslash]

/-- The text of a clause without the mark that begins it. -/
def Atom.text (a : Atom) : List Char :=
  a.field.toList ++ ':' :: a.test.opener :: (a.test.body a.value.toList ++ [a.test.closer])

structure Atom.Plain (a : Atom) : Prop where
  field : Query.Plain a.field
  value : Query.Plain a.value

namespace Lexeme

theorem Scan.foldlM_field {field : List Char} (h : ':' ∉ field) (done : List Lexeme)
    (negated : Bool) (chars : List Char) :
    field.foldlM step? ⟨done, .field negated chars⟩ =
      some ⟨done, .field negated (field.reverse ++ chars)⟩ := by
  induction field generalizing chars with
  | nil => rfl
  | cons c field ih =>
    rw [List.mem_cons, not_or] at h
    have hstep : step? ⟨done, .field negated chars⟩ c = some ⟨done, .field negated (c :: chars)⟩ :=
      if_neg (Ne.symm h.1)
    rw [List.foldlM_cons, hstep]
    simpa using ih h.2 (c :: chars)

theorem Scan.foldlM_body {body : List Char} {closer : Char} (h : closer ∉ body)
    (done : List Lexeme) (negated : Bool) (field chars : List Char) :
    body.foldlM step? ⟨done, .body negated field closer chars⟩ =
      some ⟨done, .body negated field closer (body.reverse ++ chars)⟩ := by
  induction body generalizing chars with
  | nil => rfl
  | cons c body ih =>
    rw [List.mem_cons, not_or] at h
    have hstep : step? ⟨done, .body negated field closer chars⟩ c =
        some ⟨done, .body negated field closer (c :: chars)⟩ := if_neg (Ne.symm h.1)
    rw [List.foldlM_cons, hstep]
    simpa using ih h.2 (c :: chars)

theorem Scan.foldlM_atom {a : Atom} (h : a.Plain) (done : List Lexeme) (negated : Bool) :
    a.text.foldlM step? ⟨done, .field negated []⟩ = some ⟨.atom negated a :: done, .nothing⟩ := by
  have hcolon : ':' ∉ a.field.toList := h.field.not_mem rfl
  have hopener : closer? a.test.opener = some a.test.closer := by cases a.test <;> rfl
  have hname : step? ⟨done, .field negated (a.field.toList.reverse ++ [])⟩ ':' =
      some ⟨done, .test negated a.field.toList⟩ := by
    simp only [step?, ↓reduceIte, List.append_nil, List.reverse_reverse]
  have hopen : step? ⟨done, .test negated a.field.toList⟩ a.test.opener =
      some ⟨done, .body negated a.field.toList a.test.closer []⟩ := by
    simp only [step?, hopener, Option.map_some]
  have hclose : step? ⟨done, .body negated a.field.toList a.test.closer
      ((a.test.body a.value.toList).reverse ++ [])⟩ a.test.closer =
      some ⟨.atom negated a :: done, .nothing⟩ := by
    simp only [step?, ↓reduceIte, List.append_nil, List.reverse_reverse,
      Test.ofBody?_body h.value, Option.map_some, String.ofList_toList]
  rw [Atom.text, List.foldlM_append, foldlM_field hcolon, Option.bind_eq_bind, Option.bind_some,
    List.foldlM_cons, hname, Option.bind_eq_bind, Option.bind_some, List.foldlM_cons, hopen,
    Option.bind_eq_bind, Option.bind_some, List.foldlM_append,
    foldlM_body (Test.closer_not_mem_body h.value a.test), Option.bind_eq_bind, Option.bind_some,
    List.foldlM_cons, hclose]
  rfl

theorem Scans.atom {a : Atom} (h : a.Plain) (negated : Bool) :
    Scans ((if negated then ['-'] else []) ++ '@' :: a.text) [.atom negated a] := by
  intro done
  cases negated with
  | false => exact Scan.foldlM_atom h done false
  | true => exact Scan.foldlM_atom h done true

theorem Scans.blank : Scans [' '] [] :=
  fun _ => rfl

theorem Scans.bar : Scans " | ".toList [.bar] :=
  fun _ => rfl

theorem Scans.keyword (k : Combinator) :
    Scans (" " ++ k.keyword ++ " ").toList [.keyword k] := by
  intro done
  cases k <;> rfl

theorem Scans.parenthesized {cs : List Char} {ls : List Lexeme} (h : Scans cs ls) :
    Scans ('(' :: (cs ++ [')'])) (.opening :: (ls ++ [.closing])) := by
  have hopen : Scans ['('] [.opening] := fun _ => rfl
  have hclose : Scans [')'] [.closing] := fun _ => rfl
  exact hopen.append (h.append hclose)

end Lexeme
end Storehouse.Query
