namespace Storehouse.Named

variable {α : Type}

/-- The value goes to its place; one already there under the name is replaced. -/
def insert (name : String) (value : α) : List (String × α) → List (String × α)
  | [] => [(name, value)]
  | (n, v) :: rest =>
    if name < n then (name, value) :: (n, v) :: rest
    else if name = n then (name, value) :: rest
    else (n, v) :: insert name value rest

/-- Of several values under one name the last stays. -/
def ofList (pairs : List (String × α)) : List (String × α) :=
  pairs.foldl (fun named (name, value) => insert name value named) []

/-- Each name stands before the next one. -/
def Ascending (pairs : List (String × α)) : Prop :=
  pairs.Pairwise fun a b => a.1 < b.1

variable {name : String} {value : α} {pairs : List (String × α)} {p : String × α}

theorem ne_of_lt {a b : String} (h : a < b) : a ≠ b := by
  rintro rfl
  exact String.lt_irrefl a h

theorem insert_cons_of_lt (h : name < p.1) :
    insert name value (p :: pairs) = (name, value) :: p :: pairs := by
  rw [insert, if_pos h]

theorem insert_cons_of_eq (h : name = p.1) :
    insert name value (p :: pairs) = (name, value) :: pairs := by
  have hnot : ¬ name < p.1 := fun hlt => ne_of_lt hlt h
  rw [insert, if_neg hnot, if_pos h]

theorem insert_cons_of_gt (h : p.1 < name) :
    insert name value (p :: pairs) = p :: insert name value pairs := by
  rw [insert, if_neg (String.lt_asymm h), if_neg (ne_of_lt h).symm]

theorem insert_eq_append (h : ∀ p ∈ pairs, p.1 < name) :
    insert name value pairs = pairs ++ [(name, value)] := by
  induction pairs with
  | nil => rfl
  | cons p pairs ih =>
    rw [insert_cons_of_gt (h p List.mem_cons_self), ih fun q hq => h q (List.mem_cons_of_mem p hq)]
    rfl

theorem foldl_insert_eq_append {named pairs : List (String × α)} (h : Ascending (named ++ pairs)) :
    pairs.foldl (fun named p => insert p.1 p.2 named) named = named ++ pairs := by
  induction pairs generalizing named with
  | nil => rw [List.foldl_nil, List.append_nil]
  | cons p pairs ih =>
    have hbefore : ∀ q ∈ named, q.1 < p.1 :=
      fun q hq => (List.pairwise_append.mp h).2.2 q hq p List.mem_cons_self
    rw [List.append_cons] at h ⊢
    rw [List.foldl_cons, insert_eq_append hbefore, ih h]

/-- Names that ascend already stay as they are. -/
theorem ofList_eq_self {pairs : List (String × α)} (h : Ascending pairs) : ofList pairs = pairs :=
  foldl_insert_eq_append h

theorem Ascending.head_lt (h : Ascending (p :: pairs)) : ∀ q ∈ pairs, p.1 < q.1 :=
  (List.pairwise_cons.mp h).1

theorem Ascending.tail (h : Ascending (p :: pairs)) : Ascending pairs :=
  (List.pairwise_cons.mp h).2

/-- Of the pairs that were there only one under the name makes way. -/
theorem mem_insert {q : String × α} (h : Ascending pairs) :
    q ∈ insert name value pairs ↔ q = (name, value) ∨ (q.1 ≠ name ∧ q ∈ pairs) := by
  induction pairs with
  | nil => simp [insert]
  | cons p pairs ih =>
    have hhead := h.head_lt
    rcases Std.lt_trichotomy name p.1 with hlt | heq | hgt
    · have hne : ∀ r ∈ p :: pairs, r.1 ≠ name := by
        intro r hr
        cases hr with
        | head => exact (ne_of_lt hlt).symm
        | tail _ hr => exact (ne_of_lt (String.lt_trans hlt (hhead r hr))).symm
      rw [insert_cons_of_lt hlt, List.mem_cons]
      exact or_congr_right (and_iff_right_of_imp (hne q)).symm
    · have hne : ∀ r ∈ pairs, r.1 ≠ name := by
        intro r hr
        rw [heq]
        exact (ne_of_lt (hhead r hr)).symm
      rw [insert_cons_of_eq heq, List.mem_cons, List.mem_cons]
      grind
    · have hne : p.1 ≠ name := ne_of_lt hgt
      rw [insert_cons_of_gt hgt, List.mem_cons, List.mem_cons, ih h.tail]
      grind

theorem Ascending.insert (h : Ascending pairs) (name : String) (value : α) :
    Ascending (insert name value pairs) := by
  induction pairs with
  | nil => exact List.pairwise_singleton _ _
  | cons p pairs ih =>
    have hhead := h.head_lt
    rcases Std.lt_trichotomy name p.1 with hlt | heq | hgt
    · rw [insert_cons_of_lt hlt]
      apply List.Pairwise.cons _ h
      intro q hq
      cases hq with
      | head => exact hlt
      | tail _ hq => exact String.lt_trans hlt (hhead q hq)
    · rw [insert_cons_of_eq heq]
      apply List.Pairwise.cons _ h.tail
      rw [heq]
      exact hhead
    · rw [insert_cons_of_gt hgt]
      apply List.Pairwise.cons _ (ih h.tail)
      intro q hq
      rcases (mem_insert h.tail).mp hq with rfl | ⟨-, hq⟩
      · exact hgt
      · exact hhead q hq

theorem Ascending.nodup (h : Ascending pairs) : (pairs.map Prod.fst).Nodup := by
  rw [List.Nodup, List.pairwise_map]
  exact h.imp ne_of_lt

end Storehouse.Named
