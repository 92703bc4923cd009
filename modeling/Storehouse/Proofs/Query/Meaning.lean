import Storehouse.Proofs.Query.Formula
import Storehouse.Proofs.Query.Written

namespace Storehouse

open Query (Atom Lexeme Level Formula Reads Truth)

variable {v : Atom → Bool}

namespace Condition

/-- Some value passes the test; under an operator that negates, none does. -/
def holds (v : Atom → Bool) (c : Condition) : Bool :=
  c.operator.negates ^^ c.atoms.any v

theorem holds_eq_all {c : Condition} (h : c.WellShaped) (hop : c.operator ≠ .isIn) :
    c.holds v = c.atoms.all fun a => c.operator.negates ^^ v a := by
  obtain ⟨field, op, operand⟩ := c
  cases operand with
  | scalar x => simp [holds, atoms, Operand.scalars]
  | list xs =>
    have hnot : op = .notIn := by
      cases op <;> first | rfl | exact absurd rfl hop | cases h
    subst hnot
    simp [holds, Operator.negates, List.not_any_eq_all_not]

end Condition

def Combinator.join : Combinator → List Bool → Bool
  | and, bs => bs.all id
  | or, bs => bs.any id

/-- The result of a group whose operands are read one after the other, bars included. -/
def Combinator.read : Combinator → List (List Bool) → Bool
  | and, bss => (bss.foldl Truth.absorb .empty).overall
  | or, bss => bss.any (·.any id)

namespace Filter

mutual

def holds (v : Atom → Bool) : Filter → Bool
  | .leaf c => c.holds v
  | .group combinator operands => combinator.join (holdsAll v operands)

def holdsAll (v : Atom → Bool) : List Filter → List Bool
  | [] => []
  | f :: rest => holds v f :: holdsAll v rest

end

mutual

/-- The truth of what stands between the bars of the query, outside of its parentheses. -/
def alternatives (v : Atom → Bool) : Filter → List Bool
  | .leaf c => if c.operator = .isIn then c.atoms.map v else [c.holds v]
  | .group combinator operands => [combinator.read (alternativesAll v operands)]

def alternativesAll (v : Atom → Bool) : List Filter → List (List Bool)
  | [] => []
  | f :: rest => alternatives v f :: alternativesAll v rest

end

theorem holdsAll_eq_map (fs : List Filter) : holdsAll v fs = fs.map (holds v) := by
  induction fs with
  | nil => rfl
  | cons f fs ih => rw [holdsAll, ih, List.map_cons]

theorem alternativesAll_eq_map (fs : List Filter) :
    alternativesAll v fs = fs.map (alternatives v) := by
  induction fs with
  | nil => rfl
  | cons f fs ih => rw [alternativesAll, ih, List.map_cons]

inductive Filled : Filter → Prop
  | leaf (c : Condition) : Filled (.leaf c)
  | group {k : Combinator} {f : Filter} {fs : List Filter} (h : ∀ g ∈ f :: fs, Filled g) :
    Filled (.group k (f :: fs))

theorem Plain.alternatives_eq_cons {f : Filter} (h : f.Plain) :
    ∃ b bs, f.alternatives v = b :: bs := by
  cases f with
  | leaf c =>
    obtain ⟨a, as, ha⟩ := Condition.atoms_eq_cons h.leaf.nonempty
    rw [alternatives, ha]
    split
    · exact ⟨_, _, List.map_cons⟩
    · exact ⟨_, _, rfl⟩
  | group k fs => exact ⟨_, _, rfl⟩

end Filter

namespace Query

theorem reads_conjunction {l : Level} (h : l.Complete) (negated : Bool) (as : List Atom) :
    ∃ m, Reads (as.flatMap fun a => [.atom negated a]) l m ∧ m.Complete ∧
      ∀ v, m.truth v = (l.truth v).operand (as.all fun a => negated ^^ v a) := by
  induction as generalizing l with
  | nil => exact ⟨l, .nil l, h, fun v => by simp [Truth.operand]⟩
  | cons a as ih =>
    obtain ⟨m, hm, hcomplete, htruth⟩ := ih (l.complete_operand (.literal negated a))
    have hreads := (Reads.atom negated a l).append hm
    refine ⟨m, hreads, hcomplete, ?_⟩
    intro v
    simp [htruth, Level.truth_operand, Formula.holds_literal, Truth.operand, Bool.and_assoc]

theorem reads_alternatives {l : Level} (h : l.Complete) (as : List Atom) :
    ∃ m, Reads (as.flatMap fun a => [.bar, .atom false a]) l m ∧ m.Complete ∧
      ∀ v, m.truth v = (as.map v).foldl (fun t b => t.bar.operand b) (l.truth v) := by
  induction as generalizing l with
  | nil => exact ⟨l, .nil l, h, fun v => rfl⟩
  | cons a as ih =>
    obtain ⟨n, hn, hbar⟩ := h.join?_or
    obtain ⟨m, hm, hcomplete, htruth⟩ := ih (n.complete_operand (.literal false a))
    have hreads := ((Reads.bar hn).append (Reads.atom false a n)).append hm
    have hfold (v : Atom → Bool) :
        m.truth v = ((a :: as).map v).foldl (fun t b => t.bar.operand b) (l.truth v) := by
      rw [htruth, Level.truth_operand, hbar, Formula.holds_literal, Bool.false_xor]
      rfl
    exact ⟨m, hreads, hcomplete, hfold⟩

end Query

theorem Condition.Plain.reads_lexemes {c : Condition} (h : c.Plain) (l : Level) :
    ∃ m, Reads c.lexemes l m ∧ m.Complete ∧
      ∀ v, m.truth v = (l.truth v).absorb ((Filter.leaf c).alternatives v) := by
  obtain ⟨a, as, ha⟩ := atoms_eq_cons h.nonempty
  have hfirst := Reads.atom c.operator.negates a l
  have hcomplete := l.complete_operand (.literal c.operator.negates a)
  rw [lexemes_eq_cons ha]
  by_cases hop : c.operator = .isIn
  · obtain ⟨m, hm, hm', htruth⟩ := Query.reads_alternatives hcomplete as
    rw [hop] at hm hfirst htruth ⊢
    have habsorb (v : Atom → Bool) :
        m.truth v = (l.truth v).absorb ((Filter.leaf c).alternatives v) := by
      rw [htruth, Level.truth_operand, Formula.holds_literal, Filter.alternatives, if_pos hop, ha]
      simp [Operator.negates, Truth.absorb]
    exact ⟨m, hfirst.append hm, hm', habsorb⟩
  · obtain ⟨m, hm, hm', htruth⟩ := Query.reads_conjunction hcomplete c.operator.negates as
    have hjoint : c.operator.joint = [] := if_neg hop
    rw [hjoint]
    have habsorb (v : Atom → Bool) :
        m.truth v = (l.truth v).absorb ((Filter.leaf c).alternatives v) := by
      rw [htruth, Level.truth_operand, Formula.holds_literal, Filter.alternatives, if_neg hop,
        holds_eq_all h.wellShaped hop, ha]
      simp [Truth.operand, Truth.absorb, Bool.and_assoc]
    exact ⟨m, hfirst.append hm, hm', habsorb⟩

namespace Filter

/-- Read as an operand, the filter adds its alternatives to the group around it. -/
def ReadsAlternatives (f : Filter) : Prop :=
  ∀ l, ∃ m, Reads f.lexemes l m ∧ m.Complete ∧
    ∀ v, m.truth v = (l.truth v).absorb (f.alternatives v)

theorem reads_following_and {fs : List Filter} (hf : ∀ f ∈ fs, f.ReadsAlternatives) {l : Level}
    (hl : l.Complete) : ∃ m, Reads (following .and fs) l m ∧ m.Complete ∧
      ∀ v, m.truth v = (fs.map (alternatives v)).foldl Truth.absorb (l.truth v) := by
  induction fs generalizing l with
  | nil => exact ⟨l, .nil l, hl, fun v => rfl⟩
  | cons f fs ih =>
    obtain ⟨n, hn, hjoin⟩ := hl.join?_and
    obtain ⟨m, hm, hcomplete, htruth⟩ := hf f List.mem_cons_self n
    obtain ⟨m', hm', hcomplete', htruth'⟩ :=
      ih (fun g hg => hf g (List.mem_cons_of_mem f hg)) hcomplete
    have hreads := ((Reads.keyword hn).append hm).append hm'
    have hfold (v : Atom → Bool) :
        m'.truth v = ((f :: fs).map (alternatives v)).foldl Truth.absorb (l.truth v) := by
      rw [htruth', htruth, hjoin, List.map_cons, List.foldl_cons]
    exact ⟨m', hreads, hcomplete', hfold⟩

theorem reads_following_or {fs : List Filter} (hf : ∀ f ∈ fs, f.ReadsAlternatives)
    (hplain : ∀ f ∈ fs, f.Plain) {l : Level} (hl : l.Complete) :
    ∃ m, Reads (following .or fs) l m ∧ m.Complete ∧ ∀ v, (m.truth v).overall =
      ((l.truth v).overall || (fs.map (alternatives v)).any (·.any id)) := by
  induction fs generalizing l with
  | nil => exact ⟨l, .nil l, hl, fun v => by simp⟩
  | cons f fs ih =>
    obtain ⟨n, hn, hjoin⟩ := hl.join?_or
    obtain ⟨m, hm, hcomplete, htruth⟩ := hf f List.mem_cons_self n
    obtain ⟨m', hm', hcomplete', htruth'⟩ := ih (fun g hg => hf g (List.mem_cons_of_mem f hg))
      (fun g hg => hplain g (List.mem_cons_of_mem f hg)) hcomplete
    have hreads := ((Reads.keyword hn).append hm).append hm'
    have hoverall (v : Atom → Bool) : (m'.truth v).overall =
        ((l.truth v).overall || ((f :: fs).map (alternatives v)).any (·.any id)) := by
      obtain ⟨b, bs, hb⟩ := (hplain f List.mem_cons_self).alternatives_eq_cons (v := v)
      rw [htruth', htruth, hjoin, List.map_cons, List.any_cons, hb, Truth.overall_absorb_cons]
      simp [Truth.bar, Bool.or_assoc]
    exact ⟨m', hreads, hcomplete', hoverall⟩

theorem reads_operands {k : Combinator} {f : Filter} {fs : List Filter}
    (hread : ∀ g ∈ f :: fs, g.ReadsAlternatives) (hplain : ∀ g ∈ f :: fs, g.Plain) :
    ∃ m, Reads (f.lexemes ++ following k fs) .empty m ∧ m.Complete ∧
      ∀ v, (m.truth v).overall = k.read (alternativesAll v (f :: fs)) := by
  obtain ⟨n, hn, hcomplete, hfirst⟩ := hread f List.mem_cons_self .empty
  have hrest := fun g hg => hread g (List.mem_cons_of_mem f hg)
  cases k with
  | and =>
    obtain ⟨m, hm, hm', htruth⟩ := reads_following_and hrest hcomplete
    have hoverall (v : Atom → Bool) :
        (m.truth v).overall = Combinator.and.read (alternativesAll v (f :: fs)) := by
      rw [htruth, hfirst, alternativesAll_eq_map, Combinator.read, List.map_cons, List.foldl_cons]
      rfl
    exact ⟨m, hn.append hm, hm', hoverall⟩
  | or =>
    obtain ⟨m, hm, hm', htruth⟩ :=
      reads_following_or hrest (fun g hg => hplain g (List.mem_cons_of_mem f hg)) hcomplete
    have hoverall (v : Atom → Bool) :
        (m.truth v).overall = Combinator.or.read (alternativesAll v (f :: fs)) := by
      obtain ⟨b, bs, hb⟩ := (hplain f List.mem_cons_self).alternatives_eq_cons (v := v)
      rw [htruth, hfirst, alternativesAll_eq_map, Combinator.read, List.map_cons, List.any_cons, hb,
        Truth.overall_absorb_cons]
      simp [Level.empty, Level.truth]
    exact ⟨m, hn.append hm, hm', hoverall⟩

theorem Plain.readsAlternatives {f : Filter} (hf : f.Plain) (hfilled : f.Filled) :
    f.ReadsAlternatives := by
  induction f with
  | leaf c => exact hf.leaf.reads_lexemes
  | group k fs ih =>
    cases hfilled with
    | @group k f fs hfilled =>
      obtain ⟨m, hm, hcomplete, htruth⟩ := reads_operands (k := k)
        (fun g hg => ih g hg (hf.of_mem hg) (hfilled g hg)) (fun g hg => hf.of_mem hg)
      obtain ⟨φ, hφ, hholds⟩ := hcomplete.formula?
      intro l
      have hreads : Reads (group k (f :: fs)).lexemes l (l.operand φ) := by
        rw [lexemes_group_cons, ← List.append_assoc]
        exact hm.parenthesized hφ l
      have habsorb (v : Atom → Bool) : (l.operand φ).truth v =
          (l.truth v).absorb ((group k (f :: fs)).alternatives v) := by
        rw [Level.truth_operand, hholds, htruth]
        rfl
      exact ⟨l.operand φ, hreads, l.complete_operand φ, habsorb⟩

/-- The query of a filter is well-formed, and says that one of its alternatives holds. -/
theorem Plain.formula_query {f : Filter} (hf : f.Plain) (hfilled : f.Filled) :
    ∃ s φ, f.query = .ok s ∧ Formula.ofQuery? s = some φ ∧
      ∀ v, φ.holds v = (f.alternatives v).any id := by
  obtain ⟨s, hs, hscan⟩ := hf.scans_query
  obtain ⟨m, hm, hcomplete, htruth⟩ := hf.readsAlternatives hfilled .empty
  obtain ⟨φ, hφ, hholds⟩ := hcomplete.formula?
  have hquery : Formula.ofQuery? s = some φ := (Formula.ofQuery?_of_reads hscan hm).trans hφ
  have hany (v : Atom → Bool) : φ.holds v = (f.alternatives v).any id := by
    obtain ⟨b, bs, hb⟩ := hf.alternatives_eq_cons (v := v)
    rw [hholds, htruth, hb, Truth.overall_absorb_cons]
    simp [Level.empty, Level.truth]
  exact ⟨s, φ, hs, hquery, hany⟩

end Filter
end Storehouse
