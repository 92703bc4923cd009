import Storehouse.Proofs.Query.Meaning
import Mathlib.Data.List.Nodup

namespace Storehouse

open Query (Atom Truth)

variable {v w : Atom → Bool}

namespace Filter

def atoms (f : Filter) : List Atom :=
  f.leaves.flatMap Condition.atoms

theorem atoms_leaf (c : Condition) : (leaf c).atoms = c.atoms :=
  List.flatMap_singleton Condition.atoms c

theorem atoms_group (k : Combinator) (fs : List Filter) :
    (group k fs).atoms = fs.flatMap atoms := by
  rw [atoms, leaves, leavesAll_eq_flatMap, List.flatMap_assoc]
  rfl

theorem alternatives_congr {f : Filter} (h : ∀ a ∈ f.atoms, v a = w a) :
    f.alternatives v = f.alternatives w := by
  induction f with
  | leaf c =>
    rw [atoms_leaf] at h
    have hmap : c.atoms.map v = c.atoms.map w := List.map_congr_left h
    have hany : c.atoms.any v = c.atoms.any w := by
      simpa [Function.comp_def] using congrArg (·.any id) hmap
    rw [alternatives, alternatives, hmap, Condition.holds, hany]
    rfl
  | group k fs ih =>
    rw [atoms_group] at h
    rw [alternatives, alternatives, alternativesAll_eq_map, alternativesAll_eq_map]
    congr 2
    exact List.map_congr_left fun f hf => ih f hf fun a ha =>
      h a (List.mem_flatMap.mpr ⟨f, hf, ha⟩)

theorem holds_congr {f : Filter} (h : ∀ a ∈ f.atoms, v a = w a) : f.holds v = f.holds w := by
  induction f with
  | leaf c =>
    rw [atoms_leaf] at h
    have hany := congrArg (·.any id) (List.map_congr_left h)
    rw [holds, holds, Condition.holds, Condition.holds]
    simpa [Function.comp_def] using hany
  | group k fs ih =>
    rw [atoms_group] at h
    rw [holds, holds, holdsAll_eq_map, holdsAll_eq_map]
    congr 1
    exact List.map_congr_left fun f hf => ih f hf fun a ha =>
      h a (List.mem_flatMap.mpr ⟨f, hf, ha⟩)

end Filter

theorem Query.exists_agree {as bs : List Atom} (h : as.Disjoint bs) (v w : Atom → Bool) :
    ∃ u : Atom → Bool, (∀ a ∈ as, u a = v a) ∧ ∀ b ∈ bs, u b = w b := by
  have hfirst : ∀ a ∈ as, (if a ∈ as then v a else w a) = v a := fun a ha => if_pos ha
  have hothers : ∀ b ∈ bs, (if b ∈ as then v b else w b) = w b := by
    intro b hb
    apply if_neg
    intro ha
    exact h ha hb
  exact ⟨fun a => if a ∈ as then v a else w a, hfirst, hothers⟩

namespace Query.Truth

variable {t : Truth} {b : Bool} {bs : List Bool} {bss : List (List Bool)}

theorem foldl_bar_false (h : ∀ x ∈ bs, x = false) (ht : t = ⟨false, false⟩) :
    bs.foldl (fun t b => t.bar.operand b) t = ⟨false, false⟩ := by
  induction bs with
  | nil => exact ht
  | cons x bs ih =>
    subst ht
    rw [List.foldl_cons, h x List.mem_cons_self]
    exact ih fun y hy => h y (List.mem_cons_of_mem x hy)

theorem current_foldl_bar (h : ∀ x ∈ bs, x = true) (ht : t.current = true) :
    (bs.foldl (fun t b => t.bar.operand b) t).current = true := by
  induction bs generalizing t with
  | nil => exact ht
  | cons x bs ih =>
    rw [List.foldl_cons, h x List.mem_cons_self]
    exact ih (fun y hy => h y (List.mem_cons_of_mem x hy)) rfl

theorem earlier_foldl_bar (ht : t.earlier = true) :
    (bs.foldl (fun t b => t.bar.operand b) t).earlier = true := by
  induction bs generalizing t with
  | nil => exact ht
  | cons x bs ih =>
    rw [List.foldl_cons]
    apply ih
    rw [operand, bar, overall, ht, Bool.true_or]

theorem absorb_false (ht : t.earlier = false) (hne : bs ≠ []) (h : ∀ x ∈ bs, x = false) :
    t.absorb bs = ⟨false, false⟩ := by
  cases bs with
  | nil => exact absurd rfl hne
  | cons x bs =>
    apply foldl_bar_false fun y hy => h y (List.mem_cons_of_mem x hy)
    rw [operand, ht, h x List.mem_cons_self, Bool.and_false]

theorem current_absorb (ht : t.current = true) (h : ∀ x ∈ bs, x = true) :
    (t.absorb bs).current = true := by
  cases bs with
  | nil => exact ht
  | cons x bs =>
    apply current_foldl_bar fun y hy => h y (List.mem_cons_of_mem x hy)
    rw [operand, ht, h x List.mem_cons_self, Bool.and_true]

theorem earlier_absorb (ht : t.earlier = true) : (t.absorb bs).earlier = true := by
  cases bs with
  | nil => exact ht
  | cons x bs => exact earlier_foldl_bar ht

theorem earlier_foldl_absorb (ht : t.earlier = true) :
    (bss.foldl absorb t).earlier = true := by
  induction bss generalizing t with
  | nil => exact ht
  | cons bs bss ih => exact ih (earlier_absorb ht)

theorem current_foldl_absorb (ht : t.current = true) (h : ∀ bs ∈ bss, ∀ x ∈ bs, x = true) :
    (bss.foldl absorb t).current = true := by
  induction bss generalizing t with
  | nil => exact ht
  | cons bs bss ih =>
    exact ih (current_absorb ht (h bs List.mem_cons_self))
      fun cs hcs => h cs (List.mem_cons_of_mem bs hcs)

theorem foldl_absorb_false (ht : t = ⟨false, false⟩)
    (h : ∀ bs ∈ bss, bs ≠ [] ∧ ∀ x ∈ bs, x = false) :
    bss.foldl absorb t = ⟨false, false⟩ := by
  induction bss with
  | nil => exact ht
  | cons bs bss ih =>
    obtain ⟨hne, hfalse⟩ := h bs List.mem_cons_self
    subst ht
    rw [List.foldl_cons, absorb_false rfl hne hfalse]
    exact ih fun cs hcs => h cs (List.mem_cons_of_mem bs hcs)

end Query.Truth

theorem Combinator.read_of_forall {k : Combinator} {b : Bool} {bss : List (List Bool)}
    (hne : bss ≠ []) (h : ∀ bs ∈ bss, bs ≠ [] ∧ ∀ x ∈ bs, x = b) : k.read bss = b := by
  obtain ⟨bs, bss, rfl⟩ := List.exists_cons_of_ne_nil hne
  obtain ⟨hbs, hall⟩ := h bs List.mem_cons_self
  have hrest := fun cs hcs => h cs (List.mem_cons_of_mem bs hcs)
  cases k with
  | and =>
    cases b with
    | false =>
      rw [read, List.foldl_cons, Truth.absorb_false rfl hbs hall,
        Truth.foldl_absorb_false rfl hrest]
      rfl
    | true =>
      have hcurrent := Truth.current_foldl_absorb (t := .empty) rfl fun cs hcs => (h cs hcs).2
      rw [read, Truth.overall, hcurrent, Bool.or_true]
  | or =>
    obtain ⟨x, xs, rfl⟩ := List.exists_cons_of_ne_nil hbs
    cases b with
    | false =>
      rw [read, List.any_eq_false]
      intro cs hcs
      have hany : cs.any id = false := List.any_eq_false.mpr fun y hy => by simp [(h cs hcs).2 y hy]
      rw [hany]
      exact Bool.false_ne_true
    | true =>
      rw [read, List.any_cons, List.any_cons, hall x List.mem_cons_self, id, Bool.true_or,
        Bool.true_or]

namespace Filter

def Uniform (b : Bool) (v : Atom → Bool) (f : Filter) : Prop :=
  ∀ x ∈ f.alternatives v, x = b

theorem Uniform.congr {b : Bool} {f : Filter} (h : f.Uniform b w) (hvw : ∀ a ∈ f.atoms, v a = w a) :
    f.Uniform b v := by
  rw [Uniform, alternatives_congr hvw]
  exact h

theorem exists_uniform_all {b : Bool} {fs : List Filter} (hnodup : (fs.flatMap atoms).Nodup)
    (h : ∀ f ∈ fs, ∃ v, f.Uniform b v) : ∃ v, ∀ f ∈ fs, f.Uniform b v := by
  induction fs with
  | nil => exact ⟨fun _ => b, fun f hf => by cases hf⟩
  | cons f fs ih =>
    rw [List.flatMap_cons] at hnodup
    obtain ⟨v, hv⟩ := h f List.mem_cons_self
    obtain ⟨w, hw⟩ := ih hnodup.of_append_right fun g hg => h g (List.mem_cons_of_mem f hg)
    obtain ⟨u, huv, huw⟩ := Query.exists_agree (List.disjoint_of_nodup_append hnodup) v w
    have hu : ∀ g ∈ f :: fs, g.Uniform b u := by
      intro g hg
      cases hg with
      | head => exact hv.congr huv
      | tail _ hg =>
        apply (hw g hg).congr
        intro a ha
        exact huw a (List.mem_flatMap.mpr ⟨g, hg, ha⟩)
    exact ⟨u, hu⟩

theorem exists_uniform_leaf (b : Bool) {c : Condition} (h : c.Plain) :
    ∃ v, (leaf c).Uniform b v := by
  obtain ⟨a, as, ha⟩ := Condition.atoms_eq_cons h.nonempty
  by_cases hop : c.operator = .isIn
  · have hall : (leaf c).Uniform b fun _ => b := by
      intro x hx
      rw [alternatives, if_pos hop] at hx
      obtain ⟨a, -, rfl⟩ := List.mem_map.mp hx
      rfl
    exact ⟨_, hall⟩
  · have hall : (leaf c).Uniform b fun _ => c.operator.negates ^^ b := by
      intro x hx
      rw [alternatives, if_neg hop, List.mem_singleton] at hx
      rw [hx, Condition.holds, ha]
      cases c.operator.negates <;> cases b <;> simp
    exact ⟨_, hall⟩

theorem Plain.exists_uniform {f : Filter} (b : Bool) (hf : f.Plain) (hfilled : f.Filled)
    (hnodup : f.atoms.Nodup) : ∃ v, f.Uniform b v := by
  induction f with
  | leaf c => exact exists_uniform_leaf b hf.leaf
  | group k fs ih =>
    cases hfilled with
    | @group k f fs hfilled =>
      rw [atoms_group] at hnodup
      obtain ⟨v, hv⟩ := exists_uniform_all hnodup fun g hg =>
        ih g hg (hf.of_mem hg) (hfilled g hg) ((List.nodup_flatMap.mp hnodup).1 g hg)
      have hread : k.read (alternativesAll v (f :: fs)) = b := by
        rw [alternativesAll_eq_map]
        apply Combinator.read_of_forall
        · exact List.cons_ne_nil _ _
        · intro bs hbs
          obtain ⟨g, hg, rfl⟩ := List.mem_map.mp hbs
          obtain ⟨b, bs, hb⟩ := (hf.of_mem hg).alternatives_eq_cons (v := v)
          exact ⟨hb ▸ List.cons_ne_nil b bs, hv g hg⟩
      exact ⟨v, fun x hx => (List.mem_singleton.mp hx).trans hread⟩

end Filter
end Storehouse
