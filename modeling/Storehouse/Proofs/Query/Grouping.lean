import Storehouse.Proofs.Query.Independent

namespace Storehouse

open Query (Atom Formula Truth)

variable {v : Atom → Bool}

namespace Query.Truth

variable {t : Truth} {bss : List (List Bool)}

theorem overall_foldl_absorb (ht : t.overall = true) (h : ∀ bs ∈ bss, bs.any id = true) :
    (bss.foldl absorb t).overall = true := by
  induction bss generalizing t with
  | nil => exact ht
  | cons bs bss ih =>
    have hany := h bs List.mem_cons_self
    have hfirst : (t.absorb bs).overall = true := by
      cases bs with
      | nil => cases hany
      | cons b bs =>
        rw [overall, Bool.or_eq_true] at ht
        rw [List.any_cons, id, Bool.or_eq_true] at hany
        rw [overall_absorb_cons]
        rcases ht with ht | ht <;> rcases hany with hb | hbs <;> simp [*]
    exact ih hfirst fun cs hcs => h cs (List.mem_cons_of_mem bs hcs)

theorem foldl_absorb_singletons (t : Truth) (bs : List Bool) :
    (bs.map fun b => [b]).foldl absorb t = t.operand (bs.all id) := by
  induction bs generalizing t with
  | nil => simp [operand]
  | cons b bs ih =>
    rw [List.map_cons, List.foldl_cons, ih]
    simp [absorb, operand, Bool.and_assoc]

/-- The bar before the second alternative keeps what was true up to it, and the last alternative
is true by itself. -/
theorem absorb_true {b c : Bool} {bs : List Bool} (h : ∀ x ∈ b :: c :: bs, x = true) :
    (t.absorb (b :: c :: bs)).current = true ∧
      (t.current = true → (t.absorb (b :: c :: bs)).earlier = true) := by
  have hb : b = true := h b List.mem_cons_self
  have hc : c = true := h c (List.mem_cons_of_mem b List.mem_cons_self)
  have hbs := fun x hx => h x (List.mem_cons_of_mem b (List.mem_cons_of_mem c hx))
  subst hb hc
  constructor
  · exact current_foldl_bar (t := (t.operand true).bar.operand true) hbs rfl
  · intro ht
    apply earlier_foldl_bar (t := (t.operand true).bar.operand true)
    simp [operand, bar, overall, ht]

end Query.Truth

namespace Filter

theorem any_alternatives_leaf (c : Condition) :
    ((leaf c).alternatives v).any id = (leaf c).holds v := by
  rw [alternatives, holds]
  split
  · next hop =>
    have hneg : c.operator.negates = false := by
      rw [hop]
      rfl
    rw [Condition.holds, hneg, Bool.false_xor, List.any_map]
    rfl
  · simp

theorem any_alternatives_of_holds {f : Filter} (h : f.holds v = true) :
    (f.alternatives v).any id = true := by
  induction f with
  | leaf c => rw [any_alternatives_leaf, h]
  | group k fs ih =>
    rw [holds, holdsAll_eq_map] at h
    rw [alternatives, alternativesAll_eq_map, List.any_cons, List.any_nil, Bool.or_false, id]
    cases k with
    | and =>
      rw [Combinator.join, List.all_eq_true] at h
      apply Truth.overall_foldl_absorb rfl
      intro bs hbs
      obtain ⟨f, hf, rfl⟩ := List.mem_map.mp hbs
      exact ih f hf (h _ (List.mem_map_of_mem hf))
    | or =>
      rw [Combinator.join, List.any_eq_true] at h
      obtain ⟨b, hb, htrue⟩ := h
      obtain ⟨f, hf, rfl⟩ := List.mem_map.mp hb
      exact List.any_eq_true.mpr ⟨_, List.mem_map_of_mem hf, ih f hf htrue⟩

/-- A membership test of several values, which brings bars into the group around it. -/
def Splits : Filter → Prop
  | .leaf c => c.operator = .isIn ∧ 2 ≤ c.operand.scalars.length
  | .group _ _ => False

/-- No operand of an "and" group splits, unless it is the only one. -/
inductive KeepsGrouping : Filter → Prop
  | leaf (c : Condition) : KeepsGrouping (.leaf c)
  | group {k : Combinator} {fs : List Filter}
    (hsplits : k = .and → 2 ≤ fs.length → ∀ f ∈ fs, ¬ f.Splits)
    (h : ∀ f ∈ fs, KeepsGrouping f) : KeepsGrouping (.group k fs)

theorem Plain.alternatives_eq_singleton {f : Filter} (hf : f.Plain) (h : ¬ f.Splits) :
    f.alternatives v = [(f.alternatives v).any id] := by
  cases f with
  | leaf c =>
    rw [alternatives]
    split
    · next hop =>
      obtain ⟨x, xs, hxs⟩ := List.exists_cons_of_ne_nil hf.leaf.nonempty
      cases xs with
      | nil => simp [Condition.atoms, hxs]
      | cons y ys => exact absurd ⟨hop, by rw [hxs]; simp⟩ h
    · simp
  | group k fs => simp [alternatives]

theorem KeepsGrouping.any_alternatives {f : Filter} (hk : f.KeepsGrouping) (hf : f.Plain) :
    (f.alternatives v).any id = f.holds v := by
  induction hk with
  | leaf c => exact any_alternatives_leaf c
  | @group k fs hsplits hfs ih =>
    have hmap : fs.map (fun f => (f.alternatives v).any id) = fs.map (holds v) :=
      List.map_congr_left fun f hmem => ih f hmem (hf.of_mem hmem)
    rw [alternatives, holds, alternativesAll_eq_map, holdsAll_eq_map, ← hmap, List.any_cons,
      List.any_nil, Bool.or_false, id]
    cases k with
    | and =>
      rw [Combinator.read, Combinator.join]
      by_cases hlength : 2 ≤ fs.length
      · have hsingle : fs.map (alternatives v) =
            (fs.map fun f => (f.alternatives v).any id).map fun b => [b] := by
          rw [List.map_map]
          exact List.map_congr_left fun f hmem =>
            (hf.of_mem hmem).alternatives_eq_singleton (hsplits rfl hlength f hmem)
        rw [hsingle, Truth.foldl_absorb_singletons, Truth.overall, Truth.operand, Truth.empty,
          Bool.false_or, Bool.true_and]
      · cases fs with
        | nil => rfl
        | cons f fs =>
          obtain ⟨b, bs, hb⟩ := (hf.of_mem List.mem_cons_self).alternatives_eq_cons (v := v)
          cases fs with
          | nil => simp [hb, Truth.overall_absorb_cons, Truth.empty]
          | cons g fs => exact absurd (by simp) hlength
    | or => rw [Combinator.read, Combinator.join, List.any_map, List.any_map]; rfl

theorem Uniform.any {f : Filter} {b : Bool} (hf : f.Plain) (h : f.Uniform b v) :
    (f.alternatives v).any id = b := by
  obtain ⟨x, xs, hx⟩ := hf.alternatives_eq_cons (v := v)
  rw [Uniform, hx] at h
  rw [hx]
  cases b with
  | false => exact List.any_eq_false.mpr fun y hy => by simp [h y hy]
  | true => rw [List.any_cons, h x List.mem_cons_self, id, Bool.true_or]

theorem Uniform.holds {f : Filter} (hf : f.Plain) (h : f.Uniform false v) :
    f.holds v = false := by
  rw [Bool.eq_false_iff]
  intro htrue
  have hany := any_alternatives_of_holds htrue
  rw [h.any hf] at hany
  cases hany

theorem Splits.alternatives_eq_cons {f : Filter} (h : f.Splits) (v : Atom → Bool) :
    ∃ b c bs, f.alternatives v = b :: c :: bs := by
  cases f with
  | leaf c =>
    obtain ⟨hop, hlength⟩ := h
    rw [alternatives, if_pos hop, Condition.atoms]
    generalize c.operand.scalars = xs at hlength
    cases xs with
    | nil => cases hlength
    | cons x xs =>
      cases xs with
      | nil => cases Nat.le_of_succ_le_succ hlength
      | cons y xs => exact ⟨_, _, _, rfl⟩
  | group k fs => cases h

theorem exists_uniform_append {as bs : List Filter} (b c : Bool)
    (hnodup : ((as ++ bs).flatMap atoms).Nodup)
    (h : ∀ f ∈ as ++ bs, ∀ b, ∃ v, f.Uniform b v) :
    ∃ v, (∀ f ∈ as, f.Uniform b v) ∧ ∀ f ∈ bs, f.Uniform c v := by
  rw [List.flatMap_append] at hnodup
  obtain ⟨v, hv⟩ := exists_uniform_all hnodup.of_append_left fun f hf =>
    h f (List.mem_append_left bs hf) b
  obtain ⟨w, hw⟩ := exists_uniform_all hnodup.of_append_right fun f hf =>
    h f (List.mem_append_right as hf) c
  obtain ⟨u, huv, huw⟩ := Query.exists_agree (List.disjoint_of_nodup_append hnodup) v w
  have has : ∀ f ∈ as, f.Uniform b u := by
    intro f hf
    apply (hv f hf).congr
    intro a ha
    exact huv a (List.mem_flatMap.mpr ⟨f, hf, ha⟩)
  have hbs : ∀ f ∈ bs, f.Uniform c u := by
    intro f hf
    apply (hw f hf).congr
    intro a ha
    exact huw a (List.mem_flatMap.mpr ⟨f, hf, ha⟩)
  exact ⟨u, has, hbs⟩

theorem exists_override {fs : List Filter} {g : Filter} (hnodup : (fs.flatMap atoms).Nodup)
    (hg : g ∈ fs) (v w : Atom → Bool) :
    ∃ u : Atom → Bool, (∀ a ∈ g.atoms, u a = v a) ∧
      ∀ f ∈ fs, f = g ∨ ∀ a ∈ f.atoms, u a = w a := by
  obtain ⟨as, bs, rfl⟩ := List.append_of_mem hg
  have hperm : (as ++ g :: bs).Perm (g :: (as ++ bs)) := List.perm_middle
  rw [(hperm.flatMap_right atoms).nodup_iff, List.flatMap_cons] at hnodup
  obtain ⟨u, huv, huw⟩ := Query.exists_agree (List.disjoint_of_nodup_append hnodup) v w
  have hothers : ∀ f ∈ as ++ g :: bs, f = g ∨ ∀ a ∈ f.atoms, u a = w a := by
    intro f hf
    rcases List.mem_cons.mp (hperm.mem_iff.mp hf) with rfl | hf
    · exact .inl rfl
    · exact .inr fun a ha => huw a (List.mem_flatMap.mpr ⟨f, hf, ha⟩)
  exact ⟨u, huv, hothers⟩

theorem join_and_of_mem {fs : List Filter} {f : Filter} (hf : f ∈ fs) (h : f.holds v = false) :
    Combinator.and.join (holdsAll v fs) = false := by
  rw [holdsAll_eq_map, Combinator.join, List.all_eq_false]
  exact ⟨_, List.mem_map_of_mem hf, by simp [h]⟩

/-- Beside another operand of an "and" group, a membership test of several values makes the query
true for a document that fails the other operand. -/
theorem exists_read_ne_of_splits {fs : List Filter} {g : Filter} (hplain : ∀ f ∈ fs, f.Plain)
    (huniform : ∀ f ∈ fs, ∀ b, ∃ v, f.Uniform b v) (hnodup : (fs.flatMap atoms).Nodup)
    (hlength : 2 ≤ fs.length) (hg : g ∈ fs) (hsplits : g.Splits) :
    ∃ v, Combinator.and.read (alternativesAll v fs) = true ∧
      Combinator.and.join (holdsAll v fs) = false := by
  obtain ⟨as, bs, rfl⟩ := List.append_of_mem hg
  cases bs with
  | nil =>
    obtain ⟨v, has, hlast⟩ := exists_uniform_append false true hnodup huniform
    obtain ⟨b, c, ds, hd⟩ := hsplits.alternatives_eq_cons v
    have htrue := hlast g List.mem_cons_self
    rw [Uniform, hd] at htrue
    cases as with
    | nil => cases Nat.le_of_succ_le_succ hlength
    | cons f as =>
      have hf : f ∈ f :: as ++ [g] := List.mem_cons_self
      have hfalse : f.holds v = false := (has f List.mem_cons_self).holds (hplain f hf)
      have hread : Combinator.and.read (alternativesAll v (f :: as ++ [g])) = true := by
        rw [Combinator.read, alternativesAll_eq_map, List.map_append, List.foldl_append,
          List.map_singleton, List.foldl_cons, List.foldl_nil, hd, Truth.overall,
          (Truth.absorb_true htrue).1, Bool.or_true]
      exact ⟨v, hread, join_and_of_mem hf hfalse⟩
  | cons f bs =>
    have hf : f ∈ as ++ g :: f :: bs := by simp
    have hfplain := hplain f hf
    rw [List.append_cons] at hnodup huniform
    obtain ⟨v, hfirst, hbs⟩ := exists_uniform_append true false hnodup huniform
    obtain ⟨b, c, ds, hd⟩ := hsplits.alternatives_eq_cons v
    have htrue := hfirst g (List.mem_append_right as (List.mem_singleton.mpr rfl))
    rw [Uniform, hd] at htrue
    have hcurrent : ((as.map (alternatives v)).foldl Truth.absorb .empty).current = true := by
      apply Truth.current_foldl_absorb rfl
      intro cs hcs
      obtain ⟨h, hmem, rfl⟩ := List.mem_map.mp hcs
      exact hfirst h (List.mem_append_left [g] hmem)
    have hfalse : f.holds v = false := (hbs f List.mem_cons_self).holds hfplain
    have hread : Combinator.and.read (alternativesAll v (as ++ g :: f :: bs)) = true := by
      rw [Combinator.read, alternativesAll_eq_map, List.map_append, List.foldl_append,
        List.map_cons, List.foldl_cons, hd, Truth.overall,
        Truth.earlier_foldl_absorb ((Truth.absorb_true htrue).2 hcurrent), Bool.true_or]
    exact ⟨v, hread, join_and_of_mem hf hfalse⟩

/-- The other operands of a group can be chosen so that it depends on the given one. -/
theorem exists_read_ne_of_mem (k : Combinator) {fs : List Filter} {g : Filter}
    (hplain : ∀ f ∈ fs, f.Plain) (huniform : ∀ f ∈ fs, ∀ b, ∃ v, f.Uniform b v)
    (hnodup : (fs.flatMap atoms).Nodup) (hg : g ∈ fs)
    (h : ∃ v, (g.alternatives v).any id = true ∧ g.holds v = false) :
    ∃ v, k.read (alternativesAll v fs) = true ∧ k.join (holdsAll v fs) = false := by
  obtain ⟨v, hany, hfalse⟩ := h
  obtain ⟨w, hw⟩ := exists_uniform_all hnodup fun f hf => huniform f hf (k = .and)
  obtain ⟨u, huv, hrest⟩ := exists_override hnodup hg v w
  rw [← alternatives_congr huv] at hany
  rw [← holds_congr huv] at hfalse
  cases k with
  | and =>
    have hread : Combinator.and.read (alternativesAll u fs) = true := by
      rw [alternativesAll_eq_map]
      apply Truth.overall_foldl_absorb rfl
      intro bs hbs
      obtain ⟨f, hf, rfl⟩ := List.mem_map.mp hbs
      rcases hrest f hf with rfl | huw
      · exact hany
      · exact ((hw f hf).congr huw).any (hplain f hf)
    exact ⟨u, hread, join_and_of_mem hg hfalse⟩
  | or =>
    have hread : Combinator.or.read (alternativesAll u fs) = true := by
      rw [alternativesAll_eq_map, Combinator.read, List.any_eq_true]
      exact ⟨_, List.mem_map_of_mem hg, hany⟩
    have hjoin : Combinator.or.join (holdsAll u fs) = false := by
      rw [holdsAll_eq_map, Combinator.join, List.any_eq_false]
      intro b hb
      obtain ⟨f, hf, rfl⟩ := List.mem_map.mp hb
      rw [id, Bool.not_eq_true]
      rcases hrest f hf with rfl | huw
      · exact hfalse
      · exact ((hw f hf).congr huw).holds (hplain f hf)
    exact ⟨u, hread, hjoin⟩

theorem exists_any_alternatives_ne {f : Filter} (hf : f.Plain) (hfilled : f.Filled)
    (hnodup : f.atoms.Nodup) (hk : ¬ f.KeepsGrouping) :
    ∃ v, (f.alternatives v).any id = true ∧ f.holds v = false := by
  induction f with
  | leaf c => exact absurd (.leaf c) hk
  | group k fs ih =>
    cases hfilled with
    | @group k f fs hfilled =>
      rw [atoms_group] at hnodup
      have hnodupOf := (List.nodup_flatMap.mp hnodup).1
      have hplain : ∀ g ∈ f :: fs, g.Plain := fun g hg => hf.of_mem hg
      have huniform : ∀ g ∈ f :: fs, ∀ b, ∃ v, g.Uniform b v := fun g hg b =>
        (hplain g hg).exists_uniform b (hfilled g hg) (hnodupOf g hg)
      have hgroup : ∃ v, k.read (alternativesAll v (f :: fs)) = true ∧
          k.join (holdsAll v (f :: fs)) = false := by
        by_cases hall : ∃ g ∈ f :: fs, ¬ g.KeepsGrouping
        · obtain ⟨g, hg, hgk⟩ := hall
          exact exists_read_ne_of_mem k hplain huniform hnodup hg
            (ih g hg (hplain g hg) (hfilled g hg) (hnodupOf g hg) hgk)
        · by_contra hnone
          apply hk
          apply KeepsGrouping.group
          · rintro rfl hlength g hg hs
            exact hnone (exists_read_ne_of_splits hplain huniform hnodup hlength hg hs)
          · intro g hg
            by_contra hgk
            exact hall ⟨g, hg, hgk⟩
      obtain ⟨v, hread, hjoin⟩ := hgroup
      exact ⟨v, by rw [alternatives, hread]; rfl, hjoin⟩

/-- The query is true for every document that the filter describes. It is true for no others if no
membership test splits an "and" group; and only then, if no clause stands twice in the filter. -/
theorem query_keeps_meaning {f : Filter} (hf : f.Plain) (hfilled : f.Filled) :
    ∃ s φ, f.query = .ok s ∧ Formula.ofQuery? s = some φ ∧
      (∀ v, f.holds v = true → φ.holds v = true) ∧
      (f.KeepsGrouping → ∀ v, φ.holds v = f.holds v) ∧
      (f.atoms.Nodup → (∀ v, φ.holds v = f.holds v) → f.KeepsGrouping) := by
  obtain ⟨s, φ, hs, hφ, hmeans⟩ := hf.formula_query hfilled
  have hfinds : ∀ v, f.holds v = true → φ.holds v = true := by
    intro v hv
    rw [hmeans]
    exact any_alternatives_of_holds hv
  have hkeeps : f.KeepsGrouping → ∀ v, φ.holds v = f.holds v := by
    intro hk v
    rw [hmeans]
    exact hk.any_alternatives hf
  have hexact : f.atoms.Nodup → (∀ v, φ.holds v = f.holds v) → f.KeepsGrouping := by
    intro hnodup hsame
    by_contra hk
    obtain ⟨v, hany, hfalse⟩ := exists_any_alternatives_ne hf hfilled hnodup hk
    rw [← hmeans, hsame, hfalse] at hany
    cases hany
  exact ⟨s, φ, hs, hφ, hfinds, hkeeps, hexact⟩

/-- Under "or" the bars do no harm. -/
theorem query_any_keeps_meaning :
    ∃ f : Filter, f = any [.leaf (.isIn "role" [.text "admin", .text "owner"]),
        .leaf (.notIn "status" [.text "idle", .text "banned"])] ∧
      f.Plain ∧ f.Filled ∧ ∃ s φ, f.query = .ok s ∧ Formula.ofQuery? s = some φ ∧
        ∀ v, φ.holds v = f.holds v := by
  obtain ⟨f, hf⟩ : ∃ f, f = any [.leaf (.isIn "role" [.text "admin", .text "owner"]),
    .leaf (.notIn "status" [.text "idle", .text "banned"])] := ⟨_, rfl⟩
  have hplain : f.Plain := by
    subst hf
    intro c hc
    rcases List.mem_pair.mp hc with rfl | rfl
    · exact ⟨rfl, by decide, by decide, by decide⟩
    · exact ⟨rfl, by decide, by decide, by decide⟩
  have hfilled : f.Filled := by
    subst hf
    refine .group fun g hg => ?_
    rcases List.mem_pair.mp hg with rfl | rfl <;> exact .leaf _
  have hk : f.KeepsGrouping := by
    subst hf
    refine .group (fun h => by cases h) fun g hg => ?_
    rcases List.mem_pair.mp hg with rfl | rfl <;> exact .leaf _
  obtain ⟨s, φ, hs, hφ, -, hmeans, -⟩ := query_keeps_meaning hplain hfilled
  exact ⟨f, hf, hplain, hfilled, s, φ, hs, hφ, hmeans hk⟩

/-- Asked for active users in one of two roles, the engine also finds those of the second role who
are not active. -/
theorem query_all_loses_meaning :
    ∃ f : Filter, f = all [.leaf (.eq "status" (.text "active")),
        .leaf (.isIn "role" [.text "admin", .text "owner"])] ∧ f.Plain ∧ f.Filled ∧
      ∃ s φ v, s = "(@status:\x7bactive\x7d AND @role:\x7badmin\x7d | @role:\x7bowner\x7d)" ∧
        f.query = .ok s ∧ Formula.ofQuery? s = some φ ∧ φ.holds v = true ∧ f.holds v = false := by
  obtain ⟨f, hf⟩ : ∃ f, f = all [.leaf (.eq "status" (.text "active")),
    .leaf (.isIn "role" [.text "admin", .text "owner"])] := ⟨_, rfl⟩
  have hplain : f.Plain := by
    subst hf
    intro c hc
    rcases List.mem_pair.mp hc with rfl | rfl
    · exact ⟨rfl, by decide, by decide, by decide⟩
    · exact ⟨rfl, by decide, by decide, by decide⟩
  have hfilled : f.Filled := by
    subst hf
    refine .group fun g hg => ?_
    rcases List.mem_pair.mp hg with rfl | rfl <;> exact .leaf _
  obtain ⟨s, φ, hs, hφ, hmeans⟩ := hplain.formula_query hfilled
  have htext :
      s = "(@status:\x7bactive\x7d AND @role:\x7badmin\x7d | @role:\x7bowner\x7d)" := by
    subst hf
    simp [all, query, queries, Condition.query, Condition.eq, Condition.isIn, Condition.tag,
      Scalar.render, Combinator.keyword, bind, Except.bind, pure, Except.pure] at hs
    exact hs.symm
  have hdiffers : φ.holds (fun a => a = ⟨"role", .equal, "owner"⟩) = true ∧
      f.holds (fun a => a = ⟨"role", .equal, "owner"⟩) = false := by
    rw [hmeans]
    subst hf
    decide
  exact ⟨f, hf, hplain, hfilled, s, φ, _, htext, hs, hφ, hdiffers⟩

end Filter
end Storehouse
