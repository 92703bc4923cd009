import Storehouse.Proofs.Query.Normal

namespace Storehouse

open Query (Lexeme)

/-- Whether a lexeme can only stand behind an operand. -/
def Query.Lexeme.endsOperand : Lexeme → Bool
  | .closing | .keyword _ => true
  | _ => false

def Query.Ends (ls : List Lexeme) : Prop :=
  ∀ l ∈ ls.head?, l.endsOperand = true

theorem Query.Ends.nil : Ends [] := by
  intro l hl
  cases hl

theorem Query.Ends.cons {l : Lexeme} (h : l.endsOperand = true) (ls : List Lexeme) :
    Ends (l :: ls) := by
  intro l' hl
  cases hl
  exact h

theorem Query.append_inj_of_ends {xs ys r s : List Lexeme} (hx : ∀ l ∈ xs, l.endsOperand = false)
    (hy : ∀ l ∈ ys, l.endsOperand = false) (hr : Ends r) (hs : Ends s) (h : xs ++ r = ys ++ s) :
    xs = ys ∧ r = s := by
  induction xs generalizing ys with
  | nil =>
    cases ys with
    | nil => exact ⟨rfl, h⟩
    | cons y ys =>
      have hend := hr y (by rw [List.nil_append] at h; rw [h]; rfl)
      rw [hy y List.mem_cons_self] at hend
      cases hend
  | cons x xs ih =>
    cases ys with
    | nil =>
      have hend := hs x (by rw [List.nil_append] at h; rw [← h]; rfl)
      rw [hx x List.mem_cons_self] at hend
      cases hend
    | cons y ys =>
      obtain ⟨hxy, htail⟩ := List.cons.inj h
      obtain ⟨hxs, hrs⟩ := ih (fun l hl => hx l (List.mem_cons_of_mem x hl))
        (fun l hl => hy l (List.mem_cons_of_mem y hl)) htail
      exact ⟨by rw [hxy, hxs], hrs⟩

theorem Condition.endsOperand_of_mem_lexemes {c : Condition} {l : Lexeme} (h : l ∈ c.lexemes) :
    l.endsOperand = false := by
  cases hc : c.atoms with
  | nil =>
    rw [lexemes, hc] at h
    cases h
  | cons a as =>
    simp only [lexemes_eq_cons hc, List.mem_cons, List.mem_flatMap, List.mem_append,
      List.not_mem_nil, or_false] at h
    rcases h with rfl | ⟨b, -, hl | rfl⟩
    · rfl
    · rw [Operator.eq_bar_of_mem_joint hl]
      rfl
    · rfl

namespace Filter

theorem ends_following (k : Combinator) (fs : List Filter) (ls : List Lexeme) :
    Query.Ends (following k fs ++ .closing :: ls) := by
  cases fs with
  | nil => exact .cons rfl ls
  | cons f fs => exact .cons rfl _

theorem Plain.lexemes_eq_cons {f : Filter} (h : f.Plain) :
    ∃ l ls, f.lexemes = l :: ls ∧ l.endsOperand = false := by
  cases f with
  | leaf c =>
    obtain ⟨a, as, ha⟩ := Condition.atoms_eq_cons h.leaf.nonempty
    exact ⟨_, _, Condition.lexemes_eq_cons ha, rfl⟩
  | group k fs => exact ⟨_, _, rfl, rfl⟩

/-- Reading on from a filter, its lexemes tell its normal form and where they stop. -/
def Readable (f : Filter) : Prop :=
  ∀ {g : Filter} {r s : List Lexeme}, g.Plain → Query.Ends r → Query.Ends s →
    f.lexemes ++ r = g.lexemes ++ s → f.normal = g.normal ∧ r = s

theorem following_append_inj {k l : Combinator} {fs gs : List Filter} {r s : List Lexeme}
    (hf : ∀ f ∈ fs, f.Readable) (hg : ∀ g ∈ gs, g.Plain)
    (h : following k fs ++ .closing :: r = following l gs ++ .closing :: s) :
    fs.map normal = gs.map normal ∧ (fs = [] ∨ k = l) ∧ r = s := by
  induction fs generalizing gs with
  | nil =>
    cases gs with
    | nil => exact ⟨rfl, .inl rfl, (List.cons.inj h).2⟩
    | cons g gs => cases h
  | cons f fs ih =>
    cases gs with
    | nil => cases h
    | cons g gs =>
      simp only [following, List.flatMap_cons, List.cons_append, List.append_assoc,
        List.cons.injEq, Lexeme.keyword.injEq] at h
      obtain ⟨hkl, h⟩ := h
      obtain ⟨hfg, h⟩ := hf f List.mem_cons_self (hg g List.mem_cons_self)
        (ends_following k fs r) (ends_following l gs s) h
      obtain ⟨hfs, -, hrs⟩ := ih (fun f hf' => hf f (List.mem_cons_of_mem _ hf'))
        (fun g hg' => hg g (List.mem_cons_of_mem _ hg')) h
      exact ⟨by rw [List.map_cons, List.map_cons, hfg, hfs], .inr hkl, hrs⟩

theorem group_append_inj {k l : Combinator} {fs gs : List Filter} {r s : List Lexeme}
    (hread : ∀ f ∈ fs, f.Readable) (hf : ∀ f ∈ fs, f.Plain) (hg : ∀ g ∈ gs, g.Plain)
    (h : (group k fs).lexemes ++ r = (group l gs).lexemes ++ s) :
    fs.map normal = gs.map normal ∧ (fs.length < 2 ∨ k = l) ∧ r = s := by
  cases fs with
  | nil =>
    cases gs with
    | nil => exact ⟨rfl, .inl (by decide), (List.cons.inj (List.cons.inj h).2).2⟩
    | cons g gs =>
      obtain ⟨l, ls, hls, hend⟩ := (hg g List.mem_cons_self).lexemes_eq_cons
      rw [lexemes_group_cons, hls] at h
      cases h
      cases hend
  | cons f fs =>
    cases gs with
    | nil =>
      obtain ⟨l, ls, hls, hend⟩ := (hf f List.mem_cons_self).lexemes_eq_cons
      rw [lexemes_group_cons, hls] at h
      cases h
      cases hend
    | cons g gs =>
      simp only [lexemes_group_cons, List.cons_append, List.append_assoc, List.cons.injEq,
        true_and] at h
      obtain ⟨hfg, h⟩ := hread f List.mem_cons_self (hg g List.mem_cons_self)
        (ends_following k fs r) (ends_following l gs s) h
      obtain ⟨hfs, hkl, hrs⟩ := following_append_inj
        (fun f hf' => hread f (List.mem_cons_of_mem _ hf'))
        (fun g hg' => hg g (List.mem_cons_of_mem _ hg')) h
      have hmap : (f :: fs).map normal = (g :: gs).map normal := by
        rw [List.map_cons, List.map_cons, hfg, hfs]
      have hshort : fs = [] → (f :: fs).length < 2 := by
        rintro rfl
        exact Nat.lt_succ_self 1
      exact ⟨hmap, hkl.imp_left hshort, hrs⟩

theorem Plain.readable {f : Filter} (hf : f.Plain) : f.Readable := by
  induction f with
  | leaf c =>
    intro g r s hg hr hs h
    cases g with
    | leaf d =>
      obtain ⟨hcd, hrs⟩ := Query.append_inj_of_ends (fun _ => c.endsOperand_of_mem_lexemes)
        (fun _ => d.endsOperand_of_mem_lexemes) hr hs h
      have hnormal := Condition.normal_eq_of_lexemes hf.leaf.wellShaped hg.leaf.wellShaped
        hf.leaf.nonempty hcd
      exact ⟨by rw [normal, normal, hnormal], hrs⟩
    | group l gs =>
      obtain ⟨a, as, ha⟩ := Condition.atoms_eq_cons hf.leaf.nonempty
      rw [lexemes, Condition.lexemes_eq_cons ha] at h
      cases h
  | group k fs ih =>
    intro g r s hg hr hs h
    cases g with
    | leaf d =>
      obtain ⟨a, as, ha⟩ := Condition.atoms_eq_cons hg.leaf.nonempty
      rw [lexemes, lexemes, Condition.lexemes_eq_cons ha] at h
      cases h
    | group l gs =>
      obtain ⟨hfs, hkl, hrs⟩ := group_append_inj (fun f hf' => ih f hf' (hf.of_mem hf'))
        (fun f => hf.of_mem) (fun g => hg.of_mem) h
      have hlength : fs.length = gs.length := by
        simpa using congrArg List.length hfs
      have hnormal : (group k fs).normal = (group l gs).normal := by
        rw [normal, normal, normalAll_eq_map, normalAll_eq_map, hfs, ← hlength]
        rcases hkl with hlt | rfl
        · rw [if_pos hlt, if_pos hlt]
        · rfl
      exact ⟨hnormal, hrs⟩

theorem Plain.query_ne_matchAll {f : Filter} (h : f.Plain) : f.query ≠ .ok matchAll := by
  obtain ⟨s, hs, hscan⟩ := h.scans_query
  intro hall
  rw [hs] at hall
  cases hall
  cases hscan []

/-- Filters on plain texts have the same query exactly if they have the same normal form, and none
of them has the query of no filter at all. -/
theorem query_eq_iff_normal_eq {f g : Filter} (hf : f.Plain) (hg : g.Plain) :
    (f.query = g.query ↔ f.normal = g.normal) ∧ (∃ s, f.query = .ok s ∧ s ≠ matchAll) := by
  obtain ⟨s, hs, hscan⟩ := hf.scans_query
  obtain ⟨t, ht, hscan'⟩ := hg.scans_query
  have hnormal : f.query = g.query → f.normal = g.normal := by
    intro h
    rw [hs, ht] at h
    cases h
    have hlexemes : f.lexemes ++ [] = g.lexemes ++ [] := by rw [hscan.unique hscan']
    exact (hf.readable hg .nil .nil hlexemes).1
  have hquery : f.normal = g.normal → f.query = g.query := by
    intro h
    rw [← f.query_normal, h, g.query_normal]
  have hne : s ≠ matchAll := by
    rintro rfl
    exact hf.query_ne_matchAll hs
  exact ⟨⟨hnormal, hquery⟩, s, hs, hne⟩

/-- A group of one value and a group of a list of one have the same query, whatever joins them. -/
theorem query_any_eq_query_all :
    (any [.leaf (.eq "a" (.int 1))]).Plain ∧ (all [.leaf (.isIn "a" [.text "1"])]).Plain ∧
      (any [.leaf (.eq "a" (.int 1))]).query = (all [.leaf (.isIn "a" [.text "1"])]).query := by
  have hf : (any [.leaf (.eq "a" (.int 1))]).Plain := by
    intro c hc
    cases List.mem_singleton.mp hc
    exact ⟨rfl, by decide, by decide, by decide⟩
  have hg : (all [.leaf (.isIn "a" [.text "1"])]).Plain := by
    intro c hc
    cases List.mem_singleton.mp hc
    exact ⟨rfl, by decide, by decide, by decide⟩
  exact ⟨hf, hg, (query_eq_iff_normal_eq hf hg).1.mpr rfl⟩

end Filter
end Storehouse
