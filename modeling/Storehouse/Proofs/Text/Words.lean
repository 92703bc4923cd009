import Mathlib.Data.List.Forall2
import Mathlib.Data.List.TakeWhile
import Storehouse.Basic

namespace Storehouse.Text

theorem toLower_eq_iff {c d : Char} (hd : d.isUpper = false) :
    c.toLower = d ↔ c = d ∨ c = d.toUpper := by
  delta Char.isUpper at hd
  delta Char.toLower Char.toUpper
  simp only [ge_iff_le, UInt32.le_iff_toNat_le, decide_eq_false_iff_not] at hd
  simp only [Char.ext_iff, apply_dite Char.val, ge_iff_le, UInt32.le_iff_toNat_le,
    ← UInt32.toNat_inj]
  split
  · split
    · simp_all [UInt32.toNat_add]
      omega
    · simp_all [UInt32.toNat_add]
      omega
  · split
    · simp_all [UInt32.toNat_add]
      omega
    · simp_all

/-- The letters of a word, each small or capital. -/
def AnyCase (word : String) (cs : List Char) : Prop :=
  List.Forall₂ (fun c d => c = d ∨ c = d.toUpper) cs word.toList

theorem lower_eq_iff {s word : String} (h : ∀ d ∈ word.toList, d.isUpper = false) :
    lower s = word ↔ AnyCase word s.toList := by
  rw [lower, AnyCase, ← String.toList_inj, String.toList_ofList]
  generalize word.toList = ds at h
  generalize s.toList = cs
  induction cs generalizing ds with
  | nil => cases ds <;> simp
  | cons c cs ih =>
    cases ds with
    | nil => simp
    | cons d ds =>
      rw [List.map_cons, List.cons.injEq, List.forall₂_cons]
      exact and_congr (toLower_eq_iff (h d List.mem_cons_self))
        (ih ds fun x hx => h x (List.mem_cons_of_mem d hx))

theorem AnyCase.forall {word : String} {cs : List Char} {p : Char → Prop} (h : AnyCase word cs)
    (hword : ∀ d ∈ word.toList, p d ∧ p d.toUpper) : ∀ c ∈ cs, p c := by
  rw [AnyCase] at h
  generalize word.toList = ds at h hword
  induction h with
  | nil => exact List.forall_mem_nil p
  | @cons c d cs ds hc hcs ih =>
    obtain ⟨⟨hsmall, hcapital⟩, hrest⟩ := List.forall_mem_cons.mp hword
    have hfirst : p c := by
      rcases hc with rfl | rfl
      · exact hsmall
      · exact hcapital
    exact List.forall_mem_cons.mpr ⟨hfirst, ih hrest⟩

def Padded (form : List Char → Prop) (s : String) : Prop :=
  ∃ before word after, s.toList = before ++ word ++ after ∧ (∀ c ∈ before, isBlank c = true) ∧
    (∀ c ∈ after, isBlank c = true) ∧ form word

theorem dropWhile_append_blanks {cs after : List Char} (h : ∀ c ∈ after, isBlank c = true) :
    (cs ++ after).dropWhile isBlank =
      if cs.dropWhile isBlank = [] then [] else cs.dropWhile isBlank ++ after := by
  rw [List.dropWhile_append]
  by_cases hcs : cs.dropWhile isBlank = []
  · rw [if_pos hcs, hcs]
    exact List.dropWhile_eq_nil_iff.mpr h
  · rw [if_neg hcs, if_neg (by simpa using hcs)]

theorem trimChars_append {before cs after : List Char} (hbefore : ∀ c ∈ before, isBlank c = true)
    (hafter : ∀ c ∈ after, isBlank c = true) :
    trimChars (before ++ cs ++ after) = trimChars cs := by
  have hreverse : ∀ c ∈ after.reverse, isBlank c = true := by
    intro c hc
    exact hafter c (List.mem_reverse.mp hc)
  rw [trimChars, List.append_assoc, List.dropWhile_append_of_pos hbefore,
    dropWhile_append_blanks hafter, trimChars]
  split
  · next hcs => rw [hcs]
  · rw [List.reverse_append, List.dropWhile_append_of_pos hreverse]

theorem exists_padding (cs : List Char) : ∃ before after, cs = before ++ trimChars cs ++ after ∧
    (∀ c ∈ before, isBlank c = true) ∧ ∀ c ∈ after, isBlank c = true := by
  have hends (ds : List Char) : ∃ after, ds = (ds.reverse.dropWhile isBlank).reverse ++ after ∧
      ∀ c ∈ after, isBlank c = true := by
    refine ⟨(ds.reverse.takeWhile isBlank).reverse, ?_, ?_⟩
    · rw [← List.reverse_append, List.takeWhile_append_dropWhile, List.reverse_reverse]
    · intro c hc
      exact List.all_eq_true.mp List.all_takeWhile c (List.mem_reverse.mp hc)
  obtain ⟨after, hafter, hblank⟩ := hends (cs.dropWhile isBlank)
  refine ⟨cs.takeWhile isBlank, after, ?_, List.all_eq_true.mp List.all_takeWhile, hblank⟩
  rw [List.append_assoc, trimChars, ← hafter, List.takeWhile_append_dropWhile]

theorem trimChars_eq_self {cs : List Char} (h : ∀ c ∈ cs, isBlank c = false) :
    trimChars cs = cs := by
  have hdrop {ds : List Char} (hds : ∀ c ∈ ds, isBlank c = false) : ds.dropWhile isBlank = ds := by
    cases ds with
    | nil => rfl
    | cons d ds =>
      rw [List.dropWhile_cons, hds d List.mem_cons_self]
      rfl
  have hreverse : ∀ c ∈ cs.reverse, isBlank c = false := by
    intro c hc
    exact h c (List.mem_reverse.mp hc)
  rw [trimChars, hdrop h, hdrop hreverse, List.reverse_reverse]

/-- What is left without the blanks around a text is the word in it, if there is no blank in words
of the form. -/
theorem form_trim_iff {form : List Char → Prop} {s : String}
    (h : ∀ word, form word → ∀ c ∈ word, isBlank c = false) :
    form (trim s).toList ↔ Padded form s := by
  rw [trim, String.toList_ofList]
  constructor
  · intro hform
    obtain ⟨before, after, hs, hbefore, hafter⟩ := exists_padding s.toList
    exact ⟨before, _, after, hs, hbefore, hafter, hform⟩
  · intro hpadded
    obtain ⟨before, word, after, hs, hbefore, hafter, hword⟩ := hpadded
    rw [hs, trimChars_append hbefore hafter, trimChars_eq_self (h word hword)]
    exact hword

end Storehouse.Text
