import Storehouse.Collection
import Storehouse.Proofs.Except
import Storehouse.Proofs.Reply.Fields

namespace Storehouse
namespace Reply

variable {r : Reply} {p : Reply × Reply} {ps : List (Reply × Reply)} {m : ScoredMember}
  {ms : List ScoredMember} {items : List Reply}

def inPairs (ps : List (Reply × Reply)) : List Reply := ps.map fun p => .array [p.1, p.2]

/-- The member is a text and the score a number. -/
structure ScoreReads (p : Reply × Reply) (m : ScoredMember) : Prop where
  member : p.1.toText = .ok m.member
  score : p.2.toFloat? = some m.score

inductive ScoredForm : Reply → List ScoredMember → Prop
  | nil : ScoredForm .nil []
  | flat {ps : List (Reply × Reply)} {ms : List ScoredMember}
    (h : List.Forall₂ ScoreReads ps ms) : ScoredForm (.array (inTurn ps)) ms
  | nested {ps : List (Reply × Reply)} {ms : List ScoredMember}
    (h : List.Forall₂ ScoreReads ps ms) : ScoredForm (.array (inPairs ps)) ms

theorem isArray_of_toText {s : String} (h : r.toText = .ok s) : r.isArray = false := by
  cases r with
  | array items => cases h
  | _ => rfl

theorem isArray_of_toFloat? {x : Float} (h : r.toFloat? = some x) : r.isArray = false := by
  cases r with
  | array items => cases h
  | _ => rfl

theorem score_eq_ok_iff {x : Float} : r.score = .ok x ↔ r.toFloat? = some x := by
  rw [score]
  cases r.toFloat? <;> simp

theorem scoredMember_eq_ok_iff (whole : Reply) :
    scoredMember whole p.1 p.2 = .ok m ↔ ScoreReads p m := by
  rw [scoredMember]
  cases hmember : p.1.toText with
  | error e =>
    refine iff_of_false nofun fun h => ?_
    cases hmember.symm.trans h.member
  | ok name =>
    simp only [Except.map_eq_ok_iff, score_eq_ok_iff]
    constructor
    · rintro ⟨x, hx, rfl⟩
      exact ⟨hmember, hx⟩
    · intro h
      cases hmember.symm.trans h.member
      exact ⟨m.score, h.score, rfl⟩

theorem exists_scoreReads_iff : (∃ m, ScoreReads p m) ↔
    (∃ s, p.1.toText = .ok s) ∧ ∃ x, p.2.toFloat? = some x := by
  constructor
  · rintro ⟨m, h⟩
    exact ⟨⟨_, h.member⟩, _, h.score⟩
  · rintro ⟨⟨s, hs⟩, x, hx⟩
    exact ⟨⟨s, x⟩, hs, hx⟩

theorem scored_of_all_array (h : items.all isArray = true) :
    scored (.array items) = items.mapM scoredPair := by
  rw [scored, if_pos h]

theorem scored_of_inTurn (h : (inTurn ps).all isArray = false) :
    scored (.array (inTurn ps)) =
      ps.mapM fun p => scoredMember (.array (inTurn ps)) p.1 p.2 := by
  rw [scored, if_neg (Bool.eq_false_iff.mp h), pairUp?_inTurn]

theorem scored_inPairs_eq_ok_iff :
    scored (.array (inPairs ps)) = .ok ms ↔ List.Forall₂ ScoreReads ps ms := by
  have hall : (inPairs ps).all isArray = true := by
    simp [inPairs, isArray]
  rw [scored_of_all_array hall, inPairs, List.mapM_map]
  exact Except.mapM_eq_ok_iff fun p _ m => scoredMember_eq_ok_iff _

theorem scored_inTurn_eq_ok_iff (h : ∀ p ∈ ps, p.1.isArray = false) :
    scored (.array (inTurn ps)) = .ok ms ↔ List.Forall₂ ScoreReads ps ms := by
  cases ps with
  | nil =>
    change scored (.array (inPairs [])) = _ ↔ _
    exact scored_inPairs_eq_ok_iff
  | cons p ps =>
    have hall : (inTurn (p :: ps)).all isArray = false := by
      simp [h p List.mem_cons_self]
    rw [scored_of_inTurn hall]
    exact Except.mapM_eq_ok_iff fun p _ m => scoredMember_eq_ok_iff _

theorem scoredPair_of_not_pair (h : ∀ a b, r ≠ .array [a, b]) :
    scoredPair r = .error (.scores r) := by
  unfold scoredPair
  split
  · next member score => exact absurd rfl (h member score)
  · rfl

theorem scoredPair_eq_ok_iff :
    scoredPair r = .ok m ↔ ∃ p : Reply × Reply, r = .array [p.1, p.2] ∧ ScoreReads p m := by
  constructor
  · intro h
    by_cases hpair : ∃ a b, r = .array [a, b]
    · obtain ⟨a, b, rfl⟩ := hpair
      exact ⟨(a, b), rfl, (scoredMember_eq_ok_iff _).mp h⟩
    · rw [scoredPair_of_not_pair fun a b hab => hpair ⟨a, b, hab⟩] at h
      cases h
  · rintro ⟨p, rfl, h⟩
    exact (scoredMember_eq_ok_iff _).mpr h

theorem exists_inPairs (h : List.Forall₂
    (fun r m => ∃ p : Reply × Reply, r = .array [p.1, p.2] ∧ ScoreReads p m) items ms) :
    ∃ ps, items = inPairs ps ∧ List.Forall₂ ScoreReads ps ms := by
  induction h with
  | nil => exact ⟨[], rfl, .nil⟩
  | cons hp _ ih =>
    obtain ⟨p, rfl, hp⟩ := hp
    obtain ⟨ps, rfl, hps⟩ := ih
    exact ⟨p :: ps, rfl, .cons hp hps⟩

theorem ScoredForm.scored_eq (h : ScoredForm r ms) : r.scored = .ok ms := by
  cases h with
  | nil => rfl
  | nested h => exact scored_inPairs_eq_ok_iff.mpr h
  | @flat ps ms h =>
    have hmember : ∀ p ∈ ps, p.1.isArray = false := by
      intro p hp
      obtain ⟨m, hm⟩ := Except.exists_forall₂_iff.mp ⟨ms, h⟩ p hp
      exact isArray_of_toText hm.member
    exact (scored_inTurn_eq_ok_iff hmember).mpr h

theorem scoredForm_of_scored (h : r.scored = .ok ms) : ScoredForm r ms := by
  cases r with
  | nil =>
    cases h
    exact .nil
  | array items =>
    cases hall : items.all isArray with
    | true =>
      rw [scored_of_all_array hall] at h
      obtain ⟨ps, rfl, hps⟩ := exists_inPairs
        ((Except.mapM_eq_ok_iff fun _ _ _ => scoredPair_eq_ok_iff).mp h)
      exact .nested hps
    | false =>
      cases hpairs : pairUp? items with
      | none =>
        rw [scored, if_neg (Bool.eq_false_iff.mp hall), hpairs] at h
        cases h
      | some ps =>
        cases pairUp?_eq_some_iff.mp hpairs
        rw [scored_of_inTurn hall] at h
        exact .flat ((Except.mapM_eq_ok_iff fun _ _ _ => scoredMember_eq_ok_iff _).mp h)
  | _ => cases h

theorem scored_eq_ok_iff : r.scored = .ok ms ↔ ScoredForm r ms :=
  ⟨scoredForm_of_scored, ScoredForm.scored_eq⟩

theorem isArray_of_mem_inPairs {item : Reply} (h : item ∈ inPairs ps) :
    ∃ a b, item = .array [a, b] := by
  obtain ⟨p, -, rfl⟩ := List.mem_map.mp h
  exact ⟨p.1, p.2, rfl⟩

theorem isArray_of_mem_inTurn (hps : List.Forall₂ ScoreReads ps ms) {item : Reply}
    (h : item ∈ inTurn ps) : item.isArray = false := by
  obtain ⟨p, hp, hitem⟩ := List.mem_flatMap.mp h
  obtain ⟨m, hm⟩ := Except.exists_forall₂_iff.mp ⟨ms, hps⟩ p hp
  rcases List.mem_pair.mp hitem with rfl | rfl
  · exact isArray_of_toText hm.member
  · exact isArray_of_toFloat? hm.score

/-- An array that is read holds pairs only, one for each member, or no arrays, two items for each.
-/
theorem length_of_scored (h : scored (.array items) = .ok ms) :
    ((∀ item ∈ items, ∃ a b, item = .array [a, b]) ∧ ms.length = items.length) ∨
      ((∀ item ∈ items, item.isArray = false) ∧ 2 * ms.length = items.length) := by
  cases scoredForm_of_scored h with
  | nested hps =>
    refine .inl ⟨fun item => isArray_of_mem_inPairs, ?_⟩
    rw [inPairs, List.length_map, hps.length_eq]
  | flat hps =>
    refine .inr ⟨fun item => isArray_of_mem_inTurn hps, ?_⟩
    rw [length_inTurn, hps.length_eq]

theorem scoredMember_eq_error {whole member score : Reply} {u : Unexpected}
    (h : scoredMember whole member score = .error u) : ∃ found, u = .scores found := by
  unfold scoredMember at h
  split at h
  · rw [Except.map_eq_error_iff, Reply.score] at h
    split at h
    · cases h
    · cases h
      exact ⟨score, rfl⟩
  · cases h
    exact ⟨whole, rfl⟩

theorem scoredPair_eq_error {u : Unexpected} (h : scoredPair r = .error u) :
    ∃ found, u = .scores found := by
  unfold scoredPair at h
  split at h
  · exact scoredMember_eq_error h
  · cases h
    exact ⟨r, rfl⟩

theorem scored_eq_error {u : Unexpected} (h : r.scored = .error u) :
    ∃ found, u = .scores found := by
  unfold scored at h
  split at h
  · cases h
  · next items =>
    split at h
    · obtain ⟨item, -, hitem⟩ := Except.exists_error_of_mapM h
      exact scoredPair_eq_error hitem
    · split at h
      · obtain ⟨p, -, hp⟩ := Except.exists_error_of_mapM h
        exact scoredMember_eq_error hp
      · cases h
        exact ⟨_, rfl⟩
  · cases h
    exact ⟨r, rfl⟩

/-- The reply is reported as no list of members with scores, or a part of it is. -/
def ScoresRefused (r : Reply) : Prop := ∃ found, r.scored = .error (.scores found)

theorem scoresRefused_of_not_ok (h : ∀ ms, r.scored ≠ .ok ms) : r.ScoresRefused := by
  cases hread : r.scored with
  | ok ms => exact absurd hread (h ms)
  | error u =>
    obtain ⟨found, rfl⟩ := scored_eq_error hread
    exact ⟨found, hread⟩

theorem scored_odd (hodd : items.length % 2 = 1) (hflat : items.all isArray = false) :
    scored (.array items) = .error (.scores (.array items)) := by
  rw [scored, if_neg (Bool.eq_false_iff.mp hflat), pairUp?_eq_none_iff.mpr hodd]

theorem scoresRefused_not_pair {item : Reply} (hitem : item ∈ items) (harray : item.isArray = true)
    (hpair : ∀ a b, item ≠ .array [a, b]) : ScoresRefused (.array items) := by
  refine scoresRefused_of_not_ok fun ms h => ?_
  obtain ⟨hall, -⟩ | ⟨hnone, -⟩ := length_of_scored h
  · obtain ⟨a, b, hab⟩ := hall item hitem
    exact hpair a b hab
  · cases harray.symm.trans (hnone item hitem)

theorem scoresRefused_mixed {item other : Reply} (hitem : item ∈ items)
    (harray : item.isArray = true) (hother : other ∈ items) (hnot : other.isArray = false) :
    ScoresRefused (.array items) := by
  refine scoresRefused_of_not_ok fun ms h => ?_
  obtain ⟨hall, -⟩ | ⟨hnone, -⟩ := length_of_scored h
  · obtain ⟨a, b, rfl⟩ := hall other hother
    cases hnot
  · cases harray.symm.trans (hnone item hitem)

theorem scored_of_not_array (hnil : r ≠ .nil) (harray : r.isArray = false) :
    r.scored = .error (.scores r) := by
  cases r with
  | nil => exact absurd rfl hnil
  | array items => cases harray
  | _ => rfl

/-- Members with scores are read alike in turn and in pairs as long as no member is an array itself,
and they are read if each member is a text and each score a number. No other form is read: neither
an odd number of items, nor arrays that are no pairs, nor arrays beside other items. -/
theorem scored_read_alike :
    (∀ ps : List (Reply × Reply), (∀ p ∈ ps, p.1.isArray = false) →
      (scored (.array (inTurn ps))).toOption = (scored (.array (inPairs ps))).toOption ∧
      (∀ ms, scored (.array (inTurn ps)) = .ok ms ↔ List.Forall₂ ScoreReads ps ms) ∧
      ((∃ ms, scored (.array (inTurn ps)) = .ok ms) ↔
        ∀ p ∈ ps, (∃ s, p.1.toText = .ok s) ∧ ∃ x, p.2.toFloat? = some x)) ∧
    (∀ r ms, scored r = .ok ms ↔ ScoredForm r ms) ∧
    (∀ items ms, scored (.array items) = .ok ms →
      ((∀ item ∈ items, ∃ a b, item = .array [a, b]) ∧ ms.length = items.length) ∨
        ((∀ item ∈ items, item.isArray = false) ∧ 2 * ms.length = items.length)) ∧
    scored .nil = .ok [] ∧ scored (.array []) = .ok [] ∧
    (∀ items, items.length % 2 = 1 → items.all isArray = false →
      scored (.array items) = .error (.scores (.array items))) ∧
    (∀ items, ∀ item ∈ items, item.isArray = true → (∀ a b, item ≠ .array [a, b]) →
      ScoresRefused (.array items)) ∧
    (∀ items, ∀ item ∈ items, ∀ other ∈ items, item.isArray = true → other.isArray = false →
      ScoresRefused (.array items)) ∧
    ∀ r : Reply, r ≠ .nil → r.isArray = false → r.scored = .error (.scores r) := by
  refine ⟨?_, fun r ms => scored_eq_ok_iff, fun items ms => length_of_scored, rfl, rfl,
    fun items => scored_odd, fun items item => scoresRefused_not_pair,
    fun items item hitem other hother harray => scoresRefused_mixed hitem harray hother,
    fun r => scored_of_not_array⟩
  intro ps hps
  have hread (ms : List ScoredMember) :
      scored (.array (inTurn ps)) = .ok ms ↔ List.Forall₂ ScoreReads ps ms :=
    scored_inTurn_eq_ok_iff hps
  refine ⟨?_, hread, ?_⟩
  · ext ms
    rw [Except.toOption_eq_some_iff, Except.toOption_eq_some_iff, hread, scored_inPairs_eq_ok_iff]
  · simp only [hread, Except.exists_forall₂_iff, exists_scoreReads_iff]

/-- Two members in turn are read as in pairs. -/
theorem scored_read_two :
    (scored (.array (inTurn [(text "a", .double 1), (.simple "b", .int 2)]))).toOption =
      (scored (.array (inPairs [(text "a", .double 1), (.simple "b", .int 2)]))).toOption ∧
    (∃ ms, scored (.array (inTurn [(text "a", .double 1), (.simple "b", .int 2)])) = .ok ms) ∧
    ScoresRefused (.array [.array [.simple "a", .int 1], .simple "b"]) := by
  obtain ⟨halike, -, -, -, -, -, -, hmixed, -⟩ := scored_read_alike
  obtain ⟨hsame, -, hread⟩ := halike [(text "a", .double 1), (.simple "b", .int 2)]
    (by simp [isArray, text])
  refine ⟨hsame, hread.mpr ?_, ?_⟩
  · intro p hp
    rcases List.mem_pair.mp hp with rfl | rfl
    · exact ⟨⟨"a", toText_text "a"⟩, 1, rfl⟩
    · exact ⟨⟨"b", rfl⟩, Double.ofInt (2 : Int64).toInt, rfl⟩
  · exact hmixed _ (.array [.simple "a", .int 1]) List.mem_cons_self (.simple "b")
      (List.mem_cons_of_mem _ List.mem_cons_self) rfl rfl

end Reply
end Storehouse
