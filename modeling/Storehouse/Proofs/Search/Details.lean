import Mathlib.Data.List.FinRange
import Mathlib.Data.List.Induction
import Storehouse.Proofs.Search.Agreement
import Storehouse.Proofs.Search.Reading

namespace Storehouse.Search

open Storehouse.Filter (Clause)

inductive Detail
  | clause
  | sort
  | limit
  | offset
  | groupBy
  | reduction (reducer : Reducer)
  deriving DecidableEq, Repr

/-- What a request can hold under a detail. -/
def Detail.Value : Detail → Type
  | clause => Option Clause
  | sort => List (String × Direction)
  | limit => Option UInt64
  | offset => Option UInt64
  | groupBy => List String
  | reduction _ => Option String

namespace Setting

def detail : Setting → Detail
  | filter _ => .clause
  | sortBy _ _ => .sort
  | limit _ => .limit
  | offset _ => .offset
  | groupBy _ => .groupBy
  | reduce reducer _ => .reduction reducer

def order? : Setting → Option (String × Direction)
  | sortBy field direction => some (field, direction)
  | _ => none

def about (d : Detail) (settings : List Setting) : List Setting :=
  settings.filter fun x => x.detail = d

def last? (d : Detail) (settings : List Setting) : Option Setting := (about d settings).getLast?

/-- Both ask for the same orders in the same sequence, and every other detail has the same last
setting in both, or none in either. -/
structure Alike (settings others : List Setting) : Prop where
  sort : about .sort settings = about .sort others
  last (d : Detail) (h : d ≠ .sort) : last? d settings = last? d others

/-- The settings in another sequence: `σ` tells where the setting at a place comes from. -/
def rearranged (settings : List Setting) (σ : Equiv.Perm (Fin settings.length)) : List Setting :=
  List.ofFn fun j => settings.get (σ j)

/-- Settings of the same detail do not overtake each other. -/
def KeepsSequence (settings : List Setting) (σ : Equiv.Perm (Fin settings.length)) : Prop :=
  ∀ j k, j < k → (settings.get (σ j)).detail = (settings.get (σ k)).detail → σ j < σ k

variable {settings others : List Setting} {x : Setting} {d : Detail}

theorem about_append_of_eq (h : x.detail = d) :
    about d (settings ++ [x]) = about d settings ++ [x] := by
  rw [about, List.filter_append, List.filter_singleton, decide_eq_true h]
  rfl

theorem about_append_of_ne (h : x.detail ≠ d) : about d (settings ++ [x]) = about d settings := by
  rw [about, List.filter_append, List.filter_singleton, decide_eq_false h]
  exact List.append_nil _

theorem detail_of_last? (h : last? d settings = some x) : x.detail = d :=
  of_decide_eq_true (List.mem_filter.mp (List.mem_of_getLast? h)).2

theorem filterMap_order?_about :
    (about .sort settings).filterMap order? = settings.filterMap order? := by
  rw [about, List.filterMap_filter]
  congr
  funext x
  cases x <;> rfl

/-- If a permutation keeps the sequence of some places, they are met in the same sequence. -/
theorem filter_map_finRange {n : Nat} {p : Fin n → Bool} {σ : Equiv.Perm (Fin n)}
    (h : ∀ j k, j < k → p (σ j) = true → p (σ k) = true → σ j < σ k) :
    ((List.finRange n).map σ).filter p = (List.finRange n).filter p := by
  have hascending : (((List.finRange n).map σ).filter p).Pairwise (· < ·) := by
    rw [List.pairwise_filter, List.pairwise_map]
    exact (List.pairwise_lt_finRange n).imp fun {j k} hjk => h j k hjk
  -- both lists are ascending and hold the same places
  exact List.Perm.eq_of_pairwise (fun _ _ _ _ hjk hkj => absurd hkj (lt_asymm hjk)) hascending
    ((List.pairwise_lt_finRange n).filter p) ((Equiv.Perm.map_finRange_perm σ).filter p)

theorem about_rearranged {σ : Equiv.Perm (Fin settings.length)} (h : KeepsSequence settings σ)
    (d : Detail) : about d (rearranged settings σ) = about d settings := by
  have hrearranged :
      rearranged settings σ = ((List.finRange settings.length).map σ).map settings.get := by
    rw [List.map_map]
    exact List.ofFn_eq_map
  have hsettings : (List.finRange settings.length).map settings.get = settings :=
    List.ofFn_eq_map.symm.trans (List.ofFn_get settings)
  have hplaces := filter_map_finRange (p := fun j => (settings.get j).detail = d) (σ := σ)
    fun j k hjk hj hk => h j k hjk ((of_decide_eq_true hj).trans (of_decide_eq_true hk).symm)
  calc about d (rearranged settings σ)
      = (((List.finRange settings.length).map σ).filter
          fun j => (settings.get j).detail = d).map settings.get := by
        rw [hrearranged, about, List.filter_map]
        rfl
    _ = ((List.finRange settings.length).filter
          fun j => (settings.get j).detail = d).map settings.get := by rw [hplaces]
    _ = about d ((List.finRange settings.length).map settings.get) := by
        rw [about, List.filter_map]
        rfl
    _ = about d settings := by rw [hsettings]

theorem KeepsSequence.alike {σ : Equiv.Perm (Fin settings.length)}
    (h : KeepsSequence settings σ) : Alike (rearranged settings σ) settings where
  sort := about_rearranged h .sort
  last d _ := congrArg List.getLast? (about_rearranged h d)

end Setting

namespace Request

open Setting (order? about last? Alike)

def get (r : Request) : (d : Detail) → d.Value
  | .clause => r.clause
  | .sort => r.sort
  | .limit => r.limit
  | .offset => r.offset
  | .groupBy => r.groupBy
  | .reduction reducer => r.field? reducer

variable {r r' : Request} {settings others : List Setting} {x y : Setting} {d : Detail}

theorem eq_of_get_eq (h : ∀ d, r.get d = r'.get d) : r = r' := by
  obtain ⟨⟩ := r
  obtain ⟨⟩ := r'
  rw [mk.injEq]
  exact ⟨h .clause, h .sort, h .limit, h .offset, h .groupBy, h (.reduction .sum),
    h (.reduction .count), h (.reduction .average), h (.reduction .min), h (.reduction .max)⟩

theorem field?_set_of_ne {reducer other : Reducer} {field : String} (h : reducer ≠ other) :
    (r.set (.reduce reducer field)).field? other = r.field? other := by
  cases reducer <;> cases other <;> grind [set, field?]

theorem get_set_of_ne (h : x.detail ≠ d) : (r.set x).get d = r.get d := by
  cases x with
  | filter c =>
    cases d with
    | clause => exact absurd rfl h
    | _ => rfl
  | sortBy field direction =>
    cases d with
    | sort => exact absurd rfl h
    | _ => rfl
  | limit n =>
    cases d with
    | limit => exact absurd rfl h
    | _ => rfl
  | offset n =>
    cases d with
    | offset => exact absurd rfl h
    | _ => rfl
  | groupBy fields =>
    cases d with
    | groupBy => exact absurd rfl h
    | _ => rfl
  | reduce reducer field =>
    cases d with
    | reduction other => exact field?_set_of_ne fun heq => h (congrArg Detail.reduction heq)
    | _ => cases reducer <;> rfl

theorem get_set_of_eq (h : x.detail = d) (hd : d ≠ .sort) :
    (r.set x).get d = (r'.set x).get d := by
  subst h
  cases x with
  | sortBy field direction => exact absurd rfl hd
  | reduce reducer field => cases reducer <;> rfl
  | _ => rfl

theorem sort_set : (r.set x).sort = r.sort ++ (order? x).toList := by
  cases x with
  | sortBy field direction => rfl
  | reduce reducer field => cases reducer <;> exact (List.append_nil _).symm
  | _ => exact (List.append_nil _).symm

theorem sort_foldl : (settings.foldl set r).sort = r.sort ++ settings.filterMap order? := by
  induction settings using List.reverseRecOn with
  | nil => exact (List.append_nil _).symm
  | append_singleton settings x ih =>
    rw [List.foldl_append, List.filterMap_append, ← List.append_assoc, ← ih]
    exact sort_set

theorem get_foldl (hd : d ≠ .sort) : (settings.foldl set r).get d =
    (last? d settings).elim (r.get d) fun x => (empty.set x).get d := by
  induction settings using List.reverseRecOn with
  | nil => rfl
  | append_singleton settings x ih =>
    rw [List.foldl_append]
    by_cases hx : x.detail = d
    · rw [last?, Setting.about_append_of_eq hx, List.getLast?_concat]
      exact get_set_of_eq hx hd
    · rw [last?, Setting.about_append_of_ne hx]
      exact (get_set_of_ne hx).trans ih

theorem sort_ofSettings (settings : List Setting) :
    (ofSettings settings).sort = settings.filterMap order? := sort_foldl

theorem ofSettings_eq (h : Alike settings others) : ofSettings settings = ofSettings others := by
  refine eq_of_get_eq fun d => ?_
  by_cases hd : d = .sort
  · subst hd
    calc (ofSettings settings).sort = (about .sort settings).filterMap order? := by
          rw [sort_ofSettings, Setting.filterMap_order?_about]
      _ = (about .sort others).filterMap order? := by rw [h.sort]
      _ = (ofSettings others).sort := by rw [sort_ofSettings, Setting.filterMap_order?_about]
  · rw [ofSettings, ofSettings, get_foldl hd, get_foldl hd, h.last d hd]

/-- Settings of one detail are told apart by what they make of it. -/
theorem eq_of_get_set_eq (h : x.detail = y.detail) (hy : y.detail ≠ .sort)
    (hget : (empty.set x).get y.detail = (empty.set y).get y.detail) : x = y := by
  cases y with
  | sortBy field direction => exact absurd rfl hy
  | reduce reducer field =>
    cases x <;> cases h
    cases reducer <;> cases hget <;> rfl
  | _ =>
    cases x <;> cases h
    cases hget
    rfl

/-- A detail is as a setting has it if and only if that setting is the last one, or there is none
and the setting says no more than an empty request. -/
theorem get_ofSettings_eq_iff (settings : List Setting) (hx : x.detail ≠ .sort) :
    (ofSettings settings).get x.detail = (empty.set x).get x.detail ↔
      last? x.detail settings = some x ∨
        (last? x.detail settings = none ∧ (empty.set x).get x.detail = empty.get x.detail) := by
  rw [ofSettings, get_foldl hx]
  cases hlast : last? x.detail settings with
  | none => exact ⟨fun h => .inr ⟨rfl, h.symm⟩, fun h => (h.resolve_left nofun).2.symm⟩
  | some y =>
    constructor
    · intro h
      exact .inl (congrArg some (eq_of_get_set_eq (Setting.detail_of_last? hlast) hx h))
    · intro h
      cases h.resolve_right fun hnone => nomatch hnone.1
      rfl

/-- The request holds all orders in the sequence of the settings, and under each other detail what
the last setting says, if there is one. -/
structure ComesTo (settings : List Setting) (r : Request) : Prop where
  sort : r.sort = settings.filterMap order?
  clause (c : Clause) : r.clause = some c ↔ last? .clause settings = some (.filter c)
  limit (n : UInt64) : r.limit = some n ↔ last? .limit settings = some (.limit n)
  offset (n : UInt64) : r.offset = some n ↔ last? .offset settings = some (.offset n)
  groupBy (fields : List String) : r.groupBy = fields ↔
    last? .groupBy settings = some (.groupBy fields) ∨
      (last? .groupBy settings = none ∧ fields = [])
  field (reducer : Reducer) (field : String) : r.field? reducer = some field ↔
    last? (.reduction reducer) settings = some (.reduce reducer field)

theorem comesTo_ofSettings (settings : List Setting) : ComesTo settings (ofSettings settings) where
  sort := sort_ofSettings settings
  clause c := (get_ofSettings_eq_iff settings (x := .filter c) nofun).trans
    (or_iff_left fun h => nomatch h.2)
  limit n := (get_ofSettings_eq_iff settings (x := .limit n) nofun).trans
    (or_iff_left fun h => nomatch h.2)
  offset n := (get_ofSettings_eq_iff settings (x := .offset n) nofun).trans
    (or_iff_left fun h => nomatch h.2)
  groupBy fields := get_ofSettings_eq_iff settings (x := .groupBy fields) nofun
  field reducer field := by
    have hiff := get_ofSettings_eq_iff settings (x := .reduce reducer field) nofun
    cases reducer <;> exact hiff.trans (or_iff_left fun h => nomatch h.2)

theorem mem_reductions {reducer : Reducer} {field : String} :
    (reducer, field) ∈ r.reductions ↔ r.field? reducer = some field := by
  cases reducer <;> simp [reductions, Reducer.all]

theorem map_fst_reductions (r : Request) :
    r.reductions.map Prod.fst = Reducer.all.filter fun reducer => (r.field? reducer).isSome := by
  rw [reductions, List.map_filterMap, ← List.filterMap_eq_filter]
  congr
  funext reducer
  cases hfield : r.field? reducer <;> simp [Option.guard, hfield]

end Request

namespace Index

open Setting (order? last? Alike rearranged KeepsSequence)
open Request (ofSettings)

variable {i : Index} {settings : List Setting} {query : String}

/-- The reductions are those that the last setting of each reducer asks for, in one fixed order. -/
structure Reduces (i : Index) (settings : List Setting) (reductions : List Reduction) : Prop where
  keywords : (reductions.map fun a => a.reducer.keyword).Sublist
    ["SUM", "COUNT", "AVG", "MIN", "MAX"]
  mem (a : Reduction) : a ∈ reductions ↔ ∃ reducer field,
    last? (.reduction reducer) settings = some (.reduce reducer field) ∧
      a = i.reduction reducer field

theorem reduces_reductions (i : Index) (settings : List Setting) :
    Reduces i settings (i.reductions (ofSettings settings)) where
  keywords := by
    have hkeywords : (i.reductions (ofSettings settings)).map (fun a => a.reducer.keyword) =
        ((ofSettings settings).reductions.map Prod.fst).map Reducer.keyword := by
      rw [reductions_eq_map, List.map_map, List.map_map]
      rfl
    rw [hkeywords, Request.map_fst_reductions]
    exact List.filter_sublist.map Reducer.keyword
  mem a := by
    simp only [reductions_eq_map, List.mem_map, Prod.exists, Request.mem_reductions,
      (Request.comesTo_ofSettings settings).field, eq_comm (a := a)]

/-- The tokens of the commands give back the orders in the sequence of the settings, the page, and
the reductions under a grouping. -/
structure ShowsSettings (i : Index) (settings : List Setting) (query : String) : Prop where
  find : Command.ReadsBack (i.findCommand (ofSettings settings))
    (.search i.name query (settings.filterMap order?) false
      ((ofSettings settings).limit.map fun limit => ((ofSettings settings).offset.getD 0, limit)))
  aggregate : ∃ reductions, Command.ReadsBack (i.aggregateCommand (ofSettings settings))
      (.aggregate i.name query (ofSettings settings).groupBy reductions
        (settings.filterMap order?)) ∧
    ((ofSettings settings).groupBy = [] → reductions = []) ∧
    ((ofSettings settings).groupBy ≠ [] → Reduces i settings reductions)

theorem showsSettings (h : Clause.query (ofSettings settings).clause = .ok query) :
    ShowsSettings i settings query := by
  have hfind := readsBack_find (i := i) h
  have haggregate := readsBack_aggregate (i := i) h
  rw [Request.sort_ofSettings] at hfind haggregate
  refine ⟨hfind, _, haggregate, fun hnone => if_pos hnone, fun hsome => ?_⟩
  rw [if_neg hsome]
  exact i.reduces_reductions settings

/-- All commands of a request depend only on the sequence of its orders and on the last setting of
every other detail. So settings may be moved past those of other details: an order is added behind
the orders before it, every other setting replaces the earlier ones of its detail, and the
reductions of a command stand in one fixed order, however they were asked for. -/
theorem settings_in_any_order (i : Index) :
    (∀ settings others, Alike settings others → ∀ limit,
      i.commands (ofSettings settings) limit = i.commands (ofSettings others) limit) ∧
    (∀ settings σ, KeepsSequence settings σ → ∀ limit,
      i.commands (ofSettings (rearranged settings σ)) limit =
        i.commands (ofSettings settings) limit) ∧
    (∀ settings, Request.ComesTo settings (ofSettings settings)) ∧
    ∀ settings query, Clause.query (ofSettings settings).clause = .ok query →
      ShowsSettings i settings query := by
  refine ⟨?_, ?_, Request.comesTo_ofSettings, fun settings query => showsSettings⟩
  · intro settings others h limit
    rw [Request.ofSettings_eq h]
  · intro settings σ h limit
    rw [Request.ofSettings_eq h.alike]

/-- A limit that is replaced, and reductions that are asked for in either order. -/
theorem settings_in_two_orders : ∃ settings others : List Setting,
    settings = [.sortBy "age" .descending, .limit 5, .reduce .max "age", .groupBy ["city"],
      .sortBy "name" .ascending, .limit 10, .reduce .sum "pay"] ∧
    others = [.reduce .sum "pay", .limit 10, .sortBy "age" .descending, .groupBy ["city"],
      .reduce .max "age", .sortBy "name" .ascending] ∧
    Alike settings others ∧
    commands (.ofName "idx:users") (ofSettings settings) 1 =
      commands (.ofName "idx:users") (ofSettings others) 1 ∧
    aggregateCommand (.ofName "idx:users") (ofSettings others) =
      .ok ["FT.AGGREGATE", "idx:users", "*", "GROUPBY", "1", "city",
        "REDUCE", "SUM", "1", "pay", "AS", "totalSum", "REDUCE", "MAX", "1", "age", "AS", "max",
        "SORTBY", "1", "age", "DESC", "SORTBY", "1", "name", "ASC"] ∧
    ShowsSettings (.ofName "idx:users") settings "*" ∧
    ∃ σ, KeepsSequence others σ ∧
      commands (.ofName "idx:users") (ofSettings (rearranged others σ)) 1 =
        commands (.ofName "idx:users") (ofSettings others) 1 := by
  obtain ⟨hlast, hkeeps, -, hshown⟩ := settings_in_any_order (.ofName "idx:users")
  refine ⟨_, _, rfl, rfl, ?alike, hlast _ _ ?alike 1, rfl, hshown _ _ rfl, Equiv.swap 0 2, ?keeps,
    hkeeps _ _ ?keeps 1⟩
  case alike =>
    refine ⟨rfl, fun d hd => ?_⟩
    cases d with
    | sort => exact absurd rfl hd
    | reduction reducer => cases reducer <;> rfl
    | _ => rfl
  case keeps =>
    unfold KeepsSequence
    decide

end Index
end Storehouse.Search
