import Mathlib.Data.List.Basic
import Storehouse.Exchange.Measure

namespace Storehouse.Measure

variable {event : Event} {events : List Event} {key : Key}

/-- What a counter shows; one that is not there shows nothing yet. -/
def counted (rows : List (Key × Tally)) (key : Key) : Nat :=
  match rows.lookup key with
  | some (.counter n) => n
  | _ => 0

/-- The samples of a histogram; one that is not there has none yet. -/
def sampled (rows : List (Key × Tally)) (key : Key) : List Float :=
  match rows.lookup key with
  | some (.histogram samples) => samples
  | _ => []

theorem mem_keys : key ∈ keys events ↔ ∃ event ∈ events, Key.ofEvent event = key := by
  rw [keys, List.mem_mergeSort, List.mem_eraseDups, List.mem_map]

theorem lookup_rows_of_mem (h : ∃ event ∈ events, Key.ofEvent event = key) :
    (rows events).lookup key = some (tally events key) :=
  List.lookup_graph _ (mem_keys.mpr h)

theorem lookup_rows_of_not_mem (h : ∀ event ∈ events, Key.ofEvent event ≠ key) :
    (rows events).lookup key = none := by
  rw [List.lookup_eq_none_iff]
  intro row hrow
  obtain ⟨key', hkey', rfl⟩ := List.mem_map.mp hrow
  obtain ⟨event, hevent, rfl⟩ := mem_keys.mp hkey'
  simpa using (h event hevent).symm

/-- Events that stand alone under their key and have no sample are counted. -/
theorem tally_eq_counter (hkey : ∀ other, Key.ofEvent other = Key.ofEvent event ↔ other = event)
    (hsample : sample? event = none) (events : List Event) :
    tally events (Key.ofEvent event) = .counter (events.count event) := by
  have hown : (events.filter fun other => Key.ofEvent other = Key.ofEvent event) =
      List.replicate (events.count event) event := by
    simp only [hkey]
    exact List.filter_eq _
  have hsamples : (List.replicate (events.count event) event).filterMap sample? = [] := by
    rw [List.filterMap_eq_nil_iff]
    intro other hother
    rw [List.eq_of_mem_replicate hother]
    exact hsample
  simp only [tally, hown, hsamples, List.length_replicate]

theorem counted_rows (hkey : ∀ other, Key.ofEvent other = Key.ofEvent event ↔ other = event)
    (hsample : sample? event = none) (events : List Event) :
    counted (rows events) (Key.ofEvent event) = events.count event := by
  by_cases hmem : event ∈ events
  · rw [counted, lookup_rows_of_mem ⟨event, hmem, rfl⟩, tally_eq_counter hkey hsample]
  · have hnone : ∀ other ∈ events, Key.ofEvent other ≠ Key.ofEvent event := by
      intro other hother heq
      cases (hkey other).mp heq
      exact hmem hother
    rw [counted, lookup_rows_of_not_mem hnone, List.count_eq_zero_of_not_mem hmem]

theorem ofEvent_eq_compileError_iff {event : Event} :
    Key.ofEvent event = Key.ofEvent .compileError ↔ event = .compileError := by
  cases event <;> simp [Key.ofEvent]

theorem ofEvent_eq_cacheLookup_iff {event : Event} {hit : Bool} :
    Key.ofEvent event = Key.ofEvent (.cacheLookup hit) ↔ event = .cacheLookup hit := by
  cases event with
  | cacheLookup other => cases hit <;> cases other <;> simp [Key.ofEvent]
  | _ => simp [Key.ofEvent]

theorem tally_compileError (events : List Event) :
    tally events (Key.ofEvent .compileError) = .counter (events.count .compileError) :=
  tally_eq_counter (fun _ => ofEvent_eq_compileError_iff) rfl events

theorem tally_compileError_append (events : List Event) :
    tally (events ++ [.compileError]) (Key.ofEvent .compileError) =
      .counter (events.count .compileError + 1) := by
  rw [tally_compileError, List.count_append]
  rfl

theorem counted_compileError (events : List Event) :
    counted (rows events) (.ofEvent .compileError) = events.count .compileError :=
  counted_rows (fun _ => ofEvent_eq_compileError_iff) rfl events

theorem counted_cacheLookup (hit : Bool) (events : List Event) :
    counted (rows events) (.ofEvent (.cacheLookup hit)) = events.count (.cacheLookup hit) :=
  counted_rows (fun _ => ofEvent_eq_cacheLookup_iff) rfl events

def results? : Event → Option Nat
  | .searchResults n => some n
  | _ => none

theorem ofEvent_eq_searchResults_iff {event : Event} {n : Nat} :
    Key.ofEvent event = Key.ofEvent (.searchResults n) ↔ (results? event).isSome := by
  cases event <;> simp [Key.ofEvent, results?]

theorem filterMap_sample?_searchResults (n : Nat) (events : List Event) :
    (events.filter fun event => Key.ofEvent event = Key.ofEvent (.searchResults n)).filterMap
      sample? = (events.filterMap results?).map fun m : Nat => Double.ofInt m := by
  rw [List.filterMap_filter, List.map_filterMap]
  congr 1
  funext event
  cases event <;> rfl

theorem sampled_searchResults (n : Nat) (events : List Event) :
    sampled (rows events) (.ofEvent (.searchResults n)) =
      (events.filterMap results?).map fun m : Nat => Double.ofInt m := by
  have hsamples := filterMap_sample?_searchResults n events
  cases hsizes : events.filterMap results? with
  | nil =>
    have hnone : ∀ event ∈ events, Key.ofEvent event ≠ Key.ofEvent (.searchResults n) := by
      intro event hevent hkey
      rw [ofEvent_eq_searchResults_iff, List.filterMap_eq_nil_iff.mp hsizes event hevent] at hkey
      cases hkey
    rw [sampled, lookup_rows_of_not_mem hnone]
    rfl
  | cons size sizes =>
    have hsize : size ∈ events.filterMap results? := by
      rw [hsizes]
      exact List.mem_cons_self
    obtain ⟨event, hevent, hresults⟩ := List.mem_filterMap.mp hsize
    have hkey : Key.ofEvent event = Key.ofEvent (.searchResults n) :=
      ofEvent_eq_searchResults_iff.mpr (Option.isSome_of_mem hresults)
    rw [hsizes] at hsamples
    rw [sampled, lookup_rows_of_mem ⟨event, hevent, hkey⟩, tally, hsamples]
    rfl

end Storehouse.Measure
