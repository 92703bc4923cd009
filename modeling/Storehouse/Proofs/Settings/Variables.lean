import Storehouse.Proofs.Text.Numeral
import Storehouse.Proofs.Text.Words
import Storehouse.Settings

namespace Storehouse.Settings

open Text (AnyCase Natural Padded Whole)

variable {α β : Type} {lookup : String → Option String} {name : String}
  {read : String → Option α} {form : α → List Char → Prop} {e : Misconfiguration} {s : Settings}

def flagWords : Bool → List String
  | true => ["1", "true", "yes", "on"]
  | false => ["0", "false", "no", "off", ""]

def Flag (b : Bool) (cs : List Char) : Prop := ∃ word ∈ flagWords b, AnyCase word cs

/-- A variable that is judged, and the words that can be read from it. -/
structure Judged where
  name : String
  Readable : List Char → Prop

def judged : List Judged :=
  [⟨"REDIS_PORT", fun cs => ∃ n : UInt16, Natural n.toNat cs⟩,
    ⟨"REDIS_DB", fun cs => ∃ n : Int64, Whole n.toInt cs⟩,
    ⟨"REDIS_TLS", fun cs => ∃ b, Flag b cs⟩,
    ⟨"REDIS_CACHE_TTL_SECS", fun cs => ∃ n : UInt64, Natural n.toNat cs⟩]

/-- The first of some variables that is set to a text from which nothing can be read, even without
the blanks around it, is reported with this text. -/
inductive FirstGarbled (lookup : String → Option String) : List Judged → Misconfiguration → Prop
  | here {v : Judged} {rest : List Judged} {raw : String} (h : lookup v.name = some raw)
    (hraw : ¬ Padded v.Readable raw) :
    FirstGarbled lookup (v :: rest) (.invalidVariable v.name raw)
  | later {v : Judged} {rest : List Judged} {e : Misconfiguration}
    (h : ∀ raw, lookup v.name = some raw → Padded v.Readable raw)
    (hrest : FirstGarbled lookup rest e) : FirstGarbled lookup (v :: rest) e

/-- A variable holds a value as it may be written, or is not set and the value is the default. -/
def Held (raw? : Option String) (Written : String → Prop) (isDefault : Prop) : Prop :=
  match raw? with
  | some raw => Written raw
  | none => isDefault

/-- The variables hold the settings: texts as they are, numbers in decimal and a flag by one of its
words, with any blanks around them. What is a default may be left out, and what is absent is. -/
structure WrittenIn (s : Settings) (lookup : String → Option String) : Prop where
  host : Held (lookup "REDIS_HOST") (· = s.host) (s.host = default.host)
  port : Held (lookup "REDIS_PORT") (Padded (Natural s.port.toNat)) (s.port = default.port)
  username : lookup "REDIS_USERNAME" = s.username
  password : lookup "REDIS_PASSWORD" = s.password
  database : Held (lookup "REDIS_DB") (Padded (Whole s.database.toInt))
    (s.database = default.database)
  encrypted : Held (lookup "REDIS_TLS") (Padded (Flag s.encrypted))
    (s.encrypted = default.encrypted)
  keyPrefix : Held (lookup "REDIS_KEY_PREFIX") (· = s.keyPrefix) (s.keyPrefix = default.keyPrefix)
  searchIndex : Held (lookup "REDIS_SEARCH_INDEX") (· = s.searchIndex)
    (s.searchIndex = default.searchIndex)
  cachePrefix : Held (lookup "REDIS_CACHE_PREFIX") (· = s.cachePrefix)
    (s.cachePrefix = default.cachePrefix)
  cacheSeconds : Held (lookup "REDIS_CACHE_TTL_SECS")
    (fun raw => ∃ n, s.cacheSeconds = some n ∧ Padded (Natural n.toNat) raw)
    (s.cacheSeconds = none)

/-- The variables, but an empty credential is as good as none. -/
def withoutEmpty (lookup : String → Option String) (name : String) : Option String :=
  if name = "REDIS_USERNAME" ∨ name = "REDIS_PASSWORD" then (lookup name).filter (· ≠ "")
  else lookup name

/-- A reader accepts the words of a form, in which there are no blanks. -/
structure Reads (read : String → Option α) (form : α → List Char → Prop) : Prop where
  read_iff {s : String} {a : α} : read s = some a ↔ form a s.toList
  isBlank_eq_false {a : α} {cs : List Char} : form a cs → ∀ c ∈ cs, Text.isBlank c = false

theorem Reads.trim_iff (h : Reads read form) {raw : String} {a : α} :
    read (Text.trim raw) = some a ↔ Padded (form a) raw :=
  h.read_iff.trans (Text.form_trim_iff fun _ => h.isBlank_eq_false)

theorem Reads.trim_eq_none_iff (h : Reads read form) {raw : String} :
    read (Text.trim raw) = none ↔ ¬ Padded (fun cs => ∃ a, form a cs) raw := by
  rw [Option.eq_none_iff_forall_ne_some, ← Text.form_trim_iff]
  · simp only [ne_eq, h.read_iff, not_exists]
  · intro word hword
    obtain ⟨a, ha⟩ := hword
    exact h.isBlank_eq_false ha

theorem reads_port : Reads port? fun n => Natural n.toNat where
  read_iff {s n} := by
    rw [port?, Option.map_eq_some_iff]
    simp only [Text.natural?_eq_some_iff]
    constructor
    · intro h
      obtain ⟨m, ⟨hm, hlt⟩, rfl⟩ := h
      rw [UInt16.toNat_ofNat_of_lt' hlt]
      exact hm
    · intro h
      exact ⟨n.toNat, ⟨h, n.toNat_lt⟩, UInt16.ofNat_toNat⟩
  isBlank_eq_false := Natural.isBlank_eq_false

theorem reads_database : Reads Text.int64? fun n => Whole n.toInt where
  read_iff := Text.int64?_eq_some_iff
  isBlank_eq_false := Whole.isBlank_eq_false

theorem reads_cacheSeconds : Reads Text.word? fun n => Natural n.toNat where
  read_iff := Text.word?_eq_some_iff
  isBlank_eq_false := Natural.isBlank_eq_false

/-- The words for a flag have small letters, and neither these nor their capitals are blanks. -/
theorem small_of_mem_flagWords {b : Bool} {word : String} (hword : word ∈ flagWords b) {d : Char}
    (hd : d ∈ word.toList) :
    d.isUpper = false ∧ Text.isBlank d = false ∧ Text.isBlank d.toUpper = false := by
  have hall : ((flagWords b).all fun word => word.toList.all fun d =>
      !d.isUpper && (!Text.isBlank d && !Text.isBlank d.toUpper)) = true := by
    cases b <;> decide +kernel
  simpa using List.all_eq_true.mp (List.all_eq_true.mp hall word hword) d hd

theorem reads_encrypted : Reads flag? Flag where
  read_iff {s b} := by
    have hwords : ∀ word ∈ flagWords b, Text.lower s = word ↔ AnyCase word s.toList := by
      intro word hword
      apply Text.lower_eq_iff
      intro d hd
      exact (small_of_mem_flagWords hword hd).1
    have hflag : Flag b s.toList ↔ Text.lower s ∈ flagWords b := by
      constructor
      · intro h
        obtain ⟨word, hword, hcase⟩ := h
        rw [(hwords word hword).mpr hcase]
        exact hword
      · intro h
        exact ⟨_, h, (hwords _ h).mp rfl⟩
    rw [hflag, flag?]
    generalize Text.lower s = t
    split
    all_goals cases b <;> simp_all [flagWords]
  isBlank_eq_false {b cs} h := by
    obtain ⟨word, hword, hcase⟩ := h
    exact hcase.forall fun d hd => (small_of_mem_flagWords hword hd).2

theorem readVariable_of_padded (h : Reads read form) {raw : String} {a : α}
    (hname : lookup name = some raw) (hraw : Padded (form a) raw) :
    readVariable lookup read name = .ok (some a) := by
  rw [readVariable, hname]
  dsimp only
  rw [h.trim_iff.mpr hraw]

theorem readVariable_of_garbled (h : Reads read form) {raw : String}
    (hname : lookup name = some raw) (hraw : ¬ Padded (fun cs => ∃ a, form a cs) raw) :
    readVariable lookup read name = .error (.invalidVariable name raw) := by
  rw [readVariable, hname]
  dsimp only
  rw [h.trim_eq_none_iff.mpr hraw]

theorem firstGarbled_cons_of_readable {v : Judged} {rest : List Judged}
    (h : ∀ raw, lookup v.name = some raw → Padded v.Readable raw) :
    FirstGarbled lookup (v :: rest) e ↔ FirstGarbled lookup rest e := by
  constructor
  · intro hfirst
    cases hfirst with
    | here hname hraw => exact absurd (h _ hname) hraw
    | later _ hrest => exact hrest
  · exact .later h

theorem firstGarbled_cons_of_garbled {v : Judged} {rest : List Judged} {raw : String}
    (h : lookup v.name = some raw) (hraw : ¬ Padded v.Readable raw) :
    FirstGarbled lookup (v :: rest) e ↔ e = .invalidVariable v.name raw := by
  constructor
  · intro hfirst
    cases hfirst with
    | here hname _ =>
      cases hname.symm.trans h
      rfl
    | later hreadable _ => exact absurd (hreadable raw h) hraw
  · intro he
    subst he
    exact .here h hraw

/-- Reading one variable and then others fails at the first of them that is garbled. -/
theorem bind_readVariable_eq_error_iff (h : Reads read form)
    {f : Option α → Except Misconfiguration β} {rest : List Judged}
    (hf : ∀ a, f a = .error e ↔ FirstGarbled lookup rest e) :
    readVariable lookup read name >>= f = .error e ↔
      FirstGarbled lookup (⟨name, fun cs => ∃ a, form a cs⟩ :: rest) e := by
  cases hname : lookup name with
  | none =>
    rw [firstGarbled_cons_of_readable, readVariable, hname]
    · exact hf none
    · intro raw hraw
      exact nomatch hname.symm.trans hraw
  | some raw =>
    by_cases hraw : Padded (fun cs => ∃ a, form a cs) raw
    · rw [firstGarbled_cons_of_readable]
      · obtain ⟨before, word, after, hcut, hbefore, hafter, a, ha⟩ := hraw
        rw [readVariable_of_padded h hname ⟨before, word, after, hcut, hbefore, hafter, ha⟩]
        exact hf (some a)
      · intro raw' hraw'
        cases hname.symm.trans hraw'
        exact hraw
    · rw [firstGarbled_cons_of_garbled hname hraw, readVariable_of_garbled h hname hraw]
      change Except.error _ = _ ↔ _
      rw [Except.error.injEq, eq_comm]

theorem ofVariables_eq_error_iff :
    ofVariables lookup = .error e ↔ FirstGarbled lookup judged e := by
  apply bind_readVariable_eq_error_iff reads_port
  intro port
  apply bind_readVariable_eq_error_iff reads_database
  intro database
  apply bind_readVariable_eq_error_iff reads_encrypted
  intro encrypted
  apply bind_readVariable_eq_error_iff reads_cacheSeconds
  intro cacheSeconds
  constructor
  · intro h
    cases h
  · intro h
    cases h

theorem readVariable_of_held (h : Reads read form) {fallback a : α}
    (hheld : Held (lookup name) (Padded (form a)) (a = fallback)) :
    ∃ a?, readVariable lookup read name = .ok a? ∧ a?.getD fallback = a := by
  cases hname : lookup name with
  | none =>
    rw [hname] at hheld
    refine ⟨none, ?_, Eq.symm hheld⟩
    rw [readVariable, hname]
  | some raw =>
    rw [hname] at hheld
    exact ⟨some a, readVariable_of_padded h hname hheld, rfl⟩

theorem getD_of_held {raw? : Option String} {fallback text : String}
    (h : Held raw? (· = text) (text = fallback)) : raw?.getD fallback = text := by
  cases raw? with
  | none => exact Eq.symm h
  | some raw => exact h

theorem WrittenIn.readVariable_cacheSeconds (h : s.WrittenIn lookup) :
    readVariable lookup Text.word? "REDIS_CACHE_TTL_SECS" = .ok s.cacheSeconds := by
  have hheld := h.cacheSeconds
  cases hname : lookup "REDIS_CACHE_TTL_SECS" with
  | none =>
    rw [hname] at hheld
    have habsent : s.cacheSeconds = none := hheld
    rw [readVariable, hname, habsent]
  | some raw =>
    rw [hname] at hheld
    obtain ⟨n, hn, hraw⟩ := hheld
    rw [hn]
    exact readVariable_of_padded reads_cacheSeconds hname hraw

theorem filter_ne_empty {text? : Option String} (h : text? ≠ some "") :
    text?.filter (· ≠ "") = text? := by
  cases text? with
  | none => rfl
  | some text =>
    have hne : text ≠ "" := fun heq => h (congrArg some heq)
    exact if_pos (decide_eq_true hne)

theorem WrittenIn.ofVariables_eq (h : s.WrittenIn lookup) (haliases : s.aliases = default.aliases)
    (husername : s.username ≠ some "") (hpassword : s.password ≠ some "") :
    ofVariables lookup = .ok s := by
  obtain ⟨port, hport, hport'⟩ := readVariable_of_held reads_port h.port
  obtain ⟨database, hdatabase, hdatabase'⟩ := readVariable_of_held reads_database h.database
  obtain ⟨encrypted, hencrypted, hencrypted'⟩ := readVariable_of_held reads_encrypted h.encrypted
  rw [ofVariables, hport, hdatabase, hencrypted, h.readVariable_cacheSeconds]
  change Except.ok _ = _
  rw [h.username, h.password, filter_ne_empty husername, filter_ne_empty hpassword, hport',
    hdatabase', hencrypted', getD_of_held h.host, getD_of_held h.keyPrefix,
    getD_of_held h.searchIndex, getD_of_held h.cachePrefix, ← haliases]

theorem exists_firstGarbled_iff {vs : List Judged} : (∃ e, FirstGarbled lookup vs e) ↔
    ∃ v ∈ vs, ∃ raw, lookup v.name = some raw ∧ ¬ Padded v.Readable raw := by
  induction vs with
  | nil =>
    constructor
    · intro h
      obtain ⟨e, he⟩ := h
      cases he
    · intro h
      obtain ⟨v, hv, -⟩ := h
      cases hv
  | cons v rest ih =>
    by_cases hv : ∃ raw, lookup v.name = some raw ∧ ¬ Padded v.Readable raw
    · obtain ⟨raw, hname, hraw⟩ := hv
      constructor
      · intro _
        exact ⟨v, List.mem_cons_self, raw, hname, hraw⟩
      · intro _
        exact ⟨_, .here hname hraw⟩
    · have hreadable : ∀ raw, lookup v.name = some raw → Padded v.Readable raw := by
        intro raw hname
        by_contra hraw
        exact hv ⟨raw, hname, hraw⟩
      simp only [firstGarbled_cons_of_readable hreadable, ih, List.exists_mem_cons_iff, hv,
        false_or]

theorem FirstGarbled.message?_eq {vs : List Judged} (h : FirstGarbled lookup vs e) :
    ∃ v ∈ vs, ∃ raw, lookup v.name = some raw ∧ (Fault.misconfigured e).message? =
      some ("Configuration error: " ++ (v.name ++ " has invalid value '" ++ raw ++ "'")) := by
  induction h with
  | here h _ => exact ⟨_, List.mem_cons_self, _, h, rfl⟩
  | later _ _ ih =>
    obtain ⟨v, hv, hmessage⟩ := ih
    exact ⟨v, List.mem_cons_of_mem _ hv, hmessage⟩

theorem ofVariables_withoutEmpty (lookup : String → Option String) :
    ofVariables (withoutEmpty lookup) = ofVariables lookup := by
  have hother {name : String} (h : ¬ (name = "REDIS_USERNAME" ∨ name = "REDIS_PASSWORD")) :
      withoutEmpty lookup name = lookup name := if_neg h
  have hread {α : Type} {read : String → Option α} {name : String}
      (h : ¬ (name = "REDIS_USERNAME" ∨ name = "REDIS_PASSWORD")) :
      readVariable (withoutEmpty lookup) read name = readVariable lookup read name := by
    rw [readVariable, readVariable, hother h]
  have hcredential {name : String} (h : name = "REDIS_USERNAME" ∨ name = "REDIS_PASSWORD") :
      (withoutEmpty lookup name).filter (· ≠ "") = (lookup name).filter (· ≠ "") := by
    rw [withoutEmpty, if_pos h, Option.filter_filter]
    simp only [Bool.and_self]
  simp (disch := decide) only [ofVariables, hread, hother, hcredential]

/-- Any settings with the aliases by default are read from variables that hold them. Reading fails
if and only if one of the variables that are judged is garbled, and then the first of them is
reported with its text. An empty credential counts as none. -/
theorem variables_read_back (lookup : String → Option String) :
    (∀ s : Settings, s.aliases = default.aliases → s.username ≠ some "" → s.password ≠ some "" →
      s.WrittenIn lookup → ofVariables lookup = .ok s) ∧
    ((∃ e, ofVariables lookup = .error e) ↔
      ∃ v ∈ judged, ∃ raw, lookup v.name = some raw ∧ ¬ Padded v.Readable raw) ∧
    (∀ e, ofVariables lookup = .error e ↔ FirstGarbled lookup judged e) ∧
    (∀ e, ofVariables lookup = .error e → ∃ v ∈ judged, ∃ raw, lookup v.name = some raw ∧
      (Fault.misconfigured e).message? =
        some ("Configuration error: " ++ (v.name ++ " has invalid value '" ++ raw ++ "'"))) ∧
    ofVariables (withoutEmpty lookup) = ofVariables lookup := by
  refine ⟨?_, ?_, fun e => ofVariables_eq_error_iff, ?_, ofVariables_withoutEmpty lookup⟩
  · intro s haliases husername hpassword hwritten
    exact hwritten.ofVariables_eq haliases husername hpassword
  · simp only [ofVariables_eq_error_iff]
    exact exists_firstGarbled_iff
  · intro e he
    exact (ofVariables_eq_error_iff.mp he).message?_eq

/-- Numbers at the ends of their ranges, a flag in mixed case and blanks around all of them. -/
theorem variables_read_back_extremes :
    ofVariables (fun name => List.lookup name
      [("REDIS_HOST", " redis "), ("REDIS_PORT", "\t65535\n"), ("REDIS_PASSWORD", "p w"),
        ("REDIS_DB", " -9223372036854775808"), ("REDIS_TLS", "YeS "),
        ("REDIS_CACHE_TTL_SECS", "18446744073709551615")]) =
      .ok { default with
        host := " redis ", port := 65535, password := some "p w",
        database := -9223372036854775808, encrypted := true,
        cacheSeconds := some 18446744073709551615 } := by
  apply (variables_read_back _).1
  · rfl
  · decide
  · decide
  · have hnone : ∀ c ∈ [], Text.isBlank c = true := List.forall_mem_nil _
    have hspace : ∀ c ∈ [' '], Text.isBlank c = true := List.forall_mem_singleton.mpr rfl
    refine ⟨rfl, ?_, rfl, rfl, ?_, ?_, rfl, rfl, rfl, ?_⟩
    · exact ⟨['\t'], _, ['\n'], rfl, List.forall_mem_singleton.mpr rfl,
        List.forall_mem_singleton.mpr rfl, Text.natural_repr 65535⟩
    · have hdatabase := Text.whole_repr (-9223372036854775808 : Int64).toInt
      exact ⟨[' '], _, [], by decide +kernel, hspace, hnone, hdatabase⟩
    · refine ⟨[], ['Y', 'e', 'S'], [' '], rfl, hnone, hspace, "yes", by decide, ?_⟩
      exact .cons (.inr rfl) (.cons (.inl rfl) (.cons (.inr rfl) .nil))
    · exact ⟨_, rfl, [], _, [], rfl, hnone, hnone, Text.natural_repr 18446744073709551615⟩

end Storehouse.Settings
