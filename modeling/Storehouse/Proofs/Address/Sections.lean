import Storehouse.Address
import Storehouse.Proofs.Address.Percent
import Storehouse.Proofs.Text.Numeral

namespace Storehouse

/-- What an address says: the server with its database, and who signs in there. -/
structure Destination where
  encrypted : Bool
  username : Option String
  password : Option String
  host : String
  port : UInt16
  database : Int64
  deriving DecidableEq

def Settings.destination (s : Settings) : Destination :=
  ⟨s.encrypted, s.username, s.password, s.host, s.port, s.database⟩

namespace Address

/-- The texts between the separators of an address; what is absent is empty. -/
structure Sections where
  scheme : List Char
  username : List Char
  password : List Char
  host : List Char
  port : List Char
  database : List Char
  deriving DecidableEq

/-- The parts before and after the first colon that two slashes follow. -/
def cutScheme? : List Char → Option (List Char × List Char)
  | ':' :: '/' :: '/' :: rest => some ([], rest)
  | c :: rest => (cutScheme? rest).map fun (scheme, rest) => (c :: scheme, rest)
  | [] => none

/-- Behind the scheme stands the authority up to a slash, in it the credentials up to an at sign.
The password and the port stand behind colons. -/
def sections? (s : String) : Option Sections := do
  let (scheme, rest) ← cutScheme? s.toList
  let (authority, database) ← Text.cut? '/' rest
  let (userInfo, place) := (Text.cut? '@' authority).getD ([], authority)
  let (username, password) := (Text.cut? ':' userInfo).getD (userInfo, [])
  let (host, port) ← Text.cut? ':' place
  return ⟨scheme, username, password, host, port, database⟩

def encrypted? (scheme : List Char) : Option Bool :=
  if scheme = ['r', 'e', 'd', 'i', 's'] then some false
  else if scheme = ['r', 'e', 'd', 'i', 's', 's'] then some true
  else none

/-- The credential that a section encodes, if there is one. -/
def credential? (cs : List Char) : Option (Option String) :=
  if cs = [] then some none else (decode? cs).map some

def Sections.destination? (t : Sections) : Option Destination := do
  let encrypted ← encrypted? t.scheme
  let username ← credential? t.username
  let password ← credential? t.password
  let port ← Settings.port? (.ofList t.port)
  let database ← Text.int64? (.ofList t.database)
  return ⟨encrypted, username, password, .ofList t.host, port, database⟩

def encoded (credential : Option String) : List Char :=
  credential.elim [] fun s => (encode s).toList

theorem encoded_encoded (credential : Option String) : Encoded (encoded credential) := by
  cases credential with
  | none => exact .nil
  | some s => exact encoded_encode s

theorem credential?_encoded {credential : Option String} (h : credential ≠ some "") :
    credential? (encoded credential) = some credential := by
  cases credential with
  | none => rfl
  | some s =>
    have hdecode := decode?_encode s
    have hne : (encode s).toList ≠ [] := by
      intro hnil
      rw [hnil] at hdecode
      apply h
      rw [← hdecode]
      decide +kernel
    rw [credential?, encoded, Option.elim_some, if_neg hne, hdecode]
    rfl

theorem cutScheme?_append {scheme : List Char} (h : ':' ∉ scheme) (rest : List Char) :
    cutScheme? (scheme ++ ':' :: '/' :: '/' :: rest) = some (scheme, rest) := by
  induction scheme with
  | nil => rfl
  | cons c scheme ih =>
    have hc : c ≠ ':' := by
      intro hc
      exact h (hc ▸ List.mem_cons_self)
    have hrest : ':' ∉ scheme := fun hmem => h (List.mem_cons_of_mem c hmem)
    rw [List.cons_append, cutScheme?, ih hrest]
    · rfl
    · intro _ hcolon
      exact absurd hcolon hc

def signInText (username password : Option String) : List Char :=
  encoded username ++ password.elim [] fun s => ':' :: (encode s).toList

variable {username password : Option String}

theorem not_mem_encoded {c : Char} (hc : c ∈ ['/', '@', ':', '?', '#'])
    (credential : Option String) : c ∉ encoded credential :=
  (encoded_encoded credential).not_mem hc

theorem not_mem_signInText {c : Char} (hc : c ∈ ['/', '@']) :
    c ∉ signInText username password := by
  have hstop : c ∈ ['/', '@', ':', '?', '#'] := List.mem_append_left [':', '?', '#'] hc
  have hcolon : c ≠ ':' := by
    intro hc'
    subst hc'
    revert hc
    decide
  intro hmem
  rcases List.mem_append.mp hmem with hname | hrest
  · exact not_mem_encoded hstop username hname
  · cases password with
    | none => cases hrest
    | some s =>
      rcases List.mem_cons.mp hrest with heq | hmem
      · exact hcolon heq
      · exact (encoded_encode s).not_mem hstop hmem

theorem cut_signInText : (Text.cut? ':' (signInText username password)).getD
    (signInText username password, []) = (encoded username, encoded password) := by
  have hname : ':' ∉ encoded username := not_mem_encoded (by decide) username
  cases password with
  | none =>
    rw [signInText, Option.elim_none, List.append_nil, Text.cut?_of_not_mem hname]
    rfl
  | some s =>
    rw [signInText, Option.elim_some, Text.cut?_append hname]
    rfl

theorem toList_userInfo (h : ¬ (username = none ∧ password = none)) :
    (userInfo username password).toList = signInText username password ++ ['@'] := by
  cases username with
  | none =>
    cases password with
    | none => exact absurd ⟨rfl, rfl⟩ h
    | some s => simp [userInfo, signInText, encoded]
  | some name =>
    cases password with
    | none => simp [userInfo, signInText, encoded]
    | some s => simp [userInfo, signInText, encoded]

theorem cut_authority {place : List Char} (h : '@' ∉ place) :
    (Text.cut? '@' ((userInfo username password).toList ++ place)).getD
        ([], (userInfo username password).toList ++ place) =
      (signInText username password, place) := by
  by_cases hnone : username = none ∧ password = none
  · obtain ⟨rfl, rfl⟩ := hnone
    rw [Text.cut?_of_not_mem]
    · rfl
    · exact h
  · rw [toList_userInfo hnone, List.append_assoc, List.singleton_append,
      Text.cut?_append (not_mem_signInText (by decide))]
    rfl

end Address

namespace Settings

open Address

def scheme (s : Settings) : String := if s.encrypted then "rediss" else "redis"

def place (s : Settings) : List Char := s.host.toList ++ ':' :: s.port.toNat.repr.toList

theorem toList_address (s : Settings) : s.address.toList = s.scheme.toList ++ ':' :: '/' :: '/' ::
    (((userInfo s.username s.password).toList ++ s.place) ++
      '/' :: s.database.toInt.repr.toList) := by
  simp [address, scheme, place]

theorem not_mem_repr {c : Char} (hc : c.isDigit = false) (n : Nat) : c ∉ n.repr.toList := by
  intro hmem
  rw [Nat.toList_repr] at hmem
  have hdigit := Nat.isDigit_of_mem_toDigits (by decide) (by decide) hmem
  exact nomatch hc.symm.trans hdigit

theorem not_mem_repr_int {c : Char} (hc : c.isDigit = false) (hminus : c ≠ '-') (m : Int) :
    c ∉ m.repr.toList := by
  rw [Int.repr_eq_if]
  split
  · exact not_mem_repr hc _
  · intro hmem
    rw [String.toList_append] at hmem
    rcases List.mem_append.mp hmem with hsign | hdigits
    · exact hminus (List.mem_singleton.mp hsign)
    · exact not_mem_repr hc _ hdigits

/-- The host of the settings holds no separator. -/
def PlainHost (s : Settings) : Prop := ∀ c ∈ ['/', '@', ':', '?', '#'], c ∉ s.host.toList

variable {s : Settings}

theorem PlainHost.not_mem_place (h : s.PlainHost) {c : Char} (hc : c ∈ ['/', '@']) :
    c ∉ s.place := by
  have hdigit : c.isDigit = false ∧ c ≠ ':' := by
    simp only [List.mem_cons, List.not_mem_nil, or_false] at hc
    rcases hc with rfl | rfl <;> decide
  intro hmem
  rcases List.mem_append.mp hmem with hhost | hport
  · exact h c (List.mem_append_left [':', '?', '#'] hc) hhost
  · rcases List.mem_cons.mp hport with heq | hport
    · exact hdigit.2 heq
    · exact not_mem_repr hdigit.1 _ hport

theorem PlainHost.slash_not_mem_authority (h : s.PlainHost) :
    '/' ∉ (userInfo s.username s.password).toList ++ s.place := by
  intro hmem
  rcases List.mem_append.mp hmem with hsignIn | hplace
  · by_cases hnone : s.username = none ∧ s.password = none
    · rw [hnone.1, hnone.2] at hsignIn
      cases hsignIn
    · rw [toList_userInfo hnone] at hsignIn
      rcases List.mem_append.mp hsignIn with htext | hat
      · exact not_mem_signInText (by decide) htext
      · exact absurd (List.mem_singleton.mp hat) (by decide)
  · exact h.not_mem_place (by decide) hplace

theorem PlainHost.sections?_address (h : s.PlainHost) :
    sections? s.address = some ⟨s.scheme.toList, encoded s.username, encoded s.password,
      s.host.toList, s.port.toNat.repr.toList, s.database.toInt.repr.toList⟩ := by
  have hscheme : ':' ∉ s.scheme.toList := by
    rw [scheme]
    split
    · decide
    · decide
  have hauthority := Text.cut?_append h.slash_not_mem_authority s.database.toInt.repr.toList
  have hsignIn := @cut_authority s.username s.password _ (h.not_mem_place (by decide))
  have hhost : Text.cut? ':' s.place = some (s.host.toList, s.port.toNat.repr.toList) :=
    Text.cut?_append (h ':' (by decide)) _
  simp only [sections?, toList_address, cutScheme?_append hscheme, hauthority, hsignIn,
    cut_signInText, hhost, bind, Option.bind, pure]

theorem PlainHost.count_at (h : s.PlainHost) :
    s.address.toList.count '@' = if s.username = none ∧ s.password = none then 0 else 1 := by
  have hscheme : '@' ∉ s.scheme.toList ++ [':', '/', '/'] := by
    rw [scheme]
    split
    · decide
    · decide
  have hrest : '@' ∉ s.place ++ '/' :: s.database.toInt.repr.toList := by
    intro hmem
    rcases List.mem_append.mp hmem with hplace | hdatabase
    · exact h.not_mem_place (by decide) hplace
    · rcases List.mem_cons.mp hdatabase with heq | hdatabase
      · exact absurd heq (by decide)
      · exact not_mem_repr_int (by decide) (by decide) _ hdatabase
  have haddress : s.address.toList = (s.scheme.toList ++ [':', '/', '/']) ++
      (userInfo s.username s.password).toList ++
        (s.place ++ '/' :: s.database.toInt.repr.toList) := by
    simp [toList_address]
  rw [haddress, List.count_append, List.count_append, List.count_eq_zero_of_not_mem hscheme,
    List.count_eq_zero_of_not_mem hrest, Nat.zero_add, Nat.add_zero]
  split
  · next hnone =>
    rw [hnone.1, hnone.2]
    rfl
  · next hsome =>
    rw [toList_userInfo hsome, List.count_append,
      List.count_eq_zero_of_not_mem (not_mem_signInText (by decide))]
    rfl

theorem destination?_sections (hname : s.username ≠ some "") (hpassword : s.password ≠ some "") :
    Sections.destination? ⟨s.scheme.toList, encoded s.username, encoded s.password, s.host.toList,
      s.port.toNat.repr.toList, s.database.toInt.repr.toList⟩ = some s.destination := by
  have hscheme : encrypted? s.scheme.toList = some s.encrypted := by
    rw [scheme]
    cases s.encrypted with
    | false => rfl
    | true => rfl
  have hport : port? s.port.toNat.repr = some s.port := by
    rw [port?, Text.natural?_repr s.port.toNat_lt, Option.map_some, UInt16.ofNat_toNat]
  have hdatabase : Text.int64? s.database.toInt.repr = some s.database :=
    Text.int64?_eq_some_iff.mpr (Text.whole_repr _)
  simp only [Sections.destination?, hscheme, credential?_encoded hname,
    credential?_encoded hpassword, String.ofList_toList, hport, hdatabase, bind, Option.bind, pure,
    destination]

/-- An address is cut into sections that say what the settings say: the scheme, each credential or
its absence, the host, the port and the database. The sections of the credentials hold no character
but those of encoded text, and the only at sign ends the credentials, if there are any. -/
theorem address_says_settings (s : Settings) (hname : s.username ≠ some "")
    (hpassword : s.password ≠ some "") (hhost : s.PlainHost) :
    ∃ t, sections? s.address = some t ∧ t.destination? = some s.destination ∧
      Encoded t.username ∧ Encoded t.password ∧
      s.address.toList.count '@' = if s.username = none ∧ s.password = none then 0 else 1 :=
  ⟨_, hhost.sections?_address, destination?_sections hname hpassword, encoded_encoded _,
    encoded_encoded _, hhost.count_at⟩

/-- Credentials that hold every separator, text that looks encoded and characters of several bytes.
-/
theorem address_says_odd_credentials :
    ∃ t, sections? (Settings.address { default with
        host := "cache.internal", username := some "a:b@c/%41", password := some "?#ü€",
        database := -9223372036854775808, encrypted := true }) = some t ∧
      t.destination? = some ⟨true, some "a:b@c/%41", some "?#ü€", "cache.internal", 6379,
        -9223372036854775808⟩ ∧
      Encoded t.username ∧ Encoded t.password ∧
      (Settings.address { default with
        host := "cache.internal", username := some "a:b@c/%41", password := some "?#ü€",
        database := -9223372036854775808, encrypted := true }).toList.count '@' = 1 :=
  address_says_settings { default with
    host := "cache.internal", username := some "a:b@c/%41", password := some "?#ü€",
    database := -9223372036854775808, encrypted := true } (by decide) (by decide)
    (by simp [PlainHost])

end Settings
end Storehouse
