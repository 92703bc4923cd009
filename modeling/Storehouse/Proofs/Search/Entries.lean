import Storehouse.Proofs.Except
import Storehouse.Proofs.Reply.Fields
import Storehouse.Basic
import Storehouse.Search.Outcome

namespace Storehouse
namespace Search

/-- What stands for the fields of a document: a list or a map, without attributes around it. -/
inductive FieldsForm : Reply → Prop
  | array (items : List Reply) : FieldsForm (.array items)
  | map (entries : List (Reply × Reply)) : FieldsForm (.map entries)

theorem holdsFields_iff {r : Reply} : holdsFields r = true ↔ FieldsForm r := by
  constructor
  · intro h
    cases r with
    | array items => exact .array items
    | map entries => exact .map entries
    | _ => cases h
  · intro h
    cases h <;> rfl

theorem holdsFields_of_toText {r : Reply} {s : String} (h : r.toText = .ok s) :
    holdsFields r = false := by
  cases r with
  | array => cases h
  | map => cases h
  | _ => rfl

/-- Entries one after the other, and the hits that they are. -/
inductive Entries : List Reply → List Hit → Prop
  | nil : Entries [] []
  | bare {key : Reply} {rest : List Reply} {name : String} {hits : List Hit}
    (hkey : key.toText = .ok name) (h : Entries rest hits) :
    Entries (key :: rest) (⟨name, []⟩ :: hits)
  | full {key next : Reply} {rest : List Reply} {name : String} {fields : List (String × String)}
    {hits : List Hit} (hkey : key.toText = .ok name) (hform : FieldsForm next)
    (hfields : next.fields = .ok fields) (h : Entries rest hits) :
    Entries (key :: next :: rest) (⟨name, fields⟩ :: hits)

/-- A list or a set of a total and entries. -/
def PageForm (r : Reply) (page : Page) : Prop :=
  ∃ total items, (r = .array (total :: items) ∨ r = .set (total :: items)) ∧
    total.toWord? = some page.total ∧ Entries items page.hits

theorem hits_bare {key : Reply} {rest : List Reply} {name : String} (hkey : key.toText = .ok name)
    (h : ∀ next ∈ rest.head?, holdsFields next = false) :
    hits (key :: rest) = (⟨name, []⟩ :: ·) <$> hits rest := by
  rw [hits, hkey]
  cases rest with
  | nil => rfl
  | cons next rest =>
    have hnext : holdsFields next = false := h next rfl
    simp only [hnext]
    cases hits (next :: rest) <;> rfl

theorem hits_full {key next : Reply} {rest : List Reply} {name : String}
    (hkey : key.toText = .ok name) (hform : holdsFields next = true) :
    hits (key :: next :: rest) =
      next.fields >>= fun fields => (⟨name, fields⟩ :: ·) <$> hits rest := by
  rw [hits, hkey]
  simp only [hform]
  cases next.fields with
  | error e => rfl
  | ok fields => cases hits rest <;> rfl

theorem Entries.holdsFields_head {rest : List Reply} {found : List Hit} (h : Entries rest found) :
    ∀ next ∈ rest.head?, holdsFields next = false := by
  intro next hnext
  cases h with
  | nil => cases hnext
  | bare hkey _ =>
    cases hnext
    exact holdsFields_of_toText hkey
  | full hkey _ _ _ =>
    cases hnext
    exact holdsFields_of_toText hkey

theorem Entries.hits_eq {items : List Reply} {found : List Hit} (h : Entries items found) :
    hits items = .ok found := by
  induction h with
  | nil => rfl
  | bare hkey h ih =>
    rw [hits_bare hkey h.holdsFields_head, ih]
    rfl
  | full hkey hform hfields _ ih =>
    rw [hits_full hkey (holdsFields_iff.mpr hform), hfields, ih]
    rfl

theorem entries_of_hits {items : List Reply} {found : List Hit} (h : hits items = .ok found) :
    Entries items found := by
  induction items using hits.induct generalizing found with
  | case1 =>
    cases h
    exact .nil
  | case2 key rest reason hkey =>
    rw [hits, hkey] at h
    cases h
  | case3 key name hkey =>
    rw [hits, hkey] at h
    cases h
    exact .bare hkey .nil
  | case4 key name hkey next rest hform ih =>
    rw [hits_full hkey hform, Except.bind_eq_ok_iff] at h
    obtain ⟨fields, hfields, h⟩ := h
    obtain ⟨others, hothers, rfl⟩ := Except.map_eq_ok_iff.mp h
    exact .full hkey (holdsFields_iff.mp hform) hfields (ih hothers)
  | case5 key name hkey next rest hform ih =>
    have hnext : ∀ r ∈ (next :: rest).head?, holdsFields r = false := by
      intro r hr
      cases hr
      exact Bool.eq_false_iff.mpr hform
    rw [hits_bare hkey hnext] at h
    obtain ⟨others, hothers, rfl⟩ := Except.map_eq_ok_iff.mp h
    exact .bare hkey (ih hothers)

theorem Entries.length_eq {items : List Reply} {found : List Hit} (h : Entries items found) :
    found.length = items.countP fun r => !holdsFields r := by
  induction h with
  | nil => rfl
  | bare hkey _ ih =>
    rw [List.length_cons, ih, List.countP_cons_of_pos]
    rw [holdsFields_of_toText hkey]
    rfl
  | full hkey hform _ _ ih =>
    rw [List.length_cons, ih, List.countP_cons_of_pos, List.countP_cons_of_neg]
    · rw [holdsFields_iff.mpr hform]
      exact Bool.false_ne_true
    · rw [holdsFields_of_toText hkey]
      rfl

theorem items?_eq_some_iff {r : Reply} {items : List Reply} :
    r.items? = some items ↔ r = .array items ∨ r = .set items := by
  cases r <;> simp [Reply.items?]

theorem ofReply_eq {r total : Reply} {items : List Reply} {n : UInt64}
    (hitems : r.items? = some (total :: items)) (htotal : total.toWord? = some n) :
    Page.ofReply r = (fun hits => ⟨n, hits⟩) <$> hits items := by
  rw [Page.ofReply, hitems]
  simp only [htotal]

theorem PageForm.ofReply_eq {r : Reply} {page : Page} (h : PageForm r page) :
    Page.ofReply r = .ok page := by
  obtain ⟨total, items, hitems, htotal, hentries⟩ := h
  rw [Search.ofReply_eq (items?_eq_some_iff.mpr hitems) htotal, hentries.hits_eq]
  rfl

theorem pageForm_of_ofReply {r : Reply} {page : Page} (h : Page.ofReply r = .ok page) :
    PageForm r page := by
  cases hitems : r.items? with
  | none =>
    rw [Page.ofReply, hitems] at h
    cases h
  | some whole =>
    cases whole with
    | nil =>
      rw [Page.ofReply, hitems] at h
      cases h
    | cons total items =>
      cases htotal : total.toWord? with
      | none =>
        rw [Page.ofReply, hitems] at h
        simp only [htotal] at h
        cases h
      | some n =>
        rw [Search.ofReply_eq hitems htotal] at h
        obtain ⟨found, hfound, rfl⟩ := Except.map_eq_ok_iff.mp h
        exact ⟨total, items, items?_eq_some_iff.mp hitems, htotal, entries_of_hits hfound⟩

/-- A document in a reply: its key alone, or with its fields as a list or as a map. -/
inductive Entry
  | bare (key : String)
  | listed (key : String) (fields : List (String × String))
  | mapped (key : String) (fields : List (String × String))

namespace Entry

def items : Entry → List Reply
  | bare key => [.text key]
  | listed key fields => [.text key, .listOfTexts fields]
  | mapped key fields => [.text key, .mapOfTexts fields]

def key : Entry → String
  | bare key | listed key _ | mapped key _ => key

def fields : Entry → List (String × String)
  | bare _ => []
  | listed _ fields | mapped _ fields => fields

/-- Of several fields under one name the last counts. -/
def hit (e : Entry) : Hit := ⟨e.key, Named.ofList e.fields⟩

theorem entries_append (e : Entry) {rest : List Reply} {found : List Hit}
    (h : Entries rest found) : Entries (e.items ++ rest) (e.hit :: found) := by
  cases e with
  | bare key => exact .bare (Reply.toText_text key) h
  | listed key fields =>
    exact .full (Reply.toText_text key) (.array _) (Reply.fields_listOfTexts fields) h
  | mapped key fields =>
    exact .full (Reply.toText_text key) (.map _) (Reply.fields_mapOfTexts fields) h

theorem entries_flatMap (es : List Entry) : Entries (es.flatMap items) (es.map hit) := by
  induction es with
  | nil => exact .nil
  | cons e es ih => exact e.entries_append ih

end Entry

/-- The ways to write a total: as an integer with the bits of the word, or in decimal. -/
inductive TotalForm (n : UInt64) : Reply → Prop
  | int : TotalForm n (.int n.toInt64)
  | text : TotalForm n (.text n.toNat.repr)
  | simple : TotalForm n (.simple n.toNat.repr)

theorem TotalForm.toWord?_eq {n : UInt64} {r : Reply} (h : TotalForm n r) :
    r.toWord? = some n := by
  cases h with
  | int => exact congrArg some (UInt64.toUInt64_toInt64 n)
  | text => exact (Reply.toWord?_text _).trans (Text.word?_repr n)
  | simple => exact Text.word?_repr n

theorem ofReply_eq_error_iff {r : Reply} :
    (∃ u, Page.ofReply r = .error u) ↔ ∀ page, ¬ PageForm r page := by
  constructor
  · intro ⟨u, hu⟩ page hpage
    cases hu.symm.trans hpage.ofReply_eq
  · intro h
    cases hread : Page.ofReply r with
    | error u => exact ⟨u, rfl⟩
    | ok page => exact absurd (pageForm_of_ofReply hread) (h page)

theorem PageForm.length_hits {r : Reply} {page : Page} (h : PageForm r page) :
    ∃ total items, r.items? = some (total :: items) ∧
      page.hits.length = items.countP fun item => !holdsFields item := by
  obtain ⟨total, items, hitems, _, hentries⟩ := h
  exact ⟨total, items, items?_eq_some_iff.mpr hitems, hentries.length_eq⟩

theorem ofReply_entries {n : UInt64} {total : Reply} (htotal : total.toWord? = some n)
    (es : List Entry) :
    Page.ofReply (.array (total :: es.flatMap Entry.items)) = .ok ⟨n, es.map Entry.hit⟩ :=
  PageForm.ofReply_eq ⟨total, _, .inl rfl, htotal, Entry.entries_flatMap es⟩

theorem Entry.hit_eq {e : Entry} (h : Named.Ascending e.fields) : e.hit = ⟨e.key, e.fields⟩ := by
  rw [hit, Named.ofList_eq_self h]

/-- Replies that have the form of a page are read as that page, and all others are unexpected. A
page has a hit for every item that is no fields, and entries in any mixture come back one by one. -/
theorem ofReply_reads_pages :
    (∀ r page, Page.ofReply r = .ok page ↔ PageForm r page) ∧
    (∀ r, (∃ u, Page.ofReply r = .error u) ↔ ∀ page, ¬ PageForm r page) ∧
    (∀ r page, PageForm r page → ∃ total items, r.items? = some (total :: items) ∧
      page.hits.length = items.countP fun item => !holdsFields item) ∧
    (∀ n total, TotalForm n total → ∀ es : List Entry,
      Page.ofReply (.array (total :: es.flatMap Entry.items)) = .ok ⟨n, es.map Entry.hit⟩) ∧
    ∀ e : Entry, Named.Ascending e.fields → e.hit = ⟨e.key, e.fields⟩ := by
  have hread (r : Reply) (page : Page) : Page.ofReply r = .ok page ↔ PageForm r page :=
    ⟨pageForm_of_ofReply, PageForm.ofReply_eq⟩
  exact ⟨hread, fun r => ofReply_eq_error_iff, fun r page h => h.length_hits,
    fun n total htotal es => ofReply_entries htotal.toWord?_eq es, fun e h => e.hit_eq h⟩

/-- A key without fields between two with fields. -/
theorem ofReply_reads_users : ∃ total es, TotalForm 3 total ∧
    es = [Entry.listed "user:1" [("name", "Ada")], .bare "user:2",
      .mapped "user:3" [("name", "Eve")]] ∧
    Page.ofReply (.array (total :: es.flatMap Entry.items)) =
      .ok ⟨3, [⟨"user:1", [("name", "Ada")]⟩, ⟨"user:2", []⟩, ⟨"user:3", [("name", "Eve")]⟩]⟩ := by
  obtain ⟨-, -, -, hentries, -⟩ := ofReply_reads_pages
  exact ⟨_, _, .int, rfl, hentries 3 _ .int _⟩

end Search
end Storehouse
