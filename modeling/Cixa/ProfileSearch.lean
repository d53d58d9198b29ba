import Cixa.Profiles
import Mathlib.Data.List.Nodup

/-! # The profile search — one readable profile for a merchant

    The search is a loop over the directory with a counter and the match so
    far.  It succeeds exactly when every file can be read, there are not too
    many, and not two of them are for the merchant.  None of that depends on
    the ORDER of the files.

    What the console saved can be read, unless a file grew too large or a
    text of it holds HALF A SURROGATE PAIR, which the console writes and the
    broker refuses; so the broker's search is decided by which profiles are
    saved. -/

namespace Treasury

open CixaData Checks Codec

variable {serde : SerdeJson} {request : PurchaseRequest}

/-! ## The search as a whole -/

/-- What an entry contributes: nothing, a profile, or the end of the search. -/
def profileOf (serde : SerdeJson) :
    Except String ProfileEntry →
      Option (Option (String × ControlledCheckoutProfile))
  | .error _ => none
  | .ok e =>
      if e.isJson = false then some none
      else match openProfile serde e with
        | .ok profile => some (some (e.path, profile))
        | .error _ => none

/-- The profiles of a directory. -/
def profilesOf (serde : SerdeJson)
    (entries : List (Except String ProfileEntry)) :
    List (String × ControlledCheckoutProfile) :=
  entries.filterMap fun e => (profileOf serde e).join

/-- The profiles of the merchant. -/
def matchesOf (serde : SerdeJson) (request : PurchaseRequest)
    (entries : List (Except String ProfileEntry)) : List (String × Doc) :=
  ((profilesOf serde entries).filter
    (fun p => decide (p.2.merchantDomain = request.merchantDomain))).map
    (fun p => (p.1, p.2.config))

section Cons

variable {e : ProfileEntry} {rest : List (Except String ProfileEntry)}
  {profile : ControlledCheckoutProfile}

theorem profileOf_skipped (hjson : e.isJson = false) :
    profileOf serde (.ok e) = some none := if_pos hjson

theorem profileOf_refused {error : String} (hjson : ¬e.isJson = false)
    (hopen : openProfile serde e = .error error) :
    profileOf serde (.ok e) = none := by
  show (if _ then _ else _) = _
  rw [if_neg hjson, hopen]

theorem profileOf_read (hjson : ¬e.isJson = false)
    (hopen : openProfile serde e = .ok profile) :
    profileOf serde (.ok e) = some (some (e.path, profile)) := by
  show (if _ then _ else _) = _
  rw [if_neg hjson, hopen]

theorem profilesOf_cons {e : Except String ProfileEntry}
    {p : Option (String × ControlledCheckoutProfile)}
    (hp : profileOf serde e = some p) :
    profilesOf serde (e :: rest) = p.toList ++ profilesOf serde rest := by
  unfold profilesOf
  rw [List.filterMap_cons, hp]
  cases p with
  | none => rfl
  | some p => rfl

/-- What a profile adds to the matches. -/
theorem matchesOf_cons (hjson : ¬e.isJson = false)
    (hopen : openProfile serde e = .ok profile) :
    matchesOf serde request (.ok e :: rest)
      = (if profile.merchantDomain = request.merchantDomain
          then [(e.path, profile.config)] else [])
        ++ matchesOf serde request rest := by
  unfold matchesOf
  rw [profilesOf_cons (profileOf_read hjson hopen), List.filter_append,
    List.map_append]
  congr 1
  by_cases hdomain : profile.merchantDomain = request.merchantDomain
  · simp [hdomain]
  · simp [hdomain]

end Cons

/-- **THE SEARCH**: it ends well when every entry can be read, there are at
    most 64 profiles, and at most one is the merchant's. -/
theorem searchProfiles_eq_ok {entries : List (Except String ProfileEntry)}
    {n : Nat} {matched m : Option (String × Doc)} (hn : n ≤ 64) :
    searchProfiles serde request entries n matched = .ok m
      ↔ (∀ e ∈ entries, (profileOf serde e).isSome = true)
        ∧ n + (profilesOf serde entries).length ≤ 64
        ∧ m.toList = matched.toList ++ matchesOf serde request entries := by
  induction entries generalizing n matched with
  | nil =>
      show Except.ok matched = Except.ok m ↔ _ ∧ n + 0 ≤ 64 ∧ m.toList = _ ++ []
      rw [List.append_nil]
      constructor
      · intro h
        cases h
        exact ⟨fun _ h => absurd h List.not_mem_nil, hn, rfl⟩
      · rintro ⟨_, _, h⟩
        cases m with
        | none =>
            cases matched with
            | none => rfl
            | some old => cases h
        | some found =>
            cases matched with
            | none => cases h
            | some old =>
                cases h
                rfl
  | cons e rest ih =>
      rw [List.forall_mem_cons]
      cases e with
      | error text =>
          refine iff_of_false (fun h => ?_) (fun h => ?_)
          · cases h
          · cases h.1.1
      | ok e =>
          rw [searchProfiles]
          by_cases hjson : e.isJson = false
          · have hp : profileOf serde (.ok e) = some none :=
              profileOf_skipped hjson
            have hcons : profilesOf serde (.ok e :: rest) = _ :=
              profilesOf_cons hp
            rw [if_pos hjson, ih hn, hp]
            unfold matchesOf
            rw [hcons]
            exact and_congr_left fun _ => (and_iff_right rfl).symm
          rw [if_neg hjson]
          cases hopen : openProfile serde e with
          | error text =>
              refine iff_of_false (fun h => ?_) (fun h => ?_)
              · split at h
                · cases h
                · cases h
              · rw [profileOf_refused hjson hopen] at h
                cases h.1.1
          | ok profile =>
              have hp := profileOf_read hjson hopen
              have hlen : ((some (e.path, profile)).toList
                  ++ profilesOf serde rest).length
                  = (profilesOf serde rest).length + 1 := rfl
              rw [hp, profilesOf_cons hp, matchesOf_cons hjson hopen, hlen,
                and_iff_right (show (some _).isSome = true from rfl)]
              by_cases hfull : n + 1 > 64
              · rw [if_pos hfull]
                refine iff_of_false (fun h => ?_) (fun h => ?_)
                · cases h
                · omega
              rw [if_neg hfull]
              show (if profile.merchantDomain = request.merchantDomain
                then _ else _) = _ ↔ _
              by_cases hdomain :
                  profile.merchantDomain = request.merchantDomain
              · rw [if_pos hdomain, if_pos hdomain]
                cases matched with
                | none =>
                    show searchProfiles serde request rest (n + 1) _ = _ ↔ _
                    rw [ih (by omega)]
                    refine and_congr_right fun _ => and_congr ?_ Iff.rfl
                    omega
                | some old =>
                    -- a second match has no place in an option
                    refine iff_of_false (fun h => ?_) (fun h => ?_)
                    · cases h
                    · have hlength := congrArg List.length h.2.2
                      cases m with
                      | none => cases hlength
                      | some found =>
                          rw [List.length_append, List.length_append] at hlength
                          simp at hlength
              · rw [if_neg hdomain, if_neg hdomain, ih (by omega)]
                refine and_congr_right fun _ => and_congr ?_ Iff.rfl
                omega

theorem ofList_entries {κ α : Type} [LinearOrder κ] (m : SortedMap κ α) :
    SortedMap.ofList m.entries = m := by
  refine SortedMap.ext fun k => ?_
  rw [get?_ofList (nodup_keys m)]
  rfl

/-- The profile the broker hands on: the saved one with the address of the
    purchase. -/
def withCheckoutUrl (fields : List (String × Doc)) (url : String) : Doc :=
  .obj ((SortedMap.ofList fields).insert "checkoutUrl" (.str url)).entries

theorem loadProfile_eq_ok {entries : List (Except String ProfileEntry)}
    {browser : String → Except String Unit} {config : Doc} :
    loadProfile serde (.ok entries) browser request = .ok config
      ↔ (∀ e ∈ entries, (profileOf serde e).isSome = true)
        ∧ (profilesOf serde entries).length ≤ 64
        ∧ ∃ path fields url b, matchesOf serde request entries
              = [(path, .obj fields)]
            ∧ request.redirectChain.head? = some url
            ∧ (SortedMap.ofList fields).get? "browserExecutable"
              = some (.str b)
            ∧ browser b = .ok ⟨⟩ ∧ config = withCheckoutUrl fields url := by
  unfold loadProfile
  simp only [bind_eq_ok, orRefuse_eq_ok, Except.ok.injEq, exists_eq_left']
  constructor
  · rintro ⟨m, hsearch, ⟨path, config'⟩, rfl, url, hurl, h⟩
    obtain ⟨hall, hlen, hmatch⟩ :=
      (searchProfiles_eq_ok (Nat.zero_le 64)).mp hsearch
    refine ⟨hall, by omega, ?_⟩
    cases config' with
    | obj fields =>
        dsimp only at h
        split at h
        · rename_i b hb
          rw [SortedMap.get?_insert_of_ne _ _ (by decide)] at hb
          obtain ⟨_, hbrowser, hconfig⟩ := bind_eq_ok.mp h
          cases hconfig
          exact ⟨path, fields, url, b, hmatch.symm, hurl, hb, hbrowser, rfl⟩
        · cases h
    | _ => cases h
  · rintro ⟨hall, hlen, path, fields, url, b, hmatch, hurl, hb, hbrowser, rfl⟩
    refine ⟨some (path, .obj fields), ?_, _, rfl, url, hurl, ?_⟩
    · exact (searchProfiles_eq_ok (Nat.zero_le 64)).mpr
        ⟨hall, by omega, hmatch.symm⟩
    · dsimp only
      rw [SortedMap.get?_insert_of_ne _ _ (by decide), hb]
      exact bind_eq_ok.mpr ⟨⟨⟩, hbrowser, rfl⟩

end Treasury

/-! ## What the console leaves -/

namespace OwnerConsole

open CixaData Checks Codec Treasury

variable {py : Python} {serde : SerdeJson} {request : PurchaseRequest}
  {files : Directory}

/-- A saved profile is one for a domain, within the broker's limits. -/
structure Sound (p : SavedProfile) : Prop where
  domain : isDomain p.merchantDomain = true
  timeout : 1000 ≤ p.timeoutMs ∧ p.timeoutMs ≤ 120000
  merchant : lit ("https://" ++ p.merchantDomain) ∈ p.navigation
  apart : ∀ origin ∈ p.navigation, origin ∉ p.processors

theorem checkProfile_sound {executable : Str → Except String Unit}
    {body : List (Str × Value)} {p : SavedProfile}
    (h : checkProfile py executable body = .ok p) : Sound p := by
  unfold checkProfile at h
  simp only [bind_eq_ok, refuseIf_eq_ok, orRefuse_eq_ok, pure_eq_ok] at h
  obtain ⟨_, _, id, _, domain, hdomain, _, _, _, _, _, _, t, ht, _, _, _, _,
    navigation, _, processors, _, _, hmerchant, _, hapart, selectors, _,
    rfl⟩ := h
  obtain ⟨given, _, hgiven⟩ := Option.bind_eq_some_iff.mp hdomain
  refine ⟨(Option.filter_eq_some_iff.mp hgiven).2, ?_, not_not.mp hmerchant, ?_⟩
  · unfold timeoutAt at ht
    split at ht
    · simp only [bind_eq_ok, refuseIf_eq_ok, pure_eq_ok] at ht
      obtain ⟨_, hin, rfl⟩ := ht
      exact not_not.mp hin
    · cases ht
  · intro origin hin hout
    exact hapart (List.any_eq_true.mpr ⟨origin, hin,
      List.contains_iff_mem.mpr hout⟩)

/-- The directory of a console: every file says what its name says. -/
def SoundFiles (files : Directory) : Prop :=
  ∀ id p, files.get? id = some p → p.profileId = id ∧ Sound p

theorem SoundFiles.insert (h : SoundFiles files) {p : SavedProfile}
    (hp : Sound p) : SoundFiles (files.insert p.profileId p) := by
  intro id q hq
  by_cases hid : id = p.profileId
  · rw [hid, SortedMap.get?_insert_self] at hq
    cases hq
    exact ⟨hid.symm, hp⟩
  · rw [SortedMap.get?_insert_of_ne _ _ hid] at hq
    exact h id q hq

theorem SoundFiles.erase (h : SoundFiles files) (name : String) :
    SoundFiles (files.erase name) := by
  intro id q hq
  rw [SortedMap.get?_erase] at hq
  split at hq
  · cases hq
  · exact h id q hq

/-- A request keeps the directory sound, whatever the file system does. -/
theorem SoundFiles.perform (h : SoundFiles files) (r : Request) :
    SoundFiles (r.perform py files) := by
  cases r with
  | save body executable fault =>
      show SoundFiles (saveCheckoutProfile py body executable fault files).2
      unfold saveCheckoutProfile
      cases hp : checkProfile py executable body with
      | error e => exact h
      | ok p =>
          cases fault with
          | none => exact h.insert (checkProfile_sound hp)
          | some fault =>
              cases fault with
              | before _ => exact h
              | after _ => exact h.insert (checkProfile_sound hp)
  | delete body fault =>
      show SoundFiles (deleteCheckoutProfile body fault files).2
      unfold deleteCheckoutProfile
      repeat' split
      all_goals first | exact h | exact h.erase _

/-- The directory after requests. -/
def performAll (py : Python) (rs : List Request) : Directory :=
  rs.foldl (Request.perform py) .empty

theorem performAll_sound (rs : List Request) : SoundFiles (performAll py rs) := by
  -- from any sound directory, so that the induction goes through
  have hfold : ∀ (rs : List Request) (files : Directory), SoundFiles files →
      SoundFiles (rs.foldl (Request.perform py) files) := by
    intro rs
    induction rs with
    | nil => exact fun _ h => h
    | cons r rs ih => exact fun files h => ih _ (h.perform r)
  exact hfold rs _ (fun _ _ h => by cases h)

/-! ## The directory as the broker lists it -/

/-- The file of a saved profile. -/
def fileEntry (py : Python) (f : String × SavedProfile) : ProfileEntry :=
  ⟨f.1 ++ ".json", true, .ok ⟨⟩, .ok (f.2.payload py)⟩

/-- A listing shows the files in some order, and maybe others that are not
    profiles. -/
def Lists (py : Python) (files : Directory)
    (entries : List (Except String ProfileEntry)) : Prop :=
  ∃ es : List ProfileEntry, entries = es.map .ok
    ∧ (es.filter ProfileEntry.isJson).Perm
      (files.entries.map (fileEntry py))

/-- A saved profile whose texts have scalars only. -/
structure PlainProfile where
  merchantDomain : String
  browserExecutable : String
  navigation : List String
  processors : List String
  selectors : List (String × String)
  timeoutMs : Int
  deriving DecidableEq

namespace PlainProfile

/-- Its configuration, as a document. -/
def config (q : PlainProfile) : Json :=
  .obj [("browserExecutable", .str q.browserExecutable),
    ("checkoutUrl", .str ("https://" ++ q.merchantDomain ++ "/")),
    ("allowedNavigationOrigins", .arr (q.navigation.map .str)),
    ("allowedProcessorOrigins", .arr (q.processors.map .str)),
    ("selectors", .obj (q.selectors.map fun s => (s.1, .str s.2))),
    ("timeoutMs", .num q.timeoutMs)]

/-- Its file, as a document. -/
def profile (q : PlainProfile) : Json :=
  .obj [("profileVersion", .num 1), ("merchantDomain", .str q.merchantDomain),
    ("config", q.config)]

/-- What the broker reads in it. -/
def read (q : PlainProfile) : ControlledCheckoutProfile :=
  ⟨1, q.merchantDomain, value q.config⟩

/-- The fields of its configuration. -/
def fields (q : PlainProfile) : List (String × Doc) :=
  (SortedMap.ofList (entriesOf (rereadFields
    [("browserExecutable", .str q.browserExecutable),
      ("checkoutUrl", .str ("https://" ++ q.merchantDomain ++ "/")),
      ("allowedNavigationOrigins", .arr (q.navigation.map .str)),
      ("allowedProcessorOrigins", .arr (q.processors.map .str)),
      ("selectors", .obj (q.selectors.map fun s => (s.1, .str s.2))),
      ("timeoutMs", .num q.timeoutMs)]))).entries

theorem get?_fields (q : PlainProfile) (name : String) :
    (SortedMap.ofList q.fields).get? name
      = SortedMap.lookupEntry name (entriesOf (rereadFields
        [("browserExecutable", .str q.browserExecutable),
          ("checkoutUrl", .str ("https://" ++ q.merchantDomain ++ "/")),
          ("allowedNavigationOrigins", .arr (q.navigation.map .str)),
          ("allowedProcessorOrigins", .arr (q.processors.map .str)),
          ("selectors", .obj (q.selectors.map fun s => (s.1, .str s.2))),
          ("timeoutMs", .num q.timeoutMs)])) := by
  unfold fields
  rw [ofList_entries, get?_ofList]
  show ["browserExecutable", "checkoutUrl", "allowedNavigationOrigins",
    "allowedProcessorOrigins", "selectors", "timeoutMs"].Nodup
  decide

end PlainProfile

/-- The profile as another JSON library reads it, unless a text of it holds
    half a surrogate pair. -/
def SavedProfile.plain (p : SavedProfile) : Option PlainProfile := do
  let browserExecutable ← textOf p.browserExecutable
  let navigation ← p.navigation.mapM textOf
  let processors ← p.processors.mapM textOf
  let selectors ← p.selectors.mapM fun s => do
    let name ← textOf s.1
    let value ← textOf s.2
    pure (name, value)
  pure ⟨p.merchantDomain, browserExecutable, navigation, processors, selectors,
    p.timeoutMs⟩

/-- The broker's library reads a file of the console's as the profile that it
    says, and refuses a text with half a surrogate pair. -/
def Rereads (py : Python) (serde : SerdeJson) (p : SavedProfile) : Prop :=
  match p.plain with
  | some q => serde.parse (p.payload py) = .ok (reread q.profile)
  | none => ∃ error, serde.parse (p.payload py) = .error error

theorem SavedProfile.plain_domain {p : SavedProfile} {q : PlainProfile}
    (h : p.plain = some q) : q.merchantDomain = p.merchantDomain
      ∧ q.timeoutMs = p.timeoutMs := by
  unfold SavedProfile.plain at h
  simp only [bind, Option.bind_eq_some_iff, pure, Option.some.injEq] at h
  obtain ⟨_, _, _, _, _, _, _, _, rfl⟩ := h
  exact ⟨rfl, rfl⟩

/-- The broker reads what the console wrote, or nothing. -/
theorem readProfile_saved {p : SavedProfile} (h : Rereads py serde p) :
    (∀ q, p.plain = some q → readProfile serde (p.payload py) = .ok q.read)
      ∧ (p.plain = none →
        ∃ error, readProfile serde (p.payload py) = .error error) := by
  unfold Rereads at h
  unfold readProfile
  constructor
  · intro q hq
    rw [hq] at h
    rw [h]
    rfl
  · intro hnone
    rw [hnone] at h
    obtain ⟨error, herror⟩ := h
    rw [herror]
    exact ⟨error, rfl⟩

/-- Whether the broker can read a file: it is not too large, and its texts are
    texts. -/
def Legible (py : Python) (p : SavedProfile) : Prop :=
  (p.payload py).length ≤ 65536 ∧ p.plain.isSome = true

theorem profileOf_saved {f : String × SavedProfile}
    (hreads : Rereads py serde f.2) {q : PlainProfile}
    (hsize : (f.2.payload py).length ≤ 65536) (hq : f.2.plain = some q) :
    profileOf serde (.ok (fileEntry py f))
      = some (some (f.1 ++ ".json", q.read)) := by
  refine profileOf_read nofun ?_
  show (refuseIf ((f.2.payload py).length > 65536) _ >>= fun _ =>
    readProfile serde (f.2.payload py) >>= _) = _
  rw [(readProfile_saved hreads).1 q hq]
  unfold refuseIf
  rw [if_neg (Nat.not_lt.mpr hsize)]
  rfl

/-- A file is read exactly when it is legible. -/
theorem profileOf_isSome {f : String × SavedProfile}
    (hreads : Rereads py serde f.2) :
    (profileOf serde (.ok (fileEntry py f))).isSome = true
      ↔ Legible py f.2 := by
  constructor
  · intro hsome
    have hopen : ∃ profile, openProfile serde (fileEntry py f) = .ok profile := by
      cases hx : openProfile serde (fileEntry py f) with
      | ok profile => exact ⟨profile, rfl⟩
      | error e =>
          have hjson : ¬(fileEntry py f).isJson = false := nofun
          rw [profileOf_refused hjson hx] at hsome
          cases hsome
    obtain ⟨profile, hopen⟩ := hopen
    unfold openProfile at hopen
    simp only [bind_eq_ok, refuseIf_eq_ok, fileEntry, Except.ok.injEq,
      exists_eq_left'] at hopen
    obtain ⟨_, _, _, hsize, profile', hread, _⟩ := hopen
    refine ⟨not_lt.mp hsize, ?_⟩
    by_contra hplain
    obtain ⟨error, herror⟩ := (readProfile_saved hreads).2
      (Option.not_isSome_iff_eq_none.mp hplain)
    cases hread.symm.trans herror
  · rintro ⟨hsize, hplain⟩
    obtain ⟨q, hq⟩ := Option.isSome_iff_exists.mp hplain
    rw [profileOf_saved hreads hsize hq]
    rfl

section Listing

variable {entries : List (Except String ProfileEntry)}

/-- Every listed file is read, when every saved one is legible. -/
theorem Lists.readable (h : Lists py files entries)
    (hreads : ∀ f ∈ files.entries, Rereads py serde f.2) :
    (∀ e ∈ entries, (profileOf serde e).isSome = true)
      ↔ ∀ f ∈ files.entries, Legible py f.2 := by
  obtain ⟨es, rfl, hperm⟩ := h
  rw [List.forall_mem_map]
  constructor
  · intro hall f hf
    have hmem := (List.mem_filter.mp
      (hperm.mem_iff.mpr (List.mem_map_of_mem hf))).1
    exact (profileOf_isSome (hreads f hf)).mp (hall _ hmem)
  · intro hall e he
    by_cases hjson : e.isJson = false
    · rw [profileOf_skipped hjson]
      rfl
    · have hmem : e ∈ es.filter ProfileEntry.isJson :=
        List.mem_filter.mpr ⟨he, (Bool.not_eq_false _).mp hjson⟩
      obtain ⟨f, hf, rfl⟩ := List.mem_map.mp (hperm.mem_iff.mp hmem)
      exact (profileOf_isSome (hreads f hf)).mpr (hall f hf)

/-- The listed profiles are the saved ones, in some order. -/
theorem Lists.profiles (h : Lists py files entries)
    (hreads : ∀ f ∈ files.entries, Rereads py serde f.2)
    (hall : ∀ f ∈ files.entries, Legible py f.2) :
    (profilesOf serde entries).Perm (files.entries.filterMap fun f =>
      f.2.plain.map fun q => (f.1 ++ ".json", q.read)) := by
  obtain ⟨es, rfl, hperm⟩ := h
  have hfilter : profilesOf serde (es.map .ok)
      = (es.filter ProfileEntry.isJson).filterMap
        (fun e => (profileOf serde (.ok e)).join) := by
    unfold profilesOf
    rw [List.filterMap_map, List.filterMap_filter]
    refine List.filterMap_congr fun e _ => ?_
    by_cases hjson : e.isJson = false
    · rw [Function.comp_apply, profileOf_skipped hjson, hjson]
      rfl
    · rw [(Bool.not_eq_false _).mp hjson, if_pos rfl]
      rfl
  rw [hfilter]
  refine (hperm.filterMap _).trans ?_
  rw [List.filterMap_map]
  refine .of_eq (List.filterMap_congr fun f hf => ?_)
  obtain ⟨hsize, hplain⟩ := hall f hf
  obtain ⟨q, hq⟩ := Option.isSome_iff_exists.mp hplain
  rw [Function.comp_apply, profileOf_saved (hreads f hf) hsize hq, hq]
  rfl

/-- Of legible files the listing shows as many as there are. -/
theorem Lists.count (h : Lists py files entries)
    (hreads : ∀ f ∈ files.entries, Rereads py serde f.2)
    (hall : ∀ f ∈ files.entries, Legible py f.2) :
    (profilesOf serde entries).length = files.entries.length := by
  rw [(h.profiles hreads hall).length_eq, List.filterMap_length_eq_length]
  intro f hf
  rw [Option.isSome_map]
  exact (hall f hf).2

/-- One file is the merchant's, and no other. -/
theorem Lists.matches_iff (h : Lists py files entries)
    (hreads : ∀ f ∈ files.entries, Rereads py serde f.2)
    (hall : ∀ f ∈ files.entries, Legible py f.2)
    {path : String} {fields : List (String × Doc)} :
    matchesOf serde request entries = [(path, .obj fields)]
      ↔ ∃ f ∈ files.entries, ∃ q, f.2.plain = some q
        ∧ f.2.merchantDomain = request.merchantDomain
        ∧ (∀ g ∈ files.entries,
          g.2.merchantDomain = request.merchantDomain → g = f)
        ∧ path = f.1 ++ ".json" ∧ fields = q.fields := by
  -- the matches are those of the directory, in the order of the listing
  have hmatches : (matchesOf serde request entries).Perm
      ((files.entries.filter (fun f =>
        decide (f.2.merchantDomain = request.merchantDomain))).filterMap
        (fun f => f.2.plain.map fun q => (f.1 ++ ".json", .obj q.fields))) := by
    refine (((h.profiles hreads hall).filter _).map _).trans (.of_eq ?_)
    rw [List.filter_filterMap, List.map_filterMap, List.filterMap_filter]
    refine List.filterMap_congr fun f hf => ?_
    obtain ⟨q, hq⟩ := Option.isSome_iff_exists.mp (hall f hf).2
    rw [hq, ← (SavedProfile.plain_domain hq).1]
    by_cases hdomain : q.merchantDomain = request.merchantDomain
    · simp [hdomain, PlainProfile.read]
      rfl
    · simp [hdomain, PlainProfile.read]
  have hnodup : files.entries.Nodup := .of_map _ (nodup_keys files)
  -- there is one match, if one file is for the merchant
  have hone : ∀ f, files.entries.filter (fun f =>
      decide (f.2.merchantDomain = request.merchantDomain)) = [f]
      ↔ f ∈ files.entries ∧ f.2.merchantDomain = request.merchantDomain
        ∧ ∀ g ∈ files.entries,
          g.2.merchantDomain = request.merchantDomain → g = f := by
    intro f
    rw [← List.perm_singleton, List.perm_ext_iff_of_nodup (hnodup.filter _)
      (List.nodup_singleton f)]
    simp only [List.mem_filter, decide_eq_true_eq, List.mem_singleton]
    constructor
    · intro hall
      obtain ⟨hmem, hdomain⟩ := (hall f).mpr rfl
      exact ⟨hmem, hdomain, fun g hg hd => (hall g).mp ⟨hg, hd⟩⟩
    · rintro ⟨hmem, hdomain, huniq⟩ g
      constructor
      · rintro ⟨hg, hd⟩
        exact huniq g hg hd
      · rintro rfl
        exact ⟨hmem, hdomain⟩
  constructor
  · intro heq
    rw [heq] at hmatches
    have hsingle := List.singleton_perm.mp hmatches
    have hlength := congrArg List.length hsingle
    rw [List.filterMap_length_eq_length.mpr fun f hf => by
      rw [Option.isSome_map]
      exact (hall f (List.mem_filter.mp hf).1).2] at hlength
    obtain ⟨f, hf⟩ := List.length_eq_one_iff.mp hlength.symm
    obtain ⟨hmem, hdomain, huniq⟩ := (hone f).mp hf
    obtain ⟨q, hq⟩ := Option.isSome_iff_exists.mp (hall f hmem).2
    rw [hf, List.filterMap_cons, hq] at hsingle
    cases hsingle
    exact ⟨f, hmem, q, hq, hdomain, huniq, rfl, rfl⟩
  · rintro ⟨f, hmem, q, hq, hdomain, huniq, rfl, rfl⟩
    rw [(hone f).mpr ⟨hmem, hdomain, huniq⟩, List.filterMap_cons, hq] at hmatches
    exact List.perm_singleton.mp hmatches

end Listing

/-! ## From the console to the broker -/

/-- **SAVED PROFILES ARE FOUND**: whatever was saved and deleted, and in
    whatever order the directory lists its files, the broker finds a profile
    for a purchase exactly when there are not too many, no file is too large,
    no text of any has half a surrogate pair, and exactly one saved profile is
    the merchant's; what it finds is what the console saved, with the address
    of the purchase, and its time limit is one the broker takes. -/
theorem saved_profiles_are_found (rs : List Request)
    {entries : List (Except String ProfileEntry)}
    (hlists : Lists py (performAll py rs) entries)
    (hreads : ∀ f ∈ (performAll py rs).entries, Rereads py serde f.2)
    (browser : String → Except String Unit) (config : Doc) :
    (loadProfile serde (.ok entries) browser request = .ok config
        ↔ (performAll py rs).size ≤ 64
          ∧ (∀ f ∈ (performAll py rs).entries, Legible py f.2)
          ∧ ∃ id p q url, (performAll py rs).get? id = some p
            ∧ p.plain = some q
            ∧ p.merchantDomain = request.merchantDomain
            ∧ (∀ id' p', (performAll py rs).get? id' = some p' →
              p'.merchantDomain = request.merchantDomain → id' = id)
            ∧ request.redirectChain.head? = some url
            ∧ browser q.browserExecutable = .ok ⟨⟩
            ∧ config = withCheckoutUrl q.fields url)
      ∧ (loadProfile serde (.ok entries) browser request = .ok config →
        ∃ n, profileNumber config "timeoutMs" = some n
          ∧ 1000 ≤ n ∧ n ≤ 120000) := by
  have hfound : loadProfile serde (.ok entries) browser request = .ok config
      ↔ (performAll py rs).size ≤ 64
        ∧ (∀ f ∈ (performAll py rs).entries, Legible py f.2)
        ∧ ∃ id p q url, (performAll py rs).get? id = some p
          ∧ p.plain = some q
          ∧ p.merchantDomain = request.merchantDomain
          ∧ (∀ id' p', (performAll py rs).get? id' = some p' →
            p'.merchantDomain = request.merchantDomain → id' = id)
          ∧ request.redirectChain.head? = some url
          ∧ browser q.browserExecutable = .ok ⟨⟩
          ∧ config = withCheckoutUrl q.fields url := by
    -- a plain profile names its browser
    have hbrowser : ∀ (q : PlainProfile) b,
        (SortedMap.ofList q.fields).get? "browserExecutable" = some (.str b)
          ↔ b = q.browserExecutable := by
      intro q b
      rw [q.get?_fields]
      show some (Doc.str q.browserExecutable) = _ ↔ _
      constructor
      · intro h
        cases h
        rfl
      · rintro rfl
        rfl
    rw [loadProfile_eq_ok, hlists.readable hreads]
    constructor
    · rintro ⟨hall, hlen, path, fields, url, b, hmatch, hurl, hb, hok, rfl⟩
      rw [hlists.count hreads hall] at hlen
      obtain ⟨⟨id, p⟩, hmem, q, hq, hdomain, huniq, rfl, rfl⟩ :=
        (hlists.matches_iff hreads hall).mp hmatch
      obtain rfl := (hbrowser q b).mp hb
      refine ⟨hlen, hall, id, p, q, url, SortedMap.get?_eq_some.mpr hmem, hq,
        hdomain, fun id' p' hp' hd => ?_, hurl, hok, rfl⟩
      exact congrArg Prod.fst
        (huniq (id', p') (SortedMap.get?_eq_some.mp hp') hd)
    · rintro ⟨hlen, hall, id, p, q, url, hp, hq, hdomain, huniq, hurl, hok, rfl⟩
      refine ⟨hall, ?_, id ++ ".json", q.fields, url, q.browserExecutable, ?_,
        hurl, (hbrowser q _).mpr rfl, hok, rfl⟩
      · rw [hlists.count hreads hall]
        exact hlen
      · refine (hlists.matches_iff hreads hall).mpr ⟨(id, p),
          SortedMap.get?_eq_some.mp hp, q, hq, hdomain, ?_, rfl, rfl⟩
        rintro ⟨id', p'⟩ hmem hd
        have hp' := SortedMap.get?_eq_some.mpr hmem
        obtain rfl := huniq id' p' hp' hd
        rw [Option.some.inj (hp.symm.trans hp')]
  refine ⟨hfound, fun h => ?_⟩
  obtain ⟨_, _, id, p, q, url, hp, hq, _, _, _, _, rfl⟩ := hfound.mp h
  obtain ⟨_, hsound⟩ := performAll_sound rs id p hp
  have htimeout := hsound.timeout
  rw [← (SavedProfile.plain_domain hq).2] at htimeout
  refine ⟨q.timeoutMs, ?_, htimeout⟩
  -- the address is replaced, the time limit stays
  have hlookup : SortedMap.lookupEntry "timeoutMs"
      ((SortedMap.ofList q.fields).insert "checkoutUrl" (.str url)).entries
      = some (.whole q.timeoutMs) := by
    show ((SortedMap.ofList q.fields).insert _ _).get? _ = _
    rw [SortedMap.get?_insert_of_ne _ _ (by decide), q.get?_fields]
    rfl
  unfold profileNumber withCheckoutUrl
  dsimp only
  rw [hlookup]
  refine if_pos ⟨?_, ?_⟩
  · omega
  · unfold u64Max
    omega

mutual

/-- A value of ASCII texts and whole numbers as a document. -/
def jsonOf : Value → Json
  | .bool b => .bool b
  | .int n => .num n
  | .str s => .str ((textOf s).getD "")
  | .list items => .arr (itemsOf items)
  | .dict items => .obj (fieldsOf items)
  | _ => .null

/-- The items of a list as documents. -/
def itemsOf : List Value → List Json
  | [] => []
  | v :: rest => jsonOf v :: itemsOf rest

/-- The items of a dictionary as fields. -/
def fieldsOf : List (Str × Value) → List (String × Json)
  | [] => []
  | (name, v) :: rest => ((textOf name).getD "", jsonOf v) :: fieldsOf rest

end

/-- Libraries that split the addresses below as they are, and write ASCII
    texts. -/
def plainPython : Python where
  lower := id
  urlsplit := fun s => .ok ⟨lit "https", some (s.drop 8), none, none, .ok none,
    lit "", lit "", lit ""⟩
  dumps := fun v => Json.render (jsonOf v)

/-- The profile of one shop. -/
def shopProfile : SavedProfile where
  profileId := "shop"
  merchantDomain := "shop.example.test"
  browserExecutable := lit "/usr/bin/browser"
  navigation := [lit "https://shop.example.test"]
  processors := [lit "https://pay.example.test"]
  selectors := requiredSelectors.map fun name => (lit name, lit ("#" ++ name))
  timeoutMs := 30000

/-- The owner saves a profile for one merchant, with one of its selectors. -/
def saves (selector : Str) : Request :=
  .save [(lit "profile_id", .str (lit "shop")),
    (lit "merchant_domain", .str (lit "shop.example.test")),
    (lit "browser_executable", .str (lit "/usr/bin/browser")),
    (lit "allowed_navigation_origins",
      .list [.str (lit "https://shop.example.test")]),
    (lit "allowed_processor_origins",
      .list [.str (lit "https://pay.example.test")]),
    (lit "selectors", .dict (requiredSelectors.map fun name =>
      (lit name, .str (if name = "submit" then selector
        else lit ("#" ++ name))))),
    (lit "timeout_ms", .int 30000)] (fun _ => .ok ⟨⟩) none

-- a selector that is half a surrogate pair is saved, and is not plain
example : ((performAll plainPython [saves [.surrogate 0]]).get? "shop").any
    (fun p => p.plain.isNone) = true := by decide +kernel

/-- A library that reads the one file. -/
def readsOne (p : SavedProfile) (q : PlainProfile) : SerdeJson where
  parse := fun bytes => if bytes = p.payload plainPython
    then .ok (reread q.profile) else .error "expected value"
  write := fun _ => []
  explain := fun _ _ => ""
  checkoutSecret := fun _ => none
  isProviderOutcome := fun _ => false

theorem readsOne_rereads {p : SavedProfile} {q : PlainProfile}
    (h : p.plain = some q) : Rereads plainPython (readsOne p q) p := by
  unfold Rereads
  rw [h]
  exact if_pos rfl

/-- The profile of the shop as the broker reads it. -/
def shopPlain : PlainProfile where
  merchantDomain := "shop.example.test"
  browserExecutable := "/usr/bin/browser"
  navigation := ["https://shop.example.test"]
  processors := ["https://pay.example.test"]
  selectors := requiredSelectors.map fun name => (name, "#" ++ name)
  timeoutMs := 30000

theorem shopProfile_plain : shopProfile.plain = some shopPlain := by
  decide +kernel

/-- A purchase from that merchant. -/
def shopPurchase : PurchaseRequest where
  idempotencyKey := "order-1"
  amount := ⟨1200, "CAD"⟩
  finalTotal := ⟨1200, "CAD"⟩
  merchantDomain := "shop.example.test"
  category := "books"
  items := [⟨"a book", 1, 1200⟩]
  recurring := false
  trialAutoRenew := false
  storedCard := false
  tipMinor := 0
  preauthorization := false
  installments := false
  fulfillmentProfile := "digital-email"
  paymentForm := .hostedFields
  redirectChain := ["https://shop.example.test/cart"]
  attempts := 1
  sessionId := "session-1"
  scenario := .normal

/-- It is checked out at its own address. -/
theorem saved_profiles_are_found_shop :
    loadProfile (readsOne shopProfile shopPlain)
        (.ok [.ok (fileEntry plainPython ("shop", shopProfile))])
        (fun _ => .ok ⟨⟩) shopPurchase
      = .ok (withCheckoutUrl shopPlain.fields
        "https://shop.example.test/cart") := by
  have hsaved : (performAll plainPython [saves (lit "#submit")]).entries
      = [("shop", shopProfile)] := by decide +kernel
  have hlists : Lists plainPython (performAll plainPython [saves (lit "#submit")])
      [.ok (fileEntry plainPython ("shop", shopProfile))] := by
    refine ⟨[fileEntry plainPython ("shop", shopProfile)], rfl, ?_⟩
    rw [hsaved]
    exact .refl _
  refine ((saved_profiles_are_found [saves (lit "#submit")] hlists ?_
    (fun _ => .ok ⟨⟩) _).1).mpr ⟨?_, ?_, "shop", shopProfile, shopPlain,
      "https://shop.example.test/cart", ?_, shopProfile_plain, rfl, ?_, rfl,
      rfl, rfl⟩
  · rw [hsaved]
    rintro f hf
    obtain rfl := List.mem_singleton.mp hf
    exact readsOne_rereads shopProfile_plain
  · unfold SortedMap.size
    rw [hsaved]
    decide
  · rw [hsaved]
    rintro f hf
    obtain rfl := List.mem_singleton.mp hf
    refine ⟨?_, by rw [shopProfile_plain]; rfl⟩
    decide +kernel
  · exact SortedMap.get?_eq_some.mpr (hsaved ▸ List.mem_singleton_self _)
  · intro id p hp _
    have hmem := SortedMap.get?_eq_some.mp hp
    rw [hsaved] at hmem
    exact congrArg Prod.fst (List.mem_singleton.mp hmem)

end OwnerConsole
